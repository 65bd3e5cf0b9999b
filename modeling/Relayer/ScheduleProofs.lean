import Relayer.DurationProofs

/-! # The schedule of the nodes

    `TimeStream` of `libp2p/schedule/time.go`: every node computes from a start
    time and an interval when its first event is, by the clock it reads as it
    starts.  A start that lies behind is moved on by whole intervals, in
    arithmetic on durations that rounds towards zero; no start at all is
    replaced by the clock, rounded down.

    * `timeStream` is the computation, with a reading of the clock for each of
      its calls of `time.Now`;
    * `InRange` says that no difference overflows, and `firstEvent_eq` that the
      division then counts the slots as intended;
    * **`schedule_agrees`**: the first event, how long it is waited for, and
      when two nodes compute the same one. -/

namespace RelayerSchedule

open Durations

/-- The start time, or what replaces it: `startTime.IsZero()`. -/
def effectiveStart (startTime : ℤ) (interval : Int64) (now : ℤ) : ℤ :=
  if startTime = 0 then truncate now interval else startTime

/-- The time of the first event of `TimeStream`.  The clock is read once to
    replace a zero start, and once for `diff`; a division by zero is a panic. -/
def timeStream (startTime : ℤ) (interval : Int64) (nowStart nowDiff : ℤ) :
    Option ℤ :=
  let startTime := effectiveStart startTime interval nowStart
  let diff := sub startTime nowDiff
  if diff < 0 then
    if interval = 0 then none
    else
      let total := diff - interval
      let times := total / interval * -1
      some (startTime + (times * interval).toInt)
  else some startTime

/-- The same with one reading of the clock. -/
def firstEvent (startTime : ℤ) (interval : Int64) (now : ℤ) : Option ℤ :=
  timeStream startTime interval now now

/-- The differences of the computation are durations. -/
def InRange (startTime : ℤ) (interval : Int64) (now : ℤ) : Prop :=
  now - effectiveStart startTime interval now + interval.toInt < 2 ^ 63

instance decidableInRange (startTime : ℤ) (interval : Int64) (now : ℤ) :
    Decidable (InRange startTime interval now) :=
  inferInstanceAs (Decidable (_ < _))

/-! ## The number of intervals -/

/-- **COUNTING SLOTS**: rounding `total` towards zero and changing its sign
    gives one more than the whole intervals that have passed. -/
theorem times_eq (diff : Int64) {interval : Int64} (hpos : 0 < interval.toInt)
    (hneg : diff.toInt < 0) (hrange : -diff.toInt + interval.toInt < 2 ^ 63) :
    ((diff - interval) / interval * -1).toInt =
      -diff.toInt / interval.toInt + 1 := by
  have hlow := diff.le_toInt
  have htotal : (diff - interval).toInt = diff.toInt - interval.toInt :=
    toInt_sub_of_fits (by omega) (by omega)
  have hdiv : ((diff - interval) / interval).toInt =
      -(-diff.toInt / interval.toInt + 1) := by
    rw [toInt_div_of_pos _ hpos, htotal,
      show diff.toInt - interval.toInt = -(-diff.toInt + interval.toInt) by ring,
      Int.neg_tdiv, Int.tdiv_eq_ediv_of_nonneg (by omega),
      Int.add_ediv_of_dvd_right (dvd_refl _), Int.ediv_self hpos.ne']
  -- the quotient is at most what is divided
  have hsmall : -diff.toInt / interval.toInt ≤ -diff.toInt :=
    Int.ediv_le_self _ (by omega)
  have hnonneg : 0 ≤ -diff.toInt / interval.toInt :=
    Int.ediv_nonneg (by omega) hpos.le
  have hone : (-1 : Int64).toInt = -1 := by decide
  rw [toInt_mul_of_fits, hdiv, hone]
  · ring
  · rw [hdiv, hone]
    omega
  · rw [hdiv, hone]
    omega

/-- **THE FIRST EVENT** is the start, or the next slot after the clock. -/
theorem firstEvent_eq {startTime now : ℤ} {interval : Int64}
    (hpos : 0 < interval.toInt) (hrange : InRange startTime interval now) :
    firstEvent startTime interval now =
      some (if now ≤ effectiveStart startTime interval now then
        effectiveStart startTime interval now
      else nextSlot (effectiveStart startTime interval now) interval.toInt
        now) := by
  rw [firstEvent, timeStream]
  rw [InRange] at hrange
  generalize effectiveStart startTime interval now = start at hrange ⊢
  -- the start lies ahead and is the first event, or slots have passed
  by_cases hle : now ≤ start
  · have hdiff : ¬ sub start now < 0 := by
      rw [sub_lt_zero_iff]
      exact not_lt.mpr hle
    rw [if_pos hle]
    exact if_neg hdiff
  · have hlt : start < now := not_le.mp hle
    have hzero : interval ≠ 0 := by
      rintro rfl
      exact absurd hpos (by decide)
    have hdiff : (sub start now).toInt = start - now :=
      toInt_sub_of_le (by omega) (by omega)
    -- no difference saturates in this range, so the integers can be used
    have htimes := times_eq (sub start now) hpos (by omega) (by omega)
    rw [hdiff, neg_sub] at htimes
    have hslot := nextSlot_sub start now hpos
    rw [nextSlot] at hslot
    have hpassed : 0 ≤ (now - start) / interval.toInt :=
      Int.ediv_nonneg (by omega) hpos.le
    have hfits := Int.mul_nonneg (by omega :
      0 ≤ (now - start) / interval.toInt + 1) hpos.le
    simp only [(sub_lt_zero_iff start now).mpr hlt, if_true, hzero, if_false,
      hle, nextSlot]
    rw [toInt_mul_of_fits, htimes]
    · rw [htimes]
      omega
    · rw [htimes]
      omega

/-! ## Two nodes -/

/-- Two clocks are in one slot `[start + k·interval, start + (k+1)·interval)`. -/
def SameSlot (start : ℤ) (interval : Int64) (now now' : ℤ) : Prop :=
  ∃ k : ℤ, now ∈ Set.Ico (start + k * interval.toInt)
      (start + (k + 1) * interval.toInt) ∧
    now' ∈ Set.Ico (start + k * interval.toInt)
      (start + (k + 1) * interval.toInt)

/-- What a clock in slot `k`, other than the start itself, leads to. -/
theorem firstEvent_of_mem {startTime now : ℤ} {interval : Int64}
    (hpos : 0 < interval.toInt) (hrange : InRange startTime interval now)
    {start k : ℤ} (hstart : effectiveStart startTime interval now = start)
    (hmem : now ∈ Set.Ico (start + k * interval.toInt)
      (start + (k + 1) * interval.toInt)) (hne : now ≠ start) :
    firstEvent startTime interval now =
      some (if k < 0 then start else start + (k + 1) * interval.toInt) := by
  rw [firstEvent_eq hpos hrange, hstart]
  by_cases hk : k < 0
  · -- the slot ends before the start
    have hend : (k + 1) * interval.toInt ≤ 0 :=
      mul_nonpos_of_nonpos_of_nonneg (by omega) hpos.le
    have hbefore : now ≤ start := by
      have hlt := hmem.2
      omega
    rw [if_pos hk, if_pos hbefore]
  · have hbegin : 0 ≤ k * interval.toInt := mul_nonneg (by omega) hpos.le
    have hafter : ¬ now ≤ start := by
      have hle := hmem.1
      omega
    rw [if_neg hk, if_neg hafter, nextSlot_of_mem hpos hmem]

/-- **ONE SCHEDULE**: for every start, every positive interval and every clock
    whose differences do not overflow, the first event is the start if that has
    not passed, and otherwise the least later instant at a whole number of
    intervals from it, which is waited for at most one interval.  Two nodes
    whose clocks are in one slot, and neither exactly at the start, compute the
    same event; also if the start is zero, where the slots are counted from the
    zero time and neither clock is exactly at a slot. -/
theorem schedule_agrees {interval : Int64} (hpos : 0 < interval)
    (startTime : ℤ) :
    (∀ now, InRange startTime interval now →
      ∃ t, firstEvent startTime interval now = some t ∧
        (now ≤ effectiveStart startTime interval now →
          t = effectiveStart startTime interval now) ∧
        (effectiveStart startTime interval now < now →
          IsLeast {t | (∃ k : ℤ, t = effectiveStart startTime interval now +
            k * interval.toInt) ∧ now < t} t ∧
          0 < sub t now ∧ sub t now ≤ interval)) ∧
    (startTime ≠ 0 → ∀ now now', InRange startTime interval now →
      InRange startTime interval now' →
      SameSlot startTime interval now now' →
      now ≠ startTime → now' ≠ startTime →
      firstEvent startTime interval now =
        firstEvent startTime interval now') ∧
    (startTime = 0 → ∀ now now', InRange startTime interval now →
      InRange startTime interval now' →
      SameSlot 0 interval now now' →
      now ≠ truncate now interval → now' ≠ truncate now' interval →
      firstEvent startTime interval now =
        firstEvent startTime interval now') := by
  have hpos : 0 < interval.toInt := Int64.lt_iff_toInt_lt.mp hpos
  refine ⟨?_, ?_, ?_⟩
  · intro now hrange
    refine ⟨_, firstEvent_eq hpos hrange, fun hle => if_pos hle, fun hlt => ?_⟩
    rw [if_neg (not_le.mpr hlt)]
    refine ⟨isLeast_nextSlot _ now hpos, ?_⟩
    obtain ⟨hgt, hle⟩ := nextSlot_sub
      (effectiveStart startTime interval now) now hpos
    have hword := interval.toInt_lt
    rw [Int64.lt_iff_toInt_lt, Int64.le_iff_toInt_le, Int64.toInt_zero,
      toInt_sub_of_le (by omega) (by omega)]
    exact ⟨hgt, hle⟩
  · rintro hzero now now' hrange hrange' ⟨k, hmem, hmem'⟩ hne hne'
    have hstart : ∀ now, effectiveStart startTime interval now = startTime :=
      fun now => if_neg hzero
    rw [firstEvent_of_mem hpos hrange (hstart now) hmem hne,
      firstEvent_of_mem hpos hrange' (hstart now') hmem' hne']
  · rintro rfl now now' hrange hrange' ⟨k, hmem, hmem'⟩ hne hne'
    rw [zero_add, zero_add] at hmem hmem'
    -- both clocks are truncated to the slot, which is the first one from there
    have hslot : ∀ now ∈ Set.Ico (k * interval.toInt)
        ((k + 1) * interval.toInt), InRange 0 interval now →
        now ≠ truncate now interval →
        firstEvent 0 interval now = some (k * interval.toInt +
          (0 + 1) * interval.toInt) := by
      intro now hmem hrange hne
      have htrunc := truncate_of_mem hpos hmem
      rw [htrunc] at hne
      refine (firstEvent_of_mem (k := 0) hpos hrange htrunc ?_ hne).trans rfl
      rw [zero_mul, add_zero, zero_add, one_mul, ← add_one_mul]
      exact hmem
    rw [hslot now hmem hrange hne, hslot now' hmem' hrange' hne']

/-- Two clocks of one slot, with a start given and without one. -/
theorem schedule_agrees_sample :
    firstEvent 100 10 123 = some 130 ∧
    firstEvent 100 10 123 = firstEvent 100 10 129 ∧
    firstEvent 0 10 123 = firstEvent 0 10 129 := by
  have hslot : SameSlot 100 10 123 129 := ⟨2, by decide, by decide⟩
  have hzero : SameSlot 0 10 123 129 := ⟨12, by decide, by decide⟩
  refine ⟨by decide, ?_, ?_⟩
  · exact (schedule_agrees (by decide) 100).2.1 (by decide) 123 129
      (by decide) (by decide) hslot (by decide) (by decide)
  · exact (schedule_agrees (by decide) 0).2.2 rfl 123 129
      (by decide) (by decide) hzero (by decide) (by decide)

end RelayerSchedule
