import Mathlib

/-! # Times and durations

    A time is its distance in nanoseconds from the zero time, a duration is a
    signed word of 64 bits that wraps around.  `sub` is the difference of two
    times, which is cut off where it has no duration, and `truncate` rounds a
    time down.

    * `toInt_sub_of_fits`, `toInt_mul_of_fits`: a result that fits is the one
      of the integers;
    * `sub_lt_zero_iff`, `toInt_sub_of_le`: the sign of a difference is right
      even where its value is cut off;
    * **`isLeast_nextSlot`**, **`nextSlot_of_mem`**: of the instants at whole
      distances from an origin, the first one after a given time, which is the
      same for all times of one slot. -/

namespace Durations

/-! ## Words that do not wrap -/

/-- A value that fits in an `int64` is not wrapped. -/
theorem bmod_of_fits {z : ℤ} (hlow : -2 ^ 63 ≤ z) (hhigh : z < 2 ^ 63) :
    z.bmod (2 ^ 64) = z := by
  refine Int.bmod_eq_of_le ?_ ?_
  · omega
  · omega

theorem toInt_sub_of_fits {a b : Int64} (hlow : -2 ^ 63 ≤ a.toInt - b.toInt)
    (hhigh : a.toInt - b.toInt < 2 ^ 63) :
    (a - b).toInt = a.toInt - b.toInt := by
  rw [Int64.toInt_sub, bmod_of_fits hlow hhigh]

theorem toInt_mul_of_fits {a b : Int64} (hlow : -2 ^ 63 ≤ a.toInt * b.toInt)
    (hhigh : a.toInt * b.toInt < 2 ^ 63) :
    (a * b).toInt = a.toInt * b.toInt := by
  rw [Int64.toInt_mul, bmod_of_fits hlow hhigh]

/-- Division by a positive number does not wrap. -/
theorem toInt_div_of_pos (a : Int64) {b : Int64} (hb : 0 < b.toInt) :
    (a / b).toInt = a.toInt.tdiv b.toInt := by
  refine Int64.toInt_div_of_ne_right a b ?_
  rintro rfl
  exact absurd hb (by decide)

/-! ## Differences and truncation -/

/-- `t.Sub(u)`: the smallest or the largest duration if the difference is
    none. -/
def sub (t u : ℤ) : Int64 :=
  if t - u < -2 ^ 63 then Int64.minValue
  else if 2 ^ 63 ≤ t - u then Int64.maxValue
  else Int64.ofInt (t - u)

/-- `t.Truncate(d)`. -/
def truncate (t : ℤ) (d : Int64) : ℤ :=
  if d ≤ 0 then t else t - t % d.toInt

theorem toInt_sub_of_le {t u : ℤ} (hlow : -2 ^ 63 ≤ t - u)
    (hhigh : t - u < 2 ^ 63) : (sub t u).toInt = t - u := by
  rw [sub, if_neg (not_lt.mpr hlow), if_neg (not_le.mpr hhigh),
    Int64.toInt_ofInt_of_le hlow hhigh]

/-- A difference has the sign of the order. -/
theorem sub_lt_zero_iff (t u : ℤ) : sub t u < 0 ↔ t < u := by
  rw [Int64.lt_iff_toInt_lt, Int64.toInt_zero]
  by_cases hlow : t - u < -2 ^ 63
  · rw [sub, if_pos hlow, Int64.toInt_minValue]
    omega
  · by_cases hhigh : 2 ^ 63 ≤ t - u
    · rw [sub, if_neg hlow, if_pos hhigh, Int64.toInt_maxValue]
      omega
    · rw [toInt_sub_of_le (not_lt.mp hlow) (not_le.mp hhigh)]
      omega

/-- `t.Truncate(d)` drops the rest modulo a positive `d`. -/
theorem truncate_of_pos (t : ℤ) {d : Int64} (hd : 0 < d.toInt) :
    truncate t d = t - t % d.toInt := by
  refine if_neg ?_
  rw [Int64.le_iff_toInt_le, Int64.toInt_zero]
  exact not_le.mpr hd

/-- Times between two multiples are truncated to the lower one. -/
theorem truncate_of_mem {t : ℤ} {d : Int64} (hd : 0 < d.toInt) {k : ℤ}
    (hmem : t ∈ Set.Ico (k * d.toInt) ((k + 1) * d.toInt)) :
    truncate t d = k * d.toInt := by
  have hk : t / d.toInt = k := by
    refine (Int.ediv_eq_iff_of_pos hd).mpr ⟨hmem.1, ?_⟩
    rw [← add_one_mul]
    exact hmem.2
  have hdiv := Int.mul_ediv_add_emod t d.toInt
  rw [hk, mul_comm] at hdiv
  rw [truncate_of_pos t hd]
  omega

/-! ## Slots -/

section Slots

variable {origin width now : ℤ}

/-- The first instant after `now` that is a whole number of widths from the
    origin. -/
def nextSlot (origin width now : ℤ) : ℤ :=
  origin + ((now - origin) / width + 1) * width

/-- What lies before it is less than one width. -/
theorem nextSlot_sub (origin now : ℤ) (hwidth : 0 < width) :
    0 < nextSlot origin width now - now ∧
      nextSlot origin width now - now ≤ width := by
  have hmod := Int.emod_nonneg (now - origin) hwidth.ne'
  have hlt := Int.emod_lt_of_pos (now - origin) hwidth
  have hdiv := Int.mul_ediv_add_emod (now - origin) width
  have heq : nextSlot origin width now =
      origin + width * ((now - origin) / width) + width := by
    rw [nextSlot]
    ring
  omega

/-- **THE NEXT SLOT** is the least of the later ones. -/
theorem isLeast_nextSlot (origin now : ℤ) (hwidth : 0 < width) :
    IsLeast {t | (∃ k : ℤ, t = origin + k * width) ∧ now < t}
      (nextSlot origin width now) := by
  obtain ⟨hpos, -⟩ := nextSlot_sub origin now hwidth
  refine ⟨⟨⟨_, rfl⟩, by omega⟩, ?_⟩
  rintro t ⟨⟨k, rfl⟩, hlater⟩
  have hk : (now - origin) / width < k := by
    rw [Int.ediv_lt_iff_lt_mul hwidth]
    omega
  have hle := Int.mul_le_mul_of_nonneg_right (Int.add_one_le_iff.mpr hk)
    hwidth.le
  rw [nextSlot]
  omega

/-- **ONE SLOT, ONE NEXT SLOT**. -/
theorem nextSlot_of_mem (hwidth : 0 < width) {k : ℤ}
    (hmem : now ∈ Set.Ico (origin + k * width) (origin + (k + 1) * width)) :
    nextSlot origin width now = origin + (k + 1) * width := by
  have hk : (now - origin) / width = k := by
    refine (Int.ediv_eq_iff_of_pos hwidth).mpr ⟨?_, ?_⟩
    · have hlow := hmem.1
      omega
    · have hhigh := hmem.2
      rw [add_mul, one_mul] at hhigh
      omega
  rw [nextSlot, hk]

end Slots

end Durations
