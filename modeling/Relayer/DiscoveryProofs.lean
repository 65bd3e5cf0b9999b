import Relayer.DurationProofs
import Relayer.TransitionProofs
import Relayer.UptimeProofs

/-! # Finding the other nodes

    `DiscoverByRendezvous` of `node/bridge/node.go`: at every tick a goroutine
    looks the peers of the rendezvous up.  It dials those that are not
    connected, and marks the meter of those that are with the whole seconds of
    the interval.  Connections come and go at any time, a lookup and a dial take
    any time, and a tick that comes while one is waiting is dropped.  The meters
    are those of a library, which shows the sum of the marks with a delay: what
    is said here is said of the seconds marked.

    * `Discovery.react` has the goroutine check by check with its ticker and the
      clock; `does_of_react` says what a step can do;
    * `Marked` says what a meter is marked with, `Timed` and `Allowed` bound the
      number of marks;
    * **`uptime_bounded`**: the seconds marked are never more than the time that
      has passed, the node does not mark itself, and all marks are zero if the
      interval is below one second;
    * **`window_of_marks`**: which number of marks makes an uptime that
      `Uptime` accepts.  The part of the interval below a second is lost with
      every mark, so that a peer that was there at every tick may be rejected. -/

namespace RelayerDiscovery

open Durations RelayerUptime Transition

variable {P : Type}

/-! ## The goroutine -/

/-- Where the goroutine stands: in its `select`, in `FindPeers`, before the
    check of a peer, in `DialPeer`, returned, or in `logrus.Fatal`. -/
inductive Phase (P : Type) where
  | idle
  | finding
  | visiting (peers : List P)
  | dialing (p : P) (peers : List P)
  | returned
  | fatal (text : String)
deriving DecidableEq

/-- The goroutine with its ticker, of which `fired` is the number of ticks and
    `channel` the one that waits, the connections of the host, and the time in
    nanoseconds. -/
structure Discovery (P : Type) where
  now : ℕ
  fired : ℕ
  channel : Bool
  connected : P → Bool
  phase : Phase P

def Discovery.start (connected : P → Bool) : Discovery P :=
  ⟨0, 0, false, connected, .idle⟩

inductive Event (P : Type) where
  | connects (p : P)
  | disconnects (p : P)
  | passes (time : ℕ)
  /-- The time of the next tick has come. -/
  | fires
  | ticks
  | cancelled
  | finds (peers : List P)
  | findFails (err : String)
  | visits
  | dials (succeeds : Bool)
  /-- The loop over the peers ends. -/
  | ends

inductive Output (P : Type) where
  | quiet
  /-- `uptimeRegistry.Get(p).Mark(count)`. -/
  | marks (p : P) (count : UInt64)

/-- `uint64(config.Bridge.TickerInterval.Milliseconds() / 1000)`. -/
def seconds (interval : ℕ) : UInt64 := UInt64.ofNat (interval / 1000000 / 1000)

/-- One step, if it is possible; `own` is the peer of the host. -/
def Discovery.react [DecidableEq P] (own : P) (interval : ℕ) (d : Discovery P) :
    Event P → Option (Discovery P × Output P)
  | .connects p =>
      some ({ d with connected := Function.update d.connected p true }, .quiet)
  | .disconnects p =>
      some ({ d with connected := Function.update d.connected p false }, .quiet)
  | .passes time => some ({ d with now := d.now + time }, .quiet)
  | .fires =>
      if (d.fired + 1) * interval ≤ d.now then
        some ({ d with fired := d.fired + 1, channel := true }, .quiet)
      else none
  | .ticks =>
      match d.phase, d.channel with
      | .idle, true =>
          some ({ d with channel := false, phase := .finding }, .quiet)
      | _, _ => none
  | .cancelled =>
      match d.phase with
      | .idle => some ({ d with phase := .returned }, .quiet)
      | _ => none
  | .finds peers =>
      match d.phase with
      | .finding => some ({ d with phase := .visiting peers }, .quiet)
      | _ => none
  | .findFails err =>
      match d.phase with
      | .finding => some ({ d with phase := .fatal ("FindPeers " ++ err) }, .quiet)
      | _ => none
  | .visits =>
      match d.phase with
      | .visiting (p :: peers) =>
          if p = own then some ({ d with phase := .visiting peers }, .quiet)
          else if d.connected p then
            some ({ d with phase := .visiting peers },
              .marks p (seconds interval))
          else some ({ d with phase := .dialing p peers }, .quiet)
      | _ => none
  | .dials succeeds =>
      match d.phase with
      | .dialing p peers =>
          some ({ d with
            connected := Function.update d.connected p (succeeds || d.connected p)
            phase := .visiting peers }, .quiet)
      | _ => none
  | .ends =>
      match d.phase with
      | .visiting [] => some ({ d with phase := .idle }, .quiet)
      | _ => none

/-! ## What a step does -/

/-- The step takes a tick from the channel. -/
def isTick (l : Event P × Output P) : Bool :=
  match l.1 with
  | .ticks => true
  | _ => false

/-- The peers that a lookup names. -/
def answer (l : Event P × Output P) : List P :=
  match l.1 with
  | .finds peers => peers
  | _ => []

/-- The peer whose meter a step marks, and with how much. -/
def marked (l : Event P × Output P) : Option (P × UInt64) :=
  match l.2 with
  | .marks p count => some (p, count)
  | .quiet => none

/-- A label that is no tick adds none. -/
theorem countP_isTick {l : Event P × Output P} {tr : List (Event P × Output P)}
    (hl : isTick l = false) :
    (tr ++ [l]).countP isTick = tr.countP isTick := by
  rw [List.countP_append, List.countP_singleton, hl]
  rfl

section

variable [DecidableEq P] {own : P} {interval : ℕ} {d d' : Discovery P}
  {l : Event P × Output P} {tr : List (Event P × Output P)}

/-- How often a peer may still be marked for the tick that was taken last. -/
def due (p : P) : Phase P → ℕ
  | .finding => 1
  | .visiting peers => peers.count p
  | .dialing _ peers => peers.count p
  | _ => 0

/-- The steps: those that mark nothing and take no tick, a lookup, a tick, a
    mark, and the steps of the clock and the ticker. -/
inductive Does (own : P) (interval : ℕ) (d : Discovery P) :
    Event P × Output P → Discovery P → Prop
  | goes {e : Event P} {f : P → Bool} {phase : Phase P}
      (htick : isTick (e, .quiet) = false)
      (hdue : ∀ p, due p phase ≤ due p d.phase) :
      Does own interval d (e, .quiet) { d with connected := f, phase := phase }
  | finds {peers : List P} (hphase : d.phase = .finding) :
      Does own interval d (.finds peers, .quiet)
        { d with phase := .visiting peers }
  | ticks (hphase : d.phase = .idle) (hchannel : d.channel = true) :
      Does own interval d (.ticks, .quiet)
        { d with channel := false, phase := .finding }
  | marks {p : P} {peers : List P} (hphase : d.phase = .visiting (p :: peers))
      (hown : p ≠ own) :
      Does own interval d (.visits, .marks p (seconds interval))
        { d with phase := .visiting peers }
  | passes (time : ℕ) :
      Does own interval d (.passes time, .quiet) { d with now := d.now + time }
  | fires (hnow : (d.fired + 1) * interval ≤ d.now) :
      Does own interval d (.fires, .quiet)
        { d with fired := d.fired + 1, channel := true }

theorem due_cons (p q : P) (peers : List P) :
    due p (.visiting peers) ≤ due p (.visiting (q :: peers)) :=
  (List.sublist_cons_self q peers).count_le p

/-- **WHAT A STEP DOES**: every transition of the loop is one of six kinds. -/
theorem does_of_react (h : Fires (Discovery.react own interval) d l d') :
    Does own interval d l d' := by
  obtain ⟨e, o⟩ := l
  have hreact : d.react own interval e = some (d', o) := h
  cases e with
  | connects p | disconnects p =>
      cases hreact
      -- the peerstore changes, the loop stays where it is
      exact Does.goes rfl fun _ => le_rfl
  | passes time =>
      cases hreact
      exact Does.passes time
  | fires =>
      rw [Discovery.react] at hreact
      split at hreact
      · rename_i hnow
        cases hreact
        exact Does.fires hnow
      · cases hreact
  | ticks =>
      rw [Discovery.react] at hreact
      split at hreact
      · rename_i hphase hchannel
        cases hreact
        exact Does.ticks hphase hchannel
      · cases hreact
  | cancelled =>
      rw [Discovery.react] at hreact
      split at hreact
      · cases hreact
        exact Does.goes rfl fun _ => Nat.zero_le _
      · cases hreact
  | finds peers =>
      rw [Discovery.react] at hreact
      split at hreact
      · rename_i hphase
        cases hreact
        exact Does.finds hphase
      · cases hreact
  | findFails err =>
      rw [Discovery.react] at hreact
      split at hreact
      · cases hreact
        exact Does.goes rfl fun _ => Nat.zero_le _
      · cases hreact
  | visits =>
      rw [Discovery.react] at hreact
      split at hreact
      · rename_i p peers hphase
        have hless : ∀ q, due q (.visiting peers) ≤ due q d.phase := by
          intro q
          rw [hphase]
          exact due_cons q p peers
        split at hreact
        · cases hreact
          exact Does.goes rfl hless
        · rename_i hown
          -- the host itself is skipped, a connected peer marked, any other
          -- dialled
          split at hreact
          · cases hreact
            exact Does.marks hphase hown
          · cases hreact
            exact Does.goes rfl hless
      · cases hreact
  | dials succeeds =>
      rw [Discovery.react] at hreact
      split at hreact
      · rename_i p peers hphase
        cases hreact
        refine Does.goes rfl fun q => ?_
        rw [hphase]
        exact le_rfl
      · cases hreact
  | ends =>
      rw [Discovery.react] at hreact
      split at hreact
      · cases hreact
        exact Does.goes rfl fun _ => Nat.zero_le _
      · cases hreact

/-! ## Marks -/

/-- How often the meter of a peer was marked. -/
def marksOf (tr : List (Event P × Output P)) (p : P) : ℕ :=
  (tr.filterMap marked).countP fun m => m.1 = p

/-- The seconds that the meter of a peer was marked with. -/
def secondsOf (tr : List (Event P × Output P)) (p : P) : ℕ :=
  (((tr.filterMap marked).filter fun m => m.1 = p).map fun m => m.2.toNat).sum

theorem marksOf_quiet (hl : marked l = none) (p : P) :
    marksOf (tr ++ [l]) p = marksOf tr p := by
  rw [marksOf, filterMap_concat, hl, Option.toList_none, List.append_nil, marksOf]

theorem marksOf_marks (e : Event P) (p q : P) (count : UInt64) :
    marksOf (tr ++ [(e, .marks q count)]) p = marksOf tr p + [q].count p := by
  rw [marksOf, filterMap_concat, List.countP_append, List.count_singleton]
  exact congrArg _ (List.countP_singleton ..)

/-- Every mark is of the whole seconds of the interval, and none of the node
    itself. -/
def Marked (own : P) (interval : ℕ) (tr : List (Event P × Output P)) : Prop :=
  ∀ m ∈ tr.filterMap marked, m.1 ≠ own ∧ m.2 = seconds interval

/-- One step keeps what is known of the marks. -/
theorem Marked.does (h : Marked own interval tr)
    (hdoes : Does own interval d l d') : Marked own interval (tr ++ [l]) := by
  intro m hm
  rw [filterMap_concat] at hm
  rcases List.mem_append.mp hm with hold | hnew
  · exact h m hold
  · cases hdoes with
    | goes | finds | ticks | passes | fires => cases hnew
    | marks hphase hown =>
        obtain rfl := List.mem_singleton.mp hnew
        exact ⟨hown, rfl⟩

/-- The node does not mark itself. -/
theorem marksOf_own (h : Marked own interval tr) : marksOf tr own = 0 :=
  List.countP_eq_zero.mpr fun m hm => by simpa using (h m hm).1

/-- So the seconds marked are known by the number of the marks. -/
theorem secondsOf_eq (h : Marked own interval tr) (p : P) :
    secondsOf tr p = marksOf tr p * (seconds interval).toNat := by
  rw [secondsOf, marksOf, List.countP_eq_length_filter,
    List.sum_eq_card_nsmul _ (seconds interval).toNat, List.length_map,
    smul_eq_mul]
  intro k hk
  obtain ⟨m, hm, rfl⟩ := List.mem_map.mp hk
  rw [(h m (List.mem_of_mem_filter hm)).2]

theorem toNat_seconds_le (interval : ℕ) :
    (seconds interval).toNat ≤ interval / 1000000000 := by
  rw [seconds, UInt64.toNat_ofNat', Nat.div_div_eq_div_mul]
  exact Nat.mod_le _ _

theorem toNat_seconds_of_lt (h : interval < 2 ^ 63) :
    (seconds interval).toNat = interval / 1000000000 := by
  rw [seconds, UInt64.toNat_ofNat', Nat.div_div_eq_div_mul]
  exact Nat.mod_eq_of_lt (by omega)

/-- The ticks that were taken, and the one that waits, have fired. -/
structure Timed (interval : ℕ) (tr : List (Event P × Output P))
    (d : Discovery P) : Prop where
  taken : tr.countP isTick + d.channel.toNat ≤ d.fired
  fired : d.fired * interval ≤ d.now

/-- One step keeps the count of the ticks below the clock. -/
theorem Timed.does (h : Timed interval tr d) (hdoes : Does own interval d l d') :
    Timed interval (tr ++ [l]) d' := by
  have htaken := h.taken
  cases hdoes with
  | goes htick => exact ⟨by rw [countP_isTick htick]; exact h.taken, h.fired⟩
  | finds | marks => exact ⟨by rw [countP_isTick rfl]; exact h.taken, h.fired⟩
  -- the tick taken was the one waiting in the channel of the ticker
  | ticks hphase hchannel =>
      refine ⟨?_, h.fired⟩
      rw [hchannel] at htaken
      rw [List.countP_append]
      exact htaken
  | passes time =>
      refine ⟨?_, h.fired.trans (Nat.le_add_right _ _)⟩
      rw [countP_isTick rfl]
      exact h.taken
  | fires hnow =>
      refine ⟨?_, hnow⟩
      rw [countP_isTick rfl]
      show tr.countP isTick + 1 ≤ d.fired + 1
      omega

/-- A peer is marked once for a tick, if a lookup names it once. -/
def Allowed (p : P) (tr : List (Event P × Output P)) (d : Discovery P) : Prop :=
  marksOf tr p + due p d.phase ≤ tr.countP isTick

/-- One step keeps the marks of `p`, made and due, below the ticks. -/
theorem Allowed.does {p : P} (h : Allowed p tr d)
    (hfound : (answer l).Nodup)
    (hdoes : Does own interval d l d') : Allowed p (tr ++ [l]) d' := by
  rw [Allowed] at h ⊢
  cases hdoes with
  | goes htick hdue =>
      rw [countP_isTick htick, marksOf_quiet rfl]
      exact (Nat.add_le_add_left (hdue p) _).trans h
  -- an answer names `p` at most once, and a tick had been taken for it
  | @finds peers hphase =>
      have hone : peers.count p ≤ 1 :=
        List.nodup_iff_count_le_one.mp hfound p
      rw [hphase] at h
      rw [countP_isTick rfl, marksOf_quiet rfl]
      exact (Nat.add_le_add_left hone _).trans h
  | ticks hphase hchannel =>
      rw [hphase] at h
      rw [List.countP_append, marksOf_quiet rfl]
      exact Nat.add_le_add_right h 1
  -- the mark made now was due before
  | @marks q peers hphase hown =>
      rw [hphase] at h
      rw [countP_isTick rfl, marksOf_marks]
      have hcount : (q :: peers).count p = [q].count p + peers.count p := by
        rw [← List.singleton_append, List.count_append]
      have hdue : marksOf tr p + (q :: peers).count p ≤ tr.countP isTick := h
      show marksOf tr p + [q].count p + peers.count p ≤ tr.countP isTick
      omega
  | passes | fires =>
      rw [countP_isTick rfl, marksOf_quiet rfl]
      exact h

/-- What is known of a goroutine that has come this far. -/
structure Discovering (own : P) (interval : ℕ) (tr : List (Event P × Output P))
    (d : Discovery P) : Prop where
  marked : Marked own interval tr
  timed : Timed interval tr d
  allowed : ∀ p, Allowed p tr d

/-- No lookup names a peer twice. -/
def NamesOnce (tr : List (Event P × Output P)) : Prop :=
  ∀ l ∈ tr, (answer l).Nodup

instance decidableNamesOnce (tr : List (Event P × Output P)) :
    Decidable (NamesOnce tr) :=
  inferInstanceAs (Decidable (∀ l ∈ tr, (answer l).Nodup))

/-- The three invariants along a whole run, from the trace up to each state. -/
theorem discovering {connected : P → Bool}
    (hrun : Run (Fires (Discovery.react own interval))
      (Discovery.start connected) tr d) (hfound : NamesOnce tr) :
    Discovering own interval tr d := by
  refine hrun.traced (P := fun tr d => NamesOnce tr → Discovering own interval tr d)
    (fun _ => ⟨fun _ hm => absurd hm List.not_mem_nil, ⟨le_rfl, ?_⟩,
      fun _ => le_rfl⟩) ?_ hfound
  · exact (Nat.zero_mul _).le
  · intro tr a l b ih hfires hnames
    have hdoes := does_of_react hfires
    have h := ih fun m hm => hnames m (List.mem_append_left _ hm)
    exact ⟨h.marked.does hdoes, h.timed.does hdoes, fun p =>
      (h.allowed p).does (hnames l List.mem_concat_self) hdoes⟩

/-- The marks of a peer are within the time that has passed. -/
theorem Discovering.marks_le (h : Discovering own interval tr d) (p : P) :
    marksOf tr p * interval ≤ d.now := by
  have hallowed : marksOf tr p ≤ d.fired := by
    have hp : marksOf tr p + due p d.phase ≤ tr.countP isTick := h.allowed p
    have htaken := h.timed.taken
    omega
  exact (Nat.mul_le_mul_right _ hallowed).trans h.timed.fired

/-- **UPTIME IS NOT OVERSTATED**: in every run in which no lookup names a peer
    twice, the seconds that a meter is marked with are not more than the time
    since the start, the node does not mark itself, and with an interval below
    one second every mark is zero. -/
theorem uptime_bounded {connected : P → Bool}
    (hrun : Run (Fires (Discovery.react own interval))
      (Discovery.start connected) tr d) (hfound : NamesOnce tr) :
    (∀ p, secondsOf tr p * 1000000000 ≤ d.now) ∧
    marksOf tr own = 0 ∧
    (interval < 1000000000 → ∀ p, secondsOf tr p = 0) := by
  have h := discovering hrun hfound
  refine ⟨fun p => ?_, marksOf_own h.marked, fun hshort p => ?_⟩
  · calc secondsOf tr p * 1000000000
        = marksOf tr p * ((seconds interval).toNat * 1000000000) := by
          rw [secondsOf_eq h.marked, Nat.mul_assoc]
      _ ≤ marksOf tr p * (interval / 1000000000 * 1000000000) :=
          Nat.mul_le_mul_left _ (Nat.mul_le_mul_right _ (toNat_seconds_le _))
      _ ≤ marksOf tr p * interval :=
          Nat.mul_le_mul_left _ (Nat.div_mul_le_self _ _)
      _ ≤ d.now := h.marks_le p
  · rw [secondsOf_eq h.marked, toNat_seconds_of_lt (by omega),
      Nat.div_eq_of_lt hshort, Nat.mul_zero]

/-- Two nodes that are connected, with a tick every two and a half seconds. -/
def sampleEvents : List (Event ℕ) :=
  [.passes 2500000000, .fires, .ticks, .finds [0, 1], .visits, .visits, .ends]

/-- One tick of 2.5 s: the peer is marked with 2 s, the host itself with none. -/
theorem uptime_bounded_sample :
    ∃ tr, ∃ d : Discovery ℕ,
      Run (Fires (Discovery.react 0 2500000000)) (Discovery.start (fun _ => true))
        tr d ∧
      NamesOnce tr ∧ secondsOf tr 1 = 2 ∧ 2 * 1000000000 ≤ d.now ∧
      marksOf tr 0 = 0 := by
  obtain ⟨tr, d, hrun, hfound, hmarked⟩ := exists_run
    (fun tr (d : Discovery ℕ) => NamesOnce tr ∧ secondsOf tr 1 = 2)
    (show (execute (Discovery.react 0 2500000000)
      (Discovery.start (fun _ => true)) sampleEvents).any _ = true by
        decide +kernel)
  obtain ⟨hbound, hown, -⟩ := uptime_bounded hrun hfound
  exact ⟨tr, d, hrun, hfound, hmarked, hmarked ▸ hbound 1, hown⟩

/-! ## The window of a report -/

/-- A duration that fits is as long as the meter says. -/
theorem toInt_toDuration {total : UInt64}
    (h : total.toNat * 1000000000 < 2 ^ 63) :
    (toDuration total).toInt = total.toNat * 1000000000 := by
  have htotal : total.toInt64.toInt = total.toNat := by
    rw [← Int64.toInt_ofNat_of_lt (by omega), ← UInt64.toInt64_ofNat',
      UInt64.ofNat_toNat]
  have hsecond : (1000000000 : Int64).toInt = 1000000000 := rfl
  rw [toDuration, Int64.toInt_mul, htotal, hsecond]
  exact bmod_of_fits (by omega) (by omega)

/-- The window of the uptime report, in nanoseconds without overflow. -/
theorem inWindow_iff {config : Config} {report : ℕ} {duration : Int64}
    (hticker : config.tickerInterval = Int64.ofNat interval)
    (hreport : config.uptimeReportInterval = Int64.ofNat report)
    (hsize : report + interval < 2 ^ 63) :
    config.inWindow duration = true ↔
      (report : ℤ) - interval ≤ duration.toInt ∧
        duration.toInt ≤ report + interval := by
  have hlow : config.low.toInt = report - interval := by
    rw [Config.low, Int64.toInt_sub, hticker, hreport,
      Int64.toInt_ofNat_of_lt (by omega), Int64.toInt_ofNat_of_lt (by omega)]
    exact bmod_of_fits (by omega) (by omega)
  have hhigh : config.high.toInt = report + interval := by
    rw [Config.high, Int64.toInt_add, hticker, hreport,
      Int64.toInt_ofNat_of_lt (by omega), Int64.toInt_ofNat_of_lt (by omega)]
    exact bmod_of_fits (by omega) (by omega)
  rw [Config.inWindow, Bool.and_eq_true, decide_eq_true_iff, decide_eq_true_iff,
    ge_iff_le, Int64.le_iff_toInt_le, Int64.le_iff_toInt_le, hlow, hhigh]

/-- **WHICH UPTIME IS ACCEPTED**: a report for an interval that is made within
    one tick of its end accepts the uptime of a peer exactly if its marks, each
    of the whole seconds between two ticks, miss at most one tick of the
    interval, where the meter shows all of them (`hshown`).  For a peer that was
    marked at every tick of the interval this says that what is lost below a
    second, and the rest of the interval after the last tick, are not more than
    one tick. -/
theorem window_of_marks {config : Config} {report : ℕ} {connected : P → Bool}
    (hticker : config.tickerInterval = Int64.ofNat interval)
    (hreport : config.uptimeReportInterval = Int64.ofNat report)
    (hsize : report + interval < 2 ^ 63)
    (hrun : Run (Fires (Discovery.react own interval))
      (Discovery.start connected) tr d) (hfound : NamesOnce tr)
    (hnow : d.now ≤ report + interval) {p : P} {total : UInt64}
    (hshown : total.toNat = secondsOf tr p) :
    (config.inWindow (toDuration total) = true ↔
      report ≤ marksOf tr p * (interval / 1000000000 * 1000000000) + interval) ∧
    (marksOf tr p = report / interval →
      (config.inWindow (toDuration total) = true ↔
        report / interval * (interval % 1000000000) + report % interval ≤
          interval)) := by
  have h := discovering hrun hfound
  have hmarks := h.marks_le p
  -- each mark adds whole seconds: what it loses is the interval's fraction
  have hlost : marksOf tr p * (interval / 1000000000 * 1000000000) +
      marksOf tr p * (interval % 1000000000) = marksOf tr p * interval := by
    rw [← Nat.mul_add, Nat.div_add_mod']
  have htotal : total.toNat * 1000000000 =
      marksOf tr p * (interval / 1000000000 * 1000000000) := by
    rw [hshown, secondsOf_eq h.marked, toNat_seconds_of_lt (by omega), Nat.mul_assoc]
  have hwindow : config.inWindow (toDuration total) = true ↔
      report ≤ marksOf tr p * (interval / 1000000000 * 1000000000) +
        interval := by
    rw [inWindow_iff hticker hreport hsize, toInt_toDuration (by omega)]
    omega
  refine ⟨hwindow, fun hall => ?_⟩
  have hrest : report / interval * interval + report % interval = report :=
    Nat.div_add_mod' report interval
  -- with every tick a mark, the loss is a product the inequality can carry
  rw [hwindow, ← hall]
  rw [← hall] at hrest
  omega

/-- Six ticks of one and a half seconds, at each of which the peer is there. -/
def steadyEvents : List (Event ℕ) :=
  (List.replicate 6 [.passes 1500000000, .fires, .ticks, .finds [1], .visits,
    .ends]).flatten

/-- A peer that was there at every tick of nine seconds shows six of them, and
    is rejected. -/
theorem window_of_marks_sample :
    ∃ tr, ∃ d : Discovery ℕ,
      Run (Fires (Discovery.react 0 1500000000)) (Discovery.start (fun _ => true))
        tr d ∧
      marksOf tr 1 = 9000000000 / 1500000000 ∧ secondsOf tr 1 = 6 ∧
      ¬ Config.inWindow ⟨9000000000, 1500000000⟩ (toDuration 6) = true := by
  obtain ⟨tr, d, hrun, hfound, hmarked, hmarks, hnow⟩ := exists_run
    (fun tr (d : Discovery ℕ) => NamesOnce tr ∧ secondsOf tr 1 = 6 ∧
      marksOf tr 1 = 6 ∧ d.now = 9000000000)
    (show (execute (Discovery.react 0 1500000000)
      (Discovery.start (fun _ => true)) steadyEvents).any _ = true by
        decide +kernel)
  have hall : marksOf tr 1 = 9000000000 / 1500000000 := by
    rw [hmarks]
  have hticker : Config.tickerInterval ⟨9000000000, 1500000000⟩ =
      Int64.ofNat 1500000000 := rfl
  have hreport : Config.uptimeReportInterval ⟨9000000000, 1500000000⟩ =
      Int64.ofNat 9000000000 := rfl
  have hwindow := (window_of_marks hticker hreport (by norm_num) hrun hfound
    (by omega) (show (6 : UInt64).toNat = _ from hmarked.symm)).2 hall
  refine ⟨tr, d, hrun, hall, hmarked, fun hin => ?_⟩
  exact absurd (hwindow.mp hin) (by norm_num)

end

end RelayerDiscovery
