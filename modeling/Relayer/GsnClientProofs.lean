import Relayer.TransitionProofs

/-! # Finding the gas station

    `libp2p/rpc/gsn/client.go`: a goroutine looks for a peer that provides the
    gas station at every tick at which it has no connected one, `Execute` calls
    the peer that was found last, and `WaitForDiscoveryGsn` polls for one until a
    deadline.  Connections come and go at any time, also between two checks of
    the goroutine, and time passes between any two steps.

    * `Client.react` has the goroutine check by check, the polls and the clock;
      `does_of_react` says what a step can do;
    * `Found`: the peer is the one adopted last;
    * **`peer_sticks`**: `Execute` calls the peer adopted last, and fails before
      there was one or where the rpc does; a peer that stays connected is never
      replaced;
    * `Paced`: how many polls fit into the time of a wait;
    * **`waits_end`**: a wait polls a bounded number of times, it can always
      return, and it times out only if nothing was found when it last looked. -/

namespace RelayerGsnClient

open Transition

variable {P : Type}

/-! ## The client -/

/-- Where the goroutine `discovery` stands: in its `select`, at the channel of
    providers, with a provider before one of its checks, or returned. -/
inductive Phase (P : Type) where
  | idle
  | finding
  | checking (gsnPeer : P)
  | dialing (gsnPeer : P)
  | adopting (gsnPeer : P)
  | returned

/-- How far a call of `WaitForDiscoveryGsn` has come: before `getGsnPeerId`,
    between it and `time.Now()`, asleep, or returned. -/
inductive Progress where
  | polling
  | looked (seen : ℕ)
  | sleeping (wake : ℕ)
  | found
  | timedOut (seen : ℕ)
deriving DecidableEq

/-- A call of `WaitForDiscoveryGsn`. -/
structure Wait where
  startTime : ℕ
  stopTime : ℕ
  looks : ℕ
  progress : Progress
deriving DecidableEq

/-- `gsn.Client` with its goroutines, the connections of its host, and the time
    in nanoseconds. -/
structure Client (P : Type) where
  gsnPeerId : Option P
  connected : P → Bool
  phase : Phase P
  waits : List Wait
  now : ℕ

/-- `NewClient`. -/
def Client.start (connected : P → Bool) : Client P :=
  ⟨none, connected, .idle, [], 0⟩

/-- The steps of a wait. -/
inductive Turn where
  | looks
  | reads
  | wakes

inductive Event (P : Type) where
  | connects (p : P)
  | disconnects (p : P)
  | passes (time : ℕ)
  | ticks
  | cancelled
  /-- The channel of providers has one more. -/
  | finds (gsnPeer : P)
  /-- The channel of providers is closed. -/
  | ends
  | checks
  | dials (succeeds : Bool)
  | adopts
  /-- `Execute`, with the answer of the rpc if there is one to be called: the hash
      of the transaction, or an error. -/
  | execute (answer : Except String ℕ)
  | waitForDiscoveryGsn (timeout : ℕ)
  | waits (i : ℕ) (t : Turn)

inductive Output (P : Type) where
  | quiet
  | adopted (gsnPeer : P) (time : ℕ)
  /-- What `Execute` returns, and the peer that its rpc went to. -/
  | executed (gsnPeer : Option P) (result : Except String ℕ)

/-- `10 * time.Millisecond`. -/
def pollInterval : ℕ := 10000000

/-- `Execute`. -/
def executeAt (gsnPeerId : Option P) (answer : Except String ℕ) : Output P :=
  match gsnPeerId, answer with
  | none, _ =>
      .executed none (.error "get gsn peer ID error: gsn node not discovered")
  | some p, .error err =>
      .executed (some p) (.error
        ("call rpc service [RpcApiGsn] method [Execute] error: " ++ err))
  | some p, .ok txHash => .executed (some p) (.ok txHash)

/-- One step of a wait, which looks for the peer before it reads the clock. -/
def Wait.step (w : Wait) (found : Bool) (now : ℕ) : Turn → Option Wait
  | .looks =>
      match w.progress with
      | .polling => some { w with
          looks := w.looks + 1
          progress := if found then .found else .looked now }
      | _ => none
  | .reads =>
      match w.progress with
      | .looked seen => some { w with
          progress :=
            if w.stopTime < now then .timedOut seen
            else .sleeping (now + pollInterval) }
      | _ => none
  | .wakes =>
      match w.progress with
      | .sleeping wake =>
          if wake ≤ now then some { w with progress := .polling } else none
      | _ => none

/-- There is a peer, and it is connected. -/
def Client.settled (c : Client P) : Bool :=
  c.gsnPeerId.any c.connected

/-- One step, if it is possible. -/
def Client.react [DecidableEq P] (c : Client P) :
    Event P → Option (Client P × Output P)
  | .connects p =>
      some ({ c with connected := Function.update c.connected p true }, .quiet)
  | .disconnects p =>
      some ({ c with connected := Function.update c.connected p false }, .quiet)
  | .passes time => some ({ c with now := c.now + time }, .quiet)
  | .ticks =>
      match c.phase with
      | .idle =>
          if c.settled then some (c, .quiet)
          else some ({ c with phase := .finding }, .quiet)
      | _ => none
  | .cancelled =>
      match c.phase with
      | .idle => some ({ c with phase := .returned }, .quiet)
      | _ => none
  | .finds p =>
      match c.phase with
      | .finding => some ({ c with phase := .checking p }, .quiet)
      | _ => none
  | .ends =>
      match c.phase with
      | .finding => some ({ c with phase := .idle }, .quiet)
      | _ => none
  | .checks =>
      match c.phase with
      | .checking p =>
          if c.connected p then some ({ c with phase := .adopting p }, .quiet)
          else some ({ c with phase := .dialing p }, .quiet)
      | _ => none
  | .dials succeeds =>
      match c.phase with
      | .dialing p =>
          some ({ c with
            connected := Function.update c.connected p (succeeds || c.connected p)
            phase := .adopting p }, .quiet)
      | _ => none
  | .adopts =>
      match c.phase with
      | .adopting p =>
          -- the connection may be gone again
          if c.connected p then
            some ({ c with gsnPeerId := some p, phase := .finding },
              .adopted p c.now)
          else some ({ c with phase := .finding }, .quiet)
      | _ => none
  | .execute answer => some (c, executeAt c.gsnPeerId answer)
  | .waitForDiscoveryGsn timeout =>
      some ({ c with
        waits := c.waits ++ [⟨c.now, c.now + timeout, 0, .polling⟩] }, .quiet)
  | .waits i t =>
      match c.waits[i]? with
      | some w =>
          (w.step c.gsnPeerId.isSome c.now t).map fun w' =>
            ({ c with waits := c.waits.set i w' }, .quiet)
      | none => none

/-! ## What a step does -/

/-- The goroutine is in its `select` for good, or has nothing to search for. -/
def Phase.resting : Phase P → Prop
  | .idle => True
  | .returned => True
  | _ => False

/-- The goroutine is in its `select`. -/
def Phase.isIdle : Phase P → Bool
  | .idle => true
  | _ => false

/-- Between two rounds the loop rests. -/
theorem resting_of_isIdle {phase : Phase P} (h : phase.isIdle = true) :
    phase.resting := by
  cases phase with
  | idle | returned => trivial
  | finding | checking | dialing | adopting => cases h

variable {c c' : Client P} {l : Event P × Output P}

/-- The steps of the client: of the network and the goroutine, an adoption, of
    the clock, of `Execute` and of the waits. -/
inductive Does (c : Client P) : Event P × Output P → Client P → Prop
  | moves {e : Event P} {f : P → Bool} {phase : Phase P}
      (hkeep : ∀ p, c.connected p = true → e ≠ .disconnects p → f p = true)
      (hrest : c.phase.resting → c.settled = true → phase.resting) :
      Does c (e, .quiet) { c with connected := f, phase := phase }
  | adopts {p : P} (hphase : c.phase = .adopting p)
      (hconn : c.connected p = true) :
      Does c (.adopts, .adopted p c.now)
        { c with gsnPeerId := some p, phase := .finding }
  | passes (time : ℕ) :
      Does c (.passes time, .quiet) { c with now := c.now + time }
  | executes (answer : Except String ℕ) :
      Does c (.execute answer, executeAt c.gsnPeerId answer) c
  | waitsFor (timeout : ℕ) :
      Does c (.waitForDiscoveryGsn timeout, .quiet) { c with
        waits := c.waits ++ [⟨c.now, c.now + timeout, 0, .polling⟩] }
  | waits {i : ℕ} {t : Turn} {w w' : Wait} (hi : c.waits[i]? = some w)
      (hstep : w.step c.gsnPeerId.isSome c.now t = some w') :
      Does c (.waits i t, .quiet) { c with waits := c.waits.set i w' }

/-- A step of the goroutine that leaves the connections alone. -/
theorem Does.goes {e : Event P} {phase : Phase P}
    (hrest : c.phase.resting → c.settled = true → phase.resting) :
    Does c (e, .quiet) { c with phase := phase } :=
  Does.moves (fun _ hp _ => hp) hrest

/-- Away from its `select` the goroutine may go anywhere. -/
theorem not_resting {phase : Phase P} {Q : Prop} (hphase : c.phase = phase)
    (h : ¬ phase.resting) : c.phase.resting → Q :=
  fun hrest => absurd (hphase ▸ hrest) h

section
variable [DecidableEq P]

/-- **WHAT A STEP DOES**, one kind for each thing that matters to the peer. -/
theorem does_of_react (h : Fires Client.react c l c') : Does c l c' := by
  obtain ⟨e, o⟩ := l
  have hreact : c.react e = some (c', o) := h
  cases e with
  | connects p =>
      cases hreact
      -- connecting takes no connection away
      refine Does.moves (fun q hq _ => ?_) (fun hrest _ => hrest)
      by_cases hqp : q = p
      · rw [hqp, Function.update_self]
      · rw [Function.update_of_ne hqp, hq]
  | disconnects p =>
      cases hreact
      refine Does.moves (fun q hq hne => ?_) (fun hrest _ => hrest)
      have hqp : q ≠ p := fun heq => hne (heq ▸ rfl)
      rw [Function.update_of_ne hqp, hq]
  | passes time =>
      cases hreact
      exact Does.passes time
  | ticks =>
      revert hreact
      simp only [Client.react]
      split
      -- a round starts only if there is no peer, or it is not connected
      · split
        · intro hreact
          cases hreact
          exact Does.goes (fun hrest _ => hrest)
        · rename_i hphase hsettled
          intro hreact
          cases hreact
          exact Does.goes (fun _ hset => absurd hset hsettled)
      · intro hreact
        cases hreact
  | cancelled =>
      revert hreact
      simp only [Client.react]
      split <;> intro hreact <;> cases hreact
      exact Does.goes (fun _ _ => trivial)
  | finds p =>
      revert hreact
      simp only [Client.react]
      split <;> intro hreact <;> cases hreact
      rename_i hphase
      exact Does.goes (not_resting hphase id)
  | ends =>
      revert hreact
      simp only [Client.react]
      split <;> intro hreact <;> cases hreact
      exact Does.goes (fun _ _ => trivial)
  | checks =>
      revert hreact
      simp only [Client.react]
      split
      · rename_i hphase
        split <;> intro hreact <;> cases hreact <;>
          exact Does.goes (not_resting hphase id)
      · intro hreact
        cases hreact
  | dials succeeds =>
      revert hreact
      simp only [Client.react]
      split <;> intro hreact <;> cases hreact
      rename_i p hphase
      refine Does.moves (fun q hq _ => ?_) (not_resting hphase id)
      by_cases hqp : q = p
      · rw [hqp, Function.update_self, ← hqp, hq, Bool.or_true]
      · rw [Function.update_of_ne hqp, hq]
  | adopts =>
      revert hreact
      simp only [Client.react]
      split
      · rename_i p hphase
        -- the peer is adopted if its connection is still there
        split <;> intro hreact <;> cases hreact
        · exact Does.adopts hphase ‹_›
        · exact Does.goes (not_resting hphase id)
      · intro hreact
        cases hreact
  | execute answer =>
      cases hreact
      exact Does.executes answer
  | waitForDiscoveryGsn timeout =>
      cases hreact
      exact Does.waitsFor timeout
  | waits i t =>
      revert hreact
      simp only [Client.react]
      split
      · rename_i w hi
        intro hreact
        obtain ⟨w', hstep, heq⟩ := Option.map_eq_some_iff.mp hreact
        cases heq
        exact Does.waits hi hstep
      · intro hreact
        cases hreact

end

/-! ## The peer -/

/-- The peer a step adopts, and when. -/
def adoption (l : Event P × Output P) : Option (P × ℕ) :=
  match l.2 with
  | .adopted p time => some (p, time)
  | _ => none

/-- The peer adopted last. -/
def lastAdopted (tr : List (Event P × Output P)) : Option P :=
  (tr.filterMap adoption).getLast?.map Prod.fst

theorem adoption_executeAt (e : Event P) (gsnPeerId : Option P)
    (answer : Except String ℕ) :
    adoption (e, executeAt gsnPeerId answer) = none := by
  cases gsnPeerId <;> cases answer <;> rfl

/-- When `Execute` fails. -/
theorem executeAt_error {gsnPeerId : Option P} {answer : Except String ℕ} :
    (∃ peer err, executeAt gsnPeerId answer = .executed peer (.error err)) ↔
      gsnPeerId = none ∨ ∃ err, answer = .error err := by
  cases gsnPeerId <;> cases answer <;> simp [executeAt]

/-- The client has the peer adopted last, and nothing was adopted in the
    future. -/
structure Found (tr : List (Event P × Output P)) (c : Client P) : Prop where
  last : c.gsnPeerId = lastAdopted tr
  past : ∀ a ∈ tr.filterMap adoption, a.2 ≤ c.now

/-- A step that adopts nobody keeps what is known of the peer. -/
theorem Found.quiet {tr : List (Event P × Output P)} (h : Found tr c)
    (hl : adoption l = none) (hpeer : c'.gsnPeerId = c.gsnPeerId)
    (hnow : c.now ≤ c'.now) : Found (tr ++ [l]) c' := by
  have htr : (tr ++ [l]).filterMap adoption = tr.filterMap adoption := by
    rw [filterMap_concat, hl]
    exact List.append_nil _
  refine ⟨?_, fun a ha => ?_⟩
  · rw [lastAdopted, htr, hpeer]
    exact h.last
  · rw [htr] at ha
    exact (h.past a ha).trans hnow

/-- One step keeps the peer the one adopted last. -/
theorem Found.does {tr : List (Event P × Output P)} (h : Found tr c)
    (hdoes : Does c l c') : Found (tr ++ [l]) c' := by
  cases hdoes with
  | moves | waitsFor | waits => exact h.quiet rfl rfl le_rfl
  | passes time => exact h.quiet rfl rfl (Nat.le_add_right _ _)
  | executes => exact h.quiet (adoption_executeAt _ _ _) rfl le_rfl
  | @adopts p =>
      have htr : (tr ++ [((.adopts, .adopted p c.now) : Event P × Output P)]).filterMap
          adoption = tr.filterMap adoption ++ [(p, c.now)] :=
        filterMap_concat ..
      refine ⟨?_, fun a ha => ?_⟩
      · rw [lastAdopted, htr, List.getLast?_concat]
        rfl
      · rw [htr] at ha
        rcases List.mem_append.mp ha with ha | ha
        · exact h.past a ha
        · rw [List.mem_singleton.mp ha]

/-- The goroutine has the connected peer `g` and does not search. -/
structure Stuck (g : P) (c : Client P) : Prop where
  peer : c.gsnPeerId = some g
  connected : c.connected g = true
  resting : c.phase.resting

theorem Stuck.settled {g : P} (h : Stuck g c) : c.settled = true := by
  rw [Client.settled, h.peer]
  exact h.connected

/-- One step away from a disconnection, the peer stays. -/
theorem Stuck.does {g : P} (h : Stuck g c) (hdoes : Does c l c')
    (hl : l.1 ≠ .disconnects g) : Stuck g c' ∧ adoption l = none := by
  cases hdoes with
  | moves hkeep hrest =>
      exact ⟨⟨h.peer, hkeep g h.connected hl, hrest h.resting h.settled⟩, rfl⟩
  -- a resting loop is in no round, and only a round adopts
  | adopts hphase =>
      have hrest := h.resting
      rw [hphase] at hrest
      exact hrest.elim
  | passes | waitsFor | waits =>
      exact ⟨⟨h.peer, h.connected, h.resting⟩, rfl⟩
  | executes => exact ⟨h, adoption_executeAt _ _ _⟩

section
variable [DecidableEq P]

/-- The peer is the one adopted last, along every run. -/
theorem found_run {connected : P → Bool} {tr : List (Event P × Output P)}
    (hrun : Run (Fires Client.react) (Client.start connected) tr c) :
    Found tr c :=
  hrun.traced ⟨rfl, fun _ ha => absurd ha List.not_mem_nil⟩
    fun _ _ _ _ h hfires => h.does (does_of_react hfires)

/-- A peer that never disconnects is never replaced. -/
theorem stuck_run {g : P} {tr : List (Event P × Output P)} (h : Stuck g c)
    (hrun : Run (Fires Client.react) c tr c')
    (hnever : ∀ l ∈ tr, l.1 ≠ .disconnects g) :
    Stuck g c' ∧ tr.filterMap adoption = [] := by
  induction hrun with
  | refl => exact ⟨h, rfl⟩
  | @tail a b tr l hrun hlast ih =>
      obtain ⟨hstuck, hnone⟩ :=
        ih fun l hl => hnever l (List.mem_append_left _ hl)
      obtain ⟨hstuck', hquiet⟩ := hstuck.does (does_of_react hlast)
        (hnever l (List.mem_append_right _ List.mem_cons_self))
      refine ⟨hstuck', ?_⟩
      rw [filterMap_concat, hnone, hquiet]
      rfl

/-- **THE PEER STICKS**: in every run each `Execute` calls the peer adopted last
    before it, and fails exactly where there was none or the rpc fails; and while
    the goroutine does not search, nothing replaces a connected peer before it
    disconnects. -/
theorem peer_sticks {connected : P → Bool} {tr : List (Event P × Output P)}
    {c : Client P}
    (hrun : Run (Fires Client.react) (Client.start connected) tr c) :
    (∀ before answer o after, tr = before ++ (.execute answer, o) :: after →
      o = executeAt (lastAdopted before) answer ∧
      ((∃ peer err, o = .executed peer (.error err)) ↔
        lastAdopted before = none ∨ ∃ err, answer = .error err)) ∧
    (∀ g, c.gsnPeerId = some g → c.connected g = true → c.phase.resting →
      ∀ tr' c', Run (Fires Client.react) c tr' c' →
        (∀ l ∈ tr', l.1 ≠ .disconnects g) →
        c'.gsnPeerId = some g ∧ tr'.filterMap adoption = []) := by
  constructor
  · rintro before answer o after rfl
    obtain ⟨a, b, hbefore, hfires, -⟩ := hrun.split
    have ho : some (a, executeAt a.gsnPeerId answer) = some (b, o) := hfires
    cases ho
    rw [(found_run hbefore).last]
    exact ⟨rfl, executeAt_error⟩
  · intro g hpeer hconn hrest tr' c' hrun' hnever
    obtain ⟨hstuck, hnone⟩ := stuck_run ⟨hpeer, hconn, hrest⟩ hrun' hnever
    exact ⟨hstuck.peer, hnone⟩

/-- A host that is connected to peer 1 from the start. -/
def sampleConnected : ℕ → Bool := fun p => p == 1

/-- The goroutine finds two providers, one of which cannot be reached, and is
    asked before and after. -/
def sampleEvents : List (Event ℕ) :=
  [.execute (.ok 7), .ticks, .finds 2, .checks, .dials false, .adopts, .finds 1,
    .checks, .adopts, .ends, .execute (.ok 8), .execute (.error "timeout")]

/-- The first peer found is adopted at once, and kept. -/
theorem peer_sticks_sample :
    ∃ tr, ∃ c : Client ℕ,
      Run (Fires Client.react) (Client.start sampleConnected) tr c ∧
      tr.filterMap adoption = [(1, 0)] ∧
      ∀ tr' c', Run (Fires Client.react) c tr' c' →
        (∀ l ∈ tr', l.1 ≠ .disconnects 1) → c'.gsnPeerId = some 1 := by
  obtain ⟨tr, c, hrun, hadopted, hpeer, hconn, hrest⟩ := exists_run
    (fun tr (c : Client ℕ) => tr.filterMap adoption = [(1, 0)] ∧
      c.gsnPeerId = some 1 ∧ c.connected 1 = true ∧ c.phase.isIdle = true)
    (show (execute Client.react (Client.start sampleConnected)
      sampleEvents).any _ = true by decide +kernel)
  refine ⟨tr, c, hrun, hadopted, fun tr' c' hrun' hnever => ?_⟩
  exact ((peer_sticks hrun).2 1 hpeer hconn (resting_of_isIdle hrest) tr' c' hrun'
    hnever).1

end

/-! ## The waits -/

/-- How many whole poll intervals a wait has. -/
def Wait.span (w : Wait) : ℕ :=
  (w.stopTime - w.startTime) / pollInterval

/-- A wait has returned. -/
def Progress.isReturned : Progress → Bool
  | .found => true
  | .timedOut _ => true
  | _ => false

/-- The pace of a wait: each poll but the first one comes a poll interval after
    the one before, and none after one that came too late. -/
def Paced (now : ℕ) (w : Wait) : Prop :=
  match w.progress with
  | .polling =>
      w.looks ≤ w.span + 1 ∧ w.startTime + w.looks * pollInterval ≤ now
  | .looked seen =>
      w.looks ≤ w.span + 2 ∧ w.startTime + w.looks * pollInterval ≤
        seen + pollInterval ∧ seen ≤ now
  | .sleeping wake =>
      w.looks ≤ w.span + 1 ∧ w.startTime + w.looks * pollInterval ≤ wake
  | .found => w.looks ≤ w.span + 2
  | .timedOut seen => w.looks ≤ w.span + 2 ∧ w.stopTime < now ∧ seen ≤ now

variable {now now' : ℕ} {w w' : Wait} {found : Bool} {t : Turn}

/-- Time that passes keeps a wait paced. -/
theorem Paced.mono (h : Paced now w) (hnow : now ≤ now') : Paced now' w := by
  revert h
  unfold Paced
  split
  · rintro ⟨hlooks, htime⟩
    exact ⟨hlooks, htime.trans hnow⟩
  · rintro ⟨hlooks, htime, hseen⟩
    exact ⟨hlooks, htime, hseen.trans hnow⟩
  · exact id
  · exact id
  · rintro ⟨hlooks, hstop, hseen⟩
    exact ⟨hlooks, hstop.trans_le hnow, hseen.trans hnow⟩

/-- How often a paced wait has looked. -/
theorem Paced.looks_le (h : Paced now w) : w.looks ≤ w.span + 2 := by
  revert h
  unfold Paced
  split
  · rintro ⟨hlooks, -⟩
    exact hlooks.trans (Nat.le_succ _)
  · exact fun h => h.1
  · rintro ⟨hlooks, -⟩
    exact hlooks.trans (Nat.le_succ _)
  · exact id
  · exact fun h => h.1

/-- A poll that came in time leaves room for one more. -/
theorem looks_le_of_inTime {start stop looks : ℕ}
    (h : start + looks * pollInterval ≤ stop + pollInterval) :
    looks ≤ (stop - start) / pollInterval + 1 := by
  cases looks with
  | zero => exact Nat.zero_le _
  | succ k =>
      refine Nat.succ_le_succ ((Nat.le_div_iff_mul_le (by decide)).mpr ?_)
      rw [Nat.succ_mul] at h
      omega

/-- What a step of a wait can be. -/
theorem step_cases (hstep : w.step found now t = some w') :
    (w.progress = .polling ∧ w' = { w with
      looks := w.looks + 1
      progress := if found then .found else .looked now }) ∨
    (∃ seen, w.progress = .looked seen ∧ w' = { w with
      progress := if w.stopTime < now then .timedOut seen
        else .sleeping (now + pollInterval) }) ∨
    (∃ wake, w.progress = .sleeping wake ∧ wake ≤ now ∧
      w' = { w with progress := .polling }) := by
  revert hstep
  cases t with
  | looks =>
      simp only [Wait.step]
      split <;> intro hstep <;> cases hstep
      exact Or.inl ⟨‹_›, rfl⟩
  | reads =>
      simp only [Wait.step]
      split <;> intro hstep <;> cases hstep
      exact Or.inr (Or.inl ⟨_, ‹_›, rfl⟩)
  | wakes =>
      simp only [Wait.step]
      split
      · split <;> intro hstep <;> cases hstep
        exact Or.inr (Or.inr ⟨_, ‹_›, ‹_›, rfl⟩)
      · intro hstep
        cases hstep

/-- One step of the wait keeps it paced: a look for each interval slept. -/
theorem Paced.step (h : Paced now w) (hstep : w.step found now t = some w') :
    Paced now w' := by
  obtain ⟨start, stop, looks, progress⟩ := w
  rcases step_cases hstep with ⟨hp, rfl⟩ | ⟨seen, hp, rfl⟩ | ⟨wake, hp, hwake, rfl⟩
  · obtain rfl : progress = .polling := hp
    obtain ⟨hlooks, htime⟩ := h
    -- the look itself takes no time
    cases found with
    | true => exact Nat.succ_le_succ hlooks
    | false =>
        refine ⟨Nat.succ_le_succ hlooks, ?_, le_rfl⟩
        show start + (looks + 1) * pollInterval ≤ now + pollInterval
        rw [Nat.succ_mul, ← Nat.add_assoc]
        exact Nat.add_le_add_right htime _
  · obtain rfl : progress = .looked seen := hp
    obtain ⟨hlooks, htime, hseen⟩ := h
    -- the deadline is read after the look, and ends the wait or starts a sleep
    by_cases hstop : stop < now
    · simp only [if_pos hstop]
      exact ⟨hlooks, hstop, hseen⟩
    · simp only [if_neg hstop]
      refine ⟨looks_le_of_inTime (htime.trans ?_), htime.trans ?_⟩
      · exact Nat.add_le_add_right (hseen.trans (Nat.le_of_not_lt hstop)) _
      · exact Nat.add_le_add_right hseen _
  · obtain rfl : progress = .sleeping wake := hp
    obtain ⟨hlooks, htime⟩ := h
    exact ⟨hlooks, htime.trans hwake⟩

/-- What a wait knows: it found a peer if it says so, and what it did not see
    was not there. -/
structure Waiting (tr : List (Event P × Output P)) (c : Client P) (w : Wait) :
    Prop where
  paced : Paced c.now w
  found : w.progress = .found → c.gsnPeerId.isSome = true
  unseen : ∀ seen, w.progress = .looked seen ∨ w.progress = .timedOut seen →
    ∀ a ∈ tr.filterMap adoption, seen ≤ a.2

variable {tr : List (Event P × Output P)}

/-- A wait looks into the past. -/
theorem Paced.seen_le (h : Paced now w) {seen : ℕ}
    (hseen : w.progress = .looked seen ∨ w.progress = .timedOut seen) :
    seen ≤ now := by
  obtain ⟨start, stop, looks, progress⟩ := w
  rcases hseen with hp | hp
  · obtain rfl : progress = .looked seen := hp
    exact h.2.2
  · obtain rfl : progress = .timedOut seen := hp
    exact h.2.2

/-- A step of somebody else leaves a wait what it knows. -/
theorem Waiting.frame (h : Waiting tr c w) (hdoes : Does c l c') :
    Waiting (tr ++ [l]) c' w := by
  have hquiet : ∀ l : Event P × Output P, adoption l = none →
      ∀ seen, w.progress = .looked seen ∨ w.progress = .timedOut seen →
      ∀ a ∈ (tr ++ [l]).filterMap adoption, seen ≤ a.2 := by
    intro l hl seen hseen a ha
    rw [filterMap_concat, hl] at ha
    exact h.unseen seen hseen a (by simpa using ha)
  cases hdoes with
  | moves | waitsFor | waits => exact ⟨h.paced, h.found, hquiet _ rfl⟩
  | executes => exact ⟨h.paced, h.found, hquiet _ (adoption_executeAt _ _ _)⟩
  | passes time =>
      exact ⟨h.paced.mono (Nat.le_add_right _ _), h.found, hquiet _ rfl⟩
  | @adopts p =>
      refine ⟨h.paced, fun _ => rfl, fun seen hseen a ha => ?_⟩
      rw [filterMap_concat] at ha
      rcases List.mem_append.mp ha with ha | ha
      · exact h.unseen seen hseen a ha
      · rw [show a = (p, c.now) by simpa [adoption] using ha]
        exact h.paced.seen_le hseen

/-- A step of the wait itself. -/
theorem Waiting.step (h : Waiting tr c w) (hfound : Found tr c)
    (hstep : w.step c.gsnPeerId.isSome c.now t = some w') (i : ℕ) :
    Waiting (tr ++ [(.waits i t, .quiet)])
      { c with waits := c.waits.set i w' } w' := by
  have htr : (tr ++ [((.waits i t, .quiet) : Event P × Output P)]).filterMap
      adoption = tr.filterMap adoption := by
    rw [filterMap_concat]
    exact List.append_nil _
  have hpaced := h.paced.step hstep
  rcases step_cases hstep with ⟨hp, rfl⟩ | ⟨seen, hp, rfl⟩ | ⟨wake, hp, hwake, rfl⟩
  · cases hpeer : c.gsnPeerId with
    | some p =>
        simp only [hpeer, Option.isSome_some, if_true] at hpaced ⊢
        refine ⟨hpaced, fun _ => rfl, fun seen hseen => ?_⟩
        rcases hseen with hseen | hseen <;> cases hseen
    | none =>
        -- nothing was adopted so far
        have hnone : tr.filterMap adoption = [] := by
          have hlast := hfound.last
          rw [hpeer, lastAdopted, eq_comm, Option.map_eq_none_iff] at hlast
          exact List.getLast?_eq_none_iff.mp hlast
        rw [hpeer] at hpaced
        refine ⟨hpaced, fun hf => ?_, fun seen hseen a ha => ?_⟩
        · simp at hf
        · rw [htr, hnone] at ha
          cases ha
  · refine ⟨hpaced, fun hf => ?_, fun seen' hseen a ha => ?_⟩
    · by_cases hstop : w.stopTime < c.now <;> simp [hstop] at hf
    · rw [htr] at ha
      refine h.unseen seen' (Or.inl ?_) a ha
      by_cases hstop : w.stopTime < c.now
      · rw [hp]
        simpa [hstop] using hseen
      · simp [hstop] at hseen
  · refine ⟨hpaced, fun hf => ?_, fun seen' hseen => ?_⟩
    · cases hf
    · rcases hseen with hseen | hseen <;> cases hseen

/-- One step of the client keeps every wait as it should be. -/
theorem waiting_does (hfound : Found tr c) (h : ∀ w ∈ c.waits, Waiting tr c w)
    (hdoes : Does c l c') : ∀ w ∈ c'.waits, Waiting (tr ++ [l]) c' w := by
  intro w hw
  have hframe : w ∈ c.waits → Waiting (tr ++ [l]) c' w :=
    fun hmem => (h w hmem).frame hdoes
  cases hdoes with
  | moves | adopts | passes | executes => exact hframe hw
  -- the new wait has looked at nothing yet
  | waitsFor timeout =>
      rcases List.mem_append.mp hw with hmem | hmem
      · exact hframe hmem
      · rw [List.mem_singleton.mp hmem]
        refine ⟨⟨Nat.zero_le _, ?_⟩, fun hf => ?_, fun seen hseen => ?_⟩
        · show c.now + 0 * pollInterval ≤ c.now
          rw [Nat.zero_mul, Nat.add_zero]
        · cases hf
        · rcases hseen with hseen | hseen <;> cases hseen
  | @waits i t v v' hi hstep =>
      rcases List.mem_or_eq_of_mem_set hw with hmem | rfl
      · exact hframe hmem
      · exact (h v (List.mem_of_getElem? hi)).step hfound hstep i

/-! ## Waits return -/

section
variable [DecidableEq P] {i : ℕ}

/-- The steps of one wait and of the clock. -/
def ownStep (i : ℕ) : Event P → Prop
  | .passes _ => True
  | .waits j _ => j = i
  | _ => False

/-- A wait can return on its own. -/
def CanReturn (i : ℕ) (c : Client P) : Prop :=
  ∃ tr c', Run (Fires Client.react) c tr c' ∧ (∀ l ∈ tr, ownStep i l.1) ∧
    ∃ w, c'.waits[i]? = some w ∧ w.progress.isReturned = true

/-- A step of the wait itself, before it can return. -/
theorem CanReturn.head {e : Event P} (hfires : Fires Client.react c (e, .quiet) c')
    (he : ownStep i e) (h : CanReturn i c') : CanReturn i c := by
  obtain ⟨tr, c'', hrun, hown, hw⟩ := h
  refine ⟨_, c'', hrun.head hfires, fun l hl => ?_, hw⟩
  rcases List.mem_cons.mp hl with rfl | hl
  · exact he
  · exact hown l hl

/-- One step of the wait before the rest. -/
theorem CanReturn.step (hi : c.waits[i]? = some w)
    (hstep : w.step c.gsnPeerId.isSome c.now t = some w')
    (h : ∀ waits : List Wait, waits[i]? = some w' →
      CanReturn i { c with waits := waits }) : CanReturn i c := by
  have hfires : Fires Client.react c (.waits i t, .quiet)
      { c with waits := c.waits.set i w' } := by
    show c.react (.waits i t) = _
    simp only [Client.react, hi, hstep, Option.map_some]
  exact CanReturn.head hfires rfl
    (h _ (List.getElem?_set_self (List.getElem?_eq_some_iff.mp hi).1))

theorem canReturn_of_looked {start stop looks seen : ℕ} (hlate : stop < c.now)
    (hi : c.waits[i]? = some ⟨start, stop, looks, .looked seen⟩) :
    CanReturn i c := by
  refine CanReturn.step (t := .reads) hi rfl fun waits hw => ?_
  rw [if_pos hlate] at hw
  exact ⟨[], _, Run.refl, fun _ hl => (List.not_mem_nil hl).elim, _, hw, rfl⟩

theorem canReturn_of_polling {start stop looks : ℕ} (hlate : stop < c.now)
    (hi : c.waits[i]? = some ⟨start, stop, looks, .polling⟩) :
    CanReturn i c := by
  refine CanReturn.step (t := .looks) hi rfl fun waits hw => ?_
  cases hfound : c.gsnPeerId.isSome with
  | true =>
      rw [hfound, if_pos rfl] at hw
      exact ⟨[], _, Run.refl, fun _ hl => (List.not_mem_nil hl).elim, _, hw, rfl⟩
  | false =>
      rw [hfound] at hw
      exact canReturn_of_looked hlate hw

/-- After its deadline and its sleep a wait returns. -/
theorem canReturn (hi : c.waits[i]? = some w) : CanReturn i c := by
  obtain ⟨start, stop, looks, progress⟩ := w
  cases progress with
  | found | timedOut seen =>
      exact ⟨[], c, Run.refl, fun _ hl => (List.not_mem_nil hl).elim, _, hi, rfl⟩
  | polling =>
      refine CanReturn.head (e := .passes (stop + 1)) rfl trivial
        (canReturn_of_polling ?_ hi)
      exact Nat.lt_of_lt_of_le (Nat.lt_succ_self stop) (Nat.le_add_left _ _)
  | looked seen =>
      refine CanReturn.head (e := .passes (stop + 1)) rfl trivial
        (canReturn_of_looked ?_ hi)
      exact Nat.lt_of_lt_of_le (Nat.lt_succ_self stop) (Nat.le_add_left _ _)
  | sleeping wake =>
      refine CanReturn.head (e := .passes (stop + 1 + wake)) rfl trivial ?_
      have hwake : wake ≤ c.now + (stop + 1 + wake) := by omega
      have hlate : stop < c.now + (stop + 1 + wake) := by omega
      refine CanReturn.step (t := .wakes) hi (if_pos hwake) fun waits hw => ?_
      exact canReturn_of_polling hlate hw

/-- **WAITS END**: in every run a wait for a timeout of `n` poll intervals looks
    at most `n + 2` times; it says that there is a peer only if there is one, and
    times out only after its deadline, with nothing found before it last looked;
    and from every state it can return without help. -/
theorem waits_end {connected : P → Bool} {tr : List (Event P × Output P)}
    {c : Client P}
    (hrun : Run (Fires Client.react) (Client.start connected) tr c)
    {i : ℕ} {w : Wait} (hi : c.waits[i]? = some w) :
    w.looks ≤ (w.stopTime - w.startTime) / pollInterval + 2 ∧
    (w.progress = .found → c.gsnPeerId.isSome = true) ∧
    (∀ seen, w.progress = .timedOut seen → w.stopTime < c.now ∧
      ∀ a ∈ tr.filterMap adoption, seen ≤ a.2) ∧
    CanReturn i c := by
  have hwaiting : Found tr c ∧ ∀ w ∈ c.waits, Waiting tr c w := by
    refine hrun.traced (P := fun tr c => Found tr c ∧ ∀ w ∈ c.waits, Waiting tr c w)
      ⟨⟨rfl, fun _ ha => absurd ha List.not_mem_nil⟩,
        fun _ hw => absurd hw List.not_mem_nil⟩ ?_
    rintro tr a l b ⟨hfound, hwaits⟩ hfires
    have hdoes := does_of_react hfires
    exact ⟨hfound.does hdoes, waiting_does hfound hwaits hdoes⟩
  have h := hwaiting.2 w (List.mem_of_getElem? hi)
  refine ⟨h.paced.looks_le, h.found, fun seen hseen => ⟨?_, ?_⟩, canReturn hi⟩
  · obtain ⟨start, stop, looks, progress⟩ := w
    obtain rfl : progress = .timedOut seen := hseen
    exact h.paced.2.1
  · exact h.unseen seen (Or.inr hseen)

/-- A wait of ten milliseconds whose deadline passes, with a peer found after
    it. -/
def sampleWait : List (Event ℕ) :=
  [.waitForDiscoveryGsn 10000000, .waits 0 .looks, .waits 0 .reads,
    .passes 10000001, .waits 0 .wakes, .waits 0 .looks, .waits 0 .reads,
    .ticks, .finds 1, .checks, .adopts]

/-- A wait of one interval that looks twice and times out. -/
theorem waits_end_sample :
    ∃ tr, ∃ c : Client ℕ,
      Run (Fires Client.react) (Client.start sampleConnected) tr c ∧
      c.waits = [⟨0, 10000000, 2, .timedOut 10000001⟩] ∧
      10000000 < c.now ∧
      ∀ a ∈ tr.filterMap adoption, 10000001 ≤ a.2 := by
  obtain ⟨tr, c, hrun, hwaits⟩ := exists_run
    (fun _ (c : Client ℕ) => c.waits = [⟨0, 10000000, 2, .timedOut 10000001⟩])
    (show (execute Client.react (Client.start sampleConnected)
      sampleWait).any _ = true by decide +kernel)
  have hi : c.waits[0]? = some ⟨0, 10000000, 2, .timedOut 10000001⟩ := by
    rw [hwaits]
    rfl
  obtain ⟨hlate, hunseen⟩ := (waits_end hrun hi).2.2.1 _ rfl
  exact ⟨tr, c, hrun, hwaits, hlate, hunseen⟩

end

end RelayerGsnClient
