import Relayer.QuitHandlersProofs
import Relayer.Sha256Proofs

/-! # The update of an epoch, and how it is called off

    The end of `StartEpoch`, `SpreadNewEpoch` and `HandleNewEpoch` of
    `node/bridge/node.go`.  After its setup phase a node waits `Id * 5` seconds
    and then sends the new epoch key to the bridges of all chains, unless a
    NewEpoch event with this key has come first: `HandleNewEpoch` closes the
    quit channel that is registered for the key, and the wait is a select on
    the timer and on that channel.

    * `Node.react` is a node with all its goroutines and its clock;
    * `calledOff` says which steps keep the cancellation effective, and
      `Suppressed` what holds along such steps;
    * **`updates_suppressed`**: no UpdateEpoch transaction is started for a key
      whose NewEpoch event was handled;
    * **`update_not_suppressed`**: the runs in which it is. -/

namespace RelayerSpread

open Maps RelayerQuitHandlers Routines Sha256 Transition

/-! ## The goroutines -/

/-- A marshalled epoch key. -/
abbrev EpochKey := List UInt8

/-- `EpochTopicName`. -/
def epochTopicName (key : EpochKey) : String := "Epoch:" ++ encodeToString key

theorem epochTopicName_inj {key key' : EpochKey}
    (h : epochTopicName key = epochTopicName key') : key = key' :=
  encodeToString_inj ((String.append_right_inj _).mp h)

/-- `time.Duration(n.Id) * 5 * time.Second`, in nanoseconds. -/
def spreadDelay (id : ℤ) : ℤ := (id * 5 * 1000000000).bmod (2 ^ 64)

/-- Where a goroutine is. -/
inductive Routine where
  /-- `SpreadNewEpoch`, called with its quit channel, before `time.After`. -/
  | starting (key : EpochKey) (quit : QuitChannel)
  /-- In the select; its timer fires at `deadline`. -/
  | selecting (key : EpochKey) (quit : QuitChannel) (deadline : ℤ)
  /-- In the loop over the clients, of which `chains` are still to come. -/
  | spreading (key : EpochKey) (quit : QuitChannel) (chains : List ℕ)
  /-- The goroutine for a chain, before `instance.UpdateEpoch`. -/
  | updating (key : EpochKey) (chainId : ℕ)
  | returned
  deriving DecidableEq

/-- Has the goroutine UpdateEpoch transactions for the key to start? -/
def Routine.isSpreading (key : EpochKey) : Routine → Bool
  | .spreading key' _ chains => key' = key && !chains.isEmpty
  | .updating key' _ => key' = key
  | _ => false

/-- The key and the channel of a wait that is not over. -/
def Routine.waitsOn : Routine → Option (EpochKey × QuitChannel)
  | .starting key quit | .selecting key quit _ => some (key, quit)
  | _ => none

/-! ## The node -/

/-- A node: its id, the chains of its clients, its clock, its quit handlers,
    the keys of the NewEpoch events it has handled, and its goroutines. -/
structure Node where
  id : ℤ
  chains : List ℕ
  now : ℤ
  quits : QuitHandlers
  handled : List EpochKey
  routines : List Routine

/-- A node that has not started an epoch. -/
def newNode (id : ℤ) (chains : List ℕ) : Node :=
  ⟨id, chains, 0, newQuitHandlers, [], []⟩

def Node.move (n : Node) (i : ℕ) (r : Routine) : Node :=
  { n with routines := n.routines.set i r }

/-- What can happen. -/
inductive Event where
  /-- The last statement of `StartEpoch`: `go n.SpreadNewEpoch(..)`. -/
  | spreadNewEpoch (key : EpochKey)
  | handleNewEpoch (newEpochKey : EpochKey)
  /-- Time passes. -/
  | passes (nanoseconds : ℕ)
  /-- Goroutine `i` starts its timer. -/
  | enters (i : ℕ)
  /-- Goroutine `i` takes the timer case; the clients come in some order. -/
  | timer (i : ℕ) (order : List ℕ)
  /-- Goroutine `i` takes the quit case. -/
  | quits (i : ℕ)
  /-- Goroutine `i` starts the goroutine for the next chain, or returns. -/
  | next (i : ℕ)
  /-- Goroutine `i` calls `instance.UpdateEpoch`. -/
  | updates (i : ℕ)
  /-- Goroutine `i` gets no bridge or no call options. -/
  | fails (i : ℕ)

/-- The deferred `RemoveQuitHandler` of goroutine `i`. -/
def Node.returns (n : Node) (i : ℕ) (quit : QuitChannel) : Option Node :=
  match n.quits.removeQuitHandler quit with
  | .ok (quits, _) => some ({ n with quits := quits }.move i .returned)
  | .error _ => none

/-- One step, and the UpdateEpoch transaction it starts; `none` where the event
    can not happen. -/
def Node.react (n : Node) : Event → Option (Node × Option (EpochKey × ℕ))
  | .spreadNewEpoch key =>
      match n.quits.addQuitHandler (epochTopicName key) with
      | .ok (quits, quit) =>
          some ({ n with
            quits := quits
            routines := n.routines ++ [.starting key quit] }, none)
      | .error _ => none
  | .handleNewEpoch key =>
      match n.quits.removeTopicHandler (epochTopicName key) with
      | .ok (quits, _) =>
          some ({ n with quits := quits, handled := n.handled ++ [key] }, none)
      | .error _ => none
  | .passes nanoseconds => some ({ n with now := n.now + nanoseconds }, none)
  | .enters i =>
      match n.routines[i]? with
      | some (.starting key quit) =>
          some (n.move i (.selecting key quit (n.now + spreadDelay n.id)), none)
      | _ => none
  | .timer i order =>
      match n.routines[i]? with
      | some (.selecting key quit deadline) =>
          if deadline ≤ n.now ∧ order.Perm n.chains then
            some (n.move i (.spreading key quit order), none)
          else none
      | _ => none
  | .quits i =>
      match n.routines[i]? with
      | some (.selecting _ quit _) =>
          if n.quits.channels.isOpen quit then none
          else (n.returns i quit).map (·, none)
      | _ => none
  | .next i =>
      match n.routines[i]? with
      | some (.spreading key quit (chainId :: chains)) =>
          some ({ n with
            routines := n.routines.set i (.spreading key quit chains)
              ++ [.updating key chainId] }, none)
      | some (.spreading _ quit []) => (n.returns i quit).map (·, none)
      | _ => none
  | .updates i =>
      match n.routines[i]? with
      | some (.updating key chainId) =>
          some (n.move i .returned, some (key, chainId))
      | _ => none
  | .fails i =>
      match n.routines[i]? with
      | some (.updating _ _) => some (n.move i .returned, none)
      | _ => none

/-! ## Runs in which the cancellation works -/

/-- The steps that keep the cancellation effective: no wait begins for a key
    whose event was handled; an event is handled while no goroutine that has
    left its select has transactions for the key to start; and the timer case
    is not taken when the quit channel is closed. -/
def calledOff (n : Node) : Event → Bool
  | .spreadNewEpoch key => !n.handled.contains key
  | .handleNewEpoch key => free (Routine.isSpreading key) n.routines
  | .timer i _ =>
      match n.routines[i]? with
      | some (.selecting _ quit _) => n.quits.channels.isOpen quit
      | _ => true
  | _ => true

/-- After the event of a key its topic has no channel, and nobody has
    transactions for it to start; whoever waits does so on a channel that was
    handed out for its key. -/
structure Suppressed (issued : List (String × QuitChannel)) (n : Node) :
    Prop where
  consistent : Consistent issued n.quits
  waits : ∀ r ∈ n.routines, ∀ key quit, r.waitsOn = some (key, quit) →
    (epochTopicName key, quit) ∈ issued
  unregistered : ∀ key ∈ n.handled, n.quits.handlers (epochTopicName key) = none
  silent : ∀ key ∈ n.handled, free (Routine.isSpreading key) n.routines = true

section Steps

variable {issued : List (String × QuitChannel)} {n n' : Node} {i : ℕ}
  {r r' : Routine}

/-- A new node suppresses nothing. -/
theorem suppressed_new (id : ℤ) (chains : List ℕ) :
    Suppressed [] (newNode id chains) where
  consistent := consistent_new
  waits := fun _ hr => by cases hr
  unregistered := fun _ hkey => by cases hkey
  silent := fun _ hkey => by cases hkey

/-- The channel of a wait is closed once the event of its key was handled. -/
theorem Suppressed.closed (h : Suppressed issued n) {key : EpochKey}
    {quit : QuitChannel} (hr : r ∈ n.routines)
    (hwaits : r.waitsOn = some (key, quit)) (hkey : key ∈ n.handled) :
    n.quits.channels.isOpen quit = false := by
  have hissued := h.waits r hr key quit hwaits
  rw [← Bool.not_eq_true, h.consistent.isOpen_iff _ _ hissued]
  intro hsome
  obtain ⟨topic, htopic⟩ := Option.isSome_iff_exists.mp hsome
  have hsame := h.consistent.oneTopic _ _ _
    (h.consistent.registered topic quit htopic) hissued
  have hnone := h.unregistered key hkey
  rw [← hsame, (h.consistent.inverse topic quit).mpr htopic] at hnone
  cases hnone

/-- A goroutine moves on, waiting for nothing new and with no more
    transactions to start. -/
theorem Suppressed.move (h : Suppressed issued n)
    (hi : n.routines[i]? = some r)
    (hwaits : r'.waitsOn = none ∨ r'.waitsOn = r.waitsOn)
    (hspread : ∀ key, r'.isSpreading key = true → key ∉ n.handled) :
    Suppressed issued (n.move i r') := by
  refine ⟨h.consistent, ?_, h.unregistered, ?_⟩
  · intro q hq key quit hwait
    rcases List.mem_or_eq_of_mem_set hq with hq | rfl
    · exact h.waits q hq key quit hwait
    · rcases hwaits with hnone | hsame
      · rw [hnone] at hwait
        cases hwait
      · exact h.waits r (List.mem_of_getElem? hi) key quit (hsame ▸ hwait)
  · intro key hkey
    refine (free_set_of_free hi (h.silent key hkey)).trans ?_
    rw [Bool.not_eq_true', ← Bool.not_eq_true]
    exact fun hspreads => hspread key hspreads hkey

/-- `RemoveQuitHandler` gives no topic a channel. -/
theorem Suppressed.returns (h : Suppressed issued n) {quit : QuitChannel}
    (hi : n.routines[i]? = some r) (heq : n.returns i quit = some n') :
    Suppressed issued n' := by
  obtain ⟨quits, topic, hremove, hcons, hnone⟩ :=
    removeQuitHandler_spec h.consistent quit
  rw [Node.returns, hremove] at heq
  obtain rfl := Option.some.inj heq
  have hquits : Suppressed issued { n with quits := quits } :=
    ⟨hcons, h.waits, fun key hkey => hnone _ (h.unregistered key hkey), h.silent⟩
  exact hquits.move hi (Or.inl rfl) (fun key hspread => by cases hspread)

/-- A wait begins for a key whose event was not handled. -/
theorem Suppressed.spreadNewEpoch (h : Suppressed issued n) {key : EpochKey}
    {o : Option (EpochKey × ℕ)} (hkey : key ∉ n.handled)
    (hstep : n.react (.spreadNewEpoch key) = some (n', o)) :
    ∃ issued', Suppressed issued' n' := by
  obtain ⟨quits, hadd, hcons, hother⟩ :=
    addQuitHandler_spec h.consistent (epochTopicName key)
  rw [Node.react, hadd] at hstep
  obtain ⟨rfl, -⟩ := Prod.mk.inj (Option.some.inj hstep)
  refine ⟨_, hcons, ?_, ?_, ?_⟩
  · intro r hr key' quit hwait
    rcases List.mem_append.mp hr with hr | hr
    · exact List.mem_append_left _ (h.waits r hr key' quit hwait)
    · rw [List.mem_singleton.mp hr] at hwait
      obtain ⟨rfl, rfl⟩ := Prod.mk.inj (Option.some.inj hwait)
      exact List.mem_append_right _ (List.mem_singleton_self _)
  · intro key' hkey'
    refine (hother _ ?_).trans (h.unregistered key' hkey')
    intro hsame
    exact hkey (epochTopicName_inj hsame ▸ hkey')
  · intro key' hkey'
    rw [free_concat, h.silent key' hkey']
    rfl

/-- The event of a key is handled while nobody has transactions for it to
    start. -/
theorem Suppressed.handleNewEpoch (h : Suppressed issued n) {key : EpochKey}
    {o : Option (EpochKey × ℕ)}
    (hfree : free (Routine.isSpreading key) n.routines = true)
    (hstep : n.react (.handleNewEpoch key) = some (n', o)) :
    Suppressed issued n' := by
  obtain ⟨quits, found, hremove, hcons, hgone, hnone⟩ :=
    removeTopicHandler_spec h.consistent (epochTopicName key)
  rw [Node.react, hremove] at hstep
  obtain ⟨rfl, -⟩ := Prod.mk.inj (Option.some.inj hstep)
  refine ⟨hcons, h.waits, ?_, ?_⟩
  · intro key' hkey'
    rcases List.mem_append.mp hkey' with hkey' | hkey'
    · exact hnone _ (h.unregistered key' hkey')
    · rw [List.mem_singleton.mp hkey']
      exact hgone
  · intro key' hkey'
    rcases List.mem_append.mp hkey' with hkey' | hkey'
    · exact h.silent key' hkey'
    · rw [List.mem_singleton.mp hkey']
      exact hfree

/-- The event of a key for which a goroutine has transactions to start was not
    handled. -/
theorem Suppressed.not_handled (h : Suppressed issued n) {key : EpochKey}
    (hr : n.routines[i]? = some r) (hspread : r.isSpreading key = true) :
    key ∉ n.handled := by
  intro hkey
  have hsilent := free_iff.mp (h.silent key hkey) r (List.mem_of_getElem? hr)
  rw [hspread] at hsilent
  cases hsilent

/-- The goroutine for a chain is started. -/
theorem Suppressed.spawn (h : Suppressed issued n) {key : EpochKey}
    {chainId : ℕ} (hkey : key ∉ n.handled) :
    Suppressed issued
      { n with routines := n.routines ++ [.updating key chainId] } := by
  refine ⟨h.consistent, ?_, h.unregistered, ?_⟩
  · intro r hr key' quit hwait
    rcases List.mem_append.mp hr with hr | hr
    · exact h.waits r hr key' quit hwait
    · rw [List.mem_singleton.mp hr] at hwait
      cases hwait
  · intro key' hkey'
    have hne : key ≠ key' := fun heq => hkey (heq ▸ hkey')
    rw [free_concat, h.silent key' hkey']
    simp [Routine.isSpreading, hne]

/-- **ONE STEP** that keeps the cancellation effective. -/
theorem Suppressed.react (h : Suppressed issued n) {e : Event}
    {o : Option (EpochKey × ℕ)} (hoff : calledOff n e = true)
    (hstep : n.react e = some (n', o)) : ∃ issued', Suppressed issued' n' := by
  cases e with
  | spreadNewEpoch key =>
      have hkey : key ∉ n.handled := by simpa [calledOff] using hoff
      exact h.spreadNewEpoch hkey hstep
  | handleNewEpoch key => exact ⟨_, h.handleNewEpoch hoff hstep⟩
  | passes nanoseconds =>
      obtain ⟨rfl, -⟩ := Prod.mk.inj (Option.some.inj hstep)
      exact ⟨_, h.consistent, h.waits, h.unregistered, h.silent⟩
  | enters i =>
      rw [Node.react] at hstep
      split at hstep
      · rename_i key quit hi
        obtain ⟨rfl, -⟩ := Prod.mk.inj (Option.some.inj hstep)
        exact ⟨_, h.move hi (Or.inr rfl) (fun _ hspread => by cases hspread)⟩
      · cases hstep
  | timer i order =>
      rw [Node.react] at hstep
      split at hstep
      · rename_i key quit deadline hi
        split at hstep
        · obtain ⟨rfl, -⟩ := Prod.mk.inj (Option.some.inj hstep)
          rw [calledOff, hi] at hoff
          change n.quits.channels.isOpen quit = true at hoff
          refine ⟨_, h.move hi (Or.inl rfl) ?_⟩
          -- an open channel: the event of the key was not handled
          intro key' hspread hkey'
          rw [Routine.isSpreading, Bool.and_eq_true, decide_eq_true_eq] at hspread
          have hclosed := h.closed (List.mem_of_getElem? hi) rfl
            (hspread.1 ▸ hkey')
          rw [hoff] at hclosed
          cases hclosed
        · cases hstep
      · cases hstep
  | quits i =>
      rw [Node.react] at hstep
      split at hstep
      · rename_i key quit deadline hi
        split at hstep
        · cases hstep
        · obtain ⟨n'', hret, heq⟩ := Option.map_eq_some_iff.mp hstep
          obtain ⟨rfl, -⟩ := Prod.mk.inj heq
          exact ⟨_, h.returns hi hret⟩
      · cases hstep
  | next i =>
      rw [Node.react] at hstep
      split at hstep
      · rename_i key quit chainId chains hi
        obtain ⟨rfl, -⟩ := Prod.mk.inj (Option.some.inj hstep)
        have hkey : key ∉ n.handled :=
          h.not_handled hi (by simp [Routine.isSpreading])
        have hmoved : Suppressed issued (n.move i (.spreading key quit chains)) := by
          refine h.move hi (Or.inl rfl) (fun key' hspread => ?_)
          rw [Routine.isSpreading, Bool.and_eq_true, decide_eq_true_eq] at hspread
          exact hspread.1 ▸ hkey
        exact ⟨_, hmoved.spawn hkey⟩
      · rename_i key quit hi
        obtain ⟨n'', hret, heq⟩ := Option.map_eq_some_iff.mp hstep
        obtain ⟨rfl, -⟩ := Prod.mk.inj heq
        exact ⟨_, h.returns hi hret⟩
      · cases hstep
  | updates i =>
      rw [Node.react] at hstep
      split at hstep
      · rename_i key chainId hi
        obtain ⟨rfl, -⟩ := Prod.mk.inj (Option.some.inj hstep)
        exact ⟨_, h.move hi (Or.inl rfl) (fun _ hspread => by cases hspread)⟩
      · cases hstep
  | fails i =>
      rw [Node.react] at hstep
      split at hstep
      · rename_i key chainId hi
        obtain ⟨rfl, -⟩ := Prod.mk.inj (Option.some.inj hstep)
        exact ⟨_, h.move hi (Or.inl rfl) (fun _ hspread => by cases hspread)⟩
      · cases hstep

/-- A transaction is started by the goroutine for its chain only. -/
theorem started_by {e : Event} {key : EpochKey} {chainId : ℕ}
    (hstep : n.react e = some (n', some (key, chainId))) :
    ∃ i : ℕ, n.routines[i]? = some (Routine.updating key chainId) := by
  rw [Node.react.eq_def] at hstep
  -- the other events show nothing
  cases e with
  | updates i =>
      dsimp only at hstep
      split at hstep
      · rename_i key' chainId' hi
        obtain ⟨rfl, rfl⟩ := Prod.mk.inj
          (Option.some.inj (Prod.mk.inj (Option.some.inj hstep)).2)
        exact ⟨i, hi⟩
      · cases hstep
  | passes nanoseconds => cases hstep
  | spreadNewEpoch key => dsimp only at hstep; split at hstep <;> cases hstep
  | handleNewEpoch key => dsimp only at hstep; split at hstep <;> cases hstep
  | enters i => dsimp only at hstep; split at hstep <;> cases hstep
  | fails i => dsimp only at hstep; split at hstep <;> cases hstep
  | timer i order =>
      dsimp only at hstep
      split at hstep
      · split at hstep <;> cases hstep
      · cases hstep
  | quits i =>
      dsimp only at hstep
      split at hstep
      · split at hstep
        · cases hstep
        · obtain ⟨_, -, heq⟩ := Option.map_eq_some_iff.mp hstep
          cases heq
      · cases hstep
  | next i =>
      dsimp only at hstep
      split at hstep
      · cases hstep
      · obtain ⟨_, -, heq⟩ := Option.map_eq_some_iff.mp hstep
        cases heq
      · cases hstep

end Steps

/-- **UPDATES ARE SUPPRESSED**: after every run whose steps keep the
    cancellation effective, no step starts an UpdateEpoch transaction for a
    key whose NewEpoch event was handled. -/
theorem updates_suppressed (id : ℤ) (chains : List ℕ) :
    ∀ tr n, Run (Guarded (Fires Node.react) (fun n l => calledOff n l.1 = true))
      (newNode id chains) tr n →
    ∀ e n' key chainId, n.react e = some (n', some (key, chainId)) →
      key ∉ n.handled := by
  intro tr n hrun e n' key chainId hstep
  obtain ⟨issued, h⟩ : ∃ issued, Suppressed issued n :=
    hrun.invariant (P := fun n => ∃ issued, Suppressed issued n)
      ⟨[], suppressed_new id chains⟩
      (fun _ _ _ ⟨_, ha⟩ hb => ha.react hb.2 hb.1)
  obtain ⟨i, hi⟩ := started_by hstep
  exact h.not_handled hi (decide_eq_true rfl)

/-- The event comes while the node waits, and the wait is over; another key is
    sent to its bridge. -/
theorem updates_suppressed_sample :
    ∃ tr n n', Run (Guarded (Fires Node.react)
        (fun n l => calledOff n l.1 = true)) (newNode 1 [7]) tr n ∧
      n.handled = [[1]] ∧ n.routines = [.returned, .spreading [2] (.made 1) [],
        .updating [2] 7] ∧
      n.react (.updates 2) = some (n', some ([2], 7)) ∧ [2] ∉ n.handled := by
  obtain ⟨tr, n, hrun, hhandled, hroutines⟩ := exists_run
    (fun _ (n : Node) => n.handled = [[1]] ∧ n.routines = [.returned,
      .spreading [2] (.made 1) [], .updating [2] 7])
    (show (execute (restrict calledOff Node.react) (newNode 1 [7])
      [.spreadNewEpoch [1], .enters 0, .spreadNewEpoch [2], .enters 1,
        .handleNewEpoch [1], .quits 0, .passes 5000000000, .timer 1 [7],
        .next 1]).any _ = true by decide +kernel)
  have hstep : n.react (.updates 2)
      = some (n.move 2 .returned, some ([2], 7)) := by
    rw [Node.react, hroutines]
    rfl
  exact ⟨tr, n, _, restrict_run hrun, hhandled, hroutines, hstep,
    updates_suppressed 1 [7] tr n (restrict_run hrun) _ _ _ _ hstep⟩

/-- Some step starts an UpdateEpoch transaction for a key that was handled. -/
def Late (n : Node) (i : ℕ) (key : EpochKey) : Prop :=
  ∃ n' chainId, n.react (.updates i) = some (n', some (key, chainId)) ∧
    key ∈ n.handled

/-- An update about to be made for an epoch handled already. -/
theorem late_of {n : Node} {i : ℕ} {key : EpochKey} {chainId : ℕ}
    (hi : n.routines[i]? = some (.updating key chainId))
    (hkey : key ∈ n.handled) : Late n i key := by
  refine ⟨n.move i .returned, chainId, ?_, hkey⟩
  rw [Node.react, hi]

/-- **AN UPDATE IS NOT SUPPRESSED**: (a) the event is handled before the quit
    channel is registered; (b) it is handled when the timer has fired, and the
    select takes the timer case; (c) it is handled between the select and the
    transactions. -/
theorem update_not_suppressed :
    (∃ tr n tr' n', Run (Fires Node.react) (newNode 1 [7]) tr n ∧
      ([1] ∈ n.handled ∧ n.routines = []) ∧
      Run (Fires Node.react) n tr' n' ∧ Late n' 1 [1]) ∧
    (∃ tr n tr' n', Run (Fires Node.react) (newNode 0 [7]) tr n ∧
      ([1] ∈ n.handled ∧ n.routines = [.selecting [1] (.made 0) n.now]) ∧
      Run (Fires Node.react) n tr' n' ∧ Late n' 1 [1]) ∧
    ∃ tr n tr' n', Run (Fires Node.react) (newNode 1 [7]) tr n ∧
      (n.handled = [] ∧ n.routines = [.spreading [1] (.made 0) [7]]) ∧
      Run (Fires Node.react) n tr' n' ∧ Late n' 1 [1] := by
  have hlate : ∀ (P : Node → Prop) [DecidablePred P] (id : ℤ) (es es' : List Event),
      (execute Node.react (newNode id [7]) es).any (fun r => decide (P r.2 ∧
        (execute Node.react r.2 es').any (fun q => decide
          (q.2.routines[1]? = some (.updating [1] 7) ∧ [1] ∈ q.2.handled)) =
          true)) = true →
      ∃ tr n tr' n', Run (Fires Node.react) (newNode id [7]) tr n ∧ P n ∧
        Run (Fires Node.react) n tr' n' ∧ Late n' 1 [1] := by
    intro P _ id es es' hexec
    obtain ⟨tr, n, tr', n', hrun, hn, hrun', hi, hkey⟩ :=
      exists_run_through (fun _ n => P n)
        (fun _ (n : Node) => n.routines[1]? = some (.updating [1] 7) ∧
          [1] ∈ n.handled) hexec
    exact ⟨tr, n, tr', n', hrun, hn, hrun', late_of hi hkey⟩
  refine ⟨?_, ?_, ?_⟩
  -- handled before the spread was even started
  · exact hlate (fun n => [1] ∈ n.handled ∧ n.routines = []) 1
      [.handleNewEpoch [1]]
      [.spreadNewEpoch [1], .enters 0, .passes 5000000000, .timer 0 [7], .next 0]
      (by decide +kernel)
  -- handled while the node waits: the quit and the timer race
  · exact hlate (fun n => [1] ∈ n.handled ∧
        n.routines = [.selecting [1] (.made 0) n.now]) 0
      [.spreadNewEpoch [1], .enters 0, .handleNewEpoch [1]]
      [.timer 0 [7], .next 0] (by decide +kernel)
  -- handled between the timer and the update
  · exact hlate (fun n => n.handled = [] ∧
        n.routines = [.spreading [1] (.made 0) [7]]) 1
      [.spreadNewEpoch [1], .enters 0, .passes 5000000000, .timer 0 [7]]
      [.handleNewEpoch [1], .next 0] (by decide +kernel)

end RelayerSpread
