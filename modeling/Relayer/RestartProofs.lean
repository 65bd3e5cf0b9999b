import Relayer.PubSubProofs
import Relayer.SetupProofs

/-! # Setups of one epoch at the same time

    `RunNode` adds the watcher of `NewEpoch` events before it calls
    `StartEpoch`, and `HandleNewEpoch` calls it again for each event without an
    epoch key, so that several calls may be in `BlsSetup` of one epoch.  All of
    them join the same topic and share its subscription.

    `State.react` puts the topics of `RelayerPubSub` and the setups of
    `RelayerSetup` together: the setups take the messages of one subscription,
    and the first of them that returns leaves the topic for all.  The context of
    the node does not end, and nobody disconnects it.

    * `Does` says once what a step can do;
    * `Untouched` is what holds until a key is assigned, `Account` what a setup
      has heard;
    * **`only_first_completes`**: where the parts of some node are given to one
      of the calls, only the first of them has heard all nodes, and each of the
      others overwrites its key. -/

namespace RelayerRestart

open BitMask Maps RelayerBls RelayerMessage RelayerPubSub RelayerSetup Transition
open RelayerTopics (Protocol Booked newPubSubWithTopic started)

variable {PK SG SK : Type}

/-! ## The calls -/

/-- The bytes of a message of the setup, decoded. -/
abbrev Bytes (SG : Type) := Option (MessageBlsSetup SG)

/-- Where the loop of `BlsSetup` stands: before `ReceiveFrom`, in it with a
    receiver, before the `select` with a message, or behind the loop. -/
inductive Turn (SG : Type) where
  | idle
  | next (reader : ℕ)
  | hand (bytes : Bytes SG)
  | over

/-- A call of `StartEpoch`. -/
inductive Start (SG : Type) where
  | joined
  | setup (process : Process SG) (turn : Turn SG)
  /-- The key is assigned, and the handlers are waited for. -/
  | assigned (process : Process SG)
  /-- `Subscribe` returned an error. -/
  | failed
  | returned

/-- A node, and its calls of `StartEpoch` for one epoch. -/
structure State (SG : Type) where
  node : System (Bytes SG)
  starts : List (Start SG)
  membershipKey : SG
  crashed : Bool

/-- A node before the calls. -/
def State.start (c : Protocol) (membershipKey : SG) : State SG :=
  ⟨System.start c, [], membershipKey, false⟩

/-- What may happen, with what pubsub returns. -/
inductive Action (SG : Type) where
  | joins (err : Option String)
  | subscribes (i : ℕ) (err : Option String)
  | asks (i : ℕ)
  /-- `subscription.Next` returns: a message, or an error. -/
  | gets (i : ℕ) (msg : Option (Bytes SG))
  | stops (i : ℕ)
  | selects (i : ℕ)
  | handles (i k : ℕ)
  | assigns (i : ℕ)
  | leaves (i : ℕ) (err : Option String)

/-- What a step shows: a step of the topics, one of a setup, or a key that is
    assigned, and whether all nodes had been heard. -/
inductive Shown (SG : Type) where
  | topics (e : RelayerPubSub.Event (Bytes SG)) (o : Output (Bytes SG))
  | worked (o : Option (Outcome SG))
  | assigned (i : ℕ) (key : SG) (complete : Bool)

/-- The call goes on by a step of the topics. -/
def State.turn (s : State SG) (i : ℕ) (e : RelayerPubSub.Event (Bytes SG))
    (after : Output (Bytes SG) → Start SG) : Option (State SG × Shown SG) :=
  (s.node.react e).map fun r =>
    ({ s with node := r.1, starts := s.starts.set i (after r.2) }, .topics e r.2)

/-- The call goes on by itself. -/
def State.work (s : State SG) (i : ℕ) (after : Start SG)
    (o : Option (Outcome SG)) : State SG × Shown SG :=
  ({ s with starts := s.starts.set i after }, .worked o)

/-- `ReceiveFrom` returned nil. -/
def breakLoop (p : Process SG) : Start SG :=
  .setup { p with closed := true } .over

/-- A handler of a setup runs. -/
def State.handle [Add SG] (bls : Bls PK SG SK) (n : Node PK SG SK) (s : State SG)
    (i k : ℕ) (p : Process SG) (after : Process SG → Start SG) :
    Option (State SG × Shown SG) :=
  (p.react bls n (.handles k)).map fun r =>
    ({ s with
        starts := s.starts.set i (after r.1)
        crashed := r.2.isPanic }, .worked (some r.2))

/-- One step, if it is possible.  The keys of the node are those of the registry,
    which all calls have read, and its context does not end. -/
def State.react [Zero SG] [Add SG] (topic : String) (bls : Bls PK SG SK)
    (n : Node PK SG SK) (s : State SG) (a : Action SG) :
    Option (State SG × Shown SG) :=
  if s.crashed then none
  else
    match a with
    | .joins err =>
        (s.node.react (.call (.joinTopic topic err))).map fun r =>
          ({ s with
              node := r.1
              starts := s.starts ++ [
                match r.2 with
                | .answered (.ok _) => .joined
                | _ => .returned] }, .topics (.call (.joinTopic topic err)) r.2)
    | .subscribes i err =>
        match s.starts[i]? with
        | some .joined => s.turn i (.call (.subscribe topic err)) fun
            | .answered (.ok _) => .setup (.start n.publicKeys.length) .idle
            | _ => .failed
        | _ => none
    | .asks i =>
        match s.starts[i]? with
        | some (.setup p .idle) => s.turn i (.receiveFrom topic) fun
            | .waits => .setup p (.next s.node.readers.length)
            | _ => breakLoop p
        | _ => none
    | .gets i msg =>
        match s.starts[i]? with
        | some (.setup p (.next r)) => s.turn i (.next r msg) fun
            | .took _ _ bytes => .setup p (.hand bytes)
            | _ => breakLoop p
        | _ => none
    | .stops i =>
        match s.starts[i]? with
        | some (.setup p (.next r)) =>
            if p.setup.cancelled then
              s.turn i (.expires r) fun _ => .setup p .over
            else none
        | _ => none
    | .selects i =>
        match s.starts[i]? with
        | some (.setup p (.hand bytes)) =>
            if p.setup.cancelled then some (s.work i (.setup p .idle) none)
            else (p.react bls n (.receives bytes)).map fun r =>
              s.work i (.setup r.1 .idle) (some r.2)
        | _ => none
    | .handles i k =>
        match s.starts[i]? with
        | some (.setup p turn) => s.handle bls n i k p (.setup · turn)
        | some (.assigned p) => s.handle bls n i k p .assigned
        | _ => none
    | .assigns i =>
        match s.starts[i]? with
        | some (.setup p .over) =>
            (p.react bls n .returns).map fun r =>
              ({ s with
                  starts := s.starts.set i (.assigned r.1)
                  membershipKey := p.setup.membershipKey },
                .assigned i p.setup.membershipKey
                  (decide (p.setup.receivedMembershipKeyMask = 0)))
        | _ => none
    | .leaves i err =>
        match s.starts[i]? with
        | some .failed => s.turn i (.call (.leaveTopic topic err)) fun _ => .returned
        | some (.assigned p) =>
            if p.handlers = [] then
              s.turn i (.call (.leaveTopic topic err)) fun _ => .returned
            else none
        | _ => none

/-! ## What one step does -/

/-- How a call goes on by a step of the topics. -/
inductive Turns [Zero SG] (topic : String) (n : Node PK SG SK)
    (node : System (Bytes SG)) (i : ℕ) : Action SG →
    RelayerPubSub.Event (Bytes SG) → Output (Bytes SG) → Start SG → Start SG →
    Prop where
  | subscribes {err : Option String} {answer : Option ℕ} :
      Turns topic n node i (.subscribes i err) (.call (.subscribe topic err))
        (.answered (.ok answer)) .joined
        (.setup (.start n.publicKeys.length) .idle)
  | fails {err : Option String} {o : Output (Bytes SG)}
      (ho : ∀ answer, o ≠ .answered (.ok answer)) :
      Turns topic n node i (.subscribes i err) (.call (.subscribe topic err)) o
        .joined .failed
  | waits {p : Process SG} :
      Turns topic n node i (.asks i) (.receiveFrom topic) .waits (.setup p .idle)
        (.setup p (.next node.readers.length))
  | misses {p : Process SG} {o : Output (Bytes SG)} (ho : o ≠ .waits) :
      Turns topic n node i (.asks i) (.receiveFrom topic) o (.setup p .idle)
        (breakLoop p)
  | gets {p : Process SG} {r k : ℕ} {m : String} {bytes : Bytes SG}
      {msg : Option (Bytes SG)} :
      Turns topic n node i (.gets i msg) (.next r msg) (.took m k bytes)
        (.setup p (.next r)) (.setup p (.hand bytes))
  | ends {p : Process SG} {r : ℕ} {msg : Option (Bytes SG)}
      {o : Output (Bytes SG)} (ho : ∀ m k bytes, o ≠ .took m k bytes) :
      Turns topic n node i (.gets i msg) (.next r msg) o (.setup p (.next r))
        (breakLoop p)
  | stops {p : Process SG} {r : ℕ} {o : Output (Bytes SG)}
      (hcancelled : p.setup.cancelled = true) :
      Turns topic n node i (.stops i) (.expires r) o (.setup p (.next r))
        (.setup p .over)
  | leaves {err : Option String} {o : Output (Bytes SG)} {before : Start SG}
      (hbefore : before = .failed ∨ ∃ p, before = .assigned p) :
      Turns topic n node i (.leaves i err) (.call (.leaveTopic topic err)) o
        before .returned

/-- How a call goes on by itself. -/
inductive Works [Add SG] (bls : Bls PK SG SK) (n : Node PK SG SK) (i : ℕ) :
    Action SG → Start SG → Start SG → Prop where
  | drops {p : Process SG} {bytes : Bytes SG} :
      Works bls n i (.selects i) (.setup p (.hand bytes)) (.setup p .idle)
  | spawns {p : Process SG} {bytes : Bytes SG} :
      Works bls n i (.selects i) (.setup p (.hand bytes))
        (.setup { p with handlers := p.handlers ++ [bytes] } .idle)
  | handles {p p' : Process SG} {turn : Turn SG} {k : ℕ} {o : Outcome SG}
      (hreact : p.react bls n (.handles k) = some (p', o)) :
      Works bls n i (.handles i k) (.setup p turn) (.setup p' turn)
  | late {p p' : Process SG} {k : ℕ} :
      Works bls n i (.handles i k) (.assigned p) (.assigned p')

/-- All that a step can do. -/
inductive Does [Zero SG] [Add SG] (topic : String) (bls : Bls PK SG SK)
    (n : Node PK SG SK) (s : State SG) : Action SG → Shown SG → State SG →
    Prop where
  | joins {err : Option String} {node : System (Bytes SG)}
      {o : Output (Bytes SG)} {start : Start SG}
      (hnode : s.node.react (.call (.joinTopic topic err)) = some (node, o))
      (hstart : start = .joined ∧ (∃ answer, o = .answered (.ok answer)) ∨
        start = .returned) :
      Does topic bls n s (.joins err) (.topics (.call (.joinTopic topic err)) o)
        { s with node := node, starts := s.starts ++ [start] }
  | turns {i : ℕ} {a : Action SG} {e : RelayerPubSub.Event (Bytes SG)}
      {node : System (Bytes SG)} {o : Output (Bytes SG)} {before after : Start SG}
      (hbefore : s.starts[i]? = some before)
      (hnode : s.node.react e = some (node, o))
      (hturns : Turns topic n s.node i a e o before after) :
      Does topic bls n s a (.topics e o)
        { s with node := node, starts := s.starts.set i after }
  | works {i : ℕ} {a : Action SG} {o : Option (Outcome SG)}
      {before after : Start SG} {crashed : Bool}
      (hbefore : s.starts[i]? = some before)
      (hworks : Works bls n i a before after) :
      Does topic bls n s a (.worked o)
        { s with starts := s.starts.set i after, crashed := crashed }
  | assigns {i : ℕ} {p p' : Process SG}
      (hbefore : s.starts[i]? = some (.setup p .over))
      (hended : (p.setup.cancelled || p.closed) = true) :
      Does topic bls n s (.assigns i)
        (.assigned i p.setup.membershipKey
          (decide (p.setup.receivedMembershipKeyMask = 0)))
        { s with
          starts := s.starts.set i (.assigned p')
          membershipKey := p.setup.membershipKey }

section Steps

variable [Zero SG] [Add SG] {topic : String} {bls : Bls PK SG SK}
  {n : Node PK SG SK} {s s' : State SG} {a : Action SG} {o : Shown SG}

/-- A turn of a start on the node is what the node does. -/
theorem does_of_turn {i : ℕ} {e : RelayerPubSub.Event (Bytes SG)}
    {before : Start SG} {after : Output (Bytes SG) → Start SG}
    (hbefore : s.starts[i]? = some before)
    (hturns : ∀ o, Turns topic n s.node i a e o before (after o))
    (h : s.turn i e after = some (s', o)) : Does topic bls n s a o s' := by
  obtain ⟨⟨node, out⟩, hnode, heq⟩ := Option.map_eq_some_iff.mp h
  cases heq
  exact .turns hbefore hnode (hturns out)

/-- A handler of a start works on its own setup. -/
theorem does_of_handle {i k : ℕ} {p : Process SG} {before : Start SG}
    {after : Process SG → Start SG} (hbefore : s.starts[i]? = some before)
    (hworks : ∀ p' o, p.react bls n (.handles k) = some (p', o) →
      Works bls n i a before (after p'))
    (h : s.handle bls n i k p after = some (s', o)) :
    Does topic bls n s a o s' := by
  obtain ⟨⟨p', out⟩, hreact, heq⟩ := Option.map_eq_some_iff.mp h
  cases heq
  exact .works hbefore (hworks p' out hreact)

/-- **WHAT A STEP DOES**. -/
theorem does_of_react (h : s.react topic bls n a = some (s', o)) :
    Does topic bls n s a o s' := by
  revert h
  unfold State.react
  split
  next =>
      intro h
      cases h
  cases a with
  | joins err =>
      intro h
      obtain ⟨⟨node, out⟩, hnode, heq⟩ := Option.map_eq_some_iff.mp h
      cases heq
      refine .joins hnode ?_
      split
      next answer hout => exact Or.inl ⟨rfl, answer, hout⟩
      next => exact Or.inr rfl
  | subscribes i err =>
      simp only
      split
      next hbefore =>
          refine does_of_turn hbefore fun o => ?_
          split
          next => exact .subscribes
          next hno => exact .fails hno
      next =>
          intro h
          cases h
  | asks i =>
      simp only
      split
      next p hbefore =>
          refine does_of_turn hbefore fun o => ?_
          split
          next => exact .waits
          next hno => exact .misses hno
      next =>
          intro h
          cases h
  | gets i msg =>
      simp only
      split
      next p r hbefore =>
          refine does_of_turn hbefore fun o => ?_
          split
          next => exact .gets
          next hno => exact .ends hno
      next =>
          intro h
          cases h
  | stops i =>
      simp only
      split
      next p r hbefore =>
          split
          next hcancelled =>
              exact does_of_turn hbefore fun o => .stops hcancelled
          next =>
              intro h
              cases h
      next =>
          intro h
          cases h
  | selects i =>
      simp only
      split
      next p bytes hbefore =>
          split
          next =>
              intro h
              cases h
              exact .works hbefore .drops
          next =>
              intro h
              obtain ⟨⟨p', out⟩, hreact, heq⟩ := Option.map_eq_some_iff.mp h
              cases heq
              -- a message goes to a handler; the other events are not of this
              -- action
              rcases react_cases hreact with ⟨_, heq, -, rfl⟩ |
                ⟨_, _, heq, -⟩ | ⟨heq, -⟩ | ⟨heq, -⟩
              · cases heq
                exact .works hbefore .spawns
              · cases heq
              · cases heq
              · cases heq
      next =>
          intro h
          cases h
  | handles i k =>
      simp only
      split
      next p turn hbefore =>
          exact does_of_handle hbefore fun p' o hreact => .handles hreact
      next p hbefore =>
          exact does_of_handle hbefore fun p' o _ => .late
      next =>
          intro h
          cases h
  | assigns i =>
      simp only
      split
      next p hbefore =>
          intro h
          obtain ⟨⟨p', out⟩, hreact, heq⟩ := Option.map_eq_some_iff.mp h
          cases heq
          -- the key is assigned where the wait has ended
          rcases react_cases hreact with ⟨_, heq, -⟩ | ⟨_, _, heq, -⟩ |
            ⟨heq, -⟩ | ⟨-, -, -, hended, -⟩
          · cases heq
          · cases heq
          · cases heq
          · exact .assigns hbefore hended
      next =>
          intro h
          cases h
  | leaves i err =>
      simp only
      split
      next hbefore =>
          exact does_of_turn hbefore fun o => .leaves (Or.inl rfl)
      next p hbefore =>
          split
          next =>
              exact does_of_turn hbefore fun o => .leaves (Or.inr ⟨p, rfl⟩)
          next =>
              intro h
              cases h
      next =>
          intro h
          cases h

end Steps

/-! ## What a setup has heard -/

/-- The bytes that a call took from the topic. -/
def took : Action SG × Shown SG → Option (ℕ × Bytes SG)
  | (.gets i _, .topics _ (.took _ _ bytes)) => some (i, bytes)
  | _ => none

/-- The key that a call assigned, and whether it had heard all nodes. -/
def assignment : Action SG × Shown SG → Option (ℕ × SG × Bool)
  | (_, .assigned i key complete) => some (i, key, complete)
  | _ => none

/-- The bytes are the parts of the node `j`. -/
def isParts (j : ℕ) : Bytes SG → Bool
  | some msg => decide (msg.msgType = .blsSetupParts ∧ msg.source = j)
  | none => false

/-- The call has taken the parts of the node `j`. -/
def Heard (j : ℕ) (tr : List (Action SG × Shown SG)) (i : ℕ) : Prop :=
  ∃ bytes, (i, bytes) ∈ tr.filterMap took ∧ isParts j bytes = true

/-- What is in a setup comes from what the call has taken. -/
structure Account (j : ℕ) (tr : List (Action SG × Shown SG)) (i : ℕ)
    (p : Process SG) (turn : Turn SG) : Prop where
  handlers : ∀ bytes ∈ p.handlers, (i, bytes) ∈ tr.filterMap took
  hand : ∀ bytes, turn = .hand bytes → (i, bytes) ∈ tr.filterMap took
  cleared : p.setup.receivedMembershipKeyMask.testBit j = false → Heard j tr i
  ended : p.setup.cancelled = true → p.setup.receivedMembershipKeyMask = 0

section Accounts

variable {j i : ℕ} {tr : List (Action SG × Shown SG)} {l : Action SG × Shown SG}
  {p p' : Process SG} {turn : Turn SG}

theorem took_mono {x : ℕ × Bytes SG} (h : x ∈ tr.filterMap took) :
    x ∈ (tr ++ [l]).filterMap took := by
  rw [filterMap_concat]
  exact List.mem_append_left _ h

theorem Heard.mono (h : Heard j tr i) : Heard j (tr ++ [l]) i := by
  obtain ⟨bytes, hmem, hparts⟩ := h
  exact ⟨bytes, took_mono hmem, hparts⟩

theorem Account.mono (h : Account j tr i p turn) :
    Account j (tr ++ [l]) i p turn where
  handlers bytes hb := took_mono (h.handlers bytes hb)
  hand bytes hb := took_mono (h.hand bytes hb)
  cleared hbit := (h.cleared hbit).mono
  ended := h.ended

/-- The loop moves on without a message in hand. -/
theorem Account.moves {turn' : Turn SG} {closed : Bool}
    (h : Account j tr i p turn) (hturn : ∀ bytes, turn' ≠ .hand bytes) :
    Account j tr i { p with closed := closed } turn' where
  handlers := h.handlers
  hand bytes hb := absurd hb (hturn bytes)
  cleared := h.cleared
  ended := h.ended

/-- A setup that starts has taken nothing. -/
theorem account_start [Zero SG] {np : ℕ} (hj : j < np) :
    Account j tr i (.start np : Process SG) .idle where
  handlers bytes hb := absurd hb List.not_mem_nil
  hand bytes hb := by cases hb
  cleared hbit := by
    rw [start_mask, testBit_initialMask hj] at hbit
    cases hbit
  ended hc := by cases hc

/-- **A HANDLER** clears the bit of a node whose parts were taken. -/
theorem Account.handle [Add SG] {bls : Bls PK SG SK} {n : Node PK SG SK} {k : ℕ}
    {o : Outcome SG} (h : Account j tr i p turn)
    (hreact : p.react bls n (.handles k) = some (p', o)) :
    Account j tr i p' turn := by
  have hhandlers : ∀ bytes ∈ p'.handlers, bytes ∈ p.handlers := by
    rcases react_cases hreact with ⟨_, heq, -⟩ | ⟨_, _, -, -, -, rfl⟩ |
      ⟨heq, -⟩ | ⟨heq, -⟩
    · cases heq
    · exact fun bytes hb => List.mem_of_mem_eraseIdx hb
    · cases heq
    · cases heq
  refine ⟨fun bytes hb => h.handlers bytes (hhandlers bytes hb), h.hand, ?_, ?_⟩
  -- the bit of `j` is cleared by a message that `j` has sent
  · intro hbit
    rcases react_setup hreact with ⟨hsame, -⟩ |
      ⟨k', msg, part, _, -, hk, htype, hrange, -, hadd, -⟩
    · exact h.cleared (hsame ▸ hbit)
    · rw [hadd] at hbit
      by_cases hj : msg.source.toNat = j
      · refine ⟨some msg, h.handlers _ (List.mem_of_getElem? hk), ?_⟩
        refine decide_eq_true ⟨htype, ?_⟩
        have hnonneg := hrange.1
        omega
      · have hkept : p.setup.receivedMembershipKeyMask.testBit j = false := by
          rw [← testBit_clearBit_of_ne _ hj]
          exact hbit
        exact h.cleared hkept
  · rcases react_setup hreact with ⟨hsame, -⟩ |
      ⟨k', msg, part, _, -, -, -, -, -, hadd, -⟩
    · rw [hsame]
      exact h.ended
    · rw [hadd]
      exact aggregate_done h.ended part msg.source

/-- All setups are accounted for. -/
def Accounts (j : ℕ) (tr : List (Action SG × Shown SG)) (starts : List (Start SG)) :
    Prop :=
  ∀ i p turn, starts[i]? = some (.setup p turn) → Account j tr i p turn

theorem Accounts.mono {starts : List (Start SG)} (h : Accounts j tr starts) :
    Accounts j (tr ++ [l]) starts :=
  fun i p turn hi => (h i p turn hi).mono

theorem Accounts.set {starts : List (Start SG)} {after : Start SG}
    (h : Accounts j tr starts)
    (hafter : ∀ p turn, after = .setup p turn → Account j (tr ++ [l]) i p turn) :
    Accounts j (tr ++ [l]) (starts.set i after) := by
  intro k p turn hk
  by_cases hik : i = k
  · subst hik
    rw [List.getElem?_set, if_pos rfl] at hk
    split at hk
    next => exact hafter p turn (Option.some.inj hk)
    next => cases hk
  · rw [List.getElem?_set_ne hik] at hk
    exact (h k p turn hk).mono

theorem Accounts.concat {starts : List (Start SG)} {start : Start SG}
    (h : Accounts j tr starts) (hstart : ∀ p turn, start ≠ .setup p turn) :
    Accounts j tr (starts ++ [start]) := by
  intro k p turn hk
  rw [List.getElem?_append] at hk
  split at hk
  next => exact h k p turn hk
  next =>
      rw [List.getElem?_singleton] at hk
      split at hk
      next => exact absurd (Option.some.inj hk) (hstart p turn)
      next => cases hk

variable [Zero SG] [Add SG] {topic : String} {bls : Bls PK SG SK}
  {n : Node PK SG SK} {s s' : State SG} {a : Action SG} {o : Shown SG}

omit [Add SG] in
/-- A turn on the node keeps the account: a message taken is in the trace. -/
theorem Turns.account {node : System (Bytes SG)}
    {e : RelayerPubSub.Event (Bytes SG)} {o : Output (Bytes SG)}
    {before after : Start SG} (hj : j < n.publicKeys.length)
    (hturns : Turns topic n node i a e o before after)
    (h : ∀ p turn, before = .setup p turn → Account j tr i p turn) :
    ∀ p turn, after = .setup p turn →
      Account j (tr ++ [(a, .topics e o)]) i p turn := by
  intro p turn hafter
  cases hturns with
  | subscribes =>
      cases hafter
      exact account_start hj
  | fails | leaves => cases hafter
  | waits =>
      cases hafter
      exact ((h _ _ rfl).moves fun _ hb => by cases hb).mono
  | misses | ends =>
      cases hafter
      exact ((h _ _ rfl).moves fun _ hb => by cases hb).mono
  | gets =>
      cases hafter
      refine { (h _ _ rfl).mono with hand := fun bytes hb => ?_ }
      cases hb
      rw [filterMap_concat]
      exact List.mem_append_right _ (List.mem_singleton_self _)
  | stops =>
      cases hafter
      exact ((h _ _ rfl).moves fun _ hb => by cases hb).mono

omit [Zero SG] in
/-- Work on a message keeps it: what a handler has was in hand. -/
theorem Works.account {before after : Start SG}
    (hworks : Works bls n i a before after)
    (h : ∀ p turn, before = .setup p turn → Account j tr i p turn) :
    ∀ p turn, after = .setup p turn → Account j (tr ++ [l]) i p turn := by
  intro p turn hafter
  cases hworks with
  | drops =>
      cases hafter
      exact ((h _ _ rfl).moves fun _ hb => by cases hb).mono
  | spawns =>
      cases hafter
      have haccount := h _ _ rfl
      refine Account.mono ⟨?_, ?_, haccount.cleared, haccount.ended⟩
      · intro bytes hb
        rcases List.mem_append.mp hb with hb | hb
        · exact haccount.handlers bytes hb
        · obtain rfl := List.mem_singleton.mp hb
          exact haccount.hand _ rfl
      · intro bytes hb
        cases hb
  | handles hreact =>
      cases hafter
      exact ((h _ _ rfl).handle hreact).mono
  | late => cases hafter

/-- **EVERY STEP KEEPS THE ACCOUNTS**. -/
theorem Accounts.does (hj : j < n.publicKeys.length)
    (h : Accounts j tr s.starts) (hdoes : Does topic bls n s a o s') :
    Accounts j (tr ++ [(a, o)]) s'.starts := by
  cases hdoes with
  | joins _ hstart =>
      refine h.mono.concat fun p turn heq => ?_
      rcases hstart with ⟨rfl, -⟩ | rfl
      · cases heq
      · cases heq
  | turns hbefore _ hturns =>
      refine h.set (hturns.account hj fun p turn heq => ?_)
      exact h _ p turn (heq ▸ hbefore)
  | works hbefore hworks =>
      refine h.set (hworks.account fun p turn heq => ?_)
      exact h _ p turn (heq ▸ hbefore)
  | assigns => exact h.set fun p turn heq => by cases heq

end Accounts

/-! ## Calls that are over -/

/-- The key is assigned, or the call has returned. -/
def Start.IsOver : Start SG → Prop
  | .assigned _ | .returned => True
  | _ => False

section Over

variable [Zero SG] [Add SG] {topic : String} {bls : Bls PK SG SK}
  {n : Node PK SG SK} {s s' : State SG} {a : Action SG} {o : Shown SG} {i : ℕ}
  {start : Start SG}

omit [Zero SG] [Add SG] in
/-- A start that is over stays over. -/
theorem isOver_set {starts : List (Start SG)} {k : ℕ} {before after : Start SG}
    (hbefore : starts[k]? = some before) (hafter : before.IsOver → after.IsOver)
    (hi : starts[i]? = some start) (hover : start.IsOver) :
    ∃ start', (starts.set k after)[i]? = some start' ∧ start'.IsOver := by
  by_cases hki : k = i
  · subst hki
    rw [hi] at hbefore
    cases hbefore
    refine ⟨after, ?_, hafter hover⟩
    exact List.getElem?_set_self (List.getElem?_eq_some_iff.mp hi).1
  · exact ⟨start, by rw [List.getElem?_set_ne hki, hi], hover⟩

/-- A call that is over remains so. -/
theorem Does.isOver (hdoes : Does topic bls n s a o s')
    (hi : s.starts[i]? = some start) (hover : start.IsOver) :
    ∃ start', s'.starts[i]? = some start' ∧ start'.IsOver := by
  cases hdoes with
  | joins =>
      refine ⟨start, ?_, hover⟩
      rw [List.getElem?_append_left]
      · exact hi
      · exact (List.getElem?_eq_some_iff.mp hi).1
  | turns hbefore _ hturns =>
      refine isOver_set hbefore (fun hb => ?_) hi hover
      cases hturns with
      | subscribes | fails | waits | misses | gets | ends | stops => cases hb
      | leaves => trivial
  | works hbefore hworks =>
      refine isOver_set hbefore (fun hb => ?_) hi hover
      cases hworks with
      | drops | spawns | handles => cases hb
      | late => trivial
  | assigns hbefore => exact isOver_set hbefore (fun _ => trivial) hi hover

end Over

/-! ## Until a key is assigned -/

/-- Nobody has disturbed the call: its topic is joined, in the setup it is
    subscribed to, and its loop was not broken. -/
def Start.Fresh (c : Protocol) (topic : String) : Start SG → Prop
  | .joined => (c.topics topic).isSome = true
  | .setup p _ => (c.subscriptions topic).isSome = true ∧ p.closed = false
  | .returned => True
  | .assigned _ | .failed => False

/-- No subscription was cancelled, and nobody has disturbed a call. -/
structure Untouched (topic : String) (s : State SG) : Prop where
  cancelled : s.node.cancelled = []
  fresh : ∀ (i : ℕ) (start : Start SG), s.starts[i]? = some start →
    start.Fresh s.node.protocol topic

/-- What is assumed of pubsub: it refuses no `Subscribe`, and `Next` returns an
    error, where the context is not done, only if its subscription was
    cancelled. -/
def State.promised (s : State SG) : Action SG → Bool
  | .subscribes _ err => err.isNone
  | .gets i none =>
      match s.starts[i]? with
      | some (.setup _ (.next r)) => s.node.onCancelled r
      | _ => true
  | _ => true

/-- Pubsub gives an error only to a reader of a cancelled subscription. -/
theorem mem_cancelled_of_promised {s : State SG} {i r k : ℕ} {m : String}
    {p : Process SG} (h : s.promised (.gets i none) = true)
    (hi : s.starts[i]? = some (.setup p (.next r)))
    (hreader : s.node.readers[r]? = some (.next m k)) :
    (m, k) ∈ s.node.cancelled := by
  simp only [State.promised, hi, System.onCancelled, hreader] at h
  exact of_decide_eq_true h

/-- A fresh start stays fresh while no topic is left. -/
theorem Start.Fresh.grows {c c' : Protocol} {topic : String} {start : Start SG}
    (h : start.Fresh c topic)
    (htopics : (c.topics topic).isSome = true → (c'.topics topic).isSome = true)
    (hsubs : (c.subscriptions topic).isSome = true →
      (c'.subscriptions topic).isSome = true) : start.Fresh c' topic := by
  cases start with
  | joined => exact htopics h
  | setup p turn => exact ⟨hsubs h.1, h.2⟩
  | returned => trivial
  | assigned | failed => cases h

/-- The steps of receivers leave the books alone. -/
theorem does_still {M : Type} {s s' : System M} {e : RelayerPubSub.Event M}
    {o : Output M} (hdoes : RelayerPubSub.Does s e o s')
    (hcall : ∀ call, e ≠ .call call) (hdis : ∀ names errs, e ≠ .disconnect names errs) :
    s'.protocol = s.protocol ∧ s'.cancelled = s.cancelled := by
  cases hdoes with
  | calls => exact absurd rfl (hcall _)
  | disconnects => exact absurd rfl (hdis _ _)
  | waits | misses | takes | gives => exact ⟨rfl, rfl⟩

section Untouched

variable [Zero SG] [Add SG] {topic : String} {bls : Bls PK SG SK}
  {n : Node PK SG SK} {s s' : State SG} {a : Action SG} {o : Shown SG} {i : ℕ}

omit [Zero SG] [Add SG] in
/-- One start replaced by a fresh one. -/
theorem Untouched.set {node : System (Bytes SG)} {after : Start SG}
    (h : Untouched topic s) (hcancelled : node.cancelled = s.node.cancelled)
    (hgrows : ∀ start : Start SG, start.Fresh s.node.protocol topic →
      start.Fresh node.protocol topic)
    (hafter : after.Fresh node.protocol topic) :
    Untouched topic { s with node := node, starts := s.starts.set i after } := by
  refine ⟨hcancelled.trans h.cancelled, ?_⟩
  intro k start hk
  have hk : (s.starts.set i after)[k]? = some start := hk
  rw [List.getElem?_set] at hk
  split at hk
  next =>
      split at hk
      next => exact Option.some.inj hk ▸ hafter
      next => cases hk
  next => exact hgrows start (h.fresh k start hk)

omit [Add SG] in
/-- A call that nobody has disturbed goes on undisturbed. -/
theorem Turns.untouched {node : System (Bytes SG)}
    {e : RelayerPubSub.Event (Bytes SG)} {o : Output (Bytes SG)}
    {before after : Start SG} (hbooked : Booked s.node.protocol)
    (hpromised : s.promised a = true) (h : Untouched topic s)
    (hbefore : s.starts[i]? = some before)
    (hnode : s.node.react e = some (node, o))
    (hturns : Turns topic n s.node i a e o before after) :
    Untouched topic { s with node := node, starts := s.starts.set i after } := by
  have hfresh := h.fresh i before hbefore
  have hdoes := RelayerPubSub.does_of_react hnode
  cases hturns with
  | @subscribes err answer =>
      obtain ⟨c', ans, hreact, hans, rfl, hcancelled⟩ := call_of_react hnode
      cases hans
      have hc' : s.node.protocol.subscribe topic err =
          (node.protocol, .ok answer) := Option.some.inj hreact
      obtain ⟨htopics, hsubs, hok⟩ := @subscribe_grows s.node.protocol topic err
      rw [hc'] at htopics hsubs hok
      refine h.set (hcancelled.trans (List.append_nil _)) (fun start hs => ?_)
        ⟨hok answer rfl, rfl⟩
      exact hs.grows (fun ht => htopics ▸ ht) (hsubs topic)
  | @fails err o ho =>
      -- the topic is still joined, and pubsub does not refuse
      cases err with
      | some err => cases hpromised
      | none =>
          obtain ⟨c', ans, hreact, rfl, -⟩ := call_of_react hnode
          obtain ⟨answer, hok⟩ := subscribe_succeeds hbooked hfresh
          have hc' : s.node.protocol.subscribe topic none = (c', ans) :=
            Option.some.inj hreact
          rw [hc'] at hok
          exact absurd (congrArg Output.answered hok) (ho answer)
  | waits =>
      obtain ⟨hsame, hcancelled⟩ := does_still hdoes (fun _ h => by cases h)
        (fun _ _ h => by cases h)
      refine h.set hcancelled (fun start hs => hsame ▸ hs) ?_
      exact ⟨hsame ▸ hfresh.1, hfresh.2⟩
  | misses ho =>
      -- there is a subscription, so that the receiver waits
      cases hdoes with
      | waits => exact absurd rfl ho
      | misses hlook hsub =>
          rcases hlook with heq | ⟨heq, -⟩
          · cases heq
            have hsome := hfresh.1
            rw [hsub] at hsome
            cases hsome
          · cases heq
      | gives _ hwhy =>
          rcases hwhy with heq | heq
          · cases heq
          · cases heq
  | gets =>
      obtain ⟨hsame, hcancelled⟩ := does_still hdoes (fun _ h => by cases h)
        (fun _ _ h => by cases h)
      refine h.set hcancelled (fun start hs => hsame ▸ hs) ?_
      exact ⟨hsame ▸ hfresh.1, hfresh.2⟩
  | ends ho =>
      -- no subscription was cancelled, so that `Next` does not fail
      cases hdoes with
      | takes => exact absurd rfl (ho _ _ _)
      | gives hreader hwhy =>
          rcases hwhy with heq | heq
          · cases heq
            have hmem := mem_cancelled_of_promised hpromised hbefore hreader
            rw [h.cancelled] at hmem
            cases hmem
          · cases heq
      | waits hlook | misses hlook =>
          rcases hlook with heq | ⟨heq, -⟩
          · cases heq
          · cases heq
  | stops hc =>
      obtain ⟨hsame, hcancelled⟩ := does_still hdoes (fun _ h => by cases h)
        (fun _ _ h => by cases h)
      refine h.set hcancelled (fun start hs => hsame ▸ hs) ?_
      exact ⟨hsame ▸ hfresh.1, hfresh.2⟩
  | leaves hb =>
      rcases hb with rfl | ⟨p, rfl⟩
      · cases hfresh
      · cases hfresh

omit [Zero SG] in
/-- Work on messages leaves a start fresh. -/
theorem Works.fresh {c : Protocol} {before after : Start SG}
    (hworks : Works bls n i a before after) (h : before.Fresh c topic) :
    after.Fresh c topic := by
  cases hworks with
  | drops | spawns => exact h
  | handles hreact =>
      refine ⟨h.1, ?_⟩
      rcases react_cases hreact with ⟨_, heq, -⟩ | ⟨_, _, -, -, -, rfl⟩ |
        ⟨heq, -⟩ | ⟨heq, -⟩
      · cases heq
      · exact h.2
      · cases heq
      · cases heq
  | late => cases h

/-- **NOBODY IS DISTURBED** by a step that assigns no key. -/
theorem Untouched.does (hbooked : Booked s.node.protocol)
    (hpromised : s.promised a = true) (h : Untouched topic s)
    (hdoes : Does topic bls n s a o s') (hnone : assignment (a, o) = none) :
    Untouched topic s' := by
  cases hdoes with
  -- a start that could join has its topic
  | @joins err node o start hnode hstart =>
      obtain ⟨c', ans, hreact, rfl, rfl, hcancelled⟩ := call_of_react hnode
      have hc' : s.node.protocol.joinTopic topic err = (node.protocol, ans) :=
        Option.some.inj hreact
      obtain ⟨htopics, hsubs, hok⟩ := @joinTopic_grows s.node.protocol topic err
      rw [hc'] at htopics hsubs hok
      refine ⟨(hcancelled.trans (List.append_nil _)).trans h.cancelled, ?_⟩
      intro k start' hk
      have hk : (s.starts ++ [start])[k]? = some start' := hk
      rw [List.getElem?_append] at hk
      split at hk
      next =>
          exact (h.fresh k start' hk).grows (htopics topic) fun hs => hsubs ▸ hs
      next =>
          rw [List.getElem?_singleton] at hk
          split at hk
          next =>
              cases hk
              rcases hstart with ⟨rfl, answer, hans⟩ | rfl
              · cases hans
                exact hok answer rfl
              · trivial
          next => cases hk
  | turns hbefore hnode hturns =>
      exact hturns.untouched hbooked hpromised h hbefore hnode
  | @works i _ _ _ after _ hbefore hworks =>
      have hset : Untouched topic
          { s with node := s.node, starts := s.starts.set i after } :=
        h.set rfl (fun _ => id) (hworks.fresh (h.fresh _ _ hbefore))
      exact ⟨hset.cancelled, hset.fresh⟩
  | assigns => cases hnone

/-- The books stay in order. -/
theorem booked_does (hbooked : Booked s.node.protocol)
    (hdoes : Does topic bls n s a o s') : Booked s'.node.protocol := by
  have hcall : ∀ {call : RelayerTopics.Call} {node : System (Bytes SG)}
      {out : Output (Bytes SG)}, s.node.react (.call call) = some (node, out) →
      Booked node.protocol := by
    intro call node out hnode
    obtain ⟨c', answer, hreact, -, rfl, -⟩ := call_of_react hnode
    have hfires : Fires Protocol.react s.node.protocol (call, answer)
      node.protocol := hreact
    exact (RelayerTopics.react_moves hbooked hfires).booked hbooked
  have hstill : ∀ {e : RelayerPubSub.Event (Bytes SG)} {node : System (Bytes SG)}
      {out : Output (Bytes SG)}, s.node.react e = some (node, out) →
      (∀ call, e ≠ .call call) → (∀ names errs, e ≠ .disconnect names errs) →
      Booked node.protocol := by
    intro e node out hnode hc hd
    exact (does_still (RelayerPubSub.does_of_react hnode) hc hd).1 ▸ hbooked
  cases hdoes with
  | joins hnode => exact hcall hnode
  | turns _ hnode hturns =>
      cases hturns with
      | subscribes | fails | leaves => exact hcall hnode
      | waits | misses | gets | ends | stops =>
          exact hstill hnode (fun _ h => by cases h) (fun _ _ h => by cases h)
  | works | assigns => exact hbooked

end Untouched

/-! ## The keys that are assigned -/

/-- What holds along a run in which pubsub does what it promises. -/
structure Invariant (topic : String) (j : ℕ) (key₀ : SG)
    (tr : List (Action SG × Shown SG)) (s : State SG) : Prop where
  booked : Booked s.node.protocol
  accounts : Accounts j tr s.starts
  settled : ∀ x ∈ tr.filterMap assignment, ∃ start, s.starts[x.1]? = some start ∧
    start.IsOver
  nodup : ((tr.filterMap assignment).map Prod.fst).Nodup
  heard : ∀ x ∈ tr.filterMap assignment, x.2.2 = true → Heard j tr x.1
  untouched : tr.filterMap assignment = [] → Untouched topic s
  first : ∀ x, (tr.filterMap assignment).head? = some x → x.2.2 = true
  key : s.membershipKey =
    ((tr.filterMap assignment).getLast?.map fun x => x.2.1).getD key₀

section Invariant

variable [Zero SG] [Add SG] {topic : String} {bls : Bls PK SG SK}
  {n : Node PK SG SK} {s s' : State SG} {a : Action SG} {o : Shown SG} {i j : ℕ}
  {key₀ : SG} {tr : List (Action SG × Shown SG)}

/-- A step that assigns no key. -/
theorem Invariant.quiet (h : Invariant topic j key₀ tr s)
    (hj : j < n.publicKeys.length) (hpromised : s.promised a = true)
    (hdoes : Does topic bls n s a o s') (hnone : assignment (a, o) = none)
    (hkey : s'.membershipKey = s.membershipKey) :
    Invariant topic j key₀ (tr ++ [(a, o)]) s' := by
  have hsame : (tr ++ [(a, o)]).filterMap assignment = tr.filterMap assignment := by
    rw [filterMap_concat, hnone]
    exact List.append_nil _
  refine ⟨booked_does h.booked hdoes, h.accounts.does hj hdoes, ?_, ?_, ?_, ?_, ?_, ?_⟩
  · intro x hx
    rw [hsame] at hx
    obtain ⟨start, hi, hover⟩ := h.settled x hx
    exact hdoes.isOver hi hover
  · rw [hsame]
    exact h.nodup
  · intro x hx hcomplete
    rw [hsame] at hx
    exact (h.heard x hx hcomplete).mono
  · intro hnil
    rw [hsame] at hnil
    exact (h.untouched hnil).does h.booked hpromised hdoes hnone
  · rw [hsame]
    exact h.first
  · rw [hsame, hkey]
    exact h.key

omit [Zero SG] [Add SG] in
/-- A call that ends its setup has heard the node, if it has heard all; and it
    has, if nobody has left the topic. -/
theorem Invariant.complete {p : Process SG} (h : Invariant topic j key₀ tr s)
    (hbefore : s.starts[i]? = some (.setup p .over))
    (hended : (p.setup.cancelled || p.closed) = true) :
    (p.setup.receivedMembershipKeyMask = 0 → Heard j tr i) ∧
    (tr.filterMap assignment = [] → p.setup.receivedMembershipKeyMask = 0) := by
  have haccount := h.accounts i p .over hbefore
  constructor
  · intro hzero
    refine haccount.cleared ?_
    rw [hzero]
    exact Nat.zero_testBit j
  · intro hnil
    have hclosed := ((h.untouched hnil).fresh i _ hbefore).2
    rw [hclosed, Bool.or_false] at hended
    exact haccount.ended hended

/-- **EVERY STEP** keeps the invariant. -/
theorem Invariant.does (h : Invariant topic j key₀ tr s)
    (hj : j < n.publicKeys.length) (hpromised : s.promised a = true)
    (hdoes : Does topic bls n s a o s') :
    Invariant topic j key₀ (tr ++ [(a, o)]) s' := by
  have hstep := hdoes
  cases hstep with
  | joins | turns | works => exact h.quiet hj hpromised hdoes rfl rfl
  | @assigns i p p' hbefore hended =>
      obtain ⟨hheard, hfirst⟩ := h.complete hbefore hended
      have hsnoc : ∀ l, assignment l = some (i, p.setup.membershipKey,
          decide (p.setup.receivedMembershipKeyMask = 0)) →
          (tr ++ [l]).filterMap assignment = tr.filterMap assignment ++
            [(i, p.setup.membershipKey,
              decide (p.setup.receivedMembershipKeyMask = 0))] := by
        intro l hl
        rw [filterMap_concat, hl]
        rfl
      have hlast := hsnoc (.assigns i, .assigned i p.setup.membershipKey
        (decide (p.setup.receivedMembershipKeyMask = 0))) rfl
      refine ⟨booked_does h.booked hdoes, h.accounts.does hj hdoes, ?_, ?_, ?_, ?_, ?_,
        ?_⟩
      · intro x hx
        rw [hlast] at hx
        rcases List.mem_append.mp hx with hx | hx
        · obtain ⟨start, hi, hover⟩ := h.settled x hx
          exact hdoes.isOver hi hover
        · obtain rfl := List.mem_singleton.mp hx
          refine ⟨.assigned p', ?_, trivial⟩
          exact List.getElem?_set_self (List.getElem?_eq_some_iff.mp hbefore).1
      · rw [hlast, List.map_append, List.nodup_append]
        refine ⟨h.nodup, List.nodup_singleton _, ?_⟩
        -- the call is in its setup, so that it has not assigned before
        intro k hk k' hk' hkk'
        obtain ⟨x, hx, rfl⟩ := List.mem_map.mp hk
        obtain rfl := List.mem_singleton.mp hk'
        obtain ⟨start, hi, hover⟩ := h.settled x hx
        rw [hkk', hbefore] at hi
        cases hi
        cases hover
      · intro x hx hcomplete
        rw [hlast] at hx
        rcases List.mem_append.mp hx with hx | hx
        · exact (h.heard x hx hcomplete).mono
        · obtain rfl := List.mem_singleton.mp hx
          exact (hheard (of_decide_eq_true hcomplete)).mono
      · intro hnil
        rw [hlast] at hnil
        exact absurd hnil (List.append_ne_nil_of_right_ne_nil _ (List.cons_ne_nil _ _))
      · intro x hx
        rw [hlast] at hx
        cases hassigned : tr.filterMap assignment with
        | nil =>
            rw [hassigned] at hx
            cases hx
            exact decide_eq_true (hfirst hassigned)
        | cons y ys =>
            rw [hassigned] at hx
            cases hx
            exact h.first _ (by rw [hassigned]; rfl)
      · rw [hlast, List.getLast?_concat]
        rfl

omit [Zero SG] [Add SG] in
/-- Nothing is assigned at the start. -/
theorem invariant_start {mainTopicName : String} :
    Invariant topic j key₀ [] (State.start (started mainTopicName) key₀) where
  booked := RelayerTopics.booked_started mainTopicName
  accounts i p turn hi := by cases hi
  settled x hx := absurd hx List.not_mem_nil
  nodup := List.nodup_nil
  heard x hx := absurd hx List.not_mem_nil
  untouched _ := ⟨rfl, fun i start hi => by cases hi⟩
  first x hx := by cases hx
  key := rfl

/-- The invariant along every run that keeps pubsub's promise. -/
theorem invariant_run {mainTopicName : String} (hj : j < n.publicKeys.length)
    (hrun : Run (Guarded (Fires (State.react topic bls n))
        fun s l => s.promised l.1 = true)
      (State.start (started mainTopicName) key₀) tr s) :
    Invariant topic j key₀ tr s := by
  induction hrun with
  | refl => exact invariant_start
  | tail _ hlast ih => exact ih.does hj hlast.2 (does_of_react hlast.1)

end Invariant

/-! ## One call hears a node -/

/-- How often the parts of the node `j` are given to a call. -/
def takings (j : ℕ) (tr : List (Action SG × Shown SG)) : ℕ :=
  (tr.filterMap took).countP fun x => isParts j x.2

/-- Two calls cannot both have heard a node whose parts are given out once. -/
theorem heard_unique {i i' j : ℕ} {tr : List (Action SG × Shown SG)}
    (honce : takings j tr ≤ 1) (h : Heard j tr i) (h' : Heard j tr i') :
    i = i' := by
  obtain ⟨bytes, hmem, hparts⟩ := h
  obtain ⟨bytes', hmem', hparts'⟩ := h'
  rw [takings, List.countP_eq_length_filter] at honce
  have hin : (i, bytes) ∈ (tr.filterMap took).filter fun x => isParts j x.2 :=
    List.mem_filter.mpr ⟨hmem, hparts⟩
  have hin' : (i', bytes') ∈ (tr.filterMap took).filter fun x => isParts j x.2 :=
    List.mem_filter.mpr ⟨hmem', hparts'⟩
  generalize (tr.filterMap took).filter (fun x => isParts j x.2) = l at *
  cases l with
  | nil => cases hin
  | cons x l =>
      cases l with
      | nil =>
          have heq := (List.mem_singleton.mp hin).trans
            (List.mem_singleton.mp hin').symm
          exact congrArg Prod.fst heq
      | cons y l => exact absurd honce (by simp)

/-- **ONLY THE FIRST COMPLETES**: where the parts of some node are given to the
    calls once, the first call that assigns its key has heard all nodes, every
    later one has not, and the node is left with the key of the last. -/
theorem only_first_completes [Zero SG] [Add SG] (bls : Bls PK SG SK)
    (n : Node PK SG SK) {topic mainTopicName : String} {key₀ : SG} {j : ℕ}
    {gossipErr joinErr subscribeErr : Option String} {c : Protocol}
    {tr : List (Action SG × Shown SG)} {s : State SG}
    (hnew : newPubSubWithTopic mainTopicName gossipErr joinErr subscribeErr =
      .ok c)
    (hrun : Run (Guarded (Fires (State.react topic bls n))
        fun s l => s.promised l.1 = true)
      (State.start c key₀) tr s)
    (hj : j < n.publicKeys.length) (honce : takings j tr ≤ 1) :
    (∀ x, (tr.filterMap assignment).head? = some x → x.2.2 = true) ∧
    (∀ x ∈ (tr.filterMap assignment).tail, x.2.2 = false) ∧
    s.membershipKey =
      ((tr.filterMap assignment).getLast?.map fun x => x.2.1).getD key₀ := by
  obtain rfl := RelayerTopics.newPubSubWithTopic_eq_ok hnew
  have hinv := invariant_run hj hrun
  refine ⟨hinv.first, ?_, hinv.key⟩
  intro x hx
  have hnodup := hinv.nodup
  have hheard := hinv.heard
  have hfirst := hinv.first
  cases hassigned : tr.filterMap assignment with
  | nil =>
      rw [hassigned] at hx
      cases hx
  | cons y ys =>
      rw [hassigned] at hx hnodup hheard hfirst
      -- two complete starts would both have heard node `j`, taken only once
      refine Bool.eq_false_of_not_eq_true fun hcomplete => ?_
      have heq := heard_unique honce
        (hheard y List.mem_cons_self (hfirst y rfl))
        (hheard x (List.mem_cons_of_mem _ hx) hcomplete)
      rw [List.map_cons, List.nodup_cons] at hnodup
      exact hnodup.1 (heq ▸ List.mem_map_of_mem hx)

/-- Two calls of node 1, and one answer of each of two nodes: the second call
    gets both, leaves with the key, and the first one overwrites it. -/
def sampleActions : List (Action ℤ) :=
  [.joins none, .joins none, .subscribes 0 none, .subscribes 1 none, .asks 0,
    .asks 1, .gets 1 (some (some (sampleEpoch.parts intBls 0))), .selects 1,
    .asks 1, .gets 1 (some (some (sampleEpoch.parts intBls 1))), .selects 1,
    .handles 1 0, .handles 1 0, .asks 1, .stops 1, .assigns 1, .leaves 1 none,
    .gets 0 none, .assigns 0]

/-- Two starts: the second is complete, the first assigns after it. -/
theorem only_first_completes_sample :
    ∃ tr, ∃ s : State ℤ,
      Run (Fires (State.react "epoch" intBls (sampleEpoch.node intBls 1)))
        (State.start (started "main") 7) tr s ∧
      tr.filterMap assignment = [(1, 10000, true), (0, 0, false)] ∧
      s.membershipKey = 0 := by
  obtain ⟨tr, s, hrun, hassigned, honce⟩ := exists_run
    (fun tr (_ : State ℤ) =>
      tr.filterMap assignment = [(1, 10000, true), (0, 0, false)] ∧
      takings 0 tr ≤ 1)
    (show (execute (restrict State.promised
        (State.react "epoch" intBls (sampleEpoch.node intBls 1)))
      (State.start (started "main") 7) sampleActions).any _ = true by
      decide +kernel)
  have hguarded := restrict_run hrun
  have hnew : newPubSubWithTopic "main" none none none = .ok (started "main") :=
    rfl
  have hkey := (only_first_completes _ _ hnew hguarded
    (show 0 < (sampleEpoch.node intBls 1).publicKeys.length by decide) honce).2.2
  rw [hassigned] at hkey
  exact ⟨tr, s, hguarded.of_guarded, hassigned, hkey⟩

end RelayerRestart
