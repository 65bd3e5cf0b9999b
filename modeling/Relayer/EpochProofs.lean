import Relayer.NewSessionProofs
import Relayer.RoutineProofs

/-! # Epochs and the sessions made in them

    `StartEpoch`, `HandleNewEpoch` and `NewSession` of `node/bridge/node.go`,
    on the four fields of `EpochKeys` they share.  `StartEpoch` assigns them
    one at a time, the last one after the setup phase, and has error returns
    in between; `NewSession` works on a copy of the node, made when it is
    called, but asks the registry anew for the public keys.  Every event runs
    in a goroutine of its own, so the calls may interleave in any way.

    * `EpochCall.step` is one statement of a `StartEpoch` call, and
      `State.react` a node with all its calls;
    * `Moves` says once what a statement can do, `Consistent` what holds in
      every state of an orderly run;
    * `sessions_of_one_epoch`: in an orderly run every session carries the
      keys of one completed epoch. -/

namespace RelayerEpoch

open RelayerBls RelayerLeader RelayerMessage RelayerNewSession RelayerSession
open RelayerSetup Routines Transition

variable {PK SG SK : Type}

/-! ## StartEpoch -/

/-- `NodeRegistryPublicKeys`, on the BlsPubKey texts that `GetNodes` answered:
    a text that is no public key is a panic. -/
def nodeRegistryPublicKeys (unmarshal : String → Except String PK) :
    Except String (List String) → Except Panic (Except String (List PK))
  | .error err => .ok (.error err)
  | .ok nodes =>
      match nodes.mapM unmarshal with
      | .error err => .error (.badPublicKey err)
      | .ok publicKeys => .ok (.ok publicKeys)

/-- What a node brings along: its libraries, its host id, the id the registry
    gave it at the start, and its private key. -/
structure Setting (PK SG SK : Type) where
  bls : Bls PK SG SK
  unmarshalPublicKey : String → Except String PK
  pretty : PeerID → String
  host : PeerID
  blsNodeId : ℤ
  privKey : SK

/-- `aggregatedPublicKey`: the anti-rogue aggregate of the keys. -/
def Setting.epochKey (S : Setting PK SG SK) (publicKeys : List PK) : PK :=
  S.bls.aggregatePublicKeys publicKeys
    (S.bls.calculateAntiRogueCoefficients publicKeys)

/-- Where a `StartEpoch` call stands, with its local variables. -/
inductive EpochCall (PK SG : Type) where
  | called
  | read (publicKeys : List PK)
  | idSet (publicKeys : List PK)
  | keysSet (publicKeys : List PK)
  | epochKeySet (publicKeys : List PK)
  | joined (publicKeys : List PK)
  | subscribed (publicKeys : List PK)
  /-- In `BlsSetup`, or after it in `wg.Wait()`: the coefficients it computed,
      its variables, and whether its result was assigned. -/
  | setup (publicKeys : List PK) (anticoefs : List ℤ) (p : Process SG)
      (assigned : Bool)
  | returned (publicKeys : List PK) (p : Process SG)
  | failed (err : String)
  deriving DecidableEq, Repr

/-- The call has neither returned nor failed. -/
def EpochCall.inProgress : EpochCall PK SG → Bool
  | .returned _ _ | .failed _ => false
  | _ => true

/-- The call has begun to assign the keys and is not through. -/
def EpochCall.writes : EpochCall PK SG → Bool
  | .called | .read _ | .returned _ _ | .failed _ => false
  | _ => true

/-- A call that is over does not write. -/
theorem EpochCall.not_writes_of_over {call : EpochCall PK SG}
    (h : call.inProgress = false) : call.writes = false := by
  cases call with
  | returned pks p => rfl
  | failed err => rfl
  | _ => exact nomatch h

/-- The statements of `StartEpoch`, with what the network answers. -/
inductive EpochEvent (SG : Type) where
  | reads
  | assignsId
  | assignsPublicKeys
  | assignsEpochPublicKey
  | joins (err : Option String)
  | subscribes (err : Option String)
  | callsBlsSetup (peers : ℕ)
  | setup (e : Event SG)
  | assignsMembershipKey
  | returns
  deriving DecidableEq, Repr

section Step

variable [Zero SG] [Add SG]

/-- One statement of a `StartEpoch` call: where it stands then, the keys of
    the node, and what the setup did. -/
def EpochCall.step (S : Setting PK SG SK)
    (registry : Except String (List String)) (keys : EpochKeys PK SG) :
    EpochCall PK SG → EpochEvent SG →
      Option (EpochCall PK SG × EpochKeys PK SG × Option (Outcome SG))
  | .called, .reads =>
      match nodeRegistryPublicKeys S.unmarshalPublicKey registry with
      | .error p => some (.called, keys, some (.panicked p))
      | .ok (.error err) => some (.failed err, keys, none)
      | .ok (.ok publicKeys) => some (.read publicKeys, keys, none)
  | .read publicKeys, .assignsId =>
      some (.idSet publicKeys, { keys with id := S.blsNodeId }, none)
  | .idSet publicKeys, .assignsPublicKeys =>
      some (.keysSet publicKeys, { keys with publicKeys := publicKeys }, none)
  | .keysSet publicKeys, .assignsEpochPublicKey =>
      some (.epochKeySet publicKeys,
        { keys with epochPublicKey := S.epochKey publicKeys }, none)
  -- the two error returns below come after the keys were assigned
  | .epochKeySet publicKeys, .joins none =>
      some (.joined publicKeys, keys, none)
  | .epochKeySet _, .joins (some err) => some (.failed err, keys, none)
  | .joined publicKeys, .subscribes none =>
      some (.subscribed publicKeys, keys, none)
  | .joined _, .subscribes (some err) => some (.failed err, keys, none)
  | .subscribed publicKeys, .callsBlsSetup peers =>
      if (peers : ℤ) < publicKeys.length - 1 then none
      else some
        (.setup publicKeys
          (S.bls.calculateAntiRogueCoefficients keys.publicKeys)
          (Process.start keys.publicKeys.length) false,
        keys, if keys.id = 0 then some .triggered else none)
  | .setup publicKeys anticoefs p assigned, .setup e =>
      match p.reactWith S.bls anticoefs ⟨keys, S.privKey⟩ e with
      | none => none
      | some (p', o) =>
          some (.setup publicKeys anticoefs p' assigned, keys, some o)
  | .setup publicKeys anticoefs p false, .assignsMembershipKey =>
      match p.result with
      | none => none
      | some key => some (.setup publicKeys anticoefs p true,
          { keys with membershipKey := key }, none)
  | .setup publicKeys _ p true, .returns =>
      if p.handlers.isEmpty then some (.returned publicKeys p, keys, none)
      else none
  | _, _ => none

/-! ## The node -/

/-- Where a `NewSession` call stands: it holds a copy of the node, then also
    what the registry answered, then its result. -/
inductive SessionCall (PK SG SK : Type) where
  | called (node : Node PK SG SK)
  | read (node : Node PK SG SK) (publicKeys : Except String (List PK))
  | ended (result : Result PK SG SK)

/-- A node with its calls.  Call 0 of `StartEpoch` is the one `RunNode`
    makes; the others come from `HandleNewEpoch`. -/
structure State (PK SG SK : Type) where
  registry : Except String (List String)
  keys : EpochKeys PK SG
  epochs : List (EpochCall PK SG)
  sessions : List (SessionCall PK SG SK)
  crashed : Bool

/-- The node when `RunNode` calls `StartEpoch`. -/
def State.start (registry : Except String (List String))
    (keys : EpochKeys PK SG) : State PK SG SK :=
  ⟨registry, keys, [.called], [], false⟩

/-- `noEpochKey`. -/
def noEpochKey : List UInt8 := List.replicate 128 0

/-- `RunNode` adds the watchers of oracle requests after its `StartEpoch` has
    returned without an error. -/
def State.watching (st : State PK SG SK) : Bool :=
  match st.epochs.head? with
  | some (.returned _ _) => true
  | _ => false

/-- What can happen at a node. -/
inductive NodeEvent (SG : Type) where
  | registryAnswers (nodes : Except String (List String))
  | handleNewEpoch (newEpochKey : List UInt8)
  | startEpoch (t : ℕ) (e : EpochEvent SG)
  | newSession
  | readsRegistry (k : ℕ)
  | finishes (k : ℕ) (topic : String) (nodeExists : Bool)
      (getNode : Except String ℤ) (polls : List Poll)

/-- The rest of a `NewSession` call after the registry has answered. -/
def finish [Zero PK] (S : Setting PK SG SK) (node : Node PK SG SK)
    (publicKeys : Except String (List PK)) (topic : String)
    (nodeExists : Bool) (getNode : Except String ℤ) (polls : List Poll) :
    Result PK SG SK :=
  Request.newSession S.pretty topic
    ⟨node, S.host, ⟨publicKeys, nodeExists, getNode⟩, polls, false⟩

/-- One event at a node, if it is possible. -/
def State.react [Zero PK] (S : Setting PK SG SK) (st : State PK SG SK)
    (e : NodeEvent SG) : Option (State PK SG SK × Option (Outcome SG)) :=
  if st.crashed then none
  else
    match e with
    | .registryAnswers nodes => some ({ st with registry := nodes }, none)
    | .handleNewEpoch newEpochKey =>
        if newEpochKey = noEpochKey then
          some ({ st with epochs := st.epochs ++ [.called] }, none)
        else some (st, none)
    | .startEpoch t e =>
        match st.epochs[t]? with
        | none => none
        | some call =>
            match call.step S st.registry st.keys e with
            | none => none
            | some (call', keys', o) => some ({ st with
                keys := keys'
                epochs := st.epochs.set t call'
                crashed := o.any Outcome.isPanic }, o)
    | .newSession =>
        if st.watching then
          some ({ st with
            sessions := st.sessions ++ [.called ⟨st.keys, S.privKey⟩] }, none)
        else none
    | .readsRegistry k =>
        match st.sessions[k]? with
        | some (.called node) =>
            match nodeRegistryPublicKeys S.unmarshalPublicKey st.registry with
            | .error p => some ({ st with crashed := true },
                some (.panicked p))
            | .ok publicKeys => some ({ st with
                sessions := st.sessions.set k (.read node publicKeys) }, none)
        | _ => none
    | .finishes k topic nodeExists getNode polls =>
        match st.sessions[k]? with
        | some (.read node publicKeys) =>
            match finish S node publicKeys topic nodeExists getNode polls with
            | .waiting => none
            | result => some ({ st with
                sessions := st.sessions.set k (.ended result) }, none)
        | _ => none

end Step

/-! ## What a statement can do -/

section Moves

variable [Zero SG] [Add SG] {S : Setting PK SG SK}
  {registry : Except String (List String)} {keys keys' : EpochKeys PK SG}
  {call call' : EpochCall PK SG} {e : EpochEvent SG} {o : Option (Outcome SG)}

/-- What each statement does to its call and to the keys of the node. -/
inductive Moves (S : Setting PK SG SK) (keys : EpochKeys PK SG) :
    EpochCall PK SG → EpochEvent SG → EpochCall PK SG → EpochKeys PK SG →
      Option (Outcome SG) → Prop where
  | panics (p : Panic) :
      Moves S keys .called .reads .called keys (some (.panicked p))
  | readFails (err : String) :
      Moves S keys .called .reads (.failed err) keys none
  | reads (pks : List PK) : Moves S keys .called .reads (.read pks) keys none
  | assignsId (pks : List PK) :
      Moves S keys (.read pks) .assignsId (.idSet pks)
        { keys with id := S.blsNodeId } none
  | assignsPublicKeys (pks : List PK) :
      Moves S keys (.idSet pks) .assignsPublicKeys (.keysSet pks)
        { keys with publicKeys := pks } none
  | assignsEpochPublicKey (pks : List PK) :
      Moves S keys (.keysSet pks) .assignsEpochPublicKey (.epochKeySet pks)
        { keys with epochPublicKey := S.epochKey pks } none
  | joins (pks : List PK) :
      Moves S keys (.epochKeySet pks) (.joins none) (.joined pks) keys none
  | joinFails (pks : List PK) (err : String) :
      Moves S keys (.epochKeySet pks) (.joins (some err)) (.failed err) keys
        none
  | subscribes (pks : List PK) :
      Moves S keys (.joined pks) (.subscribes none) (.subscribed pks) keys none
  | subscribeFails (pks : List PK) (err : String) :
      Moves S keys (.joined pks) (.subscribes (some err)) (.failed err) keys
        none
  | callsBlsSetup (pks : List PK) (peers : ℕ) (o : Option (Outcome SG)) :
      Moves S keys (.subscribed pks) (.callsBlsSetup peers)
        (.setup pks (S.bls.calculateAntiRogueCoefficients keys.publicKeys)
          (Process.start keys.publicKeys.length) false) keys o
  | setup (pks : List PK) {anticoefs : List ℤ} {p p' : Process SG}
      (assigned : Bool) {e : Event SG} {o : Outcome SG}
      (h : p.reactWith S.bls anticoefs ⟨keys, S.privKey⟩ e = some (p', o)) :
      Moves S keys (.setup pks anticoefs p assigned) (.setup e)
        (.setup pks anticoefs p' assigned) keys (some o)
  | assignsMembershipKey (pks : List PK) (anticoefs : List ℤ)
      {p : Process SG} {key : SG} (h : p.result = some key) :
      Moves S keys (.setup pks anticoefs p false) .assignsMembershipKey
        (.setup pks anticoefs p true) { keys with membershipKey := key } none
  | returns (pks : List PK) (anticoefs : List ℤ) (p : Process SG) :
      Moves S keys (.setup pks anticoefs p true) .returns (.returned pks p)
        keys none

/-- Reading a move off the equation the step function leaves. -/
theorem Moves.of_some
    {r : EpochCall PK SG × EpochKeys PK SG × Option (Outcome SG)}
    (h : some r = some (call', keys', o))
    (hm : Moves S keys call e r.1 r.2.1 r.2.2) :
    Moves S keys call e call' keys' o := by
  obtain rfl := Option.some.inj h
  exact hm

/-- **A STATEMENT IS ONE MOVE**. -/
theorem step_moves
    (h : call.step S registry keys e = some (call', keys', o)) :
    Moves S keys call e call' keys' o := by
  rw [EpochCall.step.eq_def] at h
  split at h
  · split at h
    · exact Moves.of_some h (.panics _)
    · exact Moves.of_some h (.readFails _)
    · exact Moves.of_some h (.reads _)
  · exact Moves.of_some h (.assignsId _)
  · exact Moves.of_some h (.assignsPublicKeys _)
  · exact Moves.of_some h (.assignsEpochPublicKey _)
  · exact Moves.of_some h (.joins _)
  · exact Moves.of_some h (.joinFails _ _)
  · exact Moves.of_some h (.subscribes _)
  · exact Moves.of_some h (.subscribeFails _ _)
  -- the setup starts once the peers are there, and only then has events
  · split at h
    · exact nomatch h
    · exact Moves.of_some h (.callsBlsSetup _ _ _)
  · split at h
    · exact nomatch h
    · rename_i hreact
      exact Moves.of_some h (.setup _ _ hreact)
  · split at h
    · exact nomatch h
    · rename_i hresult
      exact Moves.of_some h (.assignsMembershipKey _ _ hresult)
  · split at h
    · exact Moves.of_some h (.returns _ _ _)
    · exact nomatch h
  · exact nomatch h

end Moves

/-! ## What a call knows -/

/-- The node of an epoch, as its setup finds it. -/
def Setting.epochNode (S : Setting PK SG SK) (publicKeys : List PK) :
    Node PK SG SK :=
  ⟨⟨S.blsNodeId, S.epochKey publicKeys, S.bls.emptySignature, publicKeys⟩,
    S.privKey⟩

/-- The node holds the keys of this epoch, but for the membership key. -/
structure Holds (S : Setting PK SG SK) (pks : List PK)
    (keys : EpochKeys PK SG) : Prop where
  id : keys.id = S.blsNodeId
  publicKeys : keys.publicKeys = pks
  epochPublicKey : keys.epochPublicKey = S.epochKey pks

/-- The labels of a `BlsSetup` call. -/
abbrev SetupLabels (SG : Type) : Type := List (Event SG × Outcome SG)

section Knows

variable [Zero SG] [Add SG] {S : Setting PK SG SK}
  {keys keys' : EpochKeys PK SG} {pks : List PK}
  {call call' : EpochCall PK SG} {e : EpochEvent SG} {o : Option (Outcome SG)}
  {labels : SetupLabels SG}

omit [Zero SG] in
/-- While the node holds the keys of the epoch, its `BlsSetup` call is one at
    the node of the epoch. -/
theorem Holds.reactWith (h : Holds S pks keys) (p : Process SG)
    (e : Event SG) :
    p.reactWith S.bls (S.bls.calculateAntiRogueCoefficients pks)
      ⟨keys, S.privKey⟩ e = p.react S.bls (S.epochNode pks) e := by
  obtain ⟨id, epk, mk, pks'⟩ := keys
  obtain ⟨hid, hpks, hepk⟩ := h
  obtain rfl : id = S.blsNodeId := hid
  obtain rfl : pks' = pks := hpks
  obtain rfl : epk = S.epochKey pks' := hepk
  cases e <;> rfl

/-- How the `BlsSetup` call of an epoch went so far: its messages did not
    cease, and it gave no key back, before it had heard every source. -/
structure Ran (S : Setting PK SG SK) (pks : List PK)
    (labels : SetupLabels SG) (p : Process SG) : Prop where
  run : Run (Fires (Process.react S.bls (S.epochNode pks)))
    (Process.start pks.length) labels p
  closed : p.closed = true → p.setup.cancelled = true
  result : p.result.isSome = true → p.setup.cancelled = true

theorem Ran.start (S : Setting PK SG SK) (pks : List PK) :
    Ran S pks [] (Process.start pks.length) :=
  ⟨Run.refl, fun h => (nomatch h), fun h => (nomatch h)⟩

/-- One more event of the setup, closed only once it was cancelled. -/
theorem Ran.step {p p' : Process SG} {e : Event SG} {o : Outcome SG}
    (h : Ran S pks labels p)
    (hreact : p.react S.bls (S.epochNode pks) e = some (p', o))
    (hcloses : e = .closes → p.setup.cancelled = true) :
    Ran S pks (labels ++ [(e, o)]) p' := by
  have hkeep := react_cancelled hreact
  refine ⟨h.run.tail hreact, ?_, ?_⟩
  · intro hclosed
    apply hkeep
    -- only the close could set `closed`, and it found the setup cancelled
    rcases react_cases hreact with ⟨_, -, -, rfl⟩ | ⟨_, _, -, -, -, rfl⟩ |
      ⟨rfl, -, -⟩ | ⟨-, -, -, -, rfl⟩
    · exact h.closed hclosed
    · exact h.closed hclosed
    · exact hcloses rfl
    · exact h.closed hclosed
  · intro hresult
    apply hkeep
    -- a result is set where the wait ends, cancelled or closed
    rcases react_cases hreact with ⟨_, -, -, rfl⟩ | ⟨_, _, -, -, -, rfl⟩ |
      ⟨-, -, rfl⟩ | ⟨-, -, -, hended, -⟩
    · exact h.result hresult
    · exact h.result hresult
    · exact h.result hresult
    · rcases (Bool.or_eq_true _ _).mp hended with hc | hc
      · exact hc
      · exact h.closed hc

/-- What is known at each point of a call about the keys of the node and
    about the labels of its setup, when no other call is in progress. -/
def Sound (S : Setting PK SG SK) (keys : EpochKeys PK SG)
    (labels : SetupLabels SG) : EpochCall PK SG → Prop
  | .called | .read _ => labels = []
  | .idSet _ => labels = [] ∧ keys.id = S.blsNodeId
  | .keysSet pks =>
      labels = [] ∧ keys.id = S.blsNodeId ∧ keys.publicKeys = pks
  | .epochKeySet pks | .joined pks | .subscribed pks =>
      labels = [] ∧ Holds S pks keys
  | .setup pks anticoefs p assigned =>
      Holds S pks keys ∧
      anticoefs = S.bls.calculateAntiRogueCoefficients pks ∧
      Ran S pks labels p ∧
      (assigned = true → p.result = some keys.membershipKey)
  | .returned pks p => Ran S pks labels p ∧ p.result.isSome = true
  | .failed _ => True

/-- A call that is over knows nothing about the keys of the node. -/
theorem Sound.of_over (h : Sound S keys labels call)
    (hover : call.inProgress = false) (keys' : EpochKeys PK SG) :
    Sound S keys' labels call := by
  cases call with
  | returned pks p => exact h
  | failed err => exact trivial
  | _ => exact nomatch hover

/-- The labels a statement adds to those of the setup. -/
def setupLabel : EpochEvent SG → Option (Outcome SG) → SetupLabels SG
  | .setup e, some o => [(e, o)]
  | _, _ => []

/-- The call has heard every source. -/
def EpochCall.heardAll : EpochCall PK SG → Bool
  | .setup _ _ p _ => p.setup.cancelled
  | _ => false

/-- **ONE STATEMENT**: what a call knows is kept by its own statements, if the
    messages of its setup do not cease before it is complete. -/
theorem Moves.sound (hm : Moves S keys call e call' keys' o)
    (hs : Sound S keys labels call)
    (hcloses : e = .setup .closes → call.heardAll = true) :
    Sound S keys' (labels ++ setupLabel e o) call' := by
  cases hm with
  | panics p => exact List.append_eq_nil_iff.mpr ⟨hs, rfl⟩
  | readFails err => exact trivial
  | reads pks => exact List.append_eq_nil_iff.mpr ⟨hs, rfl⟩
  | assignsId pks => exact ⟨List.append_eq_nil_iff.mpr ⟨hs, rfl⟩, rfl⟩
  | assignsPublicKeys pks =>
      obtain ⟨hnil, hid⟩ := hs
      exact ⟨List.append_eq_nil_iff.mpr ⟨hnil, rfl⟩, hid, rfl⟩
  | assignsEpochPublicKey pks =>
      obtain ⟨hnil, hid, hpks⟩ := hs
      exact ⟨List.append_eq_nil_iff.mpr ⟨hnil, rfl⟩, hid, hpks, rfl⟩
  | joins pks => exact ⟨List.append_eq_nil_iff.mpr ⟨hs.1, rfl⟩, hs.2⟩
  | joinFails pks err => exact trivial
  | subscribes pks => exact ⟨List.append_eq_nil_iff.mpr ⟨hs.1, rfl⟩, hs.2⟩
  | subscribeFails pks err => exact trivial
  | callsBlsSetup pks peers o =>
      -- the setup counts the keys that this call has assigned
      obtain ⟨rfl, hholds⟩ := hs
      rw [hholds.publicKeys]
      exact ⟨hholds, rfl, Ran.start S pks, fun h => nomatch h⟩
  | setup pks assigned hreact =>
      -- its handlers read fields that nobody else has changed
      obtain ⟨hholds, rfl, hran, hassigned⟩ := hs
      rw [hholds.reactWith] at hreact
      refine ⟨hholds, rfl, hran.step hreact ?_, ?_⟩
      · intro he
        exact hcloses (congrArg EpochEvent.setup he)
      · intro ha
        exact react_result hreact (hassigned ha)
  | assignsMembershipKey pks anticoefs hresult =>
      obtain ⟨hholds, hcoefs, hran, -⟩ := hs
      refine ⟨⟨hholds.id, hholds.publicKeys, hholds.epochPublicKey⟩, hcoefs,
        ?_, fun _ => hresult⟩
      show Ran S pks (labels ++ []) _
      rw [List.append_nil]
      exact hran
  | returns pks anticoefs p =>
      obtain ⟨-, -, hran, hassigned⟩ := hs
      refine ⟨?_, ?_⟩
      · show Ran S pks (labels ++ []) p
        rw [List.append_nil]
        exact hran
      · rw [hassigned rfl]
        rfl

end Knows

/-! ## One call at a time -/

/-- Keys of one completed epoch: the first is the aggregate of the public
    keys, and a `StartEpoch` call that has returned read these public keys,
    ran its setup with them until it had heard every source, and got this
    membership key from it. -/
structure OneEpoch [Zero SG] [Add SG] (S : Setting PK SG SK)
    (epochs : List (EpochCall PK SG)) (labels : ℕ → SetupLabels SG)
    (pks : List PK) (epk : PK) (mk : SG) : Prop where
  aggregate : epk = S.epochKey pks
  completed : ∃ (t : ℕ) (p : Process SG),
    epochs[t]? = some (.returned pks p) ∧
    Run (Fires (Process.react S.bls (S.epochNode pks)))
      (Process.start pks.length) (labels t) p ∧
    p.setup.cancelled = true ∧ p.result = some mk

/-- What holds of the keys and of the calls when one call is made at a
    time. -/
structure Consistent [Zero SG] [Add SG] (S : Setting PK SG SK)
    (keys : EpochKeys PK SG) (epochs : List (EpochCall PK SG))
    (labels : ℕ → SetupLabels SG) : Prop where
  sound : ∀ (t : ℕ) (call : EpochCall PK SG), epochs[t]? = some call →
    Sound S keys (labels t) call
  fresh : ∀ t, epochs.length ≤ t → labels t = []
  alone : ∀ (t t' : ℕ) (call call' : EpochCall PK SG),
    epochs[t]? = some call → epochs[t']? = some call' →
    call.inProgress = true → call'.inProgress = true → t = t'
  settled : (∀ (t : ℕ) (call : EpochCall PK SG), epochs[t]? = some call →
      call.writes = false) →
    (∃ (t : ℕ) (pks : List PK) (p : Process SG),
      epochs[t]? = some (.returned pks p)) →
    OneEpoch S epochs labels keys.publicKeys keys.epochPublicKey
      keys.membershipKey

section Calls

variable [Zero SG] [Add SG] {S : Setting PK SG SK}
  {keys keys' : EpochKeys PK SG} {epochs epochs' : List (EpochCall PK SG)}
  {labels labels' : ℕ → SetupLabels SG} {call call' : EpochCall PK SG}
  {e : EpochEvent SG} {o : Option (Outcome SG)} {t : ℕ}

/-- A completed epoch stays one while returned calls stay as they are. -/
theorem OneEpoch.mono {pks : List PK} {epk : PK} {mk : SG}
    (h : OneEpoch S epochs labels pks epk mk)
    (hkeep : ∀ (t : ℕ) (pks : List PK) (p : Process SG),
      epochs[t]? = some (.returned pks p) →
      epochs'[t]? = some (.returned pks p) ∧ labels' t = labels t) :
    OneEpoch S epochs' labels' pks epk mk := by
  obtain ⟨hagg, t, p, ht, hrun, hdone⟩ := h
  obtain ⟨ht', hlabels⟩ := hkeep t pks p ht
  refine ⟨hagg, t, p, ht', ?_, hdone⟩
  rw [hlabels]
  exact hrun

/-- A statement of another call leaves the returned ones; a returned call makes
    none. -/
theorem returned_set (hcall : epochs[t]? = some call)
    (hm : Moves S keys call e call' keys' o) {j : ℕ} {pks : List PK}
    {p : Process SG} (h : epochs[j]? = some (.returned pks p)) :
    (epochs.set t call')[j]? = some (.returned pks p) ∧
    Function.update labels t (labels t ++ setupLabel e o) j = labels j := by
  have hne : j ≠ t := by
    rintro rfl
    obtain rfl := Option.some.inj (hcall.symm.trans h)
    exact nomatch hm
  exact ⟨(List.getElem?_set_ne (Ne.symm hne)).trans h,
    Function.update_of_ne hne _ _⟩

/-- Only a call in progress makes a move. -/
theorem Moves.inProgress (hm : Moves S keys call e call' keys' o) :
    call.inProgress = true := by
  cases hm <;> rfl

/-- A move after which the call does not write: either it did not write
    before and the keys are the old ones, or the call returns. -/
theorem Moves.settles (hm : Moves S keys call e call' keys' o)
    (hjoins : ∀ err, e ≠ .joins (some err))
    (hsubscribes : ∀ err, e ≠ .subscribes (some err))
    (hw : call'.writes = false) :
    keys' = keys ∧
    ((call.writes = false ∧ ∀ pks p, call' ≠ .returned pks p) ∨
      ∃ pks coefs p, call = .setup pks coefs p true ∧
        call' = .returned pks p) := by
  cases hm with
  | panics p => exact ⟨rfl, Or.inl ⟨rfl, fun _ _ h => nomatch h⟩⟩
  | readFails err => exact ⟨rfl, Or.inl ⟨rfl, fun _ _ h => nomatch h⟩⟩
  | reads pks => exact ⟨rfl, Or.inl ⟨rfl, fun _ _ h => nomatch h⟩⟩
  | joinFails pks err => exact absurd rfl (hjoins err)
  | subscribeFails pks err => exact absurd rfl (hsubscribes err)
  | returns pks coefs p => exact ⟨rfl, Or.inr ⟨pks, coefs, p, rfl, rfl⟩⟩
  | _ => exact nomatch hw

/-- A call made when no other one is in progress. -/
theorem Consistent.called (hc : Consistent S keys epochs labels)
    (hidle : ∀ (t : ℕ) (call : EpochCall PK SG), epochs[t]? = some call →
      call.inProgress = false) :
    Consistent S keys (epochs ++ [.called]) labels where
  sound := by
    intro t call h
    -- the call added last has done nothing yet
    rcases getElem?_concat_cases h with hold | ⟨rfl, rfl⟩
    · exact hc.sound t call hold
    · exact hc.fresh _ le_rfl
  fresh := by
    intro t ht
    rw [List.length_append] at ht
    exact hc.fresh t (le_of_add_le_left ht)
  alone := by
    intro t t' call call' h h' hp hp'
    rcases getElem?_concat_cases h with hold | ⟨rfl, -⟩
    · rw [hidle t call hold] at hp
      exact nomatch hp
    · rcases getElem?_concat_cases h' with hold' | ⟨rfl, -⟩
      · rw [hidle t' call' hold'] at hp'
        exact nomatch hp'
      · rfl
  settled := by
    rintro hquiet ⟨t, pks, p, h⟩
    rcases getElem?_concat_cases h with hold | ⟨-, h⟩
    · refine (hc.settled ?_ ⟨t, pks, p, hold⟩).mono
        (fun _ _ _ hret => ⟨getElem?_concat hret, rfl⟩)
      intro t' call' hcall'
      exact hquiet t' call' (getElem?_concat hcall')
    · exact nomatch h

/-- At the start there is the call of `RunNode` only. -/
theorem Consistent.start (S : Setting PK SG SK) (keys : EpochKeys PK SG) :
    Consistent S keys [.called] (fun _ => []) := by
  have hnone : Consistent S keys ([] : List (EpochCall PK SG))
      (fun _ => []) :=
    ⟨fun _ _ h => (nomatch h), fun _ _ => rfl, fun _ _ _ _ h => (nomatch h),
      fun _ ⟨_, _, _, h⟩ => (nomatch h)⟩
  exact hnone.called (fun _ _ h => nomatch h)

/-- While one call makes a move, the others are over. -/
theorem Consistent.others_over (hc : Consistent S keys epochs labels)
    (hcall : epochs[t]? = some call)
    (hm : Moves S keys call e call' keys' o) {j : ℕ} {c : EpochCall PK SG}
    (hj : j ≠ t) (hget : epochs[j]? = some c) : c.inProgress = false := by
  cases hp : c.inProgress with
  | false => rfl
  | true => exact absurd (hc.alone j t c call hget hcall hp hm.inProgress) hj

/-- After a move that leaves no call writing, the keys are settled: either
    they are the old ones, or the call has just returned and left those of
    its own epoch. -/
theorem Consistent.settled_moves (hc : Consistent S keys epochs labels)
    (hcall : epochs[t]? = some call)
    (hm : Moves S keys call e call' keys' o)
    (hsound : Sound S keys' (labels t ++ setupLabel e o) call')
    (hjoins : ∀ err, e ≠ .joins (some err))
    (hsubscribes : ∀ err, e ≠ .subscribes (some err))
    (hquiet : ∀ (j : ℕ) (c : EpochCall PK SG),
      (epochs.set t call')[j]? = some c → c.writes = false)
    {j : ℕ} {pks : List PK} {p : Process SG}
    (hj : (epochs.set t call')[j]? = some (.returned pks p)) :
    OneEpoch S (epochs.set t call')
      (Function.update labels t (labels t ++ setupLabel e o))
      keys'.publicKeys keys'.epochPublicKey keys'.membershipKey := by
  obtain ⟨hlt, -⟩ := List.getElem?_eq_some_iff.mp hcall
  have hw := hquiet t call' (List.getElem?_set_self hlt)
  obtain ⟨rfl, hbefore⟩ := hm.settles hjoins hsubscribes hw
  rcases hbefore with ⟨hwas, hnot⟩ | ⟨pks', coefs, p', rfl, rfl⟩
  · -- this call has not returned, so another one had done so before
    rcases getElem?_set_cases hj with ⟨-, heq⟩ | ⟨-, hold⟩
    · exact absurd heq.symm (hnot pks p)
    · refine (hc.settled ?_ ⟨j, pks, p, hold⟩).mono
        (fun _ _ _ hret => returned_set hcall hm hret)
      intro i c hi
      by_cases hit : i = t
      · subst hit
        obtain rfl := Option.some.inj (hcall.symm.trans hi)
        exact hwas
      · exact hquiet i c ((List.getElem?_set_ne (Ne.symm hit)).trans hi)
  -- this call has just returned: its own keys are the ones in place
  · obtain ⟨hholds, -, -, hassigned⟩ := hc.sound t _ hcall
    obtain ⟨hran, hsome⟩ := hsound
    rw [hholds.publicKeys]
    refine ⟨hholds.epochPublicKey, t, p', List.getElem?_set_self hlt, ?_,
      hran.result hsome, hassigned rfl⟩
    rw [Function.update_self]
    exact hran.run

/-- **ONE MOVE**: a statement of the call in progress. -/
theorem Consistent.moves (hc : Consistent S keys epochs labels)
    (hcall : epochs[t]? = some call)
    (hm : Moves S keys call e call' keys' o)
    (hjoins : ∀ err, e ≠ .joins (some err))
    (hsubscribes : ∀ err, e ≠ .subscribes (some err))
    (hcloses : e = .setup .closes → call.heardAll = true) :
    Consistent S keys' (epochs.set t call')
      (Function.update labels t (labels t ++ setupLabel e o)) := by
  have hsound := hm.sound (hc.sound t call hcall) hcloses
  refine ⟨?_, ?_, ?_, ?_⟩
  · intro j c h
    rcases getElem?_set_cases h with ⟨rfl, rfl⟩ | ⟨hj, hold⟩
    · rw [Function.update_self]
      exact hsound
    · rw [Function.update_of_ne hj]
      exact (hc.sound j c hold).of_over (hc.others_over hcall hm hj hold) keys'
  · intro j hj
    rw [List.length_set] at hj
    obtain ⟨hlt, -⟩ := List.getElem?_eq_some_iff.mp hcall
    rw [Function.update_of_ne (by omega)]
    exact hc.fresh j hj
  · -- a call in progress is this one, since the others are over
    have hthis : ∀ (j : ℕ) (c : EpochCall PK SG),
        (epochs.set t call')[j]? = some c → c.inProgress = true → j = t := by
      intro j c h hp
      rcases getElem?_set_cases h with ⟨rfl, -⟩ | ⟨hj, hold⟩
      · rfl
      · rw [hc.others_over hcall hm hj hold] at hp
        exact nomatch hp
    intro j j' c c' h h' hp hp'
    rw [hthis j c h hp, hthis j' c' h' hp']
  · rintro hquiet ⟨j, pks, p, hj⟩
    exact hc.settled_moves hcall hm hsound hjoins hsubscribes hquiet hj

end Calls

/-! ## What can happen at a node -/

/-- The labels of the runs of a node. -/
abbrev NodeLabel (SG : Type) : Type := NodeEvent SG × Option (Outcome SG)

/-- What the setup of call `t` did in a run of the node. -/
def setupTrace (t : ℕ) (tr : List (NodeLabel SG)) : SetupLabels SG :=
  tr.flatMap (fun l =>
    match l.1 with
    | .startEpoch t' e => if t' = t then setupLabel e l.2 else []
    | _ => [])

/-- A step of call `t` extends the trace of `t` alone. -/
theorem setupTrace_startEpoch (tr : List (NodeLabel SG)) (t : ℕ)
    (e : EpochEvent SG) (o : Option (Outcome SG)) :
    (fun j => setupTrace j (tr ++ [(.startEpoch t e, o)]))
      = Function.update (fun j => setupTrace j tr) t
          (setupTrace t tr ++ setupLabel e o) := by
  funext j
  rw [setupTrace, List.flatMap_append, List.flatMap_singleton]
  by_cases hj : j = t
  · subst hj
    rw [Function.update_self]
    exact congrArg _ (if_pos rfl)
  · rw [Function.update_of_ne hj]
    exact (congrArg _ (if_neg (Ne.symm hj))).trans (List.append_nil _)

/-- Any other event extends the trace of no setup. -/
theorem setupTrace_other (tr : List (NodeLabel SG)) {l : NodeLabel SG}
    (h : ∀ t e, l.1 ≠ .startEpoch t e) :
    (fun j => setupTrace j (tr ++ [l])) = fun j => setupTrace j tr := by
  funext j
  rw [setupTrace, List.flatMap_append, List.flatMap_singleton]
  obtain ⟨e, o⟩ := l
  cases e with
  | startEpoch t e => exact absurd rfl (h t e)
  | _ => exact List.append_nil _

section Node

variable [Zero PK] [Zero SG] [Add SG] {S : Setting PK SG SK}
  {st st' : State PK SG SK} {l : NodeLabel SG}

/-- What each event does to a node. -/
inductive Happens (S : Setting PK SG SK) (st : State PK SG SK) :
    NodeLabel SG → State PK SG SK → Prop where
  | registryAnswers (nodes : Except String (List String)) :
      Happens S st (.registryAnswers nodes, none)
        { st with registry := nodes }
  | startsEpoch :
      Happens S st (.handleNewEpoch noEpochKey, none)
        { st with epochs := st.epochs ++ [.called] }
  | ignoresEpoch {newEpochKey : List UInt8} (h : newEpochKey ≠ noEpochKey) :
      Happens S st (.handleNewEpoch newEpochKey, none) st
  | startEpoch {t : ℕ} {e : EpochEvent SG} {call call' : EpochCall PK SG}
      {keys' : EpochKeys PK SG} {o : Option (Outcome SG)}
      (hcall : st.epochs[t]? = some call)
      (hm : Moves S st.keys call e call' keys' o) :
      Happens S st (.startEpoch t e, o) { st with
        keys := keys'
        epochs := st.epochs.set t call'
        crashed := o.any Outcome.isPanic }
  | newSession (h : st.watching = true) :
      Happens S st (.newSession, none) { st with
        sessions := st.sessions ++ [.called ⟨st.keys, S.privKey⟩] }
  | registryPanics (k : ℕ) (p : Panic) :
      Happens S st (.readsRegistry k, some (.panicked p))
        { st with crashed := true }
  | readsRegistry {k : ℕ} {node : Node PK SG SK}
      {publicKeys : Except String (List PK)}
      (hcall : st.sessions[k]? = some (.called node))
      (hread : nodeRegistryPublicKeys S.unmarshalPublicKey st.registry
        = .ok publicKeys) :
      Happens S st (.readsRegistry k, none) { st with
        sessions := st.sessions.set k (.read node publicKeys) }
  | finishes {k : ℕ} {node : Node PK SG SK}
      {publicKeys : Except String (List PK)} (topic : String)
      (nodeExists : Bool) (getNode : Except String ℤ) (polls : List Poll)
      (hcall : st.sessions[k]? = some (.read node publicKeys)) :
      Happens S st (.finishes k topic nodeExists getNode polls, none)
        { st with sessions := st.sessions.set k (.ended
          (finish S node publicKeys topic nodeExists getNode polls)) }

/-- Reading an event off the equation the node's step leaves. -/
theorem Happens.of_some {e : NodeEvent SG} {o : Option (Outcome SG)}
    {r : State PK SG SK × Option (Outcome SG)} (h : some r = some (st', o))
    (hh : Happens S st (e, r.2) r.1) : Happens S st (e, o) st' := by
  obtain rfl := Option.some.inj h
  exact hh

/-- **ONE EVENT**: what a node does is one of these. -/
theorem react_happens (h : Fires (State.react S) st l st') :
    Happens S st l st' := by
  obtain ⟨e, o⟩ := l
  rw [Fires, State.react.eq_def] at h
  -- after a panic nothing reacts
  split at h
  · cases h
  · cases e with
    | registryAnswers nodes => exact Happens.of_some h (.registryAnswers nodes)
    | handleNewEpoch key =>
        dsimp only at h
        split at h
        · rename_i hkey
          subst hkey
          exact Happens.of_some h .startsEpoch
        · rename_i hkey
          exact Happens.of_some h (.ignoresEpoch hkey)
    | startEpoch t e =>
        dsimp only at h
        split at h
        · cases h
        · rename_i hcall
          split at h
          · cases h
          · rename_i hstep
            exact Happens.of_some h (.startEpoch hcall (step_moves hstep))
    | newSession =>
        dsimp only at h
        split at h
        · rename_i hwatching
          exact Happens.of_some h (.newSession hwatching)
        · cases h
    | readsRegistry k =>
        dsimp only at h
        split at h
        · rename_i hcall
          split at h
          · exact Happens.of_some h (.registryPanics k _)
          · rename_i hread
            exact Happens.of_some h (.readsRegistry hcall hread)
        · cases h
    | finishes k topic nodeExists getNode polls =>
        dsimp only at h
        split at h
        · rename_i hcall
          split at h
          · cases h
          · exact Happens.of_some h
              (.finishes topic nodeExists getNode polls hcall)
        · cases h

/-! ## Orderly runs -/

/-- No `StartEpoch` call is in progress. -/
def State.idle (st : State PK SG SK) : Bool :=
  st.epochs.all (fun call => !call.inProgress)

/-- If the registry answers keys to a session, they are those its copy of the
    node holds. -/
def State.sameKeys [DecidableEq PK] (S : Setting PK SG SK)
    (st : State PK SG SK) (k : ℕ) : Bool :=
  match st.sessions[k]?,
      nodeRegistryPublicKeys S.unmarshalPublicKey st.registry with
  | some (.called node), .ok (.ok publicKeys) => publicKeys = node.publicKeys
  | _, _ => true

/-- The events of an orderly run: `StartEpoch` is called and the node is
    copied only while no `StartEpoch` call is in progress, joining and
    subscribing do not fail, the messages of a setup do not cease before it
    is complete, and a session finds the registry as its copy of the node has
    it. -/
def orderly [DecidableEq PK] (S : Setting PK SG SK) (st : State PK SG SK) :
    NodeEvent SG → Bool
  | .handleNewEpoch newEpochKey =>
      decide (newEpochKey ≠ noEpochKey) || st.idle
  | .startEpoch _ (.joins err) => err.isNone
  | .startEpoch _ (.subscribes err) => err.isNone
  | .startEpoch t (.setup .closes) => (st.epochs[t]?).any EpochCall.heardAll
  | .newSession => st.idle
  | .readsRegistry k => st.sameKeys S k
  | _ => true

/-- The steps of orderly runs. -/
def OrderlyStep [DecidableEq PK] (S : Setting PK SG SK) :
    State PK SG SK → NodeLabel SG → State PK SG SK → Prop :=
  Guarded (Fires (State.react S)) (fun st l => orderly S st l.1 = true)

/-- What a `NewSession` call carries. -/
def Carries (S : Setting PK SG SK) (epochs : List (EpochCall PK SG))
    (labels : ℕ → SetupLabels SG) : SessionCall PK SG SK → Prop
  | .called node => OneEpoch S epochs labels node.publicKeys
      node.epochPublicKey node.membershipKey
  | .read node publicKeys =>
      OneEpoch S epochs labels node.publicKeys node.epochPublicKey
        node.membershipKey ∧
      ∀ pks, publicKeys = .ok pks → pks = node.publicKeys
  | .ended (.created s) => OneEpoch S epochs labels s.publicKeys
      s.epochPublicKey s.membershipKey
  | .ended _ => True

omit [Zero PK] in
/-- What a session carries survives calls that keep what had returned. -/
theorem Carries.mono {epochs epochs' : List (EpochCall PK SG)}
    {labels labels' : ℕ → SetupLabels SG} {call : SessionCall PK SG SK}
    (h : Carries S epochs labels call)
    (hkeep : ∀ (t : ℕ) (pks : List PK) (p : Process SG),
      epochs[t]? = some (.returned pks p) →
      epochs'[t]? = some (.returned pks p) ∧ labels' t = labels t) :
    Carries S epochs' labels' call := by
  cases call with
  | called node => exact OneEpoch.mono h hkeep
  | read node publicKeys => exact ⟨h.1.mono hkeep, h.2⟩
  | ended result =>
      cases result with
      | created s => exact OneEpoch.mono h hkeep
      | _ => exact trivial

/-- A session gets its public keys from the registry and the other two keys
    from the copy of the node. -/
theorem Carries.finish {epochs : List (EpochCall PK SG)}
    {labels : ℕ → SetupLabels SG} {node : Node PK SG SK}
    {publicKeys : Except String (List PK)}
    (h : Carries S epochs labels (.read node publicKeys)) (topic : String)
    (nodeExists : Bool) (getNode : Except String ℤ) (polls : List Poll) :
    Carries S epochs labels (.ended
      (finish S node publicKeys topic nodeExists getNode polls)) := by
  obtain ⟨hone, hsame⟩ := h
  cases hres : RelayerEpoch.finish S node publicKeys topic nodeExists getNode
      polls with
  | created s =>
      obtain ⟨view, hmade⟩ := newSession_created hres
      show OneEpoch S epochs labels s.publicKeys s.epochPublicKey
        s.membershipKey
      rw [hsame s.publicKeys hmade.publicKeys, hmade.epochPublicKey,
        hmade.membershipKey]
      exact hone
  | _ => exact trivial

/-- What holds in every state of an orderly run. -/
structure Invariant (S : Setting PK SG SK) (tr : List (NodeLabel SG))
    (st : State PK SG SK) : Prop where
  consistent : Consistent S st.keys st.epochs (fun t => setupTrace t tr)
  sessions : ∀ (k : ℕ) (call : SessionCall PK SG SK),
    st.sessions[k]? = some call →
    Carries S st.epochs (fun t => setupTrace t tr) call

omit [Zero PK] in
/-- An event that concerns no `StartEpoch` call. -/
theorem Invariant.other {tr : List (NodeLabel SG)} (hi : Invariant S tr st)
    (hl : ∀ t e, l.1 ≠ .startEpoch t e) (hkeys : st'.keys = st.keys)
    (hepochs : st'.epochs = st.epochs)
    (hsessions : ∀ (k : ℕ) (call : SessionCall PK SG SK),
      st'.sessions[k]? = some call → st.sessions[k]? = some call ∨
      Carries S st.epochs (fun t => setupTrace t tr) call) :
    Invariant S (tr ++ [l]) st' := by
  refine ⟨?_, ?_⟩
  · rw [hkeys, hepochs, setupTrace_other tr hl]
    exact hi.consistent
  · intro k call hcall
    rw [hepochs, setupTrace_other tr hl]
    rcases hsessions k call hcall with hold | hnew
    · exact hi.sessions k call hold
    · exact hnew

omit [Zero PK] [Zero SG] [Add SG] in
/-- The node is idle when no call of `StartEpoch` is in progress. -/
theorem idle_iff : st.idle = true ↔
    ∀ (t : ℕ) (call : EpochCall PK SG), st.epochs[t]? = some call →
      call.inProgress = false := by
  rw [State.idle, List.all_eq_true]
  constructor
  · intro h t call hcall
    exact Bool.not_eq_true' _ ▸ h call (List.mem_of_getElem? hcall)
  · intro h call hmem
    obtain ⟨t, ht⟩ := List.mem_iff_getElem?.mp hmem
    rw [h t call ht]
    rfl

omit [Zero PK] [Zero SG] [Add SG] in
/-- The node is watched for requests when some call has returned. -/
theorem watching_returned (h : st.watching = true) :
    ∃ (t : ℕ) (pks : List PK) (p : Process SG),
      st.epochs[t]? = some (.returned pks p) := by
  rw [State.watching] at h
  split at h
  · rename_i pks p hhead
    exact ⟨0, pks, p, List.head?_eq_getElem? ▸ hhead⟩
  · exact nomatch h

section Orderly

variable [DecidableEq PK]

omit [Zero PK] [Zero SG] [Add SG] in
/-- What an orderly run asks of the statements of `StartEpoch`. -/
theorem orderly_startEpoch {t : ℕ} {e : EpochEvent SG}
    (h : orderly S st (.startEpoch t e) = true) :
    (∀ err, e ≠ .joins (some err)) ∧ (∀ err, e ≠ .subscribes (some err)) ∧
    ∀ call, st.epochs[t]? = some call → e = .setup .closes →
      call.heardAll = true := by
  refine ⟨?_, ?_, ?_⟩
  · rintro err rfl
    exact nomatch h
  · rintro err rfl
    exact nomatch h
  · rintro call hcall rfl
    rw [orderly, hcall] at h
    exact h

/-- **ONE STEP** of an orderly run. -/
theorem Invariant.step {tr : List (NodeLabel SG)} (hi : Invariant S tr st)
    (h : OrderlyStep S st l st') : Invariant S (tr ++ [l]) st' := by
  obtain ⟨hfires, hok⟩ := h
  cases react_happens hfires with
  | registryAnswers nodes =>
      exact hi.other (fun _ _ h => nomatch h) rfl rfl (fun _ _ h => Or.inl h)
  | ignoresEpoch hkey =>
      exact hi.other (fun _ _ h => nomatch h) rfl rfl (fun _ _ h => Or.inl h)
  | registryPanics k p =>
      exact hi.other (fun _ _ h => nomatch h) rfl rfl (fun _ _ h => Or.inl h)
  -- orderly: the epoch starts while no other is in progress
  | startsEpoch =>
      have hidle : st.idle = true := hok
      have hlabels := setupTrace_other tr
        (l := (.handleNewEpoch noEpochKey, none)) (fun _ _ h => nomatch h)
      refine ⟨?_, ?_⟩
      · rw [hlabels]
        exact hi.consistent.called (idle_iff.mp hidle)
      · intro k call hcall
        rw [hlabels]
        exact (hi.sessions k call hcall).mono
          (fun _ _ _ hret => ⟨getElem?_concat hret, rfl⟩)
  | startEpoch hcall hm =>
      obtain ⟨hjoins, hsubscribes, hcloses⟩ := orderly_startEpoch hok
      refine ⟨?_, ?_⟩
      · rw [setupTrace_startEpoch]
        exact hi.consistent.moves hcall hm hjoins hsubscribes
          (hcloses _ hcall)
      · intro k call hsession
        rw [setupTrace_startEpoch]
        exact (hi.sessions k call hsession).mono
          (fun _ _ _ hret => returned_set hcall hm hret)
  | newSession hwatching =>
      have hidle : st.idle = true := hok
      refine hi.other (fun _ _ h => nomatch h) rfl rfl ?_
      intro k call hcall
      rcases getElem?_concat_cases hcall with hold | ⟨-, rfl⟩
      · exact Or.inl hold
      · -- the copy is of keys that nobody is writing
        refine Or.inr (hi.consistent.settled ?_ (watching_returned hwatching))
        intro t c ht
        exact EpochCall.not_writes_of_over (idle_iff.mp hidle t c ht)
  -- orderly: the registry still answers with the keys of the epoch
  | readsRegistry hcall hread =>
      refine hi.other (fun _ _ h => nomatch h) rfl rfl ?_
      intro j call hj
      rcases getElem?_set_cases hj with ⟨-, rfl⟩ | ⟨-, hold⟩
      · refine Or.inr ⟨hi.sessions _ _ hcall, ?_⟩
        rintro pks rfl
        have hsame : State.sameKeys S st _ = true := hok
        rw [State.sameKeys, hcall, hread] at hsame
        exact of_decide_eq_true hsame
      · exact Or.inl hold
  | finishes topic nodeExists getNode polls hcall =>
      refine hi.other (fun _ _ h => nomatch h) rfl rfl ?_
      intro j call hj
      rcases getElem?_set_cases hj with ⟨-, rfl⟩ | ⟨-, hold⟩
      · exact Or.inr ((hi.sessions _ _ hcall).finish topic nodeExists getNode
          polls)
      · exact Or.inl hold

/-- **THE WHOLE RUN**. -/
theorem invariant_run {registry : Except String (List String)}
    {keys : EpochKeys PK SG} {tr : List (NodeLabel SG)}
    (hrun : Run (OrderlyStep S) (State.start registry keys) tr st) :
    Invariant S tr st := by
  refine hrun.traced ⟨Consistent.start S keys, fun _ _ h => nomatch h⟩ ?_
  intro tr a l b hi hstep
  exact hi.step hstep

/-- A call that has not read the registry yet finds the keys of the node as
    they were when it was made. -/
theorem keys_while_called {t : ℕ} {st₀ : State PK SG SK}
    {tr tr' : List (NodeLabel SG)} (hi : Invariant S tr st₀)
    (ht : st₀.epochs[t]? = some .called)
    (hrun : Run (OrderlyStep S) st₀ tr' st)
    (hcalled : st.epochs[t]? = some .called) : st.keys = st₀.keys := by
  -- the place of the call is taken, so that no later call can be this one
  obtain ⟨hlt, -⟩ := List.getElem?_eq_some_iff.mp ht
  have hall : (∃ tr, Invariant S tr st) ∧ t < st.epochs.length ∧
      (st.epochs[t]? = some .called → st.keys = st₀.keys) := by
    refine hrun.invariant (P := fun st => (∃ tr, Invariant S tr st) ∧
      t < st.epochs.length ∧
      (st.epochs[t]? = some .called → st.keys = st₀.keys))
      ⟨⟨tr, hi⟩, hlt, fun _ => rfl⟩ ?_
    rintro a l b ⟨⟨tr, hi⟩, hlt, hkeys⟩ hstep
    refine ⟨⟨_, hi.step hstep⟩, ?_⟩
    cases react_happens hstep.1 with
    | startsEpoch =>
        refine ⟨?_, ?_⟩
        · rw [List.length_append]
          exact Nat.lt_add_right _ hlt
        · intro h
          rw [List.getElem?_append_left hlt] at h
          exact hkeys h
    | startEpoch hcall hm =>
        refine ⟨?_, ?_⟩
        · rw [List.length_set]
          exact hlt
        · intro h
          rcases getElem?_set_cases h with ⟨rfl, heq⟩ | ⟨hne, hold⟩
          · subst heq
            cases hm with
            | panics p => exact hkeys hcall
          · -- the other call would be a second one in progress
            exact absurd
              (hi.consistent.alone _ _ _ _ hold hcall rfl hm.inProgress) hne
    | _ => exact ⟨hlt, hkeys⟩
  exact hall.2.2 hcalled

/-- In an orderly run a call fails only where it reads the registry. -/
theorem fails_reading {t : ℕ} {err : String} (hstep : OrderlyStep S st l st')
    (hbefore : st.epochs[t]? ≠ some (.failed err))
    (hafter : st'.epochs[t]? = some (.failed err)) :
    st.epochs[t]? = some .called ∧ st'.keys = st.keys := by
  obtain ⟨hfires, hok⟩ := hstep
  cases react_happens hfires with
  | startsEpoch =>
      rcases getElem?_concat_cases hafter with hold | ⟨-, h⟩
      · exact absurd hold hbefore
      · exact nomatch h
  | startEpoch hcall hm =>
      obtain ⟨hjoins, hsubscribes, -⟩ := orderly_startEpoch hok
      rcases getElem?_set_cases hafter with ⟨rfl, heq⟩ | ⟨-, hold⟩
      · subst heq
        cases hm with
        | readFails err => exact ⟨hcall, rfl⟩
        | joinFails pks err => exact absurd rfl (hjoins err)
        | subscribeFails pks err => exact absurd rfl (hsubscribes err)
      · exact absurd hold hbefore
  | _ => exact absurd hafter hbefore

end Orderly

/-- The session a call has made. -/
def State.session (st : State PK SG SK) (k : ℕ) :
    Option (Session PK SG SK) :=
  match st.sessions[k]? with
  | some (.ended (.created s)) => some s
  | _ => none

omit [Zero PK] [Zero SG] [Add SG] in
/-- A session read off the state was created by its call. -/
theorem session_eq_some {k : ℕ} {s : Session PK SG SK}
    (h : st.session k = some s) :
    st.sessions[k]? = some (.ended (.created s)) := by
  rw [State.session] at h
  split at h
  · rename_i hcall
    rw [hcall, Option.some.inj h]
  · exact nomatch h

/-- **SESSIONS OF ONE EPOCH**: in every orderly run each session carries the
    keys of one completed epoch, and a `StartEpoch` call that fails leaves
    the keys of the node as it found them. -/
theorem sessions_of_one_epoch [DecidableEq PK] (S : Setting PK SG SK)
    (registry : Except String (List String)) (keys : EpochKeys PK SG) :
    (∀ tr st k s, Run (OrderlyStep S) (State.start registry keys) tr st →
      st.session k = some s →
      OneEpoch S st.epochs (fun t => setupTrace t tr) s.publicKeys
        s.epochPublicKey s.membershipKey) ∧
    (∀ tr st (t : ℕ) tr' st' l st'' (err : String),
      Run (OrderlyStep S) (State.start registry keys) tr st →
      st.epochs[t]? = some .called → Run (OrderlyStep S) st tr' st' →
      st'.epochs[t]? ≠ some (.failed err) → OrderlyStep S st' l st'' →
      st''.epochs[t]? = some (.failed err) → st''.keys = st.keys) := by
  refine ⟨?_, ?_⟩
  · intro tr st k s hrun hs
    exact (invariant_run hrun).sessions k _ (session_eq_some hs)
  · intro tr st t tr' st' l st'' err hrun ht hrun' hbefore hstep hafter
    obtain ⟨hcalled, hkeys⟩ := fails_reading hstep hbefore hafter
    rw [hkeys]
    exact keys_while_called (invariant_run hrun) ht hrun' hcalled

end Node

/-! ## Runs that are not orderly -/

/-- Node 0, in an epoch of its own at first; a key is read off as the length
    of its text. -/
def sampleSetting : Setting ℤ ℤ ℤ where
  bls := intBls
  unmarshalPublicKey text := .ok text.length
  pretty := base58
  host := samplePeer 0
  blsNodeId := 0
  privKey := 3

/-- The keys of a node that has not started an epoch. -/
def noKeys : EpochKeys ℤ ℤ := ⟨0, 0, 0, []⟩

/-- A `StartEpoch` call up to the assignment of the epoch key. -/
def assigning (t : ℕ) : List (NodeEvent ℤ) :=
  [.startEpoch t .reads, .startEpoch t .assignsId,
    .startEpoch t .assignsPublicKeys, .startEpoch t .assignsEpochPublicKey]

/-- The first `StartEpoch` call, in which the node hears these answers. -/
def epochWith (answers : List (MessageBlsSetup ℤ)) : List (NodeEvent ℤ) :=
  assigning 0 ++
  [.startEpoch 0 (.joins none), .startEpoch 0 (.subscribes none),
    .startEpoch 0 (.callsBlsSetup (answers.length - 1))] ++
  (setupTrigger ℤ :: answers).flatMap (fun msg =>
    [.startEpoch 0 (.setup (.receives (some msg))),
      .startEpoch 0 (.setup (.handles 0))]) ++
  [.startEpoch 0 (.setup .returns), .startEpoch 0 .assignsMembershipKey,
    .startEpoch 0 .returns]

/-- An epoch in which the node hears itself. -/
def firstEpoch : List (NodeEvent ℤ) :=
  epochWith [⟨0, .blsSetupParts, [3000]⟩]

/-- An epoch of three nodes, which are heard in some order. -/
def threeNodes : List (NodeEvent ℤ) :=
  epochWith [⟨2, .blsSetupParts, [5000, 10000, 20000]⟩,
    ⟨0, .blsSetupParts, [3000, 6000, 12000]⟩,
    ⟨1, .blsSetupParts, [2000, 4000, 8000]⟩]

/-- An oracle request with six participants. -/
def oneRequest : List (NodeEvent ℤ) :=
  [.newSession, .readsRegistry 0,
    .finishes 0 "0x5" true (.ok 0)
      [⟨[1, 2, 3, 4, 5].map samplePeer, [], false⟩]]

/-- The keys of the first session. -/
def State.material (st : State ℤ ℤ ℤ) : Option (List ℤ × ℤ × ℤ) :=
  (st.session 0).map (fun s =>
    (s.publicKeys, s.epochPublicKey, s.membershipKey))

/-- What `material` shows is that of the first session. -/
theorem material_eq_some {st : State ℤ ℤ ℤ} {pks : List ℤ} {epk mk : ℤ}
    (h : st.material = some (pks, epk, mk)) :
    ∃ s, st.session 0 = some s ∧ s.publicKeys = pks ∧
      s.epochPublicKey = epk ∧ s.membershipKey = mk := by
  obtain ⟨s, hs, heq⟩ := Option.map_eq_some_iff.mp h
  obtain ⟨hpks, heq⟩ := Prod.mk.inj heq
  obtain ⟨hepk, hmk⟩ := Prod.mk.inj heq
  exact ⟨s, hs, hpks, hepk, hmk⟩

/-- An epoch of three nodes and a request after it; and another call, which fails
    to read the registry and leaves the keys of the three nodes. -/
theorem sessions_of_one_epoch_sample :
    (∃ tr st, Run (OrderlyStep sampleSetting)
        (State.start (.ok ["abc", "de", "fghij"]) noKeys) tr st ∧
      OneEpoch sampleSetting st.epochs (fun t => setupTrace t tr)
        [3, 2, 5] 10 10000) ∧
    ∃ tr st st' o, Run (OrderlyStep sampleSetting)
        (State.start (.ok ["abc", "de", "fghij"]) noKeys) tr st ∧
      (st.keys.publicKeys = [3, 2, 5] ∧ st.keys.epochPublicKey = 10 ∧
        st.keys.membershipKey = 10000) ∧
      OrderlyStep sampleSetting st (.startEpoch 1 .reads, o) st' ∧
      st'.epochs[1]? = some (.failed "no answer") ∧ st'.keys = st.keys := by
  refine ⟨?_, ?_⟩
  -- three nodes, one request: the session has their three keys
  · obtain ⟨tr, st, hrun, hmat⟩ := exists_run
      (fun _ (st : State ℤ ℤ ℤ) => st.material = some ([3, 2, 5], 10, 10000))
      (show (execute (restrict (orderly sampleSetting)
        (State.react sampleSetting))
        (State.start (.ok ["abc", "de", "fghij"]) noKeys)
        (threeNodes ++ oneRequest)).any _ = true by decide +kernel)
    obtain ⟨s, hs, hpks, hepk, hmk⟩ := material_eq_some hmat
    have hone := (sessions_of_one_epoch sampleSetting
      (.ok ["abc", "de", "fghij"]) noKeys).1 tr st 0 s (restrict_run hrun) hs
    rw [hpks, hepk, hmk] at hone
    exact ⟨tr, st, restrict_run hrun, hone⟩
  -- the second epoch cannot read the registry and changes no key
  · obtain ⟨tr, st, hrun, hkeys, hcalled, hreads⟩ := exists_run
      (fun _ (st : State ℤ ℤ ℤ) => (st.keys.publicKeys = [3, 2, 5] ∧
          st.keys.epochPublicKey = 10 ∧ st.keys.membershipKey = 10000) ∧
        st.epochs[1]? = some (EpochCall.called : EpochCall ℤ ℤ) ∧
        (st.react sampleSetting (.startEpoch 1 .reads)).any (fun r =>
          decide (r.1.epochs[1]? =
            some (EpochCall.failed "no answer" : EpochCall ℤ ℤ))) = true)
      (show (execute (restrict (orderly sampleSetting)
        (State.react sampleSetting))
        (State.start (.ok ["abc", "de", "fghij"]) noKeys)
        (threeNodes ++ [.registryAnswers (.error "no answer"),
          .handleNewEpoch noEpochKey])).any _ = true by decide +kernel)
    obtain ⟨⟨st', o⟩, hstep, hfailed⟩ := (Option.any_eq_true _ _).mp hreads
    have hfailed' := of_decide_eq_true hfailed
    have horderly : OrderlyStep sampleSetting st (.startEpoch 1 .reads, o) st' :=
      ⟨hstep, rfl⟩
    have hsame := (sessions_of_one_epoch sampleSetting
      (.ok ["abc", "de", "fghij"]) noKeys).2 tr st 1 [] st _ st' "no answer"
      (restrict_run hrun) hcalled Run.refl
      (fun h => nomatch hcalled.symm.trans h) horderly hfailed'
    exact ⟨tr, st, st', o, restrict_run hrun, hkeys, horderly, hfailed', hsame⟩

/-- No call that returned had read these keys. -/
def State.neverCompleted (st : State ℤ ℤ ℤ) (pks : List ℤ) : Bool :=
  st.epochs.all (fun call =>
    match call with
    | .returned pks' _ => decide (pks' ≠ pks)
    | _ => true)

/-- Keys that no completed call has are those of no epoch. -/
theorem not_oneEpoch_of_neverCompleted {st : State ℤ ℤ ℤ} {pks : List ℤ}
    {labels : ℕ → SetupLabels ℤ} {epk mk : ℤ}
    (h : st.neverCompleted pks = true) :
    ¬ OneEpoch sampleSetting st.epochs labels pks epk mk := by
  rintro ⟨-, t, p, ht, -⟩
  have hcall := List.all_eq_true.mp h _ (List.mem_of_getElem? ht)
  exact of_decide_eq_true hcall rfl

/-- A second node registers and the epoch is to be started again.  If joining
    the topic fails, the next session has the new public keys with the old
    membership key.  If nothing is started, it has the new public keys with
    the old epoch key.  And a call that fails to join leaves its keys in a
    node that had none. -/
theorem epochs_mix :
    (∃ tr st s, Run (Fires (State.react sampleSetting))
        (State.start (.ok ["abc"]) noKeys) tr st ∧
      st.session 0 = some s ∧ s.publicKeys = [3, 5] ∧
      s.epochPublicKey = 8 ∧ s.membershipKey = 3000 ∧
      ¬ OneEpoch sampleSetting st.epochs (fun t => setupTrace t tr)
        s.publicKeys s.epochPublicKey s.membershipKey) ∧
    (∃ tr st s, Run (Fires (State.react sampleSetting))
        (State.start (.ok ["abc"]) noKeys) tr st ∧
      st.session 0 = some s ∧ s.publicKeys = [3, 5] ∧
      s.epochPublicKey = 3 ∧ sampleSetting.epochKey [3, 5] = 8 ∧
      ¬ OneEpoch sampleSetting st.epochs (fun t => setupTrace t tr)
        s.publicKeys s.epochPublicKey s.membershipKey) ∧
    ∃ tr st, Run (Fires (State.react sampleSetting))
        (State.start (.ok ["abc"]) noKeys) tr st ∧
      st.epochs = [.failed "no route"] ∧ noKeys.publicKeys = [] ∧
      st.keys.publicKeys = [3] ∧ st.keys.epochPublicKey = 3 := by
  refine ⟨?_, ?_, ?_⟩
  -- the second call wrote its keys and then could not join the topic
  · obtain ⟨tr, st, hrun, hmat, hnever⟩ := exists_run
      (fun _ (st : State ℤ ℤ ℤ) => st.material = some ([3, 5], 8, 3000) ∧
        st.neverCompleted [3, 5] = true)
      (show (execute (State.react sampleSetting)
        (State.start (.ok ["abc"]) noKeys)
        (firstEpoch ++ [.registryAnswers (.ok ["abc", "abcde"]),
          .handleNewEpoch noEpochKey] ++ assigning 1 ++
          [.startEpoch 1 (.joins (some "no route"))] ++ oneRequest)).any _
        = true by decide +kernel)
    obtain ⟨s, hs, hpks, hepk, hmk⟩ := material_eq_some hmat
    refine ⟨tr, st, s, hrun, hs, hpks, hepk, hmk, ?_⟩
    rw [hpks]
    exact not_oneEpoch_of_neverCompleted hnever
  -- the registry has grown, but no epoch was started for it
  · obtain ⟨tr, st, hrun, hmat⟩ := exists_run
      (fun _ (st : State ℤ ℤ ℤ) => st.material = some ([3, 5], 3, 3000))
      (show (execute (State.react sampleSetting)
        (State.start (.ok ["abc"]) noKeys)
        (firstEpoch ++ [.registryAnswers (.ok ["abc", "abcde"])] ++
          oneRequest)).any _ = true by decide +kernel)
    obtain ⟨s, hs, hpks, hepk, hmk⟩ := material_eq_some hmat
    refine ⟨tr, st, s, hrun, hs, hpks, hepk, by decide, ?_⟩
    rw [hpks, hepk]
    intro hone
    have hkey : (3 : ℤ) = 8 := hone.aggregate
    exact nomatch hkey
  · exact exists_run (fun _ (st : State ℤ ℤ ℤ) =>
      st.epochs = [.failed "no route"] ∧ noKeys.publicKeys = [] ∧
      st.keys.publicKeys = [3] ∧ st.keys.epochPublicKey = 3)
      (show (execute (State.react sampleSetting)
        (State.start (.ok ["abc"]) noKeys)
        (assigning 0 ++ [.startEpoch 0 (.joins (some "no route"))])).any _
        = true by decide +kernel)

end RelayerEpoch
