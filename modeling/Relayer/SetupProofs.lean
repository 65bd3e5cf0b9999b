import Relayer.BlsProofs
import Relayer.MessageProofs
import Relayer.TransitionProofs

/-! # The setup phase of an epoch

    `BlsSetup` of `node/bridge/node.go`: every node answers a trigger with
    one membership key part for each node of the epoch, adds up the parts
    meant for itself, and stops when it has ticked off every source.

    * `Setup.handle` is the body of the handler goroutine, `Process.react`
      the loop around it with its goroutines, and `Network.react` the nodes
      of one epoch on their topic;
    * `bad_parts_harmless_iff` says what a part that does not verify does to
      a node;
    * `membershipKey_counts_answers` says what a node has added up when it
      stops, over every order and every number of answers;
    * **`setup_finishes_iff`**: a setup is complete when every source has been
      heard, and only in an epoch of at most 63 nodes. -/

namespace RelayerSetup

open BitMask RelayerBls RelayerMessage Transition

/-! ## Nodes and messages -/

/-- `bridge.EpochKeys`. -/
structure EpochKeys (PK SG : Type) where
  id : ℤ
  epochPublicKey : PK
  membershipKey : SG
  publicKeys : List PK

/-- What `BlsSetup` reads of a node. -/
structure Node (PK SG SK : Type) extends EpochKeys PK SG where
  privKey : SK

/-- The message types of the setup, and whatever else a peer may send. -/
inductive SetupType where
  | blsSetupPhase
  | blsSetupParts
  | distributeBlockPhase
  | other (n : ℤ)
  deriving DecidableEq, Repr

/-- `bridge.MessageBlsSetup`. -/
structure MessageBlsSetup (SG : Type) where
  source : ℤ
  msgType : SetupType
  membershipKeyParts : List SG
  deriving DecidableEq, Repr

/-- The trigger `MessageBlsSetup{MsgType: BlsSetupPhase}`. -/
def setupTrigger (SG : Type) : MessageBlsSetup SG :=
  ⟨0, .blsSetupPhase, []⟩

variable {PK SG SK : Type}

/-- The coefficients of the node's keys. -/
def Node.anticoefs (bls : Bls PK SG SK) (n : Node PK SG SK) : List ℤ :=
  bls.calculateAntiRogueCoefficients n.publicKeys

/-- The answer to a trigger: one part for each node of the epoch.  The
    coefficients are those computed when the setup started, the other fields
    are read when the trigger is handled. -/
def Node.answerWith (bls : Bls PK SG SK) (anticoefs : List ℤ)
    (n : Node PK SG SK) : Except Panic (MessageBlsSetup SG) := do
  let parts ← (List.range n.publicKeys.length).mapM (fun i => do
    let a ← index anticoefs n.id
    return bls.generateMembershipKeyPart n.privKey (byte i) n.epochPublicKey a)
  return ⟨n.id, .blsSetupParts, parts⟩

/-- The answer of a node whose keys are still those of the start. -/
def Node.answer (bls : Bls PK SG SK) (n : Node PK SG SK) :
    Except Panic (MessageBlsSetup SG) :=
  n.answerWith bls (n.anticoefs bls)

/-! ## The handler -/

/-- The variables of one `BlsSetup` call that its handlers share. -/
structure Setup (SG : Type) where
  membershipKey : SG
  receivedMembershipKeyMask : ℤ
  cancelled : Bool
  deriving DecidableEq, Repr

/-- What an `int64` keeps of a number. -/
def int64 (x : ℤ) : ℤ := Int.bmod x (2 ^ 64)

/-- The Go expression `(1 << np) - 1` at type `int64`. -/
def initialMask (np : ℕ) : ℤ := int64 (int64 (2 ^ np) - 1)

/-- Below 64 nodes the mask has one bit for each of them. -/
theorem initialMask_of_lt {np : ℕ} (h : np < 64) :
    initialMask np = 2 ^ np - 1 := by
  have hpow : (2 : ℤ) ^ np ≤ 2 ^ 63 :=
    pow_le_pow_right₀ (by norm_num) (by omega)
  have hpos : (0 : ℤ) < 2 ^ np := by positivity
  rw [initialMask, int64, int64, Int.bmod_sub_bmod]
  exact Int.bmod_eq_of_le (by norm_num; omega) (by norm_num; omega)

/-- From 64 nodes on the shift leaves nothing, and the mask is minus one. -/
theorem initialMask_of_le {np : ℕ} (h : 64 ≤ np) : initialMask np = -1 := by
  have hdvd : ((2 ^ 64 : ℕ) : ℤ) ∣ 2 ^ np := by
    push_cast
    exact pow_dvd_pow 2 h
  have hshift : int64 (2 ^ np) = 0 := by
    rw [int64, Int.bmod_def, Int.emod_eq_zero_of_dvd hdvd]
    decide
  rw [initialMask, hshift]
  decide

/-- Below 64 nodes the mask has one bit for each. -/
theorem testBit_initialMask_of_lt {np : ℕ} (h : np < 64) (j : ℕ) :
    (initialMask np).testBit j = decide (j < np) := by
  have hcast : (2 ^ np - 1 : ℤ) = ((2 ^ np - 1 : ℕ) : ℤ) := by
    rw [Nat.cast_sub Nat.one_le_two_pow]
    norm_num
  rw [initialMask_of_lt h, hcast]
  exact Nat.testBit_two_pow_sub_one np j

/-- At the start every node is still to be heard. -/
theorem testBit_initialMask {np j : ℕ} (hj : j < np) :
    (initialMask np).testBit j = true := by
  by_cases hnp : np < 64
  · rw [testBit_initialMask_of_lt hnp, decide_eq_true_iff]
    exact hj
  · rw [initialMask_of_le (by omega)]
    show (!(Nat.testBit 0 j)) = true
    rw [Nat.zero_testBit]
    rfl

/-- **THE MASK AFTER SOME SOURCES**: it is zero if and only if there are at
    most 63 nodes and each of them was among the sources. -/
theorem clearedMask_eq_zero_iff (np : ℕ) (sources : List ℕ) :
    sources.foldl clearBit (initialMask np) = 0 ↔
      np ≤ 63 ∧ ∀ j < np, j ∈ sources := by
  constructor
  · intro hzero
    have hbit : ∀ j, ((initialMask np).testBit j && !decide (j ∈ sources))
        = false := by
      intro j
      rw [← testBit_foldl_clearBit, hzero]
      exact Nat.zero_testBit j
    constructor
    · by_contra hnp
      -- minus one has more bits than there are sources
      obtain ⟨j, hj⟩ := Infinite.exists_notMem_finset sources.toFinset
      have hclear := hbit j
      rw [initialMask_of_le (by omega), decide_eq_false
        (fun h => hj (List.mem_toFinset.mpr h)), Bool.not_false,
        Bool.and_true] at hclear
      have hset : (-1 : ℤ).testBit j = true := by
        show (!(Nat.testBit 0 j)) = true
        rw [Nat.zero_testBit]
        rfl
      exact Bool.false_ne_true (hclear.symm.trans hset)
    · intro j hj
      have hclear := hbit j
      rw [testBit_initialMask hj, Bool.true_and, Bool.not_eq_false',
        decide_eq_true_iff] at hclear
      exact hclear
  · rintro ⟨hnp, hall⟩
    apply eq_of_testBit_eq
    intro j
    rw [testBit_foldl_clearBit, testBit_initialMask_of_lt (by omega)]
    by_cases hj : j < np
    · rw [decide_eq_true (hall j hj), Bool.not_true, Bool.and_false]
      exact (Nat.zero_testBit j).symm
    · rw [decide_eq_false hj, Bool.false_and]
      exact (Nat.zero_testBit j).symm

/-- How a step of a `BlsSetup` call ended. -/
inductive Outcome (SG : Type) where
  /-- A trigger was broadcast. -/
  | triggered
  /-- A handler goroutine was started. -/
  | started
  /-- A runtime panic. -/
  | panicked (p : Panic)
  /-- The bytes were no JSON of the message type. -/
  | skipped
  /-- No case for the message type. -/
  | noCase
  /-- A trigger: the parts were broadcast. -/
  | answered (out : MessageBlsSetup SG)
  /-- Parts: added up, with what the check had said. -/
  | aggregated (source : ℤ) (verified : Bool)
  /-- The node's context or its subscription ended. -/
  | closed
  /-- The loop ended and gave this key back. -/
  | returned (key : SG)
  deriving DecidableEq, Repr

/-- Did the process die? -/
def Outcome.isPanic : Outcome SG → Bool
  | .panicked _ => true
  | _ => false

/-- The message a step broadcast. -/
def Outcome.broadcast : Outcome SG → List (MessageBlsSetup SG)
  | .answered out => [out]
  | _ => []

section Handler

variable [Add SG]

/-- What is done between `Lock` and `Unlock`. -/
def Setup.aggregate (st : Setup SG) (part : SG) (source : ℤ) : Setup SG where
  membershipKey := st.membershipKey + part
  receivedMembershipKeyMask :=
    clearBit st.receivedMembershipKeyMask source.toNat
  cancelled := st.cancelled ||
    decide (clearBit st.receivedMembershipKeyMask source.toNat = 0)

/-- The BlsSetupParts case.  A part that does not verify is logged, and then
    treated like the others. -/
def Setup.handlePartsWith (bls : Bls PK SG SK) (anticoefs : List ℤ)
    (n : Node PK SG SK) (st : Setup SG) (msg : MessageBlsSetup SG) :
    Except Panic (Setup SG × Bool) := do
  let part ← index msg.membershipKeyParts n.id
  let pk ← index n.publicKeys msg.source
  let a ← index anticoefs msg.source
  let verified := bls.verifyMembershipKeyPart part n.epochPublicKey pk a
    (byte n.id.toNat)
  return (st.aggregate part msg.source, verified)

/-- The BlsSetupParts case at a node whose keys are still those of the
    start. -/
def Setup.handleParts (bls : Bls PK SG SK) (n : Node PK SG SK)
    (st : Setup SG) (msg : MessageBlsSetup SG) :
    Except Panic (Setup SG × Bool) :=
  st.handlePartsWith bls (n.anticoefs bls) n msg

/-- The handler of the bytes received; `none` is what does not decode. -/
def Setup.handleWith (bls : Bls PK SG SK) (anticoefs : List ℤ)
    (n : Node PK SG SK) (st : Setup SG) :
    Option (MessageBlsSetup SG) → Setup SG × Outcome SG
  | none => (st, .skipped)
  | some msg =>
      match msg.msgType with
      | .blsSetupPhase =>
          match n.answerWith bls anticoefs with
          | .error p => (st, .panicked p)
          | .ok out => (st, .answered out)
      | .blsSetupParts =>
          match st.handlePartsWith bls anticoefs n msg with
          | .error p => (st, .panicked p)
          | .ok (st', verified) => (st', .aggregated msg.source verified)
      | _ => (st, .noCase)

/-- The handler at a node whose keys are still those of the start. -/
def Setup.handle (bls : Bls PK SG SK) (n : Node PK SG SK) (st : Setup SG)
    (bytes : Option (MessageBlsSetup SG)) : Setup SG × Outcome SG :=
  st.handleWith bls (n.anticoefs bls) n bytes

/-- What a handler does with a message that decodes. -/
theorem handle_some (bls : Bls PK SG SK) (n : Node PK SG SK) (st : Setup SG)
    (msg : MessageBlsSetup SG) :
    st.handle bls n (some msg) =
      match msg.msgType with
      | .blsSetupPhase =>
          match n.answer bls with
          | .error p => (st, .panicked p)
          | .ok out => (st, .answered out)
      | .blsSetupParts =>
          match st.handleParts bls n msg with
          | .error p => (st, .panicked p)
          | .ok (st', verified) => (st', .aggregated msg.source verified)
      | _ => (st, .noCase) :=
  rfl

/-- `cancel` is called when the mask is zero, and the mask stays so. -/
theorem aggregate_done {st : Setup SG}
    (h : st.cancelled = true → st.receivedMembershipKeyMask = 0) (part : SG)
    (source : ℤ) :
    (st.aggregate part source).cancelled = true →
      (st.aggregate part source).receivedMembershipKeyMask = 0 := by
  intro hc
  rcases Bool.or_eq_true_iff.mp hc with hbefore | hnow
  · show clearBit _ _ = 0
    rw [h hbefore]
    exact (clearBit_eq_self_iff 0 _).mpr (Nat.zero_testBit _)
  · exact decide_eq_true_iff.mp hnow

end Handler

/-! ## The loop and its goroutines -/

/-- A running `BlsSetup` call: the shared variables, the handlers that were
    started and have not run yet, whether messages have ceased to come, and
    the key once it was given back. -/
structure Process (SG : Type) where
  setup : Setup SG
  handlers : List (Option (MessageBlsSetup SG))
  closed : Bool
  result : Option SG
  crashed : Bool
  deriving DecidableEq, Repr

/-- The call at its start. -/
def Process.start [Zero SG] (np : ℕ) : Process SG :=
  ⟨⟨0, initialMask np, false⟩, [], false, none, false⟩

theorem start_mask [Zero SG] (np : ℕ) :
    (Process.start np : Process SG).setup.receivedMembershipKeyMask
      = initialMask np := by
  rw [Process.start]

/-- What can happen in a `BlsSetup` call.  A handler may run at any time
    after it was started, also when `cancel` was called in between. -/
inductive Event (SG : Type) where
  | receives (bytes : Option (MessageBlsSetup SG))
  | handles (k : ℕ)
  | closes
  | returns
  deriving DecidableEq, Repr

/-- One event, if it is possible. -/
def Process.reactWith [Add SG] (bls : Bls PK SG SK) (anticoefs : List ℤ)
    (n : Node PK SG SK) (p : Process SG) :
    Event SG → Option (Process SG × Outcome SG)
  | .receives bytes =>
      if p.crashed || p.setup.cancelled || p.closed || p.result.isSome then
        none
      else some ({ p with handlers := p.handlers ++ [bytes] }, .started)
  | .handles k =>
      if p.crashed then none
      else
        match p.handlers[k]? with
        | none => none
        | some bytes =>
            let r := p.setup.handleWith bls anticoefs n bytes
            some ({ p with
              setup := r.1
              handlers := p.handlers.eraseIdx k
              crashed := r.2.isPanic }, r.2)
  | .closes =>
      if p.crashed then none else some ({ p with closed := true }, .closed)
  | .returns =>
      if p.crashed || p.result.isSome then none
      else if p.setup.cancelled || p.closed then
        some ({ p with result := some p.setup.membershipKey },
          .returned p.setup.membershipKey)
      else none

/-- The call at a node whose keys are still those of the start. -/
def Process.react [Add SG] (bls : Bls PK SG SK) (n : Node PK SG SK)
    (p : Process SG) (e : Event SG) : Option (Process SG × Outcome SG) :=
  p.reactWith bls (n.anticoefs bls) n e

/-- The coefficients and the keys have the same indices. -/
theorem inRange_anticoefs (bls : Bls PK SG SK) {n : Node PK SG SK} {i : ℤ} :
    InRange (n.anticoefs bls) i ↔ InRange n.publicKeys i := by
  rw [InRange, InRange, Node.anticoefs, bls.coefficients_length]

section Parts

variable [Add SG] {n : Node PK SG SK} {msg : MessageBlsSetup SG} {part : SG}

/-- From a registered source, with parts enough, the part is added. -/
theorem handleParts_of_index (bls : Bls PK SG SK) (st : Setup SG)
    (hpart : index msg.membershipKeyParts n.id = .ok part)
    (hsrc : InRange n.publicKeys msg.source) :
    ∃ pk a, index n.publicKeys msg.source = .ok pk ∧
      index (n.anticoefs bls) msg.source = .ok a ∧
      st.handleParts bls n msg = .ok (st.aggregate part msg.source,
        bls.verifyMembershipKeyPart part n.epochPublicKey pk a
          (byte n.id.toNat)) := by
  obtain ⟨pk, hpk, -⟩ := index_of_inRange hsrc
  obtain ⟨a, ha, -⟩ := index_of_inRange ((inRange_anticoefs bls).mpr hsrc)
  refine ⟨pk, a, hpk, ha, ?_⟩
  rw [Setup.handleParts, Setup.handlePartsWith, hpart, hpk, ha]
  rfl

/-- Otherwise the handler panics. -/
theorem handleParts_panics (bls : Bls PK SG SK) (st : Setup SG)
    (h : ¬ (InRange msg.membershipKeyParts n.id ∧
      InRange n.publicKeys msg.source)) :
    ∃ p, st.handleParts bls n msg = .error p := by
  by_cases hid : InRange msg.membershipKeyParts n.id
  · have hsrc : ¬ InRange n.publicKeys msg.source := fun hs => h ⟨hid, hs⟩
    obtain ⟨part, hpart, -⟩ := index_of_inRange hid
    refine ⟨.indexOutOfRange msg.source n.publicKeys.length, ?_⟩
    rw [Setup.handleParts, Setup.handlePartsWith, hpart, index_of_not_inRange hsrc]
    rfl
  · refine ⟨.indexOutOfRange n.id msg.membershipKeyParts.length, ?_⟩
    rw [Setup.handleParts, Setup.handlePartsWith, index_of_not_inRange hid]
    rfl

/-- A message with parts adds them, or panics. -/
theorem handle_parts (bls : Bls PK SG SK) (n : Node PK SG SK) (st : Setup SG)
    (htype : msg.msgType = .blsSetupParts) :
    st.handle bls n (some msg) =
      match st.handleParts bls n msg with
      | .error p => (st, .panicked p)
      | .ok (st', verified) => (st', .aggregated msg.source verified) := by
  rw [handle_some, htype]

/-- Anything but parts leaves the shared variables alone. -/
theorem handle_of_not_parts (bls : Bls PK SG SK) (n : Node PK SG SK)
    (st : Setup SG) {bytes : Option (MessageBlsSetup SG)}
    (h : ∀ msg, bytes = some msg → msg.msgType ≠ .blsSetupParts) :
    (st.handle bls n bytes).1 = st ∧
    ∀ source verified,
      (st.handle bls n bytes).2 ≠ .aggregated source verified := by
  cases bytes with
  | none => exact ⟨rfl, fun _ _ heq => nomatch heq⟩
  | some msg =>
      rw [handle_some]
      cases htype : msg.msgType with
      | blsSetupParts => exact absurd htype (h msg rfl)
      | distributeBlockPhase => exact ⟨rfl, fun _ _ heq => nomatch heq⟩
      | other k => exact ⟨rfl, fun _ _ heq => nomatch heq⟩
      | blsSetupPhase =>
          cases n.answer bls with
          | error p => exact ⟨rfl, fun _ _ heq => nomatch heq⟩
          | ok out => exact ⟨rfl, fun _ _ heq => nomatch heq⟩

/-- Only a trigger is answered. -/
theorem handle_answered (bls : Bls PK SG SK) (st : Setup SG)
    {bytes : Option (MessageBlsSetup SG)} {out : MessageBlsSetup SG}
    (h : (st.handle bls n bytes).2 = .answered out) :
    n.answer bls = .ok out := by
  cases bytes with
  | none => exact nomatch h
  | some msg =>
      rw [handle_some] at h
      cases htype : msg.msgType with
      | distributeBlockPhase => rw [htype] at h; exact nomatch h
      | other k => rw [htype] at h; exact nomatch h
      | blsSetupParts =>
          rw [htype] at h
          cases hp : st.handleParts bls n msg with
          | error p => rw [hp] at h; exact nomatch h
          | ok r => rw [hp] at h; exact nomatch h
      | blsSetupPhase =>
          rw [htype] at h
          cases ha : n.answer bls with
          | error p => rw [ha] at h; exact nomatch h
          | ok out' =>
              rw [ha] at h
              rw [Outcome.answered.inj h]

end Parts

/-! ## Parts that do not verify -/

/-- A valid part: from a registered source, there for this node, and
    accepted by the check. -/
def validPart (bls : Bls PK SG SK) (n : Node PK SG SK)
    (msg : MessageBlsSetup SG) : Bool :=
  match index msg.membershipKeyParts n.id, index n.publicKeys msg.source,
      index (n.anticoefs bls) msg.source with
  | .ok part, .ok pk, .ok a => bls.verifyMembershipKeyPart part
      n.epochPublicKey pk a (byte n.id.toNat)
  | _, _, _ => false

/-- The handler did not die and changed neither the key nor the mask. -/
structure Unharmed [Add SG] (bls : Bls PK SG SK) (n : Node PK SG SK)
    (st : Setup SG) (msg : MessageBlsSetup SG) : Prop where
  survives : (st.handle bls n (some msg)).2.isPanic = false
  membershipKey :
    (st.handle bls n (some msg)).1.membershipKey = st.membershipKey
  mask : (st.handle bls n (some msg)).1.receivedMembershipKeyMask
    = st.receivedMembershipKeyMask

/-- A message that adds zero for a registered source ticked off before. -/
def Void [Zero SG] (n : Node PK SG SK) (st : Setup SG)
    (msg : MessageBlsSetup SG) : Prop :=
  InRange n.publicKeys msg.source ∧
  index msg.membershipKeyParts n.id = .ok 0 ∧
  st.receivedMembershipKeyMask.testBit msg.source.toNat = false

/-- What each event does to a `BlsSetup` call. -/
theorem react_cases [Add SG] {bls : Bls PK SG SK} {n : Node PK SG SK}
    {p p' : Process SG} {e : Event SG} {o : Outcome SG}
    (h : p.react bls n e = some (p', o)) :
    (∃ bytes, e = .receives bytes ∧ o = .started ∧
      p' = { p with handlers := p.handlers ++ [bytes] }) ∨
    (∃ k bytes, e = .handles k ∧ p.handlers[k]? = some bytes ∧
      o = (p.setup.handle bls n bytes).2 ∧
      p' = { p with
        setup := (p.setup.handle bls n bytes).1
        handlers := p.handlers.eraseIdx k
        crashed := o.isPanic }) ∨
    (e = .closes ∧ o = .closed ∧ p' = { p with closed := true }) ∨
    (e = .returns ∧ o = .returned p.setup.membershipKey ∧ p.result = none ∧
      (p.setup.cancelled || p.closed) = true ∧
      p' = { p with result := some p.setup.membershipKey }) := by
  cases e with
  | receives bytes =>
      rw [Process.react, Process.reactWith] at h
      split at h
      · exact nomatch h
      · obtain ⟨rfl, rfl⟩ := Prod.mk.inj (Option.some.inj h)
        exact Or.inl ⟨bytes, rfl, rfl, rfl⟩
  | handles k =>
      rw [Process.react, Process.reactWith] at h
      split at h
      · exact nomatch h
      · cases hk : p.handlers[k]? with
        | none => rw [hk] at h; exact nomatch h
        | some bytes =>
            rw [hk] at h
            obtain ⟨rfl, rfl⟩ := Prod.mk.inj (Option.some.inj h)
            exact Or.inr (Or.inl ⟨k, bytes, rfl, hk, rfl, rfl⟩)
  | closes =>
      rw [Process.react, Process.reactWith] at h
      split at h
      · exact nomatch h
      · obtain ⟨rfl, rfl⟩ := Prod.mk.inj (Option.some.inj h)
        exact Or.inr (Or.inr (Or.inl ⟨rfl, rfl, rfl⟩))
  | returns =>
      rw [Process.react, Process.reactWith] at h
      split at h
      · exact nomatch h
      -- `result` is set once: a wait that has ended does not end again
      · rename_i hopen
        have hnone : p.result = none := by
          cases hr : p.result with
          | none => rfl
          | some key => rw [hr] at hopen; exact absurd (Bool.or_true _) hopen
        split at h
        · rename_i hended
          obtain ⟨rfl, rfl⟩ := Prod.mk.inj (Option.some.inj h)
          exact Or.inr (Or.inr (Or.inr ⟨rfl, rfl, hnone, hended, rfl⟩))
        · exact nomatch h

/-- **ONE STEP, ONE PART**: either the shared variables are untouched and
    nothing was added, or one handler added the part of a registered
    source, and reported what the check had said of it. -/
theorem react_setup [Add SG] {bls : Bls PK SG SK} {n : Node PK SG SK}
    {p p' : Process SG} {e : Event SG} {o : Outcome SG}
    (h : p.react bls n e = some (p', o)) :
    (p'.setup = p.setup ∧ ∀ source verified, o ≠ .aggregated source verified) ∨
    ∃ k msg part verified, e = .handles k ∧
      p.handlers[k]? = some (some msg) ∧ msg.msgType = .blsSetupParts ∧
      InRange n.publicKeys msg.source ∧
      index msg.membershipKeyParts n.id = .ok part ∧
      p'.setup = p.setup.aggregate part msg.source ∧
      o = .aggregated msg.source verified ∧
      verified = validPart bls n msg := by
  rcases react_cases h with ⟨bytes, -, rfl, rfl⟩ | ⟨k, bytes, rfl, hk, rfl, rfl⟩ |
    ⟨-, rfl, rfl⟩ | ⟨-, rfl, -, -, rfl⟩
  · exact Or.inl ⟨rfl, fun _ _ heq => nomatch heq⟩
  · by_cases hparts : ∃ msg, bytes = some msg ∧ msg.msgType = .blsSetupParts
    · obtain ⟨msg, rfl, htype⟩ := hparts
      have heq := handle_parts bls n p.setup htype
      by_cases hin : InRange msg.membershipKeyParts n.id ∧
          InRange n.publicKeys msg.source
      · obtain ⟨part, hpart, -⟩ := index_of_inRange hin.1
        obtain ⟨pk, a, hpk, ha, hok⟩ :=
          handleParts_of_index bls p.setup hpart hin.2
        rw [hok] at heq
        refine Or.inr ⟨k, msg, part, _, rfl, hk, htype, hin.2, hpart,
          congrArg Prod.fst heq, congrArg Prod.snd heq, ?_⟩
        rw [validPart, hpart, hpk, ha]
      · obtain ⟨q, hq⟩ := handleParts_panics bls p.setup hin
        rw [hq] at heq
        refine Or.inl ⟨congrArg Prod.fst heq, fun _ _ hagg => ?_⟩
        exact nomatch (congrArg Prod.snd heq).symm.trans hagg
    · exact Or.inl (handle_of_not_parts bls n p.setup
        (fun msg hmsg htype => hparts ⟨msg, hmsg, htype⟩))
  · exact Or.inl ⟨rfl, fun _ _ heq => nomatch heq⟩
  · exact Or.inl ⟨rfl, fun _ _ heq => nomatch heq⟩

section Stable

variable [Add SG] {bls : Bls PK SG SK} {n : Node PK SG SK}
  {p p' : Process SG} {e : Event SG} {o : Outcome SG}

/-- A call that has heard every source remains so. -/
theorem react_cancelled (h : p.react bls n e = some (p', o))
    (hc : p.setup.cancelled = true) : p'.setup.cancelled = true := by
  rcases react_setup h with ⟨hsame, -⟩ | ⟨_, _, _, _, -, -, -, -, -, hadd, -⟩
  · rw [hsame]
    exact hc
  · rw [hadd]
    exact (Bool.or_eq_true _ _).mpr (Or.inl hc)

/-- The key that was given back is not changed any more. -/
theorem react_result {key : SG} (h : p.react bls n e = some (p', o))
    (hr : p.result = some key) : p'.result = some key := by
  rcases react_cases h with ⟨_, -, -, rfl⟩ | ⟨_, _, -, -, -, rfl⟩ |
    ⟨-, -, rfl⟩ | ⟨-, -, hnone, -⟩
  · exact hr
  · exact hr
  · exact hr
  · rw [hr] at hnone
    exact nomatch hnone

end Stable

section Invalid

variable [AddCommGroup SG] {bls : Bls PK SG SK} {n : Node PK SG SK}
  {st : Setup SG} {msg : MessageBlsSetup SG}

/-- A BlsSetupParts message, valid or not, is harmless only when it is
    void. -/
theorem unharmed_iff_void (htype : msg.msgType = .blsSetupParts) :
    Unharmed bls n st msg ↔ Void n st msg := by
  have heq := handle_parts bls n st htype
  by_cases hin : InRange msg.membershipKeyParts n.id ∧
      InRange n.publicKeys msg.source
  · obtain ⟨part, hpart, -⟩ := index_of_inRange hin.1
    obtain ⟨pk, a, -, -, hok⟩ :=
      handleParts_of_index bls st hpart hin.2
    rw [hok] at heq
    constructor
    · intro h
      have hkey := h.membershipKey
      have hmask := h.mask
      rw [heq] at hkey hmask
      have hzero : part = 0 := add_eq_left.mp hkey
      refine ⟨hin.2, ?_, (clearBit_eq_self_iff _ _).mp hmask⟩
      rw [hpart, hzero]
    · rintro ⟨-, hzero, hbit⟩
      have hpart0 : part = 0 := Except.ok.inj (hpart.symm.trans hzero)
      refine ⟨?_, ?_, ?_⟩
      · rw [heq]; rfl
      · rw [heq, hpart0]; exact add_zero _
      · rw [heq]; exact (clearBit_eq_self_iff _ _).mpr hbit
  · obtain ⟨p, hp⟩ := handleParts_panics bls st hin
    rw [hp] at heq
    constructor
    · intro h
      have hsurv := h.survives
      rw [heq] at hsurv
      exact nomatch hsurv
    · rintro ⟨hsrc, hzero, -⟩
      exact absurd ⟨inRange_of_index_ok hzero, hsrc⟩ hin

/-- Runs of one node against any network, in which every handled
    BlsSetupParts message is valid or void. -/
def CleanRun (bls : Bls PK SG SK) (n : Node PK SG SK)
    (tr : List (Event SG × Outcome SG)) (p : Process SG) : Prop :=
  Run (Guarded (Fires (Process.react bls n)) (fun p l => ∀ k msg,
    l.1 = .handles k → p.handlers[k]? = some (some msg) →
    msg.msgType = .blsSetupParts →
      validPart bls n msg = true ∨ Void n p.setup msg))
    (Process.start n.publicKeys.length) tr p

/-- Along such a run a source is ticked off by a verified part only, and
    `cancel` is called when all are. -/
theorem cleanRun_verified {tr : List (Event SG × Outcome SG)}
    {p : Process SG} (hrun : CleanRun bls n tr p) :
    (∀ j < n.publicKeys.length,
      p.setup.receivedMembershipKeyMask.testBit j = false →
      ∃ l ∈ tr, l.2 = .aggregated j true) ∧
    (p.setup.cancelled = true → p.setup.receivedMembershipKeyMask = 0) := by
  refine Run.traced (P := fun tr (p : Process SG) =>
    (∀ j < n.publicKeys.length,
      p.setup.receivedMembershipKeyMask.testBit j = false →
      ∃ l ∈ tr, l.2 = .aggregated (j : ℤ) true) ∧
    (p.setup.cancelled = true → p.setup.receivedMembershipKeyMask = 0))
    hrun ⟨?_, fun h => nomatch h⟩ ?_
  · intro j hj hbit
    rw [start_mask, testBit_initialMask hj] at hbit
    exact nomatch hbit
  · rintro tr p ⟨e, o⟩ p' ⟨hbits, hcancel⟩ ⟨hstep, hok⟩
    -- what was aggregated before is still in the trace
    have hkeep : ∀ j : ℕ, (∃ l ∈ tr, l.2 = Outcome.aggregated (j : ℤ) true) →
        ∃ l ∈ tr ++ [(e, o)], l.2 = .aggregated (j : ℤ) true := by
      rintro j ⟨l, hl, hagg⟩
      exact ⟨l, List.mem_append_left _ hl, hagg⟩
    rcases react_setup hstep with ⟨hsame, -⟩ |
      ⟨k, msg, part, verified, rfl, hk, htype, hsrc, -, hset, rfl, hver⟩
    · rw [hsame]
      exact ⟨fun j hj hbit => hkeep j (hbits j hj hbit), hcancel⟩
    · rw [hset]
      refine ⟨?_, ?_⟩
      · intro j hj hbit
        by_cases hold : p.setup.receivedMembershipKeyMask.testBit j = false
        · exact hkeep j (hbits j hj hold)
        · -- the bit fell in this step, so this is its source
          have hj' : msg.source.toNat = j := by
            by_contra hne
            exact hold ((testBit_clearBit_of_ne _ hne).symm.trans hbit)
          rcases hok k msg rfl hk htype with hvalid | hvoid
          · refine ⟨_, List.mem_append_right _ (List.mem_singleton_self _), ?_⟩
            rw [hver, hvalid, ← hj', Int.toNat_of_nonneg hsrc.1]
          · have hclear := hvoid.2.2
            rw [hj'] at hclear
            exact absurd hclear hold
      · exact aggregate_done hcancel part msg.source

/-- **BAD PARTS ARE HARMLESS ONLY WHEN THEY ARE VOID**: a BlsSetupParts message
    that is not valid leaves key and mask alone, without a panic, exactly
    when it adds zero for a registered source ticked off before; and in every
    run without other bad ones the setup completes with a verified part of
    every node. -/
theorem bad_parts_harmless_iff :
    (∀ (st : Setup SG) msg, msg.msgType = .blsSetupParts →
      validPart bls n msg = false → (Unharmed bls n st msg ↔ Void n st msg)) ∧
    (∀ tr p, CleanRun bls n tr p → p.setup.cancelled = true →
      ∀ j < n.publicKeys.length, ∃ l ∈ tr, l.2 = .aggregated j true) := by
  refine ⟨?_, ?_⟩
  · intro st msg htype _
    exact unharmed_iff_void htype
  · intro tr p hrun hcancel j hj
    obtain ⟨hbits, hzero⟩ := cleanRun_verified hrun
    refine hbits j hj ?_
    rw [hzero hcancel]
    exact Nat.zero_testBit j

end Invalid

/-! ## All have answered -/

section Complete

variable [Add SG] {bls : Bls PK SG SK} {n : Node PK SG SK}

/-- BlsSetupParts messages handled one after another. -/
def Setup.handleAllParts (bls : Bls PK SG SK) (n : Node PK SG SK) :
    Setup SG → List (MessageBlsSetup SG) → Except Panic (Setup SG)
  | st, [] => .ok st
  | st, msg :: msgs => do
      let r ← st.handleParts bls n msg
      handleAllParts bls n r.1 msgs

/-- The sources whose parts a run has added, in order. -/
def addedSources (tr : List (Event SG × Outcome SG)) : List ℕ :=
  tr.filterMap (fun l =>
    match l.2 with
    | .aggregated source _ => some source.toNat
    | _ => none)

/-- Messages of registered sources with parts enough are all handled, and
    each clears the bit of its source. -/
theorem handleAllParts_mask (bls : Bls PK SG SK)
    {msgs : List (MessageBlsSetup SG)}
    (hmsgs : ∀ msg ∈ msgs, InRange n.publicKeys msg.source ∧
      InRange msg.membershipKeyParts n.id) (st : Setup SG) :
    ∃ st', st.handleAllParts bls n msgs = .ok st' ∧
      st'.receivedMembershipKeyMask =
        (msgs.map (fun msg => msg.source.toNat)).foldl clearBit
          st.receivedMembershipKeyMask := by
  induction msgs generalizing st with
  | nil => exact ⟨st, rfl, rfl⟩
  | cons msg msgs ih =>
      obtain ⟨hsrc, hid⟩ := hmsgs msg List.mem_cons_self
      obtain ⟨part, hpart, -⟩ := index_of_inRange hid
      obtain ⟨pk, a, -, -, hok⟩ := handleParts_of_index bls st hpart hsrc
      obtain ⟨st', hst', hmask⟩ := ih
        (fun m hm => hmsgs m (List.mem_cons_of_mem _ hm))
        (st.aggregate part msg.source)
      refine ⟨st', ?_, hmask⟩
      rw [Setup.handleAllParts, hok]
      exact hst'

/-- What a run has done to the mask, and that `cancel` was called if and only
    if the mask is zero. -/
structure Cleared (np : ℕ) (tr : List (Event SG × Outcome SG))
    (p : Process SG) : Prop where
  mask : p.setup.receivedMembershipKeyMask =
    (addedSources tr).foldl clearBit (initialMask np)
  cancelled : p.setup.cancelled =
    decide (p.setup.receivedMembershipKeyMask = 0)

/-- One step clears the bits of the sources added, in that order. -/
theorem Cleared.step {np : ℕ} {tr : List (Event SG × Outcome SG)}
    {p p' : Process SG} {e : Event SG} {o : Outcome SG}
    (hp : Cleared np tr p) (h : p.react bls n e = some (p', o)) :
    Cleared np (tr ++ [(e, o)]) p' := by
  rcases react_setup h with ⟨hsame, hno⟩ |
    ⟨k, msg, part, verified, -, -, -, -, -, hadd, rfl, -⟩
  · have hsources : addedSources (tr ++ [(e, o)]) = addedSources tr := by
      rw [addedSources, List.filterMap_append]
      cases o with
      | aggregated source verified => exact absurd rfl (hno source verified)
      | _ => exact List.append_nil _
    exact ⟨by rw [hsame, hsources, hp.mask], by rw [hsame, hp.cancelled]⟩
  · have hsources : addedSources (tr ++ [(e, .aggregated msg.source verified)])
        = addedSources tr ++ [msg.source.toNat] := by
      rw [addedSources, List.filterMap_append]
      rfl
    have hmask : p'.setup.receivedMembershipKeyMask =
        clearBit p.setup.receivedMembershipKeyMask msg.source.toNat := by
      rw [hadd]
      rfl
    refine ⟨?_, ?_⟩
    · rw [hmask, hp.mask, hsources, List.foldl_append]
      rfl
    · have hcancel : p'.setup.cancelled = (p.setup.cancelled ||
          decide (p'.setup.receivedMembershipKeyMask = 0)) := by
        rw [hadd]
        rfl
      rw [hcancel, hp.cancelled, hmask]
      by_cases hzero : p.setup.receivedMembershipKeyMask = 0
      · -- a mask that is zero stays so
        have hstay : clearBit p.setup.receivedMembershipKeyMask
            msg.source.toNat = 0 := by
          rw [hzero]
          exact (clearBit_eq_self_iff 0 _).mpr (Nat.zero_testBit _)
        rw [decide_eq_true hzero, decide_eq_true hstay, Bool.true_or]
      · rw [decide_eq_false hzero, Bool.false_or]

omit [Add SG] in
/-- At the start every bit is set and nothing was added. -/
theorem cleared_start [Zero SG] {np : ℕ} (hnp : 1 ≤ np) :
    Cleared np [] (Process.start np : Process SG) where
  mask := by
    rw [start_mask, addedSources, List.filterMap_nil, List.foldl_nil]
  cancelled := by
    have hne : initialMask np ≠ 0 := by
      intro hzero
      have hbit := testBit_initialMask (Nat.lt_of_lt_of_le Nat.one_pos hnp)
      rw [hzero] at hbit
      exact Bool.false_ne_true ((Nat.zero_testBit 0).symm.trans hbit)
    rw [start_mask, decide_eq_false hne, Process.start]

/-- Every run of a call with at least one key. -/
theorem cleared_run [Zero SG] {np : ℕ} (hnp : 1 ≤ np)
    {tr : List (Event SG × Outcome SG)} {p : Process SG}
    (hrun : Run (Fires (Process.react bls n)) (Process.start np) tr p) :
    Cleared np tr p := by
  refine hrun.traced (cleared_start hnp) ?_
  intro tr a l b ha hstep
  exact ha.step hstep

/-- **ALL HAVE ANSWERED**: after any BlsSetupParts messages of registered
    sources the mask is zero if and only if there are at most 63 keys and
    every source occurs; and in every run of a call with at least one key,
    `cancel` has been called if and only if there are at most 63 keys and the
    parts of every source were added. -/
theorem setup_finishes_iff [Zero SG] (bls : Bls PK SG SK)
    (n : Node PK SG SK) :
    (∀ msgs : List (MessageBlsSetup SG),
      (∀ msg ∈ msgs, InRange n.publicKeys msg.source ∧
        InRange msg.membershipKeyParts n.id) →
      ∃ st, (Process.start n.publicKeys.length).setup.handleAllParts bls n msgs
          = .ok st ∧
        (st.receivedMembershipKeyMask = 0 ↔ n.publicKeys.length ≤ 63 ∧
          ∀ j < n.publicKeys.length, ∃ msg ∈ msgs, msg.source = j)) ∧
    (1 ≤ n.publicKeys.length →
      ∀ (tr : List (Event SG × Outcome SG)) (p : Process SG),
        Run (Fires (Process.react bls n)) (Process.start n.publicKeys.length)
          tr p →
        (p.setup.cancelled = true ↔ n.publicKeys.length ≤ 63 ∧
          ∀ j < n.publicKeys.length, j ∈ addedSources tr)) := by
  constructor
  · intro msgs hmsgs
    obtain ⟨st, hst, hmask⟩ := handleAllParts_mask bls hmsgs
      (Process.start n.publicKeys.length).setup
    refine ⟨st, hst, ?_⟩
    rw [hmask, start_mask, clearedMask_eq_zero_iff]
    refine and_congr_right fun _ => forall₂_congr fun j _ => ?_
    rw [List.mem_map]
    refine exists_congr fun msg => and_congr_right fun hmem => ?_
    have hnonneg := (hmsgs msg hmem).1.1
    omega
  · intro hnp tr p hrun
    have hcleared := cleared_run hnp hrun
    rw [hcleared.cancelled, decide_eq_true_iff, hcleared.mask,
      clearedMask_eq_zero_iff]

/-- The answers of 64 nodes, with a part for node 0. -/
def all64 : List (MessageBlsSetup ℤ) :=
  (List.range 64).map (fun j : ℕ => ⟨(j : ℤ), .blsSetupParts, [1000]⟩)

/-- Node 0 of 64 nodes. -/
def nodeOf64 : Node ℤ ℤ ℤ := ⟨⟨0, 64, 0, List.replicate 64 1⟩, 1⟩

/-- **64 NODES NEVER FINISH**: all have answered, and the mask is not zero. -/
theorem setup_of_64_unfinished :
    ¬ ∀ (n : Node ℤ ℤ ℤ) (msgs : List (MessageBlsSetup ℤ)),
      1 ≤ n.publicKeys.length →
      (∀ msg ∈ msgs, InRange n.publicKeys msg.source ∧
        InRange msg.membershipKeyParts n.id) →
      ∃ st, (Process.start n.publicKeys.length).setup.handleAllParts intBls n
          msgs = .ok st ∧
        (st.receivedMembershipKeyMask = 0 ↔
          ∀ j < n.publicKeys.length, ∃ msg ∈ msgs, msg.source = j) := by
  intro h
  have hkeys : nodeOf64.publicKeys.length = 64 := List.length_replicate
  have hmsgs : ∀ msg ∈ all64, InRange nodeOf64.publicKeys msg.source ∧
      InRange msg.membershipKeyParts nodeOf64.id := by
    intro msg hmem
    obtain ⟨j, hj, rfl⟩ := List.mem_map.mp hmem
    refine ⟨⟨Int.natCast_nonneg j, ?_⟩, le_rfl, Nat.one_pos⟩
    rw [hkeys]
    exact List.mem_range.mp hj
  obtain ⟨st, hst, hiff⟩ := h nodeOf64 all64 (by rw [hkeys]; decide) hmsgs
  obtain ⟨st', hst', hmask⟩ := handleAllParts_mask intBls hmsgs
    (Process.start 64 : Process ℤ).setup
  rw [hkeys] at hst hiff
  obtain rfl : st = st' := Except.ok.inj (hst.symm.trans hst')
  have hzero : st.receivedMembershipKeyMask = 0 := by
    refine hiff.mpr fun j hj => ⟨⟨(j : ℤ), .blsSetupParts, [1000]⟩, ?_, rfl⟩
    exact List.mem_map.mpr ⟨j, List.mem_range.mpr hj, rfl⟩
  rw [hmask, start_mask, clearedMask_eq_zero_iff] at hzero
  exact absurd hzero.1 (by decide)

end Complete

/-! ## All nodes honest -/

/-- The nodes of one epoch.  They have read one key list from the registry,
    and node `i` stands at index `i` of it. -/
structure Epoch (PK SK : Type) where
  publicKeys : List PK
  epochPublicKey : PK
  privKey : ℕ → SK

/-- A node of the epoch, as its setup starts. -/
def Epoch.node (ep : Epoch PK SK) (bls : Bls PK SG SK) (i : ℕ) :
    Node PK SG SK where
  id := i
  epochPublicKey := ep.epochPublicKey
  membershipKey := bls.emptySignature
  publicKeys := ep.publicKeys
  privKey := ep.privKey i

/-- The part node `j` makes for node `i`. -/
def Epoch.keyPart (ep : Epoch PK SK) (bls : Bls PK SG SK) (j i : ℕ) : SG :=
  bls.generateMembershipKeyPart (ep.privKey j) (byte i) ep.epochPublicKey
    ((bls.calculateAntiRogueCoefficients ep.publicKeys).getD j 0)

/-- All the parts node `j` makes. -/
def Epoch.parts (ep : Epoch PK SK) (bls : Bls PK SG SK) (j : ℕ) :
    MessageBlsSetup SG where
  source := j
  msgType := .blsSetupParts
  membershipKeyParts := (List.range ep.publicKeys.length).map (ep.keyPart bls j)

/-- The coefficient of a node of the epoch. -/
theorem index_anticoefs (bls : Bls PK SG SK) {ep : Epoch PK SK} {j : ℕ}
    (hj : j < ep.publicKeys.length) :
    index ((ep.node bls j).anticoefs bls) (ep.node bls j).id
      = .ok ((bls.calculateAntiRogueCoefficients ep.publicKeys).getD j 0) := by
  have hlt : j < (bls.calculateAntiRogueCoefficients ep.publicKeys).length := by
    rw [bls.coefficients_length]
    exact hj
  refine index_ok_iff.mpr ⟨Int.natCast_nonneg j, ?_⟩
  show (bls.calculateAntiRogueCoefficients ep.publicKeys)[j]? = _
  rw [List.getElem?_eq_getElem hlt, List.getD_eq_getElem?_getD,
    List.getElem?_eq_getElem hlt]
  rfl

/-- An honest node answers a trigger with its parts. -/
theorem answer_eq (bls : Bls PK SG SK) {ep : Epoch PK SK} {j : ℕ}
    (hj : j < ep.publicKeys.length) :
    (ep.node bls j).answer bls = .ok (ep.parts bls j) := by
  rw [Node.answer, Node.answerWith, index_anticoefs bls hj]
  show (do
    let parts ← (List.range ep.publicKeys.length).mapM
      (fun i => (pure (ep.keyPart bls j i) : Except Panic SG))
    return (⟨j, .blsSetupParts, parts⟩ : MessageBlsSetup SG)) = _
  rw [List.mapM_pure]
  rfl

/-- The part of node `j` that node `i` takes out of its answer. -/
theorem index_parts (bls : Bls PK SG SK) {ep : Epoch PK SK} {i j : ℕ}
    (hi : i < ep.publicKeys.length) :
    index (ep.parts bls j).membershipKeyParts (ep.node bls i).id
      = .ok (ep.keyPart bls j i) := by
  refine index_ok_iff.mpr ⟨Int.natCast_nonneg i, ?_⟩
  show ((List.range ep.publicKeys.length).map (ep.keyPart bls j))[i]? = _
  rw [List.getElem?_map, List.getElem?_range hi]
  rfl

/-- The messages of a run without dishonest nodes. -/
def Epoch.Honest (ep : Epoch PK SK) (bls : Bls PK SG SK)
    (msg : MessageBlsSetup SG) : Prop :=
  msg = setupTrigger SG ∨ ∃ j < ep.publicKeys.length, msg = ep.parts bls j

/-- The nodes of the epoch, and everything broadcast on its topic so far. -/
structure Network (SG : Type) where
  procs : ℕ → Process SG
  sent : List (MessageBlsSetup SG)

/-- All setups at their start, nothing sent. -/
def Network.start [Zero SG] (ep : Epoch PK SK) : Network SG :=
  ⟨fun _ => Process.start ep.publicKeys.length, []⟩

/-- What can happen on the topic: somebody triggers the setup, the `k`th
    message sent reaches node `i`, the `k`th waiting handler of node `i`
    runs, and so on, in any order and any number of times. -/
inductive NetEvent where
  | triggers
  | delivers (i k : ℕ)
  | handles (i k : ℕ)
  | closes (i : ℕ)
  | returns (i : ℕ)
  deriving DecidableEq, Repr

/-- Did node `i` add an answer of node `j` in this step? -/
def isAnswer (i j : ℕ) : NetEvent × Outcome SG → Bool
  | (.handles i' _, .aggregated source _) =>
      decide (i' = i) && decide (source = j)
  | _ => false

/-- How often node `i` has added an answer of node `j`. -/
def answers (i j : ℕ) (tr : List (NetEvent × Outcome SG)) : ℕ :=
  tr.countP (isAnswer i j)

/-- The answers counted, label by label. -/
theorem answers_append (i j : ℕ) (tr : List (NetEvent × Outcome SG))
    (l : NetEvent × Outcome SG) :
    answers i j (tr ++ [l]) = answers i j tr
      + if isAnswer i j l = true then 1 else 0 := by
  rw [answers, List.countP_append, List.countP_singleton]
  rfl

section Honest

variable [AddCommGroup SG]

/-- One event of node `i`, if it is possible. -/
def Network.move (bls : Bls PK SG SK) (ep : Epoch PK SK) (net : Network SG)
    (i : ℕ) (e : Event SG) : Option (Network SG × Outcome SG) :=
  if i < ep.publicKeys.length then
    match (net.procs i).react bls (ep.node bls i) e with
    | none => none
    | some (p, o) => some
        (⟨Function.update net.procs i p, net.sent ++ o.broadcast⟩, o)
  else none

/-- One event of the network, if it is possible. -/
def Network.react (bls : Bls PK SG SK) (ep : Epoch PK SK) (net : Network SG) :
    NetEvent → Option (Network SG × Outcome SG)
  | .triggers =>
      some (⟨net.procs, net.sent ++ [setupTrigger SG]⟩, .triggered)
  | .delivers i k =>
      match net.sent[k]? with
      | none => none
      | some msg => net.move bls ep i (.receives (some msg))
  | .handles i k => net.move bls ep i (.handles k)
  | .closes i => net.move bls ep i .closes
  | .returns i => net.move bls ep i .returns

/-- The event of one node behind an event of the network. -/
def NetEvent.IsOf (sent : List (MessageBlsSetup SG)) (e : NetEvent) (i : ℕ) :
    Event SG → Prop
  | .receives bytes => ∃ msg ∈ sent, bytes = some msg ∧ ∃ k, e = .delivers i k
  | .handles k => e = .handles i k
  | .closes => e = .closes i
  | .returns => e = .returns i

variable {bls : Bls PK SG SK} {ep : Epoch PK SK} {net net' : Network SG}
  {e : NetEvent} {o : Outcome SG}

/-- A move of node `i` is a reaction of its process. -/
theorem move_cases {i : ℕ} (pe : Event SG)
    (h : net.move bls ep i pe = some (net', o)) :
    ∃ p, i < ep.publicKeys.length ∧
      (net.procs i).react bls (ep.node bls i) pe = some (p, o) ∧
      net' = ⟨Function.update net.procs i p, net.sent ++ o.broadcast⟩ := by
  rw [Network.move] at h
  split at h
  · rename_i hi
    cases hp : (net.procs i).react bls (ep.node bls i) pe with
    | none => rw [hp] at h; exact nomatch h
    | some r =>
        rw [hp] at h
        obtain ⟨rfl, rfl⟩ := Prod.mk.inj (Option.some.inj h)
        exact ⟨r.1, hi, rfl, rfl⟩
  · exact nomatch h

/-- A step of the network is a trigger or a step of one node. -/
theorem net_cases (h : net.react bls ep e = some (net', o)) :
    (e = .triggers ∧ net' = ⟨net.procs, net.sent ++ [setupTrigger SG]⟩) ∨
    ∃ i pe p, e.IsOf net.sent i pe ∧ i < ep.publicKeys.length ∧
      (net.procs i).react bls (ep.node bls i) pe = some (p, o) ∧
      net' = ⟨Function.update net.procs i p, net.sent ++ o.broadcast⟩ := by
  cases e with
  | triggers =>
      obtain ⟨rfl, -⟩ := Prod.mk.inj (Option.some.inj h)
      exact Or.inl ⟨rfl, rfl⟩
  | delivers i k =>
      rw [Network.react] at h
      cases hk : net.sent[k]? with
      | none => rw [hk] at h; exact nomatch h
      | some msg =>
          rw [hk] at h
          obtain ⟨p, hmove⟩ := move_cases _ h
          exact Or.inr ⟨i, .receives (some msg), p,
            ⟨msg, List.mem_of_getElem? hk, rfl, k, rfl⟩, hmove⟩
  | handles i k =>
      obtain ⟨p, hmove⟩ := move_cases (.handles k) h
      exact Or.inr ⟨i, .handles k, p, rfl, hmove⟩
  | closes i =>
      obtain ⟨p, hmove⟩ := move_cases .closes h
      exact Or.inr ⟨i, .closes, p, rfl, hmove⟩
  | returns i =>
      obtain ⟨p, hmove⟩ := move_cases .returns h
      exact Or.inr ⟨i, .returns, p, rfl, hmove⟩

/-! ### Only honest messages -/

/-- What was sent, and what waits in a handler, is honest. -/
structure Authentic (bls : Bls PK SG SK) (ep : Epoch PK SK)
    (net : Network SG) : Prop where
  sent : ∀ msg ∈ net.sent, ep.Honest bls msg
  handlers : ∀ i, ∀ bytes ∈ (net.procs i).handlers,
    ∃ msg, bytes = some msg ∧ ep.Honest bls msg

/-- A trigger in the handler of a node of the epoch is answered. -/
theorem handle_trigger {i : ℕ} (st : Setup SG)
    (hi : i < ep.publicKeys.length) :
    st.handle bls (ep.node bls i) (some (setupTrigger SG))
      = (st, .answered (ep.parts bls i)) := by
  show (match (ep.node bls i).answer bls with
    | .error p => (st, Outcome.panicked p)
    | .ok out => (st, .answered out)) = _
  rw [answer_eq bls hi]

/-- The answer of another one is added. -/
theorem handle_answer (bls : Bls PK SG SK) {i j : ℕ} (st : Setup SG)
    (hi : i < ep.publicKeys.length) (hj : j < ep.publicKeys.length) :
    ∃ verified, st.handle bls (ep.node bls i) (some (ep.parts bls j))
      = (st.aggregate (ep.keyPart bls j i) j, .aggregated j verified) := by
  obtain ⟨pk, a, -, -, hok⟩ := handleParts_of_index bls st
    (index_parts bls (j := j) hi)
    (⟨Int.natCast_nonneg j, hj⟩ : InRange (ep.node bls i).publicKeys _)
  have heq := handle_parts bls (ep.node bls i) st
    (rfl : (ep.parts bls j).msgType = .blsSetupParts)
  rw [hok] at heq
  exact ⟨_, heq⟩

/-- A node of the epoch broadcasts its own parts and nothing else. -/
theorem react_broadcast {i : ℕ} {pe : Event SG} {p p' : Process SG}
    (hi : i < ep.publicKeys.length)
    (h : p.react bls (ep.node bls i) pe = some (p', o)) :
    ∀ out ∈ o.broadcast, out = ep.parts bls i := by
  intro out hout
  cases o with
  | answered out' =>
      rcases react_cases h with ⟨_, -, ho, -⟩ | ⟨_, _, -, -, ho, -⟩ |
        ⟨-, ho, -⟩ | ⟨-, ho, -⟩
      · exact nomatch ho
      · have hanswer := handle_answered bls p.setup ho.symm
        rw [answer_eq bls hi] at hanswer
        rw [List.mem_singleton.mp hout, ← Except.ok.inj hanswer]
      · exact nomatch ho
      · exact nomatch ho
  | _ => exact nomatch hout

/-- Honest nodes keep the topic honest. -/
theorem authentic_step (ha : Authentic bls ep net)
    (h : net.react bls ep e = some (net', o)) : Authentic bls ep net' := by
  rcases net_cases h with ⟨-, rfl⟩ | ⟨i, pe, p, hof, hi, hp, rfl⟩
  · refine ⟨?_, ha.handlers⟩
    intro msg hmsg
    rcases List.mem_append.mp hmsg with hold | hnew
    · exact ha.sent msg hold
    · exact Or.inl (List.mem_singleton.mp hnew)
  · have hbuild :
        (∀ bytes ∈ p.handlers, ∃ msg, bytes = some msg ∧ ep.Honest bls msg) →
        Authentic bls ep
          ⟨Function.update net.procs i p, net.sent ++ o.broadcast⟩ := by
      intro hown
      refine ⟨?_, ?_⟩
      · intro msg hmsg
        rcases List.mem_append.mp hmsg with hold | hnew
        · exact ha.sent msg hold
        · exact Or.inr ⟨i, hi, react_broadcast hi hp msg hnew⟩
      · exact (Function.forall_update_iff net.procs (fun _ q =>
          ∀ bytes ∈ q.handlers, ∃ msg, bytes = some msg ∧
            ep.Honest bls msg)).mpr ⟨hown, fun j _ => ha.handlers j⟩
    rcases react_cases hp with ⟨bytes, rfl, -, rfl⟩ | ⟨k, bytes, -, -, -, rfl⟩ |
      ⟨-, -, rfl⟩ | ⟨-, -, -, -, rfl⟩
    · refine hbuild ?_
      intro b hb
      rcases List.mem_append.mp hb with hold | hnew
      · exact ha.handlers i b hold
      · obtain ⟨msg, hmsg, hb', -⟩ := hof
        rw [List.mem_singleton.mp hnew]
        exact ⟨msg, hb', ha.sent msg hmsg⟩
    · refine hbuild ?_
      intro b hb
      exact ha.handlers i b (List.mem_of_mem_eraseIdx hb)
    · exact hbuild (ha.handlers i)
    · exact hbuild (ha.handlers i)

/-! ### What is added up -/

omit [AddCommGroup SG] in
/-- A step that adds no part counts as no answer. -/
theorem isAnswer_of_not_aggregated {o : Outcome SG} (e : NetEvent)
    (hno : ∀ source verified, o ≠ .aggregated source verified) (i j : ℕ) :
    isAnswer i j (e, o) = false := by
  cases e with
  | handles i' k =>
      cases o with
      | aggregated source verified => exact absurd rfl (hno _ _)
      | _ => rfl
  | _ => rfl

omit [AddCommGroup SG] in
/-- Neither does a step of another node. -/
theorem isAnswer_of_ne {sent : List (MessageBlsSetup SG)} {e : NetEvent}
    {o : Outcome SG} {i i' j : ℕ} {pe : Event SG} (hof : e.IsOf sent i' pe)
    (hne : i' ≠ i) : isAnswer i j (e, o) = false := by
  cases e with
  | handles i'' k =>
      have hi : i'' = i' := by
        cases pe with
        | handles k' => exact (NetEvent.handles.inj hof).1
        | receives bytes =>
            obtain ⟨-, -, -, k', hk'⟩ := hof
            exact nomatch hk'
        | closes => exact nomatch hof
        | returns => exact nomatch hof
      cases o with
      | aggregated source verified =>
          show (decide (i'' = i) && _) = false
          rw [hi, decide_eq_false hne]
          rfl
      | _ => rfl
  | _ => rfl

/-- **ONE STEP OF THE NETWORK, SEEN BY NODE `i`**: either nothing was added at
    node `i`, or the part of one node `j₀` was. -/
theorem node_step (ha : Authentic bls ep net)
    (h : net.react bls ep e = some (net', o)) (i : ℕ) :
    ((net'.procs i).setup = (net.procs i).setup ∧
      ∀ j, isAnswer i j (e, o) = false) ∨
    ∃ k j₀, j₀ < ep.publicKeys.length ∧ e = .handles i k ∧
      (net.procs i).handlers[k]? = some (some (ep.parts bls j₀)) ∧
      (net'.procs i).setup
        = (net.procs i).setup.aggregate (ep.keyPart bls j₀ i) j₀ ∧
      ∀ j, isAnswer i j (e, o) = decide (j₀ = j) := by
  rcases net_cases h with ⟨rfl, rfl⟩ | ⟨i', pe, p, hof, hi', hp, rfl⟩
  · exact Or.inl ⟨rfl, fun _ => rfl⟩
  · by_cases hii : i = i'
    · subst hii
      show ((Function.update net.procs i p i).setup = _ ∧ _) ∨
        ∃ k j₀, _ ∧ _ ∧ _ ∧ (Function.update net.procs i p i).setup = _ ∧ _
      rw [Function.update_self]
      rcases react_setup hp with ⟨hsame, hno⟩ |
        ⟨k, msg, part, verified, rfl, hk, htype, -, hpart, hset, rfl, -⟩
      · exact Or.inl ⟨hsame, isAnswer_of_not_aggregated e hno i⟩
      · have he : e = .handles i k := hof
        subst he
        obtain ⟨msg', hmsg', hhonest⟩ :=
          ha.handlers i _ (List.mem_of_getElem? hk)
        obtain rfl := Option.some.inj hmsg'
        -- the trigger has no parts, so it is an answer that was handled
        rcases hhonest with rfl | ⟨j₀, hj₀, rfl⟩
        · exact nomatch htype
        · have hpart' : part = ep.keyPart bls j₀ i :=
            Except.ok.inj (hpart.symm.trans (index_parts bls hi'))
          refine Or.inr ⟨k, j₀, hj₀, rfl, hk, ?_, ?_⟩
          · rw [hset, hpart']
            rfl
          · intro j
            show (decide (i = i) && decide ((j₀ : ℤ) = j)) = decide (j₀ = j)
            simp
    · refine Or.inl ⟨?_, ?_⟩
      · show (Function.update net.procs i' p i).setup = _
        rw [Function.update_of_ne hii]
      · exact fun j => isAnswer_of_ne hof (Ne.symm hii)

/-- What the variables of node `i` hold: the parts added so far, a set bit for
    each node not yet heard, and `cancel` called when no bit is left. -/
structure Summed (bls : Bls PK SG SK) (ep : Epoch PK SK) (i : ℕ)
    (tr : List (NetEvent × Outcome SG)) (st : Setup SG) : Prop where
  key : st.membershipKey = ∑ j ∈ Finset.range ep.publicKeys.length,
    answers i j tr • ep.keyPart bls j i
  bits : ∀ j < ep.publicKeys.length,
    st.receivedMembershipKeyMask.testBit j = decide (answers i j tr = 0)
  done : st.cancelled = true → st.receivedMembershipKeyMask = 0

/-- The empty sum. -/
theorem summed_start (bls : Bls PK SG SK) (ep : Epoch PK SK) (i : ℕ) :
    Summed bls ep i [] ((Network.start ep).procs i).setup := by
  refine ⟨?_, ?_, fun h => nomatch h⟩
  · rw [Finset.sum_eq_zero]
    · rfl
    · intro j _
      exact zero_smul ℕ _
  · intro j hj
    show (Process.start ep.publicKeys.length
      : Process SG).setup.receivedMembershipKeyMask.testBit j = _
    rw [start_mask, testBit_initialMask hj]
    rfl

/-- One step adds one part, or none. -/
theorem summed_step {tr : List (NetEvent × Outcome SG)} {i : ℕ}
    (ha : Authentic bls ep net) (hs : Summed bls ep i tr (net.procs i).setup)
    (h : net.react bls ep e = some (net', o)) :
    Summed bls ep i (tr ++ [(e, o)]) (net'.procs i).setup := by
  rcases node_step ha h i with ⟨hsame, hno⟩ | ⟨k, j₀, hj₀, -, -, hset, hyes⟩
  · have hcount : ∀ j, answers i j (tr ++ [(e, o)]) = answers i j tr := by
      intro j
      rw [answers_append, hno j, if_neg Bool.false_ne_true, Nat.add_zero]
    rw [hsame]
    refine ⟨?_, ?_, hs.done⟩
    · simp only [hcount]
      exact hs.key
    · simp only [hcount]
      exact hs.bits
  · have hcount : ∀ j, answers i j (tr ++ [(e, o)])
        = answers i j tr + if j₀ = j then 1 else 0 := by
      intro j
      rw [answers_append, hyes j]
      simp only [decide_eq_true_iff]
    rw [hset]
    refine ⟨?_, ?_, ?_⟩
    · show (net.procs i).setup.membershipKey + ep.keyPart bls j₀ i = _
      simp only [hcount, add_smul, ite_smul, one_smul, zero_smul,
        Finset.sum_add_distrib]
      rw [Finset.sum_ite_eq, if_pos (Finset.mem_range.mpr hj₀), hs.key]
    · intro j hj
      show (clearBit _ j₀).testBit j = _
      rw [testBit_clearBit, hs.bits j hj, hcount]
      by_cases hjj : j₀ = j
      · simp [hjj]
      · simp [hjj]
    · exact aggregate_done hs.done _ _

/-- Along every run the variables of every node are known. -/
theorem summed_run {tr : List (NetEvent × Outcome SG)}
    (h : Run (Fires (Network.react bls ep)) (Network.start ep) tr net) :
    Authentic bls ep net ∧ ∀ i, Summed bls ep i tr (net.procs i).setup := by
  refine Run.traced (P := fun tr net => Authentic bls ep net ∧
    ∀ i, Summed bls ep i tr (net.procs i).setup) h ⟨?_, ?_⟩ ?_
  · exact ⟨fun _ hmsg => (nomatch hmsg), fun _ _ hb => (nomatch hb)⟩
  · exact summed_start bls ep
  · rintro tr net ⟨e, o⟩ net' ⟨ha, hs⟩ hstep
    exact ⟨authentic_step ha hstep, fun i => summed_step ha (hs i) hstep⟩

/-! ### Each source once -/

/-- The events at which no answer is added a second time: a handler that runs
    before the key is given back either has no answer, or the answer of a
    source not yet ticked off. -/
def Network.fresh (net : Network SG) : NetEvent → Bool
  | .handles i k =>
      match (net.procs i).handlers[k]? with
      | some (some msg) => decide (msg.msgType ≠ .blsSetupParts)
          || (net.procs i).result.isSome
          || (net.procs i).setup.receivedMembershipKeyMask.testBit
              msg.source.toNat
      | _ => true
  | _ => true

/-- Runs without a repeated answer. -/
def OnceRun (bls : Bls PK SG SK) (ep : Epoch PK SK)
    (tr : List (NetEvent × Outcome SG)) (net : Network SG) : Prop :=
  Run (Guarded (Fires (Network.react bls ep))
    (fun net l => net.fresh l.1 = true)) (Network.start ep) tr net

/-- A call that has not given its key back had not done so before. -/
theorem result_step (i : ℕ) (h : net.react bls ep e = some (net', o))
    (hnone : (net'.procs i).result = none) : (net.procs i).result = none := by
  rcases net_cases h with ⟨-, rfl⟩ | ⟨i', pe, p, -, -, hp, rfl⟩
  · exact hnone
  · by_cases hii : i = i'
    · subst hii
      have hnone' : (Function.update net.procs i p i).result = none := hnone
      rw [Function.update_self] at hnone'
      rcases react_cases hp with ⟨_, -, -, rfl⟩ | ⟨_, _, -, -, -, rfl⟩ |
        ⟨-, -, rfl⟩ | ⟨-, -, -, -, rfl⟩
      · exact hnone'
      · exact hnone'
      · exact hnone'
      · exact nomatch hnone'
    · have hnone' : (Function.update net.procs i' p i).result = none := hnone
      rw [Function.update_of_ne hii] at hnone'
      exact hnone'

/-- Along such a run no node has added an answer twice before it gave its key
    back. -/
theorem onceRun_answers {tr : List (NetEvent × Outcome SG)}
    (h : OnceRun bls ep tr net) :
    ∀ i, (net.procs i).result = none →
      ∀ j < ep.publicKeys.length, answers i j tr ≤ 1 := by
  refine (Run.traced (P := fun tr net =>
    (Authentic bls ep net ∧ ∀ i, Summed bls ep i tr (net.procs i).setup) ∧
    ∀ i, (net.procs i).result = none →
      ∀ j < ep.publicKeys.length, answers i j tr ≤ 1) h
    ⟨summed_run Run.refl, fun _ _ _ _ => Nat.zero_le 1⟩ ?_).2
  rintro tr net ⟨e, o⟩ net' ⟨⟨ha, hs⟩, honce⟩ ⟨hstep, hfresh⟩
  refine ⟨⟨authentic_step ha hstep, fun i => summed_step ha (hs i) hstep⟩, ?_⟩
  intro i hnone' j hj
  have hnone := result_step i hstep hnone'
  rw [answers_append]
  rcases node_step ha hstep i with ⟨-, hno⟩ | ⟨k, j₀, hj₀, rfl, hk, -, hyes⟩
  · rw [hno j, if_neg Bool.false_ne_true]
    exact honce i hnone j hj
  · rw [hyes j]
    by_cases hjj : j₀ = j
    · -- the bit of the source was still set, so nothing of it was added
      have hset : (net.procs i).setup.receivedMembershipKeyMask.testBit j₀
          = true := by
        have hf : Network.fresh net (.handles i k) = true := hfresh
        rw [Network.fresh, hk] at hf
        simpa [hnone, Epoch.parts] using hf
      rw [(hs i).bits j₀ hj₀, decide_eq_true_iff] at hset
      rw [← hjj, hset, decide_eq_true rfl, if_pos rfl]
    · rw [decide_eq_false hjj, if_neg Bool.false_ne_true]
      exact honce i hnone j hj

/-- **THE KEY COUNTS EVERY ANSWER THAT WAS HANDLED**: when a setup ends because
    every source was received, its key is the sum of all parts handled, a
    part being counted as often as its answer was; and in every run without
    a repeated answer each source is counted once. -/
theorem membershipKey_counts_answers :
    (∀ tr net net' i key,
      Run (Fires (Network.react bls ep)) (Network.start ep) tr net →
      Fires (Network.react bls ep) net (.returns i, .returned key) net' →
      (net.procs i).setup.cancelled = true →
      key = ∑ j ∈ Finset.range ep.publicKeys.length,
        answers i j tr • ep.keyPart bls j i ∧
      ∀ j < ep.publicKeys.length, 1 ≤ answers i j tr) ∧
    (∀ tr net net' i key, OnceRun bls ep tr net →
      Fires (Network.react bls ep) net (.returns i, .returned key) net' →
      (net.procs i).setup.cancelled = true →
      key = ∑ j ∈ Finset.range ep.publicKeys.length, ep.keyPart bls j i) := by
  have hall : ∀ tr net net' i key,
      Run (Fires (Network.react bls ep)) (Network.start ep) tr net →
      Fires (Network.react bls ep) net (.returns i, .returned key) net' →
      (net.procs i).setup.cancelled = true →
      (net.procs i).result = none ∧
      key = ∑ j ∈ Finset.range ep.publicKeys.length,
        answers i j tr • ep.keyPart bls j i ∧
      ∀ j < ep.publicKeys.length, 1 ≤ answers i j tr := by
    intro tr net net' i key hrun hret hcancel
    have hs := (summed_run hrun).2 i
    have hmove : net.move bls ep i .returns
        = some (net', .returned key) := hret
    obtain ⟨p, -, hp, -⟩ := move_cases _ hmove
    rcases react_cases hp with ⟨_, h, -⟩ | ⟨_, _, h, -⟩ | ⟨h, -⟩ |
      ⟨-, hkey, hnone, -⟩
    · exact nomatch h
    · exact nomatch h
    · exact nomatch h
    · refine ⟨hnone, (Outcome.returned.inj hkey).trans hs.key, ?_⟩
      intro j hj
      -- the mask is zero, so the bit of `j` was cleared by an answer of `j`
      have hbit := hs.bits j hj
      rw [hs.done hcancel] at hbit
      have hzero : decide (answers i j tr = 0) = false :=
        hbit.symm.trans (Nat.zero_testBit j)
      have hne := of_decide_eq_false hzero
      omega
  refine ⟨?_, ?_⟩
  · intro tr net net' i key hrun hret hcancel
    exact (hall tr net net' i key hrun hret hcancel).2
  · intro tr net net' i key hrun hret hcancel
    obtain ⟨hnone, hkey, hpos⟩ :=
      hall tr net net' i key (Run.of_guarded hrun) hret hcancel
    rw [hkey]
    refine Finset.sum_congr rfl ?_
    intro j hj
    have hj' := Finset.mem_range.mp hj
    have hone : answers i j tr = 1 :=
      Nat.le_antisymm (onceRun_answers hrun i hnone j hj') (hpos j hj')
    rw [hone, one_smul]

end Honest

/-! ## Two nodes -/

/-- An epoch of two nodes with private keys 2 and 3. -/
def sampleEpoch : Epoch ℤ ℤ where
  publicKeys := [2, 3]
  epochPublicKey := 5
  privKey i := [2, 3].getD i 0

/-- Node 1 is about to give this key back, every source being received. -/
def Returns (key : ℤ) (net : Network ℤ) : Prop :=
  (net.procs 1).setup.cancelled = true ∧
  (Network.react intBls sampleEpoch net (.returns 1)).map Prod.snd
    = some (.returned key)

instance (key : ℤ) (net : Network ℤ) : Decidable (Returns key net) :=
  inferInstanceAs (Decidable (_ ∧ _))

/-- The node returns the key where it can. -/
theorem Returns.fires {key : ℤ} {net : Network ℤ} (h : Returns key net) :
    ∃ net', Fires (Network.react intBls sampleEpoch) net
      (.returns 1, .returned key) net' := by
  obtain ⟨⟨net', o⟩, hreact, ho⟩ := Option.map_eq_some_iff.mp h.2
  obtain rfl : o = .returned key := ho
  exact ⟨net', hreact⟩

/-- One trigger, answered once by each node: node 1 gets the sum of the two
    parts. -/
theorem membershipKey_counts_sample :
    ∃ tr net, OnceRun intBls sampleEpoch tr net ∧ Returns 10000 net ∧
      (10000 : ℤ) = ∑ j ∈ Finset.range sampleEpoch.publicKeys.length,
        sampleEpoch.keyPart intBls j 1 := by
  obtain ⟨tr, net, hrun, hret⟩ := exists_run (fun _ net => Returns 10000 net)
    (show (execute (restrict Network.fresh (Network.react intBls sampleEpoch))
      (Network.start sampleEpoch)
      [.triggers, .delivers 0 0, .handles 0 0, .delivers 1 0, .handles 1 0,
        .delivers 1 1, .handles 1 0, .delivers 1 2, .handles 1 0]).any _
        = true by decide +kernel)
  obtain ⟨net', hfires⟩ := hret.fires
  refine ⟨tr, net, restrict_run hrun, hret, ?_⟩
  exact membershipKey_counts_answers.2 tr net net' 1 10000
    (restrict_run hrun) hfires hret.1

/-- Two triggers reach node 0, which answers twice; node 1 adds both answers,
    and ends with a key that is not the sum. -/
theorem repeated_answer_corrupts_key :
    ∃ tr net net',
      Run (Fires (Network.react intBls sampleEpoch))
        (Network.start sampleEpoch) tr net ∧
      (net.procs 1).setup.cancelled = true ∧
      Fires (Network.react intBls sampleEpoch) net
        (.returns 1, .returned 14000) net' ∧
      ∑ j ∈ Finset.range sampleEpoch.publicKeys.length,
        sampleEpoch.keyPart intBls j 1 = 10000 := by
  obtain ⟨tr, net, hrun, hret⟩ := exists_run (fun _ net => Returns 14000 net)
    (show (execute (Network.react intBls sampleEpoch)
      (Network.start sampleEpoch)
      [.triggers, .triggers, .delivers 0 0, .delivers 0 1, .handles 0 0,
        .handles 0 0, .delivers 1 0, .handles 1 0, .delivers 1 2,
        .handles 1 0, .delivers 1 3, .handles 1 0, .delivers 1 4,
        .handles 1 0]).any _ = true by decide +kernel)
  obtain ⟨net', hfires⟩ := hret.fires
  exact ⟨tr, net, net', hrun, hret.1, hfires, by decide +kernel⟩

/-! ## One node and a liar -/

/-- An answer in the name of a node, with anything for its parts. -/
def partsFrom (source : ℤ) (parts : List ℤ) : MessageBlsSetup ℤ :=
  ⟨source, .blsSetupParts, parts⟩

/-- The handler that runs has a valid part, or no message. -/
def handlesValid (p : Process ℤ) : Event ℤ → Bool
  | .handles k =>
      match p.handlers[k]? with
      | some (some msg) => validPart intBls (sampleEpoch.node intBls 1) msg
      | _ => true
  | _ => true

/-- A zero part of node 0, which was received before, changes nothing; and
    valid parts of both nodes complete the setup of node 1. -/
theorem bad_parts_harmless_sample :
    Unharmed intBls (sampleEpoch.node intBls 1) ⟨4000, 2, false⟩
      (partsFrom 0 [0, 0]) ∧
    ∃ tr p, CleanRun intBls (sampleEpoch.node intBls 1) tr p ∧
      p.setup.cancelled = true ∧ ∃ l ∈ tr, l.2 = .aggregated (0 : ℕ) true := by
  refine ⟨?_, ?_⟩
  · exact (bad_parts_harmless_iff.1 _ _ rfl (by decide +kernel)).mpr
      ⟨by decide, by decide, by decide⟩
  · obtain ⟨tr, p, hrun, hcancel⟩ := exists_run
      (fun _ (p : Process ℤ) => p.setup.cancelled = true)
      (show (execute (restrict handlesValid
        (Process.react intBls (sampleEpoch.node intBls 1)))
        (Process.start 2)
        [.receives (some (partsFrom 0 [2000, 4000])),
          .receives (some (partsFrom 1 [3000, 6000])),
          .handles 0, .handles 0]).any _ = true by decide +kernel)
    have hclean : CleanRun intBls (sampleEpoch.node intBls 1) tr p := by
      refine (restrict_run hrun).mono ?_
      rintro p ⟨e, o⟩ p' ⟨hfires, htest⟩
      refine ⟨hfires, ?_⟩
      intro k msg he hk _
      have he' : e = .handles k := he
      subst he'
      simp only [handlesValid, hk] at htest
      exact Or.inl htest
    exact ⟨tr, p, hclean, hcancel,
      bad_parts_harmless_iff.2 tr p hclean hcancel 0 (by decide)⟩

/-- A source that is not registered and a list of parts that is too short kill
    the process; two forged parts complete a setup in which nothing was
    verified. -/
theorem bad_parts_break_setup :
    (Setup.handle intBls (sampleEpoch.node intBls 1) ⟨0, 3, false⟩
      (some (partsFrom 2 [0, 0]))).2 = .panicked (.indexOutOfRange 2 2) ∧
    (Setup.handle intBls (sampleEpoch.node intBls 1) ⟨0, 3, false⟩
      (some (partsFrom 0 [0]))).2 = .panicked (.indexOutOfRange 1 1) ∧
    ∃ tr p, Run (Fires (Process.react intBls (sampleEpoch.node intBls 1)))
      (Process.start 2) tr p ∧ p.setup.cancelled = true ∧
      p.setup.membershipKey = 777 ∧
      ∀ l ∈ tr, ∀ source, l.2 ≠ .aggregated source true := by
  refine ⟨by decide +kernel, by decide +kernel, ?_⟩
  obtain ⟨tr, p, hrun, hcancel, hkey, hno⟩ := exists_run
    (fun tr (p : Process ℤ) => p.setup.cancelled = true ∧
      p.setup.membershipKey = 777 ∧
      ∀ l ∈ tr, l.2 = .started ∨ l.2 = .aggregated 0 false ∨
        l.2 = .aggregated 1 false)
    (show (execute (Process.react intBls (sampleEpoch.node intBls 1))
      (Process.start 2)
      [.receives (some (partsFrom 0 [0, 777])),
        .receives (some (partsFrom 1 [0, 0])),
        .handles 0, .handles 0]).any _ = true by decide +kernel)
  refine ⟨tr, p, hrun, hcancel, hkey, ?_⟩
  intro l hl source hagg
  rcases hno l hl with h | h | h
  · exact nomatch h.symm.trans hagg
  · exact nomatch h.symm.trans hagg
  · exact nomatch h.symm.trans hagg

end RelayerSetup
