import Relayer.BlsProofs
import Relayer.LeaderProofs
import Relayer.MessageProofs
import Relayer.TransitionProofs

/-! # One session of the consensus

    `consensus/session/session.go` and `tlc.go`: a session collects the
    Prepare signatures of its topic under one mutex, and announces their
    aggregate in a Prepared message when the threshold is reached.

    * `Session.verifyThresholdWitnesses` and `Session.verifyAckSignature` are
      the two checks;
    * `Loop.handle` is the message handler of `WaitForProtocolMsg` run as far
      as it gets, together with a `Verdict` that says on which branch it
      ended.  Everything the handler changes it changes between one `Lock`
      and its `Unlock`, so handlers of different goroutines do not overlap
      inside it; a mutex that a branch left locked stays locked;
    * `handle_session` says once what a handler can do to the session, and
      the accumulator invariant is derived from it. -/

namespace RelayerSession

open BitMask RelayerBls RelayerLeader RelayerMessage Transition

/-! ## Counting the signers of a mask -/

/-- `z.Bits()`: the little-endian machine words of a number. -/
def words (z : ℕ) : List ℕ := Nat.digits (2 ^ 64) z

/-- The inner loop of `Popcount`: `x &= x - 1` until nothing is left. -/
def clearLoop (x count : ℕ) : ℕ :=
  if x = 0 then count else clearLoop (x &&& (x - 1)) (count + 1)
termination_by x
decreasing_by
  have hle : x &&& (x - 1) ≤ x - 1 := Nat.and_le_right
  omega

/-- `Popcount`. -/
def popcount (z : ℕ) : ℕ :=
  (words z).foldl (fun count x => clearLoop x count) 0

/-- The inner loop adds the number of set bits of its word. -/
theorem clearLoop_eq (x : ℕ) :
    ∀ count, clearLoop x count = count + (bitsOf x).card := by
  induction x using Nat.strong_induction_on with
  | _ x ih =>
      intro count
      rw [clearLoop]
      by_cases hx : x = 0
      · rw [if_pos hx, hx, bitsOf_zero, Finset.card_empty, Nat.add_zero]
      · rw [if_neg hx]
        have hle : x &&& (x - 1) ≤ x - 1 := Nat.and_le_right
        rw [ih (x &&& (x - 1)) (by omega), card_bitsOf_land_pred hx]
        omega

/-- The outer loop, from any count so far. -/
theorem foldl_clearLoop_words (z : ℕ) :
    ∀ count, (words z).foldl (fun count x => clearLoop x count) count
      = count + (bitsOf z).card := by
  induction z using Nat.strong_induction_on with
  | _ z ih =>
      intro count
      by_cases hz : z = 0
      · rw [hz, words, Nat.digits_zero, List.foldl_nil, bitsOf_zero,
          Finset.card_empty, Nat.add_zero]
      · have hcut : z % 2 ^ 64 + 2 ^ 64 * (z / 2 ^ 64) = z :=
          Nat.mod_add_div z (2 ^ 64)
        have hlt : z / 2 ^ 64 < z := Nat.div_lt_self (by omega) (by norm_num)
        have hcard := card_bitsOf_add_two_pow_mul (k := 64) (z / 2 ^ 64)
          (Nat.mod_lt z (by norm_num))
        rw [hcut] at hcard
        rw [words, Nat.digits_def' (by norm_num) (by omega), List.foldl_cons]
        rw [show Nat.digits (2 ^ 64) (z / 2 ^ 64) = words (z / 2 ^ 64) from rfl,
          ih _ hlt, clearLoop_eq, hcard]
        omega

/-- `Popcount` counts the set bits. -/
theorem popcount_eq_card (z : ℕ) : popcount z = (bitsOf z).card := by
  rw [popcount, foldl_clearLoop_words, Nat.zero_add]

/-- `SetBit(z, i, 1)` of a clear bit. -/
theorem popcount_setBit {z i : ℕ} (hi : z.testBit i = false) :
    popcount (setBit z i) = popcount z + 1 := by
  have hnot : i ∉ bitsOf z := by rw [mem_bitsOf, hi]; decide
  rw [popcount_eq_card, popcount_eq_card, bitsOf_setBit,
    Finset.card_insert_of_notMem hnot]

/-- `x &= x - 1` on a machine word. -/
def clearLowest (x : UInt64) : UInt64 :=
  x &&& (x - 1)

/-- A round of the inner loop does not leave the word. -/
theorem toNat_clearLowest (x : UInt64) :
    (clearLowest x).toNat = x.toNat &&& (x.toNat - 1) := by
  rw [clearLowest, UInt64.toNat_and]
  by_cases hx : x = 0
  · rw [hx, UInt64.toNat_zero, Nat.zero_and, Nat.zero_and]
  · have hpos : 1 ≤ x := by
      have hne : x.toNat ≠ 0 := fun h => hx (UInt64.toNat_inj.mp h)
      rw [UInt64.le_iff_toNat_le, UInt64.toNat_one]
      omega
    rw [UInt64.toNat_sub_of_le _ _ hpos, UInt64.toNat_one]

/-- The inner loop on a machine word ends after as many rounds as the word has
    set bits. -/
theorem clearLowest_iterate_eq_zero (x : UInt64) (k : ℕ) :
    clearLowest^[k] x = 0 ↔ (bitsOf x.toNat).card ≤ k := by
  have hsemi : Function.Semiconj UInt64.toNat clearLowest
      (fun x => x &&& (x - 1)) := toNat_clearLowest
  rw [← iterate_land_pred_eq_zero, ← hsemi.iterate_right k x,
    ← UInt64.toNat_inj, UInt64.toNat_zero]

/-! ## The session and its checks -/

/-- `session.Session`; the topic is known by its name, the transport and the
    converter are the surroundings of the handler. -/
structure Session (PK SG SK : Type) where
  topic : String
  id : ℤ
  thresholdAck : ℤ
  thresholdWit : ℤ
  acks : ℤ
  publicKeys : List PK
  partSignature : SG
  partPublicKey : PK
  sigMask : ℕ
  privateKey : SK
  epochPublicKey : PK
  membershipKey : SG
  leader : PeerID

variable {PK SG SK : Type}

/-- `verifyThresholdWitnesses`: enough bits in the mask of the message, and a
    valid multisignature under the key that the message itself carries. -/
def Session.verifyThresholdWitnesses (bls : Bls PK SG SK)
    (s : Session PK SG SK) (msg : MessageWithSig PK SG) : Except String Unit :=
  if (popcount msg.mask : ℤ) < s.thresholdAck then
    .error ("not enough sigantures: " ++ toString (popcount msg.mask) ++ "("
      ++ String.ofList (Nat.toDigits 16 msg.mask) ++ ") < "
      ++ toString s.thresholdAck)
  else if bls.verifyMultisig msg.signature s.epochPublicKey msg.publicKey
      msg.toBody.marshal msg.mask then .ok ()
  else .error ("threshold signature mismatch for '"
    ++ msg.toBody.marshal ++ "'")

/-- `verifyAckSignature`: a multisignature of the one source, under the
    registered key of that source. -/
def Session.verifyAckSignature (bls : Bls PK SG SK) (s : Session PK SG SK)
    (msg : MessageWithSig PK SG) : Except Panic (Except String Unit) :=
  if msg.source < 0 then .error .negativeBitIndex
  else
    match index s.publicKeys msg.source with
    | .error p => .error p
    | .ok pk =>
        if bls.verifyMultisig msg.signature s.epochPublicKey pk
            msg.toBody.marshal (setBit 0 msg.source.toNat) then .ok (.ok ())
        else .ok (.error ("ACK signature mismatch for '"
          ++ msg.toBody.marshal ++ "'"))

/-- The witnesses pass if they are enough and their signature verifies. -/
theorem verifyThresholdWitnesses_ok_iff {bls : Bls PK SG SK}
    {s : Session PK SG SK} {msg : MessageWithSig PK SG} :
    s.verifyThresholdWitnesses bls msg = .ok () ↔
      s.thresholdAck ≤ popcount msg.mask ∧
      bls.verifyMultisig msg.signature s.epochPublicKey msg.publicKey
        msg.toBody.marshal msg.mask = true := by
  rw [Session.verifyThresholdWitnesses]
  by_cases hpop : (popcount msg.mask : ℤ) < s.thresholdAck
  · rw [if_pos hpop]
    constructor
    · intro h; exact nomatch h
    · intro h; omega
  · rw [if_neg hpop]
    by_cases hsig : bls.verifyMultisig msg.signature s.epochPublicKey
        msg.publicKey msg.toBody.marshal msg.mask = true
    · rw [if_pos hsig]
      exact ⟨fun _ => ⟨by omega, hsig⟩, fun _ => rfl⟩
    · rw [if_neg hsig]
      constructor
      · intro h; exact nomatch h
      · intro h; exact absurd h.2 hsig

/-- Whether an ack is accepted depends on the registered key of its source
    only. -/
theorem verifyAckSignature_of_index {bls : Bls PK SG SK}
    {s : Session PK SG SK} {msg : MessageWithSig PK SG} {pk : PK}
    (h : index s.publicKeys msg.source = .ok pk) :
    s.verifyAckSignature bls msg =
      if bls.verifyMultisig msg.signature s.epochPublicKey pk
          msg.toBody.marshal (setBit 0 msg.source.toNat) then .ok (.ok ())
      else .ok (.error ("ACK signature mismatch for '"
        ++ msg.toBody.marshal ++ "'")) := by
  have hsrc : ¬ msg.source < 0 := by
    have := (inRange_of_index_ok h).1
    omega
  rw [Session.verifyAckSignature, if_neg hsrc, h]

/-! ## The message handler -/

/-- A running `WaitForProtocolMsg`: the session, whether its mutex is locked,
    whether its context is done, and whether the other end of
    `consensusAgreed` still waits in its select. -/
structure Loop (PK SG SK : Type) where
  session : Session PK SG SK
  locked : Bool
  cancelled : Bool
  waiting : Bool

/-- The loop at its start. -/
def Loop.start (s : Session PK SG SK) : Loop PK SG SK :=
  ⟨s, false, false, true⟩

/-- How a handler ended, one verdict a branch of the source. -/
inductive Verdict (PK SG : Type) where
  /-- A runtime panic: the whole process dies. -/
  | panic (p : Panic)
  /-- `mutex.Lock()` does not return. -/
  | waitsForMutex
  /-- `consensusAgreed <- true` does not return, the mutex being held. -/
  | waitsForReceiver
  /-- The body names another topic. -/
  | notMine
  /-- No case for the message type. -/
  | noCase
  /-- Prepared: refused by `verifyThresholdWitnesses`. -/
  | thresholdFailed (err : String)
  /-- Prepared: verified, but the context was done already. -/
  | tooLate
  /-- Prepared: `true` was sent on `consensusAgreed`. -/
  | agreed
  /-- Prepare: threshold reached before, or source counted before. -/
  | dropped
  /-- Prepare: refused by `verifyAckSignature`. -/
  | ackMismatch (err : String)
  /-- Prepare: counted, the threshold not yet reached. -/
  | acked
  /-- Prepare: counted, and the aggregate refused by the session's own
      check. -/
  | witnessFailed (out : MessageWithSig PK SG) (err : String)
  /-- Prepare: counted, and the Prepared message broadcast. -/
  | witnessed (out : MessageWithSig PK SG)
  /-- Announce: signed, and the Prepare message broadcast. -/
  | announced (out : MessageWithSig PK SG)
  /-- Not a message: the surroundings moved. -/
  | environment
  deriving DecidableEq

/-- Did the handler die? -/
def Verdict.isPanic : Verdict PK SG → Bool
  | .panic _ => true
  | _ => false

/-- Did the handler run to its end? -/
def Verdict.completes : Verdict PK SG → Bool
  | .panic _ | .waitsForMutex | .waitsForReceiver => false
  | _ => true

/-- Was the message counted as an ack? -/
def Verdict.counts : Verdict PK SG → Bool
  | .acked | .witnessFailed _ _ | .witnessed _ => true
  | _ => false

/-- Did one of the two signature checks refuse? -/
def Verdict.rejects : Verdict PK SG → Bool
  | .thresholdFailed _ | .ackMismatch _ | .witnessFailed _ _ => true
  | _ => false

/-- The Prepared message the handler put together. -/
def Verdict.built : Verdict PK SG → Option (MessageWithSig PK SG)
  | .witnessFailed out _ | .witnessed out => some out
  | _ => none

/-- The message the handler broadcast. -/
def Verdict.broadcast : Verdict PK SG → Option (MessageWithSig PK SG)
  | .witnessed out | .announced out => some out
  | _ => none

/-- The Prepared case: the check runs outside the mutex. -/
def Loop.handlePrepared (bls : Bls PK SG SK) (st : Loop PK SG SK)
    (msg : MessageWithSig PK SG) : Loop PK SG SK × Verdict PK SG :=
  match st.session.verifyThresholdWitnesses bls msg with
  | .error err => (st, .thresholdFailed err)
  | .ok () =>
      if st.locked then (st, .waitsForMutex)
      else if st.cancelled then (st, .tooLate)
      else if st.waiting then
        ({ st with cancelled := true, waiting := false }, .agreed)
      else ({ st with locked := true }, .waitsForReceiver)

/-- The Announce case: sign the body with the membership key. -/
def Loop.handleAnnounce (bls : Bls PK SG SK) (st : Loop PK SG SK)
    (msg : MessageWithSig PK SG) : Loop PK SG SK × Verdict PK SG :=
  let s := st.session
  (st, .announced
    { source := s.id
      msgType := .prepare
      bridgeEventHash := msg.bridgeEventHash
      signature := bls.multisign s.privateKey msg.toBody.marshal
        s.epochPublicKey s.membershipKey
      mask := 0
      publicKey := bls.emptyPublicKey })

section Aggregation

variable [Add PK] [Add SG]

/-- The session after an ack was counted: mask, number, and both
    aggregates. -/
def Session.countAck (s : Session PK SG SK) (msg : MessageWithSig PK SG)
    (pk : PK) : Session PK SG SK :=
  { s with
    sigMask := setBit s.sigMask msg.source.toNat
    acks := s.acks + 1
    partSignature := s.partSignature + msg.signature
    partPublicKey := s.partPublicKey + pk }

/-- The Prepared message of a session: what it has collected. -/
def Session.outmsg (s : Session PK SG SK) (msg : MessageWithSig PK SG) :
    MessageWithSig PK SG where
  source := s.id
  msgType := .prepared
  bridgeEventHash := msg.bridgeEventHash
  signature := s.partSignature
  mask := s.sigMask
  publicKey := s.partPublicKey

/-- What follows a verified ack: count it, and announce the aggregate when
    the threshold is reached and the session accepts it itself.  The refusal
    returns without unlocking. -/
def Loop.acceptAck (bls : Bls PK SG SK) (st : Loop PK SG SK)
    (msg : MessageWithSig PK SG) (pk : PK) : Loop PK SG SK × Verdict PK SG :=
  let s := st.session.countAck msg pk
  if s.acks ≥ s.thresholdAck then
    match s.verifyThresholdWitnesses bls (s.outmsg msg) with
    | .error err =>
        ({ st with session := s, locked := true },
          .witnessFailed (s.outmsg msg) err)
    | .ok () => ({ st with session := s }, .witnessed (s.outmsg msg))
  else ({ st with session := s }, .acked)

/-- The Prepare case.  A mismatch returns without unlocking. -/
def Loop.handlePrepare (bls : Bls PK SG SK) (st : Loop PK SG SK)
    (msg : MessageWithSig PK SG) : Loop PK SG SK × Verdict PK SG :=
  let s := st.session
  if st.locked then (st, .waitsForMutex)
  else if s.acks ≥ s.thresholdAck then (st, .dropped)
  else
    match bit s.sigMask msg.source with
    | .error p => ({ st with locked := true }, .panic p)
    | .ok true => (st, .dropped)
    | .ok false =>
        match s.verifyAckSignature bls msg with
        | .error p => ({ st with locked := true }, .panic p)
        | .ok (.error err) => ({ st with locked := true }, .ackMismatch err)
        | .ok (.ok ()) =>
            match index s.publicKeys msg.source with
            | .error p => ({ st with locked := true }, .panic p)
            | .ok pk => st.acceptAck bls msg pk

/-- The handler of one decoded message. -/
def Loop.handle (bls : Bls PK SG SK) (st : Loop PK SG SK)
    (msg : MessageWithSig PK SG) : Loop PK SG SK × Verdict PK SG :=
  if msg.bridgeEventHash ≠ st.session.topic then (st, .notMine)
  else
    match msg.msgType with
    | .prepared => st.handlePrepared bls msg
    | .prepare => st.handlePrepare bls msg
    | .announce => st.handleAnnounce bls msg
    | .other _ => (st, .noCase)

/-- What can happen to a running session: a message is handled, the receiver
    of the verdict leaves its select, or the context ends. -/
inductive Event (PK SG : Type) where
  | received (msg : MessageWithSig PK SG)
  | receiverLeft
  | contextDone

/-- One event. -/
def Loop.react (bls : Bls PK SG SK) (st : Loop PK SG SK) :
    Event PK SG → Loop PK SG SK × Verdict PK SG
  | .received msg => st.handle bls msg
  | .receiverLeft => ({ st with waiting := false }, .environment)
  | .contextDone => ({ st with cancelled := true }, .environment)

/-- The transition system of a session, labelled with events and verdicts; a
    panic ends the run. -/
def Step (bls : Bls PK SG SK) (st : Loop PK SG SK)
    (l : Event PK SG × Verdict PK SG) (st' : Loop PK SG SK) : Prop :=
  st.react bls l.1 = (st', l.2) ∧ l.2.isPanic = false

/-! ## What a handler can do to the session -/

variable {bls : Bls PK SG SK} {st : Loop PK SG SK}
  {msg : MessageWithSig PK SG} {pk : PK}

/-- The guards a Prepare message passes before it is counted. -/
structure Accepts (bls : Bls PK SG SK) (st : Loop PK SG SK)
    (msg : MessageWithSig PK SG) (pk : PK) : Prop where
  unlocked : st.locked = false
  mine : msg.bridgeEventHash = st.session.topic
  prepare : msg.msgType = .prepare
  below : st.session.acks < st.session.thresholdAck
  fresh : st.session.sigMask.testBit msg.source.toNat = false
  key : index st.session.publicKeys msg.source = .ok pk
  verified : st.session.verifyAckSignature bls msg = .ok (.ok ())

/-- A message that passes the guards is counted. -/
theorem handle_of_accepts (h : Accepts bls st msg pk) :
    st.handle bls msg = st.acceptAck bls msg pk := by
  have hsrc : 0 ≤ msg.source := (inRange_of_index_ok h.key).1
  rw [Loop.handle, if_neg (not_not.mpr h.mine), h.prepare]
  show st.handlePrepare bls msg = _
  have hbelow : ¬ st.session.acks ≥ st.session.thresholdAck := by
    have := h.below
    omega
  simp only [Loop.handlePrepare, h.unlocked, if_neg hbelow, bit_of_nonneg hsrc,
    h.fresh, h.verified, h.key, Bool.false_eq_true, if_false]

/-- **ONE HANDLER, ONE CHANGE**: either the session is untouched and nothing
    was counted, or the message passed every guard. -/
theorem handle_session (bls : Bls PK SG SK) (st : Loop PK SG SK)
    (msg : MessageWithSig PK SG) :
    ((st.handle bls msg).1.session = st.session ∧
      (st.handle bls msg).2.counts = false) ∨
    ∃ pk, Accepts bls st msg pk := by
  rw [Loop.handle]
  by_cases hmine : msg.bridgeEventHash = st.session.topic
  · rw [if_neg (not_not.mpr hmine)]
    cases htype : msg.msgType with
    | announce => exact Or.inl ⟨rfl, rfl⟩
    | other n => exact Or.inl ⟨rfl, rfl⟩
    | prepared =>
        refine Or.inl ?_
        show (st.handlePrepared bls msg).1.session = st.session ∧
          (st.handlePrepared bls msg).2.counts = false
        rw [Loop.handlePrepared]
        cases st.session.verifyThresholdWitnesses bls msg with
        | error err => exact ⟨rfl, rfl⟩
        | ok _ =>
            cases hl : st.locked <;> cases hc : st.cancelled <;>
              cases hw : st.waiting <;> exact ⟨rfl, rfl⟩
    | prepare =>
        show ((st.handlePrepare bls msg).1.session = st.session ∧
          (st.handlePrepare bls msg).2.counts = false) ∨ _
        rw [Loop.handlePrepare]
        -- each early return of the handler leaves the session as it was
        cases hlock : st.locked with
        | true => exact Or.inl ⟨rfl, rfl⟩
        | false =>
            by_cases hacks : st.session.acks ≥ st.session.thresholdAck
            · rw [if_neg Bool.false_ne_true, if_pos hacks]
              exact Or.inl ⟨rfl, rfl⟩
            · rw [if_neg Bool.false_ne_true, if_neg hacks]
              cases hbit : bit st.session.sigMask msg.source with
              | error p => exact Or.inl ⟨rfl, rfl⟩
              | ok b =>
                  cases b with
                  | true => exact Or.inl ⟨rfl, rfl⟩
                  | false =>
                      cases hver : st.session.verifyAckSignature bls msg with
                      | error p => exact Or.inl ⟨rfl, rfl⟩
                      | ok res =>
                          cases res with
                          | error err => exact Or.inl ⟨rfl, rfl⟩
                          | ok u =>
                              cases hkey : index st.session.publicKeys
                                  msg.source with
                              | error p => exact Or.inl ⟨rfl, rfl⟩
                              | ok pk =>
                                  have hsrc :=
                                    (inRange_of_index_ok hkey).1
                                  rw [bit_of_nonneg hsrc] at hbit
                                  exact Or.inr ⟨pk,
                                    { unlocked := hlock
                                      mine := hmine
                                      prepare := htype
                                      below := by omega
                                      fresh := Except.ok.inj hbit
                                      key := hkey
                                      verified := hver }⟩
  · rw [if_pos hmine]
    exact Or.inl ⟨rfl, rfl⟩

theorem handle_of_prepared (bls : Bls PK SG SK)
    (hmine : msg.bridgeEventHash = st.session.topic)
    (htype : msg.msgType = .prepared) :
    st.handle bls msg = st.handlePrepared bls msg := by
  rw [Loop.handle, if_neg (not_not.mpr hmine), htype]

theorem handle_of_prepare (bls : Bls PK SG SK)
    (hmine : msg.bridgeEventHash = st.session.topic)
    (htype : msg.msgType = .prepare) :
    st.handle bls msg = st.handlePrepare bls msg := by
  rw [Loop.handle, if_neg (not_not.mpr hmine), htype]

/-- The Prepare case for a registered source and a free mutex, guard by
    guard. -/
theorem handlePrepare_eq (hlock : st.locked = false)
    (hkey : index st.session.publicKeys msg.source = .ok pk) :
    st.handlePrepare bls msg =
      if st.session.acks ≥ st.session.thresholdAck ∨
          st.session.sigMask.testBit msg.source.toNat = true then
        (st, .dropped)
      else
        match st.session.verifyAckSignature bls msg with
        | .error p => ({ st with locked := true }, .panic p)
        | .ok (.error err) => ({ st with locked := true }, .ackMismatch err)
        | .ok (.ok ()) => st.acceptAck bls msg pk := by
  rw [Loop.handlePrepare, hlock, if_neg Bool.false_ne_true,
    bit_of_nonneg (inRange_of_index_ok hkey).1, hkey]
  by_cases hacks : st.session.acks ≥ st.session.thresholdAck
  · rw [if_pos hacks, if_pos (Or.inl hacks)]
  · rw [if_neg hacks]
    cases hbit : st.session.sigMask.testBit msg.source.toNat with
    | true => rw [if_pos (Or.inr rfl)]
    | false =>
        rw [if_neg (by rintro (h | h); exacts [hacks h, Bool.noConfusion h])]

theorem acceptAck_session (bls : Bls PK SG SK) (st : Loop PK SG SK)
    (msg : MessageWithSig PK SG) (pk : PK) :
    (st.acceptAck bls msg pk).1.session = st.session.countAck msg pk := by
  rw [Loop.acceptAck]
  by_cases hthr : (st.session.countAck msg pk).acks
      ≥ (st.session.countAck msg pk).thresholdAck
  · simp only [if_pos hthr]
    cases (st.session.countAck msg pk).verifyThresholdWitnesses bls
        ((st.session.countAck msg pk).outmsg msg) with
    | error err => rfl
    | ok _ => rfl
  · simp only [if_neg hthr]

theorem acceptAck_counts (bls : Bls PK SG SK) (st : Loop PK SG SK)
    (msg : MessageWithSig PK SG) (pk : PK) :
    (st.acceptAck bls msg pk).2.counts = true := by
  rw [Loop.acceptAck]
  by_cases hthr : (st.session.countAck msg pk).acks
      ≥ (st.session.countAck msg pk).thresholdAck
  · simp only [if_pos hthr]
    cases (st.session.countAck msg pk).verifyThresholdWitnesses bls
        ((st.session.countAck msg pk).outmsg msg) with
    | error err => rfl
    | ok _ => rfl
  · simp only [if_neg hthr]
    rfl

/-- The Prepared message is put together exactly when the threshold is
    reached, and from what the session has collected. -/
theorem acceptAck_built (bls : Bls PK SG SK) (st : Loop PK SG SK)
    (msg : MessageWithSig PK SG) (pk : PK) :
    (st.acceptAck bls msg pk).2.built =
      if st.session.acks + 1 ≥ st.session.thresholdAck then
        some ((st.session.countAck msg pk).outmsg msg)
      else none := by
  rw [Loop.acceptAck]
  by_cases hthr : st.session.acks + 1 ≥ st.session.thresholdAck
  · rw [if_pos hthr]
    have hthr' : (st.session.countAck msg pk).acks
        ≥ (st.session.countAck msg pk).thresholdAck := hthr
    simp only [if_pos hthr']
    cases (st.session.countAck msg pk).verifyThresholdWitnesses bls
        ((st.session.countAck msg pk).outmsg msg) with
    | error err => rfl
    | ok _ => rfl
  · rw [if_neg hthr]
    have hthr' : ¬ (st.session.countAck msg pk).acks
        ≥ (st.session.countAck msg pk).thresholdAck := hthr
    simp only [if_neg hthr']
    rfl

/-- A Prepare message that is not counted is neither answered nor taken for
    consensus. -/
theorem handlePrepare_cases (bls : Bls PK SG SK) (st : Loop PK SG SK)
    (msg : MessageWithSig PK SG) :
    ((st.handlePrepare bls msg).2.broadcast = none ∧
      (st.handlePrepare bls msg).2 ≠ .agreed) ∨
    ∃ pk, st.handlePrepare bls msg = st.acceptAck bls msg pk := by
  rw [Loop.handlePrepare]
  split
  · exact Or.inl ⟨rfl, fun h => nomatch h⟩
  · split
    · exact Or.inl ⟨rfl, fun h => nomatch h⟩
    · split
      · exact Or.inl ⟨rfl, fun h => nomatch h⟩
      · exact Or.inl ⟨rfl, fun h => nomatch h⟩
      · split
        · exact Or.inl ⟨rfl, fun h => nomatch h⟩
        · exact Or.inl ⟨rfl, fun h => nomatch h⟩
        · split
          · exact Or.inl ⟨rfl, fun h => nomatch h⟩
          · rename_i pk _
            exact Or.inr ⟨pk, rfl⟩

/-- What a handler broadcasts: the signature of the session on an Announce, or
    the aggregate after a Prepare. -/
theorem handle_broadcast {out : MessageWithSig PK SG}
    (h : (st.handle bls msg).2.broadcast = some out) :
    (msg.bridgeEventHash = st.session.topic ∧
      (st.handle bls msg).2 = .announced out ∧
      out.signature = bls.multisign st.session.privateKey msg.toBody.marshal
        st.session.epochPublicKey st.session.membershipKey) ∨
    out.signature = st.session.partSignature + msg.signature := by
  by_cases hmine : msg.bridgeEventHash = st.session.topic
  -- a Prepare is answered to an Announce; what a Prepare can send is the sum
  · cases htype : msg.msgType with
    | announce =>
        have heq : st.handle bls msg = st.handleAnnounce bls msg := by
          rw [Loop.handle, if_neg (not_not.mpr hmine), htype]
        rw [heq] at h ⊢
        obtain rfl := Option.some.inj h
        exact Or.inl ⟨hmine, rfl, rfl⟩
    | other n =>
        rw [Loop.handle, if_neg (not_not.mpr hmine), htype] at h
        exact nomatch h
    | prepared =>
        rw [handle_of_prepared bls hmine htype, Loop.handlePrepared] at h
        split at h
        · exact nomatch h
        · split at h
          · exact nomatch h
          · split at h
            · exact nomatch h
            · split at h
              · exact nomatch h
              · exact nomatch h
    | prepare =>
        rw [handle_of_prepare bls hmine htype] at h
        rcases handlePrepare_cases bls st msg with ⟨hnone, -⟩ | ⟨pk, heq⟩
        · rw [hnone] at h
          exact nomatch h
        · refine Or.inr ?_
          rw [heq, Loop.acceptAck] at h
          split at h
          · split at h
            · exact nomatch h
            · obtain rfl := Option.some.inj h
              rfl
          · exact nomatch h
  · rw [Loop.handle, if_pos hmine] at h
    exact nomatch h

/-- Consensus is reported exactly when a Prepared message for the topic passes
    the check and finds the session free, undecided and awaited. -/
theorem agreed_iff :
    (st.handle bls msg).2 = .agreed ↔
      msg.bridgeEventHash = st.session.topic ∧ msg.msgType = .prepared ∧
      st.session.verifyThresholdWitnesses bls msg = .ok () ∧
      st.locked = false ∧ st.cancelled = false ∧ st.waiting = true := by
  constructor
  · intro h
    by_cases hmine : msg.bridgeEventHash = st.session.topic
    · cases htype : msg.msgType with
      | announce =>
          rw [Loop.handle, if_neg (not_not.mpr hmine), htype] at h
          exact nomatch h
      | other n =>
          rw [Loop.handle, if_neg (not_not.mpr hmine), htype] at h
          exact nomatch h
      | prepare =>
          rw [handle_of_prepare bls hmine htype] at h
          rcases handlePrepare_cases bls st msg with ⟨-, hne⟩ | ⟨pk, heq⟩
          · exact absurd h hne
          · have hcounts := acceptAck_counts bls st msg pk
            rw [← heq, h] at hcounts
            exact nomatch hcounts
      -- the four tests on the way to the send, in the order of the source
      | prepared =>
          rw [handle_of_prepared bls hmine htype, Loop.handlePrepared] at h
          cases hver : st.session.verifyThresholdWitnesses bls msg with
          | error err => rw [hver] at h; exact nomatch h
          | ok u =>
              rw [hver] at h
              cases hl : st.locked with
              | true => rw [hl] at h; exact nomatch h
              | false =>
                  cases hc : st.cancelled with
                  | true => rw [hl, hc] at h; exact nomatch h
                  | false =>
                      cases hw : st.waiting with
                      | false => rw [hl, hc, hw] at h; exact nomatch h
                      | true => exact ⟨hmine, rfl, rfl, rfl, rfl, rfl⟩
    · rw [Loop.handle, if_pos hmine] at h
      exact nomatch h
  · rintro ⟨hmine, htype, hver, hl, hc, hw⟩
    rw [handle_of_prepared bls hmine htype, Loop.handlePrepared, hver]
    simp only [hl, hc, hw, Bool.false_eq_true, if_false, if_true]

end Aggregation

/-- A message is built only where an ack is counted. -/
theorem counts_of_built {v : Verdict PK SG} (h : v.built ≠ none) :
    v.counts = true := by
  cases v with
  | witnessFailed out err => rfl
  | witnessed out => rfl
  | _ => exact absurd rfl h

end RelayerSession
