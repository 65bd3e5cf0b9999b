import Relayer.AccumulatorProofs

/-! # What a bad message can do to a session

    Two questions about the handler of `WaitForProtocolMsg`, asked in every
    reachable state.

    * Does it give the mutex back?  Two refusals return between `Lock` and
      `Unlock`; `session_survives_iff_harmless` says for which messages and
      states that happens, and that a run without them stays live.
    * Does it survive any bytes?  `receive_safe_iff_digestible` lists the
      inputs on which the handler ends without a panic and ignores what it
      should ignore.  The bls functions are total here.  Those of the bls
      package are not: they dereference the nil point that an undecodable
      signature leaves behind, so such inputs are outside what is proved. -/

namespace RelayerFault

open BitMask RelayerBls RelayerMessage RelayerSession RelayerAccumulator
open Transition

variable {PK SG SK : Type}

/-! ## Giving the mutex back -/

/-- The four accumulators agree. -/
structure SameAccumulators (s s' : Session PK SG SK) : Prop where
  acks : s'.acks = s.acks
  sigMask : s'.sigMask = s.sigMask
  partSignature : s'.partSignature = s.partSignature
  partPublicKey : s'.partPublicKey = s.partPublicKey

section Mutex

variable [Add PK] [Add SG]

/-- The handler ran to its end, the mutex is free again, and a refused
    message left the accumulators alone. -/
structure LeavesIntact (bls : Bls PK SG SK) (st : Loop PK SG SK)
    (msg : MessageWithSig PK SG) : Prop where
  completes : (st.handle bls msg).2.completes = true
  unlocked : (st.handle bls msg).1.locked = false
  unchanged : (st.handle bls msg).2.rejects = true →
    SameAccumulators st.session (st.handle bls msg).1.session

/-- No refusal falls between `Lock` and `Unlock`, and no send is left without
    a receiver: a Prepare that is still wanted carries a good signature and,
    if it is the last one wanted, completes a good aggregate; a good Prepared
    finds the context done or the receiver waiting. -/
def Harmless (bls : Bls PK SG SK) (st : Loop PK SG SK)
    (msg : MessageWithSig PK SG) : Prop :=
  msg.bridgeEventHash = st.session.topic →
    match msg.msgType with
    | .prepared =>
        st.session.verifyThresholdWitnesses bls msg = .ok () →
          st.cancelled = true ∨ st.waiting = true
    | .prepare =>
        ∀ pk, index st.session.publicKeys msg.source = .ok pk →
          st.session.acks < st.session.thresholdAck →
          st.session.sigMask.testBit msg.source.toNat = false →
          st.session.verifyAckSignature bls msg = .ok (.ok ()) ∧
          (st.session.acks + 1 ≥ st.session.thresholdAck →
            bls.verifyMultisig (st.session.partSignature + msg.signature)
              st.session.epochPublicKey (st.session.partPublicKey + pk)
              msg.toBody.marshal
              (setBit st.session.sigMask msg.source.toNat) = true)
    | _ => True

variable {bls : Bls PK SG SK} {s₀ : Session PK SG SK}
  {tr : List (Event PK SG × Verdict PK SG)} {st : Loop PK SG SK}
  {msg : MessageWithSig PK SG} {pk : PK}

/-- What `LeavesIntact` says, once the outcome of the handler is known. -/
theorem leavesIntact_iff {st' : Loop PK SG SK} {v : Verdict PK SG}
    (h : st.handle bls msg = (st', v)) :
    LeavesIntact bls st msg ↔
      v.completes = true ∧ st'.locked = false ∧
      (v.rejects = true → SameAccumulators st.session st'.session) := by
  constructor
  · intro hi
    have hcomp := hi.completes
    have hlock := hi.unlocked
    have hsame := hi.unchanged
    rw [h] at hcomp hlock hsame
    exact ⟨hcomp, hlock, hsame⟩
  · rintro ⟨hcomp, hlock, hsame⟩
    refine ⟨?_, ?_, ?_⟩
    · rw [h]; exact hcomp
    · rw [h]; exact hlock
    · rw [h]; exact hsame

/-- A handler that changed nothing left everything intact. -/
theorem LeavesIntact.of_quiet {v : Verdict PK SG} (hlock : st.locked = false)
    (h : st.handle bls msg = (st, v)) (hc : v.completes = true) :
    LeavesIntact bls st msg :=
  (leavesIntact_iff h).mpr ⟨hc, hlock, fun _ => ⟨rfl, rfl, rfl, rfl⟩⟩

/-- A handler that left the mutex locked did not. -/
theorem not_leavesIntact {st' : Loop PK SG SK} {v : Verdict PK SG}
    (h : st.handle bls msg = (st', v)) (hlock : st'.locked = true) :
    ¬ LeavesIntact bls st msg := by
  intro hi
  have hfree := ((leavesIntact_iff h).mp hi).2.1
  rw [hlock] at hfree
  exact Bool.noConfusion hfree

/-- The Prepared case gives the mutex back unless it is left sending. -/
theorem prepared_intact_iff (hlock : st.locked = false)
    (hmine : msg.bridgeEventHash = st.session.topic)
    (htype : msg.msgType = .prepared) :
    LeavesIntact bls st msg ↔
      (st.session.verifyThresholdWitnesses bls msg = .ok () →
        st.cancelled = true ∨ st.waiting = true) := by
  have heq := handle_of_prepared bls hmine htype
  rw [Loop.handlePrepared] at heq
  cases hver : st.session.verifyThresholdWitnesses bls msg with
  | error err =>
      rw [hver] at heq
      constructor
      · intro _ h; cases h
      · intro _; exact LeavesIntact.of_quiet hlock heq rfl
  | ok u =>
      rw [hver] at heq
      simp only [hlock, Bool.false_eq_true, if_false] at heq
      cases hc : st.cancelled with
      | true =>
          rw [hc] at heq
          exact ⟨fun _ _ => Or.inl rfl,
            fun _ => LeavesIntact.of_quiet hlock heq rfl⟩
      | false =>
          cases hw : st.waiting with
          | true =>
              simp only [hc, hw, Bool.false_eq_true, if_false, if_true] at heq
              exact ⟨fun _ _ => Or.inr rfl, fun _ => (leavesIntact_iff heq).mpr
                ⟨rfl, rfl, fun h => absurd h Bool.false_ne_true⟩⟩
          | false =>
              -- the send on `consensusAgreed` blocks with the mutex locked
              simp only [hc, hw, Bool.false_eq_true, if_false] at heq
              constructor
              · intro h
                exact absurd h (not_leavesIntact heq rfl)
              · intro h
                rcases h rfl with h' | h'
                · cases h'
                · cases h'

/-- In a reachable state the mask of a completed aggregate has as many bits as
    the threshold asks for, so only the signature decides. -/
theorem acceptAck_eq (hc : Counted bls s₀ tr st.session)
    (hacc : Accepts bls st msg pk) :
    st.acceptAck bls msg pk =
      if st.session.acks + 1 ≥ st.session.thresholdAck then
        if bls.verifyMultisig (st.session.partSignature + msg.signature)
            st.session.epochPublicKey (st.session.partPublicKey + pk)
            msg.toBody.marshal
            (setBit st.session.sigMask msg.source.toNat) = true then
          ({ st with session := st.session.countAck msg pk },
            .witnessed ((st.session.countAck msg pk).outmsg msg))
        else
          ({ st with session := st.session.countAck msg pk, locked := true },
            .witnessFailed ((st.session.countAck msg pk).outmsg msg)
              ("threshold signature mismatch for '"
                ++ msg.toBody.marshal ++ "'"))
      else ({ st with session := st.session.countAck msg pk }, .acked) := by
  have hpop : (popcount (setBit st.session.sigMask msg.source.toNat) : ℤ)
      = st.session.acks + 1 := by
    have hnew : msg.source.toNat ∉ bitsOf st.session.sigMask := by
      rw [mem_bitsOf, hacc.fresh]
      exact Bool.false_ne_true
    rw [hc.acks_eq, popcount_eq_card, popcount_eq_card, bitsOf_setBit,
      Finset.card_insert_of_notMem hnew]
    norm_cast
  rw [Loop.acceptAck]
  by_cases hthr : st.session.acks + 1 ≥ st.session.thresholdAck
  · have hthr' : (st.session.countAck msg pk).acks
        ≥ (st.session.countAck msg pk).thresholdAck := hthr
    have hnot : ¬ (popcount ((st.session.countAck msg pk).outmsg msg).mask : ℤ)
        < (st.session.countAck msg pk).thresholdAck := by
      show ¬ (popcount (setBit st.session.sigMask msg.source.toNat) : ℤ)
        < st.session.thresholdAck
      omega
    -- the message put together is the aggregate after this ack
    have hmsg : bls.verifyMultisig
        ((st.session.countAck msg pk).outmsg msg).signature
        (st.session.countAck msg pk).epochPublicKey
        ((st.session.countAck msg pk).outmsg msg).publicKey
        ((st.session.countAck msg pk).outmsg msg).toBody.marshal
        ((st.session.countAck msg pk).outmsg msg).mask
      = bls.verifyMultisig (st.session.partSignature + msg.signature)
        st.session.epochPublicKey (st.session.partPublicKey + pk)
        msg.toBody.marshal (setBit st.session.sigMask msg.source.toNat) := rfl
    simp only [if_pos hthr', if_pos hthr]
    rw [Session.verifyThresholdWitnesses, if_neg hnot, hmsg]
    by_cases hsig : bls.verifyMultisig
        (st.session.partSignature + msg.signature)
        st.session.epochPublicKey (st.session.partPublicKey + pk)
        msg.toBody.marshal (setBit st.session.sigMask msg.source.toNat) = true
    · rw [if_pos hsig, if_pos hsig]
    · rw [if_neg hsig, if_neg hsig]
      rfl
  · have hthr' : ¬ (st.session.countAck msg pk).acks
        ≥ (st.session.countAck msg pk).thresholdAck := hthr
    simp only [if_neg hthr', if_neg hthr]

/-- The Prepare case gives the mutex back unless a wanted signature, or the
    aggregate it completes, is refused. -/
theorem prepare_intact_iff (hc : Counted bls s₀ tr st.session)
    (hlock : st.locked = false)
    (hmine : msg.bridgeEventHash = st.session.topic)
    (htype : msg.msgType = .prepare)
    (hkey : index st.session.publicKeys msg.source = .ok pk) :
    LeavesIntact bls st msg ↔
      (st.session.acks < st.session.thresholdAck →
        st.session.sigMask.testBit msg.source.toNat = false →
        st.session.verifyAckSignature bls msg = .ok (.ok ()) ∧
        (st.session.acks + 1 ≥ st.session.thresholdAck →
          bls.verifyMultisig (st.session.partSignature + msg.signature)
            st.session.epochPublicKey (st.session.partPublicKey + pk)
            msg.toBody.marshal
            (setBit st.session.sigMask msg.source.toNat) = true)) := by
  have heq := handle_of_prepare bls hmine htype
  rw [handlePrepare_eq hlock hkey] at heq
  by_cases hdrop : st.session.acks ≥ st.session.thresholdAck ∨
      st.session.sigMask.testBit msg.source.toNat = true
  · rw [if_pos hdrop] at heq
    refine ⟨fun _ hbelow hfresh => ?_,
      fun _ => LeavesIntact.of_quiet hlock heq rfl⟩
    rcases hdrop with h | h
    · omega
    · rw [hfresh] at h
      exact Bool.noConfusion h
  · rw [if_neg hdrop] at heq
    rw [not_or] at hdrop
    have hbelow : st.session.acks < st.session.thresholdAck := by omega
    have hfresh : st.session.sigMask.testBit msg.source.toNat = false :=
      Bool.eq_false_iff.mpr hdrop.2
    have hcode : ∀ {p q : Prop}, (st.session.acks < st.session.thresholdAck →
        st.session.sigMask.testBit msg.source.toNat = false → p ∧ q) ↔
        p ∧ q := fun {p q} => ⟨fun h => h hbelow hfresh, fun h _ _ => h⟩
    rw [hcode]
    cases hver : st.session.verifyAckSignature bls msg with
    | error p =>
        -- a registered source never panics here
        rw [verifyAckSignature_of_index hkey] at hver
        split at hver
        · exact nomatch hver
        · exact nomatch hver
    | ok res =>
        cases res with
        | error err =>
            rw [hver] at heq
            exact ⟨fun h => absurd h (not_leavesIntact heq rfl),
              fun h => nomatch h.1⟩
        | ok u =>
            have hacc : Accepts bls st msg pk :=
              ⟨hlock, hmine, htype, hbelow, hfresh, hkey, hver⟩
            rw [hver] at heq
            have heq' := heq.trans (acceptAck_eq hc hacc)
            split at heq'
            · split at heq'
              · rename_i hsig
                exact ⟨fun _ => ⟨rfl, fun _ => hsig⟩, fun _ =>
                  (leavesIntact_iff heq').mpr
                    ⟨rfl, hlock, fun h => nomatch h⟩⟩
              · rename_i hthr hsig
                exact ⟨fun h => absurd h (not_leavesIntact heq' rfl),
                  fun h => absurd (h.2 hthr) hsig⟩
            · rename_i hthr
              exact ⟨fun _ => ⟨rfl, fun h => absurd h hthr⟩, fun _ =>
                (leavesIntact_iff heq').mpr ⟨rfl, hlock, fun h => nomatch h⟩⟩

/-- **ONE HANDLER**: from a free mutex, a message (a Prepare being from a
    registered source) leaves the session intact exactly when it is
    harmless. -/
theorem intact_iff_harmless (hc : Counted bls s₀ tr st.session)
    (hlock : st.locked = false)
    (hsrc : msg.msgType = .prepare → InRange s₀.publicKeys msg.source) :
    LeavesIntact bls st msg ↔ Harmless bls st msg := by
  rw [← hc.config.publicKeys] at hsrc
  by_cases hmine : msg.bridgeEventHash = st.session.topic
  -- only the two kinds that reach the session's fields need a condition
  · cases htype : msg.msgType with
    | announce =>
        have heq : st.handle bls msg = st.handleAnnounce bls msg := by
          rw [Loop.handle, if_neg (not_not.mpr hmine), htype]
        refine ⟨fun _ _ => ?_, fun _ => LeavesIntact.of_quiet hlock heq rfl⟩
        rw [htype]
        trivial
    | other n =>
        have heq : st.handle bls msg = (st, .noCase) := by
          rw [Loop.handle, if_neg (not_not.mpr hmine), htype]
        refine ⟨fun _ _ => ?_, fun _ => LeavesIntact.of_quiet hlock heq rfl⟩
        rw [htype]
        trivial
    | prepared =>
        rw [prepared_intact_iff hlock hmine htype, Harmless, htype]
        exact ⟨fun h _ => h, fun h => h hmine⟩
    | prepare =>
        obtain ⟨pk, hkey, -⟩ := index_of_inRange (hsrc htype)
        rw [prepare_intact_iff hc hlock hmine htype hkey, Harmless, htype]
        constructor
        · intro h _ pk' hkey'
          have hpk : pk = pk' := Except.ok.inj (hkey.symm.trans hkey')
          rw [← hpk]
          exact h
        · intro h
          exact h hmine pk hkey
  -- a message of another topic is put aside before its type is read
  · have heq : st.handle bls msg = (st, .notMine) := by
      rw [Loop.handle, if_pos hmine]
    exact ⟨fun _ h => absurd h hmine,
      fun _ => LeavesIntact.of_quiet hlock heq rfl⟩

/-- A Prepare from an unregistered source that does not panic changes
    nothing: it came too late to be looked at. -/
theorem prepare_of_not_inRange (hc : Counted bls s₀ tr st.session)
    (hlock : st.locked = false)
    (hmine : msg.bridgeEventHash = st.session.topic)
    (htype : msg.msgType = .prepare)
    (hsrc : ¬ InRange s₀.publicKeys msg.source) :
    if st.session.acks ≥ st.session.thresholdAck then
      st.handle bls msg = (st, .dropped)
    else ∃ p, st.handle bls msg = ({ st with locked := true }, .panic p) := by
  rw [handle_of_prepare bls hmine htype, Loop.handlePrepare, hlock,
    if_neg Bool.false_ne_true]
  -- with enough acks the source is never looked at
  by_cases hacks : st.session.acks ≥ st.session.thresholdAck
  · rw [if_pos hacks, if_pos hacks]
  · rw [if_neg hacks, if_neg hacks]
    by_cases hneg : msg.source < 0
    · rw [bit_of_neg hneg]
      exact ⟨_, rfl⟩
    · rw [bit_of_nonneg (by omega)]
      -- the mask has no bit beyond the keys, so the key is looked up
      have hclear : st.session.sigMask.testBit msg.source.toNat = false := by
        rw [Bool.eq_false_iff]
        intro hbit
        exact hsrc ⟨by omega, hc.bit_lt (mem_bitsOf.mpr hbit)⟩
      rw [← hc.config.publicKeys] at hsrc
      rw [hclear, Session.verifyAckSignature, if_neg hneg,
        index_of_not_inRange hsrc]
      exact ⟨_, rfl⟩

/-- A step on a harmless message keeps the mutex free. -/
theorem step_unlocked {l : Event PK SG × Verdict PK SG} {st' : Loop PK SG SK}
    (hc : Counted bls s₀ tr st.session) (hlock : st.locked = false)
    (hstep : Step bls st l st')
    (hok : ∀ msg, l.1 = .received msg → Harmless bls st msg) :
    st'.locked = false := by
  obtain ⟨e, v⟩ := l
  obtain ⟨hreact, hpanic⟩ := hstep
  cases e with
  | receiverLeft =>
      have hst' : { st with waiting := false } = st' := congrArg Prod.fst hreact
      rw [← hst']
      exact hlock
  | contextDone =>
      have hst' : { st with cancelled := true } = st' :=
        congrArg Prod.fst hreact
      rw [← hst']
      exact hlock
  | received msg =>
      have heq : st.handle bls msg = (st', v) := hreact
      by_cases hsrc : msg.msgType = .prepare → InRange s₀.publicKeys msg.source
      · exact ((leavesIntact_iff heq).mp
          ((intact_iff_harmless hc hlock hsrc).mpr (hok msg rfl))).2.1
      · -- a Prepare of an unregistered source is dropped, or the run ends
        obtain ⟨htype, hsrc⟩ := Classical.not_imp.mp hsrc
        have hst' : st = st' := by
          by_cases hmine : msg.bridgeEventHash = st.session.topic
          · have hcase := prepare_of_not_inRange hc hlock hmine htype hsrc
            split at hcase
            · exact congrArg Prod.fst (hcase.symm.trans heq)
            · obtain ⟨p, hp⟩ := hcase
              have hv : Verdict.panic p = v :=
                congrArg Prod.snd (hp.symm.trans heq)
              subst hv
              exact nomatch hpanic
          · rw [Loop.handle, if_pos hmine] at heq
            exact congrArg Prod.fst heq
        rw [← hst']
        exact hlock

/-- Runs whose messages are all harmless where they arrive. -/
def HarmlessRun (bls : Bls PK SG SK) (s₀ : Session PK SG SK)
    (tr : List (Event PK SG × Verdict PK SG)) (st : Loop PK SG SK) : Prop :=
  Run (Guarded (Step bls)
    (fun st l => ∀ msg, l.1 = .received msg → Harmless bls st msg))
    (Loop.start s₀) tr st

/-- Along such a run the mutex is free in every state. -/
theorem harmlessRun_unlocked (hacks : s₀.acks = 0) (hmask : s₀.sigMask = 0)
    (hrun : HarmlessRun bls s₀ tr st) : st.locked = false := by
  have hinv := Run.traced
    (P := fun tr st => Counted bls s₀ tr st.session ∧ st.locked = false) hrun
    ⟨counted_init bls hacks hmask, rfl⟩
    (fun _ _ _ _ h hstep => ⟨counted_step h.1 hstep.1,
      step_unlocked h.1 h.2 hstep.1 hstep.2⟩)
  exact hinv.2

/-- **A SESSION SURVIVES EXACTLY THE HARMLESS MESSAGES**: in every reachable
    state with a free mutex a message from a registered source leaves the
    session intact if and only if it is harmless; and along every run of
    harmless messages the mutex is free, a good Prepare that is still wanted
    is counted, and a good Prepared is reported. -/
theorem session_survives_iff_harmless [Zero PK] [Zero SG] (h : Fresh s₀) :
    (∀ tr st msg, Run (Step bls) (Loop.start s₀) tr st → st.locked = false →
      InRange s₀.publicKeys msg.source →
      (LeavesIntact bls st msg ↔ Harmless bls st msg)) ∧
    (∀ tr st, HarmlessRun bls s₀ tr st →
      st.locked = false ∧
      (∀ msg pk, msg.bridgeEventHash = s₀.topic → msg.msgType = .prepare →
        st.session.acks < s₀.thresholdAck →
        st.session.sigMask.testBit msg.source.toNat = false →
        index s₀.publicKeys msg.source = .ok pk →
        s₀.verifyAckSignature bls msg = .ok (.ok ()) →
        (st.handle bls msg).2.counts = true ∧
        (st.handle bls msg).1.session = st.session.countAck msg pk) ∧
      (∀ msg, msg.bridgeEventHash = s₀.topic → msg.msgType = .prepared →
        st.session.verifyThresholdWitnesses bls msg = .ok () →
        st.cancelled = false → st.waiting = true →
        (st.handle bls msg).2 = .agreed)) := by
  refine ⟨?_, ?_⟩
  · intro tr st msg hrun hlock hsrc
    exact intact_iff_harmless (counted_run h.acks h.sigMask hrun) hlock
      (fun _ => hsrc)
  · intro tr st hrun
    have hlock := harmlessRun_unlocked h.acks h.sigMask hrun
    have hc := counted_run h.acks h.sigMask (Run.of_guarded hrun)
    refine ⟨hlock, ?_, ?_⟩
    · intro msg pk hmine htype hbelow hfresh hkey hver
      -- the guard of the handler, in the fields the session started with
      have hacc : Accepts bls st msg pk :=
        { unlocked := hlock
          mine := hmine.trans hc.config.topic.symm
          prepare := htype
          below := by rw [hc.config.thresholdAck]; exact hbelow
          fresh := hfresh
          key := by rw [hc.config.publicKeys]; exact hkey
          verified := by rw [hc.config.verifyAckSignature]; exact hver }
      rw [handle_of_accepts hacc]
      exact ⟨acceptAck_counts bls st msg pk, acceptAck_session bls st msg pk⟩
    · intro msg hmine htype hver hcancel hwait
      exact agreed_iff.mpr ⟨hmine.trans hc.config.topic.symm, htype, hver,
        hlock, hcancel, hwait⟩

end Mutex

/-- The ack of node 3 is harmless to a fresh session, so it leaves it
    intact. -/
theorem session_survives_sample :
    Harmless intBls (Loop.start sampleSession) (sampleAck 3) ∧
    LeavesIntact intBls (Loop.start sampleSession) (sampleAck 3) := by
  have hharm : Harmless intBls (Loop.start sampleSession) (sampleAck 3) := by
    intro _ pk _ _ _
    exact ⟨by decide +kernel, fun h => absurd h (by decide)⟩
  exact ⟨hharm, ((session_survives_iff_harmless sampleSession_fresh).1 [] _ _
    Run.refl rfl (by decide)).mpr hharm⟩

/-- A Prepare in the name of node 1 with a signature nobody made. -/
def forgedAck : MessageWithSig ℤ ℤ where
  source := 1
  msgType := .prepare
  bridgeEventHash := "0x51ab"
  signature := 0
  mask := 0
  publicKey := intBls.emptyPublicKey

/-- One forged Prepare is refused with the mutex locked, and the good ack that
    follows waits for ever. -/
theorem forged_ack_disables_session :
    InRange sampleSession.publicKeys forgedAck.source ∧
    ¬ LeavesIntact intBls (Loop.start sampleSession) forgedAck ∧
    ((Loop.start sampleSession).handle intBls forgedAck).2.rejects = true ∧
    ((Loop.start sampleSession).handle intBls forgedAck).1.locked = true ∧
    (((Loop.start sampleSession).handle intBls forgedAck).1.handle intBls
      (sampleAck 3)).2.completes = false ∧
    (((Loop.start sampleSession).handle intBls forgedAck).1.handle intBls
      (sampleAck 3)).1.session.acks = 0 := by
  have hlocked :
      ((Loop.start sampleSession).handle intBls forgedAck).1.locked = true := by
    decide +kernel
  refine ⟨by decide, ?_, by decide +kernel, hlocked, by decide +kernel,
    by decide +kernel⟩
  exact not_leavesIntact (Prod.mk.eta.symm) hlocked

/-! ## Surviving any bytes -/

section Bytes

variable [Add PK] [Add SG]

/-- The handler as it is started: on the bytes received.  What does not
    decode is a nil pointer, and the next line reads a field of it. -/
def receive (c : Codec PK SG) (bls : Bls PK SG SK) (st : Loop PK SG SK)
    (msgBytes : List UInt8) : Loop PK SG SK × Verdict PK SG :=
  match bytesToModelMessage c msgBytes with
  | none => (st, .panic .nilDereference)
  | some msg => st.handle bls msg

/-- The bytes had no effect: nothing changed and nothing was sent. -/
def Ignored (c : Codec PK SG) (bls : Bls PK SG SK) (st : Loop PK SG SK)
    (msgBytes : List UInt8) : Prop :=
  (receive c bls st msgBytes).1 = st ∧
  (receive c bls st msgBytes).2.broadcast = none

/-- The handler ends, without a panic and without waiting for ever, and
    ignores bytes that do not decode or name no registered source. -/
structure SafeReceive (c : Codec PK SG) (bls : Bls PK SG SK)
    (st : Loop PK SG SK) (msgBytes : List UInt8) : Prop where
  completes : (receive c bls st msgBytes).2.completes = true
  undecodable : bytesToModelMessage c msgBytes = none →
    Ignored c bls st msgBytes
  unregistered : ∀ msg, bytesToModelMessage c msgBytes = some msg →
    ¬ InRange st.session.publicKeys msg.source → Ignored c bls st msgBytes

/-- The decoded messages the handler does stomach:
    * a message for another topic, or of no known type;
    * a Prepare that finds the mutex free, and either comes after the
      threshold or names a registered source;
    * an Announce that names a registered source;
    * a Prepared that fails the check, or finds the mutex free and, if the
      session is still undecided, a waiting receiver and a registered
      source. -/
def Bearable (bls : Bls PK SG SK) (st : Loop PK SG SK)
    (msg : MessageWithSig PK SG) : Prop :=
  msg.bridgeEventHash = st.session.topic →
    match msg.msgType with
    | .prepare => st.locked = false ∧
        (st.session.acks ≥ st.session.thresholdAck ∨
          InRange st.session.publicKeys msg.source)
    | .announce => InRange st.session.publicKeys msg.source
    | .prepared =>
        st.session.verifyThresholdWitnesses bls msg = .ok () →
          st.locked = false ∧ (st.cancelled = true ∨
            (st.waiting = true ∧ InRange st.session.publicKeys msg.source))
    | .other _ => True

/-- Bytes that decode to such a message. -/
def Digestible (c : Codec PK SG) (bls : Bls PK SG SK) (st : Loop PK SG SK)
    (msgBytes : List UInt8) : Prop :=
  ∃ msg, bytesToModelMessage c msgBytes = some msg ∧ Bearable bls st msg

variable {c : Codec PK SG} {bls : Bls PK SG SK} {s₀ : Session PK SG SK}
  {tr : List (Event PK SG × Verdict PK SG)} {st : Loop PK SG SK}
  {msg : MessageWithSig PK SG} {msgBytes : List UInt8}

theorem receive_of_decoded (bls : Bls PK SG SK) (st : Loop PK SG SK)
    (h : bytesToModelMessage c msgBytes = some msg) :
    receive c bls st msgBytes = st.handle bls msg := by
  rw [receive, h]

/-- For bytes that decode, safety is about the outcome of the handler. -/
theorem safeReceive_iff {st' : Loop PK SG SK} {v : Verdict PK SG}
    (hdec : bytesToModelMessage c msgBytes = some msg)
    (h : st.handle bls msg = (st', v)) :
    SafeReceive c bls st msgBytes ↔ v.completes = true ∧
      (¬ InRange st.session.publicKeys msg.source →
        st' = st ∧ v.broadcast = none) := by
  have heq := (receive_of_decoded bls st hdec).trans h
  have hign : Ignored c bls st msgBytes ↔ st' = st ∧ v.broadcast = none := by
    rw [Ignored, heq]
  constructor
  · intro hs
    have hcomp := hs.completes
    rw [heq] at hcomp
    exact ⟨hcomp, fun hsrc => hign.mp (hs.unregistered msg hdec hsrc)⟩
  · rintro ⟨hcomp, hsrc⟩
    refine ⟨?_, ?_, ?_⟩
    · rw [heq]; exact hcomp
    · intro hnone
      rw [hdec] at hnone
      exact nomatch hnone
    · intro msg' hdec' hsrc'
      have hmsg : msg = msg' := Option.some.inj (hdec.symm.trans hdec')
      rw [← hmsg] at hsrc'
      exact hign.mpr (hsrc hsrc')

/-- A handler that changed and sent nothing is safe. -/
theorem SafeReceive.of_quiet {v : Verdict PK SG}
    (hdec : bytesToModelMessage c msgBytes = some msg)
    (h : st.handle bls msg = (st, v)) (hcomp : v.completes = true)
    (hsent : v.broadcast = none) : SafeReceive c bls st msgBytes :=
  (safeReceive_iff hdec h).mpr ⟨hcomp, fun _ => ⟨rfl, hsent⟩⟩

/-- A handler that did not end is not. -/
theorem not_safeReceive {st' : Loop PK SG SK} {v : Verdict PK SG}
    (hdec : bytesToModelMessage c msgBytes = some msg)
    (h : st.handle bls msg = (st', v)) (hcomp : v.completes = false) :
    ¬ SafeReceive c bls st msgBytes := by
  intro hs
  have hc := ((safeReceive_iff hdec h).mp hs).1
  rw [hcomp] at hc
  exact Bool.noConfusion hc

/-- The Prepared case. -/
theorem prepared_safe_iff
    (hdec : bytesToModelMessage c msgBytes = some msg)
    (hmine : msg.bridgeEventHash = st.session.topic)
    (htype : msg.msgType = .prepared) :
    SafeReceive c bls st msgBytes ↔
      (st.session.verifyThresholdWitnesses bls msg = .ok () →
        st.locked = false ∧ (st.cancelled = true ∨
          (st.waiting = true ∧
            InRange st.session.publicKeys msg.source))) := by
  have heq := handle_of_prepared bls hmine htype
  rw [Loop.handlePrepared] at heq
  cases hver : st.session.verifyThresholdWitnesses bls msg with
  | error err =>
      rw [hver] at heq
      constructor
      · intro _ h
        cases h
      · intro _
        exact SafeReceive.of_quiet hdec heq rfl rfl
  | ok u =>
      rw [hver] at heq
      cases hl : st.locked with
      | true =>
          simp only [hl, if_true] at heq
          exact ⟨fun h => absurd h (not_safeReceive hdec heq rfl),
            fun h => absurd (h rfl).1.symm Bool.false_ne_true⟩
      | false =>
          cases hcan : st.cancelled with
          | true =>
              simp only [hl, hcan, Bool.false_eq_true, if_false, if_true]
                at heq
              exact ⟨fun _ _ => ⟨rfl, Or.inl rfl⟩,
                fun _ => SafeReceive.of_quiet hdec heq rfl rfl⟩
          | false =>
              cases hw : st.waiting with
              | false =>
                  simp only [hl, hcan, hw, Bool.false_eq_true, if_false] at heq
                  refine ⟨fun h => absurd h (not_safeReceive hdec heq rfl),
                    fun h => ?_⟩
                  rcases (h rfl).2 with h' | h'
                  · cases h'
                  · cases h'.1
              | true =>
                  simp only [hl, hcan, hw, Bool.false_eq_true, if_false,
                    if_true] at heq
                  rw [safeReceive_iff hdec heq]
                  constructor
                  · rintro ⟨-, hign⟩ _
                    refine ⟨rfl, Or.inr ⟨rfl, ?_⟩⟩
                    by_contra hsrc
                    -- an accepted message is not ignored: it ends the loop
                    have hcan' : true = st.cancelled :=
                      congrArg Loop.cancelled (hign hsrc).1
                    rw [hcan] at hcan'
                    cases hcan'
                  · intro h
                    rcases (h rfl).2 with h' | h'
                    · cases h'
                    · exact ⟨rfl, fun hsrc => absurd h'.2 hsrc⟩

/-- With the mutex free, the Prepare of a registered source always ends. -/
theorem prepare_completes {pk : PK} (hlock : st.locked = false)
    (hmine : msg.bridgeEventHash = st.session.topic)
    (htype : msg.msgType = .prepare)
    (hkey : index st.session.publicKeys msg.source = .ok pk) :
    (st.handle bls msg).2.completes = true := by
  rw [handle_of_prepare bls hmine htype, handlePrepare_eq hlock hkey,
    verifyAckSignature_of_index hkey]
  split
  · rfl
  · by_cases hsig : bls.verifyMultisig msg.signature st.session.epochPublicKey
        pk msg.toBody.marshal (setBit 0 msg.source.toNat) = true
    · rw [if_pos hsig]
      show (st.acceptAck bls msg pk).2.completes = true
      have hcounts := acceptAck_counts bls st msg pk
      cases hv : (st.acceptAck bls msg pk).2 with
      | acked => rfl
      | witnessed out => rfl
      | witnessFailed out err => rfl
      | _ => rw [hv] at hcounts; exact nomatch hcounts
    · rw [if_neg hsig]
      rfl

/-- The Prepare case, in a reachable state. -/
theorem prepare_safe_iff (hc : Counted bls s₀ tr st.session)
    (hdec : bytesToModelMessage c msgBytes = some msg)
    (hmine : msg.bridgeEventHash = st.session.topic)
    (htype : msg.msgType = .prepare) :
    SafeReceive c bls st msgBytes ↔ st.locked = false ∧
      (st.session.acks ≥ st.session.thresholdAck ∨
        InRange st.session.publicKeys msg.source) := by
  -- a locked mutex blocks whatever the Prepare says
  cases hl : st.locked with
  | true =>
      have heq := handle_of_prepare bls hmine htype
      rw [Loop.handlePrepare, hl, if_pos rfl] at heq
      exact ⟨fun h => absurd h (not_safeReceive hdec heq rfl),
        fun h => absurd h.1.symm Bool.false_ne_true⟩
  | false =>
      by_cases hsrc : InRange st.session.publicKeys msg.source
      · obtain ⟨pk, hkey, -⟩ := index_of_inRange hsrc
        refine ⟨fun _ => ⟨rfl, Or.inr hsrc⟩, fun _ => ?_⟩
        exact (safeReceive_iff hdec Prod.mk.eta.symm).mpr
          ⟨prepare_completes hl hmine htype hkey, fun h => absurd hsrc h⟩
      · have hcase := prepare_of_not_inRange hc hl hmine htype
          (by rw [← hc.config.publicKeys]; exact hsrc)
        split at hcase
        · rename_i hacks
          exact ⟨fun _ => ⟨rfl, Or.inl hacks⟩,
            fun _ => SafeReceive.of_quiet hdec hcase rfl rfl⟩
        · rename_i hacks
          obtain ⟨p, hp⟩ := hcase
          refine ⟨fun h => absurd h (not_safeReceive hdec hp rfl),
            fun h => ?_⟩
          rcases h.2 with h' | h'
          · exact absurd h' hacks
          · exact absurd h' hsrc

/-- **ONE INPUT**: in a reachable state, bytes are handled safely exactly when
    they are digestible. -/
theorem safe_iff_digestible (hc : Counted bls s₀ tr st.session) :
    SafeReceive c bls st msgBytes ↔ Digestible c bls st msgBytes := by
  cases hdec : bytesToModelMessage c msgBytes with
  | none =>
      constructor
      · intro h
        have hcomp := h.completes
        rw [receive, hdec] at hcomp
        cases hcomp
      · rintro ⟨msg, hsome, -⟩
        rw [hdec] at hsome
        cases hsome
  | some msg =>
      have hdig : Digestible c bls st msgBytes ↔ Bearable bls st msg := by
        constructor
        · rintro ⟨msg', hdec', h⟩
          rw [hdec] at hdec'
          rw [Option.some.inj hdec']
          exact h
        · intro h
          exact ⟨msg, hdec, h⟩
      rw [hdig]
      by_cases hmine : msg.bridgeEventHash = st.session.topic
      · cases htype : msg.msgType with
        | prepare =>
            rw [prepare_safe_iff hc hdec hmine htype, Bearable, htype]
            exact ⟨fun h _ => h, fun h => h hmine⟩
        | prepared =>
            rw [prepared_safe_iff hdec hmine htype, Bearable, htype]
            exact ⟨fun h _ => h, fun h => h hmine⟩
        | announce =>
            have heq : st.handle bls msg = st.handleAnnounce bls msg := by
              rw [Loop.handle, if_neg (not_not.mpr hmine), htype]
            rw [safeReceive_iff hdec heq, Bearable, htype]
            constructor
            · rintro ⟨-, hign⟩ _
              -- an Announce is always answered, so never ignored
              by_contra hsrc
              cases (hign hsrc).2
            · intro h
              exact ⟨rfl, fun hsrc => absurd (h hmine) hsrc⟩
        | other n =>
            have heq : st.handle bls msg = (st, .noCase) := by
              rw [Loop.handle, if_neg (not_not.mpr hmine), htype]
            refine ⟨fun _ _ => ?_,
              fun _ => SafeReceive.of_quiet hdec heq rfl rfl⟩
            rw [htype]
            trivial
      · have heq : st.handle bls msg = (st, .notMine) := by
          rw [Loop.handle, if_pos hmine]
        exact ⟨fun _ h => absurd h hmine,
          fun _ => SafeReceive.of_quiet hdec heq rfl rfl⟩

/-- What can happen to a running session, seen from the network. -/
inductive WireEvent where
  | bytes (msgBytes : List UInt8)
  | receiverLeft
  | contextDone

/-- One such event; a panic is an outcome like the others. -/
def WireStep (c : Codec PK SG) (bls : Bls PK SG SK) (st : Loop PK SG SK)
    (l : WireEvent × Verdict PK SG) (st' : Loop PK SG SK) : Prop :=
  match l.1 with
  | .bytes msgBytes => receive c bls st msgBytes = (st', l.2)
  | .receiverLeft => st.react bls .receiverLeft = (st', l.2)
  | .contextDone => st.react bls .contextDone = (st', l.2)

/-- Runs whose bytes are all digestible where they arrive. -/
def DigestibleRun (c : Codec PK SG) (bls : Bls PK SG SK)
    (s₀ : Session PK SG SK) (tr : List (WireEvent × Verdict PK SG))
    (st : Loop PK SG SK) : Prop :=
  Run (Guarded (WireStep c bls)
    (fun st l => ∀ msgBytes, l.1 = .bytes msgBytes →
      Digestible c bls st msgBytes)) (Loop.start s₀) tr st

/-- A digestible event is a step of the session, and its handler ends. -/
theorem wireStep_step {l : WireEvent × Verdict PK SG} {st' : Loop PK SG SK}
    (hc : Counted bls s₀ tr st.session) (hstep : WireStep c bls st l st')
    (hok : ∀ msgBytes, l.1 = .bytes msgBytes →
      Digestible c bls st msgBytes) :
    l.2.completes = true ∧ ∃ e, Step bls st (e, l.2) st' := by
  obtain ⟨e, v⟩ := l
  cases e with
  | receiverLeft =>
      have hv : Verdict.environment = v := congrArg Prod.snd hstep
      exact ⟨by rw [← hv]; rfl, .receiverLeft, hstep, by rw [← hv]; rfl⟩
  | contextDone =>
      have hv : Verdict.environment = v := congrArg Prod.snd hstep
      exact ⟨by rw [← hv]; rfl, .contextDone, hstep, by rw [← hv]; rfl⟩
  | bytes msgBytes =>
      have heq : receive c bls st msgBytes = (st', v) := hstep
      have hdig := hok msgBytes rfl
      have hcomp := ((safe_iff_digestible hc).mpr hdig).completes
      rw [heq] at hcomp
      obtain ⟨msg, hdec, -⟩ := hdig
      rw [receive_of_decoded bls st hdec] at heq
      refine ⟨hcomp, .received msg, heq, ?_⟩
      -- a panic is the one verdict that the step relation does not have
      cases v with
      | panic p => exact nomatch hcomp
      | _ => rfl

/-- **THE HANDLER SURVIVES EXACTLY THE DIGESTIBLE BYTES**: in every reachable
    state a byte string is handled to the end, without a panic, and ignored
    when it should be, if and only if it is digestible; and along every run
    of digestible inputs every handler ends. -/
theorem receive_safe_iff_digestible [Zero PK] [Zero SG] (h : Fresh s₀) :
    (∀ tr st, Run (Step bls) (Loop.start s₀) tr st → ∀ msgBytes,
      SafeReceive c bls st msgBytes ↔ Digestible c bls st msgBytes) ∧
    (∀ tr st, DigestibleRun c bls s₀ tr st →
      (∀ l ∈ tr, l.2.completes = true) ∧
      ∃ tr', Run (Step bls) (Loop.start s₀) tr' st) := by
  refine ⟨?_, ?_⟩
  · intro tr st hrun msgBytes
    exact safe_iff_digestible (counted_run h.acks h.sigMask hrun)
  · intro tr st hrun
    refine Run.traced (P := fun tr st => (∀ l ∈ tr, l.2.completes = true) ∧
      ∃ tr', Run (Step bls) (Loop.start s₀) tr' st) hrun
      ⟨fun l hl => (nomatch hl), [], Run.refl⟩ ?_
    rintro tr st l st' ⟨hall, tr', hrun'⟩ ⟨hstep, hok⟩
    obtain ⟨hcomp, e, hstep'⟩ :=
      wireStep_step (counted_run h.acks h.sigMask hrun') hstep hok
    refine ⟨?_, _, hrun'.tail hstep'⟩
    intro l' hl'
    rcases List.mem_append.mp hl' with hold | hnew
    · exact hall l' hold
    · rw [List.mem_singleton.mp hnew]
      exact hcomp

end Bytes

/-- The wire form of a Prepare for the sample topic with the given varint as
    its source and no signature. -/
def prepareBytes (source : List UInt8) : List UInt8 :=
  [0x08, 0x01, 0x10] ++ source
    ++ [0x42, 0x06, 0x30, 0x78, 0x35, 0x31, 0x61, 0x62]

/-- The request those bytes decode to. -/
def prepareRequest (source : ℤ) : ConsensusRequest :=
  ⟨some 1, some source, [], [], [], some "0x51ab"⟩

/-- The 64 bytes of the point that node 1 answers the Announce of the sample
    topic with. -/
def ackSignature : List UInt8 := List.replicate 61 0 ++ [0x01, 0xc5, 0xcb]

/-- The wire form of that answer: a Prepare with its signature and an empty
    mask. -/
def ackBytes : List UInt8 :=
  [0x08, 0x01, 0x10, 0x01, 0x2a, 0x40] ++ ackSignature
    ++ [0x32, 0x00, 0x42, 0x06, 0x30, 0x78, 0x35, 0x31, 0x61, 0x62]

/-- The request it decodes to. -/
def ackRequest : ConsensusRequest :=
  ⟨some 1, some 1, ackSignature, [], [], some "0x51ab"⟩

/-- A point of 64 bytes. -/
def samplePoint (bs : List UInt8) : ℤ × Option String :=
  if bs.length = 64 then (setBytes bs, none) else (0, some "malformed point")

/-- A codec that knows the answer of node 1 and two unsigned messages;
    everything else, the empty string among it, lacks a required field. -/
def sampleCodec : Codec ℤ ℤ where
  marshal _ := none
  unmarshal bs :=
    if bs = ackBytes then some ackRequest
    else if bs = prepareBytes [7] then some (prepareRequest 7)
    else if bs = prepareBytes
        [0xff, 0xff, 0xff, 0xff, 0xff, 0xff, 0xff, 0xff, 0xff, 0x01] then
      some (prepareRequest (-1))
    else none
  marshalSignature _ := []
  unmarshalSignature := samplePoint
  marshalPublicKey _ := []
  unmarshalPublicKey := samplePoint

/-- The answer of node 1, whose signature decodes, is digestible to a fresh
    session, which counts it. -/
theorem receive_safe_sample :
    samplePoint ackSignature = ((sampleAck 1).signature, none) ∧
    bytesToModelMessage sampleCodec ackBytes = some (sampleAck 1) ∧
    Digestible sampleCodec intBls (Loop.start sampleSession) ackBytes ∧
    SafeReceive sampleCodec intBls (Loop.start sampleSession) ackBytes ∧
    (receive sampleCodec intBls (Loop.start sampleSession) ackBytes).2
      = .acked := by
  have hdec : bytesToModelMessage sampleCodec ackBytes = some (sampleAck 1) := by
    decide +kernel
  have hdig : Digestible sampleCodec intBls (Loop.start sampleSession)
      ackBytes := ⟨_, hdec, fun _ => ⟨rfl, Or.inr (by decide)⟩⟩
  refine ⟨by decide +kernel, hdec, hdig, ?_, by decide +kernel⟩
  exact ((receive_safe_iff_digestible sampleSession_fresh).1 [] _
    Run.refl _).mpr hdig

/-- The empty byte string, a Prepare of node 7 of seven and a Prepare of node
    -1 each kill the process. -/
theorem bytes_crash_session :
    (receive sampleCodec intBls (Loop.start sampleSession) []).2
      = .panic .nilDereference ∧
    (receive sampleCodec intBls (Loop.start sampleSession)
      (prepareBytes [7])).2 = .panic (.indexOutOfRange 7 7) ∧
    (receive sampleCodec intBls (Loop.start sampleSession) (prepareBytes
      [0xff, 0xff, 0xff, 0xff, 0xff, 0xff, 0xff, 0xff, 0xff, 0x01])).2
      = .panic .negativeBitIndex ∧
    ¬ SafeReceive sampleCodec intBls (Loop.start sampleSession) [] := by
  have hnil : (receive sampleCodec intBls (Loop.start sampleSession) []).2
      = .panic .nilDereference := by
    decide +kernel
  refine ⟨hnil, by decide +kernel, by decide +kernel, ?_⟩
  intro h
  have hcomp := h.completes
  rw [hnil] at hcomp
  exact nomatch hcomp

end RelayerFault
