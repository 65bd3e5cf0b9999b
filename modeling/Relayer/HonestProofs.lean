import Relayer.FaultProofs
import Relayer.NewSessionProofs

/-! # The honest protocol

    Any number of honest sessions of one epoch exchange their messages as
    bytes; whatever was broadcast may be delivered to any of them, in any
    order, several times or never.

    * in the linear model of the bls package an aggregate of verified acks is
      a valid multisignature (`collected_multisig`), so a session never
      refuses its own Prepared message (`witnesses_of_accepts`);
    * `HonestMsg` is what an honest session broadcasts, and what passes the
      checks of every other one;
    * the part of a run that one session sees is a run of that session
      (`sessionTrace`), so that what is known of sessions holds here;
    * **`honest_protocol_complete`**: no signature check fails, enough acks
      lead to exactly one Prepared message, and this message is accepted. -/

namespace RelayerHonest

open BitMask RelayerAccumulator RelayerBls RelayerFault RelayerMessage
open RelayerNewSession RelayerSession Transition

variable {F G : Type} [AddCommGroup F] [AddCommGroup G]

/-! ## Aggregates of verified acks -/

/-- A multisignature of one node. -/
theorem multisigValue_single (H : HashPoints F G) (E P : F) (body : String)
    (i : ℕ) :
    multisigValue H E P body (setBit 0 i)
      = H.onMessage E body P + H.onIndex E i E := by
  rw [multisigValue, bitsOf_setBit, bitsOf_zero]
  simp

section Aggregates

variable [DecidableEq G] {H : HashPoints F G} {coefs : List F → List ℤ}
  {hlen : ∀ pks, (coefs pks).length = pks.length}
  {s₀ s : Session F G F} {st : Loop F G F} {msg : MessageWithSig F G} {pk : F}
  {tr : List (Event F G × Verdict F G)}

/-- An ack passes the check exactly when it is the multisignature of its
    source. -/
theorem verifyAckSignature_iff (hkey : index s.publicKeys msg.source = .ok pk) :
    s.verifyAckSignature (linearBls H coefs hlen) msg = .ok (.ok ()) ↔
      msg.signature = H.onMessage s.epochPublicKey msg.toBody.marshal pk
        + H.onIndex s.epochPublicKey msg.source.toNat s.epochPublicKey := by
  rw [verifyAckSignature_of_index hkey, ← multisigValue_single]
  split
  · rename_i hver
    exact ⟨fun _ => verifyMultisig_iff.mp hver, fun _ => rfl⟩
  · rename_i hver
    constructor
    · intro h
      cases Except.ok.inj h
    · exact fun h => absurd (verifyMultisig_iff.mpr h) hver

/-- **THE AGGREGATE IS A MULTISIGNATURE** of the nodes in the mask. -/
theorem collected_multisig
    (hc : Collected (linearBls H coefs hlen) s₀ tr s) :
    s.partSignature = multisigValue H s₀.epochPublicKey s.partPublicKey
      (Body.marshal ⟨s₀.topic⟩) s.sigMask := by
  have hsigs : ∀ m ∈ accepted tr, m.signature
      = H.onMessage s₀.epochPublicKey (Body.marshal ⟨s₀.topic⟩)
          (keyAt s₀ m.source.toNat)
        + H.onIndex s₀.epochPublicKey m.source.toNat s₀.epochPublicKey := by
    intro m hm
    obtain ⟨-, htopic, hrange, hver⟩ := hc.valid m hm
    obtain ⟨pk, hkey, -⟩ := index_of_inRange hrange
    have hpk : keyAt s₀ m.source.toNat = pk := by
      rw [keyAt, List.getD_eq_getElem?_getD, (index_ok_iff.mp hkey).2]
      rfl
    rw [(verifyAckSignature_iff hkey).mp hver, hpk, ← htopic]
  rw [hc.signature, List.map_congr_left hsigs, List.sum_map_add, hc.publicKey,
    multisigValue, map_list_sum, List.map_map, hc.bits,
    List.sum_toFinset _ hc.nodup, List.map_map]
  rfl

/-- A session accepts the Prepared message it has put together. -/
theorem witnesses_of_accepts
    (hc : Collected (linearBls H coefs hlen) s₀ tr st.session)
    (hacc : Accepts (linearBls H coefs hlen) st msg pk)
    (hthr : st.session.acks + 1 ≥ st.session.thresholdAck) :
    (st.session.countAck msg pk).verifyThresholdWitnesses
      (linearBls H coefs hlen) ((st.session.countAck msg pk).outmsg msg)
      = .ok () := by
  have hcounts := acceptAck_counts (linearBls H coefs hlen) st msg pk
  -- the ack is counted, and counting keeps the sum that of the mask
  have hstep := step_react (linearBls H coefs hlen) st (.received msg) (by
    show (st.handle (linearBls H coefs hlen) msg).2.isPanic = false
    rw [handle_of_accepts hacc]
    cases hv : (st.acceptAck (linearBls H coefs hlen) msg pk).2 with
    | panic p => rw [hv] at hcounts; cases hcounts
    | _ => rfl)
  have hc' := collected_step hc hstep
  have hsession : (st.react (linearBls H coefs hlen) (.received msg)).1.session
      = st.session.countAck msg pk := by
    show (st.handle (linearBls H coefs hlen) msg).1.session = _
    rw [handle_of_accepts hacc, acceptAck_session]
  rw [hsession] at hc'
  rw [verifyThresholdWitnesses_ok_iff]
  constructor
  · show _ ≤ ((popcount (st.session.countAck msg pk).sigMask : ℕ) : ℤ)
    rw [← hc'.toCounted.acks_eq]
    exact hthr
  · rw [verifyMultisig_iff, hc'.config.epochPublicKey]
    have hbody : ((st.session.countAck msg pk).outmsg msg).toBody
        = ⟨s₀.topic⟩ := by
      rw [← hacc.mine.trans hc.config.topic]
      rfl
    rw [hbody]
    exact collected_multisig hc'

/-- A counted ack is acknowledged, or completes a valid Prepared message. -/
theorem acceptAck_verdict
    (hc : Collected (linearBls H coefs hlen) s₀ tr st.session)
    (hacc : Accepts (linearBls H coefs hlen) st msg pk) :
    (st.acceptAck (linearBls H coefs hlen) msg pk).2 = .acked ∨
    (st.acceptAck (linearBls H coefs hlen) msg pk).2
        = .witnessed ((st.session.countAck msg pk).outmsg msg) ∧
      ((st.session.countAck msg pk).outmsg msg).signature
        = multisigValue H s₀.epochPublicKey
          (st.session.countAck msg pk).partPublicKey
          ((st.session.countAck msg pk).outmsg msg).toBody.marshal
          (st.session.countAck msg pk).sigMask := by
  rw [Loop.acceptAck]
  by_cases hthr : (st.session.countAck msg pk).acks
      ≥ (st.session.countAck msg pk).thresholdAck
  · have hver := witnesses_of_accepts hc hacc hthr
    refine Or.inr ⟨?_, ?_⟩
    · simp only [if_pos hthr, hver]
    · rw [← hc.config.epochPublicKey]
      exact verifyMultisig_iff.mp (verifyThresholdWitnesses_ok_iff.mp hver).2
  · simp only [if_neg hthr, true_or]

end Aggregates

/-! ## Enough acks -/

section Answers

variable {PK SG SK : Type}

/-- A signature check has failed in this step of the session; a Prepared
    message that has too few bits for the session is refused for that. -/
def SignatureFails (s₀ : Session PK SG SK) :
    Event PK SG × Verdict PK SG → Prop
  | (_, .ackMismatch _) => True
  | (_, .witnessFailed _ _) => True
  | (.received msg, .thresholdFailed _) => s₀.thresholdAck ≤ popcount msg.mask
  | _ => False

/-- The source of a Prepare message for the topic whose handler has ended. -/
def handledOf (topic : String) : Event PK SG × Verdict PK SG → Option ℤ
  | (.received msg, v) =>
      if msg.msgType = .prepare ∧ msg.bridgeEventHash = topic ∧
        v.completes = true then some msg.source
      else none
  | _ => none

/-- The sources of the Prepare messages a session has handled. -/
def handledSources (topic : String) (tr : List (Event PK SG × Verdict PK SG)) :
    Finset ℤ :=
  (tr.filterMap (handledOf topic)).toFinset

/-- The Prepared messages a session has broadcast. -/
def broadcastPrepared (tr : List (Event PK SG × Verdict PK SG)) :
    List (MessageWithSig PK SG) :=
  (tr.filterMap (fun l => l.2.broadcast)).filter
    (fun m => m.msgType = .prepared)

/-- One more label adds at most its own source. -/
theorem handledSources_concat (topic : String)
    (tr : List (Event PK SG × Verdict PK SG))
    (l : Event PK SG × Verdict PK SG) {src : ℤ}
    (h : src ∈ handledSources topic (tr ++ [l])) :
    src ∈ handledSources topic tr ∨ handledOf topic l = some src := by
  rw [handledSources, filterMap_concat, List.toFinset_append,
    Finset.mem_union] at h
  refine h.imp_right (fun hnew => ?_)
  rwa [List.mem_toFinset, Option.mem_toList] at hnew

variable [Add PK] [Add SG] {bls : Bls PK SG SK} {s₀ : Session PK SG SK}
  {st st' : Loop PK SG SK} {l : Event PK SG × Verdict PK SG}
  {msg : MessageWithSig PK SG} {v : Verdict PK SG}

/-- A Prepare message that was handled below the threshold has its bit set. -/
theorem bit_of_handled (hmine : msg.bridgeEventHash = st.session.topic)
    (htype : msg.msgType = .prepare)
    (hcomp : (st.handle bls msg).2.completes = true)
    (hok : ∀ err, (st.handle bls msg).2 ≠ .ackMismatch err)
    (hbelow : (st.handle bls msg).1.session.acks
      < (st.handle bls msg).1.session.thresholdAck) :
    0 ≤ msg.source ∧
      msg.source.toNat ∈ bitsOf (st.handle bls msg).1.session.sigMask := by
  rw [handle_of_prepare bls hmine htype] at hcomp hok hbelow ⊢
  rw [Loop.handlePrepare] at hcomp hok hbelow ⊢
  -- the guards in their order: a handler that stops at one of them blocks,
  -- panics, finds the threshold reached or the signature wrong
  by_cases hlock : st.locked = true
  · rw [if_pos hlock] at hcomp
    cases hcomp
  · rw [if_neg hlock] at hcomp hok hbelow ⊢
    by_cases hacks : st.session.acks ≥ st.session.thresholdAck
    · rw [if_pos hacks] at hbelow
      exact absurd hacks (not_le.mpr hbelow)
    · rw [if_neg hacks] at hcomp hok hbelow ⊢
      by_cases hsrc : msg.source < 0
      · rw [bit_of_neg hsrc] at hcomp
        cases hcomp
      · rw [bit_of_nonneg (not_lt.mp hsrc)] at hcomp hok hbelow ⊢
        refine ⟨not_lt.mp hsrc, ?_⟩
        cases hbit : st.session.sigMask.testBit msg.source.toNat with
        | true => exact mem_bitsOf.mpr hbit
        | false =>
            rw [hbit] at hcomp hok
            cases hver : st.session.verifyAckSignature bls msg with
            | error p => rw [hver] at hcomp; cases hcomp
            | ok res =>
                cases res with
                | error err => rw [hver] at hok; exact absurd rfl (hok err)
                | ok u =>
                    rw [hver] at hcomp
                    cases hkey : index st.session.publicKeys msg.source with
                    | error p => rw [hkey] at hcomp; cases hcomp
                    | ok pk =>
                        show _ ∈ bitsOf
                          (st.acceptAck bls msg pk).1.session.sigMask
                        rw [acceptAck_session]
                        show _ ∈ bitsOf (setBit _ _)
                        rw [bitsOf_setBit]
                        exact Finset.mem_insert_self _ _

/-- Only the Announce case signs. -/
theorem announced_eq {out : MessageWithSig PK SG}
    (h : (st.handle bls msg).2 = .announced out) :
    (st.handleAnnounce bls msg).2 = .announced out := by
  by_cases hmine : msg.bridgeEventHash = st.session.topic
  · cases htype : msg.msgType with
    -- the other types are answered with something else, or not at all
    | announce =>
        rw [Loop.handle, if_neg (not_not.mpr hmine), htype] at h
        exact h
    | other n =>
        rw [Loop.handle, if_neg (not_not.mpr hmine), htype] at h
        cases h
    | prepared =>
        rw [handle_of_prepared bls hmine htype, Loop.handlePrepared] at h
        split at h
        · cases h
        · split at h
          · cases h
          · split at h
            · cases h
            · split at h <;> cases h
    | prepare =>
        rw [handle_of_prepare bls hmine htype] at h
        rcases handlePrepare_cases bls st msg with ⟨hnone, -⟩ | ⟨pk, heq⟩
        · rw [h] at hnone
          cases hnone
        · have hcounts := acceptAck_counts bls st msg pk
          rw [← heq, h] at hcounts
          cases hcounts
  · rw [Loop.handle, if_pos hmine] at h
    cases h

/-- What a session broadcasts is a Prepare, or the Prepared message it has put
    together. -/
theorem broadcast_cases (bls : Bls PK SG SK) (st : Loop PK SG SK)
    (msg : MessageWithSig PK SG) :
    ((st.handle bls msg).2.built = none ∧
      ∀ out, (st.handle bls msg).2.broadcast = some out →
        out.msgType = .prepare) ∨
    (∃ out err, (st.handle bls msg).2 = .witnessFailed out err) ∨
    ∃ out, (st.handle bls msg).2 = .witnessed out ∧
      out.msgType = .prepared ∧ out.source = st.session.id ∧
      (st.handle bls msg).1.session.verifyThresholdWitnesses bls out
        = .ok () := by
  rcases handle_session bls st msg with ⟨-, hnot⟩ | ⟨pk, hacc⟩
  · -- not counted: the only other answer is to an Announce
    refine Or.inl ⟨?_, ?_⟩
    · by_contra hbuilt
      rw [counts_of_built hbuilt] at hnot
      cases hnot
    · intro out hout
      cases hv : (st.handle bls msg).2 with
      | announced out' =>
          rw [hv] at hout
          obtain rfl := Option.some.inj hout
          obtain rfl := Verdict.announced.inj (announced_eq hv)
          rfl
      | witnessed out' => rw [hv] at hnot; cases hnot
      | _ => rw [hv] at hout; cases hout
  · rw [handle_of_accepts hacc, Loop.acceptAck]
    split
    · split
      · exact Or.inr (Or.inl ⟨_, _, rfl⟩)
      · rename_i hver
        exact Or.inr (Or.inr ⟨_, rfl, rfl, rfl, hver⟩)
    · refine Or.inl ⟨rfl, fun out hout => ?_⟩
      cases hout

/-- A session in which no signature check has failed: at the threshold it has
    put one Prepared message together, below it every source handled is in the
    mask; and what it has put together it has verified and broadcast. -/
structure Answered (bls : Bls PK SG SK) (s₀ : Session PK SG SK)
    (tr : List (Event PK SG × Verdict PK SG)) (s : Session PK SG SK) :
    Prop where
  built_one : s₀.thresholdAck ≤ s.acks → (built tr).length = 1
  in_mask : s.acks < s₀.thresholdAck → ∀ src ∈ handledSources s₀.topic tr,
    src ∈ (bitsOf s.sigMask).image (fun i : ℕ => (i : ℤ))
  broadcast : broadcastPrepared tr = built tr
  verified : ∀ out ∈ built tr, out.source = s₀.id ∧
    s₀.verifyThresholdWitnesses bls out = .ok ()

/-- A step handles a message, or the handlers say nothing in it. -/
theorem step_received_or_quiet (hstep : Step bls st l st') :
    (∃ msg, l = (.received msg, (st.handle bls msg).2) ∧
      st' = (st.handle bls msg).1) ∨
    ((∀ topic, handledOf topic l = none) ∧ l.2.broadcast = none ∧
      l.2.built = none) := by
  obtain ⟨e, v⟩ := l
  obtain ⟨heq, -⟩ := hstep
  obtain rfl : (st.react bls e).1 = st' := congrArg Prod.fst heq
  obtain rfl : (st.react bls e).2 = v := congrArg Prod.snd heq
  cases e with
  | receiverLeft => exact Or.inr ⟨fun _ => rfl, rfl, rfl⟩
  | contextDone => exact Or.inr ⟨fun _ => rfl, rfl, rfl⟩
  | received msg => exact Or.inl ⟨msg, rfl, rfl⟩

omit [Add PK] [Add SG] in
/-- The witness check of a session is one of the signature checks. -/
theorem signatureFails_of_witnessFailed {e : Event PK SG}
    {out : MessageWithSig PK SG} {err : String}
    (hv : v = .witnessFailed out err) : SignatureFails s₀ (e, v) := by
  subst hv
  trivial

/-- What a step adds to the Prepared messages broadcast, when no check
    fails. -/
theorem broadcast_of_step (hstep : Step bls st l st')
    (hok : ¬ SignatureFails s₀ l) :
    l.2.broadcast.toList.filter (fun m => m.msgType = .prepared)
      = l.2.built.toList := by
  rcases step_received_or_quiet hstep with ⟨msg, rfl, -⟩ | ⟨-, hsilent, hnone⟩
  · rcases broadcast_cases bls st msg with
      ⟨hnone, hprepare⟩ | ⟨out, err, hv⟩ | ⟨out, hv, htype, -, -⟩
    · rw [hnone]
      refine List.filter_eq_nil_iff.mpr (fun m hm => ?_)
      rw [hprepare m (Option.mem_toList.mp hm)]
      decide
    · exact absurd (signatureFails_of_witnessFailed hv) hok
    · rw [hv]
      exact List.filter_cons_of_pos (decide_eq_true htype)
  · rw [hsilent, hnone]
    rfl

/-- What a step puts together is verified, when no check fails. -/
theorem verified_of_step {out : MessageWithSig PK SG}
    (hstep : Step bls st l st') (hok : ¬ SignatureFails s₀ l)
    (hout : l.2.built = some out) :
    out.source = st.session.id ∧
      st'.session.verifyThresholdWitnesses bls out = .ok () := by
  rcases step_received_or_quiet hstep with ⟨msg, rfl, rfl⟩ | ⟨-, -, hnone⟩
  · rcases broadcast_cases bls st msg with
      ⟨hnone, -⟩ | ⟨out', err, hv⟩ | ⟨out', hv, -, hsource, hver⟩
    · rw [hnone] at hout
      cases hout
    · exact absurd (signatureFails_of_witnessFailed hv) hok
    · rw [hv] at hout
      obtain rfl := Option.some.inj hout
      exact ⟨hsource, hver⟩
  · rw [hnone] at hout
    cases hout

/-- A source that is handled in a step below the threshold is in the mask
    after it. -/
theorem mask_of_handled {src : ℤ} (hstep : Step bls st l st')
    (hok : ¬ SignatureFails s₀ l) (hconf : SameConfig s₀ st.session)
    (hbelow : st'.session.acks < st'.session.thresholdAck)
    (hsrc : handledOf s₀.topic l = some src) :
    src ∈ (bitsOf st'.session.sigMask).image (fun i : ℕ => (i : ℤ)) := by
  rcases step_received_or_quiet hstep with ⟨msg, rfl, rfl⟩ | ⟨hnone, -, -⟩
  · have hverified : ∀ err, (st.handle bls msg).2 ≠ .ackMismatch err := by
      intro err hv
      rw [hv] at hok
      exact hok trivial
    rw [handledOf] at hsrc
    split at hsrc
    · rename_i hcond
      obtain ⟨htype, hmine, hcomp⟩ := hcond
      obtain rfl := Option.some.inj hsrc
      obtain ⟨hnonneg, hbit⟩ := bit_of_handled
        (hmine.trans hconf.topic.symm) htype hcomp hverified hbelow
      exact Finset.mem_image.mpr ⟨_, hbit, Int.toNat_of_nonneg hnonneg⟩
    · cases hsrc
  · rw [hnone] at hsrc
    cases hsrc

end Answers

section AnsweredRuns

variable {PK SG SK : Type} [AddCommGroup PK] [AddCommGroup SG]
  {bls : Bls PK SG SK} {s₀ s : Session PK SG SK} {st st' : Loop PK SG SK}
  {l : Event PK SG × Verdict PK SG}
  {tr : List (Event PK SG × Verdict PK SG)}

/-- A fresh session has answered nobody. -/
theorem answered_init (bls : Bls PK SG SK) (h : Fresh s₀)
    (hthr : 1 ≤ s₀.thresholdAck) : Answered bls s₀ [] s₀ where
  built_one := by
    intro hle
    rw [h.acks] at hle
    omega
  in_mask := by
    intro _ src hsrc
    cases Finset.notMem_empty src hsrc
  broadcast := rfl
  verified := by
    intro out hout
    cases hout

/-- One step without a failing check. -/
theorem answered_step (hc : Collected bls s₀ tr st.session)
    (ha : Answered bls s₀ tr st.session) (hstep : Step bls st l st')
    (hok : ¬ SignatureFails s₀ l) :
    Answered bls s₀ (tr ++ [l]) st'.session := by
  have hconf' := (counted_step hc.toCounted hstep).config
  refine ⟨?_, ?_, ?_, ?_⟩
  · -- the count that reaches the threshold is the first one to build
    intro hreached
    rw [built_concat]
    rcases step_cases hstep with ⟨hsame, -, hnone⟩
      | ⟨msg, pk, -, hacc, hsession, -, hbuilt⟩
    · rw [hnone, Option.toList_none, List.append_nil]
      rw [hsame] at hreached
      exact ha.built_one hreached
    · have hbelow := hacc.below
      rw [hc.config.thresholdAck] at hbelow
      rw [hsession] at hreached
      rw [hc.built_none hbelow, hbuilt, hc.config.thresholdAck,
        if_pos (show st.session.acks + 1 ≥ s₀.thresholdAck from hreached)]
      rfl
  -- a source handled before is still in the mask, or it was handled now
  · intro hbelow src hsrc
    rcases handledSources_concat s₀.topic tr l hsrc with hold | hnew
    · -- the mask only grows
      rcases step_cases hstep with ⟨hsame, -, -⟩
        | ⟨msg, pk, -, hacc, hsession, -, -⟩
      · rw [hsame] at hbelow ⊢
        exact ha.in_mask hbelow src hold
      · have hbelow' := hacc.below
        rw [hc.config.thresholdAck] at hbelow'
        refine Finset.image_subset_image ?_ (ha.in_mask hbelow' src hold)
        rw [hsession]
        show _ ⊆ bitsOf (setBit st.session.sigMask msg.source.toNat)
        rw [bitsOf_setBit]
        exact Finset.subset_insert _ _
    · refine mask_of_handled hstep hok hc.config ?_ hnew
      rw [hconf'.thresholdAck]
      exact hbelow
  · rw [broadcastPrepared, filterMap_concat, List.filter_append,
      broadcast_of_step hstep hok, built_concat]
    exact congrArg (· ++ _) ha.broadcast
  · intro out hout
    rw [built_concat] at hout
    rcases List.mem_append.mp hout with hold | hnew
    · exact ha.verified out hold
    · obtain ⟨hsource, hver⟩ :=
        verified_of_step hstep hok (Option.mem_toList.mp hnew)
      rw [hconf'.verifyThresholdWitnesses] at hver
      exact ⟨hsource.trans hc.config.id, hver⟩

/-- Every run without a failing check. -/
theorem answered_run (h : Fresh s₀) (hthr : 1 ≤ s₀.thresholdAck)
    (hrun : Run (Step bls) (Loop.start s₀) tr st)
    (hok : ∀ l ∈ tr, ¬ SignatureFails s₀ l) : Answered bls s₀ tr st.session := by
  have hboth : Collected bls s₀ tr st.session ∧
      ((∀ l ∈ tr, ¬ SignatureFails s₀ l) → Answered bls s₀ tr st.session) := by
    refine Run.traced (P := fun tr st => Collected bls s₀ tr st.session ∧
      ((∀ l ∈ tr, ¬ SignatureFails s₀ l) → Answered bls s₀ tr st.session)) hrun
      ⟨collected_init bls h hthr, fun _ => answered_init bls h hthr⟩ ?_
    rintro tr st l st' ⟨hc, ha⟩ hstep
    refine ⟨collected_step hc hstep, fun hall => ?_⟩
    exact answered_step hc
      (ha (fun l' hl' => hall l' (List.mem_append_left _ hl'))) hstep
      (hall l (List.mem_append_right _ List.mem_cons_self))
  exact hboth.2 hok

/-- **ENOUGH ACKS, ONE PREPARED MESSAGE**. -/
theorem broadcast_one (hc : Collected bls s₀ tr s) (ha : Answered bls s₀ tr s)
    (henough : s₀.thresholdAck ≤ (handledSources s₀.topic tr).card) :
    (broadcastPrepared tr).length = 1 := by
  rw [ha.broadcast]
  refine ha.built_one ?_
  by_contra hbelow
  rw [not_le] at hbelow
  have hsub : handledSources s₀.topic tr
      ⊆ (bitsOf s.sigMask).image (fun i : ℕ => (i : ℤ)) := ha.in_mask hbelow
  have hcard : (handledSources s₀.topic tr).card ≤ (bitsOf s.sigMask).card :=
    (Finset.card_le_card hsub).trans Finset.card_image_le
  have hacks := hc.toCounted.acks_eq
  rw [popcount_eq_card] at hacks
  omega

end AnsweredRuns

/-! ## Honest sessions of one epoch -/

/-- The nodes of an epoch by the discrete logarithms of their keys, in the
    order of their ids, and the anti-rogue coefficients. -/
structure HonestEpoch (F : Type) where
  keys : List F
  coefficients : List ℤ
  coefficients_length : coefficients.length = keys.length
  /-- Ids are Go integers. -/
  length_le : keys.length ≤ 2 ^ 63

/-- `EpochPublicKey`. -/
def HonestEpoch.publicKey (ep : HonestEpoch F) : F :=
  (List.zipWith (fun a pk => a • pk) ep.coefficients ep.keys).sum

/-- `MembershipKey` of node `i`: the sum of the parts of all nodes. -/
def HonestEpoch.membershipKey (H : HashPoints F G) (ep : HonestEpoch F)
    (i : ℕ) : G :=
  (List.zipWith (fun a sk => H.onIndex ep.publicKey i (a • sk))
    ep.coefficients ep.keys).sum

/-- The membership key of a node is a multisignature of nothing by it. -/
theorem membershipKey_eq (H : HashPoints F G) (ep : HonestEpoch F) (i : ℕ) :
    ep.membershipKey H i = H.onIndex ep.publicKey i ep.publicKey := by
  calc ep.membershipKey H i
      = ((List.zipWith (fun a sk => a • sk) ep.coefficients ep.keys).map
          (H.onIndex ep.publicKey i)).sum := by
        rw [List.map_zipWith]
        rfl
    _ = H.onIndex ep.publicKey i ep.publicKey := (map_list_sum _ _).symm

/-- A session of an honest node of the epoch, as it is made. -/
structure HonestSession (H : HashPoints F G) (ep : HonestEpoch F) where
  session : Session F G F
  fresh : Fresh session
  threshold : 1 ≤ session.thresholdAck
  publicKeys : session.publicKeys = ep.keys
  own : index ep.keys session.id = .ok session.privateKey
  epochPublicKey : session.epochPublicKey = ep.publicKey
  membershipKey : session.membershipKey
    = ep.membershipKey H session.id.toNat

/-- **WHAT `NewSession` MAKES IS HONEST** at a node that has the keys of the
    epoch. -/
theorem newSession_honest {H : HashPoints F G} {ep : HonestEpoch F}
    {pretty : RelayerLeader.PeerID → String} {topic : String}
    {r : Request F G F} {s : Session F G F}
    (h : r.newSession pretty topic = .created s)
    (hkeys : r.registry.publicKeys = .ok ep.keys)
    (hown : index ep.keys s.id = .ok s.privateKey)
    (hepoch : r.node.epochPublicKey = ep.publicKey)
    (hmember : r.node.membershipKey = ep.membershipKey H s.id.toNat) :
    ∃ hs : HonestSession H ep, hs.session = s := by
  obtain ⟨view, hmade⟩ := newSession_created h
  have hthr : 1 ≤ s.thresholdAck := by
    rw [hmade.thresholdAck]
    omega
  have hpks : s.publicKeys = ep.keys :=
    Except.ok.inj (hmade.publicKeys.symm.trans hkeys)
  exact ⟨⟨s, hmade.fresh, hthr, hpks, hown, hmade.epochPublicKey.trans hepoch,
    hmade.membershipKey.trans hmember⟩, rfl⟩

/-- What honest sessions broadcast: an Announce, the multisignature of one
    node, or a multisignature of the nodes in the mask. -/
inductive HonestMsg (H : HashPoints F G) (ep : HonestEpoch F)
    (msg : MessageWithSig F G) : Prop where
  | announce (htype : msg.msgType = .announce)
  | prepare (htype : msg.msgType = .prepare) (sk : F)
      (hkey : index ep.keys msg.source = .ok sk)
      (hsig : msg.signature
        = H.onMessage ep.publicKey msg.toBody.marshal sk
          + H.onIndex ep.publicKey msg.source.toNat ep.publicKey)
  | prepared (htype : msg.msgType = .prepared)
      (hsig : msg.signature = multisigValue H ep.publicKey msg.publicKey
        msg.toBody.marshal msg.mask)

/-- Honest messages are of one of the three types. -/
theorem HonestMsg.isKnown {H : HashPoints F G} {ep : HonestEpoch F}
    {msg : MessageWithSig F G} (h : HonestMsg H ep msg) :
    msg.msgType.isKnown = true := by
  cases h with
  | announce htype => rw [htype]; rfl
  | prepare htype sk hkey hsig => rw [htype]; rfl
  | prepared htype hsig => rw [htype]; rfl

/-- A node's index is an `int64`. -/
theorem HonestSession.source_int64 {H : HashPoints F G} {ep : HonestEpoch F}
    (hs : HonestSession H ep) : IsInt64 hs.session.id := by
  obtain ⟨hnonneg, hlt⟩ := inRange_of_index_ok hs.own
  have hle := ep.length_le
  constructor <;> omega

section Handlers

variable [DecidableEq G] {H : HashPoints F G} {coefs : List F → List ℤ}
  {hlen : ∀ pks, (coefs pks).length = pks.length} {ep : HonestEpoch F}
  {hs : HonestSession H ep} {st : Loop F G F} {msg : MessageWithSig F G}
  {tr : List (Event F G × Verdict F G)}

/-- A Prepared message of the epoch with enough bits passes the check of every
    session of the epoch. -/
theorem prepared_verified {hs : HonestSession H ep} {s : Session F G F}
    (hconf : SameConfig hs.session s)
    (hsig : msg.signature = multisigValue H ep.publicKey msg.publicKey
      msg.toBody.marshal msg.mask)
    (henough : hs.session.thresholdAck ≤ popcount msg.mask) :
    s.verifyThresholdWitnesses (linearBls H coefs hlen) msg = .ok () := by
  rw [verifyThresholdWitnesses_ok_iff, hconf.thresholdAck,
    hconf.epochPublicKey, hs.epochPublicKey]
  exact ⟨henough, verifyMultisig_iff.mpr hsig⟩

/-- What an honest handler does with an honest message. -/
structure HandledWell (bls : Bls F G F) (hs : HonestSession H ep)
    (st : Loop F G F) (msg : MessageWithSig F G) : Prop where
  noPanic : (st.handle bls msg).2.isPanic = false
  noFail : ¬ SignatureFails hs.session (.received msg, (st.handle bls msg).2)
  honest : ∀ out, (st.handle bls msg).2.broadcast = some out →
    HonestMsg H ep out ∧ out.source = hs.session.id

omit [DecidableEq G] in
/-- A verdict without a broadcast: nothing to say about an answer. -/
theorem handledWell_of_silent {bls : Bls F G F} {v : Verdict F G}
    (hv : (st.handle bls msg).2 = v) (hpanic : v.isPanic = false)
    (hfail : ¬ SignatureFails hs.session (.received msg, v))
    (hsilent : v.broadcast = none) : HandledWell bls hs st msg := by
  subst hv
  refine ⟨hpanic, hfail, fun out hout => ?_⟩
  rw [hsilent] at hout
  cases hout

/-- An Announce is answered with the multisignature of the session. -/
theorem announce_handled (hconf : SameConfig hs.session st.session)
    (hmine : msg.bridgeEventHash = st.session.topic)
    (htype : msg.msgType = .announce) :
    HandledWell (linearBls H coefs hlen) hs st msg := by
  have heq : st.handle (linearBls H coefs hlen) msg
      = st.handleAnnounce (linearBls H coefs hlen) msg := by
    rw [Loop.handle, if_neg (not_not.mpr hmine), htype]
  refine ⟨by rw [heq]; rfl, by rw [heq]; exact id, ?_⟩
  intro out hout
  rw [heq] at hout
  obtain rfl := Option.some.inj hout
  refine ⟨HonestMsg.prepare rfl hs.session.privateKey ?_ ?_, hconf.id⟩
  · show index ep.keys st.session.id = _
    rw [hconf.id]
    exact hs.own
  · show H.onMessage st.session.epochPublicKey _ st.session.privateKey
        + st.session.membershipKey = _
    rw [hconf.epochPublicKey, hconf.privateKey, hconf.membershipKey,
      hs.membershipKey, hs.epochPublicKey, membershipKey_eq]
    show _ = _ + H.onIndex ep.publicKey st.session.id.toNat ep.publicKey
    rw [hconf.id]

/-- A Prepared message is refused for its number of bits only. -/
theorem prepared_handled (hconf : SameConfig hs.session st.session)
    (hmine : msg.bridgeEventHash = st.session.topic)
    (htype : msg.msgType = .prepared)
    (hsig : msg.signature = multisigValue H ep.publicKey msg.publicKey
      msg.toBody.marshal msg.mask) :
    HandledWell (linearBls H coefs hlen) hs st msg := by
  have heq := handle_of_prepared (linearBls H coefs hlen) hmine htype
  rw [Loop.handlePrepared] at heq
  -- an honest signature fails only where the signers are too few
  cases hver : st.session.verifyThresholdWitnesses
      (linearBls H coefs hlen) msg with
  | error err =>
      rw [hver] at heq
      refine handledWell_of_silent (congrArg Prod.snd heq) rfl ?_ rfl
      intro henough
      rw [prepared_verified hconf hsig henough] at hver
      cases hver
  | ok u =>
      rw [hver] at heq
      dsimp only at heq
      split at heq
      · exact handledWell_of_silent (congrArg Prod.snd heq) rfl id rfl
      · split at heq
        · exact handledWell_of_silent (congrArg Prod.snd heq) rfl id rfl
        · split at heq
          · exact handledWell_of_silent (congrArg Prod.snd heq) rfl id rfl
          · exact handledWell_of_silent (congrArg Prod.snd heq) rfl id rfl

/-- A Prepare message is counted, or not wanted any more. -/
theorem prepare_handled {sk : F}
    (hc : Collected (linearBls H coefs hlen) hs.session tr st.session)
    (hmine : msg.bridgeEventHash = st.session.topic)
    (htype : msg.msgType = .prepare)
    (hkey : index ep.keys msg.source = .ok sk)
    (hsig : msg.signature = H.onMessage ep.publicKey msg.toBody.marshal sk
      + H.onIndex ep.publicKey msg.source.toNat ep.publicKey) :
    HandledWell (linearBls H coefs hlen) hs st msg := by
  have heq := handle_of_prepare (linearBls H coefs hlen) hmine htype
  cases hlock : st.locked with
  | true =>
      have hwaits : st.handle (linearBls H coefs hlen) msg
          = (st, .waitsForMutex) := by
        rw [heq, Loop.handlePrepare, if_pos hlock]
      exact handledWell_of_silent (congrArg Prod.snd hwaits) rfl id rfl
  | false =>
      have hpks : index st.session.publicKeys msg.source = .ok sk := by
        rw [hc.config.publicKeys, hs.publicKeys]
        exact hkey
      have hver : st.session.verifyAckSignature (linearBls H coefs hlen) msg
          = .ok (.ok ()) := by
        rw [verifyAckSignature_iff hpks, hc.config.epochPublicKey,
          hs.epochPublicKey]
        exact hsig
      -- enough already, or counted before: the handler returns early
      by_cases hdrop : st.session.acks ≥ st.session.thresholdAck ∨
          st.session.sigMask.testBit msg.source.toNat = true
      · have hdropped : st.handle (linearBls H coefs hlen) msg
            = (st, .dropped) := by
          rw [heq, handlePrepare_eq hlock hpks, if_pos hdrop]
        exact handledWell_of_silent (congrArg Prod.snd hdropped) rfl id rfl
      · rw [not_or, not_le, Bool.not_eq_true] at hdrop
        have hacc : Accepts (linearBls H coefs hlen) st msg sk :=
          ⟨hlock, hmine, htype, hdrop.1, hdrop.2, hpks, hver⟩
        rcases acceptAck_verdict hc hacc with hv | ⟨hv, hsig'⟩
        · rw [← handle_of_accepts hacc] at hv
          exact handledWell_of_silent hv rfl id rfl
        · rw [← handle_of_accepts hacc] at hv
          refine ⟨by rw [hv]; rfl, by rw [hv]; exact id, ?_⟩
          intro out hout
          rw [hv] at hout
          obtain rfl := Option.some.inj hout
          rw [hs.epochPublicKey] at hsig'
          exact ⟨HonestMsg.prepared rfl hsig', hc.config.id⟩

/-- **HONEST MEETS HONEST**: an honest message is handled without a panic and
    without a failing check, and the answer is honest again. -/
theorem handle_honest
    (hrun : Run (Step (linearBls H coefs hlen)) (Loop.start hs.session) tr st)
    (hmsg : HonestMsg H ep msg) :
    HandledWell (linearBls H coefs hlen) hs st msg := by
  have hc := collected_run hs.fresh hs.threshold hrun
  by_cases hmine : msg.bridgeEventHash = st.session.topic
  · cases hmsg with
    | announce htype => exact announce_handled hc.config hmine htype
    | prepare htype sk hkey hsig => exact prepare_handled hc hmine htype hkey hsig
    | prepared htype hsig => exact prepared_handled hc.config hmine htype hsig
  · have hnot : st.handle (linearBls H coefs hlen) msg = (st, .notMine) := by
      rw [Loop.handle, if_pos hmine]
    exact handledWell_of_silent (congrArg Prod.snd hnot) rfl id rfl

end Handlers

/-! ## The network -/

/-- The sessions, and the bytes that were broadcast. -/
structure Network (ι F G : Type) where
  loops : ι → Loop F G F
  pool : List (List UInt8)

/-- What can happen: a session starts the protocol, bytes from the pool are
    delivered to one, or one loses its receiver or its context. -/
inductive NetEvent (ι : Type) where
  | starts (k : ι)
  | delivers (k : ι) (msgBytes : List UInt8)
  | receiverLeft (k : ι)
  | contextDone (k : ι)

/-- The message of `StartProtocol`. -/
def startProtocol (bls : Bls F G F) (s : Session F G F) :
    MessageWithSig F G where
  source := s.id
  msgType := .announce
  bridgeEventHash := s.topic
  signature := bls.emptySignature
  mask := 0
  publicKey := bls.emptyPublicKey

section Networks

variable {ι : Type}

/-- `BroadcastTo` of what a session sends; `MessageToBytes` that returns nil
    would be dereferenced. -/
def Network.broadcast (c : Codec F G) (net : Network ι F G) :
    Option (MessageWithSig F G) → Option (Network ι F G)
  | none => some net
  | some out =>
      (messageToBytes c out).map
        (fun msgBytes => { net with pool := net.pool ++ [msgBytes] })

variable [DecidableEq ι]

/-- Session `k` comes to the state `st`. -/
def Network.update (net : Network ι F G) (k : ι) (st : Loop F G F) :
    Network ι F G :=
  { net with loops := Function.update net.loops k st }

/-- One step of the network. -/
def Network.react (c : Codec F G) (bls : Bls F G F) (net : Network ι F G) :
    NetEvent ι → Option (Network ι F G × Verdict F G)
  | .starts k =>
      (net.broadcast c (some (startProtocol bls (net.loops k).session))).map
        (fun net' => (net', .environment))
  | .delivers k msgBytes =>
      if msgBytes ∈ net.pool then
        let r := receive c bls (net.loops k) msgBytes
        ((net.update k r.1).broadcast c r.2.broadcast).map
          (fun net' => (net', r.2))
      else none
  | .receiverLeft k =>
      let r := (net.loops k).react bls .receiverLeft
      some (net.update k r.1, r.2)
  | .contextDone k =>
      let r := (net.loops k).react bls .contextDone
      some (net.update k r.1, r.2)

/-- What a step of the network is for session `k`. -/
def sessionLabel (c : Codec F G) (k : ι) :
    NetEvent ι × Verdict F G → Option (Event F G × Verdict F G)
  | (.delivers j msgBytes, v) =>
      if j = k then
        (bytesToModelMessage c msgBytes).map (fun msg => (.received msg, v))
      else none
  | (.receiverLeft j, v) => if j = k then some (.receiverLeft, v) else none
  | (.contextDone j, v) => if j = k then some (.contextDone, v) else none
  | (.starts _, _) => none

/-- The part of a run that session `k` sees. -/
def sessionTrace (c : Codec F G) (k : ι) (tr : List (NetEvent ι × Verdict F G)) :
    List (Event F G × Verdict F G) :=
  tr.filterMap (sessionLabel c k)

variable {H : HashPoints F G} {ep : HonestEpoch F}

/-- The honest sessions at their start, nothing broadcast. -/
def Network.start (s : ι → HonestSession H ep) : Network ι F G :=
  ⟨fun k => Loop.start (s k).session, []⟩

variable {c : Codec F G} {s : ι → HonestSession H ep}

/-- What holds along every run: each session has made a run of its own without
    a failing check, what is in the pool is honest, and what a session has
    broadcast is in the pool. -/
structure AllHonest (c : Codec F G) (bls : Bls F G F)
    (s : ι → HonestSession H ep) (tr : List (NetEvent ι × Verdict F G))
    (net : Network ι F G) : Prop where
  runs : ∀ k, Run (Step bls) (Loop.start (s k).session) (sessionTrace c k tr)
    (net.loops k)
  noFail : ∀ k, ∀ l ∈ sessionTrace c k tr, ¬ SignatureFails (s k).session l
  pool : ∀ msgBytes ∈ net.pool, ∃ msg,
    bytesToModelMessage c msgBytes = some msg ∧ HonestMsg H ep msg
  sent : ∀ k, ∀ l ∈ sessionTrace c k tr, ∀ out, l.2.broadcast = some out →
    ∃ msgBytes ∈ net.pool, messageToBytes c out = some msgBytes

omit [AddCommGroup F] [AddCommGroup G] in
/-- What session `j` has seen after a step of session `k` alone. -/
theorem mem_sessionTrace_concat {tr : List (NetEvent ι × Verdict F G)}
    {l : NetEvent ι × Verdict F G} {e : Event F G}
    {l' : Event F G × Verdict F G} {j k : ι}
    (hlabel : sessionLabel c j l = if k = j then some (e, l.2) else none)
    (hl' : l' ∈ sessionTrace c j (tr ++ [l])) :
    l' ∈ sessionTrace c j tr ∨ (k = j ∧ l' = (e, l.2)) := by
  rw [sessionTrace, filterMap_concat, hlabel] at hl'
  refine (List.mem_append.mp hl').imp_right (fun hlast => ?_)
  by_cases hkj : k = j
  · rw [if_pos hkj] at hlast
    exact ⟨hkj, List.mem_singleton.mp hlast⟩
  · rw [if_neg hkj] at hlast
    cases hlast

/-- A step of session `k` alone, and what it broadcasts. -/
theorem allHonest_session {bls : Bls F G F} {net net' : Network ι F G}
    {tr : List (NetEvent ι × Verdict F G)} {l : NetEvent ι × Verdict F G}
    {e : Event F G} {st' : Loop F G F} {k : ι}
    (h : AllHonest c bls s tr net)
    (hlabel : ∀ j, sessionLabel c j l = if k = j then some (e, l.2) else none)
    (hstep : Step bls (net.loops k) (e, l.2) st')
    (hok : ¬ SignatureFails (s k).session (e, l.2))
    (hloops : net'.loops = Function.update net.loops k st')
    (hpool : ∀ msgBytes ∈ net.pool, msgBytes ∈ net'.pool)
    (hnew : ∀ msgBytes ∈ net'.pool, msgBytes ∉ net.pool → ∃ msg,
      bytesToModelMessage c msgBytes = some msg ∧ HonestMsg H ep msg)
    (hsent : ∀ out, l.2.broadcast = some out →
      ∃ msgBytes ∈ net'.pool, messageToBytes c out = some msgBytes) :
    AllHonest c bls s (tr ++ [l]) net' := by
  refine ⟨?_, ?_, ?_, ?_⟩
  -- node `k` makes the step, the others' traces stay
  · intro j
    rw [sessionTrace, filterMap_concat, hlabel j, hloops]
    by_cases hkj : k = j
    · subst hkj
      rw [if_pos rfl, Function.update_self]
      exact Run.tail (h.runs k) hstep
    · rw [if_neg hkj, Function.update_of_ne (Ne.symm hkj), Option.toList_none,
        List.append_nil]
      exact h.runs j
  · intro j l' hl'
    rcases mem_sessionTrace_concat (hlabel j) hl' with hold | ⟨rfl, rfl⟩
    · exact h.noFail j l' hold
    · exact hok
  · intro msgBytes hmem
    by_cases hold : msgBytes ∈ net.pool
    · exact h.pool msgBytes hold
    · exact hnew msgBytes hmem hold
  · intro j l' hl' out hout
    rcases mem_sessionTrace_concat (hlabel j) hl' with hold | ⟨rfl, rfl⟩
    · obtain ⟨msgBytes, hmem, hbytes⟩ := h.sent j l' hold out hout
      exact ⟨msgBytes, hpool msgBytes hmem, hbytes⟩
    · exact hsent out hout

omit [DecidableEq ι] in
/-- What honest sessions send goes into the pool, and can be decoded. -/
theorem broadcast_honest (hc : c.Faithful) (net : Network ι F G)
    {out : MessageWithSig F G} (hout : HonestMsg H ep out)
    (hsource : IsInt64 out.source) :
    ∃ msgBytes, messageToBytes c out = some msgBytes ∧
      bytesToModelMessage c msgBytes = some out ∧
      net.broadcast c (some out)
        = some { net with pool := net.pool ++ [msgBytes] } := by
  obtain ⟨msgBytes, hbytes, hmsg⟩ :=
    bytesToModelMessage_messageToBytes hc hout.isKnown hsource
  refine ⟨msgBytes, hbytes, hmsg, ?_⟩
  rw [Network.broadcast, hbytes]
  rfl

/-- `StartProtocol` adds an Announce to the pool. -/
theorem allHonest_starts {bls : Bls F G F} {net net' : Network ι F G}
    {tr : List (NetEvent ι × Verdict F G)} {v : Verdict F G} {k : ι}
    (hc : c.Faithful) (h : AllHonest c bls s tr net)
    (hstep : net.react c bls (.starts k) = some (net', v)) :
    AllHonest c bls s (tr ++ [(.starts k, v)]) net' := by
  -- the Announce is honest whatever the node has collected
  have hid : (startProtocol bls (net.loops k).session).source
      = (s k).session.id :=
    (counted_run (s k).fresh.acks (s k).fresh.sigMask (h.runs k)).config.id
  have hhonest : HonestMsg H ep (startProtocol bls (net.loops k).session) :=
    HonestMsg.announce rfl
  obtain ⟨msgBytes, -, hmsg, hbroadcast⟩ := broadcast_honest hc net hhonest
    (hid ▸ (s k).source_int64)
  rw [Network.react, hbroadcast] at hstep
  obtain ⟨rfl, -⟩ := Prod.mk.inj (Option.some.inj hstep)
  have htrace : ∀ j, sessionTrace c j (tr ++ [(.starts k, v)])
      = sessionTrace c j tr := by
    intro j
    rw [sessionTrace, filterMap_concat]
    exact List.append_nil _
  refine ⟨?_, ?_, ?_, ?_⟩
  · intro j
    rw [htrace j]
    exact h.runs j
  · intro j
    rw [htrace j]
    exact h.noFail j
  · intro msgBytes' hmem
    rcases List.mem_append.mp hmem with hold | hnew
    · exact h.pool msgBytes' hold
    · obtain rfl := List.mem_singleton.mp hnew
      exact ⟨_, hmsg, hhonest⟩
  · intro j
    rw [htrace j]
    intro l hl out hout
    obtain ⟨msgBytes', hmem, hbytes⟩ := h.sent j l hl out hout
    exact ⟨msgBytes', List.mem_append_left _ hmem, hbytes⟩

/-- A session that loses its receiver or its context checks nothing. -/
theorem allHonest_environment {bls : Bls F G F} {net : Network ι F G}
    {tr : List (NetEvent ι × Verdict F G)} {l : NetEvent ι × Verdict F G}
    {e : Event F G} {k : ι} (h : AllHonest c bls s tr net)
    (hlabel : ∀ j, sessionLabel c j l = if k = j then some (e, l.2) else none)
    (henv : ((net.loops k).react bls e).2 = .environment)
    (hv : l.2 = .environment) :
    AllHonest c bls s (tr ++ [l])
      (net.update k ((net.loops k).react bls e).1) := by
  refine allHonest_session (e := e) h hlabel ⟨?_, by rw [hv]; rfl⟩ ?_ rfl
    (fun _ hmem => hmem) (fun _ hmem hnot => absurd hmem hnot) ?_
  · rw [hv, ← henv]
  · rw [hv]
    cases e <;> exact id
  · intro out hout
    rw [hv] at hout
    cases hout

variable [DecidableEq G] {coefs : List F → List ℤ}
  {hlen : ∀ pks, (coefs pks).length = pks.length}

/-- **A DELIVERY**: what is in the pool can be delivered to every session, and
    its answer goes into the pool. -/
theorem delivers_honest {net : Network ι F G}
    {tr : List (NetEvent ι × Verdict F G)} {msgBytes : List UInt8} (k : ι)
    (hc : c.Faithful) (h : AllHonest c (linearBls H coefs hlen) s tr net)
    (hmem : msgBytes ∈ net.pool) :
    ∃ net' v, net.react c (linearBls H coefs hlen) (.delivers k msgBytes)
        = some (net', v) ∧ v.isPanic = false ∧
      AllHonest c (linearBls H coefs hlen) s
        (tr ++ [(.delivers k msgBytes, v)]) net' := by
  obtain ⟨msg, hmsg, hhonest⟩ := h.pool msgBytes hmem
  obtain ⟨hpanic, hok, hanswer⟩ := handle_honest (h.runs k) hhonest
  have hrecv := receive_of_decoded (linearBls H coefs hlen) (net.loops k) hmsg
  have hlabel : ∀ (v : Verdict F G) (j : ι),
      sessionLabel c j (.delivers k msgBytes, v)
        = if k = j then some (.received msg, v) else none := by
    intro v j
    rw [sessionLabel, hmsg]
    rfl
  rw [Network.react, if_pos hmem]
  dsimp only
  rw [hrecv]
  -- the answer, if there is one, is honest and goes to the pool
  cases hout : ((net.loops k).handle (linearBls H coefs hlen) msg).2.broadcast
    with
  | none =>
      refine ⟨_, _, rfl, hpanic, ?_⟩
      refine allHonest_session h (hlabel _) ⟨rfl, hpanic⟩ hok rfl
        (fun _ hm => hm) (fun _ hm hnot => absurd hm hnot) ?_
      intro out hout'
      rw [hout] at hout'
      cases hout'
  | some out =>
      obtain ⟨hhonest', hid⟩ := hanswer out hout
      obtain ⟨bs, hbytes, hmsg', hbroadcast⟩ := broadcast_honest hc
        (net.update k ((net.loops k).handle (linearBls H coefs hlen) msg).1)
        hhonest' (hid ▸ (s k).source_int64)
      rw [hbroadcast]
      refine ⟨_, _, rfl, hpanic, ?_⟩
      refine allHonest_session h (hlabel _) ⟨rfl, hpanic⟩ hok rfl
        (fun _ hm => List.mem_append_left _ hm) ?_ ?_
      · intro bs' hm hnot
        rcases List.mem_append.mp hm with hold | hnew
        · exact absurd hold hnot
        · obtain rfl := List.mem_singleton.mp hnew
          exact ⟨out, hmsg', hhonest'⟩
      · intro out' hout'
        obtain rfl := Option.some.inj (hout.symm.trans hout')
        exact ⟨bs, List.mem_append_right _ List.mem_cons_self, hbytes⟩

/-- Every run keeps everything honest. -/
theorem allHonest_run (hc : c.Faithful) {net : Network ι F G}
    {tr : List (NetEvent ι × Verdict F G)}
    (hrun : Run (Fires (Network.react c (linearBls H coefs hlen)))
      (Network.start s) tr net) :
    AllHonest c (linearBls H coefs hlen) s tr net := by
  refine Run.traced (P := AllHonest c (linearBls H coefs hlen) s) hrun
    ⟨fun _ => Run.refl, ?_, ?_, ?_⟩ ?_
  · intro k l hl
    cases hl
  · intro msgBytes hmem
    cases hmem
  · intro k l hl
    cases hl
  · rintro tr net ⟨e, v⟩ net' h hstep
    cases e with
    | starts k => exact allHonest_starts hc h hstep
    -- only what is in the pool can be delivered, and that is honest
    | delivers k msgBytes =>
        have hmem : msgBytes ∈ net.pool := by
          by_contra hnot
          rw [Fires, Network.react, if_neg hnot] at hstep
          cases hstep
        obtain ⟨net'', v', heq, -, hnext⟩ := delivers_honest k hc h hmem
        obtain ⟨rfl, rfl⟩ := Prod.mk.inj (Option.some.inj (heq.symm.trans hstep))
        exact hnext
    | receiverLeft k =>
        obtain ⟨rfl, rfl⟩ := Prod.mk.inj (Option.some.inj hstep)
        exact allHonest_environment h (fun _ => rfl) rfl rfl
    | contextDone k =>
        obtain ⟨rfl, rfl⟩ := Prod.mk.inj (Option.some.inj hstep)
        exact allHonest_environment h (fun _ => rfl) rfl rfl

/-- **THE HONEST PROTOCOL IS COMPLETE**: along every run of honest sessions of
    one epoch no signature check fails; a session that has handled Prepare
    messages of `ThresholdAck` sources has broadcast one Prepared message;
    what was broadcast is decoded and accepted by every session of the epoch
    whose threshold is not larger; and whatever was broadcast can be delivered
    without a panic. -/
theorem honest_protocol_complete (hc : c.Faithful)
    (s : ι → HonestSession H ep) :
    ∀ tr net, Run (Fires (Network.react c (linearBls H coefs hlen)))
      (Network.start s) tr net →
    (∀ k, ∀ l ∈ sessionTrace c k tr, ¬ SignatureFails (s k).session l) ∧
    (∀ k, (s k).session.thresholdAck
        ≤ (handledSources (s k).session.topic (sessionTrace c k tr)).card →
      (broadcastPrepared (sessionTrace c k tr)).length = 1) ∧
    (∀ k, ∀ out ∈ broadcastPrepared (sessionTrace c k tr),
      ∃ msgBytes ∈ net.pool, messageToBytes c out = some msgBytes ∧
      ∃ msg, bytesToModelMessage c msgBytes = some msg ∧
      ∀ s' : HonestSession H ep,
        s'.session.thresholdAck ≤ (s k).session.thresholdAck →
        s'.session.verifyThresholdWitnesses (linearBls H coefs hlen) msg
          = .ok ()) ∧
    ∀ k, ∀ msgBytes ∈ net.pool, ∃ net' v,
      net.react c (linearBls H coefs hlen) (.delivers k msgBytes)
        = some (net', v) ∧ v.isPanic = false := by
  intro tr net hrun
  have h := allHonest_run hc hrun
  have hcollected : ∀ k, Collected (linearBls H coefs hlen) (s k).session
      (sessionTrace c k tr) (net.loops k).session := fun k =>
    collected_run (s k).fresh (s k).threshold (h.runs k)
  have hanswered : ∀ k, Answered (linearBls H coefs hlen) (s k).session
      (sessionTrace c k tr) (net.loops k).session := fun k =>
    answered_run (s k).fresh (s k).threshold (h.runs k) (h.noFail k)
  refine ⟨h.noFail, fun k => broadcast_one (hcollected k) (hanswered k), ?_, ?_⟩
  · intro k out hout
    obtain ⟨hsent, htype⟩ := List.mem_filter.mp hout
    obtain ⟨l, hl, hbroadcast⟩ := List.mem_filterMap.mp hsent
    obtain ⟨msgBytes, hmem, hbytes⟩ := h.sent k l hl out hbroadcast
    rw [(hanswered k).broadcast] at hout
    obtain ⟨hsource, hver⟩ := (hanswered k).verified out hout
    obtain ⟨msgBytes', hbytes', hmsg⟩ := bytesToModelMessage_messageToBytes hc
      (by rw [of_decide_eq_true htype]; rfl) (hsource ▸ (s k).source_int64)
    obtain rfl := Option.some.inj (hbytes.symm.trans hbytes')
    refine ⟨msgBytes, hmem, hbytes, out, hmsg, fun s' hle => ?_⟩
    obtain ⟨henough, hsig⟩ := verifyThresholdWitnesses_ok_iff.mp hver
    rw [(s k).epochPublicKey] at hsig
    exact prepared_verified (SameConfig.refl s'.session)
      (verifyMultisig_iff.mp hsig) (hle.trans henough)
  · intro k msgBytes hmem
    obtain ⟨net', v, heq, hpanic, -⟩ := delivers_honest k hc h hmem
    exact ⟨net', v, heq, hpanic⟩

end Networks

/-! ## A codec and seven nodes -/

/-- Bytes with an end mark. -/
def frame (bs : List UInt8) : List UInt8 := bs.flatMap (fun b => [1, b]) ++ [0]

/-- The bytes up to the end mark, and what follows. -/
def unframe : List UInt8 → List UInt8 × List UInt8
  | [] => ([], [])
  | [_] => ([], [])
  | m :: b :: rest =>
      if m = 0 then ([], b :: rest)
      else (b :: (unframe rest).1, (unframe rest).2)

/-- A frame read back, with what comes after it. -/
theorem unframe_frame (bs rest : List UInt8) :
    unframe (frame bs ++ rest) = (bs, rest) := by
  induction bs with
  | nil => cases rest <;> rfl
  | cons b bs ih =>
      show unframe (1 :: b :: (frame bs ++ rest)) = _
      rw [unframe, if_neg (by decide), ih]

/-- A sign and a big-endian number. -/
def intBytes (z : ℤ) : List UInt8 := (if z < 0 then 1 else 0) :: bytes z.natAbs

def bytesInt : List UInt8 → ℤ
  | [] => 0
  | m :: bs => if m = 0 then setBytes bs else -setBytes bs

/-- An integer read back from its sign and its bytes. -/
theorem bytesInt_intBytes (z : ℤ) : bytesInt (intBytes z) = z := by
  rw [intBytes, bytesInt, setBytes_bytes]
  by_cases hz : z < 0
  · rw [if_pos hz, if_neg (by decide)]
    omega
  · rw [if_neg hz, if_pos rfl]
    omega

/-- The characters as the digits of one number, below a leading one. -/
def stringBytes (s : String) : List UInt8 :=
  bytes (Nat.ofDigits (2 ^ 32) (s.toList.map Char.toNat ++ [1]))

def bytesString (bs : List UInt8) : String :=
  String.ofList ((Nat.digits (2 ^ 32) (setBytes bs)).dropLast.map Char.ofNat)

/-- A text read back from its code points. -/
theorem bytesString_stringBytes (s : String) :
    bytesString (stringBytes s) = s := by
  rw [bytesString, stringBytes, setBytes_bytes,
    Nat.digits_ofDigits (2 ^ 32) (by norm_num), List.dropLast_concat,
    List.map_map]
  · have hchars : s.toList.map (Char.ofNat ∘ Char.toNat) = s.toList := by
      simp [Function.comp_def]
    rw [hchars, String.ofList_toList]
  · intro d hd
    rcases List.mem_append.mp hd with hchar | hone
    · obtain ⟨ch, -, rfl⟩ := List.mem_map.mp hchar
      exact ch.val.toNat_lt
    · rw [List.mem_singleton.mp hone]
      norm_num
  · intro hne
    rw [List.getLast_append_singleton]
    norm_num

/-- A codec over the integers: framed fields, the topic last. -/
def framedCodec : Codec ℤ ℤ where
  marshal r :=
    match r.msgType, r.source, r.bridgeEventHash with
    | some msgType, some source, some hash =>
        some (frame (intBytes msgType) ++ (frame (intBytes source) ++
          (frame r.signature ++ (frame r.mask ++ (frame r.publicKey ++
            stringBytes hash)))))
    | _, _, _ => none
  unmarshal bs :=
    let f₁ := unframe bs
    let f₂ := unframe f₁.2
    let f₃ := unframe f₂.2
    let f₄ := unframe f₃.2
    let f₅ := unframe f₄.2
    some ⟨some (bytesInt f₁.1), some (bytesInt f₂.1), f₃.1, f₄.1, f₅.1,
      some (bytesString f₅.2)⟩
  marshalSignature := intBytes
  unmarshalSignature bs := (bytesInt bs, none)
  marshalPublicKey := intBytes
  unmarshalPublicKey bs := (bytesInt bs, none)

/-- The sample codec reads back what it writes. -/
theorem framedCodec_faithful : framedCodec.Faithful where
  request := by
    intro msg _ _
    refine ⟨_, rfl, ?_⟩
    simp only [framedCodec, convertModelMessage, unframe_frame,
      bytesInt_intBytes, bytesString_stringBytes]
  signature := bytesInt_intBytes
  publicKey := bytesInt_intBytes

/-- The epoch of the seven nodes, all coefficients one. -/
def sampleEpoch : HonestEpoch ℤ where
  keys := [2, 3, 5, 7, 11, 13, 17]
  coefficients := [1, 1, 1, 1, 1, 1, 1]
  coefficients_length := rfl
  length_le := by decide

/-- The session of node `k`. -/
def sampleHonest (k : Fin 7) : HonestSession intPoints sampleEpoch where
  session :=
    { sampleSession with
      id := k.val
      privateKey := keyAt sampleSession k.val
      membershipKey := intPoints.onIndex 58 k.val 58 }
  fresh := ⟨rfl, rfl, rfl, rfl⟩
  threshold := show (1 : ℤ) ≤ 4 by decide
  publicKeys := rfl
  own := by fin_cases k <;> rfl
  epochPublicKey := show (58 : ℤ) = sampleEpoch.publicKey by decide
  membershipKey := (membershipKey_eq intPoints sampleEpoch k.val).symm

/-- The bytes of a message. -/
def sampleBytes (msg : MessageWithSig ℤ ℤ) : List UInt8 :=
  (messageToBytes framedCodec msg).getD []

/-- Node 0 announces, the nodes 0 to 3 answer, and node 0 hears them all. -/
theorem honest_protocol_complete_sample :
    ∃ tr net, Run (Fires (Network.react framedCodec intBls))
        (Network.start sampleHonest) tr net ∧
      4 ≤ (handledSources "0x51ab" (sessionTrace framedCodec 0 tr)).card ∧
      (broadcastPrepared (sessionTrace framedCodec 0 tr)).length = 1 := by
  obtain ⟨tr, net, hrun, hnet⟩ := exists_run
    (fun tr (_ : Network (Fin 7) ℤ ℤ) =>
      4 ≤ (handledSources "0x51ab" (sessionTrace framedCodec 0 tr)).card)
    (show (execute (Network.react framedCodec intBls)
      (Network.start sampleHonest)
      [.starts 0,
        .delivers 0 (sampleBytes (startProtocol intBls sampleSession)),
        .delivers 1 (sampleBytes (startProtocol intBls sampleSession)),
        .delivers 2 (sampleBytes (startProtocol intBls sampleSession)),
        .delivers 3 (sampleBytes (startProtocol intBls sampleSession)),
        .delivers 0 (sampleBytes (sampleAck 2)),
        .delivers 0 (sampleBytes (sampleAck 0)),
        .delivers 0 (sampleBytes (sampleAck 0)),
        .delivers 0 (sampleBytes (sampleAck 3)),
        .delivers 0 (sampleBytes (sampleAck 1))]).any _ = true
      by decide +kernel)
  exact ⟨tr, net, hrun, hnet, (honest_protocol_complete framedCodec_faithful
    sampleHonest tr net hrun).2.1 0 (Int.ofNat_le.mpr hnet)⟩

end RelayerHonest
