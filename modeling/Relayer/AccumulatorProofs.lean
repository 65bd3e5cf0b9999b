import Relayer.SessionProofs

/-! # The accumulators of a session

    Four fields of a session move together: the mask of the sources counted,
    their number, and the two aggregates.  Whatever messages arrive, in
    whatever order, they stay in step: `accumulator_invariant`.

    The run is read off its trace.  `accepted` lists the Prepare messages that
    were counted and `built` the Prepared messages that were put together; a
    step either adds nothing to either list or is the one described by
    `step_cases`. -/

namespace RelayerAccumulator

open BitMask RelayerBls RelayerMessage RelayerSession Transition

variable {PK SG SK : Type}

/-! ## Reading a trace -/

/-- The message a step counted. -/
def acceptedOf : Event PK SG × Verdict PK SG → Option (MessageWithSig PK SG)
  | (.received msg, v) => if v.counts then some msg else none
  | _ => none

/-- The Prepare messages counted along a trace. -/
def accepted (tr : List (Event PK SG × Verdict PK SG)) :
    List (MessageWithSig PK SG) :=
  tr.filterMap acceptedOf

/-- The Prepared messages put together along a trace. -/
def built (tr : List (Event PK SG × Verdict PK SG)) :
    List (MessageWithSig PK SG) :=
  tr.filterMap (fun l => l.2.built)

theorem accepted_concat (tr : List (Event PK SG × Verdict PK SG))
    (l : Event PK SG × Verdict PK SG) :
    accepted (tr ++ [l]) = accepted tr ++ (acceptedOf l).toList :=
  filterMap_concat acceptedOf tr l

theorem built_concat (tr : List (Event PK SG × Verdict PK SG))
    (l : Event PK SG × Verdict PK SG) :
    built (tr ++ [l]) = built tr ++ l.2.built.toList :=
  filterMap_concat (fun l : Event PK SG × Verdict PK SG => l.2.built) tr l

/-! ## What never changes -/

/-- Two states of one session: everything but the accumulators agrees. -/
structure SameConfig (s₀ s : Session PK SG SK) : Prop where
  topic : s.topic = s₀.topic
  id : s.id = s₀.id
  thresholdAck : s.thresholdAck = s₀.thresholdAck
  publicKeys : s.publicKeys = s₀.publicKeys
  privateKey : s.privateKey = s₀.privateKey
  epochPublicKey : s.epochPublicKey = s₀.epochPublicKey
  membershipKey : s.membershipKey = s₀.membershipKey

theorem SameConfig.refl (s : Session PK SG SK) : SameConfig s s :=
  ⟨rfl, rfl, rfl, rfl, rfl, rfl, rfl⟩

/-- Counting an ack leaves the configuration alone. -/
theorem SameConfig.countAck [Add PK] [Add SG] {s₀ s : Session PK SG SK}
    (h : SameConfig s₀ s) (msg : MessageWithSig PK SG) (pk : PK) :
    SameConfig s₀ (s.countAck msg pk) :=
  ⟨h.topic, h.id, h.thresholdAck, h.publicKeys, h.privateKey,
    h.epochPublicKey, h.membershipKey⟩

/-- The ack check reads the configuration only. -/
theorem SameConfig.verifyAckSignature {s₀ s : Session PK SG SK}
    (h : SameConfig s₀ s) (bls : Bls PK SG SK) (msg : MessageWithSig PK SG) :
    s.verifyAckSignature bls msg = s₀.verifyAckSignature bls msg := by
  rw [Session.verifyAckSignature, Session.verifyAckSignature, h.publicKeys,
    h.epochPublicKey]

/-- So does the threshold check. -/
theorem SameConfig.verifyThresholdWitnesses {s₀ s : Session PK SG SK}
    (h : SameConfig s₀ s) (bls : Bls PK SG SK) (msg : MessageWithSig PK SG) :
    s.verifyThresholdWitnesses bls msg
      = s₀.verifyThresholdWitnesses bls msg := by
  rw [Session.verifyThresholdWitnesses, Session.verifyThresholdWitnesses,
    h.thresholdAck, h.epochPublicKey]

/-! ## One step -/

/-- **STEP**: a step leaves the session and both lists alone, or it counts
    one message that passed every guard. -/
theorem step_cases [Add PK] [Add SG] {bls : Bls PK SG SK}
    {st st' : Loop PK SG SK} {l : Event PK SG × Verdict PK SG}
    (h : Step bls st l st') :
    (st'.session = st.session ∧ acceptedOf l = none ∧ l.2.built = none) ∨
    ∃ msg pk, l.1 = .received msg ∧ Accepts bls st msg pk ∧
      st'.session = st.session.countAck msg pk ∧ acceptedOf l = some msg ∧
      l.2.built =
        if st.session.acks + 1 ≥ st.session.thresholdAck then
          some ((st.session.countAck msg pk).outmsg msg)
        else none := by
  obtain ⟨e, v⟩ := l
  obtain ⟨hreact, -⟩ := h
  have hst' : (st.react bls e).1 = st' := congrArg Prod.fst hreact
  have hv : (st.react bls e).2 = v := congrArg Prod.snd hreact
  subst hst' hv
  cases e with
  | receiverLeft => exact Or.inl ⟨rfl, rfl, rfl⟩
  | contextDone => exact Or.inl ⟨rfl, rfl, rfl⟩
  | received msg =>
      show ((st.handle bls msg).1.session = st.session ∧
        (if (st.handle bls msg).2.counts then some msg else none) = none ∧
        (st.handle bls msg).2.built = none) ∨ _
      rcases handle_session bls st msg with ⟨hsame, hcount⟩ | ⟨pk, hacc⟩
      -- no ack was counted, so that none was broadcast either
      · refine Or.inl ⟨hsame, by rw [hcount]; rfl, ?_⟩
        by_contra hbuilt
        rw [counts_of_built hbuilt] at hcount
        exact Bool.noConfusion hcount
      · refine Or.inr ⟨msg, pk, rfl, hacc, ?_, ?_, ?_⟩
        · show (st.handle bls msg).1.session = _
          rw [handle_of_accepts hacc]
          exact acceptAck_session bls st msg pk
        · show (if (st.handle bls msg).2.counts then some msg else none) = _
          rw [handle_of_accepts hacc, acceptAck_counts, if_pos rfl]
        · show (st.handle bls msg).2.built = _
          rw [handle_of_accepts hacc]
          exact acceptAck_built bls st msg pk

/-! ## Every run -/

/-- A session as it is created: nothing collected yet. -/
structure Fresh [Zero PK] [Zero SG] (s : Session PK SG SK) : Prop where
  acks : s.acks = 0
  sigMask : s.sigMask = 0
  partSignature : s.partSignature = 0
  partPublicKey : s.partPublicKey = 0

/-- The registered key of node `i`. -/
def keyAt [Zero PK] (s : Session PK SG SK) (i : ℕ) : PK := s.publicKeys.getD i 0

/-- The mask and the number of acks, in terms of the messages counted so far.
    No law of the library is needed for these. -/
structure Counted (bls : Bls PK SG SK) (s₀ : Session PK SG SK)
    (tr : List (Event PK SG × Verdict PK SG)) (s : Session PK SG SK) :
    Prop where
  config : SameConfig s₀ s
  valid : ∀ m ∈ accepted tr, m.msgType = .prepare ∧
    m.bridgeEventHash = s₀.topic ∧ InRange s₀.publicKeys m.source ∧
    s₀.verifyAckSignature bls m = .ok (.ok ())
  nodup : ((accepted tr).map (fun m => m.source.toNat)).Nodup
  bits : bitsOf s.sigMask
    = ((accepted tr).map (fun m => m.source.toNat)).toFinset
  acks : s.acks = (accepted tr).length

section Counting

variable {bls : Bls PK SG SK} {s₀ s : Session PK SG SK}
  {tr : List (Event PK SG × Verdict PK SG)}
  {st st' : Loop PK SG SK} {l : Event PK SG × Verdict PK SG}

/-- Nothing is counted in a session that is created. -/
theorem counted_init (bls : Bls PK SG SK) (hacks : s₀.acks = 0)
    (hmask : s₀.sigMask = 0) : Counted bls s₀ [] s₀ where
  config := SameConfig.refl s₀
  valid := by intro m hm; exact nomatch hm
  nodup := List.nodup_nil
  bits := by rw [hmask, bitsOf_zero]; rfl
  acks := hacks

/-- The number of acks is the number of bits. -/
theorem Counted.acks_eq (hc : Counted bls s₀ tr s) :
    s.acks = popcount s.sigMask := by
  rw [popcount_eq_card, hc.bits, List.toFinset_card_of_nodup hc.nodup,
    List.length_map, hc.acks]

/-- Only registered nodes have a bit. -/
theorem Counted.bit_lt (hc : Counted bls s₀ tr s) {i : ℕ}
    (hi : i ∈ bitsOf s.sigMask) : i < s₀.publicKeys.length := by
  rw [hc.bits, List.mem_toFinset] at hi
  obtain ⟨m, hm, rfl⟩ := List.mem_map.mp hi
  exact (hc.valid m hm).2.2.1.2

variable [Add PK] [Add SG]

/-- Counting a message that passed the guards keeps mask and number in
    step. -/
theorem counted_countAck {msg : MessageWithSig PK SG} {pk : PK}
    (hc : Counted bls s₀ tr st.session) (hacc : Accepts bls st msg pk)
    (hl : acceptedOf l = some msg) :
    Counted bls s₀ (tr ++ [l]) (st.session.countAck msg pk) := by
  have haccepted : accepted (tr ++ [l]) = accepted tr ++ [msg] := by
    rw [accepted_concat, hl]
    rfl
  have hrange : InRange s₀.publicKeys msg.source := by
    rw [← hc.config.publicKeys]
    exact inRange_of_index_ok hacc.key
  -- the source was not counted before: its bit was clear
  have hnew : msg.source.toNat ∉
      (accepted tr).map (fun m => m.source.toNat) := by
    intro hmem
    have hbit : msg.source.toNat ∈ bitsOf st.session.sigMask := by
      rw [hc.bits]
      exact List.mem_toFinset.mpr hmem
    rw [mem_bitsOf, hacc.fresh] at hbit
    exact Bool.noConfusion hbit
  refine ⟨hc.config.countAck msg pk, ?_, ?_, ?_, ?_⟩
  · intro m hm
    rw [haccepted, List.mem_append, List.mem_singleton] at hm
    rcases hm with hold | rfl
    · exact hc.valid m hold
    · refine ⟨hacc.prepare, hacc.mine.trans hc.config.topic, hrange, ?_⟩
      rw [← hc.config.verifyAckSignature]
      exact hacc.verified
  · rw [haccepted, List.map_append, List.map_singleton, ← List.concat_eq_append]
    exact hc.nodup.concat hnew
  · show bitsOf (setBit st.session.sigMask msg.source.toNat) = _
    rw [bitsOf_setBit, hc.bits, haccepted, List.map_append, List.map_singleton,
      List.toFinset_append]
    ext i
    simp
  · show st.session.acks + 1 = _
    rw [haccepted, List.length_append, hc.acks]
    rfl

/-- One step keeps mask and number in step. -/
theorem counted_step (hc : Counted bls s₀ tr st.session)
    (hstep : Step bls st l st') :
    Counted bls s₀ (tr ++ [l]) st'.session := by
  rcases step_cases hstep with ⟨hsame, hacc, -⟩
    | ⟨msg, pk, -, hacc, hsession, hl, -⟩
  · have haccepted : accepted (tr ++ [l]) = accepted tr := by
      rw [accepted_concat, hacc, Option.toList_none, List.append_nil]
    rw [hsame]
    refine ⟨hc.config, ?_, ?_, ?_, ?_⟩
    · rw [haccepted]; exact hc.valid
    · rw [haccepted]; exact hc.nodup
    · rw [haccepted]; exact hc.bits
    · rw [haccepted]; exact hc.acks
  · rw [hsession]
    exact counted_countAck hc hacc hl

/-- Mask and number are in step along every run. -/
theorem counted_run (hacks : s₀.acks = 0) (hmask : s₀.sigMask = 0)
    (hrun : Run (Step bls) (Loop.start s₀) tr st) :
    Counted bls s₀ tr st.session :=
  Run.traced (P := fun tr st => Counted bls s₀ tr st.session) hrun
    (counted_init bls hacks hmask)
    (fun _ _ _ _ hc hstep => counted_step hc hstep)

end Counting

/-- The two aggregates and the Prepared message, where `Aggregate` is a
    commutative group operation. -/
structure Collected [AddCommGroup PK] [AddCommGroup SG] (bls : Bls PK SG SK)
    (s₀ : Session PK SG SK) (tr : List (Event PK SG × Verdict PK SG))
    (s : Session PK SG SK) : Prop extends Counted bls s₀ tr s where
  acks_le : s.acks ≤ s₀.thresholdAck
  signature : s.partSignature = ((accepted tr).map (·.signature)).sum
  publicKey : s.partPublicKey
    = ((accepted tr).map (fun m => keyAt s₀ m.source.toNat)).sum
  built_none : s.acks < s₀.thresholdAck → built tr = []
  built_le : (built tr).length ≤ 1

section Runs

variable [AddCommGroup PK] [AddCommGroup SG] {bls : Bls PK SG SK}
  {s₀ s : Session PK SG SK} {tr : List (Event PK SG × Verdict PK SG)}
  {st st' : Loop PK SG SK} {l : Event PK SG × Verdict PK SG}

/-- A fresh session has collected nothing; with a threshold it has not reached. -/
theorem collected_init (bls : Bls PK SG SK) (h : Fresh s₀)
    (hthr : 1 ≤ s₀.thresholdAck) : Collected bls s₀ [] s₀ where
  toCounted := counted_init bls h.acks h.sigMask
  acks_le := by rw [h.acks]; omega
  signature := h.partSignature
  publicKey := h.partPublicKey
  built_none := fun _ => rfl
  built_le := Nat.zero_le 1

/-- One step keeps the aggregates in step with the mask. -/
theorem collected_step (hc : Collected bls s₀ tr st.session)
    (hstep : Step bls st l st') :
    Collected bls s₀ (tr ++ [l]) st'.session := by
  have hcounted := counted_step hc.toCounted hstep
  rcases step_cases hstep with ⟨hsame, hacc, hbuilt⟩
    | ⟨msg, pk, -, hacc, hsession, hl, hbuilt⟩
  · have haccepted : accepted (tr ++ [l]) = accepted tr := by
      rw [accepted_concat, hacc, Option.toList_none, List.append_nil]
    have hbuilt' : built (tr ++ [l]) = built tr := by
      rw [built_concat, hbuilt, Option.toList_none, List.append_nil]
    refine ⟨hcounted, ?_, ?_, ?_, ?_, ?_⟩
    · rw [hsame]; exact hc.acks_le
    · rw [hsame, haccepted]; exact hc.signature
    · rw [hsame, haccepted]; exact hc.publicKey
    · rw [hsame, hbuilt']; exact hc.built_none
    · rw [hbuilt']; exact hc.built_le
  · have haccepted : accepted (tr ++ [l]) = accepted tr ++ [msg] := by
      rw [accepted_concat, hl]
      rfl
    have hbelow : st.session.acks < s₀.thresholdAck := by
      rw [← hc.config.thresholdAck]
      exact hacc.below
    have hkey : keyAt s₀ msg.source.toNat = pk := by
      have hget := (index_ok_iff.mp hacc.key).2
      rw [hc.config.publicKeys] at hget
      rw [keyAt, List.getD_eq_getElem?_getD, hget]
      rfl
    -- below the threshold nothing was built before
    have hnone : built tr = [] := hc.built_none hbelow
    refine ⟨hcounted, ?_, ?_, ?_, ?_, ?_⟩
    · rw [hsession]
      show st.session.acks + 1 ≤ _
      omega
    · rw [hsession]
      show st.session.partSignature + msg.signature = _
      rw [haccepted, List.map_append, List.sum_append, hc.signature]
      simp
    · rw [hsession]
      show st.session.partPublicKey + pk = _
      rw [haccepted, List.map_append, List.sum_append, hc.publicKey]
      simp [hkey]
    · intro hlt
      have hlt' : ¬ st.session.acks + 1 ≥ st.session.thresholdAck := by
        rw [hsession] at hlt
        have h1 : st.session.acks + 1 < s₀.thresholdAck := hlt
        rw [hc.config.thresholdAck]
        omega
      rw [built_concat, hnone, hbuilt, if_neg hlt']
      rfl
    · rw [built_concat, hnone, List.nil_append]
      exact Option.length_toList_le

/-- The accumulators are in step along every run. -/
theorem collected_run (h : Fresh s₀) (hthr : 1 ≤ s₀.thresholdAck)
    (hrun : Run (Step bls) (Loop.start s₀) tr st) :
    Collected bls s₀ tr st.session :=
  Run.traced (P := fun tr st => Collected bls s₀ tr st.session) hrun
    (collected_init bls h hthr)
    (fun _ _ _ _ hc hstep => collected_step hc hstep)

/-- What a reader of the session is promised about its four accumulators and
    about the Prepared message. -/
structure Accumulated (bls : Bls PK SG SK) (s₀ : Session PK SG SK)
    (tr : List (Event PK SG × Verdict PK SG)) (s : Session PK SG SK) :
    Prop where
  acks_eq : s.acks = popcount s.sigMask
  acks_le : s.acks ≤ s₀.thresholdAck
  bit_lt : ∀ i ∈ bitsOf s.sigMask, i < s₀.publicKeys.length
  /-- Exactly one Prepare was accepted from the source of a set bit. -/
  bit_once : ∀ i ∈ bitsOf s.sigMask,
    (accepted tr).countP (fun m => decide (m.source = (i : ℤ))) = 1
  /-- Every accepted message is a Prepare for this topic whose signature
      passed the ack check, and the bit of its source is set. -/
  accepted_valid : ∀ m ∈ accepted tr, m.msgType = .prepare ∧
    m.bridgeEventHash = s₀.topic ∧
    s₀.verifyAckSignature bls m = .ok (.ok ()) ∧
    m.source.toNat ∈ bitsOf s.sigMask
  signature : s.partSignature = ((accepted tr).map (·.signature)).sum
  publicKey : s.partPublicKey = ∑ i ∈ bitsOf s.sigMask, keyAt s₀ i
  built_le : (built tr).length ≤ 1

/-- The invariant says what was to be shown of the session alone. -/
theorem Collected.accumulated (hc : Collected bls s₀ tr s) :
    Accumulated bls s₀ tr s where
  acks_eq := hc.toCounted.acks_eq
  acks_le := hc.acks_le
  bit_lt := fun _ hi => hc.toCounted.bit_lt hi
  -- the accepted acks have different sources, so that each bit was set once
  bit_once := by
    intro i hi
    rw [hc.bits, List.mem_toFinset] at hi
    have hcount := List.count_eq_one_of_mem hc.nodup hi
    rw [List.count, List.countP_map] at hcount
    rw [← hcount]
    apply List.countP_congr
    intro m hm
    have hsrc := (hc.valid m hm).2.2.1.1
    simp only [decide_eq_true_eq, Function.comp_apply, beq_iff_eq]
    omega
  accepted_valid := by
    intro m hm
    obtain ⟨htype, htopic, -, hver⟩ := hc.valid m hm
    refine ⟨htype, htopic, hver, ?_⟩
    rw [hc.bits, List.mem_toFinset]
    exact List.mem_map.mpr ⟨m, hm, rfl⟩
  signature := hc.signature
  publicKey := by
    rw [hc.publicKey, hc.bits, List.sum_toFinset _ hc.nodup, List.map_map]
    rfl
  built_le := hc.built_le

/-- **THE ACCUMULATOR INVARIANT**: in every state of every run of a fresh
    session the accumulators describe the accepted messages, and a Prepared
    message is put together only by the step that brings `Acks` to
    `ThresholdAck`. -/
theorem accumulator_invariant (h : Fresh s₀) (hthr : 1 ≤ s₀.thresholdAck)
    (hrun : Run (Step bls) (Loop.start s₀) tr st) :
    Accumulated bls s₀ tr st.session ∧
    ∀ l st', Step bls st l st' → l.2.built ≠ none →
      st.session.acks + 1 = s₀.thresholdAck ∧
      st'.session.acks = s₀.thresholdAck := by
  have hc := collected_run h hthr hrun
  refine ⟨hc.accumulated, ?_⟩
  intro l st' hstep hbuilt
  rcases step_cases hstep with ⟨-, -, hnone⟩
    | ⟨msg, pk, -, hacc, hsession, -, hsome⟩
  · exact absurd hnone hbuilt
  -- a message is built where the count reaches the threshold, and it was below
  · have hreached : st.session.acks + 1 ≥ st.session.thresholdAck := by
      by_contra hlt
      rw [hsome, if_neg hlt] at hbuilt
      exact hbuilt rfl
    have hbelow := hacc.below
    rw [hc.config.thresholdAck] at hreached hbelow
    have hacks : st'.session.acks = st.session.acks + 1 := by
      rw [hsession]
      rfl
    omega

end Runs

/-! ## A session of seven nodes -/

/-- Seven nodes with the integer model of the library, threshold four. -/
def sampleSession : Session ℤ ℤ ℤ where
  topic := "0x51ab"
  id := 0
  thresholdAck := 4
  thresholdWit := 4
  acks := 0
  publicKeys := [2, 3, 5, 7, 11, 13, 17]
  partSignature := 0
  partPublicKey := 0
  sigMask := 0
  privateKey := 2
  epochPublicKey := 58
  membershipKey := intPoints.onIndex 58 0 58
  leader := ⟨[]⟩

/-- The Prepare message node `i` answers an Announce with. -/
def sampleAck (i : ℕ) : MessageWithSig ℤ ℤ where
  source := i
  msgType := .prepare
  bridgeEventHash := "0x51ab"
  signature := intBls.multisign (keyAt sampleSession i)
    (Body.marshal ⟨"0x51ab"⟩) 58 (intPoints.onIndex 58 i 58)
  mask := 0
  publicKey := intBls.emptyPublicKey

/-- A step that does not panic. -/
theorem step_react [Add PK] [Add SG] (bls : Bls PK SG SK)
    (st : Loop PK SG SK) (e : Event PK SG)
    (h : (st.react bls e).2.isPanic = false) :
    Step bls st (e, (st.react bls e).2) (st.react bls e).1 :=
  ⟨rfl, h⟩

theorem sampleSession_fresh : Fresh sampleSession := ⟨rfl, rfl, rfl, rfl⟩

/-- Two acks and a repetition: two are counted. -/
theorem accumulator_invariant_sample :
    ∃ tr st, Run (Step intBls) (Loop.start sampleSession) tr st ∧
      st.session.acks = 2 ∧ bitsOf st.session.sigMask = {0, 3} ∧
      Accumulated intBls sampleSession tr st.session := by
  have hrun := ((Run.single (step_react intBls (Loop.start sampleSession)
    (.received (sampleAck 0)) (by decide +kernel))).tail
    (step_react intBls _ (.received (sampleAck 0)) (by decide +kernel))).tail
    (step_react intBls _ (.received (sampleAck 3)) (by decide +kernel))
  exact ⟨_, _, hrun, by decide +kernel, by decide +kernel,
    (accumulator_invariant sampleSession_fresh (by decide) hrun).1⟩

end RelayerAccumulator
