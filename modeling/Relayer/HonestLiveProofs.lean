import Relayer.HonestProofs

/-! # Consensus that can be reached

    What the honest sessions of one topic can always still do.  Messages may
    have been delivered late, in any order, several times or never; the only
    thing excluded is that a session has lost its receiver or its context.

    * `Free`: an honest session does not keep its mutex, and is awaited until
      it has agreed;
    * `canPrepare`, `canHear` and `canAgree`: the three things a session may
      still have to do can be done;
    * **`consensus_reachable`**: from every reachable state all sessions can
      still agree, if their thresholds are not above the number of nodes that
      have a session. -/

namespace RelayerHonestLive

open BitMask RelayerAccumulator RelayerBls RelayerFault RelayerHonest
open RelayerMessage RelayerSession Transition

/-! ## One session -/

section Sessions

variable {PK SG SK : Type}

/-- The mutex is free, and the verdict is awaited as long as there is none. -/
structure Free (tr : List (Event PK SG × Verdict PK SG)) (st : Loop PK SG SK) :
    Prop where
  unlocked : st.locked = false
  awaited : st.cancelled = false → st.waiting = true
  agreed : st.cancelled = true → ∃ l ∈ tr, l.2 = .agreed

variable [Add PK] [Add SG] {bls : Bls PK SG SK} {s₀ : Session PK SG SK}
  {st st' : Loop PK SG SK} {msg : MessageWithSig PK SG}
  {tr : List (Event PK SG × Verdict PK SG)}

omit [Add PK] [Add SG] in
/-- The Prepared case takes the mutex back, or agrees. -/
theorem handlePrepared_free (bls : Bls PK SG SK) (msg : MessageWithSig PK SG)
    (hlock : st.locked = false)
    (hwait : st.cancelled = false → st.waiting = true) :
    (st.handlePrepared bls msg).1 = st ∨
      (st.handlePrepared bls msg).2 = .agreed ∧
        (st.handlePrepared bls msg).1
          = { st with cancelled := true, waiting := false } := by
  rw [Loop.handlePrepared]
  split
  · exact Or.inl rfl
  · rw [hlock, if_neg Bool.false_ne_true]
    cases hcancel : st.cancelled with
    | true => exact Or.inl rfl
    | false =>
        rw [if_neg Bool.false_ne_true, hwait hcancel, if_pos rfl]
        exact Or.inr ⟨rfl, rfl⟩

/-- The Prepare case takes it back unless a check fails. -/
theorem handlePrepare_free (hlock : st.locked = false)
    (hpanic : (st.handlePrepare bls msg).2.isPanic = false)
    (hok : ¬ SignatureFails s₀ (.received msg, (st.handlePrepare bls msg).2)) :
    (st.handlePrepare bls msg).1.locked = false ∧
      (st.handlePrepare bls msg).1.cancelled = st.cancelled ∧
      (st.handlePrepare bls msg).1.waiting = st.waiting := by
  revert hpanic hok
  rw [Loop.handlePrepare, hlock, if_neg Bool.false_ne_true]
  -- the guards in their order; the branches that keep the mutex are panics and
  -- failing checks
  split
  · exact fun _ _ => ⟨hlock, rfl, rfl⟩
  · split
    · exact fun hpanic => by cases hpanic
    · exact fun _ _ => ⟨hlock, rfl, rfl⟩
    · split
      · exact fun hpanic => by cases hpanic
      · exact fun _ hok => absurd trivial hok
      · split
        · exact fun hpanic => by cases hpanic
        · rw [Loop.acceptAck]
          split
          · split
            · exact fun _ hok => absurd trivial hok
            · exact fun _ _ => ⟨hlock, rfl, rfl⟩
          · exact fun _ _ => ⟨hlock, rfl, rfl⟩

/-- **A HANDLER LEAVES THE SESSION FREE** where no check fails. -/
theorem handle_free (hlock : st.locked = false)
    (hwait : st.cancelled = false → st.waiting = true)
    (hpanic : (st.handle bls msg).2.isPanic = false)
    (hok : ¬ SignatureFails s₀ (.received msg, (st.handle bls msg).2)) :
    (st.handle bls msg).1.locked = false ∧
      ((st.handle bls msg).1.cancelled = false →
        (st.handle bls msg).1.waiting = true) ∧
      ((st.handle bls msg).1.cancelled = true →
        st.cancelled = true ∨ (st.handle bls msg).2 = .agreed) := by
  by_cases hmine : msg.bridgeEventHash = st.session.topic
  · cases htype : msg.msgType with
    -- a Prepared message ends the wait, or changes nothing
    | prepared =>
        rw [handle_of_prepared bls hmine htype]
        rcases handlePrepared_free bls msg hlock hwait with
          hsame | ⟨hagreed, hst⟩
        · rw [hsame]
          exact ⟨hlock, hwait, Or.inl⟩
        · rw [hst]
          refine ⟨hlock, ?_, fun _ => Or.inr hagreed⟩
          intro hno
          cases hno
    | prepare =>
        rw [handle_of_prepare bls hmine htype] at hpanic hok ⊢
        obtain ⟨hlock', hcancel, hwaiting⟩ := handlePrepare_free hlock hpanic hok
        rw [hcancel, hwaiting]
        exact ⟨hlock', hwait, Or.inl⟩
    | announce =>
        rw [Loop.handle, if_neg (not_not.mpr hmine), htype]
        exact ⟨hlock, hwait, Or.inl⟩
    | other n =>
        rw [Loop.handle, if_neg (not_not.mpr hmine), htype]
        exact ⟨hlock, hwait, Or.inl⟩
  · rw [Loop.handle, if_pos hmine]
    exact ⟨hlock, hwait, Or.inl⟩

/-- Every run in which only messages are handled, and no check fails. -/
theorem free_run (hrun : Run (Step bls) (Loop.start s₀) tr st)
    (hreceived : ∀ l ∈ tr, ∃ msg, l.1 = .received msg)
    (hok : ∀ l ∈ tr, ¬ SignatureFails s₀ l) : Free tr st := by
  refine hrun.traced (P := fun tr st => (∀ l ∈ tr, ∃ msg, l.1 = .received msg) →
    (∀ l ∈ tr, ¬ SignatureFails s₀ l) → Free tr st) ?_ ?_ hreceived hok
  · intro _ _
    exact ⟨rfl, fun _ => rfl, fun hno => by cases hno⟩
  · rintro tr st ⟨e, v⟩ st' ih ⟨hreact, hpanic⟩ hreceived hok
    have hfree := ih (fun l hl => hreceived l (List.mem_append_left _ hl))
      (fun l hl => hok l (List.mem_append_left _ hl))
    have hlast : (e, v) ∈ tr ++ [(e, v)] :=
      List.mem_append_right _ (List.mem_singleton.mpr rfl)
    obtain ⟨msg, rfl⟩ := hreceived _ hlast
    obtain rfl : (st.handle bls msg).1 = st' := congrArg Prod.fst hreact
    obtain rfl : (st.handle bls msg).2 = v := congrArg Prod.snd hreact
    obtain ⟨hlock, hwait, hcancel⟩ :=
      handle_free hfree.unlocked hfree.awaited hpanic (hok _ hlast)
    refine ⟨hlock, hwait, fun hdone => ?_⟩
    rcases hcancel hdone with hbefore | hnow
    · obtain ⟨l, hl, hagreed⟩ := hfree.agreed hbefore
      exact ⟨l, List.mem_append_left _ hl, hagreed⟩
    · exact ⟨_, hlast, hnow⟩

/-- What a session puts together is a Prepared message for its topic. -/
theorem built_topic (hacks : s₀.acks = 0) (hmask : s₀.sigMask = 0)
    (hrun : Run (Step bls) (Loop.start s₀) tr st) :
    ∀ out ∈ built tr, out.bridgeEventHash = s₀.topic ∧
      out.msgType = .prepared := by
  refine (hrun.traced (P := fun tr st => Counted bls s₀ tr st.session ∧
    ∀ out ∈ built tr, out.bridgeEventHash = s₀.topic ∧ out.msgType = .prepared)
    ⟨counted_init bls hacks hmask, fun out hout => by cases hout⟩ ?_).2
  rintro tr st l st' ⟨hc, hbuilt⟩ hstep
  refine ⟨counted_step hc hstep, ?_⟩
  intro out hout
  rw [built_concat] at hout
  rcases List.mem_append.mp hout with hold | hnew
  · exact hbuilt out hold
  · rcases step_cases hstep with ⟨-, -, hnone⟩ | ⟨msg, pk, -, hacc, -, -, heq⟩
    · rw [hnone] at hnew
      cases hnew
    · rw [heq] at hnew
      split at hnew
      · obtain rfl := List.mem_singleton.mp hnew
        exact ⟨hacc.mine.trans hc.config.topic, rfl⟩
      · cases hnew

end Sessions

/-! ## The sessions of a topic -/

section Networks

variable {ι F G : Type} [AddCommGroup F] [AddCommGroup G] [DecidableEq G]
  [DecidableEq ι] {c : Codec F G} {H : HashPoints F G} {coefs : List F → List ℤ}
  {hlen : ∀ pks, (coefs pks).length = pks.length} {ep : HonestEpoch F}
  {s : ι → HonestSession H ep} {net net' : Network ι F G}
  {tr : List (NetEvent ι × Verdict F G)}

/-- The step takes neither its receiver nor its context from a session. -/
def quiet : NetEvent ι × Verdict F G → Bool
  | (.starts _, _) | (.delivers _ _, _) => true
  | _ => false

/-- No session has lost its receiver or its context. -/
def Undisturbed (tr : List (NetEvent ι × Verdict F G)) : Prop :=
  ∀ l ∈ tr, quiet l = true

/-- A state that can be reached so. -/
structure Alive (c : Codec F G) (bls : Bls F G F) (s : ι → HonestSession H ep)
    (net : Network ι F G) : Prop where
  reached : ∃ tr, Run (Fires (Network.react c bls)) (Network.start s) tr net ∧
    Undisturbed tr

omit [AddCommGroup F] [AddCommGroup G] [DecidableEq G] in
/-- A session sees nothing but messages. -/
theorem Undisturbed.received (h : Undisturbed tr) (k : ι) :
    ∀ l ∈ sessionTrace c k tr, ∃ msg, l.1 = .received msg := by
  intro l hl
  obtain ⟨⟨e, v⟩, hmem, hlabel⟩ := List.mem_filterMap.mp hl
  cases e with
  | starts j => cases hlabel
  | delivers j msgBytes =>
      rw [sessionLabel] at hlabel
      split at hlabel
      · obtain ⟨msg, -, rfl⟩ := Option.map_eq_some_iff.mp hlabel
        exact ⟨msg, rfl⟩
      · cases hlabel
  | receiverLeft j => cases h _ hmem
  | contextDone j => cases h _ hmem

/-- What is known of a session in such a state. -/
structure Known (bls : Bls F G F) (hs : HonestSession H ep) (st : Loop F G F)
    (tr : List (Event F G × Verdict F G)) : Prop where
  run : Run (Step bls) (Loop.start hs.session) tr st
  collected : Collected bls hs.session tr st.session
  answered : Answered bls hs.session tr st.session
  free : Free tr st
  topic : ∀ out ∈ built tr, out.bridgeEventHash = hs.session.topic ∧
    out.msgType = .prepared

/-- What is known of each node of an undisturbed run. -/
theorem known (hc : c.Faithful)
    (hrun : Run (Fires (Network.react c (linearBls H coefs hlen)))
      (Network.start s) tr net) (hquiet : Undisturbed tr) (k : ι) :
    Known (linearBls H coefs hlen) (s k) (net.loops k) (sessionTrace c k tr) := by
  have h := allHonest_run hc hrun
  exact ⟨h.runs k, collected_run (s k).fresh (s k).threshold (h.runs k),
    answered_run (s k).fresh (s k).threshold (h.runs k) (h.noFail k),
    free_run (h.runs k) (hquiet.received k) (h.noFail k),
    built_topic (s k).fresh.acks (s k).fresh.sigMask (h.runs k)⟩

omit [DecidableEq G] in
/-- What a delivery does to the network. -/
theorem delivered {bls : Bls F G F} {k : ι} {msgBytes : List UInt8}
    {v : Verdict F G} {msg : MessageWithSig F G}
    (hmsg : bytesToModelMessage c msgBytes = some msg)
    (hreact : net.react c bls (.delivers k msgBytes) = some (net', v)) :
    v = ((net.loops k).handle bls msg).2 ∧
      net'.loops = Function.update net.loops k ((net.loops k).handle bls msg).1 ∧
      net.pool ⊆ net'.pool ∧ ∀ out, v.broadcast = some out →
        ∃ bs ∈ net'.pool, messageToBytes c out = some bs := by
  rw [Network.react] at hreact
  split at hreact
  · dsimp only at hreact
    rw [receive_of_decoded bls (net.loops k) hmsg] at hreact
    obtain ⟨net₁, hbroadcast, heq⟩ := Option.map_eq_some_iff.mp hreact
    obtain ⟨rfl, rfl⟩ := Prod.mk.inj heq
    -- only a broadcast adds to the pool
    cases hout : ((net.loops k).handle bls msg).2.broadcast with
    | none =>
        rw [hout] at hbroadcast
        obtain rfl := Option.some.inj hbroadcast
        exact ⟨rfl, rfl, fun _ => id, fun out hno => by cases hno⟩
    | some out =>
        rw [hout, Network.broadcast] at hbroadcast
        obtain ⟨bs, hbs, rfl⟩ := Option.map_eq_some_iff.mp hbroadcast
        refine ⟨rfl, rfl, List.subset_append_left _ _, ?_⟩
        intro out' hout'
        obtain rfl := Option.some.inj hout'
        exact ⟨bs, List.mem_append_right _ (List.mem_singleton.mpr rfl), hbs⟩
  · cases hreact

/-! ## What is left to do -/

/-- What has to happen on a topic: a node signs, a session counts the signature
    of a node, a session agrees. -/
inductive Task (ι : Type) where
  | prepares (j : ι)
  | hears (k j : ι)
  | agrees (k : ι)
  deriving DecidableEq, Fintype

/-- The Prepare message of a node for a topic is in the pool. -/
def Sends (c : Codec F G) (net : Network ι F G) (topic : String) (id : ℤ) :
    Prop :=
  ∃ msgBytes ∈ net.pool, ∃ msg, bytesToModelMessage c msgBytes = some msg ∧
    msg.msgType = .prepare ∧ msg.bridgeEventHash = topic ∧ msg.source = id

/-- What has not happened yet; a session at its threshold needs no more
    signatures. -/
def Undone (c : Codec F G) (s : ι → HonestSession H ep) (net : Network ι F G) :
    Task ι → Prop
  | .prepares j => ¬ Sends c net (s j).session.topic (s j).session.id
  | .hears k j => (net.loops k).session.acks < (s k).session.thresholdAck ∧
      (net.loops k).session.sigMask.testBit (s j).session.id.toNat = false
  | .agrees k => (net.loops k).cancelled = false

/-- One more task can be done. -/
def CanDo (c : Codec F G) (bls : Bls F G F) (s : ι → HonestSession H ep)
    (net : Network ι F G) : Prop :=
  ∃ tr net', Run (Fires (Network.react c bls)) net tr net' ∧ Undisturbed tr ∧
    (∀ t, Undone c s net' t → Undone c s net t) ∧
    ∃ t, Undone c s net t ∧ ¬ Undone c s net' t

omit [DecidableEq G] in
/-- No task comes back where nothing is taken from the pool, and a session
    keeps its bits and its verdict. -/
theorem undone_mono {st : Loop F G F} {k : ι} (hpool : net.pool ⊆ net'.pool)
    (hloops : net'.loops = Function.update net.loops k st)
    (hacks : (net.loops k).session.acks ≤ st.session.acks)
    (hbits : ∀ i, st.session.sigMask.testBit i = false →
      (net.loops k).session.sigMask.testBit i = false)
    (hcancel : st.cancelled = false → (net.loops k).cancelled = false) :
    ∀ t, Undone c s net' t → Undone c s net t := by
  intro t hundone
  -- a task done stays done: the pool and the masks only grow
  cases t with
  | prepares j =>
      rintro ⟨msgBytes, hmem, hmsg⟩
      exact hundone ⟨msgBytes, hpool hmem, hmsg⟩
  | hears k' j =>
      obtain ⟨hbelow, hbit⟩ := hundone
      rw [hloops] at hbelow hbit
      by_cases hk : k' = k
      · subst hk
        rw [Function.update_self] at hbelow hbit
        exact ⟨hacks.trans_lt hbelow, hbits _ hbit⟩
      · rw [Function.update_of_ne hk] at hbelow hbit
        exact ⟨hbelow, hbit⟩
  | agrees k' =>
      replace hundone : (net'.loops k').cancelled = false := hundone
      rw [hloops] at hundone
      by_cases hk : k' = k
      · subst hk
        rw [Function.update_self] at hundone
        exact hcancel hundone
      · rw [Function.update_of_ne hk] at hundone
        exact hundone

omit [AddCommGroup F] [AddCommGroup G] [DecidableEq G] [DecidableEq ι] in
theorem undisturbed_delivers (k : ι) (msgBytes : List UInt8) (v : Verdict F G) :
    Undisturbed [(.delivers k msgBytes, v)] :=
  List.forall_mem_singleton.mpr rfl

omit [AddCommGroup F] [AddCommGroup G] [DecidableEq G] in
/-- What was encoded is decoded. -/
theorem decodes {out : MessageWithSig F G} {bs : List UInt8} (hc : c.Faithful)
    (hknown : out.msgType.isKnown = true) (hsource : IsInt64 out.source)
    (hbytes : messageToBytes c out = some bs) :
    bytesToModelMessage c bs = some out := by
  obtain ⟨bs', hbytes', hmsg⟩ := bytesToModelMessage_messageToBytes hc hknown hsource
  obtain rfl := Option.some.inj (hbytes.symm.trans hbytes')
  exact hmsg

/-- **A NODE CAN SIGN**: it announces the topic to itself. -/
theorem canPrepare (hc : c.Faithful) {j : ι}
    (h : Alive c (linearBls H coefs hlen) s net)
    (hundone : Undone c s net (.prepares j)) :
    CanDo c (linearBls H coefs hlen) s net := by
  obtain ⟨tr, hrun, hquiet⟩ := h.reached
  have hconf := (known hc hrun hquiet j).collected.config
  have hint : IsInt64 (net.loops j).session.id := by
    rw [hconf.id]
    exact (s j).source_int64
  have hannounce : HonestMsg H ep
      (startProtocol (linearBls H coefs hlen) (net.loops j).session) :=
    HonestMsg.announce rfl
  obtain ⟨bs, -, hdecoded, hbroadcast⟩ := broadcast_honest hc net hannounce hint
  have hstarts : Fires (Network.react c (linearBls H coefs hlen)) net
      (.starts j, .environment) { net with pool := net.pool ++ [bs] } := by
    rw [Fires, Network.react, hbroadcast]
    rfl
  obtain ⟨net₂, v, hreact, -, -⟩ := delivers_honest j hc
    (allHonest_run hc (hrun.tail hstarts))
    (List.mem_append_right net.pool (List.mem_singleton.mpr rfl) :
      bs ∈ net.pool ++ [bs])
  obtain ⟨hv, hloops, hpool, hsent⟩ := delivered hdecoded hreact
  -- the answer to the Announce is the Prepare message
  have hhandle : (net.loops j).handle (linearBls H coefs hlen)
      (startProtocol (linearBls H coefs hlen) (net.loops j).session)
      = (net.loops j).handleAnnounce (linearBls H coefs hlen)
        (startProtocol (linearBls H coefs hlen) (net.loops j).session) := by
    have hmine : (startProtocol (linearBls H coefs hlen)
      (net.loops j).session).bridgeEventHash = (net.loops j).session.topic := rfl
    rw [Loop.handle, if_neg (not_not.mpr hmine)]
    rfl
  rw [hhandle] at hv hloops
  obtain ⟨out, hout, htype, htopic, hsource⟩ : ∃ out, v.broadcast = some out ∧
      out.msgType = .prepare ∧ out.bridgeEventHash = (net.loops j).session.topic ∧
      out.source = (net.loops j).session.id := by
    rw [hv]
    exact ⟨_, rfl, rfl, rfl, rfl⟩
  obtain ⟨bs', hmem, hbytes⟩ := hsent out hout
  refine ⟨[(.starts j, .environment), (.delivers j bs, v)], net₂,
    Run.head hstarts (Run.single hreact), ?_, ?_, .prepares j, hundone, ?_⟩
  · exact List.forall_mem_cons.mpr ⟨rfl, undisturbed_delivers j bs v⟩
  · exact undone_mono (fun b hb => hpool (List.mem_append_left _ hb)) hloops
      le_rfl (fun _ => id) id
  · intro hnot
    refine hnot ⟨bs', hmem, out, decodes hc (by rw [htype]; rfl) ?_ hbytes, htype,
      htopic.trans hconf.topic, hsource.trans hconf.id⟩
    rw [hsource]
    exact hint

/-- **A SESSION CAN COUNT** a signature that it does not have yet. -/
theorem canHear (hc : c.Faithful) {k j : ι}
    (h : Alive c (linearBls H coefs hlen) s net)
    (htopic : (s j).session.topic = (s k).session.topic)
    (hsends : Sends c net (s j).session.topic (s j).session.id)
    (hundone : Undone c s net (.hears k j)) :
    CanDo c (linearBls H coefs hlen) s net := by
  obtain ⟨tr, hrun, hquiet⟩ := h.reached
  have hk := known hc hrun hquiet k
  have hall := allHonest_run hc hrun
  obtain ⟨msgBytes, hmem, msg, hmsg, htype, hhash, hsource⟩ := hsends
  obtain ⟨hbelow, hbit⟩ := hundone
  obtain ⟨msg', hmsg', hhonest⟩ := hall.pool msgBytes hmem
  obtain rfl := Option.some.inj (hmsg.symm.trans hmsg')
  -- of the three kinds of message only a Prepare has been asked for
  obtain ⟨sk, hkey, hsig⟩ : ∃ sk, index ep.keys msg.source = .ok sk ∧
      msg.signature = H.onMessage ep.publicKey msg.toBody.marshal sk
        + H.onIndex ep.publicKey msg.source.toNat ep.publicKey := by
    cases hhonest with
    | announce hother => rw [htype] at hother; cases hother
    | prepare _ sk hkey hsig => exact ⟨sk, hkey, hsig⟩
    | prepared hother _ => rw [htype] at hother; cases hother
  have hpks : index (net.loops k).session.publicKeys msg.source = .ok sk := by
    rw [hk.collected.config.publicKeys, (s k).publicKeys]
    exact hkey
  have hacc : Accepts (linearBls H coefs hlen) (net.loops k) msg sk := by
    refine ⟨hk.free.unlocked, ?_, htype, ?_, ?_, hpks, ?_⟩
    · rw [hhash, htopic, hk.collected.config.topic]
    · rw [hk.collected.config.thresholdAck]
      exact hbelow
    · rw [hsource]
      exact hbit
    · rw [verifyAckSignature_iff hpks, hk.collected.config.epochPublicKey,
        (s k).epochPublicKey]
      exact hsig
  have hsession : ((net.loops k).handle (linearBls H coefs hlen) msg).1.session
      = (net.loops k).session.countAck msg sk := by
    rw [handle_of_accepts hacc]
    exact acceptAck_session _ _ _ _
  have hwell := handle_honest hk.run hhonest
  have hprepare := handle_of_prepare (linearBls H coefs hlen) hacc.mine htype
  have hcancel : ((net.loops k).handle (linearBls H coefs hlen) msg).1.cancelled
      = (net.loops k).cancelled := by
    have hpanic := hwell.noPanic
    have hok := hwell.noFail
    rw [hprepare] at hpanic hok ⊢
    exact (handlePrepare_free hk.free.unlocked hpanic hok).2.1
  obtain ⟨net', v, hreact, -, -⟩ := delivers_honest k hc hall hmem
  obtain ⟨-, hloops, hpool, -⟩ := delivered hmsg hreact
  refine ⟨[(.delivers k msgBytes, v)], net', Run.single hreact,
    undisturbed_delivers k msgBytes v, ?_, .hears k j, ⟨hbelow, hbit⟩, ?_⟩
  · refine undone_mono hpool hloops ?_ ?_ (fun hno => hcancel ▸ hno)
    · rw [hsession]
      exact le_of_lt (lt_add_one _)
    · intro i hi
      rw [hsession] at hi
      replace hi : (setBit (net.loops k).session.sigMask msg.source.toNat).testBit i
        = false := hi
      rw [Bool.eq_false_iff, ne_eq, ← mem_bitsOf, bitsOf_setBit,
        Finset.mem_insert, not_or, mem_bitsOf] at hi
      exact Bool.eq_false_iff.mpr hi.2
  -- the sender's bit is set, so this task is done
  · rintro ⟨-, hclear⟩
    rw [hloops, Function.update_self, hsession] at hclear
    replace hclear : (setBit (net.loops k).session.sigMask
      msg.source.toNat).testBit (s j).session.id.toNat = false := hclear
    rw [hsource] at hclear
    have hset : (setBit (net.loops k).session.sigMask
        (s j).session.id.toNat).testBit (s j).session.id.toNat = true := by
      rw [← mem_bitsOf, bitsOf_setBit]
      exact Finset.mem_insert_self _ _
    exact Bool.false_ne_true (hclear.symm.trans hset)

/-- **A SESSION CAN AGREE** once it has enough signatures: its own Prepared
    message is in the pool. -/
theorem canAgree (hc : c.Faithful) {k : ι}
    (h : Alive c (linearBls H coefs hlen) s net)
    (henough : (s k).session.thresholdAck ≤ (net.loops k).session.acks)
    (hundone : Undone c s net (.agrees k)) :
    CanDo c (linearBls H coefs hlen) s net := by
  obtain ⟨tr, hrun, hquiet⟩ := h.reached
  have hk := known hc hrun hquiet k
  have hall := allHonest_run hc hrun
  -- enough acks were counted, so the Prepared message was built
  obtain ⟨out, hbuilt⟩ : ∃ out, out ∈ built (sessionTrace c k tr) := by
    have hone := hk.answered.built_one henough
    exact List.exists_mem_of_length_pos (by omega)
  obtain ⟨hhash, htype⟩ := hk.topic out hbuilt
  obtain ⟨hsource, hver⟩ := hk.answered.verified out hbuilt
  have hbroadcast : out ∈ broadcastPrepared (sessionTrace c k tr) := by
    rw [hk.answered.broadcast]
    exact hbuilt
  obtain ⟨l, hl, hout⟩ := List.mem_filterMap.mp (List.mem_filter.mp hbroadcast).1
  obtain ⟨msgBytes, hmem, hbytes⟩ := hall.sent k l hl out hout
  have hmsg : bytesToModelMessage c msgBytes = some out := by
    refine decodes hc (by rw [htype]; rfl) ?_ hbytes
    rw [hsource]
    exact (s k).source_int64
  have hopen : (net.loops k).cancelled = false := hundone
  -- it passes the check of its own sender, who waits for it
  have hhandle : (net.loops k).handle (linearBls H coefs hlen) out
      = ({ net.loops k with cancelled := true, waiting := false }, .agreed) := by
    rw [handle_of_prepared _ (hhash.trans hk.collected.config.topic.symm) htype,
      Loop.handlePrepared, hk.collected.config.verifyThresholdWitnesses, hver]
    simp only [hk.free.unlocked, hk.free.awaited hundone, hopen,
      Bool.false_eq_true, if_false, if_true]
  obtain ⟨net', v, hreact, -, -⟩ := delivers_honest k hc hall hmem
  obtain ⟨-, hloops, hpool, -⟩ := delivered hmsg hreact
  rw [hhandle] at hloops
  refine ⟨[(.delivers k msgBytes, v)], net', Run.single hreact,
    undisturbed_delivers k msgBytes v, ?_, .agrees k, hundone, ?_⟩
  · exact undone_mono hpool hloops le_rfl (fun _ => id) (fun _ => hundone)
  · intro hno
    replace hno : (net'.loops k).cancelled = false := hno
    rw [hloops, Function.update_self] at hno
    cases hno

/-- Below its threshold a session lacks the signature of some node. -/
theorem exists_unheard [Fintype ι] (hc : c.Faithful) {k : ι}
    (h : Alive c (linearBls H coefs hlen) s net)
    (hquorum : (s k).session.thresholdAck
      ≤ (Finset.univ.image fun j => (s j).session.id).card)
    (hbelow : (net.loops k).session.acks < (s k).session.thresholdAck) :
    ∃ j, (net.loops k).session.sigMask.testBit (s j).session.id.toNat = false := by
  obtain ⟨tr, hrun, hquiet⟩ := h.reached
  have hacks := (known hc hrun hquiet k).collected.toCounted.acks_eq
  rw [popcount_eq_card] at hacks
  by_contra hnone
  rw [not_exists] at hnone
  -- every node would have a bit
  have hsub : (Finset.univ.image fun j => (s j).session.id) ⊆
      (bitsOf (net.loops k).session.sigMask).image (fun i : ℕ => (i : ℤ)) := by
    intro id hid
    obtain ⟨j, -, rfl⟩ := Finset.mem_image.mp hid
    refine Finset.mem_image.mpr ⟨(s j).session.id.toNat, ?_, ?_⟩
    · rw [mem_bitsOf]
      exact Bool.eq_true_of_not_eq_false (hnone j)
    · exact Int.toNat_of_nonneg (inRange_of_index_ok (s j).own).1
  have hcard := (Finset.card_le_card hsub).trans Finset.card_image_le
  omega

/-- As long as something is left, something can be done. -/
theorem canDo_of_undone [Fintype ι] (hc : c.Faithful) {topic : String}
    (htopic : ∀ k, (s k).session.topic = topic)
    (hquorum : ∀ k, (s k).session.thresholdAck
      ≤ (Finset.univ.image fun j => (s j).session.id).card)
    (h : Alive c (linearBls H coefs hlen) s net) {t : Task ι}
    (hundone : Undone c s net t) : CanDo c (linearBls H coefs hlen) s net := by
  have hhears : ∀ k j, Undone c s net (.hears k j) →
      CanDo c (linearBls H coefs hlen) s net := by
    intro k j hundone
    by_cases hsends : Sends c net (s j).session.topic (s j).session.id
    · exact canHear hc h ((htopic j).trans (htopic k).symm) hsends hundone
    · exact canPrepare hc h hsends
  cases t with
  | prepares j => exact canPrepare hc h hundone
  | hears k j => exact hhears k j hundone
  | agrees k =>
      rcases le_or_gt (s k).session.thresholdAck (net.loops k).session.acks with
        henough | hbelow
      · exact canAgree hc h henough hundone
      · obtain ⟨j, hj⟩ := exists_unheard hc h (hquorum k) hbelow
        exact hhears k j ⟨hbelow, hj⟩

/-- The sessions can go on until nothing is left. -/
theorem exists_finished [Fintype ι] (hc : c.Faithful) {topic : String}
    (htopic : ∀ k, (s k).session.topic = topic)
    (hquorum : ∀ k, (s k).session.thresholdAck
      ≤ (Finset.univ.image fun j => (s j).session.id).card)
    (h : Alive c (linearBls H coefs hlen) s net) :
    ∃ tr' net', Run (Fires (Network.react c (linearBls H coefs hlen))) net tr' net' ∧
      Undisturbed tr' ∧ ∀ k, (net'.loops k).cancelled = true := by
  obtain ⟨tr', net', hrun, hquiet, -, hdone⟩ :=
    exists_run_of_tasks Finset.univ (Alive c (linearBls H coefs hlen) s)
      (Undone c s) (fun l => quiet l = true)
      (by
        rintro a ha ⟨t, -, hundone⟩
        obtain ⟨tr₀, ha₀, hquiet₀⟩ := ha.reached
        obtain ⟨tr, b, hrun, hquiet, hstay, t, ht, hdid⟩ :=
          canDo_of_undone hc htopic hquorum ha hundone
        refine ⟨tr, b, hrun, hquiet, ⟨tr₀ ++ tr, ha₀.append hrun, ?_⟩, hstay, t,
          Finset.mem_univ t, ht, hdid⟩
        exact List.forall_mem_append.mpr ⟨hquiet₀, hquiet⟩) h
  exact ⟨tr', net', hrun, hquiet, fun k =>
    Bool.eq_true_of_not_eq_false (hdone (.agrees k) (Finset.mem_univ _))⟩

/-- **CONSENSUS CAN BE REACHED**: from every state that honest sessions of one
    topic can reach undisturbed, all of them can still agree, if no threshold
    is above the number of nodes. -/
theorem consensus_reachable [Fintype ι] (hc : c.Faithful)
    (s : ι → HonestSession H ep) (topic : String)
    (htopic : ∀ k, (s k).session.topic = topic)
    (hquorum : ∀ k, (s k).session.thresholdAck
      ≤ (Finset.univ.image fun j => (s j).session.id).card)
    (hrun : Run (Fires (Network.react c (linearBls H coefs hlen)))
      (Network.start s) tr net) (hquiet : Undisturbed tr) :
    ∃ tr' net', Run (Fires (Network.react c (linearBls H coefs hlen))) net tr' net' ∧
      Undisturbed tr' ∧
      ∀ k, ∃ l ∈ sessionTrace c k (tr ++ tr'), l.2 = .agreed := by
  obtain ⟨tr', net', hrun', hquiet', hdone⟩ :=
    exists_finished hc htopic hquorum ⟨tr, hrun, hquiet⟩
  have hall : Undisturbed (tr ++ tr') :=
    List.forall_mem_append.mpr ⟨hquiet, hquiet'⟩
  exact ⟨tr', net', hrun', hquiet', fun k =>
    (known hc (hrun.append hrun') hall k).free.agreed (hdone k)⟩

end Networks

/-- Node 0 has announced and two nodes have signed; all seven sessions can still
    agree. -/
theorem consensus_reachable_sample :
    ∃ tr net, Run (Fires (Network.react framedCodec intBls))
        (Network.start sampleHonest) tr net ∧ net.pool.length = 3 ∧
      ∃ tr' net', Run (Fires (Network.react framedCodec intBls)) net tr' net' ∧
        ∀ k, ∃ l ∈ sessionTrace framedCodec k (tr ++ tr'), l.2 = .agreed := by
  obtain ⟨tr, net, hrun, hquiet, hpool⟩ := exists_run
    (fun tr (net : Network (Fin 7) ℤ ℤ) =>
      (∀ l ∈ tr, quiet l = true) ∧ net.pool.length = 3)
    (show (execute (Network.react framedCodec intBls)
      (Network.start sampleHonest)
      [.starts 0,
        .delivers 1 (sampleBytes (startProtocol intBls sampleSession)),
        .delivers 2 (sampleBytes (startProtocol intBls sampleSession))]).any _ = true
      by decide +kernel)
  obtain ⟨tr', net', hrun', -, hagreed⟩ := consensus_reachable framedCodec_faithful
    sampleHonest "0x51ab" (fun _ => rfl) (by decide +kernel) hrun hquiet
  exact ⟨tr, net, hrun, hpool, tr', net', hrun', hagreed⟩

end RelayerHonestLive
