import Relayer.AccumulatorProofs
import Relayer.SetupProofs

/-! # The consensus against an adversary

    The nodes of one epoch run `BlsSetup` and then `WaitForProtocolMsg` on one
    topic.  An adversary knows the private keys of the corrupt nodes, reads
    everything that is broadcast, and is the network: what an honest node
    receives is what the adversary hands it, any number of times and in any
    order.  In the linear model it can hand over every signature that is a
    combination of what it has seen (`derivable`), with any mask and any
    public key.

    * `blind_run`: as long as an honest node has not signed the body, its
      secret does not occur at the hash of the body in anything the adversary
      or an honest node holds;
    * `consensus_needs_signatures`: so an honest session that reports
      consensus on a message whose public key involves the keys of the mask
      was given the signatures of all honest nodes in the mask;
    * `setup_leaks_epoch_point`: the parts that `BlsSetup` broadcasts add up
      to the whole of the other summand, and a message that brings the zero
      key needs nothing else. -/

namespace RelayerAdversary

open BitMask LinearForms RelayerAccumulator RelayerBls RelayerLeader
open RelayerMessage RelayerSession RelayerSetup Transition

/-! ## The world -/

variable {K : Type} [CommRing K]

/-- Signatures of the linear model: secrets are numbered like the nodes. -/
abbrev Sig (K : Type) := Element K ℕ (HashPoint (Form K ℕ))

/-- One epoch, one topic, and who is corrupt: `corrupt i` is the private key of
    node `i` where the adversary knows it. -/
structure Setting (K : Type) [CommRing K] where
  size : ℕ
  corrupt : ℕ → Option K
  coefs : List (Form K ℕ) → List ℤ
  coefs_length : ∀ pks, (coefs pks).length = pks.length
  topic : String
  threshold : ℕ → ℤ
  leader : ℕ → PeerID

namespace Setting

variable (S : Setting K)

/-- An honest node of the epoch. -/
def Honest (i : ℕ) : Prop := i < S.size ∧ S.corrupt i = none

/-- The private keys: a secret, or a scalar the adversary knows. -/
noncomputable def privKey (i : ℕ) : Form K ℕ :=
  match S.corrupt i with
  | none => secret i
  | some c => known c

/-- The library. -/
noncomputable def bls : Bls (Form K ℕ) (Sig K) (Form K ℕ) :=
  formBls K ℕ S.coefs S.coefs_length

/-- The registered keys; the logarithm of a public key is the private key. -/
noncomputable def publicKeys : List (Form K ℕ) :=
  (List.range S.size).map S.privKey

/-- The epoch key that `StartEpoch` computes. -/
noncomputable def epochPublicKey : Form K ℕ :=
  S.bls.aggregatePublicKeys S.publicKeys
    (S.bls.calculateAntiRogueCoefficients S.publicKeys)

/-- The nodes as `BlsSetup` sees them. -/
noncomputable def epoch : Epoch (Form K ℕ) (Form K ℕ) :=
  ⟨S.publicKeys, S.epochPublicKey, S.privKey⟩

/-- An honest node's index is one of the epoch's keys. -/
theorem lt_publicKeys {i : ℕ} (h : i < S.size) :
    i < S.epoch.publicKeys.length := by
  show i < ((List.range S.size).map S.privKey).length
  rw [List.length_map, List.length_range]
  exact h

/-- The session node `i` starts with the key its setup gave back. -/
noncomputable def session (i : ℕ) (key : Sig K) :
    Session (Form K ℕ) (Sig K) (Form K ℕ) where
  topic := S.topic
  id := i
  thresholdAck := S.threshold i
  thresholdWit := S.threshold i
  acks := 0
  publicKeys := S.publicKeys
  partSignature := 0
  partPublicKey := 0
  sigMask := 0
  privateKey := S.privKey i
  epochPublicKey := S.epochPublicKey
  membershipKey := key
  leader := S.leader i

/-- The hash point of the body of the topic. -/
noncomputable def bodyPoint : HashPoint (Form K ℕ) :=
  .message S.epochPublicKey (Body.marshal ⟨S.topic⟩)

end Setting

/-- The setups and sessions of the honest nodes, and every signature that was
    broadcast. -/
structure World (K : Type) where
  procs : ℕ → Process (Sig K)
  loops : ℕ → Option (Loop (Form K ℕ) (Sig K) (Form K ℕ))
  seen : Set (Sig K)

/-- Nothing has happened. -/
def World.start (S : Setting K) : World K :=
  ⟨fun _ => Process.start S.size, fun _ => none, ∅⟩

/-- What happened in a step: in the setup of a node, in its session, or that
    its session was started. -/
inductive Label (K : Type) where
  | setup (i : ℕ) (e : RelayerSetup.Event (Sig K)) (o : Outcome (Sig K))
  | start (i : ℕ)
  | session (i : ℕ) (e : RelayerSession.Event (Form K ℕ) (Sig K))
      (v : Verdict (Form K ℕ) (Sig K))

/-- The adversary can make what it hands to a setup. -/
def FeedsSetup (w : World K) (e : RelayerSetup.Event (Sig K)) : Prop :=
  ∀ msg, e = .receives (some msg) →
    ∀ part ∈ msg.membershipKeyParts, part ∈ derivable w.seen

/-- The adversary can make what it hands to a session. -/
def FeedsSession (w : World K)
    (e : RelayerSession.Event (Form K ℕ) (Sig K)) : Prop :=
  ∀ msg, e = .received msg → msg.signature ∈ derivable w.seen

/-- The steps of the honest nodes; what they broadcast is seen. -/
inductive Step (S : Setting K) : World K → Label K → World K → Prop where
  | setup {w : World K} {i : ℕ} {e : RelayerSetup.Event (Sig K)}
      {o : Outcome (Sig K)} {p : Process (Sig K)} (honest : S.Honest i)
      (feeds : FeedsSetup w e)
      (reacts : (w.procs i).react S.bls (S.epoch.node S.bls i) e
        = some (p, o)) :
      Step S w (.setup i e o)
        { w with
          procs := Function.update w.procs i p
          seen := w.seen ∪
            {x | ∃ out ∈ o.broadcast, x ∈ out.membershipKeyParts} }
  | start {w : World K} {i : ℕ} {key : Sig K} (honest : S.Honest i)
      (result : (w.procs i).result = some key) (idle : w.loops i = none) :
      Step S w (.start i)
        { w with
          loops := Function.update w.loops i
            (some (Loop.start (S.session i key))) }
  | session {w : World K} {i : ℕ}
      {e : RelayerSession.Event (Form K ℕ) (Sig K)}
      {v : Verdict (Form K ℕ) (Sig K)}
      {st st' : Loop (Form K ℕ) (Sig K) (Form K ℕ)} (honest : S.Honest i)
      (feeds : FeedsSession w e) (running : w.loops i = some st)
      (steps : RelayerSession.Step S.bls st (e, v) st') :
      Step S w (.session i e v)
        { w with
          loops := Function.update w.loops i (some st')
          seen := w.seen ∪ {x | ∃ out, v.broadcast = some out ∧
            x = out.signature} }

/-- Node `j` has run its Announce handler: it has signed the body. -/
def Announced (tr : List (Label K)) (j : ℕ) : Prop :=
  ∃ e out, Label.session j e (.announced out) ∈ tr

/-! ## What the adversary cannot have -/

/-- Every running session was started by its node. -/
def Configured (S : Setting K) (w : World K) : Prop :=
  ∀ i st, w.loops i = some st →
    ∃ key, SameConfig (S.session i key) st.session

/-- A step of a session keeps its configuration. -/
theorem sameConfig_step {bls : Bls (Form K ℕ) (Sig K) (Form K ℕ)}
    {s₀ : Session (Form K ℕ) (Sig K) (Form K ℕ)}
    {st st' : Loop (Form K ℕ) (Sig K) (Form K ℕ)}
    {l : RelayerSession.Event (Form K ℕ) (Sig K) × Verdict (Form K ℕ) (Sig K)}
    (hconf : SameConfig s₀ st.session)
    (hstep : RelayerSession.Step bls st l st') :
    SameConfig s₀ st'.session := by
  rcases step_cases hstep with ⟨hsame, -, -⟩ | ⟨msg, pk, -, -, hset, -, -⟩
  · rw [hsame]
    exact hconf
  · rw [hset]
    exact hconf.countAck msg pk

/-- The body of a message for a session is the topic of the setting. -/
theorem body_of_mine {S : Setting K} {i : ℕ} {key : Sig K}
    {s : Session (Form K ℕ) (Sig K) (Form K ℕ)}
    {msg : MessageWithSig (Form K ℕ) (Sig K)}
    (hconf : SameConfig (S.session i key) s)
    (hmine : msg.bridgeEventHash = s.topic) : msg.toBody = ⟨S.topic⟩ := by
  have htopic : msg.bridgeEventHash = S.topic := hmine.trans hconf.topic
  rw [← htopic]

/-- Every session runs with the settings it was made with. -/
theorem configured_run {S : Setting K} {tr : List (Label K)} {w : World K}
    (h : Run (Step S) (World.start S) tr w) : Configured S w := by
  refine Run.invariant (P := Configured S) h (fun i st hst => (nomatch hst)) ?_
  intro w l w' hc hstep
  cases hstep with
  | setup => exact hc
  | start honest result idle =>
      rename_i i key
      -- only node `i`'s session is new or has changed
      refine (Function.forall_update_iff w.loops (fun k o => ∀ st, o = some st →
        ∃ key, SameConfig (S.session k key) st.session)).mpr ⟨?_, ?_⟩
      · intro st hst
        rw [← Option.some.inj hst]
        exact ⟨key, SameConfig.refl _⟩
      · intro k _
        exact hc k
  | session honest feeds running steps =>
      refine (Function.forall_update_iff w.loops (fun k o => ∀ st, o = some st →
        ∃ key, SameConfig (S.session k key) st.session)).mpr ⟨?_, ?_⟩
      · intro st hst
        obtain ⟨key, hconf⟩ := hc _ _ running
        rw [← Option.some.inj hst]
        exact ⟨key, sameConfig_step hconf steps⟩
      · intro k _
        exact hc k

/-- The secret of `j` does not occur in `x` at the hash of the body. -/
def Blind (S : Setting K) (j : ℕ) (x : Sig K) : Prop :=
  coord S.bodyPoint j x = 0

section Blind

variable {S : Setting K} {j : ℕ}

theorem blind_zero : Blind S j 0 := map_zero (coord S.bodyPoint j)

theorem Blind.add {x y : Sig K} (hx : Blind S j x) (hy : Blind S j y) :
    Blind S j (x + y) := by
  rw [Blind, map_add, hx, hy, add_zero]

/-- The body of the request is hashed to no membership point. -/
theorem bodyPoint_ne_index (E : Form K ℕ) (i : ℕ) :
    S.bodyPoint ≠ .index E i := by
  rw [Setting.bodyPoint]
  intro h
  exact nomatch h

/-- Key parts live at the hashes of indices. -/
theorem blind_keyPart (i k : ℕ) :
    Blind S j (S.epoch.keyPart S.bls i k) := by
  show coord S.bodyPoint j (atPoint (.index S.epochPublicKey (byte k)) _) = 0
  exact coord_atPoint_of_ne (bodyPoint_ne_index _ _) j _

/-- A signature of node `i` on the body has the key of `i` at the hash of the
    body, and otherwise what its membership key has. -/
theorem coord_multisign (sk : Form K ℕ) (mk : Sig K) :
    coord S.bodyPoint j (S.bls.multisign sk (Body.marshal ⟨S.topic⟩)
      S.epochPublicKey mk) = sk (some j) + coord S.bodyPoint j mk := by
  show coord S.bodyPoint j (atPoint S.bodyPoint sk + mk) = _
  rw [map_add, coord_atPoint_self]

/-- No other node's key contains the secret of `j`. -/
theorem privKey_of_ne {i : ℕ} (h : i ≠ j) : S.privKey i (some j) = 0 := by
  rw [Setting.privKey]
  cases S.corrupt i with
  | none => exact secret_of_ne h
  | some c => exact known_some c j

/-- The equation of the library at the hash of the body: the signature has
    there what the public key has. -/
theorem coord_multisig {sg : Sig K} {pk : Form K ℕ} {mask : ℕ}
    (h : S.bls.verifyMultisig sg S.epochPublicKey pk
      (Body.marshal ⟨S.topic⟩) mask = true) :
    coord S.bodyPoint j sg = pk (some j) := by
  have heq : sg = multisigValue (formPoints K ℕ) S.epochPublicKey pk
      (Body.marshal ⟨S.topic⟩) mask := formBls_verifyMultisig_iff.mp h
  rw [heq, multisigValue, map_add, map_sum, Finset.sum_eq_zero]
  · show coord S.bodyPoint j (atPoint S.bodyPoint pk) + 0 = _
    rw [coord_atPoint_self, add_zero]
  · intro i _
    show coord S.bodyPoint j (atPoint (.index S.epochPublicKey i) _) = 0
    exact coord_atPoint_of_ne (bodyPoint_ne_index _ _) j _

/-- A setup that holds nothing of `j`. -/
structure BlindProcess (S : Setting K) (j : ℕ) (p : Process (Sig K)) :
    Prop where
  handlers : ∀ msg, some msg ∈ p.handlers →
    ∀ part ∈ msg.membershipKeyParts, Blind S j part
  key : Blind S j p.setup.membershipKey
  result : ∀ key, p.result = some key → Blind S j key

/-- A session that holds nothing of `j`. -/
def BlindLoop (S : Setting K) (j : ℕ)
    (st : Loop (Form K ℕ) (Sig K) (Form K ℕ)) : Prop :=
  Blind S j st.session.partSignature ∧ Blind S j st.session.membershipKey

/-- Nobody holds anything of `j`. -/
structure BlindWorld (S : Setting K) (j : ℕ) (w : World K) : Prop where
  seen : ∀ x ∈ w.seen, Blind S j x
  procs : ∀ i, BlindProcess S j (w.procs i)
  loops : ∀ i st, w.loops i = some st → BlindLoop S j st

/-- What the adversary can make holds nothing either. -/
theorem BlindWorld.derivable {w : World K} (hw : BlindWorld S j w) {x : Sig K}
    (hx : x ∈ derivable w.seen) : Blind S j x :=
  coord_eq_zero_of_derivable hw.seen hx

theorem blind_start : BlindWorld S j (World.start S) := by
  refine ⟨fun x hx => (nomatch hx), ?_, fun i st h => (nomatch h)⟩
  intro i
  exact ⟨fun msg h => (nomatch h), blind_zero, fun key h => (nomatch h)⟩

/-- A step of a setup: nothing of `j` comes in, nothing goes out. -/
theorem blind_react {w : World K} {i : ℕ} {e : RelayerSetup.Event (Sig K)}
    {o : Outcome (Sig K)} {p : Process (Sig K)} (hw : BlindWorld S j w)
    (hi : S.Honest i) (hfeeds : FeedsSetup w e)
    (h : (w.procs i).react S.bls (S.epoch.node S.bls i) e = some (p, o)) :
    BlindProcess S j p ∧
    ∀ out ∈ o.broadcast, ∀ part ∈ out.membershipKeyParts, Blind S j part := by
  have hp := hw.procs i
  have hkey : Blind S j p.setup.membershipKey := by
    rcases react_setup h with ⟨hsame, -⟩ |
      ⟨k, msg, part, verified, -, hk, -, -, hpart, hset, -, -⟩
    · rw [hsame]
      exact hp.key
    · rw [hset]
      refine Blind.add hp.key (hp.handlers msg (List.mem_of_getElem? hk) part ?_)
      exact List.mem_of_getElem? (index_ok_iff.mp hpart).2
  refine ⟨?_, ?_⟩
  -- a message comes in, is handled, or the setup ends
  · rcases react_cases h with ⟨bytes, rfl, -, rfl⟩ | ⟨k, bytes, -, -, -, rfl⟩ |
      ⟨-, -, rfl⟩ | ⟨-, -, -, -, rfl⟩
    · refine ⟨?_, hkey, hp.result⟩
      intro msg hmsg part hpart
      rcases List.mem_append.mp hmsg with hold | hnew
      · exact hp.handlers msg hold part hpart
      · -- the adversary made the parts, from what it has seen
        rw [List.mem_singleton] at hnew
        exact hw.derivable (hfeeds msg (by rw [hnew]) part hpart)
    · refine ⟨?_, hkey, hp.result⟩
      intro msg hmsg
      exact hp.handlers msg (List.mem_of_mem_eraseIdx hmsg)
    · exact ⟨hp.handlers, hkey, hp.result⟩
    · refine ⟨hp.handlers, hkey, ?_⟩
      intro key hres
      rw [← Option.some.inj hres]
      exact hp.key
  -- what node `i` answers are its own parts, on the membership points
  · intro out hout part hpart
    rw [react_broadcast (S.lt_publicKeys hi.1) h out hout] at hpart
    obtain ⟨k, -, rfl⟩ := List.mem_map.mp hpart
    exact blind_keyPart i k

/-- A step of a session: only an Announce at node `j` itself brings the secret
    of `j` to the hash of the body. -/
theorem blind_session {w : World K} {i : ℕ}
    {e : RelayerSession.Event (Form K ℕ) (Sig K)}
    {v : Verdict (Form K ℕ) (Sig K)}
    {st st' : Loop (Form K ℕ) (Sig K) (Form K ℕ)} (hw : BlindWorld S j w)
    {key : Sig K} (hconf : SameConfig (S.session i key) st.session)
    (hfeeds : FeedsSession w e) (hrunning : w.loops i = some st)
    (hstep : RelayerSession.Step S.bls st (e, v) st')
    (hnot : i = j → ∀ out, v ≠ .announced out) :
    BlindLoop S j st' ∧
    ∀ out, v.broadcast = some out → Blind S j out.signature := by
  obtain ⟨hpart, hkey⟩ := hw.loops i st hrunning
  refine ⟨?_, ?_⟩
  · rcases step_cases hstep with ⟨hsame, -, -⟩ |
      ⟨msg, pk, hmsg, -, hset, -, -⟩
    · rw [BlindLoop, hsame]
      exact ⟨hpart, hkey⟩
    · rw [BlindLoop, hset]
      exact ⟨hpart.add (hw.derivable (hfeeds msg hmsg)), hkey⟩
  · intro out hout
    obtain ⟨hreact, -⟩ := hstep
    cases e with
    | receiverLeft =>
        have hv : Verdict.environment = v := congrArg Prod.snd hreact
        rw [← hv] at hout
        exact nomatch hout
    | contextDone =>
        have hv : Verdict.environment = v := congrArg Prod.snd hreact
        rw [← hv] at hout
        exact nomatch hout
    | received msg =>
        have hv : (st.handle S.bls msg).2 = v := congrArg Prod.snd hreact
        rw [← hv] at hout
        -- an answer to an Announce, or the sum sent when the threshold is met
        rcases handle_broadcast hout with ⟨hmine, hann, hsig⟩ | hsig
        · have hij : i ≠ j := fun heq => hnot heq out (hv.symm.trans hann)
          rw [hsig, hconf.privateKey, hconf.epochPublicKey,
            body_of_mine hconf hmine, Blind]
          show coord S.bodyPoint j (S.bls.multisign (S.privKey i) _
            S.epochPublicKey st.session.membershipKey) = 0
          -- node `i` signs with its own key, and its membership key is blind
          rw [coord_multisign, privKey_of_ne hij, hkey, add_zero]
        · rw [hsig]
          exact hpart.add (hw.derivable (hfeeds msg rfl))

/-- **ONE STEP**: nobody gets hold of the secret of `j` at the hash of the body,
    unless `j` has just signed the body. -/
theorem blind_step {w w' : World K} {l : Label K} (hc : Configured S w)
    (hw : BlindWorld S j w) (hstep : Step S w l w')
    (hnot : ∀ e out, l ≠ .session j e (.announced out)) :
    BlindWorld S j w' := by
  cases hstep with
  | setup honest feeds reacts =>
      obtain ⟨hp, hout⟩ := blind_react hw honest feeds reacts
      refine ⟨?_, ?_, hw.loops⟩
      -- what the adversary sees more is what was broadcast
      · rintro x (hx | ⟨out, hmem, hx⟩)
        · exact hw.seen x hx
        · exact hout out hmem x hx
      · exact (Function.forall_update_iff w.procs
          (fun _ p => BlindProcess S j p)).mpr ⟨hp, fun i _ => hw.procs i⟩
  | start honest result idle =>
      refine ⟨hw.seen, hw.procs, ?_⟩
      refine (Function.forall_update_iff w.loops
        (fun _ o => ∀ st, o = some st → BlindLoop S j st)).mpr ⟨?_, ?_⟩
      · intro st hst
        rw [← Option.some.inj hst]
        exact ⟨blind_zero, (hw.procs _).result _ result⟩
      · intro i _
        exact hw.loops i
  | session honest feeds running steps =>
      obtain ⟨key, hconf⟩ := hc _ _ running
      obtain ⟨hloop, hout⟩ := blind_session hw hconf feeds running steps
        (fun heq out hv => hnot _ out (by rw [heq, hv]))
      refine ⟨?_, hw.procs, ?_⟩
      · rintro x (hx | ⟨out, hmem, rfl⟩)
        · exact hw.seen x hx
        · exact hout out hmem
      · refine (Function.forall_update_iff w.loops
          (fun _ o => ∀ st, o = some st → BlindLoop S j st)).mpr ⟨?_, ?_⟩
        · intro st hst
          rw [← Option.some.inj hst]
          exact hloop
        · intro i _
          exact hw.loops i

/-- **EVERY RUN**: until `j` signs the body, its secret is nowhere at the hash
    of the body. -/
theorem blind_run {tr : List (Label K)} {w : World K}
    (h : Run (Step S) (World.start S) tr w) (hnot : ¬ Announced tr j) :
    BlindWorld S j w := by
  induction h with
  | refl => exact blind_start
  | tail hrun hstep ih =>
      refine blind_step (configured_run hrun) (ih ?_) hstep ?_
      · rintro ⟨e, out, hmem⟩
        exact hnot ⟨e, out, List.mem_append_left _ hmem⟩
      · intro e out heq
        exact hnot ⟨e, out, List.mem_append_right _
          (List.mem_singleton.mpr heq.symm)⟩

end Blind

/-! ## Messages that name their signers -/

/-- The mask names registered nodes only, and the public key involves the
    secret of every honest one among them. -/
def NamesSigners (S : Setting K) (msg : MessageWithSig (Form K ℕ) (Sig K)) :
    Prop :=
  ∀ j ∈ bitsOf msg.mask,
    j < S.size ∧ (S.Honest j → msg.publicKey (some j) ≠ 0)

/-- The Prepared messages handed to honest sessions name their signers. -/
def Named (S : Setting K) (_ : World K) (l : Label K) : Prop :=
  ∀ i msg v, l = .session i (.received msg) v → msg.msgType = .prepared →
    NamesSigners S msg

/-- How many nodes are corrupt. -/
def Setting.corruptCount (S : Setting K) : ℕ :=
  ((Finset.range S.size).filter (fun i => (S.corrupt i).isSome = true)).card

open Classical in
/-- The honest nodes of a mask that have signed. -/
noncomputable def signers (S : Setting K) (tr : List (Label K)) (mask : ℕ) :
    Finset ℕ :=
  (bitsOf mask).filter (fun j => S.Honest j ∧ Announced tr j)

section Soundness

variable {S : Setting K}

/-- The aggregate of the registered keys of a mask names its signers. -/
theorem namesSigners_of_aggregate [Nontrivial K]
    {msg : MessageWithSig (Form K ℕ) (Sig K)} (hmask : msg.mask < 2 ^ S.size)
    (hkey : msg.publicKey = ∑ i ∈ bitsOf msg.mask, S.privKey i) :
    NamesSigners S msg := by
  intro j hj
  refine ⟨lt_of_mem_bitsOf hmask hj, ?_⟩
  intro hhonest
  have hone : S.privKey j (some j) = 1 := by
    rw [Setting.privKey, hhonest.2]
    exact secret_self j
  rw [hkey, Finset.sum_apply, Finset.sum_eq_single_of_mem j hj
    (fun i _ hij => privKey_of_ne hij), hone]
  exact one_ne_zero

/-- When all honest nodes of a mask have signed, they and the corrupt ones are
    as many as the mask has bits. -/
theorem card_le_signers {tr : List (Label K)} {mask : ℕ}
    (hin : ∀ j ∈ bitsOf mask, j < S.size)
    (hall : ∀ j ∈ bitsOf mask, S.Honest j → Announced tr j) :
    (bitsOf mask).card ≤ (signers S tr mask).card + S.corruptCount := by
  classical
  have hcover : bitsOf mask ⊆ signers S tr mask ∪
      (Finset.range S.size).filter (fun i => (S.corrupt i).isSome = true) := by
    intro j hj
    rw [Finset.mem_union]
    cases hcor : S.corrupt j with
    | none =>
        have hhonest : S.Honest j := ⟨hin j hj, hcor⟩
        refine Or.inl ?_
        rw [signers, Finset.mem_filter]
        exact ⟨hj, hhonest, hall j hj hhonest⟩
    | some c =>
        refine Or.inr (Finset.mem_filter.mpr
          ⟨Finset.mem_range.mpr (hin j hj), ?_⟩)
        rw [hcor]
        rfl
  exact le_trans (Finset.card_le_card hcover) (Finset.card_union_le _ _)

/-- **CONSENSUS NEEDS SIGNATURES**: in every run in which the Prepared messages
    handed to honest sessions name their signers, a session that reports
    consensus does so after every honest node of the mask has signed; so at
    least threshold minus corrupt many honest nodes have. -/
theorem consensus_needs_signatures (S : Setting K) :
    ∀ tr w i msg w',
      Run (Guarded (Step S) (Named S)) (World.start S) tr w →
      Guarded (Step S) (Named S) w
        (.session i (.received msg) .agreed) w' →
      (∀ j ∈ bitsOf msg.mask, S.Honest j → Announced tr j) ∧
      S.threshold i - S.corruptCount ≤ (signers S tr msg.mask).card := by
  rintro tr w i msg w' hrun ⟨hstep, hnamed⟩
  have hrun' := Run.of_guarded hrun
  cases hstep with
  | session honest feeds running steps =>
      rename_i st st'
      obtain ⟨key, hconf⟩ := configured_run hrun' _ _ running
      have hv : (st.handle S.bls msg).2 = .agreed := congrArg Prod.snd steps.1
      obtain ⟨hmine, htype, hver, -⟩ := agreed_iff.mp hv
      have hnames := hnamed i msg .agreed rfl htype
      obtain ⟨hthr, hsig⟩ := verifyThresholdWitnesses_ok_iff.mp hver
      rw [hconf.epochPublicKey, body_of_mine hconf hmine] at hsig
      have hall : ∀ j ∈ bitsOf msg.mask, S.Honest j → Announced tr j := by
        intro j hj hhonest
        by_contra hnot
        -- the signature was made without the secret of `j`
        have hblind : coord S.bodyPoint j msg.signature = 0 :=
          (blind_run hrun' hnot).derivable (feeds msg rfl)
        rw [coord_multisig hsig] at hblind
        exact (hnames j hj).2 hhonest hblind
      refine ⟨hall, ?_⟩
      have hcard := card_le_signers (fun j hj => (hnames j hj).1) hall
      rw [hconf.thresholdAck, popcount_eq_card] at hthr
      have hthr' : S.threshold i ≤ ((bitsOf msg.mask).card : ℤ) := hthr
      omega

end Soundness

/-! ## What the setup gives away -/

/-- The coefficient of node `j`. -/
noncomputable def Setting.coef (S : Setting K) (j : ℕ) : ℤ :=
  (S.bls.calculateAntiRogueCoefficients S.publicKeys).getD j 0

/-- The epoch key is the weighted sum of the registered keys. -/
theorem epochPublicKey_eq (S : Setting K) :
    S.epochPublicKey
      = ∑ j ∈ Finset.range S.size, S.coef j • S.privKey j := by
  have hlen : (S.bls.calculateAntiRogueCoefficients S.publicKeys).length
      = S.size := by
    rw [S.bls.coefficients_length, Setting.publicKeys, List.length_map,
      List.length_range]
  have hzip : List.zipWith (fun (a : ℤ) pk => a • pk)
      (S.bls.calculateAntiRogueCoefficients S.publicKeys) S.publicKeys
      = (List.range S.size).map (fun j => S.coef j • S.privKey j) := by
    refine List.ext_getElem ?_ ?_
    · rw [List.length_zipWith, hlen, Setting.publicKeys, List.length_map,
        List.length_map, List.length_range, Nat.min_self]
    · intro j hj _
      have hj' : j < S.size := by
        rw [List.length_zipWith, hlen] at hj
        omega
      rw [List.getElem_zipWith, List.getElem_map, List.getElem_range,
        Setting.coef, List.getD_eq_getElem _ _ (by rw [hlen]; exact hj')]
      simp only [Setting.publicKeys, List.getElem_map, List.getElem_range]
  show (List.zipWith (fun (a : ℤ) pk => a • pk)
    (S.bls.calculateAntiRogueCoefficients S.publicKeys) S.publicKeys).sum = _
  rw [hzip]
  rfl

/-- **THE PARTS ADD UP**: all parts for index `i` together are the epoch key at
    the hash of `i`, which is what the check expects of a signer. -/
theorem setup_leaks_epoch_point (S : Setting K) {i : ℕ} (hi : i < 256) :
    ∑ j ∈ Finset.range S.size, S.epoch.keyPart S.bls j i
      = atPoint (HashPoint.index S.epochPublicKey i) S.epochPublicKey := by
  have hpart : ∀ j, S.epoch.keyPart S.bls j i
      = atPoint (HashPoint.index S.epochPublicKey i)
          (S.coef j • S.privKey j) := by
    intro j
    show atPoint (HashPoint.index S.epochPublicKey (byte i))
      (S.coef j • S.privKey j) = _
    rw [byte, Nat.mod_eq_of_lt hi]
  simp only [hpart]
  rw [← map_sum, ← epochPublicKey_eq]

/-! ## A run of honest nodes -/

section HonestRun

variable {S : Setting K} {ok : World K → Label K → Prop}

/-- No session has moved yet. -/
def Quiet (tr : List (Label K)) : Prop :=
  ∀ i e v, Label.session i e v ∉ tr

omit [CommRing K] in
/-- A step of a setup is no step of a session. -/
theorem Quiet.setup {tr : List (Label K)} {i : ℕ}
    {e : RelayerSetup.Event (Sig K)} {o : Outcome (Sig K)} (h : Quiet tr) :
    Quiet (tr ++ [.setup i e o]) := by
  intro j e' v hmem
  rcases List.mem_append.mp hmem with hold | hnew
  · exact h j e' v hold
  · cases List.mem_singleton.mp hnew

omit [CommRing K] in
/-- Neither is its start. -/
theorem Quiet.start {tr : List (Label K)} {i : ℕ} (h : Quiet tr) :
    Quiet (tr ++ [.start i]) := by
  intro j e' v hmem
  rcases List.mem_append.mp hmem with hold | hnew
  · exact h j e' v hold
  · cases List.mem_singleton.mp hnew

/-- A condition on the sessions only. -/
def SessionsOnly (ok : World K → Label K → Prop) : Prop :=
  (∀ w i e o, ok w (.setup i e o)) ∧ ∀ w i, ok w (.start i)

/-- One handler started and run to its end, in the setup of node `i`. -/
theorem setup_pair {tr : List (Label K)} {w : World K} {i : ℕ}
    {msg : MessageBlsSetup (Sig K)} {st : Setup (Sig K)}
    {o : Outcome (Sig K)} {p : Process (Sig K)}
    (hok : SessionsOnly ok) (hi : S.Honest i)
    (hrun : Run (Guarded (Step S) ok) (World.start S) tr w)
    (hquiet : Quiet tr) (hp : w.procs i = p)
    (hidle : p.handlers = [] ∧ p.setup.cancelled = false ∧ p.closed = false ∧
      p.result = none ∧ p.crashed = false)
    (hfeeds : ∀ part ∈ msg.membershipKeyParts, part ∈ derivable w.seen)
    (hhandle : p.setup.handle S.bls (S.epoch.node S.bls i) (some msg)
      = (st, o)) (hno : o.isPanic = false) :
    ∃ tr' w', Run (Guarded (Step S) ok) (World.start S) tr' w' ∧ Quiet tr' ∧
      w'.procs = Function.update w.procs i { p with setup := st } ∧
      w'.loops = w.loops ∧
      w'.seen = w.seen ∪
        {x | ∃ out ∈ o.broadcast, x ∈ out.membershipKeyParts} := by
  obtain ⟨hh, hc, hcl, hr, hcr⟩ := hidle
  -- the message is received, and then handled by its goroutine
  have hreact₁ : (w.procs i).react S.bls (S.epoch.node S.bls i)
      (.receives (some msg))
      = some ({ p with handlers := [some msg] }, .started) := by
    rw [hp, Process.react, Process.reactWith, hcr, hc, hcl, hr, hh]
    rfl
  have hstep₁ := Step.setup hi (fun msg' he part hpart => hfeeds part (by
    obtain rfl := Option.some.inj (RelayerSetup.Event.receives.inj he)
    exact hpart)) hreact₁
  have hreact₂ : (Function.update w.procs i { p with handlers := [some msg] }
      i).react S.bls (S.epoch.node S.bls i) (.handles 0)
      = some ({ p with setup := st }, o) := by
    rw [Setup.handle] at hhandle
    rw [Function.update_self, Process.react, Process.reactWith]
    simp only [hcr, Bool.false_eq_true, if_false, List.getElem?_cons_zero,
      hhandle, hno, List.eraseIdx_cons_zero]
    rw [hh]
  have hstep₂ := Step.setup (w := { w with
      procs := Function.update w.procs i { p with handlers := [some msg] }
      seen := w.seen ∪ {x | ∃ out ∈ (Outcome.started :
        Outcome (Sig K)).broadcast, x ∈ out.membershipKeyParts} }) hi
    (by intro msg' he; cases he) hreact₂
  refine ⟨_, _, (hrun.tail ⟨hstep₁, hok.1 ..⟩).tail ⟨hstep₂, hok.1 ..⟩,
    hquiet.setup.setup, ?_, rfl, ?_⟩
  · exact Function.update_idem _ _ _
  -- receiving it has broadcast nothing
  · show (w.seen ∪ _) ∪ _ = _
    have hnone : {x : Sig K | ∃ out ∈ (Outcome.started :
        Outcome (Sig K)).broadcast, x ∈ out.membershipKeyParts} = ∅ := by
      ext x
      constructor
      · rintro ⟨out, hout, -⟩
        cases hout
      · intro hx
        cases hx
    rw [hnone, Set.union_empty]

/-- The parts of the first `k` nodes have been broadcast, and nothing else has
    moved. -/
theorem answers_run (hok : SessionsOnly ok)
    (hall : ∀ i < S.size, S.Honest i) :
    ∀ k ≤ S.size, ∃ tr w,
      Run (Guarded (Step S) ok) (World.start S) tr w ∧ Quiet tr ∧
      w.procs = (World.start S).procs ∧ w.loops = (World.start S).loops ∧
      ∀ j < k, ∀ part ∈ (S.epoch.parts S.bls j).membershipKeyParts,
        part ∈ w.seen := by
  intro k
  induction k with
  | zero =>
      intro _
      exact ⟨[], _, Run.refl, fun _ _ _ h => (nomatch h), rfl, rfl,
        fun j hj => absurd hj (Nat.not_lt_zero j)⟩
  | succ k ih =>
      intro hk
      obtain ⟨tr, w, hrun, hquiet, hprocs, hloops, hseen⟩ := ih (by omega)
      obtain ⟨tr', w', hrun', hquiet', hprocs', hloops', hseen'⟩ :=
        setup_pair hok (hall k (by omega)) hrun hquiet
          (congrFun hprocs k : w.procs k = Process.start S.size)
          ⟨rfl, rfl, rfl, rfl, rfl⟩
          (by intro part hpart; exact nomatch hpart)
          (handle_trigger _ (S.lt_publicKeys (by omega))) rfl
      refine ⟨tr', w', hrun', hquiet', ?_, hloops'.trans hloops, ?_⟩
      · -- the handler came and went, and the setup is as before
        rw [hprocs', hprocs]
        exact Function.update_eq_self k _
      · intro j hj part hpart
        rw [hseen']
        rcases Nat.lt_succ_iff_lt_or_eq.mp hj with hlt | rfl
        · exact Or.inl (hseen j hlt part hpart)
        · exact Or.inr ⟨_, List.mem_singleton_self _, hpart⟩

/-- The mask of a setup that has heard the first `k` nodes. -/
def maskAfter (np : ℕ) : ℕ → ℤ
  | 0 => initialMask np
  | k + 1 => clearBit (maskAfter np k) k

/-- The mask of the setup after the parts of the first `k` nodes. -/
theorem maskAfter_eq (np k : ℕ) :
    maskAfter np k = (List.range k).foldl clearBit (initialMask np) := by
  induction k with
  | zero => rw [maskAfter, List.range_zero, List.foldl_nil]
  | succ k ih => rw [maskAfter, ih, List.range_succ, List.foldl_concat]

/-- The bits left are those of the nodes still to answer. -/
theorem testBit_maskAfter {np : ℕ} (h : np < 64) (k i : ℕ) :
    (maskAfter np k).testBit i = (decide (i < np) && decide (k ≤ i)) := by
  rw [maskAfter_eq, testBit_foldl_clearBit, testBit_initialMask_of_lt h]
  refine congrArg (decide (i < np) && ·) ?_
  rw [← decide_not]
  exact decide_eq_decide.mpr (by rw [List.mem_range, not_lt])

/-- It is zero once all are heard, and not before. -/
theorem maskAfter_eq_zero_iff {np k : ℕ} (h : np < 64) (hk : k ≤ np) :
    maskAfter np k = 0 ↔ k = np := by
  constructor
  · intro hzero
    by_contra hne
    have hbit := testBit_maskAfter h k k
    rw [hzero, decide_eq_true (by omega : k < np), decide_eq_true le_rfl]
      at hbit
    exact nomatch (Nat.zero_testBit k).symm.trans hbit
  · rintro rfl
    apply eq_of_testBit_eq
    intro i
    rw [testBit_maskAfter h]
    by_cases hi : i < k
    · rw [decide_eq_false (by omega : ¬ k ≤ i), Bool.and_false]
      exact (Nat.zero_testBit i).symm
    · rw [decide_eq_false hi]
      exact (Nat.zero_testBit i).symm

/-- The key that the setup of node `i` gives back. -/
noncomputable def Setting.membershipKey (S : Setting K) (i : ℕ) : Sig K :=
  atPoint (HashPoint.index S.epochPublicKey i) S.epochPublicKey

/-- The variables of the setup of node `i` after the parts of the first `k`
    nodes. -/
noncomputable def collectedSetup (S : Setting K) (i k : ℕ) : Setup (Sig K) where
  membershipKey := ∑ j ∈ Finset.range k, S.epoch.keyPart S.bls j i
  receivedMembershipKeyMask := maskAfter S.size k
  cancelled := decide (k = S.size)

/-- The next part takes them one further. -/
theorem collectedSetup_succ {i k : ℕ} (h64 : S.size < 64) (hk : k < S.size) :
    (collectedSetup S i k).aggregate (S.epoch.keyPart S.bls k i) k
      = collectedSetup S i (k + 1) := by
  rw [Setup.aggregate, collectedSetup, collectedSetup, Setup.mk.injEq]
  refine ⟨(Finset.sum_range_succ _ k).symm, rfl, ?_⟩
  show (decide (k = S.size) || decide (maskAfter S.size (k + 1) = 0)) = _
  rw [decide_eq_false (by omega : ¬ k = S.size), Bool.false_or]
  exact decide_eq_decide.mpr (maskAfter_eq_zero_iff h64 hk)

/-- The setup of node `i` with these variables and no handler waiting. -/
noncomputable def collected (S : Setting K) (i k : ℕ) : Process (Sig K) where
  setup := collectedSetup S i k
  handlers := []
  closed := false
  result := none
  crashed := false

/-- The parts of all nodes have been broadcast. -/
def AllSeen (S : Setting K) (w : World K) : Prop :=
  ∀ j < S.size, ∀ part ∈ (S.epoch.parts S.bls j).membershipKeyParts,
    part ∈ w.seen

/-- Node `i` has heard the first `k` nodes, and nobody else has moved. -/
theorem collected_run {tr : List (Label K)} {w : World K} {i : ℕ}
    (hok : SessionsOnly ok) (h64 : S.size < 64)
    (hall : ∀ i < S.size, S.Honest i) (hi : i < S.size)
    (hrun : Run (Guarded (Step S) ok) (World.start S) tr w) (hquiet : Quiet tr)
    (hseen : AllSeen S w) (hproc : w.procs i = Process.start S.size) :
    ∀ k ≤ S.size, ∃ tr' w',
      Run (Guarded (Step S) ok) (World.start S) tr' w' ∧ Quiet tr' ∧
      w'.procs = Function.update w.procs i (collected S i k) ∧
      w'.loops = w.loops ∧ w.seen ⊆ w'.seen := by
  intro k
  induction k with
  | zero =>
      intro _
      refine ⟨tr, w, hrun, hquiet, ?_, rfl, subset_rfl⟩
      have hstart : collected S i 0 = w.procs i := by
        rw [hproc, collected, collectedSetup, Finset.sum_range_zero,
          decide_eq_false (by omega : ¬ 0 = S.size)]
        rfl
      rw [hstart, Function.update_eq_self]
  | succ k ih =>
      intro hk
      obtain ⟨tr', w', hrun', hquiet', hprocs', hloops', hsub⟩ := ih (by omega)
      -- the parts of node `k` are handled like any others, the own ones too
      obtain ⟨verified, hhandle⟩ := handle_answer S.bls
        (collected S i k).setup (S.lt_publicKeys hi)
        (S.lt_publicKeys (by omega : k < S.size))
      have hmine : w'.procs i = collected S i k := by
        rw [hprocs', Function.update_self]
      obtain ⟨tr'', w'', hrun'', hquiet'', hprocs'', hloops'', hseen''⟩ :=
        setup_pair hok (hall i hi) hrun' hquiet' hmine
          ⟨rfl, decide_eq_false (by omega), rfl, rfl, rfl⟩
          (fun part hpart => derivable_of_seen
            (hsub (hseen k (by omega) part hpart))) hhandle rfl
      refine ⟨tr'', w'', hrun'', hquiet'', ?_, hloops''.trans hloops', ?_⟩
      · rw [hprocs'', hprocs', Function.update_idem]
        rw [collected, collected, ← collectedSetup_succ h64 (by omega)]
      · rw [hseen'']
        exact hsub.trans Set.subset_union_left

/-- Node `i` completes its setup and starts its session. -/
theorem started_run {tr : List (Label K)} {w : World K} {i : ℕ}
    (hok : SessionsOnly ok) (h64 : S.size < 64)
    (hall : ∀ i < S.size, S.Honest i) (hi : i < S.size)
    (hrun : Run (Guarded (Step S) ok) (World.start S) tr w) (hquiet : Quiet tr)
    (hseen : AllSeen S w) (hproc : w.procs i = Process.start S.size)
    (hidle : w.loops i = none) :
    ∃ tr' w', Run (Guarded (Step S) ok) (World.start S) tr' w' ∧ Quiet tr' ∧
      (∀ j ≠ i, w'.procs j = w.procs j) ∧
      w'.loops = Function.update w.loops i
        (some (Loop.start (S.session i (S.membershipKey i)))) ∧
      w.seen ⊆ w'.seen := by
  obtain ⟨tr₁, w₁, hrun₁, hquiet₁, hprocs₁, hloops₁, hsub₁⟩ :=
    collected_run hok h64 hall hi hrun hquiet hseen hproc S.size le_rfl
  have hkey : (collected S i S.size).setup.membershipKey = S.membershipKey i :=
    setup_leaks_epoch_point S (by omega)
  have hreturns : (w₁.procs i).react S.bls (S.epoch.node S.bls i) .returns
      = some ({ collected S i S.size with
          result := some (collected S i S.size).setup.membershipKey },
        .returned (collected S i S.size).setup.membershipKey) := by
    rw [hprocs₁, Function.update_self, Process.react, Process.reactWith]
    simp only [collected, collectedSetup, decide_true, Bool.or_false,
      Option.isSome_none, Bool.false_eq_true, if_false, if_true]
  -- the node has every part and gives its key back
  have hstep₁ := Step.setup (hall i hi) (by intro msg he; cases he) hreturns
  rw [hkey] at hstep₁
  -- with that key its session is started
  have hstep₂ := Step.start (w := { w₁ with
      procs := Function.update w₁.procs i { collected S i S.size with
        result := some (S.membershipKey i) }
      seen := w₁.seen ∪ {x | ∃ out ∈ (Outcome.returned (S.membershipKey i) :
        Outcome (Sig K)).broadcast, x ∈ out.membershipKeyParts} }) (hall i hi)
    (congrArg Process.result (Function.update_self i _ w₁.procs))
    ((congrFun hloops₁ i).trans hidle)
  refine ⟨_, _, (hrun₁.tail ⟨hstep₁, hok.1 ..⟩).tail ⟨hstep₂, hok.2 ..⟩,
    hquiet₁.setup.start, ?_, ?_, ?_⟩
  · intro j hj
    show Function.update w₁.procs i _ j = _
    rw [Function.update_of_ne hj, hprocs₁, Function.update_of_ne hj]
  · show Function.update w₁.loops i _ = _
    rw [hloops₁]
  · exact hsub₁.trans Set.subset_union_left

/-- **THE EPOCH IS SET UP**: the first `m` nodes have completed their setups with
    their membership keys and started their sessions, and the adversary has seen
    every part. -/
theorem setup_run (hok : SessionsOnly ok) (h64 : S.size < 64)
    (hall : ∀ i < S.size, S.Honest i) :
    ∀ m ≤ S.size, ∃ tr w, Run (Guarded (Step S) ok) (World.start S) tr w ∧
      Quiet tr ∧ AllSeen S w ∧
      (∀ i < m, w.loops i =
        some (Loop.start (S.session i (S.membershipKey i)))) ∧
      ∀ i, m ≤ i → w.procs i = Process.start S.size ∧ w.loops i = none := by
  intro m
  induction m with
  | zero =>
      intro _
      obtain ⟨tr, w, hrun, hquiet, hprocs, hloops, hseen⟩ :=
        answers_run hok hall S.size le_rfl
      exact ⟨tr, w, hrun, hquiet, hseen, fun i hi => absurd hi (by omega),
        fun i _ => ⟨congrFun hprocs i, congrFun hloops i⟩⟩
  | succ m ih =>
      intro hm
      obtain ⟨tr, w, hrun, hquiet, hseen, hstarted, hrest⟩ := ih (by omega)
      obtain ⟨hproc, hidle⟩ := hrest m le_rfl
      obtain ⟨tr', w', hrun', hquiet', hprocs', hloops', hsub⟩ :=
        started_run hok h64 hall hm hrun hquiet hseen hproc hidle
      refine ⟨tr', w', hrun', hquiet', fun j hj part hpart =>
        hsub (hseen j hj part hpart), fun i hi => ?_, fun i hi => ?_⟩
      -- the nodes before `m` keep their sessions
      · rcases Nat.lt_succ_iff_lt_or_eq.mp hi with hlt | rfl
        · rw [hloops', Function.update_of_ne hlt.ne, hstarted i hlt]
        · rw [hloops', Function.update_self]
      · have hne : i ≠ m := by omega
        rw [hprocs' i hne, hloops', Function.update_of_ne hne]
        exact hrest i (by omega)

/-- A Prepared message for the topic that verifies makes a fresh session report
    consensus. -/
theorem agreed_step {w : World K} {i : ℕ} {key : Sig K}
    (msg : MessageWithSig (Form K ℕ) (Sig K)) (hi : S.Honest i)
    (hloop : w.loops i = some (Loop.start (S.session i key)))
    (hfeeds : msg.signature ∈ derivable w.seen)
    (hmine : msg.bridgeEventHash = S.topic) (htype : msg.msgType = .prepared)
    (hthr : S.threshold i ≤ popcount msg.mask)
    (hsig : S.bls.verifyMultisig msg.signature S.epochPublicKey msg.publicKey
      msg.toBody.marshal msg.mask = true) :
    ∃ w', Step S w (.session i (.received msg) .agreed) w' := by
  have hv : ((Loop.start (S.session i key)).handle S.bls msg).2 = .agreed :=
    agreed_iff.mpr ⟨hmine, htype,
      verifyThresholdWitnesses_ok_iff.mpr ⟨hthr, hsig⟩, rfl, rfl, rfl⟩
  refine ⟨_, Step.session hi ?_ hloop
    ⟨Prod.ext (Eq.refl _) hv, rfl⟩⟩
  intro msg' he
  obtain rfl := RelayerSession.Event.received.inj he
  exact hfeeds

/-- An Announce for the topic. -/
def announcement (S : Setting K) : MessageWithSig (Form K ℕ) (Sig K) where
  source := 0
  msgType := .announce
  bridgeEventHash := S.topic
  mask := 0
  publicKey := 0
  signature := 0

/-- What node `i` signs. -/
noncomputable def Setting.ownSignature (S : Setting K) (i : ℕ) : Sig K :=
  S.bls.multisign (S.privKey i) (Body.marshal ⟨S.topic⟩) S.epochPublicKey
    (S.membershipKey i)

/-- An Announce makes a session sign, and the adversary sees the signature. -/
theorem announce_step {w : World K} {i : ℕ} (hi : S.Honest i)
    (hloop : w.loops i =
      some (Loop.start (S.session i (S.membershipKey i)))) :
    ∃ out w', Step S w
        (.session i (.received (announcement S)) (.announced out)) w' ∧
      w'.loops = w.loops ∧ w.seen ⊆ w'.seen ∧ S.ownSignature i ∈ w'.seen := by
  have hmine : ¬ (announcement S).bridgeEventHash
      ≠ (Loop.start (S.session i (S.membershipKey i))).session.topic :=
    not_not.mpr rfl
  have hhandle : (Loop.start (S.session i (S.membershipKey i))).handle S.bls
      (announcement S) = (Loop.start (S.session i
        (S.membershipKey i))).handleAnnounce S.bls (announcement S) := by
    rw [Loop.handle, if_neg hmine]
    rfl
  refine ⟨_, _, Step.session hi ?_ hloop ⟨hhandle, rfl⟩, ?_,
    Set.subset_union_left, Or.inr ⟨_, rfl, rfl⟩⟩
  · intro msg he
    obtain rfl := RelayerSession.Event.received.inj he
    exact Submodule.zero_mem _
  · exact Function.update_eq_iff.mpr ⟨hloop.symm, fun _ _ => rfl⟩

/-- An Announce names nobody. -/
theorem named_announcement {w : World K} {i : ℕ}
    {v : Verdict (Form K ℕ) (Sig K)} :
    Named S w (.session i (.received (announcement S)) v) := by
  rintro i msg v hl htype
  obtain ⟨-, he, -⟩ := Label.session.inj hl
  rw [← RelayerSession.Event.received.inj he] at htype
  exact nomatch htype

/-- All sessions are started, and the first `k` nodes have signed. -/
theorem announced_run (h64 : S.size < 64) (hall : ∀ i < S.size, S.Honest i) :
    ∀ k ≤ S.size, ∃ tr w,
      Run (Guarded (Step S) (Named S)) (World.start S) tr w ∧
      (∀ i < S.size, w.loops i =
        some (Loop.start (S.session i (S.membershipKey i)))) ∧
      ∀ i < k, S.ownSignature i ∈ w.seen := by
  have hfree : SessionsOnly (Named S) :=
    ⟨fun _ _ _ _ _ _ _ h => (nomatch h), fun _ _ _ _ _ h => (nomatch h)⟩
  intro k
  induction k with
  | zero =>
      intro _
      obtain ⟨tr, w, hrun, -, -, hstarted, -⟩ :=
        setup_run hfree h64 hall S.size le_rfl
      exact ⟨tr, w, hrun, hstarted, fun i hi => absurd hi (by omega)⟩
  | succ k ih =>
      intro hk
      obtain ⟨tr, w, hrun, hstarted, hseen⟩ := ih (by omega)
      obtain ⟨out, w', hstep, hloops, hsub, hown⟩ :=
        announce_step (hall k (by omega)) (hstarted k (by omega))
      refine ⟨_, w', hrun.tail ⟨hstep, named_announcement⟩, ?_, fun i hi => ?_⟩
      · rw [hloops]
        exact hstarted
      · rcases Nat.lt_succ_iff_lt_or_eq.mp hi with hlt | rfl
        · exact hsub (hseen i hlt)
        · exact hown

end HonestRun

/-! ## The forgery -/

/-- A Prepared message with the zero key: no summand at the hash of the body is
    left, and the others are sums of parts. -/
noncomputable def forgedPrepared (S : Setting K) (mask : ℕ) :
    MessageWithSig (Form K ℕ) (Sig K) where
  source := 0
  msgType := .prepared
  bridgeEventHash := S.topic
  mask := mask
  publicKey := 0
  signature := ∑ i ∈ bitsOf mask, ∑ j ∈ Finset.range S.size,
    S.epoch.keyPart S.bls j i

/-- It verifies. -/
theorem forgedPrepared_verifies {S : Setting K} {mask : ℕ}
    (h64 : S.size < 64) (hmask : mask < 2 ^ S.size) :
    S.bls.verifyMultisig (forgedPrepared S mask).signature S.epochPublicKey
      (forgedPrepared S mask).publicKey (forgedPrepared S mask).toBody.marshal
      (forgedPrepared S mask).mask = true := by
  refine formBls_verifyMultisig_iff.mpr ?_
  show (∑ i ∈ bitsOf mask, ∑ j ∈ Finset.range S.size,
    S.epoch.keyPart S.bls j i) = multisigValue _ _ 0 _ mask
  rw [multisigValue, map_zero, zero_add]
  refine Finset.sum_congr rfl ?_
  intro i hi
  have hlt := lt_of_mem_bitsOf hmask hi
  exact setup_leaks_epoch_point S (by omega)

/-- **NOBODY SIGNED**: in every epoch of honest nodes there is a run in which a
    session reports consensus for any set of signers that is large enough,
    and no node has signed. -/
theorem forged_prepared_agrees {S : Setting K} (mask : ℕ) (hpos : 0 < S.size)
    (h64 : S.size < 64) (hall : ∀ i < S.size, S.Honest i)
    (hmask : mask < 2 ^ S.size) (hthr : S.threshold 0 ≤ popcount mask) :
    ∃ tr w w', Run (Step S) (World.start S) tr w ∧ Quiet tr ∧
      Step S w (.session 0 (.received (forgedPrepared S mask)) .agreed) w' := by
  have hfree : SessionsOnly (fun (_ : World K) (_ : Label K) => True) :=
    ⟨fun _ _ _ _ => trivial, fun _ _ => trivial⟩
  obtain ⟨tr, w, hrun, hquiet, hseen, hstarted, -⟩ :=
    setup_run hfree h64 hall 1 hpos
  have hfeeds : (forgedPrepared S mask).signature ∈ derivable w.seen := by
    show (∑ i ∈ bitsOf mask, ∑ j ∈ Finset.range S.size,
      S.epoch.keyPart S.bls j i) ∈ derivable w.seen
    refine sum_mem ?_
    intro i hi
    refine sum_mem ?_
    intro j hj
    refine derivable_of_seen (hseen j (Finset.mem_range.mp hj) _ ?_)
    exact List.mem_map.mpr ⟨i, List.mem_range.mpr
      (S.lt_publicKeys (lt_of_mem_bitsOf hmask hi)), rfl⟩
  obtain ⟨w', hstep⟩ := agreed_step _ (hall 0 hpos)
    (hstarted 0 Nat.zero_lt_one) hfeeds rfl rfl hthr
    (forgedPrepared_verifies h64 hmask)
  exact ⟨tr, w, w', Run.of_guarded hrun, hquiet, hstep⟩

/-- Six honest nodes. -/
def sampleSetting (threshold : ℤ) : Setting ℤ where
  size := 6
  corrupt _ := none
  coefs pks := pks.map (fun _ => 1)
  coefs_length _ := List.length_map _
  topic := "0x51ab"
  threshold _ := threshold
  leader _ := ⟨[]⟩

theorem sampleSetting_honest (threshold : ℤ) :
    ∀ i < (sampleSetting threshold).size, (sampleSetting threshold).Honest i :=
  fun _ hi => ⟨hi, rfl⟩

/-- The Prepared message of the nodes of a mask, with the signatures they have
    given. -/
noncomputable def jointPrepared (S : Setting K) (mask : ℕ) :
    MessageWithSig (Form K ℕ) (Sig K) where
  source := 0
  msgType := .prepared
  bridgeEventHash := S.topic
  mask := mask
  publicKey := ∑ i ∈ bitsOf mask, S.privKey i
  signature := ∑ i ∈ bitsOf mask, S.ownSignature i

/-- The joint signature of the nodes in the mask passes the check. -/
theorem jointPrepared_verifies (S : Setting K) (mask : ℕ) :
    S.bls.verifyMultisig (jointPrepared S mask).signature S.epochPublicKey
      (jointPrepared S mask).publicKey (jointPrepared S mask).toBody.marshal
      (jointPrepared S mask).mask = true := by
  refine formBls_verifyMultisig_iff.mpr ?_
  show ∑ i ∈ bitsOf mask, (atPoint S.bodyPoint (S.privKey i)
    + S.membershipKey i) = multisigValue _ _ _ _ mask
  rw [multisigValue, Finset.sum_add_distrib, ← map_sum]
  rfl

/-- Threshold four: node 0 reports consensus after four nodes have signed. -/
theorem consensus_needs_signatures_sample :
    ∃ tr w w',
      Run (Guarded (Step (sampleSetting 4)) (Named (sampleSetting 4)))
        (World.start (sampleSetting 4)) tr w ∧
      Guarded (Step (sampleSetting 4)) (Named (sampleSetting 4)) w
        (.session 0 (.received (jointPrepared (sampleSetting 4) 15)) .agreed)
        w' ∧
      (∀ j < 4, Announced tr j) ∧
      4 ≤ (signers (sampleSetting 4) tr 15).card := by
  have hall := sampleSetting_honest 4
  have hbits : bitsOf 15 = {0, 1, 2, 3} := by decide +kernel
  obtain ⟨tr, w, hrun, hstarted, hseen⟩ := announced_run
    (show (sampleSetting 4).size < 64 by decide) hall 4 (by decide)
  -- the adversary hands the sum of the four signatures to node 0
  have hfeeds : (jointPrepared (sampleSetting 4) 15).signature
      ∈ derivable w.seen := by
    show ∑ i ∈ bitsOf 15, _ ∈ derivable w.seen
    refine sum_mem fun i hi => derivable_of_seen (hseen i ?_)
    exact lt_of_mem_bitsOf (by decide : 15 < 2 ^ 4) hi
  obtain ⟨w', hstep⟩ := agreed_step _ (hall 0 (by decide))
    (hstarted 0 (by decide)) hfeeds rfl rfl (by decide +kernel)
    (jointPrepared_verifies _ 15)
  have hnamed : Named (sampleSetting 4) w (.session 0
      (.received (jointPrepared (sampleSetting 4) 15)) .agreed) := by
    rintro i msg v hl -
    obtain ⟨-, he, -⟩ := Label.session.inj hl
    rw [← RelayerSession.Event.received.inj he]
    exact namesSigners_of_aggregate (by decide) rfl
  obtain ⟨hsigned, hcard⟩ := consensus_needs_signatures (sampleSetting 4) _ w 0 _
    w' hrun ⟨hstep, hnamed⟩
  refine ⟨tr, w, w', hrun, ⟨hstep, hnamed⟩, fun j hj => ?_, ?_⟩
  · refine hsigned j ?_ (hall j (hj.trans (by decide)))
    show j ∈ bitsOf 15
    rw [hbits]
    simp only [Finset.mem_insert, Finset.mem_singleton]
    omega
  · have hnone : (sampleSetting 4).corruptCount = 0 := by decide
    rw [hnone] at hcard
    have hfour : (4 : ℤ) - 0 ≤ (signers (sampleSetting 4) tr 15).card := hcard
    omega

/-- Six nodes, threshold four: consensus with six signers, none of whom
    signed. -/
theorem consensus_without_signatures :
    ∃ tr w msg w',
      Run (Step (sampleSetting 4)) (World.start (sampleSetting 4)) tr w ∧
      Step (sampleSetting 4) w (.session 0 (.received msg) .agreed) w' ∧
      bitsOf msg.mask = {0, 1, 2, 3, 4, 5} ∧
      ∀ j ∈ bitsOf msg.mask, (sampleSetting 4).Honest j ∧ ¬ Announced tr j := by
  obtain ⟨tr, w, w', hrun, hquiet, hstep⟩ := forged_prepared_agrees
    (S := sampleSetting 4) 0b111111 (by decide) (by decide)
    (sampleSetting_honest 4) (by decide) (by decide +kernel)
  have hbits : bitsOf (forgedPrepared (sampleSetting 4) 0b111111).mask
      = {0, 1, 2, 3, 4, 5} := by
    show bitsOf 0b111111 = _
    decide +kernel
  refine ⟨tr, w, _, w', hrun, hstep, hbits, ?_⟩
  intro j hj
  refine ⟨sampleSetting_honest 4 j (lt_of_mem_bitsOf (by decide) hj), ?_⟩
  rintro ⟨e, out, hmem⟩
  exact hquiet _ _ _ hmem

end RelayerAdversary
