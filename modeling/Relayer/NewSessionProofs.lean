import Relayer.AccumulatorProofs
import Relayer.SetupProofs

/-! # From an oracle request to a session

    `NewSession` and `StartProtocolByOracleRequest` of `node/bridge/node.go`.
    A node waits until it sees enough peers on the topic of the request,
    takes that one look as its list of participants, and derives from it both
    its threshold and its leader.  Nothing makes two nodes take the same
    look, so what can be said of two sessions is said in terms of the two
    views:

    * `leaders_unseen`: of two nodes that both lead, one has not seen the
      other;
    * `accepted_masks_meet`: what a threshold guarantees about the signers;
    * `verdicts_differ_iff`: when one session accepts a Prepared message and
      another one does not. -/

namespace RelayerNewSession

open BitMask Sha256 RelayerAccumulator RelayerBls RelayerLeader RelayerMessage
open RelayerSession RelayerSetup Transition

/-! ## NewSession -/

/-- `minConsensusNodesCount`. -/
def minConsensusNodesCount : ℕ := 5

/-- What one turn of the waiting loop sees. -/
structure Poll where
  topicPeers : List PeerID
  rendezvousPeers : List PeerID
  deadlineExceeded : Bool
  deriving DecidableEq, Repr

/-- The answers of the node registry contract. -/
structure Registry (PK : Type) where
  publicKeys : Except String (List PK)
  nodeExists : Bool
  getNode : Except String ℤ

/-- One node at one oracle request: its keys and host id, what the registry
    and the topic showed it, and whether consensus was reported to it before
    its time was up. -/
structure Request (PK SG SK : Type) where
  node : Node PK SG SK
  host : PeerID
  registry : Registry PK
  polls : List Poll
  agreed : Bool

/-- The test of the loop, on the number of participants and of rendezvous
    peers. -/
def enough (participants rendezvous : ℕ) : Bool :=
  decide (participants > minConsensusNodesCount) &&
  decide (participants > rendezvous / 2 + 1)

/-- How the loop ended, if it did. -/
inductive Wait where
  | admitted (topicParticipants : List PeerID)
  | gaveUp
  | waiting
  deriving DecidableEq, Repr

/-- The loop of `NewSession`. -/
def awaitParticipants (host : PeerID) : List Poll → Wait
  | [] => .waiting
  | poll :: rest =>
      let topicParticipants := poll.topicPeers ++ [host]
      if enough topicParticipants.length poll.rendezvousPeers.length then
        .admitted topicParticipants
      else if poll.deadlineExceeded then .gaveUp
      else awaitParticipants host rest

/-- What `NewSession` comes back with, if it does. -/
inductive Result (PK SG SK : Type) where
  | failed (err : String)
  | noSession
  | created (s : Session PK SG SK)
  | waiting

variable {PK SG SK : Type}

/-- The list of participants the session is made from. -/
def Request.view (r : Request PK SG SK) : Option (List PeerID) :=
  match awaitParticipants r.host r.polls with
  | .admitted topicParticipants => some topicParticipants
  | _ => none

/-- `leader, _ := RelayerLeaderNode(..)`: an error leaves the empty id. -/
def electLeader (pretty : PeerID → String) (topic : String)
    (topicParticipants : List PeerID) : PeerID :=
  match relayerLeaderNode pretty topic topicParticipants with
  | .ok leader => leader
  | .error _ => ⟨[]⟩

/-- The session that `NewSession` makes from a view. -/
def Request.sessionFrom [Zero PK] [Zero SG] (pretty : PeerID → String) (topic : String)
    (r : Request PK SG SK) (publicKeys : List PK) (nodeId : ℤ)
    (view : List PeerID) : Session PK SG SK where
  topic := topic
  id := nodeId
  thresholdWit := (view.length / 2 + 1 : ℕ)
  thresholdAck := (view.length / 2 + 1 : ℕ)
  acks := 0
  sigMask := 0
  publicKeys := publicKeys
  privateKey := r.node.privKey
  epochPublicKey := r.node.epochPublicKey
  membershipKey := r.node.membershipKey
  partPublicKey := 0
  partSignature := 0
  leader := electLeader pretty topic view

/-- `NewSession`. -/
def Request.newSession [Zero PK] [Zero SG] (pretty : PeerID → String)
    (topic : String) (r : Request PK SG SK) : Result PK SG SK :=
  match r.registry.publicKeys with
  | .error err => .failed err
  | .ok publicKeys =>
      if r.registry.nodeExists then
        match r.registry.getNode with
        | .error err => .failed err
        | .ok nodeId =>
            match awaitParticipants r.host r.polls with
            | .waiting => .waiting
            | .gaveUp => .noSession
            | .admitted topicParticipants =>
                .created
                  (r.sessionFrom pretty topic publicKeys nodeId topicParticipants)
      else .noSession

/-! ## StartProtocolByOracleRequest -/

/-- What a node does to the world in one run of the protocol. -/
inductive Action where
  | startProtocol
  | createBlockFromEvent
  | distributeBlock
  | receiveRequestV2
  | receiveAndSaveBlock
  deriving DecidableEq, Repr

/-- `StartProtocolByOracleRequest`; the errors of the leader's three calls are
    logged and do not stop it. -/
def startProtocolByOracleRequest (pretty : PeerID → String) (host : PeerID)
    (s : Session PK SG SK) (agreed : Bool) : List Action :=
  .startProtocol ::
    (if agreed then
      if pretty s.leader = pretty host then
        [.createBlockFromEvent, .distributeBlock, .receiveRequestV2]
      else [.receiveAndSaveBlock]
    else [])

/-- What a node does about an oracle request. -/
def Request.actions [Zero PK] [Zero SG] (pretty : PeerID → String)
    (topic : String) (r : Request PK SG SK) : List Action :=
  match r.newSession pretty topic with
  | .created s => startProtocolByOracleRequest pretty r.host s r.agreed
  | _ => []

/-! ## What a created session is made of -/

/-- The view is one look at the topic that passed the test, with the node
    itself added. -/
theorem await_admitted {host : PeerID} {topicParticipants : List PeerID}
    {polls : List Poll}
    (h : awaitParticipants host polls = .admitted topicParticipants) :
    ∃ poll ∈ polls, topicParticipants = poll.topicPeers ++ [host] ∧
      enough topicParticipants.length poll.rendezvousPeers.length = true := by
  induction polls with
  | nil => exact nomatch h
  | cons poll rest ih =>
      rw [awaitParticipants] at h
      split at h
      · rename_i henough
        obtain rfl := Wait.admitted.inj h
        exact ⟨poll, List.mem_cons_self .., rfl, henough⟩
      · split at h
        · exact nomatch h
        · obtain ⟨poll', hmem, hrest⟩ := ih h
          exact ⟨poll', List.mem_cons_of_mem _ hmem, hrest⟩

/-- What the admission test says. -/
theorem enough_iff {k r : ℕ} :
    enough k r = true ↔ 5 < k ∧ r / 2 + 1 < k := by
  rw [enough, Bool.and_eq_true, decide_eq_true_iff, decide_eq_true_iff]
  exact Iff.rfl

section Created

variable [Zero PK] [Zero SG] {pretty : PeerID → String} {topic : String}
  {r : Request PK SG SK} {s : Session PK SG SK}

/-- The session `NewSession` makes from a view. -/
structure MadeFrom (pretty : PeerID → String) (topic : String)
    (r : Request PK SG SK) (view : List PeerID) (s : Session PK SG SK) :
    Prop where
  seen : r.view = some view
  admitted : ∃ poll ∈ r.polls, view = poll.topicPeers ++ [r.host] ∧
    5 < view.length ∧ poll.rendezvousPeers.length / 2 + 1 < view.length
  thresholdAck : s.thresholdAck = (view.length / 2 + 1 : ℕ)
  leader : s.leader = electLeader pretty topic view
  epochPublicKey : s.epochPublicKey = r.node.epochPublicKey
  membershipKey : s.membershipKey = r.node.membershipKey
  publicKeys : r.registry.publicKeys = .ok s.publicKeys
  fresh : Fresh s
  topic : s.topic = topic

/-- What `NewSession` can come back with: an error of the registry, nothing for
    a node that is not registered, or what the loop ended with. -/
theorem newSession_cases (pretty : PeerID → String) (topic : String)
    (r : Request PK SG SK) :
    (∃ err, r.newSession pretty topic = .failed err) ∨
    (r.registry.nodeExists = false ∧
      r.newSession pretty topic = .noSession) ∨
    (awaitParticipants r.host r.polls = .waiting ∧
      r.newSession pretty topic = .waiting) ∨
    (awaitParticipants r.host r.polls = .gaveUp ∧
      r.newSession pretty topic = .noSession) ∨
    ∃ publicKeys nodeId view, r.registry.publicKeys = .ok publicKeys ∧
      awaitParticipants r.host r.polls = .admitted view ∧
      r.newSession pretty topic =
        .created (r.sessionFrom pretty topic publicKeys nodeId view) := by
  rw [Request.newSession]
  cases hpks : r.registry.publicKeys with
  | error err => exact Or.inl ⟨err, rfl⟩
  | ok publicKeys =>
      cases hexists : r.registry.nodeExists with
      | false => exact Or.inr (Or.inl ⟨rfl, rfl⟩)
      | true =>
          cases hnode : r.registry.getNode with
          | error err => exact Or.inl ⟨err, rfl⟩
          | ok nodeId =>
              refine Or.inr (Or.inr ?_)
              cases hwait : awaitParticipants r.host r.polls with
              | waiting => exact Or.inl ⟨rfl, rfl⟩
              | gaveUp => exact Or.inr (Or.inl ⟨rfl, rfl⟩)
              | admitted view =>
                  exact Or.inr (Or.inr ⟨publicKeys, nodeId, view, rfl, rfl, rfl⟩)

/-- **ONE LOOK**: every session was made from one view of its topic. -/
theorem newSession_created (h : r.newSession pretty topic = .created s) :
    ∃ view, MadeFrom pretty topic r view s := by
  rcases newSession_cases pretty topic r with ⟨err, heq⟩ | ⟨-, heq⟩ |
    ⟨-, heq⟩ | ⟨-, heq⟩ | ⟨publicKeys, nodeId, view, hpks, hwait, heq⟩
  · rw [heq] at h
    cases h
  · rw [heq] at h
    cases h
  · rw [heq] at h
    cases h
  · rw [heq] at h
    cases h
  · rw [heq] at h
    obtain rfl := Result.created.inj h
    obtain ⟨poll, hpoll, hview, henough⟩ := await_admitted hwait
    refine ⟨view, ?_, ⟨poll, hpoll, hview, enough_iff.mp henough⟩,
      rfl, rfl, rfl, rfl, hpks, ⟨rfl, rfl, rfl, rfl⟩, rfl⟩
    rw [Request.view, hwait]

/-- A node is on its own list. -/
theorem MadeFrom.host_mem {view : List PeerID}
    (h : MadeFrom pretty topic r view s) : r.host ∈ view := by
  obtain ⟨poll, -, hview, -⟩ := h.admitted
  rw [hview]
  exact List.mem_append_right _ (List.mem_singleton_self _)

/-! ## Who leads -/

/-- The digest a node is ranked by. -/
def Request.digest (pretty : PeerID → String) (topic : String)
    (r : Request PK SG SK) : String :=
  encodedSum topic (pretty r.host)

/-- The node calls the contract of the destination chain. -/
def Request.Issues (pretty : PeerID → String) (topic : String)
    (r : Request PK SG SK) : Prop :=
  Action.receiveRequestV2 ∈ r.actions pretty topic

/-- Only a node that is its own leader calls the contract. -/
theorem issues_leads (h : r.Issues pretty topic) :
    ∃ s view, MadeFrom pretty topic r view s ∧
      pretty (electLeader pretty topic view) = pretty r.host := by
  rw [Request.Issues, Request.actions] at h
  cases hres : r.newSession pretty topic with
  | failed err => rw [hres] at h; exact nomatch h
  | noSession => rw [hres] at h; exact nomatch h
  | waiting => rw [hres] at h; exact nomatch h
  | created s =>
      rw [hres] at h
      obtain ⟨view, hmade⟩ := newSession_created hres
      refine ⟨s, view, hmade, ?_⟩
      rw [← hmade.leader]
      by_contra hne
      simp only [startProtocolByOracleRequest, if_neg hne] at h
      cases hagreed : r.agreed with
      | true => rw [hagreed] at h; simp at h
      | false => rw [hagreed] at h; simp at h

/-- A node that leads and has heard of consensus calls it. -/
theorem issues_of_leads (h : r.newSession pretty topic = .created s)
    (hagreed : r.agreed = true) (hleads : pretty s.leader = pretty r.host) :
    r.Issues pretty topic := by
  rw [Request.Issues, Request.actions, h]
  simp only [startProtocolByOracleRequest, hagreed, hleads, if_true]
  decide

/-- A node that leads has the smallest digest of its own view. -/
theorem leads_minimal {view : List PeerID} (htopic : topic ≠ "")
    (hmade : MadeFrom pretty topic r view s)
    (hleads : pretty (electLeader pretty topic view) = pretty r.host) :
    ∀ q ∈ view, r.digest pretty topic ≤ encodedSum topic (pretty q) := by
  have hview : view ≠ [] := List.ne_nil_of_mem hmade.host_mem
  obtain ⟨p, -, hp, hmin⟩ := leaderBy_spec pretty ⟨[]⟩ htopic hview
  have hpl : pretty p = pretty r.host := by
    rw [← hleads, electLeader, relayerLeaderNode, hp]
  intro q hq
  rw [Request.digest, ← hpl]
  exact hmin q hq

/-- A node with the one smallest digest of its view leads. -/
theorem leads_of_smallest {view : List PeerID} (host : PeerID)
    (htopic : topic ≠ "") (hhost : host ∈ view)
    (h : ∀ q ∈ view, pretty q = pretty host ∨
      encodedSum topic (pretty host) < encodedSum topic (pretty q)) :
    pretty (electLeader pretty topic view) = pretty host := by
  obtain ⟨p, hp, heq, hmin⟩ := leaderBy_spec pretty ⟨[]⟩ htopic
    (List.ne_nil_of_mem hhost)
  rw [electLeader, relayerLeaderNode, heq]
  rcases h p hp with hsame | hlt
  · exact hsame
  · exact absurd (hmin host hhost) (not_le.mpr hlt)

/-- Without a topic nobody is elected, and the empty id leads. -/
theorem electLeader_no_topic (pretty : PeerID → String)
    (view : List PeerID) : electLeader pretty "" view = ⟨[]⟩ := by
  rw [electLeader, relayerLeaderNode, leaderBy, if_pos (Or.inr rfl)]

/-- **OF TWO LEADERS ONE IS UNSEEN**: if two nodes with different names both
    call the contract for one event, the one with the smaller digest is
    missing from the view the other one's session was made from; so among
    nodes that see each other at most one calls it. -/
theorem leaders_unseen (pretty : PeerID → String) (topic : String)
    (rs : Set (Request PK SG SK))
    (hsha : Set.InjOn (fun s : String => sum256 s.toUTF8.toList)
      {str | ∃ r ∈ rs, str = topic ++ pretty r.host}) :
    (∀ r ∈ rs, ∀ r' ∈ rs, pretty r.host ≠ pretty r'.host →
      r.Issues pretty topic → r'.Issues pretty topic →
      (r.digest pretty topic < r'.digest pretty topic ∧
        ∃ view, r'.view = some view ∧ r.host ∉ view) ∨
      (r'.digest pretty topic < r.digest pretty topic ∧
        ∃ view, r.view = some view ∧ r'.host ∉ view)) ∧
    ((∀ r ∈ rs, ∀ r' ∈ rs, ∀ view, r.view = some view → r'.host ∈ view) →
      ∀ r ∈ rs, ∀ r' ∈ rs, r.Issues pretty topic → r'.Issues pretty topic →
      pretty r.host = pretty r'.host) := by
  have hone : ∀ r ∈ rs, ∀ r' ∈ rs, pretty r.host ≠ pretty r'.host →
      r.Issues pretty topic → r'.Issues pretty topic →
      (r.digest pretty topic < r'.digest pretty topic ∧
        ∃ view, r'.view = some view ∧ r.host ∉ view) ∨
      (r'.digest pretty topic < r.digest pretty topic ∧
        ∃ view, r.view = some view ∧ r'.host ∉ view) := by
    intro r hr r' hr' hne hissue hissue'
    obtain ⟨s, view, hmade, hleads⟩ := issues_leads hissue
    obtain ⟨s', view', hmade', hleads'⟩ := issues_leads hissue'
    -- two names have two digests, unless SHA-256 collides on them
    have hdig : r.digest pretty topic ≠ r'.digest pretty topic := fun heq =>
      hne (encodedSum_inj hsha ⟨r, hr, rfl⟩ ⟨r', hr', rfl⟩ heq)
    by_cases htopic : topic = ""
    · -- both elected the empty id, so both have its name
      subst htopic
      rw [electLeader_no_topic] at hleads hleads'
      exact absurd (hleads.symm.trans hleads') hne
    · rcases lt_or_gt_of_ne hdig with hlt | hgt
      · refine Or.inl ⟨hlt, view', hmade'.seen, ?_⟩
        intro hmem
        exact absurd (leads_minimal htopic hmade' hleads' _ hmem)
          (not_le.mpr hlt)
      · refine Or.inr ⟨hgt, view, hmade.seen, ?_⟩
        intro hmem
        exact absurd (leads_minimal htopic hmade hleads _ hmem)
          (not_le.mpr hgt)
  refine ⟨hone, ?_⟩
  intro hsee r hr r' hr' hissue hissue'
  by_contra hne
  rcases hone r hr r' hr' hne hissue hissue' with ⟨-, view, hview, hnot⟩ |
    ⟨-, view, hview, hnot⟩
  · exact hnot (hsee r' hr' r hr view hview)
  · exact hnot (hsee r hr r' hr' view hview)

/-! ## What the threshold guarantees -/

section Threshold

variable {bls : Bls PK SG SK} {r' : Request PK SG SK}
  {s' : Session PK SG SK} {view : List PeerID} {msg : MessageWithSig PK SG}

/-- An accepted mask has as many bits as half of the view, and one more. -/
theorem accepted_bits (hmade : MadeFrom pretty topic r view s)
    (h : s.verifyThresholdWitnesses bls msg = .ok ()) :
    view.length / 2 + 1 ≤ (bitsOf msg.mask).card := by
  have hthr := (verifyThresholdWitnesses_ok_iff.mp h).1
  rw [hmade.thresholdAck, popcount_eq_card] at hthr
  exact_mod_cast hthr

/-- **A MAJORITY OF THE VIEW**: a Prepared message accepted by a session made
    from a view of `k` participants has more than `k / 2` signers, where `k`
    passed the two admission tests.  They are a majority of the `n`
    registered nodes when `k / 2` is not below `n / 2`, and the signers of
    two accepted messages meet when the two thresholds exceed `n`
    together. -/
theorem accepted_masks_meet (hs : r.newSession pretty topic = .created s) :
    ∃ view, r.view = some view ∧
      (∃ poll ∈ r.polls, view = poll.topicPeers ++ [r.host] ∧
        5 < view.length ∧
        poll.rendezvousPeers.length / 2 + 1 < view.length) ∧
      (∀ (bls : Bls PK SG SK) msg,
        s.verifyThresholdWitnesses bls msg = .ok () →
        view.length / 2 < popcount msg.mask ∧
        (s.publicKeys.length / 2 ≤ view.length / 2 →
          s.publicKeys.length / 2 < popcount msg.mask)) ∧
      (∀ (bls : Bls PK SG SK) topic' (r' : Request PK SG SK) s' view' msg msg',
        r'.newSession pretty topic' = .created s' → r'.view = some view' →
        s'.publicKeys.length = s.publicKeys.length →
        s.verifyThresholdWitnesses bls msg = .ok () →
        s'.verifyThresholdWitnesses bls msg' = .ok () →
        msg.mask < 2 ^ s.publicKeys.length →
        msg'.mask < 2 ^ s'.publicKeys.length →
        s.publicKeys.length
          < (view.length / 2 + 1) + (view'.length / 2 + 1) →
        ∃ i < s.publicKeys.length, msg.mask.testBit i = true ∧
          msg'.mask.testBit i = true) := by
  obtain ⟨view, hmade⟩ := newSession_created hs
  refine ⟨view, hmade.seen, hmade.admitted, ?_, ?_⟩
  -- more than half of the view have signed, by the threshold of the session
  · intro bls msg hok
    have hbits := accepted_bits hmade hok
    rw [popcount_eq_card]
    exact ⟨by omega, fun hn => by omega⟩
  · intro bls topic' r' s' view' msg msg' hs' hview' hlen hok hok' hm hm' hsum
    rw [hlen] at hm'
    obtain ⟨view'', hmade'⟩ := newSession_created hs'
    obtain rfl : view'' = view' :=
      Option.some.inj (hmade'.seen.symm.trans hview')
    -- two such sets are too large to be disjoint
    refine masks_meet hm hm' ?_
    have hbits := accepted_bits hmade hok
    have hbits' := accepted_bits hmade' hok'
    omega

/-! ## Two verdicts on one message -/

/-- Whether a created session accepts depends on its view and on the
    multisignature. -/
theorem accepted_iff (bls : Bls PK SG SK)
    (hmade : MadeFrom pretty topic r view s) (msg : MessageWithSig PK SG) :
    s.verifyThresholdWitnesses bls msg = .ok () ↔
      view.length / 2 + 1 ≤ popcount msg.mask ∧
      bls.verifyMultisig msg.signature s.epochPublicKey msg.publicKey
        msg.toBody.marshal msg.mask = true := by
  rw [verifyThresholdWitnesses_ok_iff, hmade.thresholdAck]
  exact and_congr_left' Nat.cast_le

/-- **WHERE TWO VERDICTS DIFFER**: two sessions of one epoch key differ about a
    Prepared message exactly when its multisignature is good and its signers
    reach one threshold but not the other; with equal thresholds they agree.
    So a message that makes one node report consensus does so at every node
    whose threshold it reaches and that is free, undecided and awaited. -/
theorem verdicts_differ_iff [Add PK] [Add SG] (bls : Bls PK SG SK)
    (hs : r.newSession pretty topic = .created s)
    (hs' : r'.newSession pretty topic = .created s')
    (hE : s'.epochPublicKey = s.epochPublicKey) :
    ∃ view view', r.view = some view ∧ r'.view = some view' ∧
      (∀ msg, ¬ (s.verifyThresholdWitnesses bls msg = .ok () ↔
          s'.verifyThresholdWitnesses bls msg = .ok ()) ↔
        bls.verifyMultisig msg.signature s.epochPublicKey msg.publicKey
          msg.toBody.marshal msg.mask = true ∧
        min (view.length / 2 + 1) (view'.length / 2 + 1)
          ≤ popcount msg.mask ∧
        popcount msg.mask
          < max (view.length / 2 + 1) (view'.length / 2 + 1)) ∧
      (view.length / 2 = view'.length / 2 → ∀ msg,
        s.verifyThresholdWitnesses bls msg = .ok () ↔
          s'.verifyThresholdWitnesses bls msg = .ok ()) ∧
      (∀ tr st tr' st' msg, Run (Step bls) (Loop.start s) tr st →
        Run (Step bls) (Loop.start s') tr' st' →
        (st.handle bls msg).2 = .agreed →
        view'.length / 2 + 1 ≤ popcount msg.mask →
        st'.locked = false → st'.cancelled = false → st'.waiting = true →
        (st'.handle bls msg).2 = .agreed) := by
  obtain ⟨view, hmade⟩ := newSession_created hs
  obtain ⟨view', hmade'⟩ := newSession_created hs'
  have hiff := accepted_iff bls hmade
  have hiff' := accepted_iff bls hmade'
  rw [hE] at hiff'
  refine ⟨view, view', hmade.seen, hmade'.seen, ?_, ?_, ?_⟩
  · intro msg
    rw [hiff, hiff']
    by_cases hsig : bls.verifyMultisig msg.signature s.epochPublicKey
        msg.publicKey msg.toBody.marshal msg.mask = true
    · simp only [hsig, and_true, true_and]
      omega
    · simp only [hsig, Bool.false_eq_true, and_false, false_and,
        not_true_eq_false]
  · intro hlen msg
    rw [hiff, hiff', hlen]
  · intro tr st tr' st' msg hrun hrun' hagreed hpop hlock hcancel hwait
    have hconf := (counted_run hmade.fresh.acks hmade.fresh.sigMask hrun).config
    have hconf' :=
      (counted_run hmade'.fresh.acks hmade'.fresh.sigMask hrun').config
    -- a run keeps what the verdict depends on, the threshold and the keys
    obtain ⟨hmine, htype, hver, -⟩ := agreed_iff.mp hagreed
    rw [hconf.verifyThresholdWitnesses, hiff] at hver
    refine agreed_iff.mpr ⟨?_, htype, ?_, hlock, hcancel, hwait⟩
    · rw [hmine, hconf.topic, hmade.topic, hconf'.topic, hmade'.topic]
    · rw [hconf'.verifyThresholdWitnesses, hiff']
      exact ⟨hpop, hver.2⟩

end Threshold

end Created

/-! ## Twelve registered nodes -/

/-- The registered keys of twelve nodes. -/
def sampleKeys : List ℤ := [1, 2, 3, 4, 5, 6, 7, 8, 9, 10, 11, 12]

/-- A host id in the form libp2p gives to an Ed25519 key. -/
def samplePeer (i : ℕ) : PeerID :=
  ⟨[0, 36, 8, 1, 18, 32] ++ List.replicate 32 (UInt8.ofNat i)⟩

/-- Node `i` at the request "0x5", seeing some other nodes on both
    topics. -/
def sampleRequest (i : ℕ) (peers : List ℕ) : Request ℤ ℤ ℤ where
  node :=
    { id := i
      epochPublicKey := 78
      membershipKey := intPoints.onIndex 78 i 78
      publicKeys := sampleKeys
      privKey := i + 1 }
  host := samplePeer i
  registry := ⟨.ok sampleKeys, true, .ok i⟩
  polls := [⟨peers.map samplePeer, peers.map samplePeer, false⟩]
  agreed := true

/-- The session node `i` makes from that. -/
def sampleCreated (i : ℕ) (peers : List ℕ) : Session ℤ ℤ ℤ where
  topic := "0x5"
  id := i
  thresholdAck := ((peers.map samplePeer ++ [samplePeer i]).length / 2 + 1 : ℕ)
  thresholdWit := ((peers.map samplePeer ++ [samplePeer i]).length / 2 + 1 : ℕ)
  acks := 0
  publicKeys := sampleKeys
  partSignature := 0
  partPublicKey := 0
  sigMask := 0
  privateKey := i + 1
  epochPublicKey := 78
  membershipKey := intPoints.onIndex 78 i 78
  leader := electLeader base58 "0x5" (peers.map samplePeer ++ [samplePeer i])

/-- The sample's first poll admits its peers. -/
theorem sampleRequest_await (i : ℕ) (peers : List ℕ)
    (h : enough (peers.length + 1) peers.length = true) :
    awaitParticipants (sampleRequest i peers).host
      (sampleRequest i peers).polls
      = .admitted (peers.map samplePeer ++ [samplePeer i]) := by
  simp only [sampleRequest, awaitParticipants, List.length_append,
    List.length_map, List.length_singleton, h, if_true]

theorem sampleRequest_created (i : ℕ) (peers : List ℕ)
    (h : enough (peers.length + 1) peers.length = true) :
    (sampleRequest i peers).newSession base58 "0x5"
      = .created (sampleCreated i peers) := by
  rw [Request.newSession, sampleRequest_await i peers h]
  rfl

theorem sampleRequest_view (i : ℕ) (peers : List ℕ)
    (h : enough (peers.length + 1) peers.length = true) :
    (sampleRequest i peers).view
      = some (peers.map samplePeer ++ [samplePeer i]) := by
  rw [Request.view, sampleRequest_await i peers h]

/-- Node `i` calls the contract if its digest is below those of the nodes it
    sees. -/
theorem sampleRequest_issues {i : ℕ} {peers : List ℕ}
    (henough : enough (peers.length + 1) peers.length = true)
    (hdigest : ∀ j ∈ peers, encodedSum "0x5" (base58 (samplePeer i))
      < encodedSum "0x5" (base58 (samplePeer j))) :
    (sampleRequest i peers).Issues base58 "0x5" := by
  refine issues_of_leads (sampleRequest_created i peers henough) rfl ?_
  refine leads_of_smallest (samplePeer i) (by decide)
    (List.mem_append_right _ (List.mem_singleton_self _)) ?_
  intro q hq
  rcases List.mem_append.mp hq with hpeer | hself
  · obtain ⟨j, hj, rfl⟩ := List.mem_map.mp hpeer
    exact Or.inr (hdigest j hj)
  · exact Or.inl (congrArg base58 (List.mem_singleton.mp hself))

/-- Two nodes that see the same five others, but not each other, both call the
    contract. -/
theorem two_leaders_issue :
    (sampleRequest 6 [1, 2, 3, 7, 8]).Issues base58 "0x5" ∧
    (sampleRequest 10 [1, 2, 3, 7, 8]).Issues base58 "0x5" ∧
    base58 (samplePeer 6) ≠ base58 (samplePeer 10) := by
  have hdigests : ∀ i ∈ [6, 10], ∀ j ∈ [1, 2, 3, 7, 8],
      encodedSum "0x5" (base58 (samplePeer i))
        < encodedSum "0x5" (base58 (samplePeer j)) := by
    decide +kernel
  exact ⟨sampleRequest_issues (by decide) (hdigests 6 (by decide)),
    sampleRequest_issues (by decide) (hdigests 10 (by decide)),
    by decide +kernel⟩

/-- Once they see each other, they do not both call it. -/
theorem leaders_unseen_sample :
    ¬ ((sampleRequest 6 [1, 2, 3, 7, 10]).Issues base58 "0x5" ∧
      (sampleRequest 10 [1, 2, 3, 7, 6]).Issues base58 "0x5") := by
  have hsum : sum256 ("0x5" ++ base58 (samplePeer 6)).toUTF8.toList
      ≠ sum256 ("0x5" ++ base58 (samplePeer 10)).toUTF8.toList := by
    decide +kernel
  have hname : base58 (samplePeer 6) ≠ base58 (samplePeer 10) := by
    decide +kernel
  rintro ⟨h6, h10⟩
  refine hname ((leaders_unseen base58 "0x5"
    {sampleRequest 6 [1, 2, 3, 7, 10], sampleRequest 10 [1, 2, 3, 7, 6]}
    ?_).2 ?_ _ (Or.inl rfl) _ (Or.inr rfl) h6 h10)
  · rintro _ ⟨r, hr, rfl⟩ _ ⟨r', hr', rfl⟩ heq
    rcases hr with rfl | rfl
    · rcases hr' with rfl | rfl
      · rfl
      · exact absurd heq hsum
    · rcases hr' with rfl | rfl
      · exact absurd heq.symm hsum
      · rfl
  -- each of the two sees the other
  · have hsees : ∀ i j k, ∀ view,
        (sampleRequest i [1, 2, 3, 7, j]).view = some view →
        k = i ∨ k = j → samplePeer k ∈ view := by
      intro i j k view hview hk
      rw [sampleRequest_view i [1, 2, 3, 7, j]
        (show enough 6 5 = true by decide)] at hview
      rw [← Option.some.inj hview]
      rcases hk with rfl | rfl
      · exact List.mem_append_right _ (List.mem_singleton_self _)
      · exact List.mem_append_left _ (List.mem_map_of_mem (by simp))
    rintro r hr r' hr' view hview
    rcases hr with rfl | rfl
    · rcases hr' with rfl | rfl
      · exact hsees 6 10 6 view hview (Or.inl rfl)
      · exact hsees 6 10 10 view hview (Or.inr rfl)
    · rcases hr' with rfl | rfl
      · exact hsees 10 6 6 view hview (Or.inr rfl)
      · exact hsees 10 6 10 view hview (Or.inl rfl)

/-- The Prepared message of the nodes in a mask, signed by all of them. -/
def samplePrepared (mask : ℕ) : MessageWithSig ℤ ℤ where
  source := 0
  msgType := .prepared
  bridgeEventHash := "0x5"
  mask := mask
  publicKey := ∑ i ∈ bitsOf mask, sampleKeys.getD i 0
  signature := multisigValue intPoints 78
    (∑ i ∈ bitsOf mask, sampleKeys.getD i 0) (Body.marshal ⟨"0x5"⟩) mask

/-- Four signers of twelve are enough for a session that saw five peers. -/
theorem accepted_masks_sample :
    ∃ view, (sampleRequest 0 [1, 2, 3, 4, 5]).view = some view ∧
      5 < view.length ∧
      view.length / 2 < popcount (samplePrepared 0b1111).mask := by
  obtain ⟨view, hview, ⟨_, _, _, hfive, _⟩, hmajority, -⟩ :=
    accepted_masks_meet (sampleRequest_created 0 [1, 2, 3, 4, 5] (by decide))
  exact ⟨view, hview, hfive,
    (hmajority intBls (samplePrepared 0b1111) (by decide +kernel)).1⟩

/-- Two such sessions accept two messages of four signers each that have no
    signer in common; four is no majority of twelve. -/
theorem disjoint_minorities_accepted :
    (sampleRequest 0 [1, 2, 3, 4, 5]).newSession base58 "0x5"
      = .created (sampleCreated 0 [1, 2, 3, 4, 5]) ∧
    (sampleRequest 6 [7, 8, 9, 10, 11]).newSession base58 "0x5"
      = .created (sampleCreated 6 [7, 8, 9, 10, 11]) ∧
    (sampleCreated 0 [1, 2, 3, 4, 5]).publicKeys.length = 12 ∧
    (sampleCreated 0 [1, 2, 3, 4, 5]).verifyThresholdWitnesses intBls
      (samplePrepared 0b1111) = .ok () ∧
    (sampleCreated 6 [7, 8, 9, 10, 11]).verifyThresholdWitnesses intBls
      (samplePrepared 0b1111000000) = .ok () ∧
    popcount (samplePrepared 0b1111).mask = 4 ∧
    Disjoint (bitsOf (samplePrepared 0b1111).mask)
      (bitsOf (samplePrepared 0b1111000000).mask) := by
  exact ⟨sampleRequest_created _ _ (by decide),
    sampleRequest_created _ _ (by decide), rfl, by decide +kernel,
    by decide +kernel, by decide +kernel, by decide +kernel⟩

/-- The same four signers, judged by a session of six and by a session of
    eight participants. -/
theorem verdicts_differ_sample :
    ¬ ((sampleCreated 0 [1, 2, 3, 4, 5]).verifyThresholdWitnesses intBls
        (samplePrepared 0b1111) = .ok () ↔
      (sampleCreated 6 [0, 1, 2, 3, 4, 5, 7]).verifyThresholdWitnesses intBls
        (samplePrepared 0b1111) = .ok ()) := by
  obtain ⟨view, view', hview, hview', hdiffer, -⟩ :=
    verdicts_differ_iff intBls
      (sampleRequest_created 0 [1, 2, 3, 4, 5] (by decide))
      (sampleRequest_created 6 [0, 1, 2, 3, 4, 5, 7] (by decide)) rfl
  rw [sampleRequest_view 0 [1, 2, 3, 4, 5] (by decide)] at hview
  rw [sampleRequest_view 6 [0, 1, 2, 3, 4, 5, 7] (by decide)] at hview'
  rw [hdiffer, ← Option.some.inj hview, ← Option.some.inj hview']
  decide +kernel

/-- One accepts and the other refuses. -/
theorem one_message_two_verdicts :
    (sampleRequest 0 [1, 2, 3, 4, 5]).newSession base58 "0x5"
      = .created (sampleCreated 0 [1, 2, 3, 4, 5]) ∧
    (sampleRequest 6 [0, 1, 2, 3, 4, 5, 7]).newSession base58 "0x5"
      = .created (sampleCreated 6 [0, 1, 2, 3, 4, 5, 7]) ∧
    (sampleCreated 0 [1, 2, 3, 4, 5]).epochPublicKey
      = (sampleCreated 6 [0, 1, 2, 3, 4, 5, 7]).epochPublicKey ∧
    (sampleCreated 0 [1, 2, 3, 4, 5]).publicKeys
      = (sampleCreated 6 [0, 1, 2, 3, 4, 5, 7]).publicKeys ∧
    (sampleCreated 0 [1, 2, 3, 4, 5]).verifyThresholdWitnesses intBls
      (samplePrepared 0b1111) = .ok () ∧
    (sampleCreated 6 [0, 1, 2, 3, 4, 5, 7]).verifyThresholdWitnesses intBls
      (samplePrepared 0b1111) ≠ .ok () := by
  exact ⟨sampleRequest_created _ _ (by decide),
    sampleRequest_created _ _ (by decide), rfl, rfl, by decide +kernel,
    by decide +kernel⟩

end RelayerNewSession
