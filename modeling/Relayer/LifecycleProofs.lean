import Relayer.HonestLiveProofs
import Relayer.SetupLiveProofs

/-! # From the start of an epoch to consensus

    The two phases of an epoch in one: the nodes exchange the parts of their
    membership keys, and make sessions with what they got.

    * `setupOf` is the setup of an honest epoch; the parts made for a node add
      up to its membership key (`sum_keyParts`);
    * `Joined`: a node that has finished its setup and then made a session for
      an oracle request; its session is honest (`joined_honest`);
    * **`epoch_relays`**: from every open state of the setup the nodes can come
      to keys with which the sessions of every request can always still
      agree. -/

namespace RelayerLifecycle

open RelayerBls RelayerHonest RelayerHonestLive RelayerLeader RelayerMessage
open RelayerNewSession RelayerSession Transition

variable {ι F G : Type} [AddCommGroup F] [AddCommGroup G] [DecidableEq G]
  {H : HashPoints F G} {coefs : List F → List ℤ}
  {hlen : ∀ pks, (coefs pks).length = pks.length} {ep : HonestEpoch F}

/-- The setup of an honest epoch. -/
def setupOf (ep : HonestEpoch F) : RelayerSetup.Epoch F F where
  publicKeys := ep.keys
  epochPublicKey := ep.publicKey
  privKey i := ep.keys.getD i 0

/-- The sum over two lists, index by index. -/
theorem sum_zipWith {α β γ : Type} [AddCommMonoid γ] (f : α → β → γ) (a₀ : α)
    (b₀ : β) {as : List α} {bs : List β} (hlen : as.length = bs.length) :
    (List.zipWith f as bs).sum =
      ∑ j ∈ Finset.range bs.length, f (as.getD j a₀) (bs.getD j b₀) := by
  induction as generalizing bs with
  | nil =>
      obtain rfl := List.length_eq_zero_iff.mp hlen.symm
      rfl
  | cons a as ih =>
      cases bs with
      | nil => cases hlen
      | cons b bs =>
          rw [List.zipWith_cons_cons, List.sum_cons, ih (Nat.succ.inj hlen),
            List.length_cons, Finset.sum_range_succ']
          simp [add_comm]

/-- **THE PARTS ADD UP** to the membership key, in an epoch whose ids fit into
    the byte that is signed. -/
theorem sum_keyParts (hcoefs : coefs ep.keys = ep.coefficients)
    (hle : ep.keys.length ≤ 256) {i : ℕ} (hi : i < ep.keys.length) :
    ∑ j ∈ Finset.range ep.keys.length,
      (setupOf ep).keyPart (linearBls H coefs hlen) j i = ep.membershipKey H i := by
  have hbyte : byte i = i := Nat.mod_eq_of_lt (by omega)
  rw [HonestEpoch.membershipKey, sum_zipWith _ 0 0 ep.coefficients_length]
  refine Finset.sum_congr rfl fun j _ => ?_
  show H.onIndex ep.publicKey (byte i)
    ((coefs ep.keys).getD j 0 • ep.keys.getD j 0) = _
  rw [hbyte, hcoefs]

/-- A node that has finished its setup and has made a session. -/
structure Joined (ep : HonestEpoch F) (pretty : PeerID → String) (topic : String)
    (setup : RelayerSetup.Network G) (r : Request F G F) (s : Session F G F) :
    Prop where
  created : r.newSession pretty topic = .created s
  registry : r.registry.publicKeys = .ok ep.keys
  /-- It is registered under the key it has. -/
  own : index ep.keys s.id = .ok s.privateKey
  epochPublicKey : r.node.epochPublicKey = ep.publicKey
  membershipKey : (setup.procs s.id.toNat).result = some r.node.membershipKey

omit [DecidableEq G] in
/-- Its session is an honest one. -/
theorem joined_honest {pretty : PeerID → String} {topic : String}
    {setup : RelayerSetup.Network G} {r : Request F G F} {s : Session F G F}
    (hkeys : ∀ i < ep.keys.length, (setup.procs i).result =
      some (ep.membershipKey H i))
    (h : Joined ep pretty topic setup r s) :
    ∃ hs : HonestSession H ep, hs.session = s := by
  have hlt : s.id.toNat < ep.keys.length := by
    obtain ⟨hnonneg, hlt⟩ := inRange_of_index_ok h.own
    omega
  have hkey := h.membershipKey
  rw [hkeys _ hlt] at hkey
  exact newSession_honest h.created h.registry h.own h.epochPublicKey
    (Option.some.inj hkey).symm

/-- **AN EPOCH CAN RELAY**: from every open state of the setup of at most 63
    honest nodes, all of them can come to keys; and whatever sessions are then
    made for a request, in whatever state these have come to undisturbed, they
    can all agree, if no threshold is above the number of their nodes. -/
theorem epoch_relays [Fintype ι] [DecidableEq ι] {c : Codec F G}
    (hc : c.Faithful) (hcoefs : coefs ep.keys = ep.coefficients)
    (hn : 1 ≤ ep.keys.length) (hle : ep.keys.length ≤ 63)
    {tr₀ : List (RelayerSetup.NetEvent × RelayerSetup.Outcome G)}
    {setup : RelayerSetup.Network G}
    (hsetup : RelayerSetup.OnceRun (linearBls H coefs hlen) (setupOf ep) tr₀ setup)
    (hopen : ∀ i < ep.keys.length, (setup.procs i).closed = false) :
    ∃ tr₁ setup', RelayerSetup.OnceRun (linearBls H coefs hlen) (setupOf ep)
        (tr₀ ++ tr₁) setup' ∧
      (∀ i < ep.keys.length, (setup'.procs i).result
        = some (ep.membershipKey H i)) ∧
      ∀ (pretty : PeerID → String) (topic : String) (r : ι → Request F G F)
        (s : ι → Session F G F),
        (∀ k, Joined ep pretty topic setup' (r k) (s k)) →
        (∀ k, (s k).thresholdAck ≤ (Finset.univ.image fun j => (s j).id).card) →
        ∀ tr net, Run (Fires (Network.react c (linearBls H coefs hlen)))
          ⟨fun k => Loop.start (s k), []⟩ tr net → Undisturbed tr →
        ∃ tr' net', Run (Fires (Network.react c (linearBls H coefs hlen)))
            net tr' net' ∧
          ∀ k, ∃ l ∈ sessionTrace c k (tr ++ tr'), l.2 = .agreed := by
  -- the setup is finished by an extension of the run
  obtain ⟨tr₁, setup', hsetup', hdone⟩ :=
    RelayerSetupLive.exists_finished hn hle hsetup hopen
  have hkeys : ∀ i < ep.keys.length, (setup'.procs i).result
      = some (ep.membershipKey H i) := by
    intro i hi
    rw [(hdone i hi).2]
    exact congrArg some (sum_keyParts hcoefs (by omega) hi)
  refine ⟨tr₁, setup', hsetup', hkeys, ?_⟩
  intro pretty topic r s hjoined hquorum tr net hrun hquiet
  -- the sessions made from it are honest, with the keys it has produced
  choose hs hsession using fun k => joined_honest hkeys (hjoined k)
  obtain rfl : (fun k => (hs k).session) = s := funext hsession
  have htopic : ∀ k, (hs k).session.topic = topic := by
    intro k
    obtain ⟨view, hmade⟩ := newSession_created (hjoined k).created
    exact hmade.topic
  have hstart : Run (Fires (Network.react c (linearBls H coefs hlen)))
      (Network.start hs) tr net := hrun
  -- and honest sessions of one topic are finished too
  obtain ⟨tr', net', hrun', hquiet', hagreed⟩ :=
    RelayerHonestLive.exists_finished hc htopic hquorum ⟨tr, hstart, hquiet⟩
  have hall : Undisturbed (tr ++ tr') :=
    List.forall_mem_append.mpr ⟨hquiet, hquiet'⟩
  exact ⟨tr', net', hrun', fun k =>
    (known hc (hstart.append hrun') hall k).free.agreed (hagreed k)⟩

/-- The peer ids of the other six nodes. -/
def otherPeers (k : Fin 7) : List PeerID :=
  ((List.range 7).filter (fun j => j ≠ k.val)).map fun j => ⟨[j.toUInt8]⟩

/-- Node `k` of the seven nodes at a request, with its membership key; it sees
    the other six on the topic. -/
def sampleRequest (k : Fin 7) : Request ℤ ℤ ℤ where
  node := ⟨⟨k.val, 58, sampleEpoch.membershipKey intPoints k.val,
    sampleEpoch.keys⟩, sampleEpoch.keys.getD k.val 0⟩
  host := ⟨[k.val.toUInt8]⟩
  registry := ⟨.ok sampleEpoch.keys, true, .ok k.val⟩
  polls := [⟨otherPeers k, [], false⟩]
  agreed := true

/-- From the start of a setup to a session of every node, and to agreement. -/
theorem epoch_relays_sample :
    ∃ tr₁ setup', RelayerSetup.OnceRun intBls (setupOf sampleEpoch) tr₁ setup' ∧
      ∃ s : Fin 7 → Session ℤ ℤ ℤ,
        (∀ k, Joined sampleEpoch base58 "0x51ab" setup' (sampleRequest k)
          (s k)) ∧
        ∃ tr' net', Run (Fires (Network.react framedCodec intBls))
            ⟨fun k => Loop.start (s k), []⟩ tr' net' ∧
          ∀ k, ∃ l ∈ sessionTrace framedCodec k tr', l.2 = .agreed := by
  have hstart : RelayerSetup.OnceRun (linearBls intPoints
      (fun pks => pks.map (fun _ => 1)) (fun _ => List.length_map _))
      (setupOf sampleEpoch) [] (RelayerSetup.Network.start (setupOf sampleEpoch)) :=
    Run.refl
  obtain ⟨tr₁, setup', hsetup, hkeys, hsessions⟩ :=
    epoch_relays (ι := Fin 7) framedCodec_faithful (show _ = sampleEpoch.coefficients
      from rfl) (by decide) (by decide) hstart (fun _ _ => rfl)
  have hjoined : ∀ k : Fin 7, Joined sampleEpoch base58 "0x51ab" setup'
      (sampleRequest k) ((sampleRequest k).sessionFrom base58 "0x51ab"
        sampleEpoch.keys k.val (otherPeers k ++ [(sampleRequest k).host])) := by
    intro k
    -- each node sees the other six, whatever its own place
    have hview : awaitParticipants (sampleRequest k).host (sampleRequest k).polls
        = .admitted (otherPeers k ++ [(sampleRequest k).host]) := by
      revert k
      decide
    refine ⟨?_, rfl, ?_, show (58 : ℤ) = sampleEpoch.publicKey by decide,
      hkeys k.val k.isLt⟩
    · rw [Request.newSession, hview]
      rfl
    · revert k
      decide
  obtain ⟨tr', net', hrun, hagreed⟩ :=
    hsessions _ _ sampleRequest _ hjoined (by decide) [] _ Run.refl
      (fun l hl => absurd hl List.not_mem_nil)
  exact ⟨tr₁, setup', hsetup, _, hjoined, tr', net', hrun, hagreed⟩

end RelayerLifecycle
