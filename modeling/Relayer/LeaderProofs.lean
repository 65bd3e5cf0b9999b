import Relayer.Sha256Proofs

/-! # Leader election

    `libp2p/leader_provider.go`: every participant is hashed together with
    the message id, the hex digests are sorted, and the participant stored
    under the smallest digest leads.

    `LeaderNode` works on strings and `RelayerLeaderNode` on peer ids through
    their `Pretty` form; both are `leaderBy`, and `leaderBy_spec` is all that
    later files use: the leader is a participant and no participant has a
    smaller digest.  Where the digests of the participants differ this
    determines the leader, and the election depends on the set of the
    participants only (**`leader_stable`**). -/

namespace RelayerLeader

open Sha256

/-- `peer.ID` of libp2p: raw bytes. -/
structure PeerID where
  raw : List UInt8
  deriving DecidableEq, Repr

/-- The digits of base 58. -/
def base58Alphabet : List Char :=
  "123456789ABCDEFGHJKLMNPQRSTUVWXYZabcdefghijkmnopqrstuvwxyz".toList

/-- `peer.ID.Pretty` as libp2p has it: a leading zero byte is a `1`, the rest
    one number in base 58. -/
def base58 (p : PeerID) : String :=
  let zeros := (p.raw.takeWhile (fun b => decide (b = 0))).length
  let n := p.raw.foldl (fun n b => n * 256 + b.toNat) 0
  String.ofList (List.replicate zeros '1' ++
    (Nat.digits 58 n).reverse.map (fun d => base58Alphabet.getD d '1'))

/-- `hex.EncodeToString(sha256.Sum256([]byte(msgID + el)))`. -/
def encodedSum (msgID el : String) : String :=
  encodeToString (sum256 (msgID ++ el).toUTF8.toList)

variable {α : Type}

/-- `keyStore[k]` after the loop: the last participant written under `k`. -/
def keyStore (key : α → String) (pIDs : List α) (k : String) : Option α :=
  pIDs.foldl (fun stored el => if key el = k then some el else stored) none

/-- The election both functions share; `zero` is Go's zero value of the
    participant type. -/
def leaderBy (pretty : α → String) (zero : α) (msgID : String)
    (pIDs : List α) : Except String α :=
  if pIDs.length = 0 ∨ msgID = "" then
    .error "invalid input for finding the leader"
  else
    let key := fun el => encodedSum msgID (pretty el)
    match (pIDs.map key).insertionSort (· ≤ ·) with
    | [] => .ok zero
    | hash :: _ => .ok ((keyStore key pIDs hash).getD zero)

/-- `LeaderNode`. -/
def leaderNode (msgID : String) (pIDs : List String) : Except String String :=
  leaderBy id "" msgID pIDs

/-- `RelayerLeaderNode`, for the `Pretty` of the libp2p package. -/
def relayerLeaderNode (pretty : PeerID → String) (msgID : String)
    (pIDs : List PeerID) : Except String PeerID :=
  leaderBy pretty ⟨[]⟩ msgID pIDs

/-! ## What the election returns -/

/-- The fold of the loop, from any earlier content of the map. -/
theorem keyStore_foldl (key : α → String) (k : String) :
    ∀ (pIDs : List α) (stored : Option α) (p : α),
      pIDs.foldl (fun stored el => if key el = k then some el else stored)
        stored = some p →
      stored = some p ∨ (p ∈ pIDs ∧ key p = k) := by
  intro pIDs
  induction pIDs with
  | nil => intro stored p h; exact Or.inl h
  | cons el rest ih =>
      intro stored p h
      rw [List.foldl_cons] at h
      rcases ih _ p h with hstored | ⟨hmem, hkey⟩
      · by_cases hel : key el = k
        · rw [if_pos hel] at hstored
          have hpel : el = p := Option.some.inj hstored
          subst hpel
          exact Or.inr ⟨List.mem_cons_self .., hel⟩
        · rw [if_neg hel] at hstored
          exact Or.inl hstored
      · exact Or.inr ⟨List.mem_cons_of_mem _ hmem, hkey⟩

/-- Once written, a key stays written. -/
theorem keyStore_isSome (key : α → String) (k : String) :
    ∀ (pIDs : List α) (stored : Option α),
      stored.isSome = true ∨ (∃ p ∈ pIDs, key p = k) →
      (pIDs.foldl (fun stored el => if key el = k then some el else stored)
        stored).isSome = true := by
  intro pIDs
  induction pIDs with
  | nil =>
      rintro stored (h | ⟨p, hp, -⟩)
      · exact h
      · exact nomatch hp
  | cons el rest ih =>
      intro stored h
      rw [List.foldl_cons]
      apply ih
      by_cases hel : key el = k
      · rw [if_pos hel]
        exact Or.inl rfl
      · rw [if_neg hel]
        rcases h with h | ⟨p, hp, hk⟩
        · exact Or.inl h
        · rcases List.mem_cons.mp hp with heq | hrest
          · exact absurd (heq ▸ hk) hel
          · exact Or.inr ⟨p, hrest, hk⟩

/-- A digest of some participant is stored, with one of its owners. -/
theorem keyStore_of_mem {key : α → String} {pIDs : List α} {k : String}
    (h : k ∈ pIDs.map key) :
    ∃ p ∈ pIDs, key p = k ∧ keyStore key pIDs k = some p := by
  obtain ⟨q, hq, hk⟩ := List.mem_map.mp h
  have hsome := keyStore_isSome key k pIDs none (Or.inr ⟨q, hq, hk⟩)
  obtain ⟨p, hp⟩ := Option.isSome_iff_exists.mp hsome
  rcases keyStore_foldl key k pIDs none p hp with hnone | ⟨hmem, hkey⟩
  · exact nomatch hnone
  · exact ⟨p, hmem, hkey, hp⟩

/-- **THE LEADER IS A MINIMUM**: on a non-empty list and a non-empty message
    id the election returns a participant whose digest no participant's is
    below. -/
theorem leaderBy_spec (pretty : α → String) (zero : α) {msgID : String}
    {pIDs : List α} (hid : msgID ≠ "") (hp : pIDs ≠ []) :
    ∃ p ∈ pIDs, leaderBy pretty zero msgID pIDs = .ok p ∧
      ∀ q ∈ pIDs, encodedSum msgID (pretty p) ≤ encodedSum msgID (pretty q) := by
  have hcond : ¬ (pIDs.length = 0 ∨ msgID = "") := by
    rintro (hlen | hmsg)
    · exact hp (List.length_eq_zero_iff.mp hlen)
    · exact hid hmsg
  cases hsort : (pIDs.map (fun el => encodedSum msgID (pretty el))).insertionSort
      (· ≤ ·) with
  | nil =>
      have hlen := congrArg List.length hsort
      rw [List.length_insertionSort, List.length_map] at hlen
      exact absurd (List.length_eq_zero_iff.mp hlen) hp
  | cons hash rest =>
      have hmem : ∀ k, k ∈ hash :: rest ↔
          k ∈ pIDs.map (fun el => encodedSum msgID (pretty el)) := by
        intro k
        rw [← hsort]
        exact List.mem_insertionSort _
      have hpair : (hash :: rest).Pairwise (· ≤ ·) := by
        rw [← hsort]
        exact List.pairwise_insertionSort _ _
      -- the first digest of the sorted list was stored for some peer
      obtain ⟨p, hpmem, hkey, hstore⟩ :=
        keyStore_of_mem ((hmem hash).mp (List.mem_cons_self ..))
      refine ⟨p, hpmem, ?_, ?_⟩
      · simp only [leaderBy, if_neg hcond, hsort, hstore, Option.getD_some]
      · intro q hq
        have hq' : encodedSum msgID (pretty q) ∈ hash :: rest :=
          (hmem _).mpr (List.mem_map.mpr ⟨q, hq, rfl⟩)
        show encodedSum msgID (pretty p) ≤ encodedSum msgID (pretty q)
        rw [show encodedSum msgID (pretty p) = hash from hkey]
        rcases List.mem_cons.mp hq' with heq | hrest
        · exact le_of_eq heq.symm
        · exact List.rel_of_pairwise_cons hpair hrest

/-- Where SHA-256 keeps the hashed strings apart, equal digests come from one
    name. -/
theorem encodedSum_inj {msgID el el' : String} {strings : Set String}
    (hsha : Set.InjOn (fun s : String => sum256 s.toUTF8.toList) strings)
    (hel : msgID ++ el ∈ strings) (hel' : msgID ++ el' ∈ strings)
    (h : encodedSum msgID el = encodedSum msgID el') : el = el' :=
  (String.append_right_inj msgID).mp
    (hsha hel hel' (encodeToString_inj h))

example : leaderNode "HelloWorld"
    ["16Uiu2HAmACG5DtqmQsHtXg4G2sLS65ttv84e7MrL4kapkjfmhxAp",
     "16Uiu2HAm4TmEzUqy3q3Dv7HvdoSboHk5sFj2FH3npiN5vDbJC6gh",
     "16Uiu2HAm2FzqoUdS6Y9Esg2EaGcAG5rVe1r6BFNnmmQr2H3bqafa"]
    = .ok "16Uiu2HAmACG5DtqmQsHtXg4G2sLS65ttv84e7MrL4kapkjfmhxAp" := by
  decide +kernel

/-! ## The election as a function of the set of participants -/

/-- What a stable election is: `elect` chooses from the participants in
    `peers` by their set only, takes one of least `key`, and changes its
    choice for an added participant only in favour of that one and for a
    removed one only if it led. -/
structure Stable (elect : List α → Except String α) (key : α → String)
    (peers : Set α) : Prop where
  same : ∀ l l', l ≠ [] → (∀ p ∈ l, p ∈ peers) → (∀ p, p ∈ l ↔ p ∈ l') →
    elect l = elect l'
  least : ∀ l, l ≠ [] → (∀ p ∈ l, p ∈ peers) →
    ∃ p ∈ l, elect l = .ok p ∧ ∀ q ∈ l, key p ≤ key q
  added : ∀ l l' p q, (∀ p ∈ l', p ∈ peers) → elect l = .ok p →
    (∀ r, r ∈ l' ↔ r = q ∨ r ∈ l) → elect l' = .ok p ∨ elect l' = .ok q
  removed : ∀ l l' p q, (∀ p ∈ l, p ∈ peers) → elect l = .ok p → q ≠ p →
    (∀ r ∈ l', r ∈ l) → (∀ r ∈ l, r ∈ l' ∨ r = q) → elect l' = .ok p

/-- An election that returns something had participants and a message id. -/
theorem ne_of_leaderBy {pretty : α → String} {zero p : α} {msgID : String}
    {pIDs : List α} (h : leaderBy pretty zero msgID pIDs = .ok p) :
    msgID ≠ "" ∧ pIDs ≠ [] := by
  constructor
  · rintro rfl
    rw [leaderBy, if_pos (Or.inr rfl)] at h
    cases h
  · rintro rfl
    rw [leaderBy, if_pos (Or.inl List.length_nil)] at h
    cases h

/-- **THE MINIMUM IS THE LEADER**: where the digests of the participants
    differ, the election returns exactly the participant of least digest. -/
theorem leaderBy_eq_ok_iff {pretty : α → String} {zero p : α}
    {msgID : String} {peers : Set α} {pIDs : List α}
    (hinj : Set.InjOn (fun el => encodedSum msgID (pretty el)) peers)
    (hsub : ∀ q ∈ pIDs, q ∈ peers) (hid : msgID ≠ "") :
    leaderBy pretty zero msgID pIDs = .ok p ↔
      p ∈ pIDs ∧ ∀ q ∈ pIDs,
        encodedSum msgID (pretty p) ≤ encodedSum msgID (pretty q) := by
  constructor
  · intro h
    obtain ⟨q, hq, hok, hmin⟩ :=
      leaderBy_spec pretty zero hid (ne_of_leaderBy h).2
    rw [h] at hok
    cases hok
    exact ⟨hq, hmin⟩
  · rintro ⟨hp, hle⟩
    obtain ⟨q, hq, hok, hmin⟩ :=
      leaderBy_spec pretty zero hid (List.ne_nil_of_mem hp)
    have hpq : p = q :=
      hinj (hsub p hp) (hsub q hq) (le_antisymm (hle q hq) (hmin p hp))
    rw [hok, hpq]

/-- The election is stable wherever the digests differ. -/
theorem stable_leaderBy {pretty : α → String} {msgID : String}
    {peers : Set α} (zero : α) (hid : msgID ≠ "")
    (hinj : Set.InjOn (fun el => encodedSum msgID (pretty el)) peers) :
    Stable (leaderBy pretty zero msgID)
      (fun el => encodedSum msgID (pretty el)) peers where
  same := by
    intro l l' hne hsub hmem
    obtain ⟨p, hp, hok, hmin⟩ := leaderBy_spec pretty zero hid hne
    have hsub' : ∀ q ∈ l', q ∈ peers := fun q hq => hsub q ((hmem q).mpr hq)
    rw [hok, (leaderBy_eq_ok_iff hinj hsub' hid).mpr
      ⟨(hmem p).mp hp, fun q hq => hmin q ((hmem q).mpr hq)⟩]
  least := by
    intro l hne _
    exact leaderBy_spec pretty zero hid hne
  added := by
    intro l l' p q hsub hok hmem
    have hsub' : ∀ r ∈ l, r ∈ peers :=
      fun r hr => hsub r ((hmem r).mpr (Or.inr hr))
    obtain ⟨hp, hmin⟩ := (leaderBy_eq_ok_iff hinj hsub' hid).mp hok
    have hq : q ∈ l' := (hmem q).mpr (Or.inl rfl)
    obtain ⟨m, hm, hok', hmin'⟩ :=
      leaderBy_spec pretty zero hid (List.ne_nil_of_mem hq)
    rcases (hmem m).mp hm with rfl | hml
    · exact Or.inr hok'
    · -- the new leader was there before, so it is the old one
      have hmp : m = p := hinj (hsub m hm) (hsub' p hp)
        (le_antisymm (hmin' p ((hmem p).mpr (Or.inr hp))) (hmin m hml))
      exact Or.inl (hmp ▸ hok')
  removed := by
    intro l l' p q hsub hok hqp hsub' hkept
    obtain ⟨hp, hmin⟩ := (leaderBy_eq_ok_iff hinj hsub hid).mp hok
    have hp' : p ∈ l' := (hkept p hp).resolve_right (Ne.symm hqp)
    exact (leaderBy_eq_ok_iff hinj (fun r hr => hsub r (hsub' r hr)) hid).mpr
      ⟨hp', fun r hr => hmin r (hsub' r hr)⟩

/-- An injective `pretty` and a SHA-256 without collisions on the strings
    hashed give different participants different digests. -/
theorem injOn_encodedSum {pretty : α → String} {msgID : String}
    {peers : Set α} {names : Set String} (hpretty : Set.InjOn pretty peers)
    (hnames : ∀ p ∈ peers, pretty p ∈ names)
    (hsha : Set.InjOn (fun s : String => sum256 s.toUTF8.toList)
      {s | ∃ el ∈ names, s = msgID ++ el}) :
    Set.InjOn (fun el => encodedSum msgID (pretty el)) peers := by
  intro p hp q hq hpq
  exact hpretty hp hq (encodedSum_inj hsha ⟨_, hnames p hp, rfl⟩
    ⟨_, hnames q hq, rfl⟩ hpq)

/-- The leader's name leads among the names. -/
theorem leaderNode_map {pretty : PeerID → String} {msgID : String}
    {names : Set String} {pIDs : List PeerID} {p : PeerID}
    (hinj : Set.InjOn (fun el => encodedSum msgID (id el)) names)
    (hnames : ∀ p ∈ pIDs, pretty p ∈ names)
    (h : relayerLeaderNode pretty msgID pIDs = .ok p) :
    leaderNode msgID (pIDs.map pretty) = .ok (pretty p) := by
  obtain ⟨hid, hne⟩ := ne_of_leaderBy h
  obtain ⟨q, hq, hok, hmin⟩ := leaderBy_spec pretty ⟨[]⟩ hid hne
  have hqp : q = p := by
    have heq := hok.symm.trans h
    cases heq
    rfl
  subst hqp
  have hsub : ∀ el ∈ pIDs.map pretty, el ∈ names := by
    intro el hel
    obtain ⟨r, hr, rfl⟩ := List.mem_map.mp hel
    exact hnames r hr
  refine (leaderBy_eq_ok_iff hinj hsub hid).mpr
    ⟨List.mem_map_of_mem hq, fun el hel => ?_⟩
  obtain ⟨r, hr, rfl⟩ := List.mem_map.mp hel
  exact hmin r hr

/-- **LEADER ELECTION IS STABLE**: for every message id, every set of names
    whose digests SHA-256 keeps apart and every set of peers that `Pretty`
    maps injectively into it, `LeaderNode` on the names and
    `RelayerLeaderNode` on the peers are stable elections, and the second
    returns the peer whose name the first returns on the names. -/
theorem leader_stable (pretty : PeerID → String) (msgID : String)
    (hid : msgID ≠ "") (names : Set String) (peers : Set PeerID)
    (hsha : Set.InjOn (fun s : String => sum256 s.toUTF8.toList)
      {s | ∃ el ∈ names, s = msgID ++ el})
    (hpretty : Set.InjOn pretty peers)
    (hnames : ∀ p ∈ peers, pretty p ∈ names) :
    Stable (leaderNode msgID) (encodedSum msgID) names ∧
      Stable (relayerLeaderNode pretty msgID)
        (fun p => encodedSum msgID (pretty p)) peers ∧
      ∀ pIDs : List PeerID, pIDs ≠ [] → (∀ p ∈ pIDs, p ∈ peers) →
        ∃ p, relayerLeaderNode pretty msgID pIDs = .ok p ∧
          leaderNode msgID (pIDs.map pretty) = .ok (pretty p) := by
  have hids : Set.InjOn (fun el => encodedSum msgID (id el)) names :=
    injOn_encodedSum (fun _ _ _ _ h => h) (fun _ h => h) hsha
  refine ⟨stable_leaderBy "" hid hids, stable_leaderBy (PeerID.mk []) hid
    (injOn_encodedSum hpretty hnames hsha), ?_⟩
  intro pIDs hne hsub
  obtain ⟨p, -, hok, -⟩ := leaderBy_spec pretty ⟨[]⟩ hid hne
  exact ⟨p, hok,
    leaderNode_map hids (fun q hq => hnames q (hsub q hq)) hok⟩

/-- Two peers of one byte each. -/
def twoPeers : Set PeerID := {⟨[1]⟩, ⟨[2]⟩}

/-- The two names and their digests differ, so the election between the two
    peers is stable and agrees with the one between their names. -/
theorem leader_stable_two :
    Stable (relayerLeaderNode base58 "m")
        (fun p => encodedSum "m" (base58 p)) twoPeers ∧
      ∃ p, relayerLeaderNode base58 "m" [⟨[1]⟩, ⟨[2]⟩] = .ok p ∧
        leaderNode "m" ["2", "3"] = .ok (base58 p) := by
  have hone : base58 ⟨[1]⟩ = "2" := by decide +kernel
  have htwo : base58 ⟨[2]⟩ = "3" := by decide +kernel
  have hdiff : sum256 ("m" ++ "2").toUTF8.toList ≠
      sum256 ("m" ++ "3").toUTF8.toList := by decide +kernel
  have h := leader_stable base58 "m" (by decide) {"2", "3"} twoPeers
    (by
      rintro _ ⟨a, rfl | rfl, rfl⟩ _ ⟨b, rfl | rfl, rfl⟩ hab
      · rfl
      · exact absurd hab hdiff
      · exact absurd hab.symm hdiff
      · rfl)
    (by
      rintro p (rfl | rfl) q (rfl | rfl) hpq
      · rfl
      · rw [hone, htwo] at hpq
        exact absurd hpq (by decide)
      · rw [hone, htwo] at hpq
        exact absurd hpq (by decide)
      · rfl)
    (by
      rintro p (rfl | rfl)
      · exact Or.inl hone
      · exact Or.inr htwo)
  refine ⟨h.2.1, ?_⟩
  have hmap := h.2.2 [⟨[1]⟩, ⟨[2]⟩] (by decide)
    (by
      intro p hp
      rcases List.mem_cons.mp hp with rfl | hp
      · exact Or.inl rfl
      · exact Or.inr (List.mem_singleton.mp hp))
  rwa [List.map_cons, List.map_cons, List.map_nil, hone, htwo] at hmap

end RelayerLeader
