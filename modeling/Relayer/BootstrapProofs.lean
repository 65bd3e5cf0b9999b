import Relayer.TransitionProofs

/-! # Joining the network

    `NewDHT` of `libp2p/dht.go`: after the checks of the addresses, every
    bootstrap peer but the node itself is connected to in a goroutine of its
    own.  If none of these connections is established, the peers that failed
    are tried again in up to ten rounds, with two minutes of sleep before each.

    `Boot.react` has the goroutines one by one, so that they end in any order,
    also while others are not started yet; `does_of_react` says what a step can
    do.

    * `Rounds` is the state of the loop and `Tally` counts the attempts to
      connect to one peer;
    * **`bootstrap_outcome`**: the call always comes to its end, within a number
      of steps that is known beforehand.  Every other peer was then tried as
      often as there were rounds.  There is another round only as long as
      nothing is connected, so that a peer that fails in a round in which
      another one succeeds is not tried again; and after ten rounds without
      success the call returns as if it had joined. -/

namespace RelayerBootstrap

open Transition

variable {A P : Type}

/-! ## The call -/

/-- How far the main goroutine is: at the loop that starts the goroutines and
    the `wg.Wait()` after it, in `time.Sleep`, or returned. -/
inductive Phase (P : Type) where
  | spawning (rest : List P)
  | sleeping
  | returned
deriving DecidableEq

/-- A call of `NewDHT` behind its checks.  `running` are the goroutines that
    have not called `wg.Done()`, and `round` is 0 before the loop of retries. -/
structure Boot (P : Type) where
  round : ℕ
  phase : Phase P
  running : List P
  retryPeers : List P
  connected : Bool

def Boot.start (bootstrapPeers : List P) : Boot P :=
  ⟨0, .spawning bootstrapPeers, [], [], false⟩

/-- The peers of the addresses; the first address that is not one of a peer is
    an error. -/
def bootstrapPeers (addrInfoFromP2pAddr : A → Except String P) :
    List A → Except String (List P)
  | [] => .ok []
  | addr :: addrs =>
      match addrInfoFromP2pAddr addr with
      | .error err =>
          .error ("bootstrap peer AddrInfoFromP2pAddr error: " ++ err)
      | .ok info => (bootstrapPeers addrInfoFromP2pAddr addrs).map (info :: ·)

/-- `NewDHT` up to the goroutines; `new` and `bootstrap` are how `dht.New` and
    `kdht.Bootstrap` end. -/
def newDHT (addrInfoFromP2pAddr : A → Except String P)
    (new bootstrap : Except String Unit) (bootstrapAddrs : List A) :
    Except String (Boot P) :=
  if bootstrapAddrs.length = 0 then .error "empty bootstrap peers"
  else do
    let peers ← bootstrapPeers addrInfoFromP2pAddr bootstrapAddrs
    new
    bootstrap.mapError ("can not bootstrap DHT on error: " ++ ·)
    .ok (Boot.start peers)

/-- The peers of all addresses, if each of them is one of a peer. -/
theorem bootstrapPeers_eq_ok {infoOf : A → Except String P} {addrs : List A}
    {peers : List P} :
    bootstrapPeers infoOf addrs = .ok peers ↔ addrs.map infoOf = peers.map .ok := by
  induction addrs generalizing peers with
  | nil =>
      rw [bootstrapPeers, List.map_nil, Except.ok.injEq, eq_comm,
        eq_comm (a := []), List.map_eq_nil_iff]
  | cons addr addrs ih =>
      rw [bootstrapPeers, List.map_cons]
      cases infoOf addr with
      | error err =>
          refine ⟨fun h => (by cases h), fun h => ?_⟩
          cases peers with
          | nil => cases h
          | cons p peers => cases (List.cons.inj h).1
      | ok info =>
          constructor
          · intro h
            cases hrest : bootstrapPeers infoOf addrs with
            | error err =>
                rw [hrest] at h
                cases h
            | ok rest =>
                rw [hrest] at h
                cases h
                rw [ih.mp hrest, List.map_cons]
          · intro h
            cases peers with
            | nil => cases h
            | cons p peers =>
                obtain ⟨hinfo, hrest⟩ := List.cons.inj h
                cases hinfo
                rw [ih.mpr hrest]
                rfl

/-- **WHEN IT CONNECTS**: the call comes to its goroutines if there are
    addresses, all of peers, and the table could be made; and then with the
    peers of all addresses. -/
theorem newDHT_eq_ok {infoOf : A → Except String P} {new bootstrap : Except String Unit}
    {addrs : List A} {b : Boot P} :
    newDHT infoOf new bootstrap addrs = .ok b ↔
      addrs ≠ [] ∧ new = .ok () ∧ bootstrap = .ok () ∧
        ∃ peers, addrs.map infoOf = peers.map .ok ∧ b = Boot.start peers := by
  rw [newDHT]
  cases addrs with
  | nil => exact ⟨fun h => (by cases h), fun h => absurd rfl h.1⟩
  | cons addr addrs =>
      rw [if_neg (by simp)]
      constructor
      · intro h
        cases hpeers : bootstrapPeers infoOf (addr :: addrs) with
        | error err =>
            rw [hpeers] at h
            cases h
        | ok peers =>
            rw [hpeers] at h
            cases new with
            | error err => cases h
            | ok u =>
                cases bootstrap with
                | error err => cases h
                | ok v =>
                    cases h
                    exact ⟨List.cons_ne_nil _ _, rfl, rfl, peers,
                      bootstrapPeers_eq_ok.mp hpeers, rfl⟩
      · rintro ⟨-, rfl, rfl, peers, hpeers, rfl⟩
        rw [bootstrapPeers_eq_ok.mpr hpeers]
        rfl

inductive Event where
  /-- The loop comes to the next peer. -/
  | spawns
  /-- `host.Connect` returns in a goroutine. -/
  | finishes (i : ℕ) (succeeds : Bool)
  /-- `wg.Wait()` returns. -/
  | waited
  | wakes

inductive Output (P : Type) where
  | quiet
  | dials (peer : P)
  | ended (peer : P) (succeeds : Bool)

/-- `retryCount`. -/
def retryCount : ℕ := 10

/-- One step, if it is possible; `own` are the peers with the id of the
    host. -/
def Boot.react (own : P → Bool) (b : Boot P) : Event → Option (Boot P × Output P)
  | .spawns =>
      match b.phase with
      | .spawning (p :: rest) =>
          -- only the first round looks at the id
          if b.round = 0 ∧ own p = true then
            some ({ b with phase := .spawning rest }, .quiet)
          else
            some ({ b with
              phase := .spawning rest
              running := b.running ++ [p] }, .dials p)
      | _ => none
  | .finishes i succeeds =>
      match b.running[i]? with
      | some p =>
          if succeeds then
            some ({ b with
              running := b.running.eraseIdx i
              connected := true }, .ended p true)
          else
            -- the goroutines of the retries do not append
            some ({ b with
              running := b.running.eraseIdx i
              retryPeers :=
                if b.round = 0 then b.retryPeers ++ [p] else b.retryPeers },
              .ended p false)
      | none => none
  | .waited =>
      match b.phase, b.running with
      | .spawning [], [] =>
          if b.connected = true ∨ b.round = retryCount then
            some ({ b with phase := .returned }, .quiet)
          else some ({ b with phase := .sleeping }, .quiet)
      | _, _ => none
  | .wakes =>
      match b.phase with
      | .sleeping =>
          some ({ b with
            round := b.round + 1
            phase := .spawning b.retryPeers }, .quiet)
      | _ => none

/-! ## What a step does -/

variable {own : P → Bool} {b b' : Boot P} {l : Event × Output P}

/-- The steps of the call. -/
inductive Does (own : P → Bool) (b : Boot P) :
    Event × Output P → Boot P → Prop
  | skips {p : P} {rest : List P} (hphase : b.phase = .spawning (p :: rest))
      (hround : b.round = 0) (hself : own p = true) :
      Does own b (.spawns, .quiet) { b with phase := .spawning rest }
  | spawns {p : P} {rest : List P} (hphase : b.phase = .spawning (p :: rest))
      (hother : b.round = 0 → own p = false) :
      Does own b (.spawns, .dials p) { b with
        phase := .spawning rest
        running := b.running ++ [p] }
  | connects {i : ℕ} {p : P} (hi : b.running[i]? = some p) :
      Does own b (.finishes i true, .ended p true) { b with
        running := b.running.eraseIdx i
        connected := true }
  | fails {i : ℕ} {p : P} (hi : b.running[i]? = some p) :
      Does own b (.finishes i false, .ended p false) { b with
        running := b.running.eraseIdx i
        retryPeers := if b.round = 0 then b.retryPeers ++ [p] else b.retryPeers }
  | returns (hphase : b.phase = .spawning []) (hrunning : b.running = [])
      (hend : b.connected = true ∨ b.round = retryCount) :
      Does own b (.waited, .quiet) { b with phase := .returned }
  | sleeps (hphase : b.phase = .spawning []) (hrunning : b.running = [])
      (hconn : b.connected = false) (hround : b.round ≠ retryCount) :
      Does own b (.waited, .quiet) { b with phase := .sleeping }
  | wakes (hphase : b.phase = .sleeping) :
      Does own b (.wakes, .quiet) { b with
        round := b.round + 1
        phase := .spawning b.retryPeers }

/-- **WHAT A STEP DOES**. -/
theorem does_of_react (h : Fires (Boot.react own) b l b') : Does own b l b' := by
  obtain ⟨e, o⟩ := l
  have hreact : b.react own e = some (b', o) := h
  cases e with
  | spawns =>
      rw [Boot.react] at hreact
      split at hreact
      · rename_i p rest hphase
        split at hreact
        · rename_i hskip
          cases hreact
          exact Does.skips hphase hskip.1 hskip.2
        · rename_i hskip
          cases hreact
          -- only the first round looks whether the peer is the host
          refine Does.spawns hphase fun hround => ?_
          exact Bool.eq_false_iff.mpr fun hself => hskip ⟨hround, hself⟩
      · cases hreact
  | finishes i succeeds =>
      rw [Boot.react] at hreact
      split at hreact
      · rename_i p hi
        cases succeeds with
        | true =>
            cases hreact
            exact Does.connects hi
        | false =>
            cases hreact
            exact Does.fails hi
      · cases hreact
  | waited =>
      rw [Boot.react] at hreact
      split at hreact
      · rename_i hphase hrunning
        split at hreact
        · rename_i hend
          cases hreact
          exact Does.returns hphase hrunning hend
        · rename_i hgo
          obtain ⟨hconn, hround⟩ := not_or.mp hgo
          cases hreact
          exact Does.sleeps hphase hrunning (Bool.eq_false_iff.mpr hconn) hround
      · cases hreact
  | wakes =>
      rw [Boot.react] at hreact
      split at hreact
      · rename_i hphase
        cases hreact
        exact Does.wakes hphase
      · cases hreact

/-- A call that has not returned has a next step. -/
theorem exists_react (hphase : b.phase ≠ .returned) :
    ∃ e, (b.react own e).isSome = true := by
  cases hp : b.phase with
  | returned => exact absurd hp hphase
  | sleeping =>
      refine ⟨.wakes, ?_⟩
      rw [Boot.react, hp]
      rfl
  | spawning rest =>
      cases rest with
      | cons p rest =>
          refine ⟨.spawns, ?_⟩
          simp only [Boot.react, hp]
          split <;> rfl
      | nil =>
          cases hrunning : b.running with
          | nil =>
              refine ⟨.waited, ?_⟩
              simp only [Boot.react, hp, hrunning]
              split <;> rfl
          | cons p running =>
              refine ⟨.finishes 0 true, ?_⟩
              simp only [Boot.react, hrunning]
              rfl

/-! ## Rounds -/

/-- The peer a step starts to connect to. -/
def dialed (l : Event × Output P) : Option P :=
  match l.2 with
  | .dials p => some p
  | _ => none

/-- The peer a step has connected to. -/
def joined (l : Event × Output P) : Option P :=
  match l.2 with
  | .ended p true => some p
  | _ => none

/-- The step begins a round of retries. -/
def isWake (l : Event × Output P) : Bool :=
  match l.1 with
  | .wakes => true
  | _ => false

variable {tr : List (Event × Output P)}

/-- What the call knows of its past. -/
structure Recorded (tr : List (Event × Output P)) (b : Boot P) : Prop where
  round : b.round = tr.countP isWake
  connected : b.connected = true ↔ tr.filterMap joined ≠ []

/-- A step that neither connects nor begins a round. -/
theorem Recorded.quiet (h : Recorded tr b) (hwake : isWake l = false)
    (hjoined : joined l = none) (hround : b'.round = b.round)
    (hconn : b'.connected = b.connected) : Recorded (tr ++ [l]) b' where
  round := by
    rw [hround, h.round, List.countP_append, List.countP_singleton, hwake]
    rfl
  connected := by
    rw [hconn, h.connected, filterMap_concat, hjoined]
    exact not_congr (by rw [Option.toList_none, List.append_nil])

/-- Every step is recorded. -/
theorem Recorded.does (h : Recorded tr b) (hdoes : Does own b l b') :
    Recorded (tr ++ [l]) b' := by
  cases hdoes with
  | skips | spawns | fails | returns | sleeps => exact h.quiet rfl rfl rfl rfl
  | @connects i p hi =>
      refine ⟨?_, fun _ => ?_, fun _ => rfl⟩
      · rw [List.countP_append]
        exact h.round
      · rw [filterMap_concat]
        exact List.append_ne_nil_of_right_ne_nil _ (List.cons_ne_nil p [])
  | wakes hphase =>
      refine ⟨?_, ?_⟩
      · rw [List.countP_append, ← h.round]
        rfl
      · rw [filterMap_concat]
        exact h.connected.trans (not_congr (by
          rw [joined, Option.toList_none, List.append_nil]))

/-- The state of the loop.  The host itself is left out in the first round, and
    so it is in all of them. -/
structure Rounds (own : P → Bool) (b : Boot P) : Prop where
  bound : b.round ≤ retryCount
  sleeping : b.phase = .sleeping →
    b.round < retryCount ∧ b.connected = false ∧ b.running = []
  returned : b.phase = .returned →
    b.connected = true ∨ b.round = retryCount
  running : ∀ p ∈ b.running, own p = false
  retried : ∀ p ∈ b.retryPeers, own p = false
  rest : ∀ rest, b.phase = .spawning rest → b.round ≠ 0 →
    ∀ p ∈ rest, own p = false

/-- The first round, with nothing running. -/
theorem rounds_start (bootstrapPeers : List P) :
    Rounds own (Boot.start bootstrapPeers) where
  bound := Nat.zero_le _
  sleeping h := by cases h
  returned h := by cases h
  running _ hp := absurd hp List.not_mem_nil
  retried _ hp := absurd hp List.not_mem_nil
  rest _ _ hround := absurd rfl hround

/-- A step of the loop that starts the goroutines. -/
theorem Rounds.advance (h : Rounds own b) {p : P} {rest : List P}
    (hphase : b.phase = .spawning (p :: rest)) {running : List P}
    (hrunning : ∀ q ∈ running, own q = false) :
    Rounds own { b with phase := .spawning rest, running := running } where
  bound := h.bound
  sleeping hp := by cases hp
  returned hp := by cases hp
  running := hrunning
  retried := h.retried
  rest rest' heq hround := by
    cases heq
    exact fun q hq => h.rest _ hphase hround q (List.mem_cons_of_mem _ hq)

/-- The end of a goroutine. -/
theorem Rounds.finish (h : Rounds own b) {i : ℕ} {p : P}
    (hi : b.running[i]? = some p) {retryPeers : List P} {connected : Bool}
    (hretry : ∀ q ∈ retryPeers, own q = false)
    (hconn : b.connected = true → connected = true) :
    Rounds own { b with
      running := b.running.eraseIdx i
      retryPeers := retryPeers
      connected := connected } where
  bound := h.bound
  sleeping hp := by
    have hmem := List.mem_of_getElem? hi
    rw [(h.sleeping hp).2.2] at hmem
    exact absurd hmem List.not_mem_nil
  returned hp := (h.returned hp).imp hconn id
  running q hq := h.running q (List.mem_of_mem_eraseIdx hq)
  retried := hretry
  rest := h.rest

/-- **EVERY STEP** keeps the rounds in order. -/
theorem Rounds.does (h : Rounds own b) (hdoes : Does own b l b') :
    Rounds own b' := by
  cases hdoes with
  | skips hphase => exact h.advance hphase h.running
  -- a peer is spawned in the first round unless it is the host, and later ones
  -- have none of it
  | @spawns p rest hphase hother =>
      refine h.advance hphase (List.forall_mem_append.mpr
        ⟨h.running, List.forall_mem_singleton.mpr ?_⟩)
      by_cases hround : b.round = 0
      · exact hother hround
      · exact h.rest _ hphase hround p List.mem_cons_self
  | connects hi => exact h.finish hi h.retried (fun _ => rfl)
  | @fails i p hi =>
      refine h.finish hi (fun q hq => ?_) id
      split at hq
      · rcases List.mem_append.mp hq with hq | hq
        · exact h.retried q hq
        · rw [List.mem_singleton.mp hq]
          exact h.running p (List.mem_of_getElem? hi)
      · exact h.retried q hq
  | returns hphase hrunning hend =>
      exact {
        bound := h.bound
        sleeping := fun hp => (by cases hp)
        returned := fun _ => hend
        running := h.running
        retried := h.retried
        rest := fun _ hp => (by cases hp) }
  | sleeps hphase hrunning hconn hround =>
      exact {
        bound := h.bound
        sleeping := fun _ => ⟨Nat.lt_of_le_of_ne h.bound hround, hconn, hrunning⟩
        returned := fun hp => (by cases hp)
        running := h.running
        retried := h.retried
        rest := fun _ hp => (by cases hp) }
  | wakes hphase =>
      exact {
        bound := (h.sleeping hphase).1
        sleeping := fun hp => (by cases hp)
        returned := fun hp => (by cases hp)
        running := h.running
        retried := h.retried
        rest := by
          intro rest heq _
          cases heq
          exact h.retried }

/-! ## Attempts -/

section Attempts

variable [DecidableEq P] {peers : List P} {p : P}

/-- How often a peer is among those that are not the host. -/
def others (own : P → Bool) (peers : List P) (p : P) : ℕ :=
  (peers.filter (fun q => !own q)).count p

/-- How often a peer is still to be started in the round. -/
def due (own : P → Bool) (p : P) : Phase P → ℕ
  | .spawning rest => others own rest p
  | _ => 0

/-- The attempts to connect to a peer: one in each round, and all those of the
    first one that has failed are tried in the others. -/
structure Tally (own : P → Bool) (peers : List P) (p : P)
    (tr : List (Event × Output P)) (b : Boot P) : Prop where
  attempts : (tr.filterMap dialed).count p + due own p b.phase =
    (b.round + 1) * others own peers p
  first : b.connected = false → b.round = 0 →
    b.retryPeers.count p + b.running.count p + due own p b.phase =
      others own peers p
  again : b.round ≠ 0 ∨ b.phase = .sleeping →
    b.retryPeers.count p = others own peers p

/-- Nobody was dialed, and all are to be. -/
theorem tally_start : Tally own peers p [] (Boot.start peers) where
  attempts := by
    show 0 + others own peers p = (0 + 1) * others own peers p
    omega
  first _ _ := by
    show 0 + 0 + others own peers p = others own peers p
    omega
  again h := by
    rcases h with h | h
    · exact absurd rfl h
    · cases h

theorem others_cons_own {q : P} {rest : List P} (h : own q = true) :
    others own (q :: rest) p = others own rest p := by
  rw [others, List.filter_cons_of_neg (by rw [h]; decide), others]

theorem others_cons_other {q : P} {rest : List P} (h : own q = false) :
    others own (q :: rest) p = others own rest p + [q].count p := by
  rw [others, List.filter_cons_of_pos (by rw [h]; rfl), ← List.singleton_append,
    List.count_append, Nat.add_comm, others]

theorem others_eq_count {rest : List P} (h : ∀ q ∈ rest, own q = false) :
    others own rest p = rest.count p := by
  rw [others, List.filter_eq_self.mpr fun q hq => by rw [h q hq]; rfl]

/-- The host does not dial itself. -/
theorem others_eq_ite : others own peers p = if own p then 0 else peers.count p := by
  split
  · rename_i hown
    refine List.count_eq_zero.mpr fun hmem => ?_
    have hother := (List.mem_filter.mp hmem).2
    rw [hown] at hother
    cases hother
  · rename_i hother
    exact List.count_filter (by rw [Bool.eq_false_iff.mpr hother]; rfl)

theorem count_eraseIdx {running : List P} {i : ℕ} {q : P}
    (hi : running[i]? = some q) :
    running.count p = (running.eraseIdx i).count p + [q].count p := by
  obtain ⟨hlt, rfl⟩ := List.getElem?_eq_some_iff.mp hi
  rw [← (List.getElem_cons_eraseIdx_perm hlt).count_eq, ← List.singleton_append,
    List.count_append, Nat.add_comm]

/-- No attempt is begun. -/
theorem dialed_quiet (hl : dialed l = none) :
    ((tr ++ [l]).filterMap dialed).count p = (tr.filterMap dialed).count p := by
  rw [filterMap_concat, hl, Option.toList_none, List.append_nil]

/-- Nothing is dialed, and as many attempts are due as before. -/
theorem Tally.passes (h : Tally own peers p tr b) (hl : dialed l = none)
    {phase : Phase P} (hdue : due own p phase = due own p b.phase)
    (hagain : b.round ≠ 0 ∨ phase = .sleeping →
      b.retryPeers.count p = others own peers p) :
    Tally own peers p (tr ++ [l]) { b with phase := phase } where
  attempts := by
    rw [dialed_quiet hl, ← h.attempts, ← hdue]
  first hconn hzero := by
    rw [← h.first hconn hzero, ← hdue]
  again := hagain

/-- **EVERY STEP** keeps the tally of a peer. -/
theorem Tally.does (h : Tally own peers p tr b) (hrounds : Rounds own b)
    (hdoes : Does own b l b') : Tally own peers p (tr ++ [l]) b' := by
  have hdialed := h.attempts
  -- outside of a sleep the retried peers change in the first round only
  have hagain : ∀ {phase : Phase P}, phase ≠ .sleeping →
      b.round ≠ 0 ∨ phase = .sleeping →
      b.retryPeers.count p = others own peers p :=
    fun hphase hor => h.again (Or.inl (hor.resolve_right hphase))
  cases hdoes with
  | @skips q rest hphase hround hself =>
      refine h.passes rfl ?_ (hagain (by simp))
      rw [hphase]
      exact (others_cons_own hself).symm
  | @spawns q rest hphase hother =>
      have hq : own q = false := by
        by_cases hround : b.round = 0
        · exact hother hround
        · exact hrounds.rest _ hphase hround q List.mem_cons_self
      have hdue : due own p b.phase = others own rest p + [q].count p := by
        rw [hphase]
        exact others_cons_other hq
      rw [hdue] at hdialed
      refine ⟨?_, fun hconn hzero => ?_, hagain (by simp)⟩
      · rw [filterMap_concat, List.count_append]
        show (tr.filterMap dialed).count p + [q].count p + others own rest p =
          (b.round + 1) * others own peers p
        omega
      · have hfirst := h.first hconn hzero
        rw [hdue] at hfirst
        show b.retryPeers.count p + (b.running ++ [q]).count p +
          others own rest p = others own peers p
        rw [List.count_append]
        omega
  | @connects i q hi =>
      refine ⟨?_, fun hconn => (by cases hconn), h.again⟩
      rw [dialed_quiet rfl]
      exact hdialed
  | @fails i q hi =>
      refine ⟨?_, fun hconn hzero => ?_, fun hor => ?_⟩
      · rw [dialed_quiet rfl]
        exact hdialed
      -- a peer of the first round that fails goes from the running to the retried
      · have hfirst := h.first hconn hzero
        rw [count_eraseIdx hi] at hfirst
        show (if b.round = 0 then b.retryPeers ++ [q] else b.retryPeers).count p +
          (b.running.eraseIdx i).count p + due own p b.phase = _
        rw [if_pos hzero, List.count_append]
        omega
      · have hne : b.round ≠ 0 := by
          rcases hor with hne | hsleep
          · exact hne
          · have hmem := List.mem_of_getElem? hi
            rw [(hrounds.sleeping hsleep).2.2] at hmem
            exact absurd hmem List.not_mem_nil
        show (if b.round = 0 then b.retryPeers ++ [q] else b.retryPeers).count p = _
        rw [if_neg hne]
        exact h.again (Or.inl hne)
  | returns hphase hrunning hend =>
      refine h.passes rfl ?_ (hagain (by simp))
      rw [hphase]
      rfl
  | sleeps hphase hrunning hconn hround =>
      have hdue : due own p b.phase = 0 := by
        rw [hphase]
        rfl
      refine h.passes rfl hdue.symm fun _ => ?_
      by_cases hzero : b.round = 0
      · -- all of the first round have failed
        have hfirst := h.first hconn hzero
        rw [hdue, hrunning, List.count_nil] at hfirst
        exact hfirst
      · exact h.again (Or.inl hzero)
  | wakes hphase =>
      have hretry := h.again (Or.inr hphase)
      have hdue : due own p b.phase = 0 := by
        rw [hphase]
        rfl
      refine ⟨?_, fun _ hzero => absurd hzero (Nat.succ_ne_zero _), fun _ => hretry⟩
      rw [dialed_quiet rfl]
      -- a new round has the retried peers to dial once more
      show (tr.filterMap dialed).count p + others own b.retryPeers p =
        (b.round + 1 + 1) * others own peers p
      rw [others_eq_count hrounds.retried, hretry, Nat.succ_mul, ← hdialed, hdue,
        Nat.add_zero]

/-! ## The end of the call -/

/-- What is known of a call that has come this far. -/
structure Booting (own : P → Bool) (peers : List P)
    (tr : List (Event × Output P)) (b : Boot P) : Prop where
  recorded : Recorded tr b
  rounds : Rounds own b
  tally : ∀ p, Tally own peers p tr b

theorem Booting.does (h : Booting own peers tr b) (hdoes : Does own b l b') :
    Booting own peers (tr ++ [l]) b' where
  recorded := h.recorded.does hdoes
  rounds := h.rounds.does hdoes
  tally p := (h.tally p).does h.rounds hdoes

/-- What holds along a run of `NewDHT`. -/
theorem booting {peers : List P} {tr : List (Event × Output P)} {b : Boot P}
    (hrun : Run (Fires (Boot.react own)) (Boot.start peers) tr b) :
    Booting own peers tr b := by
  refine hrun.traced (P := Booting own peers)
    ⟨?_, rounds_start peers, fun _ => tally_start⟩ ?_
  · exact ⟨rfl, fun h => (by cases h), fun h => absurd rfl h⟩
  · intro tr a l b h hfires
    exact h.does (does_of_react hfires)

/-- The steps that are left in the round. -/
def Phase.left : Phase P → ℕ
  | .spawning rest => 2 * rest.length + 1
  | _ => 0

/-- The steps that are left of a call with `n` bootstrap peers. -/
def Boot.left (n : ℕ) (b : Boot P) : ℕ :=
  (retryCount - b.round) * (2 * n + 2) + b.phase.left + b.running.length

/-- Each step takes one from what is left at least. -/
theorem left_does (h : Booting own peers tr b) (hdoes : Does own b l b') :
    b'.left peers.length < b.left peers.length := by
  cases hdoes with
  | skips hphase =>
      simp only [Boot.left, hphase, Phase.left, List.length_cons]
      omega
  | spawns hphase =>
      simp only [Boot.left, hphase, Phase.left, List.length_cons,
        List.length_append, List.length_nil]
      omega
  | connects hi | fails hi =>
      obtain ⟨hlt, -⟩ := List.getElem?_eq_some_iff.mp hi
      simp only [Boot.left, List.length_eraseIdx_of_lt hlt]
      omega
  | returns hphase | sleeps hphase =>
      simp only [Boot.left, hphase, Phase.left]
      omega
  | wakes hphase =>
      -- the retried peers are all peers but the host
      have hlen : b.retryPeers.length ≤ peers.length := by
        have hperm : b.retryPeers.Perm (peers.filter (fun q => !own q)) :=
          List.perm_iff_count.mpr fun p => (h.tally p).again (Or.inr hphase)
        rw [hperm.length_eq]
        exact List.length_filter_le _ _
      have hround := (h.rounds.sleeping hphase).1
      have hrest : (retryCount - b.round) * (2 * peers.length + 2) =
          (retryCount - (b.round + 1)) * (2 * peers.length + 2) +
            (2 * peers.length + 2) := by
        rw [← Nat.succ_mul]
        congr 1
        omega
      simp only [Boot.left, hphase, Phase.left, hrest]
      omega

/-- **THE CALL ENDS**: the goroutines may end in any order and with any results,
    a call with `n` bootstrap peers makes at most `22 n + 21` steps and stops
    only when it has returned.  It has then tried every peer that is not the
    host once in each round, `connected` says whether one of the attempts
    succeeded, and where none did all ten rounds of retries were made.  Nothing
    had succeeded when a round of retries began. -/
theorem bootstrap_outcome {peers : List P} {tr : List (Event × Output P)}
    {b : Boot P}
    (hrun : Run (Fires (Boot.react own)) (Boot.start peers) tr b) :
    tr.length ≤ 22 * peers.length + 21 ∧
    (b.phase ≠ .returned → ∃ e, (b.react own e).isSome = true) ∧
    (b.phase = .returned →
      (∀ p, (tr.filterMap dialed).count p =
        if own p then 0 else (tr.countP isWake + 1) * peers.count p) ∧
      (b.connected = true ↔ tr.filterMap joined ≠ []) ∧
      (tr.filterMap joined = [] → tr.countP isWake = 10)) ∧
    tr.countP isWake ≤ 10 ∧
    (∀ tr₁ l tr₂, tr = tr₁ ++ l :: tr₂ → isWake l = true →
      tr₁.filterMap joined = []) := by
  have hlength : tr.length + b.left peers.length ≤
      (Boot.start peers).left peers.length := by
    refine (hrun.length_add_le (P := fun b => ∃ tr, Booting own peers tr b)
      (fun b => b.left peers.length) ⟨[], booting Run.refl⟩ ?_).2
    rintro a l b ⟨tr, h⟩ hfires
    have hdoes := does_of_react hfires
    exact ⟨⟨_, h.does hdoes⟩, left_does h hdoes⟩
  have h := booting hrun
  have hstart : (Boot.start peers).left peers.length = 22 * peers.length + 21 := by
    simp only [Boot.left, Boot.start, Phase.left, retryCount, List.length_nil]
    omega
  refine ⟨by omega, exists_react, fun hphase => ⟨fun p => ?_,
    h.recorded.connected, fun hnone => ?_⟩, h.recorded.round ▸ h.rounds.bound, ?_⟩
  · have hattempts := (h.tally p).attempts
    rw [hphase, others_eq_ite] at hattempts
    rw [← h.recorded.round]
    refine hattempts.trans ?_
    split
    · exact Nat.mul_zero _
    · rfl
  · rw [← h.recorded.round]
    refine (h.rounds.returned hphase).resolve_left fun hconn => ?_
    exact h.recorded.connected.mp hconn hnone
  -- a round begins after a sleep, and a sleep with nothing connected
  · rintro tr₁ l tr₂ rfl hwake
    obtain ⟨a, a', hbefore, hfires, -⟩ := hrun.split
    have ha := booting hbefore
    have hsleeping : a.phase = .sleeping := by
      cases does_of_react hfires with
      | wakes hphase => exact hphase
      | skips | spawns | connects | fails | returns | sleeps => cases hwake
    by_contra hne
    have hconn := ha.recorded.connected.mpr hne
    rw [(ha.rounds.sleeping hsleeping).2.1] at hconn
    cases hconn

/-- The host and a peer that answers in the second round. -/
def sampleEvents : List Event :=
  [.spawns, .spawns, .finishes 0 false, .waited, .wakes, .spawns,
    .finishes 0 true, .waited]

/-- The host and one peer, which is reached in the second round. -/
theorem bootstrap_outcome_sample :
    ∃ tr, ∃ b : Boot ℕ,
      Run (Fires (Boot.react (· == 0))) (Boot.start [0, 1]) tr b ∧
      b.phase = .returned ∧ tr.countP isWake = 1 ∧
      (tr.filterMap dialed).count 0 = 0 ∧ (tr.filterMap dialed).count 1 = 2 := by
  obtain ⟨tr, b, hrun, hphase, hwakes⟩ := exists_run
    (fun tr (b : Boot ℕ) => b.phase = .returned ∧ tr.countP isWake = 1)
    (show (execute (Boot.react (· == 0)) (Boot.start [0, 1])
      sampleEvents).any _ = true by decide +kernel)
  have hdials := ((bootstrap_outcome hrun).2.2.1 hphase).1
  rw [hwakes] at hdials
  exact ⟨tr, b, hrun, hphase, hwakes, hdials 0, hdials 1⟩

end Attempts

end RelayerBootstrap
