import Relayer.NewSessionProofs

/-! # How long a session is waited for

    The loop of `NewSession` in `node/bridge/node.go` looks at the topic once a
    second, under a context that ends after thirty seconds or when the node is
    shut down.  What the turns see is a sequence without an end; the loop itself
    has to stop.

    * `Observed` is such a sequence: the peers of every turn, the turn from
      which on the context is over, and why it is over;
    * `wait_succ` is one turn, `wait_eq_waiting` and `wait_eq_gaveUp` say what a
      loop that goes on, or that gave up, has seen;
    * **`admission_loop`**: when the loop stops, and what it stops with;
    * **`canceled_loop_spins`**: as only the deadline is tested for, a node that
      is shut down leaves the loop running. -/

namespace RelayerAdmission

open RelayerLeader RelayerNewSession RelayerSetup

/-! ## What the turns see -/

/-- `ctx.Err()` of a context that is over: `context.DeadlineExceeded` or
    `context.Canceled`. -/
inductive CtxErr where
  | deadlineExceeded
  | canceled
  deriving DecidableEq, Repr

/-- What the turns of the loop see.  A context that is over stays so, with the
    error it ended with. -/
structure Observed where
  topicPeers : ℕ → List PeerID
  rendezvousPeers : ℕ → List PeerID
  endedAt : ℕ
  reason : CtxErr

/-- `ctx.Err()` in turn `i`. -/
def Observed.ctxErr (o : Observed) (i : ℕ) : Option CtxErr :=
  if i < o.endedAt then none else some o.reason

/-- Turn `i`, with `errors.Is(ctx.Err(), context.DeadlineExceeded)`. -/
def Observed.poll (o : Observed) (i : ℕ) : Poll where
  topicPeers := o.topicPeers i
  rendezvousPeers := o.rendezvousPeers i
  deadlineExceeded := decide (o.ctxErr i = some .deadlineExceeded)

/-- `topicParticipants` of turn `i`. -/
def Observed.participants (o : Observed) (host : PeerID) (i : ℕ) :
    List PeerID :=
  o.topicPeers i ++ [host]

/-- The list of turn `i` passes the test. -/
def Observed.Qualifies (o : Observed) (host : PeerID) (i : ℕ) : Prop :=
  minConsensusNodesCount < (o.participants host i).length ∧
    (o.rendezvousPeers i).length / 2 + 1 < (o.participants host i).length

/-- The first `k` turns. -/
def Observed.polls (o : Observed) (k : ℕ) : List Poll :=
  (List.range k).map o.poll

/-- Where the loop is after `k` turns. -/
def Observed.wait (o : Observed) (host : PeerID) (k : ℕ) : Wait :=
  awaitParticipants host (o.polls k)

/-- The loop is left after some number of turns. -/
def Observed.Terminates (o : Observed) (host : PeerID) : Prop :=
  ∃ k, o.wait host k ≠ .waiting

variable {o : Observed} {host : PeerID}

/-- A turn sees the deadline once the context has ended by it. -/
theorem deadlineExceeded_poll (o : Observed) (i : ℕ) :
    (o.poll i).deadlineExceeded = true ↔
      o.endedAt ≤ i ∧ o.reason = .deadlineExceeded := by
  simp only [Observed.poll, Observed.ctxErr]
  split
  next hlt => simp [hlt]
  next hge => simp [not_lt.mp hge]

/-! ## The turns one after another -/

/-- A loop that was left stays left. -/
theorem await_concat (polls : List Poll) (poll : Poll) :
    awaitParticipants host (polls ++ [poll]) =
      if awaitParticipants host polls = .waiting then
        awaitParticipants host [poll]
      else awaitParticipants host polls := by
  induction polls with
  | nil => rfl
  | cons first rest ih =>
      rw [List.cons_append, awaitParticipants, awaitParticipants]
      split
      · rfl
      · split
        · rfl
        · exact ih

/-- **ONE TURN** of the loop. -/
theorem wait_succ (o : Observed) (host : PeerID) (k : ℕ) :
    o.wait host (k + 1) =
      if o.wait host k = .waiting then awaitParticipants host [o.poll k]
      else o.wait host k := by
  rw [Observed.wait, Observed.polls, List.range_succ, List.map_append]
  exact await_concat _ _

/-- What a turn can do: admit its list, give up, or go on. -/
theorem turn_cases (o : Observed) (host : PeerID) (i : ℕ) :
    (o.Qualifies host i ∧ awaitParticipants host [o.poll i] =
      .admitted (o.participants host i)) ∨
    (¬ o.Qualifies host i ∧ (o.endedAt ≤ i ∧ o.reason = .deadlineExceeded) ∧
      awaitParticipants host [o.poll i] = .gaveUp) ∨
    (¬ o.Qualifies host i ∧ ¬ (o.endedAt ≤ i ∧ o.reason = .deadlineExceeded) ∧
      awaitParticipants host [o.poll i] = .waiting) := by
  have henough : enough (o.participants host i).length
      (o.rendezvousPeers i).length = true ↔ o.Qualifies host i := enough_iff
  have hdead := deadlineExceeded_poll o i
  -- the count of the peers is looked at before the context is
  by_cases hq : o.Qualifies host i
  · left
    exact ⟨hq, if_pos (henough.mpr hq)⟩
  · right
    have hturn : awaitParticipants host [o.poll i] =
        if (o.poll i).deadlineExceeded then .gaveUp else .waiting :=
      if_neg (fun h => hq (henough.mp h))
    by_cases hd : (o.poll i).deadlineExceeded = true
    · left
      exact ⟨hq, hdead.mp hd, hturn.trans (if_pos hd)⟩
    · right
      exact ⟨hq, fun h => hd (hdead.mpr h), hturn.trans (if_neg hd)⟩

/-- **WHAT A LOOP THAT GOES ON HAS SEEN**: no list that qualifies, and not the
    deadline. -/
theorem wait_eq_waiting (o : Observed) (host : PeerID) (k : ℕ) :
    o.wait host k = .waiting ↔ ∀ i < k, ¬ o.Qualifies host i ∧
      ¬ (o.endedAt ≤ i ∧ o.reason = .deadlineExceeded) := by
  induction k with
  | zero => exact ⟨fun _ i hi => absurd hi (Nat.not_lt_zero i), fun _ => rfl⟩
  | succ k ih =>
      rw [wait_succ, Nat.forall_lt_succ_right, ← ih]
      split
      next hwait =>
          rw [and_iff_right hwait]
          rcases turn_cases o host k with ⟨hq, heq⟩ | ⟨-, hd, heq⟩ |
            ⟨hq, hd, heq⟩
          · simp [heq, hq]
          · simp [heq, hd]
          · exact ⟨fun _ => ⟨hq, hd⟩, fun _ => heq⟩
      next hwait => simp [hwait]

/-- **GIVING UP**: in the turn that sees the deadline first, with no list up to
    it that qualifies. -/
theorem wait_eq_gaveUp {k : ℕ} (h : o.wait host k = .gaveUp) :
    o.reason = .deadlineExceeded ∧ o.endedAt < k ∧
      ∀ i ≤ o.endedAt, ¬ o.Qualifies host i := by
  induction k with
  | zero => cases h
  | succ k ih =>
      rw [wait_succ] at h
      split at h
      next hwait =>
          have hbefore := (wait_eq_waiting o host k).mp hwait
          rcases turn_cases o host k with ⟨-, heq⟩ | ⟨hq, ⟨hend, hreason⟩, -⟩ |
            ⟨-, -, heq⟩
          · rw [heq] at h
            cases h
          · refine ⟨hreason, Nat.lt_succ_of_le hend, ?_⟩
            intro i hi
            -- turns before this one went on, and this one did not qualify
            rcases (hi.trans hend).lt_or_eq with hlt | rfl
            · exact (hbefore i hlt).1
            · exact hq
          · rw [heq] at h
            cases h
      next hwait =>
          obtain ⟨hreason, hend, hnone⟩ := ih h
          exact ⟨hreason, hend.trans (Nat.lt_succ_self k), hnone⟩

/-- **STOPPING**: the loop is left if and only if some list qualifies or the
    context ends by its deadline. -/
theorem terminates_iff (o : Observed) (host : PeerID) :
    o.Terminates host ↔
      (∃ i, o.Qualifies host i) ∨ o.reason = .deadlineExceeded := by
  constructor
  · rintro ⟨k, hk⟩
    -- some turn ended the wait, and a turn ends it in one of two ways
    rw [Ne, wait_eq_waiting] at hk
    push Not at hk
    obtain ⟨i, -, hi⟩ := hk
    by_cases hq : o.Qualifies host i
    · exact Or.inl ⟨i, hq⟩
    · exact Or.inr (hi hq).2
  · intro h
    -- the other way, the first such turn bounds the wait
    obtain ⟨i, hi⟩ : ∃ i, o.Qualifies host i ∨
        (o.endedAt ≤ i ∧ o.reason = .deadlineExceeded) := by
      rcases h with ⟨i, hq⟩ | hreason
      · exact ⟨i, Or.inl hq⟩
      · exact ⟨o.endedAt, Or.inr ⟨le_rfl, hreason⟩⟩
    refine ⟨i + 1, fun hwait => ?_⟩
    obtain ⟨hq, hd⟩ := (wait_eq_waiting o host (i + 1)).mp hwait i
      (Nat.lt_succ_self i)
    rcases hi with hi | hi
    · exact hq hi
    · exact hd hi

/-! ## What NewSession comes back with -/

variable {PK SG SK : Type}

/-- The elected leader is one of the participants. -/
theorem electLeader_mem (pretty : PeerID → String) {topic : String}
    (htopic : topic ≠ "") {view : List PeerID} (hview : view ≠ []) :
    electLeader pretty topic view ∈ view := by
  obtain ⟨p, hp, heq, -⟩ := leaderBy_spec pretty ⟨[]⟩ htopic hview
  rw [electLeader, relayerLeaderNode, heq]
  exact hp

/-- A node of the registry without a session has given up. -/
theorem newSession_noSession [Zero PK] [Zero SG] {pretty : PeerID → String}
    {topic : String} {r : Request PK SG SK}
    (h : r.newSession pretty topic = .noSession)
    (hexists : r.registry.nodeExists = true) :
    awaitParticipants r.host r.polls = .gaveUp := by
  rcases newSession_cases pretty topic r with ⟨err, heq⟩ | ⟨hnot, -⟩ |
    ⟨-, heq⟩ | ⟨hgaveUp, -⟩ | ⟨publicKeys, nodeId, view, -, -, heq⟩
  · rw [heq] at h
    cases h
  · rw [hexists] at hnot
    cases hnot
  · rw [heq] at h
    cases h
  · exact hgaveUp
  · rw [heq] at h
    cases h

/-- The node with the first `k` turns of a sequence. -/
def observing (r : Request PK SG SK) (o : Observed) (k : ℕ) :
    Request PK SG SK :=
  { r with polls := o.polls k }

/-- **THE ADMISSION LOOP**: whatever the turns see, the loop stops if and only
    if some list qualifies or the context ends by its deadline.  A session is
    made from a list that qualified, with a strict majority of it as threshold
    and one of it as leader (the topic of an event is its hash and not empty);
    and a registered node has no session only if the deadline was reached with
    no list before that qualified. -/
theorem admission_loop [Zero PK] [Zero SG] (pretty : PeerID → String)
    (topic : String) (r : Request PK SG SK) (o : Observed) :
    (o.Terminates r.host ↔
      (∃ i, o.Qualifies r.host i) ∨ o.reason = .deadlineExceeded) ∧
    (∀ k s, (observing r o k).newSession pretty topic = .created s →
      ∃ i < k, o.Qualifies r.host i ∧
        (o.participants r.host i).length < 2 * s.thresholdAck ∧
        (topic ≠ "" → s.leader ∈ o.participants r.host i)) ∧
    (∀ k, (observing r o k).newSession pretty topic = .noSession →
      r.registry.nodeExists = true →
      o.reason = .deadlineExceeded ∧ o.endedAt < k ∧
        ∀ i ≤ o.endedAt, ¬ o.Qualifies r.host i) := by
  refine ⟨terminates_iff o r.host, ?_, ?_⟩
  · intro k s hs
    obtain ⟨view, hmade⟩ := newSession_created hs
    obtain ⟨poll, hpoll, rfl, hmin, hrendezvous⟩ := hmade.admitted
    obtain ⟨i, hi, rfl⟩ := List.mem_map.mp hpoll
    refine ⟨i, List.mem_range.mp hi, ⟨hmin, hrendezvous⟩, ?_, ?_⟩
    · rw [hmade.thresholdAck]
      show ((o.topicPeers i ++ [r.host]).length : ℤ) <
        2 * ((o.topicPeers i ++ [r.host]).length / 2 + 1 : ℕ)
      omega
    · intro htopic
      rw [hmade.leader]
      exact electLeader_mem pretty htopic
        (List.ne_nil_of_mem hmade.host_mem)
  · intro k hs hexists
    exact wait_eq_gaveUp (newSession_noSession hs hexists)

/-- A node without peers that is shut down in its first turn. -/
def shutDown : Observed where
  topicPeers := fun _ => []
  rendezvousPeers := fun _ => []
  endedAt := 0
  reason := .canceled

/-- **A SHUT DOWN NODE SPINS**: its context is over from the first turn on, and
    after any number of turns it is still in the loop. -/
theorem canceled_loop_spins :
    (∀ i, shutDown.ctxErr i = some .canceled) ∧
    ∀ k, shutDown.wait (samplePeer 1) k = .waiting := by
  refine ⟨fun i => rfl, fun k => (wait_eq_waiting _ _ k).mpr fun i _ => ?_⟩
  constructor
  · rintro ⟨hmin, -⟩
    have hlen : 5 < 1 := hmin
    omega
  · rintro ⟨-, hreason⟩
    cases hreason

end RelayerAdmission
