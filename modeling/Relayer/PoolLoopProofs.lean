import Relayer.PoolProofs
import Relayer.TransitionProofs

/-! # The goroutine of the transaction pool

    `NewTxPool` of `chain/tx_pool.go` starts `loop`, which reads two buffered
    channels: events for the pool, and new heads of the chain.  Anybody may send
    events and ask for `Pending` meanwhile, and `Stop` waits for the loop.  What
    the loop and `Pending` do under the mutex of the pool is one step.

    * `Good`: what is true in every reachable state, from one lemma for every
      kind of step (`Good.does`);
    * **`events_pass`**: the events of the channel are added in the order in
      which they were sent, each once; `Pending` answers those handled so far;
      the loop panics only over a head that the chain did not have at the
      start; and `Stop` never returns;
    * **`loop_drains`**: the loop can always go on until both channels are
      empty. -/

namespace RelayerPoolLoop

open Transition RelayerPool RelayerTransaction

variable {A D B : Type}

/-! ## The loop and its callers -/

/-- `chainHeadChanSize`, and the size of `EventSourceReq`. -/
def chanSize : ℕ := 10

/-- Where the loop is: in its `select`, or with something received. -/
inductive Loop (A D B : Type) where
  | selecting
  | adding (ev : Option (BridgeOracleRequest A D))
  | resetting (block : Option B)

/-- Where a call of `Stop` is. -/
inductive Stop where
  | unsubscribing
  | waiting
  | returned
  deriving DecidableEq

/-- How the process has ended. -/
inductive Crash where
  /-- `head.Header` of a nil head. -/
  | nilHead
  | pool (p : Panic)
  deriving DecidableEq

/-- A pool with its channels, its goroutine and the calls of `Stop`. -/
structure System (A D B : Type) where
  pool : TxPool A D
  eventSourceReq : List (Option (BridgeOracleRequest A D))
  chainHeadCh : List (Option B)
  head : Option B
  loop : Loop A D B
  wg : ℕ
  subscribed : Bool
  stops : List Stop
  crash : Option Crash

/-- `NewTxPool`, with `go pool.loop()` at its `select`; `current` is the answer
    of `CurrentBlock`. -/
def newPool (current : Option B) : System A D B where
  pool := newTxPool
  eventSourceReq := []
  chainHeadCh := []
  head := current
  loop := .selecting
  wg := 1
  subscribed := true
  stops := []
  crash := none

inductive Event (A D B : Type) where
  | sendsEvent (ev : Option (BridgeOracleRequest A D))
  | sendsHead (block : Option B)
  | receivesEvent
  | receivesHead
  | handles
  | pending (ranges : RangeOrders A D)
  | stops
  | unsubscribes (i : ℕ)
  | returns (i : ℕ)

/-- What a step shows: an event received, or the answer of `Pending`. -/
inductive Output (A D : Type) where
  | quiet
  | received (ev : Option (BridgeOracleRequest A D))
  | answered (txs : A → Option (List (Transaction (BridgeOracleRequest A D))))

variable [DecidableEq A]

/-- The body of a case of the `select`. -/
def System.handle (s : System A D B) : Option (System A D B) :=
  match s.loop with
  | .selecting => none
  | .adding none => some { s with loop := .selecting }
  | .adding (some ev) =>
      match s.pool.addEvent ev with
      | .ok pool => some { s with pool := pool, loop := .selecting }
      | .error p => some { s with crash := some (.pool p) }
  | .resetting none => some { s with loop := .selecting }
  | .resetting (some block) =>
      match s.head with
      | some _ => some { s with head := some block, loop := .selecting }
      | none => some { s with crash := some .nilHead }

/-- One step; `none` where it cannot happen now. -/
def System.step (s : System A D B) :
    Event A D B → Option (System A D B × Output A D)
  | .sendsEvent ev =>
      if s.eventSourceReq.length < chanSize then
        some ({ s with eventSourceReq := s.eventSourceReq ++ [ev] }, .quiet)
      else none
  | .sendsHead block =>
      if s.subscribed ∧ s.chainHeadCh.length < chanSize then
        some ({ s with chainHeadCh := s.chainHeadCh ++ [block] }, .quiet)
      else none
  | .receivesEvent =>
      match s.loop, s.eventSourceReq with
      | .selecting, ev :: rest =>
          some ({ s with eventSourceReq := rest, loop := .adding ev },
            .received ev)
      | _, _ => none
  | .receivesHead =>
      match s.loop, s.chainHeadCh with
      | .selecting, block :: rest =>
          some ({ s with chainHeadCh := rest, loop := .resetting block }, .quiet)
      | _, _ => none
  | .handles => s.handle.map (·, .quiet)
  | .pending ranges =>
      some ({ s with pool := (s.pool.pendingTxs ranges).2 },
        .answered (s.pool.pendingTxs ranges).1)
  | .stops => some ({ s with stops := s.stops ++ [.unsubscribing] }, .quiet)
  | .unsubscribes i =>
      if s.stops[i]? = some .unsubscribing then
        some ({ s with subscribed := false, stops := s.stops.set i .waiting },
          .quiet)
      else none
  | .returns i =>
      if s.stops[i]? = some .waiting ∧ s.wg = 0 then
        some ({ s with stops := s.stops.set i .returned }, .quiet)
      else none

/-- A process that has panicked does nothing any more. -/
def System.react (s : System A D B) (e : Event A D B) :
    Option (System A D B × Output A D) :=
  match s.crash with
  | none => s.step e
  | some _ => none

/-- What a step can be, with what it needs and what it changes. -/
inductive Does (s : System A D B) :
    Event A D B → Output A D → System A D B → Prop
  | sendsEvent {ev} (hroom : s.eventSourceReq.length < chanSize) :
      Does s (.sendsEvent ev) .quiet
        { s with eventSourceReq := s.eventSourceReq ++ [ev] }
  | sendsHead {block} (hroom : s.chainHeadCh.length < chanSize) :
      Does s (.sendsHead block) .quiet
        { s with chainHeadCh := s.chainHeadCh ++ [block] }
  | receivesEvent {ev rest} (hloop : s.loop = .selecting)
      (hbuffer : s.eventSourceReq = ev :: rest) :
      Does s .receivesEvent (.received ev)
        { s with eventSourceReq := rest, loop := .adding ev }
  | receivesHead {block rest} (hloop : s.loop = .selecting)
      (hbuffer : s.chainHeadCh = block :: rest) :
      Does s .receivesHead .quiet
        { s with chainHeadCh := rest, loop := .resetting block }
  | skips (hloop : s.loop = .adding none ∨ s.loop = .resetting none) :
      Does s .handles .quiet { s with loop := .selecting }
  | adds {ev pool} (hloop : s.loop = .adding (some ev))
      (hadd : s.pool.addEvent ev = .ok pool) :
      Does s .handles .quiet { s with pool := pool, loop := .selecting }
  | addPanics {ev p} (hloop : s.loop = .adding (some ev))
      (hadd : s.pool.addEvent ev = .error p) :
      Does s .handles .quiet { s with crash := some (.pool p) }
  | resets {block old} (hloop : s.loop = .resetting (some block))
      (hhead : s.head = some old) :
      Does s .handles .quiet { s with head := some block, loop := .selecting }
  | resetPanics {block} (hloop : s.loop = .resetting (some block))
      (hhead : s.head = none) :
      Does s .handles .quiet { s with crash := some .nilHead }
  | pending {ranges} :
      Does s (.pending ranges) (.answered (s.pool.pendingTxs ranges).1)
        { s with pool := (s.pool.pendingTxs ranges).2 }
  | stops : Does s .stops .quiet { s with stops := s.stops ++ [.unsubscribing] }
  | unsubscribes {i} :
      Does s (.unsubscribes i) .quiet
        { s with subscribed := false, stops := s.stops.set i .waiting }
  | returns {i} (hwg : s.wg = 0) :
      Does s (.returns i) .quiet { s with stops := s.stops.set i .returned }

section Steps

variable {s s' : System A D B} {o : Output A D} {e : Event A D B}

/-- What the loop does with what it has in hand. -/
theorem does_of_handle (h : s.handle = some s') : Does s .handles .quiet s' := by
  unfold System.handle at h
  split at h
  next => cases h
  next hloop =>
      cases h
      exact .skips (.inl hloop)
  next ev hloop =>
      split at h
      next pool hadd =>
          cases h
          exact .adds hloop hadd
      next p hadd =>
          cases h
          exact .addPanics hloop hadd
  -- a head without a block is skipped, as an event without data is
  next hloop =>
      cases h
      exact .skips (.inr hloop)
  next block hloop =>
      split at h
      next old hhead =>
          cases h
          exact .resets hloop hhead
      next hhead =>
          cases h
          exact .resetPanics hloop hhead

/-- A step needs a process that has not panicked, and is one of the steps. -/
theorem does_of_react (h : s.react e = some (s', o)) :
    s.crash = none ∧ Does s e o s' := by
  unfold System.react at h
  -- after a panic there is no step
  split at h
  next hcrash =>
      refine ⟨hcrash, ?_⟩
      unfold System.step at h
      split at h
      next ev =>
          split at h
          next hroom =>
              cases h
              exact .sendsEvent hroom
          next => cases h
      next block =>
          split at h
          next hroom =>
              cases h
              exact .sendsHead hroom.2
          next => cases h
      next =>
          split at h
          next hloop hbuffer =>
              cases h
              exact .receivesEvent hloop hbuffer
          next => cases h
      next =>
          split at h
          next hloop hbuffer =>
              cases h
              exact .receivesHead hloop hbuffer
          next => cases h
      next =>
          obtain ⟨s₁, hhandle, heq⟩ := Option.map_eq_some_iff.mp h
          cases heq
          exact does_of_handle hhandle
      next ranges =>
          cases h
          exact .pending
      next =>
          cases h
          exact .stops
      next i =>
          split at h
          next =>
              cases h
              exact .unsubscribes
          next => cases h
      next i =>
          split at h
          next hwait =>
              cases h
              exact .returns hwait.2
          next => cases h
  next => cases h

end Steps

/-! ## What a run has sent and received -/

/-- The event that a step sends. -/
def sent : Event A D B × Output A D → Option (Option (BridgeOracleRequest A D))
  | (.sendsEvent ev, _) => some ev
  | _ => none

/-- The event that the loop receives. -/
def received :
    Event A D B × Output A D → Option (Option (BridgeOracleRequest A D))
  | (_, .received ev) => some ev
  | _ => none

/-- What the loop has received and not handled yet. -/
def Loop.inHand : Loop A D B → List (Option (BridgeOracleRequest A D))
  | .adding ev => [ev]
  | _ => []

/-- The non-nil events handled by the loop are in the pool, and nothing else
    is. -/
def Handled (tr : List (Event A D B × Output A D)) (s : System A D B) : Prop :=
  ∃ handled, tr.filterMap received = handled ++ s.loop.inHand ∧
    Kept handled.reduceOption s.pool

/-- What is true in every reachable state. -/
structure Good (current : Option B) (tr : List (Event A D B × Output A D))
    (s : System A D B) : Prop where
  handled : Handled tr s
  events : s.eventSourceReq.length ≤ chanSize
  wg : s.wg = 1
  running : Stop.returned ∉ s.stops
  head : s.head = none → current = none
  crash : ∀ c, s.crash = some c → c = .nilHead ∧ current = none

variable {s s' : System A D B} {o : Output A D} {e : Event A D B}
  {tr : List (Event A D B × Output A D)} {current : Option B}

/-! ## One step -/

/-- Steps that receive nothing and leave the loop and the pool alone. -/
theorem Handled.frame {l : Event A D B × Output A D} (h : Handled tr s)
    (hl : received l = none) (hloop : s'.loop = s.loop)
    (hpool : s'.pool = s.pool) : Handled (tr ++ [l]) s' := by
  obtain ⟨handled, htr, hk⟩ := h
  refine ⟨handled, ?_, hpool ▸ hk⟩
  rw [filterMap_concat, hl, Option.toList_none, List.append_nil, htr, hloop]

/-- The loop receives something. -/
theorem Handled.receive {l : Event A D B × Output A D} (h : Handled tr s)
    (hloop : s.loop = .selecting) (hl : (received l).toList = s'.loop.inHand)
    (hpool : s'.pool = s.pool) : Handled (tr ++ [l]) s' := by
  obtain ⟨handled, htr, hk⟩ := h
  rw [hloop] at htr
  refine ⟨handled, ?_, hpool ▸ hk⟩
  rw [filterMap_concat, htr, hl]
  exact congrArg (· ++ _) (List.append_nil handled)

/-- The events in the pool, and the one in hand, are received ones. -/
theorem Handled.kept (h : Handled tr s) :
    ∃ evs, Kept evs s.pool ∧
      evs.length + s.loop.inHand.length ≤ (tr.filterMap received).length ∧
      (tr.filterMap received).reduceOption =
        evs ++ s.loop.inHand.reduceOption := by
  obtain ⟨handled, htr, hk⟩ := h
  have hle := List.reduceOption_length_le handled
  refine ⟨handled.reduceOption, hk, ?_, ?_⟩
  · rw [htr, List.length_append]
    omega
  · rw [htr, List.reduceOption_append]

/-- The loop is done with what it had in hand. -/
theorem handled_of_done {l : Event A D B × Output A D}
    (hl : received l = none) (hloop : s'.loop = .selecting)
    (hk : Kept (tr.filterMap received).reduceOption s'.pool) :
    Handled (tr ++ [l]) s' := by
  have hreceived : (tr ++ [l]).filterMap received = tr.filterMap received := by
    rw [filterMap_concat, hl]
    exact List.append_nil _
  refine ⟨tr.filterMap received, ?_, hk⟩
  rw [hreceived, hloop]
  exact (List.append_nil _).symm

/-- **EVERY STEP** keeps what is true in every reachable state. -/
theorem Good.does (hg : Good current tr s) (h : Does s e o s')
    (hlt : (tr.filterMap received).length < 2 ^ 64 - 1) :
    Good current (tr ++ [(e, o)]) s' := by
  cases h with
  | sendsEvent hroom =>
      refine { hg with handled := hg.handled.frame rfl rfl rfl, events := ?_ }
      rw [List.length_append, List.length_singleton]
      exact hroom
  | sendsHead hroom => exact { hg with handled := hg.handled.frame rfl rfl rfl }
  | @receivesEvent ev rest hloop hbuffer =>
      have hevents := hg.events
      rw [hbuffer, List.length_cons] at hevents
      exact { hg with
        handled := hg.handled.receive hloop rfl rfl
        events := (Nat.le_succ rest.length).trans hevents }
  | receivesHead hloop hbuffer =>
      exact { hg with handled := hg.handled.receive hloop rfl rfl }
  | skips hloop =>
      obtain ⟨evs, hk, -, heq⟩ := hg.handled.kept
      have hinHand : s.loop.inHand.reduceOption = [] := by
        rcases hloop with hloop | hloop <;> rw [hloop] <;> rfl
      rw [hinHand, List.append_nil] at heq
      exact { hg with handled := handled_of_done rfl rfl (heq ▸ hk) }
  | @adds ev pool hloop hadd =>
      obtain ⟨evs, hk, hle, heq⟩ := hg.handled.kept
      rw [hloop] at hle heq
      obtain ⟨pool', hok, hkept⟩ := hk.addEvent ev (hle.trans_lt hlt)
      obtain rfl := Except.ok.inj (hadd.symm.trans hok)
      exact { hg with handled := handled_of_done rfl rfl (heq ▸ hkept) }
  | @addPanics ev p hloop hadd =>
      -- an event that is numbered below the overflow does not panic
      obtain ⟨evs, hk, hle, -⟩ := hg.handled.kept
      rw [hloop] at hle
      obtain ⟨pool', hok, -⟩ := hk.addEvent ev (hle.trans_lt hlt)
      cases hadd.symm.trans hok
  | resets hloop hhead =>
      obtain ⟨evs, hk, -, heq⟩ := hg.handled.kept
      rw [hloop, show (Loop.resetting _ : Loop A D B).inHand.reduceOption = []
        from rfl, List.append_nil] at heq
      exact { hg with
        handled := handled_of_done rfl rfl (heq ▸ hk)
        head := fun hnone => by cases hnone }
  | resetPanics hloop hhead =>
      refine { hg with
        handled := hg.handled.frame rfl rfl rfl
        crash := fun c hc => ?_ }
      cases hc
      exact ⟨rfl, hg.head hhead⟩
  | pending =>
      obtain ⟨handled, htr, hk⟩ := hg.handled
      refine { hg with handled := ⟨handled, ?_, hk.queue, hk.nonce, ?_⟩ }
      · rw [filterMap_concat, htr]
        exact List.append_nil _
      · exact fun addr => (hk.pending addr).flatten _
  | stops =>
      refine { hg with handled := hg.handled.frame rfl rfl rfl, running := ?_ }
      intro hmem
      rcases List.mem_append.mp hmem with hold | hnew
      · exact hg.running hold
      · cases List.mem_singleton.mp hnew
  | unsubscribes =>
      refine { hg with handled := hg.handled.frame rfl rfl rfl, running := ?_ }
      intro hmem
      rcases List.mem_or_eq_of_mem_set hmem with hold | hnew
      · exact hg.running hold
      · cases hnew
  | returns hwg =>
      -- the loop never calls `wg.Done`, so that nobody gets past `wg.Wait`
      rw [hg.wg] at hwg
      cases hwg

/-! ## Every run -/

/-- `EventSourceReq` is a queue. -/
theorem queued : Queued (Fires (System.react (A := A) (D := D) (B := B)))
    System.eventSourceReq sent received := by
  rintro s ⟨e, o⟩ s' h
  cases (does_of_react h).2 with
  | sendsEvent hroom => rfl
  | receivesEvent hloop hbuffer =>
      rw [hbuffer]
      exact List.append_nil _
  | _ => exact List.append_nil _

/-- The invariant of the pool along every run within the nonces. -/
theorem good_run (h : Run (Fires System.react) (newPool current) tr s)
    (hlt : (tr.filterMap sent).length < 2 ^ 64 - 1) : Good current tr s := by
  have hqueue := congrArg List.length (queued.run h)
  have hreceived : (tr.filterMap received).length < 2 ^ 64 - 1 := by
    rw [List.length_append, List.length_append] at hqueue
    have hempty : (newPool current : System A D B).eventSourceReq.length = 0 := rfl
    omega
  -- the bound on a run is one on the runs it goes on from
  refine h.traced (P := fun tr s =>
    (tr.filterMap received).length < 2 ^ 64 - 1 → Good current tr s) ?_ ?_ hreceived
  · intro _
    exact ⟨⟨[], rfl, kept_new⟩, Nat.zero_le _, rfl, List.not_mem_nil, id,
      fun c hc => by cases hc⟩
  · rintro tr a ⟨e, o⟩ b hg hstep hlt
    rw [filterMap_concat, List.length_append] at hlt
    have hlt' : (tr.filterMap received).length < 2 ^ 64 - 1 := by omega
    exact (hg hlt').does (does_of_react hstep).2 hlt'

/-- What was sent is handled, in hand, or in the channel; the pool has what is
    handled. -/
theorem kept_run (h : Run (Fires System.react) (newPool current) tr s)
    (hlt : (tr.filterMap sent).length < 2 ^ 64 - 1) :
    ∃ handled, tr.filterMap sent = handled ++ s.loop.inHand ++ s.eventSourceReq ∧
      ∀ ranges addr txs, (s.pool.pendingTxs ranges).1 addr = some txs ↔
        txs = sentBy handled.reduceOption addr ∧ txs ≠ [] := by
  obtain ⟨handled, htr, hk⟩ := (good_run h hlt).handled
  have hsent : tr.filterMap sent = handled ++ s.loop.inHand ++ s.eventSourceReq := by
    rw [← htr]
    exact queued.run h
  have hle : handled.reduceOption.length < 2 ^ 64 - 1 := by
    have hle := List.reduceOption_length_le handled
    rw [hsent, List.length_append, List.length_append] at hlt
    omega
  refine ⟨handled, hsent, ?_⟩
  intro ranges addr txs
  exact (hk.pending addr).answer (increasing_sentBy hle addr) _ txs

/-- **EVENTS PASS** the channel in the order in which they were sent, each is
    handled once, and `Pending` answers those handled so far; the loop panics
    only over a chain without a head; and `Stop` never returns. -/
theorem events_pass (current : Option B)
    (h : Run (Fires System.react) (newPool current) tr s)
    (hlt : (tr.filterMap sent).length < 2 ^ 64 - 1) :
    (∃ handled, tr.filterMap sent =
        handled ++ s.loop.inHand ++ s.eventSourceReq ∧
      ∀ ranges addr txs, (s.pool.pendingTxs ranges).1 addr = some txs ↔
        txs = sentBy handled.reduceOption addr ∧ txs ≠ []) ∧
    s.eventSourceReq.length ≤ chanSize ∧
    (∀ c, s.crash = some c → c = .nilHead ∧ current = none) ∧
    Stop.returned ∉ s.stops := by
  have hg := good_run h hlt
  exact ⟨kept_run h hlt, hg.events, hg.crash, hg.running⟩

/-- Two senders, an answer of `Pending` between two events, and a `Stop`. -/
def sampleEvents : List (Event ℕ ℕ ℕ) :=
  [.sendsEvent (some ⟨7, 4, 10⟩), .sendsEvent none, .receivesEvent, .handles,
    .stops, .sendsHead (some 5), .unsubscribes 0, .pending backwards,
    .sendsEvent (some ⟨8, 94, 11⟩), .receivesHead, .handles, .receivesEvent]

/-- Three events sent, one of them nil, with a stop waiting. -/
theorem events_pass_sample :
    ∃ tr, ∃ s : System ℕ ℕ ℕ,
      Run (Fires System.react) (newPool (some 3)) tr s ∧
      (tr.filterMap sent).length = 3 ∧ s.stops = [.waiting] ∧
      (∃ handled, tr.filterMap sent =
          handled ++ s.loop.inHand ++ s.eventSourceReq ∧
        ∀ ranges addr txs, (s.pool.pendingTxs ranges).1 addr = some txs ↔
          txs = sentBy handled.reduceOption addr ∧ txs ≠ []) := by
  obtain ⟨tr, s, hrun, hsent, hstops⟩ := exists_run
    (fun (tr : List (Event ℕ ℕ ℕ × Output ℕ ℕ)) (s : System ℕ ℕ ℕ) =>
      (tr.filterMap sent).length = 3 ∧ s.stops = [.waiting])
    (show (execute System.react (newPool (some 3)) sampleEvents).any _ = true by
      decide)
  have hlt : (tr.filterMap sent).length < 2 ^ 64 - 1 := by
    rw [hsent]
    decide
  exact ⟨tr, s, hrun, hsent, hstops, (events_pass _ hrun hlt).1⟩

/-! ## The loop is never stuck -/

/-- What the loop still has to do. -/
def System.left (s : System A D B) : ℕ :=
  2 * (s.eventSourceReq.length + s.chainHeadCh.length) +
    match s.loop with
    | .selecting => 0
    | _ => 1

/-- Nothing is left in the channels or in hand. -/
def System.Drained (s : System A D B) : Prop :=
  s.eventSourceReq = [] ∧ s.chainHeadCh = [] ∧ s.loop = .selecting

/-- What is in hand can be handled. -/
theorem exists_handle (h : s.loop ≠ .selecting) :
    ∃ s', s.handle = some s' := by
  unfold System.handle
  split
  next hloop => exact absurd hloop h
  next => exact ⟨_, rfl⟩
  next => split <;> exact ⟨_, rfl⟩
  next => exact ⟨_, rfl⟩
  next => split <;> exact ⟨_, rfl⟩

/-- What is in hand is less to do once it is handled. -/
theorem left_handle (h : Does s .handles o s') (hcrash : s'.crash = none) :
    s'.left < s.left := by
  cases h with
  | skips hloop => rcases hloop with hloop | hloop <;> simp [System.left, hloop]
  | adds hloop hadd => simp [System.left, hloop]
  | addPanics hloop hadd => cases hcrash
  | resets hloop hhead => simp [System.left, hloop]
  | resetPanics hloop hhead => cases hcrash

/-- The loop of a running process does something as long as it has something to
    do. -/
theorem exists_react (hcrash : s.crash = none) (h : ¬ s.Drained) :
    ∃ e o s', Fires System.react s (e, o) s' ∧ sent (e, o) = none ∧
      (s'.crash = none → s'.left < s.left) := by
  by_cases hloop : s.loop = .selecting
  · cases hevents : s.eventSourceReq with
    | cons ev rest =>
        refine ⟨.receivesEvent, .received ev,
          { s with eventSourceReq := rest, loop := .adding ev }, ?_, rfl, ?_⟩
        · simp only [Fires, System.react, System.step, hcrash, hloop, hevents]
        · intro _
          simp only [System.left, hloop, hevents, List.length_cons]
          omega
    | nil =>
        cases hheads : s.chainHeadCh with
        | cons block rest =>
            refine ⟨.receivesHead, .quiet,
              { s with chainHeadCh := rest, loop := .resetting block }, ?_, rfl, ?_⟩
            · simp only [Fires, System.react, System.step, hcrash, hloop, hheads]
            · intro _
              simp only [System.left, hloop, hheads, List.length_cons]
              omega
        | nil => exact absurd ⟨hevents, hheads, hloop⟩ h
  · obtain ⟨s', hhandle⟩ := exists_handle hloop
    refine ⟨.handles, .quiet, s', ?_, rfl, left_handle (does_of_handle hhandle)⟩
    simp only [Fires, System.react, System.step, hcrash, hhandle, Option.map_some]

/-- **THE LOOP DRAINS** its channels: from any reachable state of a process
    whose chain has a head it can go on, with nothing more sent, until nothing
    is left; all that was ever sent is then in the answer of `Pending`. -/
theorem loop_drains (block : B)
    (h : Run (Fires System.react) (newPool (some block)) tr s)
    (hlt : (tr.filterMap sent).length < 2 ^ 64 - 1) :
    ∃ tr' s', Run (Fires System.react) s tr' s' ∧
      tr'.filterMap sent = [] ∧ s'.Drained ∧
      ∀ ranges addr txs, (s'.pool.pendingTxs ranges).1 addr = some txs ↔
        txs = sentBy (tr.filterMap sent).reduceOption addr ∧ txs ≠ [] := by
  have hrunning : ∀ {tr} {s : System A D B},
      Run (Fires System.react) (newPool (some block)) tr s →
      (tr.filterMap sent).length < 2 ^ 64 - 1 → s.crash = none := by
    intro tr s h hlt
    by_contra hcrash
    obtain ⟨c, hc⟩ := Option.ne_none_iff_exists'.mp hcrash
    cases ((good_run h hlt).crash c hc).2
  -- the events sent so far stay the same along the way
  obtain ⟨tr', s', hrun, hquiet, ⟨tr₁, hrun₁, hsent₁⟩, hdrained⟩ :=
    exists_run_of_rank
      (fun a => ∃ tr₁, Run (Fires System.react) (newPool (some block)) tr₁ a ∧
        tr₁.filterMap sent = tr.filterMap sent)
      System.Drained (fun l => sent l = none) System.left
      (by
        rintro a ⟨tr₁, ha, hsent⟩ hnot
        obtain ⟨e, o, b, hstep, hl, hrank⟩ :=
          exists_react (hrunning ha (hsent ▸ hlt)) hnot
        have hb : (tr₁ ++ [(e, o)]).filterMap sent = tr.filterMap sent := by
          rw [filterMap_concat, hl, Option.toList_none, List.append_nil, hsent]
        exact ⟨[(e, o)], b, Run.single hstep, List.forall_mem_singleton.mpr hl,
          ⟨_, ha.tail hstep, hb⟩, hrank (hrunning (ha.tail hstep) (hb ▸ hlt))⟩)
      ⟨tr, h, rfl⟩
  obtain ⟨handled, hhandled, hanswer⟩ := kept_run hrun₁ (hsent₁ ▸ hlt)
  obtain ⟨hevents, hheads, hloop⟩ := hdrained
  have hall : tr.filterMap sent = handled := by
    rw [← hsent₁, hhandled, hevents, hloop, List.append_nil]
    exact List.append_nil handled
  refine ⟨tr', s', hrun, List.filterMap_eq_nil_iff.mpr hquiet,
    ⟨hevents, hheads, hloop⟩, ?_⟩
  rw [hall]
  exact hanswer

/-- The same run drained, and what the pool then shows of one sender. -/
theorem loop_drains_sample :
    ∃ tr, ∃ s : System ℕ ℕ ℕ,
      Run (Fires System.react) (newPool (some 3)) tr s ∧
      (tr.filterMap sent).length = 3 ∧ ¬ s.Drained ∧
      ∃ tr' s', Run (Fires System.react) s tr' s' ∧ s'.Drained ∧
        (s'.pool.pendingTxs backwards).1 8 = some [⟨94, ⟨8, 94, 11⟩, 2⟩] := by
  obtain ⟨tr, s, hrun, hsent, hreq⟩ := exists_run
    (fun (tr : List (Event ℕ ℕ ℕ × Output ℕ ℕ)) (s : System ℕ ℕ ℕ) =>
      tr.filterMap sent =
      [some ⟨7, 4, 10⟩, none, some ⟨8, 94, 11⟩] ∧ s.eventSourceReq.length = 1)
    (show (execute System.react (newPool (some 3)) sampleEvents).any _ = true by
      decide)
  obtain ⟨tr', s', hrun', -, hdrained, hanswer⟩ :=
    loop_drains 3 hrun (by rw [hsent]; decide)
  refine ⟨tr, s, hrun, by rw [hsent]; rfl, ?_, tr', s', hrun', hdrained, ?_⟩
  · intro h
    rw [h.1] at hreq
    cases hreq
  · rw [hanswer, hsent]
    decide

end RelayerPoolLoop
