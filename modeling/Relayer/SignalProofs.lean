import Relayer.ClientProofs

/-! # The resubscribe signal and its only receiver

    `SendResubscribeSignal` sends on a channel of capacity 1 while it holds
    `subLoopMx`, and after a reconnect `c.mx` and perhaps the mutex of a
    watcher too.  The only receiver is the goroutine of `subLoop`, which calls
    `getClient` and `Resubscribe` itself.

    * `Deadlocked` is a send that waits for a receiver which is the sender, or
      waits for a mutex of the sender;
    * `Turn` says in eight cases what a step does to the goroutines and to the
      channel, all that the argument needs of it;
    * **`signal_never_deadlocks`**: no run gets there in which a sender finds
      the channel full only while `subLoop` is in its select, and `subLoop`
      does not follow a tick while a sender is blocked. -/

namespace RelayerSignal

open RelayerClient Routines Transition

/-- A goroutine waits in its send on the full channel, while the goroutine of
    `subLoop` is that goroutine, or waits for a mutex that it holds. -/
def Deadlocked (c : Client) : Prop :=
  ∃ (i j : ℕ) (g : Signaller) (r : Routine),
    c.routines[i]? = some (.sending g) ∧ 0 < c.queued ∧
    c.routines[j]? = some r ∧ r.inSubLoop = true ∧
    (i = j ∨ ∃ m, r.waitsFor = some m ∧ (Routine.sending g).holds m = true)

/-- Is the goroutine at its send? -/
def isSending : Routine → Bool
  | .sending _ => true
  | _ => false

/-- The steps that leave room for the signal: nobody comes to the send with a
    signal queued unless `subLoop` is in its select, and `subLoop` does not
    follow a tick while somebody waits there. -/
def leavesRoom (c : Client) : Event → Bool
  | .goes i =>
      match c.routines[i]? with
      | some (.signalling _) =>
          !c.subLoopInitialized || c.queued = 0 ||
            Routine.selecting ∈ c.routines
      | _ => true
  | .ticks _ =>
      !c.reconnectOnTimer || c.queued = 0 || free isSending c.routines
  | _ => true

/-! ## What a step does to the goroutines -/

/-- Goroutine `i` comes to a place that is no send, and stays what it was; the
    channel is as before. -/
def Lands (c c' : Client) (i : ℕ) (inSubLoop : Bool) : Prop :=
  ∃ r', c'.routines = c.routines.set i r' ∧ r'.inSubLoop = inSubLoop ∧
    isSending r' = false ∧ c'.queued = c.queued ∧
    c'.subLoopInitialized = c.subLoopInitialized

/-- What a step does to the goroutines and to the channel. -/
inductive Turn (c c' : Client) : Event → Prop where
  | still {e : Event} (hrs : c'.routines = c.routines)
      (hqueued : c'.queued = c.queued)
      (hinit : c'.subLoopInitialized = c.subLoopInitialized) : Turn c c' e
  | spawned {e : Event} (r' : Routine) (hrs : c'.routines = c.routines ++ [r'])
      (hloop : r'.inSubLoop = false) (hsend : isSending r' = false)
      (hqueued : c'.queued = c.queued)
      (hinit : c'.subLoopInitialized = c.subLoopInitialized) : Turn c c' e
  | started {e : Event} (i w : ℕ) (hr : c.routines[i]? = some (.startingLoop w))
      (hrs : c'.routines = (c.routines ++ [Routine.selecting]).set i
        (.subscribing w))
      (hqueued : c'.queued = 0) (hdown : c.subLoopInitialized = false)
      (hup : c'.subLoopInitialized = true) : Turn c c' e
  | moved {e : Event} (i : ℕ) (r : Routine) (hr : c.routines[i]? = some r)
      (hsel : r ≠ .selecting) (hlands : Lands c c' i r.inSubLoop) : Turn c c' e
  | locked (i : ℕ) (g : Signaller) (hr : c.routines[i]? = some (.signalling g))
      (hfree : c.free .subLoopMx = true) (hup : c.subLoopInitialized = true)
      (heq : c' = c.move i (.sending g)) : Turn c c' (.goes i)
  | sent {e : Event} (i : ℕ) (g : Signaller)
      (hr : c.routines[i]? = some (.sending g)) (hqueued : c.queued = 0)
      (hlands : Lands { c with queued := c.queued + 1 } c' i
        (Routine.sending g).inSubLoop) : Turn c c' e
  | took {e : Event} (i : ℕ) (hr : c.routines[i]? = some .selecting)
      (hqueued : 0 < c.queued)
      (heq : c' = { c with queued := c.queued - 1 }.move i .woken) : Turn c c' e
  | ticked (i : ℕ) (hr : c.routines[i]? = some .selecting)
      (htimer : c.reconnectOnTimer = true)
      (heq : c' = c.move i (.gettingClient .tick)) : Turn c c' (.ticks i)

variable {c c' c₁ : Client} {i w : ℕ} {r r' : Routine} {b : Bool}

/-- A move with queue and loop as they were lands its goroutine. -/
theorem lands_move (hrs : c₁.routines = c.routines)
    (hqueued : c₁.queued = c.queued)
    (hinit : c₁.subLoopInitialized = c.subLoopInitialized)
    (hloop : r'.inSubLoop = b) (hsend : isSending r' = false) :
    Lands c (c₁.move i r') i b :=
  ⟨r', by rw [Client.move, hrs], hloop, hsend, hqueued, hinit⟩

theorem lands_of_placed (h : Placed c c' i r') (hloop : r'.inSubLoop = b)
    (hsend : isSending r' = false) : Lands c c' i b :=
  ⟨r', h.routines_eq, hloop, hsend, h.queued_eq, h.initialized_eq⟩

theorem isSending_pass (order : List ℕ) : isSending (pass order) = false := by
  cases order <;> rfl

theorem isSending_failsTo (u : Subscriber) : isSending u.failsTo = false := by
  cases u <;> rfl

theorem isSending_doneTo (u : Subscriber) : isSending u.doneTo = false := by
  cases u with
  | subscribe w => rfl
  | resubscribe w rest => exact isSending_pass rest

theorem isSending_returnsTo (k : Caller) (ok : Bool) :
    isSending (k.returnsTo ok) = false := by
  cases k with
  | rpc => rfl
  | tick => rfl
  | watchLogs u =>
      cases ok with
      | true => rfl
      | false => exact isSending_failsTo u

theorem lands_getClientReturns (c : Client) (i : ℕ) (k : Caller) (ok : Bool) :
    Lands c (c.getClientReturns i k ok) i k.inSubLoop :=
  lands_of_placed (placed_getClientReturns c i k ok) (inSubLoop_returnsTo k ok)
    (isSending_returnsTo k ok)

theorem lands_signalReturns (c : Client) (i : ℕ) (g : Signaller) :
    Lands c (c.signalReturns i g) i (Routine.sending g).inSubLoop := by
  refine lands_of_placed (placed_signalReturns c i g)
    (inSubLoop_signalReturnsTo g) ?_
  cases g with
  | report w => rfl
  | getClient k => exact isSending_returnsTo k true

/-- What a goroutine does on its own, as a turn of the signal's channel. -/
theorem Goes.turn (hgoes : Goes c i r c') (hr : c.routines[i]? = some r) :
    Turn c c' (.goes i) := by
  cases hgoes with
  | known key => exact .moved i _ hr (by simp) (lands_move rfl rfl rfl rfl rfl)
  | registers key =>
      exact .moved i _ hr (by simp) (lands_move rfl rfl rfl rfl rfl)
  | startsLoop w =>
      cases hinit : c.subLoopInitialized with
      | true =>
          rw [Client.subLoop, if_pos hinit]
          exact .moved i _ hr (by simp) (lands_move rfl rfl rfl rfl rfl)
      | false =>
          rw [Client.subLoop, hinit, if_neg Bool.false_ne_true]
          exact .started i w hr rfl rfl hinit rfl
  | subscribes w => exact .moved i _ hr (by simp) (lands_move rfl rfl rfl rfl rfl)
  | locks g hfree hinit => exact .locked i g hr hfree hinit rfl
  | drops g _ =>
      refine .moved i _ hr (by simp) ?_
      rw [inSubLoop_signalling]
      exact lands_signalReturns c i g
  | sends g hqueued => exact .sent i g hr hqueued (lands_signalReturns _ i g)
  | flags u =>
      exact .moved i _ hr (by simp) (lands_of_placed (placed_subscribeDone c i u)
        (inSubLoop_doneTo u) (isSending_doneTo u))
  | wakes =>
      obtain ⟨r', hplaced, rfl | ⟨all, rfl⟩⟩ := placed_wake c i
      · exact .moved i _ hr (by simp) (lands_of_placed hplaced rfl rfl)
      · exact .moved i _ hr (by simp) (lands_of_placed hplaced rfl rfl)
  | resubscribes w rest =>
      exact .moved i _ hr (by simp) (lands_move rfl rfl rfl rfl rfl)

/-- A connection attempt leaves the channel alone. -/
theorem turn_connects {k : Caller}
    (hr : c.routines[i]? = some (.gettingClient k)) (current : Reply)
    (dial : String → Reply) :
    Turn c (c.connects i k current dial) (.connects i current dial) := by
  obtain ⟨c₁, ⟨client, connected, recreated, rfl⟩, hcases⟩ :=
    connects_cases c i k current dial
  rcases hcases with heq | heq | ⟨heq, -⟩ | ⟨heq, -⟩
  · rw [heq]
    exact .still rfl rfl rfl
  · rw [heq]
    exact .moved i _ hr (by simp) (lands_move rfl rfl rfl rfl rfl)
  · rw [heq]
    exact .moved i _ hr (by simp) (lands_getClientReturns _ i k true)
  · rw [heq]
    exact .moved i _ hr (by simp) (lands_getClientReturns _ i k false)

/-- **EVERY STEP IS ONE OF EIGHT TURNS**. -/
theorem Moves.turn {e : Event} (hmoves : Moves c e c') : Turn c c' e := by
  cases hmoves with
  | adds key => exact .spawned _ rfl rfl rfl rfl rfl
  | calls => exact .spawned _ rfl rfl rfl rfl rfl
  | reports w => exact .spawned _ rfl rfl rfl rfl rfl
  | unsubscribed w => exact .still rfl rfl rfl
  | unpackFails w => exact .still rfl rfl rfl
  | goes hr hgoes => exact Goes.turn hgoes hr
  | connects current dial hr => exact turn_connects hr current dial
  | filters hr =>
      exact .moved _ _ hr (by simp) (lands_move rfl rfl rfl rfl rfl)
  | filterFails hr =>
      exact .moved _ _ hr (by simp) (lands_of_placed
        (placed_subscribeFails c _ _) (inSubLoop_failsTo _) (isSending_failsTo _))
  | lists hr _ =>
      exact .moved _ _ hr (by simp) (lands_move rfl rfl rfl
        (inSubLoop_pass _) (isSending_pass _))
  | takes hr hqueued => exact .took _ hr hqueued rfl
  | ticks hr htimer => exact .ticked _ hr htimer rfl
  | idles hr => exact .still rfl rfl rfl

/-! ## One loop, one sender -/

/-- There is one goroutine of `subLoop` at most, and none before it is
    started; one goroutine at its send at most; the channel holds one signal
    at most; and a blocked sender finds `subLoop` in its select. -/
structure Unblocked (c : Client) : Prop where
  oneLoop : Exclusive Routine.inSubLoop c.routines
  noLoop : c.subLoopInitialized = false →
    free Routine.inSubLoop c.routines = true
  oneSender : Exclusive isSending c.routines
  capacity : c.queued ≤ 1
  awaited : ∀ g, Routine.sending g ∈ c.routines → 0 < c.queued →
    Routine.selecting ∈ c.routines

/-- Nobody blocks in a new client. -/
theorem unblocked_new (chainId : ℕ) (urls : List String) :
    Unblocked (newClient chainId urls) where
  oneLoop := exclusive_nil _
  noLoop := fun _ => rfl
  oneSender := exclusive_nil _
  capacity := Nat.zero_le 1
  awaited := fun _ hg => absurd hg List.not_mem_nil

/-- The goroutine at its send holds `subLoopMx`. -/
theorem free_isSending (h : c.free .subLoopMx = true) :
    free isSending c.routines = true := by
  rw [free_iff]
  intro q hq
  have hheld := free_iff.mp h q hq
  cases q with
  | sending g => cases g <;> simp [Routine.holds] at hheld
  | _ => rfl

/-- A goroutine that comes to no send keeps everything but the last field. -/
theorem Unblocked.set (h : Unblocked c) (hr : c.routines[i]? = some r)
    (hrs : c'.routines = c.routines.set i r')
    (hloop : r'.inSubLoop = r.inSubLoop)
    (hsend : isSending r' = true → free isSending c.routines = true)
    (hinit : c'.subLoopInitialized = c.subLoopInitialized)
    (hqueued : c'.queued ≤ 1)
    (hawaited : ∀ g, Routine.sending g ∈ c'.routines → 0 < c'.queued →
      Routine.selecting ∈ c'.routines) : Unblocked c' where
  oneLoop := by
    rw [hrs]
    exact exclusive_set h.oneLoop hr (fun hp => Or.inl (hloop ▸ hp))
  noLoop := by
    intro hdown
    have hfree := h.noLoop (hinit ▸ hdown)
    rw [hrs, free_set_of_free hr hfree, hloop,
      free_iff.mp hfree r (List.mem_of_getElem? hr)]
    rfl
  oneSender := by
    rw [hrs]
    exact exclusive_set h.oneSender hr (fun hp => Or.inr (hsend hp))
  capacity := hqueued
  awaited := hawaited

theorem ne_of_isSending {g : Signaller} (h : isSending r' = false) :
    r' ≠ .sending g := by
  rintro rfl
  cases h

/-- The loop is started: nobody is at a send, for the channel is new. -/
theorem Unblocked.start (h : Unblocked c)
    (hr : c.routines[i]? = some (.startingLoop w))
    (hrs : c'.routines = (c.routines ++ [Routine.selecting]).set i
        (.subscribing w))
    (hqueued : c'.queued = 0) (hdown : c.subLoopInitialized = false)
    (hup : c'.subLoopInitialized = true) : Unblocked c' := by
  have hr' : (c.routines ++ [Routine.selecting])[i]?
      = some (.startingLoop w) := getElem?_concat hr
  have hone : Exclusive Routine.inSubLoop (c.routines ++ [.selecting]) :=
    exclusive_concat h.oneLoop (fun _ => h.noLoop hdown)
  have hsender : Exclusive isSending (c.routines ++ [Routine.selecting]) :=
    exclusive_concat h.oneSender (fun hp => absurd hp Bool.false_ne_true)
  constructor
  · rw [hrs]
    exact exclusive_set hone hr' (fun hp => absurd hp Bool.false_ne_true)
  · intro hdown'
    rw [hup] at hdown'
    cases hdown'
  · rw [hrs]
    exact exclusive_set hsender hr' (fun hp => absurd hp Bool.false_ne_true)
  · rw [hqueued]
    exact Nat.zero_le 1
  · intro g _ hpos
    rw [hqueued] at hpos
    cases hpos

/-- A new goroutine, which is neither in `subLoop` nor at a send. -/
theorem Unblocked.spawn (h : Unblocked c)
    (hrs : c'.routines = c.routines ++ [r'])
    (hloop : r'.inSubLoop = false) (hsend : isSending r' = false)
    (hqueued : c'.queued = c.queued)
    (hinit : c'.subLoopInitialized = c.subLoopInitialized) : Unblocked c' where
  oneLoop := by
    rw [hrs]
    exact exclusive_concat h.oneLoop (fun hp => by rw [hloop] at hp; cases hp)
  noLoop := by
    rw [hinit, hrs]
    intro hdown
    rw [free_concat, h.noLoop hdown, hloop]
    rfl
  oneSender := by
    rw [hrs]
    exact exclusive_concat h.oneSender (fun hp => by rw [hsend] at hp; cases hp)
  capacity := by
    rw [hqueued]
    exact h.capacity
  awaited := by
    rw [hrs, hqueued]
    intro g hg hpos
    rcases List.mem_append.mp hg with hg | hg
    · exact List.mem_append_left _ (h.awaited g hg hpos)
    · exact absurd (List.mem_singleton.mp hg).symm (ne_of_isSending hsend)

/-- Room for a goroutine that comes to its send: with a signal queued,
    `subLoop` is in its select. -/
theorem selecting_of_leavesRoom {g : Signaller}
    (hr : c.routines[i]? = some (.signalling g))
    (hup : c.subLoopInitialized = true) (hpos : 0 < c.queued)
    (hroom : leavesRoom c (.goes i) = true) :
    Routine.selecting ∈ c.routines := by
  have hne : ¬ c.queued = 0 := Nat.ne_of_gt hpos
  simp only [leavesRoom, hr, hup, Bool.not_true, Bool.false_or, hne,
    decide_false, decide_eq_true_eq] at hroom
  exact hroom

/-- Room for a tick that is followed: with a signal queued, nobody is at a
    send. -/
theorem free_of_leavesRoom (htimer : c.reconnectOnTimer = true)
    (hpos : 0 < c.queued) (hroom : leavesRoom c (.ticks i) = true) :
    free isSending c.routines = true := by
  have hne : ¬ c.queued = 0 := Nat.ne_of_gt hpos
  simp only [leavesRoom, htimer, Bool.not_true, Bool.false_or, hne,
    decide_false] at hroom
  exact hroom

/-- **ONE TURN** that leaves room for the signal blocks nobody for ever. -/
theorem Turn.unblocked {e : Event} (hturn : Turn c c' e) (h : Unblocked c)
    (hroom : leavesRoom c e = true) : Unblocked c' := by
  cases hturn with
  | still hrs hqueued hinit =>
      refine ⟨hrs ▸ h.oneLoop, ?_, hrs ▸ h.oneSender, hqueued ▸ h.capacity, ?_⟩
      · rw [hinit, hrs]
        exact h.noLoop
      · rw [hrs, hqueued]
        exact h.awaited
  | spawned r' hrs hloop hsend hqueued hinit =>
      exact h.spawn hrs hloop hsend hqueued hinit
  | started i w hr hrs hqueued hdown hup => exact h.start hr hrs hqueued hdown hup
  | moved i r hr hsel hlands =>
      obtain ⟨r', hrs, hloop, hsend, hqueued, hinit⟩ := hlands
      refine h.set hr hrs hloop (fun hp => by rw [hsend] at hp; cases hp) hinit
        (hqueued ▸ h.capacity) ?_
      rw [hrs, hqueued]
      intro g hg hpos
      rcases List.mem_or_eq_of_mem_set hg with hg | heq
      · exact mem_set_of_mem (h.awaited g hg hpos) hr hsel
      · exact absurd heq.symm (ne_of_isSending hsend)
  -- the lock was free, so this is the only goroutine at a send
  | locked i g hr hfree hup heq =>
      subst heq
      have hnone := free_isSending hfree
      refine h.set hr rfl (inSubLoop_signalling g).symm (fun _ => hnone) rfl
        h.capacity ?_
      intro _ _ hpos
      exact mem_set_of_mem (selecting_of_leavesRoom hr hup hpos hroom) hr
        (by simp)
  | sent i g hr hqueued hlands =>
      obtain ⟨r', hrs, hloop, hsend, hqueued', hinit⟩ := hlands
      refine h.set hr hrs hloop (fun hp => by rw [hsend] at hp; cases hp) hinit
        ?_ ?_
      · rw [hqueued']
        show c.queued + 1 ≤ 1
        omega
      · -- the one goroutine at a send has left it
        rw [hrs]
        intro g' hg' _
        obtain ⟨j, hj⟩ := List.mem_iff_getElem?.mp hg'
        rcases getElem?_set_cases hj with ⟨-, heq⟩ | ⟨hne, hold⟩
        · exact absurd heq.symm (ne_of_isSending hsend)
        · exact absurd (h.oneSender j i _ _ hold hr rfl rfl) hne
  | took i hr hqueued heq =>
      subst heq
      have hcap := h.capacity
      refine h.set hr rfl rfl (fun hp => absurd hp Bool.false_ne_true) rfl ?_ ?_
      · show c.queued - 1 ≤ 1
        omega
      · intro g _ hpos
        change 0 < c.queued - 1 at hpos
        omega
  -- with a signal waiting, a tick is taken only while nobody sends
  | ticked i hr htimer heq =>
      subst heq
      refine h.set hr rfl rfl (fun hp => absurd hp Bool.false_ne_true) rfl
        h.capacity ?_
      intro g hg hpos
      rcases List.mem_or_eq_of_mem_set hg with hg | heq
      · cases free_iff.mp (free_of_leavesRoom htimer hpos hroom) _ hg
      · cases heq

/-- A blocked sender is received from: `subLoop` is in its select, where it
    waits for no mutex. -/
theorem Unblocked.not_deadlocked (h : Unblocked c) : ¬ Deadlocked c := by
  rintro ⟨i, j, g, r, hi, hpos, hj, hloop, hwaits⟩
  obtain ⟨s, hs⟩ := List.mem_iff_getElem?.mp
    (h.awaited g (List.mem_of_getElem? hi) hpos)
  obtain rfl := h.oneLoop j s r .selecting hj hs hloop rfl
  obtain rfl := Option.some.inj (hj.symm.trans hs)
  rcases hwaits with rfl | ⟨m, hm, -⟩
  · cases hi.symm.trans hj
  · cases hm

/-- **THE SIGNAL NEVER DEADLOCKS**: along every run whose steps leave room for
    the signal, no blocked send waits for itself or for a goroutine that waits
    for it. -/
theorem signal_never_deadlocks (chainId : ℕ) (urls : List String) :
    ∀ tr c, Run (Guarded (Fires Client.react)
        (fun c l => leavesRoom c l.1 = true)) (newClient chainId urls) tr c →
      ¬ Deadlocked c := by
  intro tr c hrun
  have h : Unblocked c := hrun.invariant (unblocked_new chainId urls)
    (fun _ _ _ ha hstep => (Moves.turn (react_moves hstep.1)).unblocked ha
      hstep.2)
  exact h.not_deadlocked

/-- A watcher is added and subscribed; the signal of the connection is still
    queued. -/
def addedWatcher : List Event :=
  [.addWatcher "bridge:OracleRequest", .goes 0, .goes 0, .goes 0,
    .connects 0 .sameChain (fun _ => .sameChain), .goes 0, .goes 0,
    .filters 0 true, .goes 0]

/-- A blocked sender that the loop is going to receive from. -/
theorem signal_never_deadlocks_sample :
    ∃ tr c, Run (Guarded (Fires Client.react)
        (fun c l => leavesRoom c l.1 = true)) (newClient 1 ["ws://node"]) tr c ∧
      (c.queued = 1 ∧
        c.routines = [.returned, .selecting, .sending (.report 0)]) ∧
      ¬ Deadlocked c := by
  obtain ⟨tr, c, hrun, hc⟩ := exists_run
    (fun _ (c : Client) => c.queued = 1 ∧
      c.routines = [.returned, .selecting, .sending (.report 0)])
    (show (execute (restrict leavesRoom Client.react)
      (newClient 1 ["ws://node"]) (addedWatcher ++ [.subErr 0 true, .goes 2])).any
      _ = true by decide +kernel)
  exact ⟨tr, c, restrict_run hrun, hc,
    signal_never_deadlocks 1 ["ws://node"] tr c (restrict_run hrun)⟩

/-- The pass of `subLoop` fails, so the timer is set, and a report of the
    watcher's first loop fills the channel. -/
def fullChannel : List Event :=
  addedWatcher ++
    [.takes 1, .goes 1, .lists 1 [0], .goes 1,
      .connects 1 .sameChain (fun _ => .unreachable), .filters 1 false,
      .subErr 0 true, .goes 2, .goes 2]

/-- **THE SIGNAL DEADLOCKS**: `subLoop` reconnects on its timer and sends to
    itself; or it waits for `c.mx` on its timer while a remote call that has
    reconnected holds it and sends. -/
theorem signal_deadlocks :
    (∃ tr c, Run (Fires Client.react) (newClient 1 ["ws://node"]) tr c ∧
      c.routines = [.returned, .sending (.getClient .tick), .returned] ∧
      Deadlocked c) ∧
    ∃ tr c, Run (Fires Client.react) (newClient 1 ["ws://node"]) tr c ∧
      c.routines = [.returned, .gettingClient .tick, .returned,
        .sending (.getClient .rpc)] ∧ Deadlocked c := by
  constructor
  -- `subLoop` itself sends into the channel only it empties
  · obtain ⟨tr, c, hrun, hrs, hqueued⟩ := exists_run
      (fun _ (c : Client) =>
        c.routines = [.returned, .sending (.getClient .tick), .returned] ∧
        c.queued = 1)
      (show (execute Client.react (newClient 1 ["ws://node"]) (fullChannel ++
        [.ticks 1, .connects 1 .unreachable (fun _ => .unreachable),
          .connects 1 .unreachable (fun _ => .sameChain), .goes 1])).any _
        = true by decide +kernel)
    refine ⟨tr, c, hrun, hrs, 1, 1, .getClient .tick,
      .sending (.getClient .tick), ?_, ?_, ?_, ?_, Or.inl rfl⟩
    · rw [hrs]; rfl
    · rw [hqueued]; exact Nat.one_pos
    · rw [hrs]; rfl
    · rfl
  -- an RPC call sends with `c.mx` held, for which `subLoop` waits
  · obtain ⟨tr, c, hrun, hrs, hqueued⟩ := exists_run
      (fun _ (c : Client) =>
        c.routines = [.returned, .gettingClient .tick, .returned,
          .sending (.getClient .rpc)] ∧ c.queued = 1)
      (show (execute Client.react (newClient 1 ["ws://node"]) (fullChannel ++
        [.getClient, .connects 3 .unreachable (fun _ => .unreachable),
          .connects 3 .unreachable (fun _ => .sameChain), .goes 3,
          .ticks 1])).any _ = true by decide +kernel)
    refine ⟨tr, c, hrun, hrs, 3, 1, .getClient .rpc,
      .gettingClient .tick, ?_, ?_, ?_, ?_, Or.inr ⟨.mx, rfl, rfl⟩⟩
    · rw [hrs]; rfl
    · rw [hqueued]; exact Nat.one_pos
    · rw [hrs]; rfl
    · rfl

end RelayerSignal
