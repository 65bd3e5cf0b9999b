import Relayer.SignalProofs

/-! # Removing watchers and closing a client

    `RemoveWatcher` and `Close` of `extChains/eth/client.go`, with `Close` of a
    watcher, next to everything else that a client does.  They call a watcher's
    `Close`, which takes the watcher's mutex, while they hold `c.mx`; a
    subscription takes the two mutexes the other way round.  `Close` then
    cancels the context and waits for the goroutines that are counted by
    `c.wg`: that of `subLoop`, and the handlers of events.

    * `Closer` are the places of `RemoveWatcher` and `Close`, and
      `System.react` is a step of the whole;
    * `apart` are the steps in which a closer takes `c.mx` while no
      subscription of the watchers it closes is under way;
    * **`lock_order_kept`**: along them nobody waits for a watcher's mutex under
      `c.mx` while its holder waits for `c.mx`; **`lock_order_crossed`**: along
      other runs two goroutines do, and they wait for ever;
    * **`wg_counts_running`**: `c.wg` counts the running goroutines until that
      of `subLoop` has ended; **`wait_never_returns`**: it stays at one then, and
      `Close` never returns. -/

namespace RelayerClose

open RelayerClient RelayerSignal Routines Transition

/-! ## Places of the closing goroutines -/

/-- Who closes watchers. -/
inductive Task where
  | removeWatcher
  | close
  deriving DecidableEq

/-- The places of `RemoveWatcher` and `Close`. -/
inductive Closer where
  /-- `RemoveWatcher`, before `c.mx.Lock()`. -/
  | removing (key : String)
  /-- `Close`, before `c.mx.Lock()`. -/
  | closing
  /-- Under `c.mx`, before `w.mx.Lock()` of a watcher's `Close`; the watchers
      `rest` are still to come. -/
  | closingWatcher (t : Task) (w : ℕ) (rest : List ℕ)
  /-- Under `c.mx` and `w.mx`, before `w.sub.Unsubscribe()`. -/
  | unsubscribing (t : Task) (w : ℕ) (rest : List ℕ)
  /-- `Close`, before `c.cancel()`. -/
  | cancelling
  /-- `Close`, at `c.wg.Wait()`. -/
  | waiting
  /-- `Close`, before the second `c.subLoopMx.Lock()`. -/
  | closingChannel
  | returned
  deriving DecidableEq

/-- Which mutexes are held at a place. -/
def Closer.holds : Closer → Mutex → Bool
  | .closingWatcher _ _ _, m => m = .mx
  | .unsubscribing _ w _, m => m = .mx || m = .watcherMx w
  | _, _ => false

/-- Which mutex a place is waiting for. -/
def Closer.waitsFor : Closer → Option Mutex
  | .removing _ => some .mx
  | .closing => some .mx
  | .closingWatcher _ w _ => some (.watcherMx w)
  | .closingChannel => some .subLoopMx
  | _ => none

/-- The watchers whose mutex is still to be taken. -/
def Closer.closes : Closer → List ℕ
  | .closingWatcher _ w rest => w :: rest
  | .unsubscribing _ _ rest => rest
  | _ => []

/-- Where closing goes on with the watchers `rest`. -/
def Task.next (t : Task) : List ℕ → Closer
  | w :: rest => .closingWatcher t w rest
  | [] =>
      match t with
      | .removeWatcher => .returned
      | .close => .cancelling

/-! ## The system -/

/-- A client with its closers.  `removed` are the watchers that were deleted
    from `c.watchers`, `handlers` is the number of running `OnEvent` handlers,
    `wg` the counter of `c.wg`. -/
structure System where
  client : Client
  removed : List ℕ
  closers : List Closer
  handlers : ℕ
  wg : ℕ
  cancelled : Bool
  channelClosed : Bool

/-- A new client. -/
def newSystem (chainId : ℕ) (urls : List String) : System :=
  ⟨newClient chainId urls, [], [], 0, 0, false, false⟩

def System.move (s : System) (j : ℕ) (k : Closer) : System :=
  { s with closers := s.closers.set j k }

/-- No closer holds the mutex. -/
def System.unlocked (s : System) (m : Mutex) : Bool :=
  free (fun k => k.holds m) s.closers

/-- Nobody holds the mutex. -/
def System.free (s : System) (m : Mutex) : Bool :=
  s.client.free m && s.unlocked m

/-- The watcher of a key in `c.watchers`. -/
def System.find (s : System) (key : String) : Option ℕ :=
  (List.range s.client.watchers.length).find? fun w =>
    w ∉ s.removed && s.client.watchers[w]?.any (fun e => e.key = key)

/-- The watchers that a pass finds. -/
def System.listed (s : System) (all : Bool) : List ℕ :=
  (s.client.listed all).filter fun w => w ∉ s.removed

/-- Is a subscription loop of watcher `w` running? -/
def System.hasLoop (s : System) (w : ℕ) : Bool :=
  s.client.watchers[w]?.any (fun e => e.loops > 0)

/-- The goroutine that makes a step. -/
def mover : Event → Option ℕ
  | .goes i | .connects i _ _ | .filters i _ | .lists i _ | .takes i
  | .ticks i => some i
  | _ => none

/-- Does the goroutine of an event wait for a mutex that a closer holds? -/
def System.blocks (s : System) (e : Event) : Bool :=
  match (mover e).bind (s.client.routines[·]?) with
  | some r => r.waitsFor.any fun m => !s.unlocked m
  | none => false

/-- A step of the client.  `AddWatcher` and the passes see the watchers that
    are not removed; a closed channel is always ready to be received from, and
    to send on it is a panic. -/
def System.clientStep (s : System) (e : Event) : Option Client :=
  if s.blocks e then none
  else
    match e with
    | .goes i =>
        match s.client.routines[i]? with
        | some (.adding key) =>
            if s.client.free .mx then
              if (s.find key).isSome then some (s.client.move i .returned)
              else
                some ((s.client.register key).move i
                  (.startingLoop s.client.watchers.length))
            else none
        | some (.sending g) =>
            -- a send on a closed channel ends the program
            if s.channelClosed then none else s.client.goes i (.sending g)
        | some r => s.client.goes i r
        | none => none
    | .lists i order =>
        match s.client.routines[i]? with
        | some (.listing all) =>
            if s.client.free .mx ∧ order.Perm (s.listed all) then
              some (s.client.move i (pass order))
            else none
        | _ => none
    | .takes i =>
        if s.channelClosed && s.client.queued = 0 then
          match s.client.routines[i]? with
          | some .selecting => some (s.client.move i .woken)
          | _ => none
        else (s.client.react (.takes i)).map Prod.fst
    | e => (s.client.react e).map Prod.fst

/-- What can happen. -/
inductive Act where
  | client (e : Event)
  | removeWatcher (key : String)
  | close
  /-- Closer `j` takes `c.mx`; `Close` finds the watchers in some order. -/
  | locks (j : ℕ) (order : List ℕ)
  /-- Closer `j` takes the mutex of its watcher. -/
  | locksWatcher (j : ℕ)
  /-- Closer `j` unsubscribes; the watcher's last loop ends, or it had ended
      before, or was never started. -/
  | unsubscribes (j : ℕ) (ends : Bool)
  | cancels (j : ℕ)
  /-- The context that was given to `NewClient` is cancelled. -/
  | contextCancelled
  /-- `c.wg.Wait()` of closer `j` returns. -/
  | waits (j : ℕ)
  | closesChannel (j : ℕ)
  /-- A loop of watcher `w` starts a handler. -/
  | handles (w : ℕ)
  /-- A handler returns. -/
  | handled
  /-- Goroutine `i`, which is `subLoop`, takes the case `<-c.ctx.Done()`. -/
  | done (i : ℕ)

/-- The watchers that a closer is going to close. -/
def System.targets (s : System) : Closer → List ℕ
  | .removing key => (s.find key).toList
  | .closing => s.listed true
  | _ => []

/-- Closer `j` takes `c.mx`. -/
def System.locks (s : System) (j : ℕ) (order : List ℕ) :
    Closer → Option System
  | .removing key =>
      if s.free .mx then
        some (s.move j (Task.next .removeWatcher (s.targets (.removing key))))
      else none
  | .closing =>
      if s.free .mx ∧ order.Perm (s.targets .closing) then
        some (s.move j (Task.next .close order))
      else none
  | _ => none

/-- Closer `j` unsubscribes watcher `w` and deletes it. -/
def System.unsubscribes (s : System) (j : ℕ) (t : Task) (w : ℕ)
    (rest : List ℕ) (ends : Bool) : System :=
  { s with
    client := if ends then s.client.loopEnds w else s.client
    removed := w :: s.removed }.move j (t.next rest)

/-- The client has made a step; `subLoop` calls `c.wg.Add(1)` when it starts
    the loop. -/
def System.follow (s : System) (c : Client) : System :=
  { s with
    client := c
    wg :=
      if c.subLoopInitialized && !s.client.subLoopInitialized then s.wg + 1
      else s.wg }

/-- One step of the whole. -/
def System.react (s : System) : Act → Option (System × Unit)
  | .client e => (s.clientStep e).map fun c => (s.follow c, ())
  | .removeWatcher key =>
      some ({ s with closers := s.closers ++ [.removing key] }, ())
  | .close => some ({ s with closers := s.closers ++ [.closing] }, ())
  | .locks j order =>
      match s.closers[j]? with
      | some k => (s.locks j order k).map fun s => (s, ())
      | none => none
  | .locksWatcher j =>
      match s.closers[j]? with
      | some (.closingWatcher t w rest) =>
          if s.free (.watcherMx w) then
            some (s.move j (.unsubscribing t w rest), ())
          else none
      | _ => none
  | .unsubscribes j ends =>
      match s.closers[j]? with
      | some (.unsubscribing t w rest) =>
          if !ends || s.hasLoop w then
            some (s.unsubscribes j t w rest ends, ())
          else none
      | _ => none
  | .cancels j =>
      match s.closers[j]? with
      | some .cancelling =>
          some ({ s with cancelled := true }.move j .waiting, ())
      | _ => none
  | .contextCancelled => some ({ s with cancelled := true }, ())
  | .waits j =>
      match s.closers[j]? with
      | some .waiting =>
          if s.wg = 0 then some (s.move j .closingChannel, ()) else none
      | _ => none
  | .closesChannel j =>
      match s.closers[j]? with
      | some .closingChannel =>
          -- so does closing it twice
          if s.free .subLoopMx && !(s.client.subLoopInitialized &&
              s.channelClosed) then
            some ({ s with
              channelClosed :=
                s.channelClosed || s.client.subLoopInitialized }.move j
              .returned, ())
          else none
      | _ => none
  | .handles w =>
      if s.hasLoop w then
        some ({ s with handlers := s.handlers + 1, wg := s.wg + 1 }, ())
      else none
  | .handled =>
      if s.handlers > 0 then
        some ({ s with handlers := s.handlers - 1, wg := s.wg - 1 }, ())
      else none
  | .done i =>
      match s.client.routines[i]? with
      | some .selecting =>
          -- `break subLoop`: there is no `c.wg.Done()` on the way out
          if s.cancelled then
            some ({ s with client := s.client.move i .returned }, ())
          else none
      | _ => none

/-! ## What a step of the client does to the goroutines -/

/-- Is a subscription of watcher `w` under way in this call? -/
def Caller.subscribes : Caller → ℕ → Bool
  | .watchLogs u, w => u.concerns w
  | _, _ => false

/-- Is a subscription of watcher `w` under way in this call? -/
def Signaller.subscribes : Signaller → ℕ → Bool
  | .getClient k, w => Caller.subscribes k w
  | .report _, _ => false

/-- Is a subscription of watcher `w` under way at this place, or to come in its
    pass? -/
def subscribes (w : ℕ) : Routine → Bool
  | .startingLoop w' => w' = w
  | .subscribing w' => w' = w
  | .gettingClient k => Caller.subscribes k w
  | .signalling g => Signaller.subscribes g w
  | .sending g => Signaller.subscribes g w
  | .filtering u => u.concerns w
  | .flagging u => u.concerns w
  | .resubscribing w' rest => w' = w || w ∈ rest
  | _ => false

/-- A goroutine that goes from `r` to `r'` stays in `subLoop` or out of it, and
    begins no subscription without `c.mx`. -/
structure Keeps (r r' : Routine) : Prop where
  inSubLoop : r'.inSubLoop = r.inSubLoop
  subscribes : r.waitsFor ≠ some .mx →
    ∀ w, subscribes w r' = true → subscribes w r = true

/-- What a step does to the goroutines. -/
inductive Shift (c c' : Client) (e : Event) : Prop where
  | still (hrs : c'.routines = c.routines)
      (hinit : c'.subLoopInitialized = c.subLoopInitialized)
  | spawned (r' : Routine) (hrs : c'.routines = c.routines ++ [r'])
      (hloop : r'.inSubLoop = false) (hsub : ∀ w, subscribes w r' = false)
      (hinit : c'.subLoopInitialized = c.subLoopInitialized)
  | started (i w : ℕ) (he : mover e = some i)
      (hr : c.routines[i]? = some (.startingLoop w))
      (hrs : c'.routines = (c.routines ++ [Routine.selecting]).set i
        (.subscribing w))
      (hdown : c.subLoopInitialized = false)
      (hup : c'.subLoopInitialized = true)
  | moved (i : ℕ) (r r' : Routine) (he : mover e = some i)
      (hr : c.routines[i]? = some r) (hrs : c'.routines = c.routines.set i r')
      (hkeeps : Keeps r r')
      (hinit : c'.subLoopInitialized = c.subLoopInitialized)

variable {c c' : Client} {i j w : ℕ} {r r' : Routine} {e : Event}

theorem Shift.of_placed (he : mover e = some i) (hr : c.routines[i]? = some r)
    (h : Placed c c' i r') (hkeeps : Keeps r r') : Shift c c' e :=
  .moved i r r' he hr h.routines_eq hkeeps h.initialized_eq

/-- A pass of the retry loop takes up exactly the watchers left on its list. -/
theorem subscribes_pass (rest : List ℕ) :
    subscribes w (pass rest) = true ↔ w ∈ rest := by
  cases rest with
  | nil =>
      exact ⟨fun h => absurd h Bool.false_ne_true,
        fun h => absurd h List.not_mem_nil⟩
  | cons w' rest =>
      rw [RelayerClient.pass, subscribes, List.mem_cons, Bool.or_eq_true,
        decide_eq_true_eq, decide_eq_true_eq, eq_comm]

theorem not_subscribes_failsTo (u : Subscriber) :
    subscribes w u.failsTo = false := by
  cases u <;> rfl

/-- After a subscription the goroutine can only go on with watchers its pass still
    lists. -/
theorem subscribes_doneTo {u : Subscriber}
    (h : subscribes w u.doneTo = true) : u.concerns w = true := by
  cases u with
  | subscribe w' => cases h
  | resubscribe w' rest =>
      have hrest := (subscribes_pass rest).mp h
      simp [Subscriber.concerns, hrest]

/-- What `getClient` returns to was under way before the call. -/
theorem subscribes_returnsTo {k : Caller} {ok : Bool}
    (h : subscribes w (k.returnsTo ok) = true) :
    Caller.subscribes k w = true := by
  cases k with
  | rpc => cases h
  | tick => cases h
  | watchLogs u =>
      cases ok with
      | true => exact h
      | false =>
          rw [Caller.returnsTo, not_subscribes_failsTo] at h
          cases h

/-- The same for a goroutine that comes back from the resubscribe signal. -/
theorem subscribes_signalReturnsTo {g : Signaller}
    (h : subscribes w g.returnsTo = true) :
    Signaller.subscribes g w = true := by
  cases g with
  | report w' => cases h
  | getClient k => exact subscribes_returnsTo h

/-- Every step a goroutine takes on its own is a shift of the client. -/
theorem Goes.shift (hgoes : Goes c i r c') (hr : c.routines[i]? = some r) :
    Shift c c' (.goes i) := by
  cases hgoes with
  | known key =>
      exact .of_placed rfl hr (placed_move c i _) ⟨rfl, fun h => absurd rfl h⟩
  | registers key =>
      exact .moved i _ _ rfl hr rfl ⟨rfl, fun h => absurd rfl h⟩ rfl
  | startsLoop w =>
      -- the first watcher starts `subLoop`, every later one finds it running
      cases hinit : c.subLoopInitialized with
      | true =>
          rw [Client.subLoop, if_pos hinit]
          exact .of_placed rfl hr (placed_move c i _) ⟨rfl, fun _ _ h => h⟩
      | false =>
          rw [Client.subLoop, hinit, if_neg Bool.false_ne_true]
          exact .started i w rfl hr rfl hinit rfl
  | subscribes w =>
      exact .of_placed rfl hr (placed_move c i _) ⟨rfl, fun _ _ h => h⟩
  | locks g _ _ =>
      exact .of_placed rfl hr (placed_move c i _)
        ⟨(inSubLoop_signalling g).symm, fun _ _ h => h⟩
  | drops g _ =>
      refine .of_placed rfl hr (placed_signalReturns c i g)
        ⟨?_, fun _ _ => subscribes_signalReturnsTo⟩
      rw [inSubLoop_signalReturnsTo, inSubLoop_signalling]
  | sends g _ =>
      have hplaced := placed_signalReturns { c with queued := c.queued + 1 } i g
      exact .moved i _ _ rfl hr hplaced.routines_eq
        ⟨inSubLoop_signalReturnsTo g, fun _ _ => subscribes_signalReturnsTo⟩
        hplaced.initialized_eq
  | flags u =>
      exact .of_placed rfl hr (placed_subscribeDone c i u)
        ⟨inSubLoop_doneTo u, fun _ _ => subscribes_doneTo⟩
  -- a woken `subLoop` lists the watchers or goes back to its `select`
  | wakes =>
      obtain ⟨r', hplaced, rfl | ⟨all, rfl⟩⟩ := placed_wake c i
      · exact .of_placed rfl hr hplaced ⟨rfl, fun h => absurd rfl h⟩
      · exact .of_placed rfl hr hplaced ⟨rfl, fun h => absurd rfl h⟩
  | resubscribes w rest =>
      exact .of_placed rfl hr (placed_move c i _) ⟨rfl, fun _ _ h => h⟩

/-- A connection attempt is a shift, whichever way `getClient` ends. -/
theorem shift_connects {k : Caller}
    (hr : c.routines[i]? = some (.gettingClient k)) (current : Reply)
    (dial : String → Reply) :
    Shift c (c.connects i k current dial) (.connects i current dial) := by
  obtain ⟨c₁, ⟨client, connected, recreated, rfl⟩, hcases⟩ :=
    connects_cases c i k current dial
  -- the goroutine waits for `c.mx`, so only `subLoop` is to be kept
  have hreturns : ∀ ok, Keeps (.gettingClient k) (k.returnsTo ok) :=
    fun ok => ⟨inSubLoop_returnsTo k ok, fun h => absurd rfl h⟩
  rcases hcases with heq | heq | ⟨heq, -⟩ | ⟨heq, -⟩
  · rw [heq]
    exact .still rfl rfl
  · rw [heq]
    exact .moved i _ _ rfl hr rfl ⟨rfl, fun h => absurd rfl h⟩ rfl
  · rw [heq]
    exact .moved i _ _ rfl hr (placed_getClientReturns _ i k true).routines_eq
      (hreturns true) (placed_getClientReturns _ i k true).initialized_eq
  · rw [heq]
    exact .moved i _ _ rfl hr (placed_getClientReturns _ i k false).routines_eq
      (hreturns false) (placed_getClientReturns _ i k false).initialized_eq

/-- **EVERY MOVE IS A SHIFT**: the client's own steps, seen by the closers. -/
theorem Moves.shift (hmoves : Moves c e c') : Shift c c' e := by
  cases hmoves with
  | adds key => exact .spawned _ rfl rfl (fun _ => rfl) rfl
  | calls => exact .spawned _ rfl rfl (fun _ => rfl) rfl
  | reports w => exact .spawned _ rfl rfl (fun _ => rfl) rfl
  | unsubscribed w => exact .still rfl rfl
  | unpackFails w => exact .still rfl rfl
  | goes hr hgoes => exact Goes.shift hgoes hr
  | connects current dial hr => exact shift_connects hr current dial
  | filters hr => exact .moved _ _ _ rfl hr rfl ⟨rfl, fun _ _ h => h⟩ rfl
  | filterFails hr =>
      refine .of_placed rfl hr (placed_subscribeFails c _ _)
        -- nothing is subscribed after the error, so the second field is empty
        ⟨inSubLoop_failsTo _, fun _ w h => ?_⟩
      rw [not_subscribes_failsTo] at h
      cases h
  | lists hr _ =>
      exact .of_placed rfl hr (placed_move c _ _)
        ⟨inSubLoop_pass _, fun h => absurd rfl h⟩
  | takes hr _ => exact .moved _ _ _ rfl hr rfl ⟨rfl, fun _ _ h => h⟩ rfl
  | ticks hr _ =>
      exact .of_placed rfl hr (placed_move c _ _) ⟨rfl, fun _ _ h => h⟩
  | idles hr => exact .still rfl rfl

variable {s s' : System}

/-- **EVERY STEP OF THE CLIENT IS A SHIFT**, made by a goroutine that waits for
    no mutex of a closer. -/
theorem clientStep_shift (h : s.clientStep e = some c') :
    s.blocks e = false ∧ Shift s.client c' e := by
  rw [System.clientStep.eq_def] at h
  split at h
  · cases h
  rename_i hblocks
  refine ⟨Bool.not_eq_true _ ▸ hblocks, ?_⟩
  -- where no closer has changed anything, the step is the client's own
  have hreact : ∀ {e}, (s.client.react e).map Prod.fst = some c' →
      Shift s.client c' e := by
    intro e h
    obtain ⟨⟨c₁, o⟩, hreact, rfl⟩ := Option.map_eq_some_iff.mp h
    exact Moves.shift (react_moves hreact)
  cases e with
  | goes i =>
      dsimp only at h
      -- `AddWatcher` looks among the watchers left, a send may find `Close` done
      split at h
      · rename_i key hr
        split at h
        · split at h
          · obtain rfl := Option.some.inj h
            exact Goes.shift (Goes.known key) hr
          · obtain rfl := Option.some.inj h
            exact Goes.shift (Goes.registers key) hr
        · cases h
      · rename_i g hr
        split at h
        · cases h
        · exact Goes.shift (goes_inversion h) hr
      · rename_i r _ _ hr
        exact Goes.shift (goes_inversion h) hr
      · cases h
  | lists i order =>
      dsimp only at h
      split at h
      · rename_i all hr
        split at h
        · obtain rfl := Option.some.inj h
          exact .of_placed rfl hr (placed_move s.client i _)
            ⟨inSubLoop_pass _, fun h => absurd rfl h⟩
        · cases h
      · cases h
  | takes i =>
      dsimp only at h
      split at h
      · split at h
        · rename_i hr
          obtain rfl := Option.some.inj h
          exact .of_placed rfl hr (placed_move s.client i _)
            ⟨rfl, fun _ _ h => h⟩
        · cases h
      · exact hreact h
  | addWatcher key => exact hreact h
  | getClient => exact hreact h
  | subErr w err => exact hreact h
  | unpackFails w => exact hreact h
  | connects i current dial => exact hreact h
  | filters i ok => exact hreact h
  | ticks i => exact hreact h

/-! ## Steps of the whole -/

/-- The steps of the whole. -/
inductive Happens (s : System) : Act → System → Prop where
  | client {e : Event} {c' : Client} (hblocks : s.blocks e = false)
      (hshift : Shift s.client c' e) : Happens s (.client e) (s.follow c')
  | removes (key : String) : Happens s (.removeWatcher key)
      { s with closers := s.closers ++ [.removing key] }
  | closes : Happens s .close { s with closers := s.closers ++ [.closing] }
  | locks {j : ℕ} {k : Closer} {order ws : List ℕ} (t : Task)
      (hk : s.closers[j]? = some k) (hwaits : k.waitsFor = some .mx)
      (hfree : s.free .mx = true) (hws : ws ⊆ s.targets k) :
      Happens s (.locks j order) (s.move j (t.next ws))
  | locksWatcher {j w : ℕ} {t : Task} {rest : List ℕ}
      (hk : s.closers[j]? = some (.closingWatcher t w rest))
      (hfree : s.free (.watcherMx w) = true) :
      Happens s (.locksWatcher j) (s.move j (.unsubscribing t w rest))
  | unsubscribes {j w : ℕ} {t : Task} {rest : List ℕ} (ends : Bool)
      (hk : s.closers[j]? = some (.unsubscribing t w rest)) :
      Happens s (.unsubscribes j ends) (s.unsubscribes j t w rest ends)
  | cancels {j : ℕ} (hk : s.closers[j]? = some .cancelling) :
      Happens s (.cancels j) ({ s with cancelled := true }.move j .waiting)
  | contextCancelled :
      Happens s .contextCancelled { s with cancelled := true }
  | waits {j : ℕ} (hk : s.closers[j]? = some .waiting) (hwg : s.wg = 0) :
      Happens s (.waits j) (s.move j .closingChannel)
  | closesChannel {j : ℕ} (hk : s.closers[j]? = some .closingChannel)
      (closed : Bool) :
      Happens s (.closesChannel j)
        ({ s with channelClosed := closed }.move j .returned)
  | handles (w : ℕ) : Happens s (.handles w)
      { s with handlers := s.handlers + 1, wg := s.wg + 1 }
  | handled (hpos : 0 < s.handlers) : Happens s .handled
      { s with handlers := s.handlers - 1, wg := s.wg - 1 }
  | done {i : ℕ} (hr : s.client.routines[i]? = some .selecting) :
      Happens s (.done i) { s with client := s.client.move i .returned }

/-- Taking `c.mx` is allowed to the two functions that wait for it. -/
theorem locks_happens {k : Closer} {order : List ℕ}
    (hk : s.closers[j]? = some k) (h : s.locks j order k = some s') :
    Happens s (.locks j order) s' := by
  cases k with
  | removing key =>
      rw [System.locks] at h
      split at h
      · rename_i hfree
        obtain rfl := Option.some.inj h
        exact .locks .removeWatcher hk rfl hfree (List.Subset.refl _)
      · cases h
  | closing =>
      rw [System.locks] at h
      split at h
      · rename_i hcond
        obtain rfl := Option.some.inj h
        exact .locks .close hk rfl hcond.1 hcond.2.subset
      · cases h
  | _ => cases h

/-- **EVERY STEP OF THE WHOLE IS ONE OF THESE**. -/
theorem react_happens {a : Act} {o : Unit} (h : s.react a = some (s', o)) :
    Happens s a s' := by
  cases a with
  | client e =>
      obtain ⟨c', hstep, heq⟩ := Option.map_eq_some_iff.mp h
      obtain ⟨rfl, -⟩ := Prod.mk.inj heq
      obtain ⟨hblocks, hshift⟩ := clientStep_shift hstep
      exact .client hblocks hshift
  | removeWatcher key =>
      obtain ⟨rfl, -⟩ := Prod.mk.inj (Option.some.inj h)
      exact .removes key
  | close =>
      obtain ⟨rfl, -⟩ := Prod.mk.inj (Option.some.inj h)
      exact .closes
  | locks j order =>
      rw [System.react] at h
      split at h
      · rename_i k hk
        obtain ⟨s₁, hlocks, heq⟩ := Option.map_eq_some_iff.mp h
        obtain ⟨rfl, -⟩ := Prod.mk.inj heq
        exact locks_happens hk hlocks
      · cases h
  | locksWatcher j =>
      rw [System.react] at h
      split at h
      · rename_i t w rest hk
        split at h
        · rename_i hfree
          obtain ⟨rfl, -⟩ := Prod.mk.inj (Option.some.inj h)
          exact .locksWatcher hk hfree
        · cases h
      · cases h
  | unsubscribes j ends =>
      rw [System.react] at h
      split at h
      · rename_i t w rest hk
        split at h
        · obtain ⟨rfl, -⟩ := Prod.mk.inj (Option.some.inj h)
          exact .unsubscribes ends hk
        · cases h
      · cases h
  | cancels j =>
      rw [System.react] at h
      split at h
      · rename_i hk
        obtain ⟨rfl, -⟩ := Prod.mk.inj (Option.some.inj h)
        exact .cancels hk
      · cases h
  | contextCancelled =>
      obtain ⟨rfl, -⟩ := Prod.mk.inj (Option.some.inj h)
      exact .contextCancelled
  | waits j =>
      rw [System.react] at h
      split at h
      · rename_i hk
        split at h
        · rename_i hwg
          obtain ⟨rfl, -⟩ := Prod.mk.inj (Option.some.inj h)
          exact .waits hk hwg
        · cases h
      · cases h
  | closesChannel j =>
      rw [System.react] at h
      split at h
      · rename_i hk
        split at h
        · obtain ⟨rfl, -⟩ := Prod.mk.inj (Option.some.inj h)
          exact .closesChannel hk _
        · cases h
      · cases h
  | handles w =>
      rw [System.react] at h
      split at h
      · obtain ⟨rfl, -⟩ := Prod.mk.inj (Option.some.inj h)
        exact .handles w
      · cases h
  | handled =>
      rw [System.react] at h
      split at h
      · rename_i hpos
        obtain ⟨rfl, -⟩ := Prod.mk.inj (Option.some.inj h)
        exact .handled hpos
      · cases h
  | done i =>
      rw [System.react] at h
      split at h
      · rename_i hr
        split at h
        · obtain ⟨rfl, -⟩ := Prod.mk.inj (Option.some.inj h)
          exact .done hr
        · cases h
      · cases h

/-- The goroutine of a step that is not blocked waits for no mutex of a
    closer. -/
theorem unlocked_of_blocks {m : Mutex} (hblocks : s.blocks e = false)
    (he : mover e = some i) (hr : s.client.routines[i]? = some r)
    (hwaits : r.waitsFor = some m) : s.unlocked m = true := by
  simpa [System.blocks, he, hr, hwaits] using hblocks

/-! ## The order of the locks -/

/-- Some goroutine holds `m` and waits for `m'`. -/
def System.holdsAndWaits (s : System) (m m' : Mutex) : Prop :=
  (∃ r ∈ s.client.routines, r.holds m = true ∧ r.waitsFor = some m') ∨
    ∃ k ∈ s.closers, k.holds m = true ∧ k.waitsFor = some m'

/-- One goroutine holds `c.mx` and waits for the mutex of a watcher, another
    holds that mutex and waits for `c.mx`. -/
def LockCycle (s : System) : Prop :=
  ∃ w, s.holdsAndWaits .mx (.watcherMx w) ∧ s.holdsAndWaits (.watcherMx w) .mx

/-- The steps in which a closer takes `c.mx` only while no subscription of a
    watcher that it is going to close is under way. -/
def apart (s : System) : Act → Bool
  | .locks j _ =>
      s.closers[j]?.all fun k => (s.targets k).all fun w =>
        Routines.free (subscribes w) s.client.routines
  | _ => true

/-- Nobody subscribes a watcher that is still to be closed. -/
def Apart (s : System) : Prop :=
  ∀ k ∈ s.closers, ∀ w ∈ k.closes,
    Routines.free (subscribes w) s.client.routines = true

variable {k k' : Closer} {t : Task} {ws : List ℕ}

theorem closes_next : (t.next ws).closes = ws := by
  cases ws with
  | nil => cases t <;> rfl
  | cons w ws => rfl

/-- Watchers are closed under `c.mx`. -/
theorem holds_of_closes (h : w ∈ k.closes) : k.holds .mx = true := by
  cases k with
  | closingWatcher t w' rest => rfl
  | unsubscribing t w' rest => rfl
  | _ => cases h

/-- A mutex a closer holds is not free. -/
theorem not_unlocked {m : Mutex} (hk : k ∈ s.closers)
    (hholds : k.holds m = true) : s.unlocked m = false := by
  rw [← Bool.not_eq_true]
  intro hunlocked
  rw [free_iff.mp hunlocked k hk] at hholds
  cases hholds

/-- No shift starts a subscription to `w` while `c.mx` is held. -/
theorem Shift.free_subscribes (hshift : Shift c c' e)
    (hfree : Routines.free (subscribes w) c.routines = true)
    (hmx : ∀ i r, mover e = some i → c.routines[i]? = some r →
      r.waitsFor ≠ some .mx) :
    Routines.free (subscribes w) c'.routines = true := by
  cases hshift with
  | still hrs _ => rw [hrs, hfree]
  | spawned r' hrs _ hsub _ => rw [hrs, free_concat, hfree, hsub]; rfl
  -- the new loop subscribes to nothing yet, the old goroutine to what it did
  | started i w' he hr hrs _ _ =>
      have hfree' : Routines.free (subscribes w)
          (c.routines ++ [Routine.selecting]) = true := by
        rw [free_concat, hfree]
        rfl
      have hplace := free_iff.mp hfree _ (List.mem_of_getElem? hr)
      rw [hrs, free_set_of_free (getElem?_concat hr) hfree']
      change subscribes w (.subscribing w') = false at hplace
      rw [hplace]
      rfl
  | moved i r r' he hr hrs hkeeps _ =>
      rw [hrs, free_set_of_free hr hfree, Bool.not_eq_true']
      by_contra hsub
      have hbefore := hkeeps.subscribes (hmx i r he hr) w
        (Bool.not_eq_false _ ▸ hsub)
      rw [free_iff.mp hfree r (List.mem_of_getElem? hr)] at hbefore
      cases hbefore

/-- A closer that goes on closes no other watchers. -/
theorem Apart.move (h : Apart s)
    (hk' : ∀ w ∈ k'.closes,
      Routines.free (subscribes w) s.client.routines = true) :
    Apart (s.move j k') := by
  intro k hk
  rcases List.mem_or_eq_of_mem_set hk with hold | rfl
  · exact h k hold
  · exact hk'

/-- A closer that closes nothing yet can be added. -/
theorem Apart.concat (h : Apart s) (hk' : k'.closes = []) :
    Apart { s with closers := s.closers ++ [k'] } := by
  intro k hk w hw
  rcases List.mem_append.mp hk with hold | hnew
  · exact h k hold w hw
  · obtain rfl := List.mem_singleton.mp hnew
    rw [hk'] at hw
    cases hw

/-- **ONE STEP** that keeps closers and subscriptions apart. -/
theorem Happens.apart {a : Act} (hstep : Happens s a s') (h : Apart s)
    (hapart : apart s a = true) : Apart s' := by
  cases hstep with
  | client hblocks hshift =>
      intro k (hk : k ∈ s.closers) w hw
      refine hshift.free_subscribes (h k hk w hw) ?_
      -- the closer holds `c.mx`
      intro i r he hr hwaits
      have hunlocked := unlocked_of_blocks hblocks he hr hwaits
      rw [not_unlocked hk (holds_of_closes hw)] at hunlocked
      cases hunlocked
  | removes key => exact h.concat rfl
  | closes => exact h.concat rfl
  | locks t hk _ _ hws =>
      refine h.move ?_
      rw [closes_next]
      intro w hw
      simp only [RelayerClose.apart, hk, Option.all_some, List.all_eq_true]
        at hapart
      exact hapart w (hws hw)
  | locksWatcher hk _ =>
      exact h.move (fun w hw =>
        h _ (List.mem_of_getElem? hk) w (List.mem_cons_of_mem _ hw))
  | unsubscribes ends hk =>
      rename_i j w t rest
      have hrest := h _ (List.mem_of_getElem? hk)
      have hclient : (s.unsubscribes j t w rest ends).client.routines =
          s.client.routines := by
        cases ends <;> rfl
      intro k hk w hw
      rw [hclient]
      rcases List.mem_or_eq_of_mem_set hk with hold | rfl
      · exact h k hold w hw
      · rw [closes_next] at hw
        exact hrest w hw
  | cancels hk => exact Apart.move h (fun _ => (by cases ·))
  | contextCancelled => exact h
  | waits hk _ => exact h.move (fun _ => (by cases ·))
  | closesChannel hk closed => exact Apart.move h (fun _ => (by cases ·))
  | handles w => exact h
  | handled _ => exact h
  | done hr =>
      intro k hk w hw
      show Routines.free _ (s.client.routines.set _ _) = true
      rw [free_set_of_free hr (h k hk w hw)]
      rfl

/-- Who holds `c.mx` in the client waits for `subLoopMx` or to send. -/
theorem not_waitsFor_watcher (hholds : r.holds .mx = true) :
    r.waitsFor ≠ some (.watcherMx w) := by
  intro hwaits
  cases r with
  | signalling g => cases hwaits
  | sending g => cases hwaits
  | gettingClient k => cases hwaits
  | filtering u => cases hwaits
  | flagging u => cases hwaits
  | _ => cases hholds

/-- Holding `c.mx` and waiting for a watcher's mutex: only `closeWatcher`'s
    callers. -/
theorem eq_closingWatcher (hholds : k.holds .mx = true)
    (hwaits : k.waitsFor = some (.watcherMx w)) :
    ∃ t rest, k = .closingWatcher t w rest := by
  cases k with
  | closingWatcher t w' rest =>
      obtain rfl := Mutex.watcherMx.inj (Option.some.inj hwaits)
      exact ⟨t, rest, rfl⟩
  | unsubscribing t w' rest => cases hwaits
  | _ => cases hholds

/-- Holding a watcher's mutex and waiting for `c.mx`: only `watchLogs`. -/
theorem eq_gettingClient (hholds : r.holds (.watcherMx w) = true)
    (hwaits : r.waitsFor = some .mx) :
    ∃ u, u.watcher = w ∧ r = .gettingClient (.watchLogs u) := by
  cases r with
  | gettingClient k =>
      cases k with
      | watchLogs u =>
          have hw := Mutex.watcherMx.inj (of_decide_eq_true hholds)
          exact ⟨u, hw.symm, rfl⟩
      | _ => cases hholds
  | signalling g => cases hwaits
  | sending g => cases hwaits
  | filtering u => cases hwaits
  | flagging u => cases hwaits
  | _ => cases hholds

/-- Who closes a watcher has `c.mx` already. -/
theorem not_waitsFor_mx (hholds : k.holds (.watcherMx w) = true) :
    k.waitsFor ≠ some .mx := by
  intro hwaits
  cases k with
  | closingWatcher t w' rest => cases hwaits
  | unsubscribing t w' rest => cases hwaits
  | _ => cases hholds

/-- A cycle is a closer that waits for a watcher whose subscription waits for
    `c.mx`. -/
theorem lockCycle_iff : LockCycle s ↔
    ∃ (i j w : ℕ) (t : Task) (rest : List ℕ) (u : Subscriber),
      s.closers[j]? = some (.closingWatcher t w rest) ∧ u.watcher = w ∧
      s.client.routines[i]? = some (.gettingClient (.watchLogs u)) := by
  constructor
  · rintro ⟨w, hmx, hwatcher⟩
    rcases hmx with ⟨r, -, hholds, hwaits⟩ | ⟨k, hk, hholds, hwaits⟩
    · exact absurd hwaits (not_waitsFor_watcher hholds)
    obtain ⟨t, rest, rfl⟩ := eq_closingWatcher hholds hwaits
    rcases hwatcher with ⟨r, hr, hholds, hwaits⟩ | ⟨k', -, hholds, hwaits⟩
    · obtain ⟨u, hu, rfl⟩ := eq_gettingClient hholds hwaits
      obtain ⟨j, hj⟩ := List.mem_iff_getElem?.mp hk
      obtain ⟨i, hi⟩ := List.mem_iff_getElem?.mp hr
      exact ⟨i, j, w, t, rest, u, hj, hu, hi⟩
    · exact absurd hwaits (not_waitsFor_mx hholds)
  · rintro ⟨i, j, w, t, rest, u, hj, rfl, hi⟩
    exact ⟨u.watcher, Or.inr ⟨_, List.mem_of_getElem? hj, rfl, rfl⟩,
      Or.inl ⟨_, List.mem_of_getElem? hi, decide_eq_true rfl, rfl⟩⟩

theorem concerns_watcher (u : Subscriber) : u.concerns u.watcher = true := by
  cases u <;> simp [Subscriber.concerns, Subscriber.watcher]

/-- Closers apart from the subscriptions cannot cross with one. -/
theorem Apart.not_lockCycle (h : Apart s) : ¬ LockCycle s := by
  intro hcycle
  obtain ⟨i, j, w, t, rest, u, hj, rfl, hi⟩ := lockCycle_iff.mp hcycle
  have hfree := h _ (List.mem_of_getElem? hj) u.watcher List.mem_cons_self
  have hnot := free_iff.mp hfree _ (List.mem_of_getElem? hi)
  change u.concerns u.watcher = false at hnot
  rw [concerns_watcher] at hnot
  cases hnot

/-- **THE LOCK ORDER IS KEPT**: along every run in which `Close` and
    `RemoveWatcher` take `c.mx` only while no subscription of the watchers they
    close is under way, no goroutine waits for a watcher's mutex under `c.mx`
    while the holder of that mutex waits for `c.mx`. -/
theorem lock_order_kept (chainId : ℕ) (urls : List String) :
    ∀ tr s, Run (Guarded (Fires System.react) (fun s l => apart s l.1 = true))
        (newSystem chainId urls) tr s →
      ¬ LockCycle s := by
  intro tr s hrun
  have h : Apart s := hrun.invariant (P := Apart)
    (fun k hk => absurd hk List.not_mem_nil)
    (fun _ _ _ ha hstep => (react_happens hstep.1).apart ha hstep.2)
  exact h.not_lockCycle

/-- `Close` waits for a watcher that nobody subscribes. -/
theorem lock_order_kept_sample :
    ∃ tr s, Run (Guarded (Fires System.react) (fun s l => apart s l.1 = true))
        (newSystem 1 ["ws://node"]) tr s ∧
      (s.closers = [.closingWatcher .close 0 []] ∧
        s.client.routines = [.returned, .selecting]) ∧ ¬ LockCycle s := by
  obtain ⟨tr, s, hrun, hs⟩ := exists_run
    (fun _ (s : System) => s.closers = [.closingWatcher .close 0 []] ∧
      s.client.routines = [.returned, .selecting])
    (show (execute (restrict apart System.react) (newSystem 1 ["ws://node"])
      (addedWatcher.map Act.client ++ [.close, .locks 0 [0]])).any _ = true by
      decide +kernel)
  exact ⟨tr, s, restrict_run hrun, hs,
    lock_order_kept 1 ["ws://node"] tr s (restrict_run hrun)⟩

/-- **A CYCLE IS FOR EVER**: neither of the two goroutines makes another
    step. -/
theorem Happens.lockCycle {a : Act} (hstep : Happens s a s')
    (h : LockCycle s) : LockCycle s' := by
  obtain ⟨i, j, w, t, rest, u, hj, hu, hi⟩ := lockCycle_iff.mp h
  -- the closer of the cycle holds `c.mx`, so nobody else takes it
  have hheld : s.unlocked .mx = false :=
    not_unlocked (List.mem_of_getElem? hj) rfl
  rw [lockCycle_iff]
  refine ⟨i, j, w, t, rest, u, ?_, hu, ?_⟩
  -- the closer stays: only the watcher's mutex would let it go on
  · cases hstep with
    | client _ _ => exact hj
    | removes key => exact getElem?_concat hj
    | closes => exact getElem?_concat hj
    | locks t hk _ hfree _ =>
        rw [System.free, hheld, Bool.and_false] at hfree
        cases hfree
    | locksWatcher hk hfree =>
        refine getElem?_set_of_ne hj hk ?_
        rintro heq
        obtain ⟨-, rfl, -⟩ := Closer.closingWatcher.inj heq
        rw [System.free, Bool.and_eq_true] at hfree
        have hnot := free_iff.mp hfree.1 _ (List.mem_of_getElem? hi)
        rw [← hu] at hnot
        exact absurd (decide_eq_true rfl) (Bool.eq_false_iff.mp hnot)
    | unsubscribes ends hk => exact getElem?_set_of_ne hj hk (by simp)
    | cancels hk => exact getElem?_set_of_ne hj hk (by simp)
    | contextCancelled => exact hj
    | waits hk _ => exact getElem?_set_of_ne hj hk (by simp)
    | closesChannel hk _ => exact getElem?_set_of_ne hj hk (by simp)
    | handles w => exact hj
    | handled _ => exact hj
    | done _ => exact hj
  -- the goroutine stays: it waits for the `c.mx` the closer holds
  · cases hstep with
    | client hblocks hshift =>
        cases hshift with
        | still hrs _ => exact hrs ▸ hi
        | spawned r' hrs _ _ _ => exact hrs ▸ getElem?_concat hi
        | started i' w' _ hr hrs _ _ =>
            exact hrs ▸ getElem?_set_of_ne (getElem?_concat hi)
              (getElem?_concat hr) (by simp)
        | moved i' r r' he hr hrs _ _ =>
            refine hrs ▸ getElem?_set_of_ne hi hr ?_
            rintro rfl
            have hunlocked := unlocked_of_blocks hblocks he hr rfl
            rw [hheld] at hunlocked
            cases hunlocked
    | unsubscribes ends hk => cases ends <;> exact hi
    | done hr => exact getElem?_set_of_ne hi hr (by simp)
    | _ => exact hi

/-- `subLoop` takes the signal of the connection and is about to subscribe the
    watcher again. -/
def subscribedAgain : List Event :=
  addedWatcher ++ [.takes 1, .goes 1, .lists 1 [0], .goes 1]

/-- **THE LOCK ORDER IS CROSSED**: `Close` while `AddWatcher` subscribes, or
    `RemoveWatcher` while `subLoop` subscribes again, waits for the mutex of the
    watcher and holds the `c.mx` that the subscription waits for; and so it stays
    in every later state. -/
theorem lock_order_crossed :
    (∃ tr s, Run (Fires System.react) (newSystem 1 ["ws://node"]) tr s ∧
      s.closers = [.closingWatcher .close 0 []] ∧
      s.client.routines =
        [.gettingClient (.watchLogs (.subscribe 0)), .selecting] ∧
      LockCycle s ∧
      ∀ tr' s', Run (Fires System.react) s tr' s' → LockCycle s') ∧
    ∃ tr s, Run (Fires System.react) (newSystem 1 ["ws://node"]) tr s ∧
      s.closers = [.closingWatcher .removeWatcher 0 []] ∧
      s.client.routines =
        [.returned, .gettingClient (.watchLogs (.resubscribe 0 []))] ∧
      LockCycle s ∧
      ∀ tr' s', Run (Fires System.react) s tr' s' → LockCycle s' := by
  have hforever : ∀ s, LockCycle s →
      ∀ tr' s', Run (Fires System.react) s tr' s' → LockCycle s' :=
    fun s hcycle tr' s' hrun => hrun.invariant hcycle
      (fun _ _ _ h hstep => (react_happens hstep).lockCycle h)
  constructor
  -- `Close` comes while `AddWatcher` is inside its first `subscribe`
  · obtain ⟨tr, s, hrun, hks, hrs⟩ := exists_run
      (fun _ (s : System) => s.closers = [.closingWatcher .close 0 []] ∧
        s.client.routines =
          [.gettingClient (.watchLogs (.subscribe 0)), .selecting])
      (show (execute System.react (newSystem 1 ["ws://node"])
        ((addedWatcher.take 4).map Act.client ++ [.close, .locks 0 [0]])).any _
        = true by decide +kernel)
    have hcycle : LockCycle s := lockCycle_iff.mpr
      ⟨0, 0, 0, .close, [], .subscribe 0, by rw [hks]; rfl, rfl,
        by rw [hrs]; rfl⟩
    exact ⟨tr, s, hrun, hks, hrs, hcycle, hforever s hcycle⟩
  -- `RemoveWatcher` comes while `subLoop` is inside a second one
  · obtain ⟨tr, s, hrun, hks, hrs⟩ := exists_run
      (fun _ (s : System) => s.closers = [.closingWatcher .removeWatcher 0 []] ∧
        s.client.routines =
          [.returned, .gettingClient (.watchLogs (.resubscribe 0 []))])
      (show (execute System.react (newSystem 1 ["ws://node"])
        (subscribedAgain.map Act.client ++
          [.removeWatcher "bridge:OracleRequest", .locks 0 []])).any _ = true by
        decide +kernel)
    have hcycle : LockCycle s := lockCycle_iff.mpr
      ⟨1, 0, 0, .removeWatcher, [], .resubscribe 0 [], by rw [hks]; rfl, rfl,
        by rw [hrs]; rfl⟩
    exact ⟨tr, s, hrun, hks, hrs, hcycle, hforever s hcycle⟩

/-! ## The counter of goroutines -/

/-- The goroutines that `c.wg` is for and that run: that of `subLoop`, and the
    handlers. -/
def System.running (s : System) : ℕ :=
  s.client.routines.countP Routine.inSubLoop + s.handlers

/-- Was `subLoop` started, and has its goroutine ended? -/
def System.ended (s : System) : Bool :=
  s.client.subLoopInitialized &&
    Routines.free Routine.inSubLoop s.client.routines

/-- The counter is one for each handler and one for a `subLoop` that was ever
    started; and `subLoop` runs once at most. -/
structure Accounted (s : System) : Prop where
  counter : s.wg =
    s.handlers + (if s.client.subLoopInitialized then 1 else 0)
  oneLoop : s.client.routines.countP Routine.inSubLoop ≤
    (if s.client.subLoopInitialized then 1 else 0)

theorem accounted_new (chainId : ℕ) (urls : List String) :
    Accounted (newSystem chainId urls) :=
  ⟨rfl, Nat.zero_le _⟩

/-- `subLoopInitialized` lets one goroutine into `subLoop`. -/
theorem Shift.oneLoop (hshift : Shift c c' e)
    (h : c.routines.countP Routine.inSubLoop ≤
      (if c.subLoopInitialized then 1 else 0)) :
    c'.routines.countP Routine.inSubLoop ≤
      (if c'.subLoopInitialized then 1 else 0) := by
  cases hshift with
  | still hrs hinit =>
      rw [hrs, hinit]
      exact h
  | spawned r' hrs hloop _ hinit =>
      rw [hrs, hinit, List.countP_append, List.countP_singleton, hloop]
      exact h
  | started i w _ hr hrs hdown hup =>
      have hmove := countP_set_add Routine.inSubLoop (.subscribing w)
        (getElem?_concat (r := .selecting) hr)
      rw [hdown] at h
      rw [hrs, hup]
      simp only [List.countP_append, List.countP_singleton, Routine.inSubLoop,
        Bool.false_eq_true, if_false, if_true, Nat.add_zero] at hmove h ⊢
      omega
  | moved i r r' _ hr hrs hkeeps hinit =>
      have hmove := countP_set_add Routine.inSubLoop r' hr
      rw [hkeeps.inSubLoop] at hmove
      rw [hrs, hinit]
      omega

/-- A started loop stays started, and adds one when it starts. -/
theorem Shift.counter (hshift : Shift s.client c' e) {n : ℕ}
    (h : s.wg = n + (if s.client.subLoopInitialized then 1 else 0)) :
    (s.follow c').wg = n + (if c'.subLoopInitialized then 1 else 0) := by
  have hsame : c'.subLoopInitialized = s.client.subLoopInitialized →
      (s.follow c').wg = n + (if c'.subLoopInitialized then 1 else 0) := by
    intro hinit
    rw [System.follow, hinit, Bool.and_not_self]
    exact h
  cases hshift with
  | still _ hinit => exact hsame hinit
  | spawned _ _ _ _ hinit => exact hsame hinit
  | started i w _ _ _ hdown hup =>
      rw [hdown] at h
      rw [System.follow, hdown, hup]
      simpa using h
  | moved _ _ _ _ _ _ _ hinit => exact hsame hinit

/-- **ONE STEP** keeps the accounts. -/
theorem Happens.accounted {a : Act} (hstep : Happens s a s')
    (h : Accounted s) : Accounted s' := by
  cases hstep with
  | client _ hshift => exact ⟨hshift.counter h.counter, hshift.oneLoop h.oneLoop⟩
  | unsubscribes ends _ => cases ends <;> exact ⟨h.counter, h.oneLoop⟩
  | handles w =>
      refine ⟨?_, h.oneLoop⟩
      have hcounter := h.counter
      dsimp only
      omega
  | handled hpos =>
      refine ⟨?_, h.oneLoop⟩
      have hcounter := h.counter
      dsimp only
      omega
  -- `subLoop` leaves without `c.wg.Done()`: the counter stays where it was
  | done hr =>
      refine ⟨h.counter, ?_⟩
      have hmove := countP_set_add Routine.inSubLoop .returned hr
      have hone := h.oneLoop
      simp only [Routine.inSubLoop, Bool.false_eq_true, if_false, if_true,
        Nat.add_zero] at hmove
      refine le_trans ?_ hone
      show (s.client.routines.set _ _).countP _ ≤ _
      omega
  | _ => exact ⟨h.counter, h.oneLoop⟩

/-- **IN EVERY RUN** the accounts are kept. -/
theorem accounted_run {chainId : ℕ} {urls : List String}
    {tr : List (Act × Unit)}
    (hrun : Run (Fires System.react) (newSystem chainId urls) tr s) :
    Accounted s :=
  hrun.invariant (accounted_new chainId urls)
    (fun _ _ _ ha hstep => (react_happens hstep).accounted ha)

/-- No goroutine is at a place exactly when their count is zero. -/
theorem free_iff_countP {p : Routine → Bool} {rs : List Routine} :
    Routines.free p rs = true ↔ rs.countP p = 0 := by
  rw [free_iff, List.countP_eq_zero]
  simp

/-- The counter is right until the goroutine of `subLoop` has ended; from then
    on it is one too high. -/
theorem Accounted.wg_eq (h : Accounted s) :
    s.wg = s.running + (if s.ended then 1 else 0) := by
  have hcounter := h.counter
  have hone := h.oneLoop
  rw [System.running, System.ended]
  cases hinit : s.client.subLoopInitialized with
  | false =>
      rw [hinit] at hcounter hone
      simp only [Bool.false_eq_true, if_false, Bool.false_and] at hcounter hone ⊢
      omega
  | true =>
      rw [hinit] at hcounter hone
      simp only [if_true, Bool.true_and] at hcounter hone ⊢
      split
      · rename_i hfree
        rw [free_iff_countP.mp hfree]
        omega
      · rename_i hbusy
        rw [free_iff_countP] at hbusy
        omega

/-- **`c.wg` COUNTS THE RUNNING GOROUTINES**, exactly as long as that of
    `subLoop` was not started or has not ended; and then a `Close` at its `Wait`
    goes on once they have all ended. -/
theorem wg_counts_running (chainId : ℕ) (urls : List String) :
    ∀ tr s, Run (Fires System.react) (newSystem chainId urls) tr s →
      (s.wg = s.running ↔ s.ended = false) ∧
      (s.ended = false → s.running = 0 → s.wg = 0 ∧
        ∀ j, s.closers[j]? = some .waiting →
          s.react (.waits j) = some (s.move j .closingChannel, ())) := by
  intro tr s hrun
  have hwg := (accounted_run hrun).wg_eq
  constructor
  · cases hended : s.ended with
    | false => simpa [hended] using hwg
    | true =>
        rw [hended, if_pos rfl] at hwg
        exact ⟨fun heq => by omega, (by cases ·)⟩
  · intro hended hrunning
    have hzero : s.wg = 0 := by
      rw [hwg, hrunning, hended]
      rfl
    refine ⟨hzero, fun j hj => ?_⟩
    rw [System.react, hj]
    dsimp only
    rw [if_pos hzero]

/-- The loop and one of two handlers are running; and `Close` of a client
    without watchers is at its `Wait`, which returns. -/
theorem wg_counts_running_sample :
    (∃ tr s, Run (Fires System.react) (newSystem 1 ["ws://node"]) tr s ∧
      (s.ended = false ∧ s.running = 2) ∧ s.wg = s.running) ∧
    ∃ tr s, Run (Fires System.react) (newSystem 1 ["ws://node"]) tr s ∧
      (s.ended = false ∧ s.running = 0 ∧ s.closers[0]? = some .waiting) ∧
      s.react (.waits 0) = some (s.move 0 .closingChannel, ()) := by
  constructor
  · obtain ⟨tr, s, hrun, hended, hrunning⟩ := exists_run
      (fun _ (s : System) => s.ended = false ∧ s.running = 2)
      (show (execute System.react (newSystem 1 ["ws://node"])
        (addedWatcher.map Act.client ++ [.handles 0, .handles 0, .handled])).any _
        = true by decide +kernel)
    exact ⟨tr, s, hrun, ⟨hended, hrunning⟩,
      (wg_counts_running 1 ["ws://node"] tr s hrun).1.mpr hended⟩
  · obtain ⟨tr, s, hrun, hended, hrunning, hk⟩ := exists_run
      (fun _ (s : System) => s.ended = false ∧ s.running = 0 ∧
        s.closers[0]? = some .waiting)
      (show (execute System.react (newSystem 1 ["ws://node"])
        [.close, .locks 0 [], .cancels 0]).any _ = true by decide +kernel)
    exact ⟨tr, s, hrun, ⟨hended, hrunning, hk⟩,
      ((wg_counts_running 1 ["ws://node"] tr s hrun).2 hended hrunning).2 0 hk⟩

/-- A started loop stays started. -/
theorem Shift.initialized (hshift : Shift c c' e)
    (h : c.subLoopInitialized = true) : c'.subLoopInitialized = true := by
  cases hshift with
  | still _ hinit => rw [hinit, h]
  | spawned _ _ _ _ hinit => rw [hinit, h]
  | started _ _ _ _ _ _ hup => exact hup
  | moved _ _ _ _ _ _ _ hinit => rw [hinit, h]

/-- `Close` at its `Wait`, after `subLoop` was started. -/
structure Hangs (s : System) (j : ℕ) : Prop where
  accounted : Accounted s
  initialized : s.client.subLoopInitialized = true
  waiting : s.closers[j]? = some .waiting

/-- **ONE STEP** does not end the `Wait`. -/
theorem Happens.hangs {a : Act} (hstep : Happens s a s') (h : Hangs s j) :
    Hangs s' j := by
  refine ⟨hstep.accounted h.accounted, ?_, ?_⟩
  · cases hstep with
    | client _ hshift => exact hshift.initialized h.initialized
    | unsubscribes ends _ => cases ends <;> exact h.initialized
    | _ => exact h.initialized
  · have hj := h.waiting
    cases hstep with
    | removes key => exact getElem?_concat hj
    | closes => exact getElem?_concat hj
    | locks t hk hwaits _ _ =>
        refine getElem?_set_of_ne hj hk ?_
        rintro rfl
        cases hwaits
    | locksWatcher hk _ => exact getElem?_set_of_ne hj hk (by simp)
    | unsubscribes ends hk => exact getElem?_set_of_ne hj hk (by simp)
    | cancels hk => exact getElem?_set_of_ne hj hk (by simp)
    -- `wg.Wait` would need the counter at zero, and `subLoop` still counts
    | waits hk hwg =>
        have hcounter := h.accounted.counter
        rw [h.initialized, if_pos rfl] at hcounter
        omega
    | closesChannel hk _ => exact getElem?_set_of_ne hj hk (by simp)
    | client _ _ => exact hj
    | contextCancelled => exact hj
    | handles w => exact hj
    | handled _ => exact hj
    | done _ => exact hj

/-- **`Close` NEVER RETURNS**: a watcher was added, `Close` has cancelled the
    context, and every goroutine that `c.wg` is for has ended; the counter is
    one, and `Close` is at its `Wait` in every later state. -/
theorem wait_never_returns :
    ∃ tr s, Run (Fires System.react) (newSystem 1 ["ws://node"]) tr s ∧
      s.cancelled = true ∧ s.client.routines = [.returned, .returned] ∧
      s.running = 0 ∧ s.wg = 1 ∧ s.closers = [.waiting] ∧
      ∀ tr' s', Run (Fires System.react) s tr' s' →
        s'.closers[0]? = some .waiting := by
  obtain ⟨tr, s, hrun, hinit, hs⟩ := exists_run
    (fun _ (s : System) => s.client.subLoopInitialized = true ∧
      s.cancelled = true ∧ s.client.routines = [.returned, .returned] ∧
      s.running = 0 ∧ s.wg = 1 ∧ s.closers = [.waiting])
    (show (execute System.react (newSystem 1 ["ws://node"])
      (addedWatcher.map Act.client ++ [.handles 0, .close, .locks 0 [0],
        .locksWatcher 0, .unsubscribes 0 true, .cancels 0, .handled,
        .done 1])).any _ = true by decide +kernel)
  obtain ⟨hcancelled, hrs, hrunning, hwg, hks⟩ := hs
  refine ⟨tr, s, hrun, hcancelled, hrs, hrunning, hwg, hks, ?_⟩
  intro tr' s' hrun'
  have hhangs : Hangs s 0 := ⟨accounted_run hrun, hinit, by rw [hks]; rfl⟩
  exact (hrun'.invariant hhangs
    (fun _ _ _ ha hstep => (react_happens hstep).hangs ha)).waiting

end RelayerClose
