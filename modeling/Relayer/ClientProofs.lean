import Relayer.RoutineProofs
import Relayer.TransitionProofs

/-! # The client of a chain and its resubscription loop

    `extChains/eth/client.go` with `Subscribe` and `Resubscribe` of
    `watcher.go`: a client keeps one connection to its chain, and the
    goroutine of `subLoop` subscribes its watchers again when a connection was
    replaced or a subscription broke.  It is woken through the channel
    `reSubWatchers` of capacity 1, or by its ticker when `reconnectOnTimer` is
    set.

    The model is the list of the goroutines, each at a place of its code
    (`Routine`); a step goes from one place where it may have to wait (a
    mutex, the channel, an answer of the network) to the next.  Which mutexes
    are held is read off the places (`Routine.holds`).

    * `Client.react` is one step of one goroutine, or the arrival of a new
      one: a call of `AddWatcher`, a remote call that needs `getClient`, or a
      subscription loop that ends;
    * `react_moves` says once what a step can do;
    * **`dead_watcher_retried`**: which runs keep a retry pending for every
      watcher without a subscription. -/

namespace RelayerClient

open Routines Transition

/-! ## Places of the goroutines -/

/-- What a node answers to `DialContext` and `ChainID`. -/
inductive Reply where
  | unreachable
  | noChainId
  | otherChain
  | sameChain
  deriving DecidableEq

/-- Who subscribes watcher `w`: `AddWatcher`, or a pass of `subLoop` that goes
    on with the watchers `rest`. -/
inductive Subscriber where
  | subscribe (w : ℕ)
  | resubscribe (w : ℕ) (rest : List ℕ)
  deriving DecidableEq

/-- Who has called `getClient`: a remote call, the ticker case of `subLoop`,
    or `watchLogs` for a subscription. -/
inductive Caller where
  | rpc
  | tick
  | watchLogs (u : Subscriber)
  deriving DecidableEq

/-- Who has called `SendResubscribeSignal`: `getClient` after a reconnect, or
    the loop of watcher `w` after an error. -/
inductive Signaller where
  | getClient (k : Caller)
  | report (w : ℕ)
  deriving DecidableEq

/-- The places where a goroutine may be. -/
inductive Routine where
  /-- `AddWatcher`, before `c.mx.Lock()`. -/
  | adding (key : String)
  /-- `AddWatcher`, watcher registered, before `c.subLoopMx.Lock()` of
      `subLoop`. -/
  | startingLoop (w : ℕ)
  /-- `AddWatcher`, before `w.mx.Lock()` of `Subscribe`. -/
  | subscribing (w : ℕ)
  /-- `getClient`, before `c.mx.Lock()`. -/
  | gettingClient (k : Caller)
  /-- `SendResubscribeSignal`, before `c.subLoopMx.Lock()`. -/
  | signalling (g : Signaller)
  /-- `SendResubscribeSignal`, before the send on `c.reSubWatchers`. -/
  | sending (g : Signaller)
  /-- `watchLogs`, before `SubscribeFilterLogs` of the connection. -/
  | filtering (u : Subscriber)
  /-- The new subscription loop runs, before `setSubscribed(true)`. -/
  | flagging (u : Subscriber)
  /-- `subLoop` in its select. -/
  | selecting
  /-- `subLoop` has taken a signal, before `c.mx.Lock()`. -/
  | woken
  /-- `subLoop` before `c.mx.Lock()` of `getAllWatchers` or
      `getUnsubscribedWatchers`. -/
  | listing (all : Bool)
  /-- `subLoop` before `w.mx.Lock()` of `Resubscribe`. -/
  | resubscribing (w : ℕ) (rest : List ℕ)
  /-- Returned. -/
  | returned
  deriving DecidableEq

/-- The mutexes of a client and of its watchers. -/
inductive Mutex where
  | mx
  | subLoopMx
  | watcherMx (w : ℕ)
  deriving DecidableEq

/-- The watcher whose mutex a subscriber holds. -/
def Subscriber.watcher : Subscriber → ℕ
  | .subscribe w => w
  | .resubscribe w _ => w

/-- The mutex `getClient` was called under. -/
def Caller.holds : Caller → Mutex → Bool
  | .watchLogs u, m => m = .watcherMx u.watcher
  | _, _ => false

/-- Which mutexes are held at a place. -/
def Routine.holds : Routine → Mutex → Bool
  | .gettingClient k, m => k.holds m
  | .signalling (.getClient k), m => m = .mx || k.holds m
  | .sending (.getClient k), m => m = .mx || m = .subLoopMx || k.holds m
  | .sending (.report _), m => m = .subLoopMx
  | .filtering u, m => m = .watcherMx u.watcher
  | .flagging u, m => m = .watcherMx u.watcher
  | _, _ => false

/-- Which mutex a place is waiting for. -/
def Routine.waitsFor : Routine → Option Mutex
  | .adding _ => some .mx
  | .startingLoop _ => some .subLoopMx
  | .subscribing w => some (.watcherMx w)
  | .gettingClient _ => some .mx
  | .signalling _ => some .subLoopMx
  | .woken => some .mx
  | .listing _ => some .mx
  | .resubscribing w _ => some (.watcherMx w)
  | _ => none

/-- The calls made by the goroutine of `subLoop`. -/
def Subscriber.inSubLoop : Subscriber → Bool
  | .subscribe _ => false
  | .resubscribe _ _ => true

/-- The calls made by the goroutine of `subLoop`. -/
def Caller.inSubLoop : Caller → Bool
  | .rpc => false
  | .tick => true
  | .watchLogs u => u.inSubLoop

/-- The places of the goroutine of `subLoop`. -/
def Routine.inSubLoop : Routine → Bool
  | .gettingClient k => k.inSubLoop
  | .signalling (.getClient k) => k.inSubLoop
  | .sending (.getClient k) => k.inSubLoop
  | .filtering u => u.inSubLoop
  | .flagging u => u.inSubLoop
  | .selecting | .woken | .listing _ | .resubscribing _ _ => true
  | _ => false

/-! ## The client -/

/-- A watcher in `c.watchers`: its key, its flag `subscribed`, and how many
    subscription loops it has running. -/
structure Entry where
  key : String
  subscribed : Bool
  loops : ℕ
  deriving DecidableEq

/-- `client`, with the goroutines that use it.  Watchers are known by their
    position; `queued` is the number of signals in `reSubWatchers`. -/
structure Client where
  chainId : ℕ
  urls : List String
  currentUrl : String
  ethClient : Option String
  connected : Bool
  recreated : Bool
  watchers : List Entry
  subLoopInitialized : Bool
  queued : ℕ
  reconnectOnTimer : Bool
  routines : List Routine

/-- The client that `NewClient` makes. -/
def newClient (chainId : ℕ) (urls : List String) : Client where
  chainId := chainId
  urls := urls
  currentUrl := ""
  ethClient := none
  connected := false
  recreated := false
  watchers := []
  subLoopInitialized := false
  queued := 0
  reconnectOnTimer := false
  routines := []

/-- `NewClient`: a configuration without urls is refused. -/
def newClientOf (id : ℕ) (urls : List String) : Except String Client :=
  if urls.length ≤ 0 then .error "empty client urls" else .ok (newClient id urls)

/-- Goroutine `i` comes to another place. -/
def Client.move (c : Client) (i : ℕ) (r : Routine) : Client :=
  { c with routines := c.routines.set i r }

/-- A goroutine appears. -/
def Client.spawn (c : Client) (r : Routine) : Client :=
  { c with routines := c.routines ++ [r] }

/-- Nobody holds the mutex. -/
def Client.free (c : Client) (m : Mutex) : Bool :=
  Routines.free (fun r => r.holds m) c.routines

/-- A change to watcher `w`. -/
def Client.update (c : Client) (w : ℕ) (f : Entry → Entry) : Client :=
  { c with watchers := c.watchers.modify w f }

/-- `setSubscribed`. -/
def Client.setSubscribed (c : Client) (w : ℕ) (subscribed : Bool) : Client :=
  c.update w (fun e => { e with subscribed := subscribed })

/-- A subscription loop of watcher `w` starts. -/
def Client.loopStarts (c : Client) (w : ℕ) : Client :=
  c.update w (fun e => { e with loops := e.loops + 1 })

/-- A subscription loop of watcher `w` ends. -/
def Client.loopEnds (c : Client) (w : ℕ) : Client :=
  c.update w (fun e => { e with loops := e.loops - 1 })

/-- `c.watchers[key] = watcher`. -/
def Client.register (c : Client) (key : String) : Client :=
  { c with watchers := c.watchers ++ [⟨key, false, 0⟩] }

/-- The loop over the urls in `getClient`. -/
def Client.connect (c : Client) (dial : String → Reply) : List String → Client
  | [] => c
  | url :: urls =>
      if c.currentUrl ≠ "" ∧ c.urls.length > 1 ∧ url = c.currentUrl then
        { c with connected := false }.connect dial urls
      else
        match dial url with
        | .sameChain =>
            { c with
              ethClient := some url
              connected := true
              recreated := true }
        | _ => { c with connected := false }.connect dial urls

/-- How `getClient` goes on after its work under `c.mx`. -/
inductive Got where
  /-- The old connection is of no use: `getClient` calls itself. -/
  | again
  /-- A new connection: the signal is sent before it is returned. -/
  | reconnected
  /-- The old connection is returned. -/
  | found
  | failed (err : String)
  deriving DecidableEq

/-- The work of `getClient` under `c.mx`, up to the signal; `current` is what
    the present connection answers, `dial` what the urls do. -/
def Client.getClient (c : Client) (current : Reply) (dial : String → Reply) :
    Client × Got :=
  match c.ethClient with
  | none =>
      let c := c.connect dial c.urls
      if c.connected then (c, .reconnected)
      else
        (c, .failed ("connection to all rpc url for chain ["
          ++ toString c.chainId ++ "]  failed"))
  | some _ =>
      match current with
      | .sameChain => ({ c with connected := true, recreated := false }, .found)
      | _ => ({ c with ethClient := none, connected := false }, .again)

/-- What `subLoop` does for its caller: the first call makes the channel and
    starts the goroutine. -/
def Client.subLoop (c : Client) : Client :=
  if c.subLoopInitialized then c
  else
    { c with
      queued := 0
      subLoopInitialized := true
      reconnectOnTimer := false }.spawn .selecting

/-- Where a pass over watchers goes on. -/
def pass : List ℕ → Routine
  | [] => .selecting
  | w :: rest => .resubscribing w rest

/-- `Subscribe` or `Resubscribe` fails, and its caller goes on. -/
def Client.subscribeFails (c : Client) (i : ℕ) : Subscriber → Client
  | .subscribe w => (c.setSubscribed w false).move i .returned
  | .resubscribe w _ =>
      { c.setSubscribed w false with reconnectOnTimer := true }.move i .selecting

/-- `Subscribe` or `Resubscribe` succeeds, and its caller goes on. -/
def Client.subscribeDone (c : Client) (i : ℕ) : Subscriber → Client
  | .subscribe w => (c.setSubscribed w true).move i .returned
  | .resubscribe w rest => (c.setSubscribed w true).move i (pass rest)

/-- `getClient` returns to its caller. -/
def Client.getClientReturns (c : Client) (i : ℕ) : Caller → Bool → Client
  | .rpc, _ => c.move i .returned
  | .tick, true => { c with reconnectOnTimer := false }.move i .selecting
  | .tick, false => c.move i .selecting
  | .watchLogs u, true => c.move i (.filtering u)
  | .watchLogs u, false => c.subscribeFails i u

/-- `SendResubscribeSignal` returns to its caller. -/
def Client.signalReturns (c : Client) (i : ℕ) : Signaller → Client
  | .report _ => c.move i .returned
  | .getClient k => c.getClientReturns i k true

/-- The signal case of `subLoop` under `c.mx`. -/
def Client.wake (c : Client) (i : ℕ) : Client :=
  if c.connected && c.recreated then
    { c with reconnectOnTimer := false }.move i (.listing true)
  else if c.connected && !c.recreated then
    { c with reconnectOnTimer := false }.move i (.listing false)
  else { c with reconnectOnTimer := true }.move i .selecting

/-! ### Where they go on -/

/-- Where the caller goes on after a failed subscription. -/
def Subscriber.failsTo : Subscriber → Routine
  | .subscribe _ => .returned
  | .resubscribe _ _ => .selecting

/-- Where the caller goes on after a subscription. -/
def Subscriber.doneTo : Subscriber → Routine
  | .subscribe _ => .returned
  | .resubscribe _ rest => pass rest

/-- Where the caller of `getClient` goes on. -/
def Caller.returnsTo : Caller → Bool → Routine
  | .rpc, _ => .returned
  | .tick, _ => .selecting
  | .watchLogs u, true => .filtering u
  | .watchLogs u, false => u.failsTo

/-- Where the caller of `SendResubscribeSignal` goes on. -/
def Signaller.returnsTo : Signaller → Routine
  | .report _ => .returned
  | .getClient k => k.returnsTo true

@[simp] theorem inSubLoop_pass (order : List ℕ) :
    (pass order).inSubLoop = true := by
  cases order <;> rfl

@[simp] theorem inSubLoop_failsTo (u : Subscriber) :
    u.failsTo.inSubLoop = u.inSubLoop := by
  cases u <;> rfl

@[simp] theorem inSubLoop_doneTo (u : Subscriber) :
    u.doneTo.inSubLoop = u.inSubLoop := by
  cases u with
  | subscribe w => rfl
  | resubscribe w rest => exact inSubLoop_pass rest

@[simp] theorem inSubLoop_returnsTo (k : Caller) (ok : Bool) :
    (k.returnsTo ok).inSubLoop = k.inSubLoop := by
  cases k with
  | rpc => rfl
  | tick => rfl
  | watchLogs u =>
      cases ok with
      | true => rfl
      | false => exact inSubLoop_failsTo u

theorem inSubLoop_signalReturnsTo (g : Signaller) :
    g.returnsTo.inSubLoop = (Routine.sending g).inSubLoop := by
  cases g with
  | report w => rfl
  | getClient k => exact inSubLoop_returnsTo k true

theorem inSubLoop_signalling (g : Signaller) :
    (Routine.signalling g).inSubLoop = (Routine.sending g).inSubLoop := by
  cases g <;> rfl

/-- Goroutine `i` is at another place; the other goroutines, the channel and
    the connection are as before. -/
structure Placed (c c' : Client) (i : ℕ) (r' : Routine) : Prop where
  routines_eq : c'.routines = c.routines.set i r'
  queued_eq : c'.queued = c.queued
  initialized_eq : c'.subLoopInitialized = c.subLoopInitialized
  ethClient_eq : c'.ethClient = c.ethClient
  connected_eq : c'.connected = c.connected
  recreated_eq : c'.recreated = c.recreated

section Frame

variable (c : Client) (i : ℕ)

theorem placed_move (r' : Routine) : Placed c (c.move i r') i r' :=
  ⟨rfl, rfl, rfl, rfl, rfl, rfl⟩

theorem placed_subscribeFails (u : Subscriber) :
    Placed c (c.subscribeFails i u) i u.failsTo := by
  cases u <;> exact ⟨rfl, rfl, rfl, rfl, rfl, rfl⟩

theorem placed_subscribeDone (u : Subscriber) :
    Placed c (c.subscribeDone i u) i u.doneTo := by
  cases u <;> exact ⟨rfl, rfl, rfl, rfl, rfl, rfl⟩

/-- `getClient` returns to its caller. -/
theorem placed_getClientReturns (k : Caller) (ok : Bool) :
    Placed c (c.getClientReturns i k ok) i (k.returnsTo ok) := by
  cases k with
  | rpc => exact placed_move c i _
  | tick => cases ok <;> exact ⟨rfl, rfl, rfl, rfl, rfl, rfl⟩
  | watchLogs u =>
      cases ok with
      | true => exact placed_move c i _
      | false => exact placed_subscribeFails c i u

theorem placed_signalReturns (g : Signaller) :
    Placed c (c.signalReturns i g) i g.returnsTo := by
  cases g with
  | report w => exact placed_move c i _
  | getClient k => exact placed_getClientReturns c i k true

/-- `subLoop` goes back to its select, or lists the watchers. -/
theorem placed_wake :
    ∃ r', Placed c (c.wake i) i r' ∧
      (r' = .selecting ∨ ∃ all, r' = .listing all) := by
  rw [Client.wake]
  split
  · exact ⟨_, ⟨rfl, rfl, rfl, rfl, rfl, rfl⟩, Or.inr ⟨true, rfl⟩⟩
  · split
    · exact ⟨_, ⟨rfl, rfl, rfl, rfl, rfl, rfl⟩, Or.inr ⟨false, rfl⟩⟩
    · exact ⟨_, ⟨rfl, rfl, rfl, rfl, rfl, rfl⟩, Or.inl rfl⟩

end Frame

/-- The watchers that `getAllWatchers` or `getUnsubscribedWatchers` finds. -/
def Client.listed (c : Client) (all : Bool) : List ℕ :=
  (List.range c.watchers.length).filter
    (fun w => all || !(c.watchers[w]?.any Entry.subscribed))

/-! ## Steps -/

/-- What can happen: a goroutine appears, or goroutine `i` makes a step, in
    some of them with an answer from outside. -/
inductive Event where
  | addWatcher (key : String)
  | getClient
  /-- A loop of watcher `w` takes an error of its subscription, or learns that
      it was unsubscribed. -/
  | subErr (w : ℕ) (err : Bool)
  /-- A loop of watcher `w` returns because a log does not decode. -/
  | unpackFails (w : ℕ)
  | goes (i : ℕ)
  | connects (i : ℕ) (current : Reply) (dial : String → Reply)
  | filters (i : ℕ) (ok : Bool)
  /-- The watchers come in some order of the map. -/
  | lists (i : ℕ) (order : List ℕ)
  | takes (i : ℕ)
  | ticks (i : ℕ)

/-- A step that needs no answer from outside. -/
def Client.goes (c : Client) (i : ℕ) : Routine → Option Client
  | .adding key =>
      if c.free .mx then
        if c.watchers.any (fun e => e.key = key) then some (c.move i .returned)
        else
          some ((c.register key).move i (.startingLoop c.watchers.length))
      else none
  | .startingLoop w =>
      if c.free .subLoopMx then some (c.subLoop.move i (.subscribing w))
      else none
  | .subscribing w =>
      if c.free (.watcherMx w) then
        some (c.move i (.gettingClient (.watchLogs (.subscribe w))))
      else none
  | .signalling g =>
      if c.free .subLoopMx then
        if c.subLoopInitialized then some (c.move i (.sending g))
        else some (c.signalReturns i g)
      else none
  | .sending g =>
      if c.queued < 1 then
        some ({ c with queued := c.queued + 1 }.signalReturns i g)
      else none
  | .flagging u => some (c.subscribeDone i u)
  | .woken => if c.free .mx then some (c.wake i) else none
  | .resubscribing w rest =>
      if c.free (.watcherMx w) then
        some (c.move i (.gettingClient (.watchLogs (.resubscribe w rest))))
      else none
  | _ => none

/-- `getClient` from its lock on. -/
def Client.connects (c : Client) (i : ℕ) (k : Caller) (current : Reply)
    (dial : String → Reply) : Client :=
  match c.getClient current dial with
  | (c, .again) => c
  | (c, .reconnected) => c.move i (.signalling (.getClient k))
  | (c, .found) => c.getClientReturns i k true
  | (c, .failed _) => c.getClientReturns i k false

/-- One step of the client. -/
def Client.react (c : Client) : Event → Option (Client × Unit)
  | .addWatcher key => some (c.spawn (.adding key), ())
  | .getClient => some (c.spawn (.gettingClient .rpc), ())
  | .subErr w err =>
      if c.watchers[w]?.any (fun e => e.loops > 0) then
        let c := (c.loopEnds w).setSubscribed w false
        some (if err then c.spawn (.signalling (.report w)) else c, ())
      else none
  | .unpackFails w =>
      if c.watchers[w]?.any (fun e => e.loops > 0) then some (c.loopEnds w, ())
      else none
  | .goes i =>
      match c.routines[i]? with
      | some r => (c.goes i r).map (fun c => (c, ()))
      | none => none
  | .connects i current dial =>
      match c.routines[i]? with
      | some (.gettingClient k) =>
          if c.free .mx then some (c.connects i k current dial, ()) else none
      | _ => none
  | .filters i ok =>
      match c.routines[i]? with
      | some (.filtering u) =>
          some (if ok then (c.loopStarts u.watcher).move i (.flagging u)
            else c.subscribeFails i u, ())
      | _ => none
  | .lists i order =>
      match c.routines[i]? with
      | some (.listing all) =>
          if c.free .mx ∧ order.Perm (c.listed all) then
            some (c.move i (pass order), ())
          else none
      | _ => none
  | .takes i =>
      match c.routines[i]? with
      | some .selecting =>
          if c.queued > 0 then
            some ({ c with queued := c.queued - 1 }.move i .woken, ())
          else none
      | _ => none
  | .ticks i =>
      match c.routines[i]? with
      | some .selecting =>
          some (if c.reconnectOnTimer then c.move i (.gettingClient .tick)
            else c, ())
      | _ => none

/-! ## What a step can do -/

/-- The steps of a goroutine that need no answer from outside. -/
inductive Goes (c : Client) (i : ℕ) : Routine → Client → Prop where
  | known (key : String) : Goes c i (.adding key) (c.move i .returned)
  | registers (key : String) :
      Goes c i (.adding key)
        ((c.register key).move i (.startingLoop c.watchers.length))
  | startsLoop (w : ℕ) : Goes c i (.startingLoop w)
      (c.subLoop.move i (.subscribing w))
  | subscribes (w : ℕ) : Goes c i (.subscribing w)
      (c.move i (.gettingClient (.watchLogs (.subscribe w))))
  | locks (g : Signaller) (hfree : c.free .subLoopMx = true)
      (hinit : c.subLoopInitialized = true) :
      Goes c i (.signalling g) (c.move i (.sending g))
  | drops (g : Signaller) (hinit : c.subLoopInitialized = false) :
      Goes c i (.signalling g) (c.signalReturns i g)
  | sends (g : Signaller) (hqueued : c.queued = 0) :
      Goes c i (.sending g)
        ({ c with queued := c.queued + 1 }.signalReturns i g)
  | flags (u : Subscriber) : Goes c i (.flagging u) (c.subscribeDone i u)
  | wakes : Goes c i .woken (c.wake i)
  | resubscribes (w : ℕ) (rest : List ℕ) : Goes c i (.resubscribing w rest)
      (c.move i (.gettingClient (.watchLogs (.resubscribe w rest))))

/-- The steps of the client. -/
inductive Moves (c : Client) : Event → Client → Prop where
  | adds (key : String) : Moves c (.addWatcher key) (c.spawn (.adding key))
  | calls : Moves c .getClient (c.spawn (.gettingClient .rpc))
  | reports (w : ℕ) : Moves c (.subErr w true)
      (((c.loopEnds w).setSubscribed w false).spawn (.signalling (.report w)))
  | unsubscribed (w : ℕ) : Moves c (.subErr w false)
      ((c.loopEnds w).setSubscribed w false)
  | unpackFails (w : ℕ) : Moves c (.unpackFails w) (c.loopEnds w)
  | goes {i : ℕ} {r : Routine} {c' : Client} (hr : c.routines[i]? = some r)
      (h : Goes c i r c') : Moves c (.goes i) c'
  | connects {i : ℕ} {k : Caller} (current : Reply) (dial : String → Reply)
      (hr : c.routines[i]? = some (.gettingClient k)) :
      Moves c (.connects i current dial) (c.connects i k current dial)
  | filters {i : ℕ} {u : Subscriber}
      (hr : c.routines[i]? = some (.filtering u)) :
      Moves c (.filters i true) ((c.loopStarts u.watcher).move i (.flagging u))
  | filterFails {i : ℕ} {u : Subscriber}
      (hr : c.routines[i]? = some (.filtering u)) :
      Moves c (.filters i false) (c.subscribeFails i u)
  | lists {i : ℕ} {all : Bool} {order : List ℕ}
      (hr : c.routines[i]? = some (.listing all))
      (horder : order.Perm (c.listed all)) :
      Moves c (.lists i order) (c.move i (pass order))
  | takes {i : ℕ} (hr : c.routines[i]? = some .selecting)
      (hqueued : 0 < c.queued) :
      Moves c (.takes i) ({ c with queued := c.queued - 1 }.move i .woken)
  | ticks {i : ℕ} (hr : c.routines[i]? = some .selecting)
      (htimer : c.reconnectOnTimer = true) :
      Moves c (.ticks i) (c.move i (.gettingClient .tick))
  | idles {i : ℕ} (hr : c.routines[i]? = some .selecting) :
      Moves c (.ticks i) c

variable {c c' : Client}

/-- What a goroutine does by itself. -/
theorem goes_inversion {i : ℕ} {r : Routine} (h : c.goes i r = some c') :
    Goes c i r c' := by
  cases r with
  | adding key =>
      rw [Client.goes] at h
      split at h
      · split at h
        · obtain rfl := Option.some.inj h
          exact Goes.known key
        · obtain rfl := Option.some.inj h
          exact Goes.registers key
      · cases h
  | startingLoop w =>
      rw [Client.goes] at h
      split at h
      · obtain rfl := Option.some.inj h
        exact Goes.startsLoop w
      · cases h
  | subscribing w =>
      rw [Client.goes] at h
      split at h
      · obtain rfl := Option.some.inj h
        exact Goes.subscribes w
      · cases h
  | signalling g =>
      rw [Client.goes] at h
      split at h
      -- a signal that finds no `subLoop` is dropped
      · rename_i hfree
        split at h
        · rename_i hinit
          obtain rfl := Option.some.inj h
          exact Goes.locks g hfree hinit
        · rename_i hinit
          obtain rfl := Option.some.inj h
          exact Goes.drops g (Bool.not_eq_true _ ▸ hinit)
      · cases h
  | sending g =>
      rw [Client.goes] at h
      split at h
      · rename_i hqueued
        obtain rfl := Option.some.inj h
        exact Goes.sends g (by omega)
      · cases h
  | flagging u =>
      obtain rfl := Option.some.inj h
      exact Goes.flags u
  | woken =>
      rw [Client.goes] at h
      split at h
      · obtain rfl := Option.some.inj h
        exact Goes.wakes
      · cases h
  | resubscribing w rest =>
      rw [Client.goes] at h
      split at h
      · obtain rfl := Option.some.inj h
        exact Goes.resubscribes w rest
      · cases h
  | gettingClient k => cases h
  | filtering u => cases h
  | selecting => cases h
  | listing all => cases h
  | returned => cases h

/-- **EVERY STEP IS ONE OF THESE**. -/
theorem react_moves {e : Event} {o : Unit} (h : c.react e = some (c', o)) :
    Moves c e c' := by
  cases e with
  | addWatcher key =>
      obtain ⟨rfl, -⟩ := Prod.mk.inj (Option.some.inj h)
      exact Moves.adds key
  | getClient =>
      obtain ⟨rfl, -⟩ := Prod.mk.inj (Option.some.inj h)
      exact Moves.calls
  | subErr w err =>
      rw [Client.react] at h
      split at h
      · obtain ⟨rfl, -⟩ := Prod.mk.inj (Option.some.inj h)
        cases err with
        | true => exact Moves.reports w
        | false => exact Moves.unsubscribed w
      · cases h
  | unpackFails w =>
      rw [Client.react] at h
      split at h
      · obtain ⟨rfl, -⟩ := Prod.mk.inj (Option.some.inj h)
        exact Moves.unpackFails w
      · cases h
  | goes i =>
      rw [Client.react] at h
      split at h
      · rename_i r hr
        obtain ⟨c₁, hgoes, heq⟩ := Option.map_eq_some_iff.mp h
        obtain ⟨rfl, -⟩ := Prod.mk.inj heq
        exact Moves.goes hr (goes_inversion hgoes)
      · cases h
  | connects i current dial =>
      rw [Client.react] at h
      split at h
      · rename_i k hr
        split at h
        · obtain ⟨rfl, -⟩ := Prod.mk.inj (Option.some.inj h)
          exact Moves.connects current dial hr
        · cases h
      · cases h
  | filters i ok =>
      rw [Client.react] at h
      split at h
      · rename_i u hr
        obtain ⟨rfl, -⟩ := Prod.mk.inj (Option.some.inj h)
        cases ok with
        | true => exact Moves.filters hr
        | false => exact Moves.filterFails hr
      · cases h
  | lists i order =>
      rw [Client.react] at h
      split at h
      · rename_i all hr
        split at h
        · rename_i hcond
          obtain ⟨rfl, -⟩ := Prod.mk.inj (Option.some.inj h)
          exact Moves.lists hr hcond.2
        · cases h
      · cases h
  | takes i =>
      rw [Client.react] at h
      split at h
      · rename_i hr
        split at h
        · rename_i hqueued
          obtain ⟨rfl, -⟩ := Prod.mk.inj (Option.some.inj h)
          exact Moves.takes hr hqueued
        · cases h
      · cases h
  | ticks i =>
      rw [Client.react] at h
      split at h
      · rename_i hr
        obtain ⟨rfl, -⟩ := Prod.mk.inj (Option.some.inj h)
        split
        · rename_i htimer
          exact Moves.ticks hr htimer
        · exact Moves.idles hr
      · cases h

/-- `c₁` is `c` with another connection. -/
def Reconnects (c c₁ : Client) : Prop :=
  ∃ client connected recreated,
    c₁ =
      { c with
        ethClient := client
        connected := connected
        recreated := recreated }

/-- Connecting changes the connection only. -/
theorem connect_eq (dial : String → Reply) (urls : List String) :
    ∀ c : Client, Reconnects c (c.connect dial urls) := by
  induction urls with
  | nil => intro c; exact ⟨_, _, _, rfl⟩
  | cons url urls ih =>
      intro c
      rw [Client.connect]
      split
      · exact ih { c with connected := false }
      · split
        · exact ⟨_, _, _, rfl⟩
        · exact ih { c with connected := false }

/-- `getClient` changes the connection and its two flags only. -/
theorem getClient_eq (c : Client) (current : Reply) (dial : String → Reply) :
    Reconnects c (c.getClient current dial).1 := by
  rw [Client.getClient.eq_def]
  cases c.ethClient with
  | none =>
      dsimp only
      split
      · exact connect_eq dial c.urls c
      · exact connect_eq dial c.urls c
  | some url => cases current <;> exact ⟨_, _, _, rfl⟩

/-- Is this a url that `getClient` dials, and does it answer with the chain's
    id? -/
def Client.usable (c : Client) (dial : String → Reply) (url : String) : Bool :=
  !(c.currentUrl ≠ "" ∧ c.urls.length > 1 ∧ url = c.currentUrl) &&
    dial url = .sameChain

/-- There is a connection already, or one of the urls is usable. -/
def Client.canConnect (c : Client) (dial : String → Reply) : Bool :=
  c.ethClient.isSome || c.urls.any (c.usable dial)

/-- One usable url is enough to connect. -/
theorem connect_connected {dial : String → Reply} {url : String}
    (urls : List String) : ∀ c : Client, url ∈ urls →
      c.usable dial url = true → (c.connect dial urls).connected = true := by
  induction urls with
  | nil => intro c hmem; cases hmem
  | cons url' urls ih =>
      intro c hmem husable
      rw [Client.connect]
      rcases List.mem_cons.mp hmem with rfl | hrest
      · simp only [Client.usable, Bool.and_eq_true, Bool.not_eq_true',
          decide_eq_false_iff_not, decide_eq_true_eq] at husable
        rw [if_neg husable.1, husable.2]
      · split
        · exact ih { c with connected := false } hrest husable
        · split
          · rfl
          · exact ih { c with connected := false } hrest husable

/-- `getClient` fails only where it can not connect. -/
theorem canConnect_of_failed {current : Reply} {dial : String → Reply}
    {c₁ : Client} {err : String}
    (hgot : c.getClient current dial = (c₁, .failed err)) :
    c.canConnect dial = false := by
  rw [Client.getClient.eq_def] at hgot
  cases hclient : c.ethClient with
  | some url =>
      rw [hclient] at hgot
      cases current <;> cases hgot
  | none =>
      rw [hclient] at hgot
      dsimp only at hgot
      split at hgot
      · cases hgot
      · rename_i hdown
        rw [Client.canConnect, hclient, Option.isSome_none, Bool.false_or]
        refine List.any_eq_false.mpr (fun url hmem husable => hdown ?_)
        exact connect_connected c.urls c hmem husable

/-- `getClient` goes on in one of four ways, and has changed the connection
    only. -/
theorem connects_cases (c : Client) (i : ℕ) (k : Caller) (current : Reply)
    (dial : String → Reply) :
    ∃ c₁, Reconnects c c₁ ∧
      (c.connects i k current dial = c₁ ∨
      c.connects i k current dial = c₁.move i (.signalling (.getClient k)) ∨
      (c.connects i k current dial = c₁.getClientReturns i k true ∧
        c.ethClient.isSome ∧ current = .sameChain) ∨
      (c.connects i k current dial = c₁.getClientReturns i k false ∧
        c.canConnect dial = false)) := by
  refine ⟨(c.getClient current dial).1, getClient_eq c current dial, ?_⟩
  rw [Client.connects]
  cases hgot : c.getClient current dial with
  | mk c₁ got =>
      cases got with
      | again => exact Or.inl rfl
      | reconnected => exact Or.inr (Or.inl rfl)
      | failed err =>
          exact Or.inr (Or.inr (Or.inr ⟨rfl, canConnect_of_failed hgot⟩))
      | found =>
          -- the connection is good only where there is one and it answers for the
          -- chain
          refine Or.inr (Or.inr (Or.inl ⟨rfl, ?_⟩))
          rw [Client.getClient.eq_def] at hgot
          cases hclient : c.ethClient with
          | none =>
              rw [hclient] at hgot
              dsimp only at hgot
              split at hgot <;> cases hgot
          | some url =>
              rw [hclient] at hgot
              cases current with
              | sameChain => exact ⟨rfl, rfl⟩
              | unreachable => cases hgot
              | noChainId => cases hgot
              | otherChain => cases hgot

/-! ## A retry for every dead watcher -/

/-- The watchers a subscriber is going to subscribe. -/
def Subscriber.concerns : Subscriber → ℕ → Bool
  | .subscribe w', w => w' = w
  | .resubscribe w' rest, w => w' = w || w ∈ rest

/-- A subscription of watcher `w` is under way at this place: in `AddWatcher`
    from the registration on, in `subLoop` from the signal on, and while a
    signal is on its way into the channel. -/
def Routine.concerns : Routine → ℕ → Bool
  | .startingLoop w', w => w' = w
  | .subscribing w', w => w' = w
  | .gettingClient (.watchLogs u), w => u.concerns w
  | .signalling _, _ => true
  | .sending _, _ => true
  | .filtering u, w => u.concerns w
  | .flagging u, w => u.concerns w
  | .woken, _ => true
  | .listing _, _ => true
  | .resubscribing w' rest, w => w' = w || w ∈ rest
  | _, _ => false

/-- A retry of watcher `w` is pending: a signal is queued, or the timer is
    set, or some goroutine is going to subscribe it. -/
def Pending (c : Client) (w : ℕ) : Prop :=
  0 < c.queued ∨ c.reconnectOnTimer = true ∨
    ∃ r ∈ c.routines, r.concerns w = true

/-- A retry of watcher `w` is pending apart from what goroutine `i` does. -/
def PendingBut (c : Client) (i w : ℕ) : Prop :=
  0 < c.queued ∨ c.reconnectOnTimer = true ∨
    ∃ r ∈ c.routines.eraseIdx i, r.concerns w = true

/-- A retry of watcher `w` is pending apart from the timer. -/
def PendingSoon (c : Client) (w : ℕ) : Prop :=
  0 < c.queued ∨ ∃ r ∈ c.routines, r.concerns w = true

instance (c : Client) (w : ℕ) : Decidable (Pending c w) :=
  inferInstanceAs (Decidable (_ ∨ _ ∨ _))

instance (c : Client) (i w : ℕ) : Decidable (PendingBut c i w) :=
  inferInstanceAs (Decidable (_ ∨ _ ∨ _))

instance (c : Client) (w : ℕ) : Decidable (PendingSoon c w) :=
  inferInstanceAs (Decidable (_ ∨ _))

/-- The steps that drop no retry: a subscription does not end without an
    error, `Subscribe` of `AddWatcher` does not fail, and a tick does not find
    the old connection good, where that leaves a watcher with no other retry
    pending. -/
def Client.keepsRetry (c : Client) : Event → Bool
  | .subErr w false => Pending c w
  | .connects i current dial =>
      match c.routines[i]? with
      | some (.gettingClient .tick) =>
          !(c.ethClient.isSome && current = .sameChain) ||
            (c.listed false).all (fun w => PendingSoon c w)
      | some (.gettingClient (.watchLogs (.subscribe w))) =>
          c.canConnect dial || PendingBut c i w
      | _ => true
  | .filters i false =>
      match c.routines[i]? with
      | some (.filtering (.subscribe w)) => PendingBut c i w
      | _ => true
  | _ => true

/-- Before the first call of `subLoop`: no signal, no loop, and every watcher
    is still in `AddWatcher`. -/
structure NotStarted (c : Client) : Prop where
  queued : c.queued = 0
  noLoop : ∀ r ∈ c.routines, r.inSubLoop = false
  noSender : ∀ g, Routine.sending g ∉ c.routines
  starting : ∀ w < c.watchers.length, Routine.startingLoop w ∈ c.routines

/-- Every watcher without a subscription has a retry pending, or the loop has
    not been started. -/
structure Scheduled (c : Client) : Prop where
  retried : c.subLoopInitialized = true → ∀ w ∈ c.listed false, Pending c w
  beforeLoop : c.subLoopInitialized = false → NotStarted c

variable {c₁ : Client} {i w v : ℕ} {r r' : Routine}

/-! ### Watchers without a subscription -/

/-- The watchers that are flagged as unsubscribed. -/
theorem mem_listed_false :
    w ∈ c.listed false ↔ ∃ e, c.watchers[w]? = some e ∧ e.subscribed = false := by
  rw [Client.listed, List.mem_filter, List.mem_range]
  constructor
  · rintro ⟨hlt, hflag⟩
    refine ⟨c.watchers[w], List.getElem?_eq_getElem hlt, ?_⟩
    rw [List.getElem?_eq_getElem hlt] at hflag
    simpa using hflag
  · rintro ⟨e, he, hflag⟩
    obtain ⟨hlt, rfl⟩ := List.getElem?_eq_some_iff.mp he
    refine ⟨hlt, ?_⟩
    rw [he]
    simpa using hflag

theorem mem_listed_true : w ∈ c.listed true ↔ w < c.watchers.length := by
  rw [Client.listed, List.mem_filter, List.mem_range]
  simp

/-- A change to watcher `w` concerns no other watcher. -/
theorem mem_listed_update {f : Entry → Entry}
    (h : v ∈ (c.update w f).listed false) :
    (v ≠ w ∧ v ∈ c.listed false) ∨
    (v = w ∧ ∃ e, c.watchers[w]? = some e ∧ (f e).subscribed = false) := by
  obtain ⟨e, he, hflag⟩ := mem_listed_false.mp h
  change (c.watchers.modify w f)[v]? = some e at he
  by_cases hv : v = w
  · subst hv
    rw [List.getElem?_modify_eq] at he
    obtain ⟨e₀, he₀, rfl⟩ := Option.map_eq_some_iff.mp he
    exact Or.inr ⟨rfl, e₀, he₀, hflag⟩
  · rw [List.getElem?_modify_ne _ _ (Ne.symm hv)] at he
    exact Or.inl ⟨hv, mem_listed_false.mpr ⟨e, he, hflag⟩⟩

/-- After `setSubscribed(false)` there is one such watcher more at most. -/
theorem mem_listed_unset (h : v ∈ (c.setSubscribed w false).listed false) :
    v = w ∨ v ∈ c.listed false := by
  rcases mem_listed_update h with ⟨-, hv⟩ | ⟨hv, -⟩
  · exact Or.inr hv
  · exact Or.inl hv

/-- After `setSubscribed(true)` watcher `w` is none of them. -/
theorem mem_listed_set (h : v ∈ (c.setSubscribed w true).listed false) :
    v ≠ w ∧ v ∈ c.listed false := by
  rcases mem_listed_update h with hv | ⟨-, e, -, hflag⟩
  · exact hv
  · cases hflag

/-- The number of running loops does not matter. -/
theorem mem_listed_loops {f : Entry → Entry}
    (h : v ∈ (c.update w f).listed false)
    (hf : ∀ e, (f e).subscribed = e.subscribed) : v ∈ c.listed false := by
  rcases mem_listed_update h with ⟨-, hv⟩ | ⟨rfl, e, he, hflag⟩
  · exact hv
  · exact mem_listed_false.mpr ⟨e, he, hf e ▸ hflag⟩

/-! ### One step -/

/-- What a goroutine does where it arrives is pending. -/
theorem pending_of_concerns {d : Client} (hr : d.routines[i]? = some r)
    (hcon : r'.concerns v = true) : Pending (d.move i r') v :=
  Or.inr (Or.inr ⟨r', mem_set_self hr, hcon⟩)

/-- A goroutine that moves leaves a retry pending unless it was its own. -/
theorem Pending.move (h : Pending c v) (hr : c.routines[i]? = some r)
    (hrs : c₁.routines = c.routines) (hqueued : c.queued ≤ c₁.queued)
    (htimer : c.reconnectOnTimer = true → c₁.reconnectOnTimer = true)
    (hcon : r.concerns v = true → Pending (c₁.move i r') v) :
    Pending (c₁.move i r') v := by
  rcases h with hq | ht | hex
  · exact Or.inl (lt_of_lt_of_le hq hqueued)
  · exact Or.inr (Or.inl (htimer ht))
  · rcases exists_set (P := fun r => r.concerns v = true) hr hex with hown | hother
    · exact hcon hown
    · refine Or.inr (Or.inr ?_)
      show ∃ q ∈ c₁.routines.set i r', _
      rw [hrs]
      exact hother

/-- A new goroutine takes nothing away. -/
theorem Pending.spawn (h : Pending c v) (hrs : c₁.routines = c.routines)
    (hqueued : c₁.queued = c.queued)
    (htimer : c₁.reconnectOnTimer = c.reconnectOnTimer) :
    Pending (c₁.spawn r') v := by
  rcases h with hq | ht | ⟨q, hq, hcon⟩
  · exact Or.inl (hqueued ▸ hq)
  · exact Or.inr (Or.inl (htimer.trans ht))
  · refine Or.inr (Or.inr ⟨q, ?_, hcon⟩)
    show q ∈ c₁.routines ++ [r']
    rw [hrs]
    exact List.mem_append_left _ hq

/-- A retry of another goroutine survives any move of goroutine `i`. -/
theorem PendingBut.move (h : PendingBut c i v) (hrs : c₁.routines = c.routines)
    (hqueued : c₁.queued = c.queued)
    (htimer : c₁.reconnectOnTimer = c.reconnectOnTimer) :
    Pending (c₁.move i r') v := by
  rcases h with hq | ht | ⟨q, hq, hcon⟩
  · exact Or.inl (hqueued ▸ hq)
  · exact Or.inr (Or.inl (htimer.trans ht))
  · obtain ⟨j, hj, hget⟩ := List.mem_eraseIdx_iff_getElem?.mp hq
    refine Or.inr (Or.inr ⟨q, ?_, hcon⟩)
    show q ∈ c₁.routines.set i r'
    rw [hrs]
    exact mem_set_of_ne hj hget

theorem mem_listed_register {key : String}
    (h : v ∈ (c.register key).listed false) :
    v = c.watchers.length ∨ v ∈ c.listed false := by
  obtain ⟨e, he, hflag⟩ := mem_listed_false.mp h
  rcases getElem?_concat_cases he with hold | ⟨hv, -⟩
  · exact Or.inr (mem_listed_false.mpr ⟨e, hold, hflag⟩)
  · exact Or.inl hv

/-- A pass is going to subscribe every watcher of its list. -/
theorem pass_concerns {order : List ℕ} (h : v ∈ order) :
    (pass order).concerns v = true := by
  cases order with
  | nil => exact absurd h List.not_mem_nil
  | cons w rest =>
      rcases List.mem_cons.mp h with rfl | hrest
      · simp [pass, Routine.concerns]
      · simp [pass, Routine.concerns, hrest]

/-- A failing `Subscribe` has to leave another retry; a failing `Resubscribe`
    sets the timer. -/
theorem subscribeFails_retried {u : Subscriber}
    (h : ∀ w ∈ c.listed false, Pending c w) (hr : c.routines[i]? = some r)
    (hown : ∀ v, r.concerns v = u.concerns v)
    (hbut : ∀ w, u = .subscribe w → PendingBut c i w) :
    ∀ w ∈ (c.subscribeFails i u).listed false,
      Pending (c.subscribeFails i u) w := by
  intro v hv
  cases u with
  | resubscribe w rest => exact Or.inr (Or.inl rfl)
  | subscribe w =>
      have hw : Pending ((c.setSubscribed w false).move i .returned) w :=
        (hbut w rfl).move rfl rfl rfl
      rcases mem_listed_unset hv with rfl | hold
      · exact hw
      · refine (h v hold).move hr rfl le_rfl id ?_
        intro hcon
        rw [hown, Subscriber.concerns, decide_eq_true_eq] at hcon
        exact hcon ▸ hw

/-- A subscription that is made takes its watcher off the list, and a pass
    goes on with the others. -/
theorem subscribeDone_retried {u : Subscriber}
    (h : ∀ w ∈ c.listed false, Pending c w)
    (hr : c.routines[i]? = some (.flagging u)) :
    ∀ w ∈ (c.subscribeDone i u).listed false,
      Pending (c.subscribeDone i u) w := by
  intro v hv
  cases u with
  | subscribe w =>
      obtain ⟨hne, hold⟩ := mem_listed_set hv
      refine (h v hold).move hr rfl le_rfl id ?_
      intro hcon
      exact absurd (of_decide_eq_true hcon).symm hne
  | resubscribe w rest =>
      obtain ⟨hne, hold⟩ := mem_listed_set hv
      refine (h v hold).move hr rfl le_rfl id ?_
      intro hcon
      rcases Bool.or_eq_true_iff.mp hcon with heq | hrest
      · exact absurd (of_decide_eq_true heq).symm hne
      · refine pending_of_concerns (d := c.setSubscribed w true) hr ?_
        exact pass_concerns (of_decide_eq_true hrest)

/-- Waking up either begins a pass or sets the timer. -/
theorem wake_pending (hr : c.routines[i]? = some r) (v : ℕ) :
    Pending (c.wake i) v := by
  rw [Client.wake]
  split
  · exact pending_of_concerns (d := { c with reconnectOnTimer := false }) hr rfl
  · split
    · exact pending_of_concerns (d := { c with reconnectOnTimer := false }) hr
        rfl
    · exact Or.inr (Or.inl rfl)

/-- A step of a goroutine by itself drops no retry. -/
theorem goes_retried (hinit : c.subLoopInitialized = true)
    (h : ∀ w ∈ c.listed false, Pending c w) (hr : c.routines[i]? = some r)
    (hgoes : Goes c i r c') : ∀ w ∈ c'.listed false, Pending c' w := by
  intro v hv
  cases hgoes with
  | known key =>
      exact (h v hv).move hr rfl le_rfl id
        (fun hcon => absurd hcon Bool.false_ne_true)
  | registers key =>
      -- the new watcher is not subscribed, and its goroutine goes on to start
      -- `subLoop`
      rcases mem_listed_register hv with rfl | hold
      · exact pending_of_concerns (d := c.register key) hr (decide_eq_true rfl)
      · exact (h v hold).move hr rfl le_rfl id
          (fun hcon => absurd hcon Bool.false_ne_true)
  | startsLoop w =>
      rw [Client.subLoop, if_pos hinit] at hv ⊢
      exact (h v hv).move hr rfl le_rfl id (fun hcon => pending_of_concerns hr hcon)
  | subscribes w =>
      exact (h v hv).move hr rfl le_rfl id (fun hcon => pending_of_concerns hr hcon)
  | locks g hfree _ => exact pending_of_concerns hr rfl
  -- `subLoop` is initialized, so that no signal is dropped
  | drops g hdown =>
      rw [hinit] at hdown
      cases hdown
  | sends g _ =>
      refine Or.inl ?_
      cases g with
      | report w => exact Nat.succ_pos _
      | getClient k =>
          cases k with
          | rpc => exact Nat.succ_pos _
          | tick => exact Nat.succ_pos _
          | watchLogs u => exact Nat.succ_pos _
  | flags u => exact subscribeDone_retried h hr v hv
  | wakes => exact wake_pending hr v
  | resubscribes w rest =>
      exact (h v hv).move hr rfl le_rfl id (fun hcon => pending_of_concerns hr hcon)

/-- Another connection makes no difference to the retries. -/
theorem Reconnects.retried (h : Reconnects c c₁) :
    c₁.routines = c.routines ∧ c₁.listed false = c.listed false ∧
    (∀ v, Pending c v → Pending c₁ v) ∧
    (∀ v, PendingSoon c v → PendingSoon c₁ v) ∧
    ∀ v, PendingBut c i v → PendingBut c₁ i v := by
  obtain ⟨client, connected, recreated, rfl⟩ := h
  exact ⟨rfl, rfl, fun _ h => h, fun _ h => h, fun _ h => h⟩

/-- `getClient` drops no retry when its step is one of those that keep it. -/
theorem connects_retried {k : Caller} {current : Reply} {dial : String → Reply}
    (h : ∀ w ∈ c.listed false, Pending c w)
    (hr : c.routines[i]? = some (.gettingClient k))
    (hkeep : c.keepsRetry (.connects i current dial) = true) :
    ∀ w ∈ (c.connects i k current dial).listed false,
      Pending (c.connects i k current dial) w := by
  obtain ⟨c₁, hc₁, hcases⟩ := connects_cases c i k current dial
  obtain ⟨hrs, hlisted, hpend, hsoon, hbut⟩ := hc₁.retried (i := i)
  have h₁ : ∀ w ∈ c₁.listed false, Pending c₁ w := by
    rw [hlisted]
    exact fun v hv => hpend v (h v hv)
  rw [Client.keepsRetry, hr] at hkeep
  rw [← hrs] at hr
  rcases hcases with heq | heq | ⟨heq, hsome, hsame⟩ | ⟨heq, hfailed⟩
  · rw [heq]
    exact h₁
  · rw [heq]
    exact fun v _ => pending_of_concerns hr rfl
  · rw [heq]
    intro v hv
    cases k with
    | rpc =>
        exact (h₁ v hv).move hr rfl le_rfl id
          (fun hcon => absurd hcon Bool.false_ne_true)
    | watchLogs u =>
        exact (h₁ v hv).move hr rfl le_rfl id
          (fun hcon => pending_of_concerns hr hcon)
    | tick =>
        -- the timer is reset and no signal is sent
        simp only [hsome, hsame, decide_true, Bool.and_self, Bool.not_true,
          Bool.false_or, List.all_eq_true, decide_eq_true_eq] at hkeep
        change v ∈ c₁.listed false at hv
        rw [hlisted] at hv
        rcases hsoon v (hkeep v hv) with hq | hex
        · exact Or.inl hq
        · rcases exists_set (P := fun r => r.concerns v = true) hr hex with
            hown | hother
          · cases hown
          · exact Or.inr (Or.inr hother)
  · rw [heq]
    cases k with
    | rpc =>
        intro v hv
        exact (h₁ v hv).move hr rfl le_rfl id
          (fun hcon => absurd hcon Bool.false_ne_true)
    | tick =>
        intro v hv
        exact (h₁ v hv).move hr rfl le_rfl id
          (fun hcon => absurd hcon Bool.false_ne_true)
    | watchLogs u =>
        refine subscribeFails_retried h₁ hr (fun _ => rfl) ?_
        rintro w rfl
        simp only [hfailed, Bool.false_or, decide_eq_true_eq] at hkeep
        exact hbut w hkeep

/-- **ONE STEP WITH THE LOOP RUNNING** drops no retry when it is one of those
    that keep it. -/
theorem Moves.retried {e : Event} (hmoves : Moves c e c')
    (hinit : c.subLoopInitialized = true)
    (h : ∀ w ∈ c.listed false, Pending c w)
    (hkeep : c.keepsRetry e = true) : ∀ w ∈ c'.listed false, Pending c' w := by
  cases hmoves with
  | adds key => exact fun v hv => (h v hv).spawn rfl rfl rfl
  | calls => exact fun v hv => (h v hv).spawn rfl rfl rfl
  | reports w =>
      intro v _
      exact Or.inr (Or.inr ⟨_, List.mem_append_right _ List.mem_cons_self, rfl⟩)
  | unsubscribed w =>
      intro v hv
      rcases mem_listed_unset hv with rfl | hold
      · exact of_decide_eq_true hkeep
      · exact h v (mem_listed_loops hold (fun _ => rfl))
  | unpackFails w => exact fun v hv => h v (mem_listed_loops hv (fun _ => rfl))
  | goes hr hgoes => exact goes_retried hinit h hr hgoes
  | connects current dial hr => exact connects_retried h hr hkeep
  | filters hr =>
      rename_i i u
      intro v hv
      change v ∈ (c.loopStarts u.watcher).listed false at hv
      exact (h v (mem_listed_loops hv (fun _ => rfl))).move hr rfl le_rfl id
        (fun hcon => pending_of_concerns hr hcon)
  | filterFails hr =>
      refine subscribeFails_retried h hr (fun _ => rfl) ?_
      rintro w rfl
      rw [Client.keepsRetry, hr] at hkeep
      exact of_decide_eq_true hkeep
  | lists hr horder =>
      rename_i i all order
      intro v hv
      -- every unsubscribed watcher is in the list of the pass
      refine pending_of_concerns hr (pass_concerns (horder.symm.subset ?_))
      cases all with
      | false => exact hv
      | true =>
          obtain ⟨e, he, -⟩ := mem_listed_false.mp hv
          exact mem_listed_true.mpr (List.getElem?_eq_some_iff.mp he).1
  | takes hr _ => exact fun v _ => pending_of_concerns hr rfl
  | ticks hr _ =>
      exact fun v hv => (h v hv).move hr rfl le_rfl id
        (fun hcon => absurd hcon Bool.false_ne_true)
  | idles hr => exact h

/-! ### Before the loop is started -/

/-- Every watcher is still in `AddWatcher`, so none is forgotten. -/
theorem NotStarted.retried (h : NotStarted c) :
    ∀ w ∈ c.listed false, Pending c w := by
  intro v hv
  obtain ⟨e, he, -⟩ := mem_listed_false.mp hv
  refine Or.inr (Or.inr ⟨.startingLoop v, ?_, decide_eq_true rfl⟩)
  exact h.starting v (List.getElem?_eq_some_iff.mp he).1

/-- A goroutine that is not at `subLoop` moves. -/
theorem NotStarted.move (h : NotStarted c) (hr : c.routines[i]? = some r)
    (hrs : c₁.routines = c.routines) (hqueued : c₁.queued = c.queued)
    (hlen : c₁.watchers.length = c.watchers.length)
    (hold : ∀ w, r ≠ .startingLoop w) (hloop : r'.inSubLoop = false)
    (hsend : ∀ g, r' ≠ .sending g) : NotStarted (c₁.move i r') where
  queued := hqueued.trans h.queued
  noLoop := by
    intro q hq
    change q ∈ c₁.routines.set i r' at hq
    rcases List.mem_or_eq_of_mem_set hq with hq | rfl
    · exact h.noLoop q (hrs ▸ hq)
    · exact hloop
  noSender := by
    intro g hg
    change Routine.sending g ∈ c₁.routines.set i r' at hg
    rcases List.mem_or_eq_of_mem_set hg with hg | heq
    · exact h.noSender g (hrs ▸ hg)
    · exact hsend g heq.symm
  starting := by
    intro w hw
    have hmem := h.starting w (hlen ▸ hw)
    show Routine.startingLoop w ∈ c₁.routines.set i r'
    rw [hrs]
    exact mem_set_of_mem hmem hr (hold w)

/-- A goroutine that appears before `subLoop` is started. -/
theorem NotStarted.spawn (h : NotStarted c) (hrs : c₁.routines = c.routines)
    (hqueued : c₁.queued = c.queued)
    (hlen : c₁.watchers.length = c.watchers.length)
    (hloop : r'.inSubLoop = false) (hsend : ∀ g, r' ≠ .sending g) :
    NotStarted (c₁.spawn r') where
  queued := hqueued.trans h.queued
  noLoop := by
    intro q hq
    change q ∈ c₁.routines ++ [r'] at hq
    rcases List.mem_append.mp hq with hq | hq
    · exact h.noLoop q (hrs ▸ hq)
    · rw [List.mem_singleton.mp hq]
      exact hloop
  noSender := by
    intro g hg
    change Routine.sending g ∈ c₁.routines ++ [r'] at hg
    rcases List.mem_append.mp hg with hg | hg
    · exact h.noSender g (hrs ▸ hg)
    · exact hsend g (List.mem_singleton.mp hg).symm
  starting := by
    intro w hw
    show Routine.startingLoop w ∈ c₁.routines ++ [r']
    rw [hrs]
    exact List.mem_append_left _ (h.starting w (hlen ▸ hw))

/-- A watcher changes, but not the number of watchers. -/
theorem NotStarted.update (h : NotStarted c) (w : ℕ) (f : Entry → Entry) :
    NotStarted (c.update w f) where
  queued := h.queued
  noLoop := h.noLoop
  noSender := h.noSender
  starting := by
    intro v hv
    refine h.starting v ?_
    change v < (c.watchers.modify w f).length at hv
    rw [List.length_modify] at hv
    exact hv

theorem length_update (c : Client) (w : ℕ) (f : Entry → Entry) :
    (c.update w f).watchers.length = c.watchers.length :=
  List.length_modify ..

theorem NotStarted.not_inSubLoop (h : NotStarted c)
    (hr : c.routines[i]? = some r) : r.inSubLoop = false :=
  h.noLoop r (List.mem_of_getElem? hr)

/-- The only subscriber before the loop is started is `AddWatcher`. -/
theorem subscriber_of_not_inSubLoop {u : Subscriber} (h : u.inSubLoop = false) :
    ∃ w, u = .subscribe w := by
  cases u with
  | subscribe w => exact ⟨w, rfl⟩
  | resubscribe w rest => cases h

theorem NotStarted.subscribeFails {u : Subscriber} (h : NotStarted c)
    (hr : c.routines[i]? = some r) (hold : ∀ w, r ≠ .startingLoop w)
    (hu : u.inSubLoop = false) : NotStarted (c.subscribeFails i u) := by
  obtain ⟨w, rfl⟩ := subscriber_of_not_inSubLoop hu
  exact h.move hr rfl rfl (length_update ..) hold rfl (fun g => by simp)

/-- `getClient` returns before `subLoop` is started. -/
theorem NotStarted.getClientReturns {k : Caller} {ok : Bool}
    (h : NotStarted c) (hr : c.routines[i]? = some r)
    (hold : ∀ w, r ≠ .startingLoop w) (hk : k.inSubLoop = false) :
    NotStarted (c.getClientReturns i k ok) := by
  cases k with
  | tick => cases hk
  | rpc => exact h.move hr rfl rfl rfl hold rfl (fun g => by simp)
  | watchLogs u =>
      cases ok with
      | true => exact h.move hr rfl rfl rfl hold hk (fun g => by simp)
      | false => exact h.subscribeFails hr hold hk

theorem Reconnects.notStarted (hc₁ : Reconnects c c₁) (h : NotStarted c) :
    NotStarted c₁ := by
  obtain ⟨client, connected, recreated, rfl⟩ := hc₁
  exact ⟨h.queued, h.noLoop, h.noSender, h.starting⟩

/-- So does a call that connects. -/
theorem NotStarted.connects {k : Caller} (h : NotStarted c)
    (hr : c.routines[i]? = some (.gettingClient k)) (current : Reply)
    (dial : String → Reply) : NotStarted (c.connects i k current dial) := by
  have hk : k.inSubLoop = false := h.not_inSubLoop hr
  have hold : ∀ w, Routine.gettingClient k ≠ .startingLoop w := by simp
  obtain ⟨c₁, hc₁, hcases⟩ := connects_cases c i k current dial
  have h₁ := hc₁.notStarted h
  rw [← (hc₁.retried (i := i)).1] at hr
  rcases hcases with heq | heq | ⟨heq, -⟩ | ⟨heq, -⟩
  · rw [heq]
    exact h₁
  · rw [heq]
    exact h₁.move hr rfl rfl rfl hold hk (fun g => by simp)
  · rw [heq]
    exact h₁.getClientReturns hr hold hk
  · rw [heq]
    exact h₁.getClientReturns hr hold hk

/-- A new watcher is in its `AddWatcher`. -/
theorem NotStarted.register {key : String} (h : NotStarted c)
    (hr : c.routines[i]? = some (.adding key)) :
    NotStarted ((c.register key).move i (.startingLoop c.watchers.length)) where
  queued := h.queued
  noLoop := by
    intro q hq
    rcases List.mem_or_eq_of_mem_set hq with hq | rfl
    · exact h.noLoop q hq
    · rfl
  noSender := by
    intro g hg
    rcases List.mem_or_eq_of_mem_set hg with hg | heq
    · exact h.noSender g hg
    · cases heq
  starting := by
    intro w hw
    change w < (c.watchers ++ [(⟨key, false, 0⟩ : Entry)]).length at hw
    rw [List.length_append, List.length_singleton] at hw
    -- the new watcher has its own goroutine at the start of `subLoop`
    by_cases hlast : w = c.watchers.length
    · rw [hlast]
      exact mem_set_self hr
    · exact mem_set_of_mem (h.starting w (by omega)) hr (by simp)

/-- The first call of `subLoop` finds every watcher in `AddWatcher`. -/
theorem NotStarted.startsLoop (h : NotStarted c)
    (hr : c.routines[i]? = some (.startingLoop w))
    (hinit : c.subLoopInitialized = false) :
    ∀ v ∈ (c.subLoop.move i (.subscribing w)).listed false,
      Pending (c.subLoop.move i (.subscribing w)) v := by
  intro v hv
  rw [Client.subLoop, hinit, if_neg Bool.false_ne_true] at hv ⊢
  obtain ⟨e, he, -⟩ := mem_listed_false.mp hv
  have hmem : Routine.startingLoop v ∈ c.routines :=
    h.starting v (List.getElem?_eq_some_iff.mp he).1
  have hr' : (c.routines ++ [Routine.selecting])[i]?
      = some (.startingLoop w) := getElem?_concat hr
  have hex : ∃ q ∈ c.routines ++ [Routine.selecting], q.concerns v = true :=
    ⟨_, List.mem_append_left _ hmem, decide_eq_true rfl⟩
  refine Or.inr (Or.inr ?_)
  rcases exists_set (P := fun r => r.concerns v = true) hr' hex with
    hown | hother
  · exact ⟨.subscribing w, mem_set_self hr', hown⟩
  · exact hother

/-- A goroutine goes on before `subLoop` is started, or starts it. -/
theorem Goes.notStarted (hgoes : Goes c i r c') (h : NotStarted c)
    (hinit : c.subLoopInitialized = false) (hr : c.routines[i]? = some r) :
    NotStarted c' ∨
      (c'.subLoopInitialized = true ∧ ∀ w ∈ c'.listed false, Pending c' w) := by
  have hloop := h.not_inSubLoop hr
  cases hgoes with
  | known key =>
      exact Or.inl (h.move hr rfl rfl rfl (by simp) rfl (by simp))
  | registers key => exact Or.inl (h.register hr)
  | startsLoop w =>
      refine Or.inr ⟨?_, h.startsLoop hr hinit⟩
      rw [Client.subLoop, hinit, if_neg Bool.false_ne_true]
      rfl
  | subscribes w =>
      exact Or.inl (h.move hr rfl rfl rfl (by simp) rfl (by simp))
  | locks g _ hup =>
      rw [hinit] at hup
      cases hup
  | drops g _ =>
      refine Or.inl ?_
      cases g with
      | report w => exact h.move hr rfl rfl rfl (by simp) rfl (by simp)
      | getClient k => exact h.getClientReturns hr (by simp) hloop
  | sends g _ => exact absurd (List.mem_of_getElem? hr) (h.noSender g)
  | flags u =>
      obtain ⟨w, rfl⟩ := subscriber_of_not_inSubLoop hloop
      exact Or.inl (h.move hr rfl rfl (length_update ..) (by simp) rfl (by simp))
  | wakes => cases hloop
  | resubscribes w rest => cases hloop

/-- One step before the loop is started. -/
theorem Moves.notStarted {e : Event} (hmoves : Moves c e c')
    (h : NotStarted c) (hinit : c.subLoopInitialized = false) :
    NotStarted c' ∨
      (c'.subLoopInitialized = true ∧ ∀ w ∈ c'.listed false, Pending c' w) := by
  cases hmoves with
  | adds key => exact Or.inl (h.spawn rfl rfl rfl rfl (by simp))
  | calls => exact Or.inl (h.spawn rfl rfl rfl rfl (by simp))
  | reports w =>
      exact Or.inl (((h.update w _).update w _).spawn rfl rfl rfl rfl (by simp))
  | unsubscribed w => exact Or.inl ((h.update w _).update w _)
  | unpackFails w => exact Or.inl (h.update w _)
  | goes hr hgoes => exact hgoes.notStarted h hinit hr
  | connects current dial hr => exact Or.inl (h.connects hr current dial)
  | filters hr =>
      have hloop := h.not_inSubLoop hr
      exact Or.inl (h.move hr rfl rfl (length_update ..) (by simp) hloop
        (by simp))
  | filterFails hr =>
      exact Or.inl (h.subscribeFails hr (by simp) (h.not_inSubLoop hr))
  | lists hr _ => cases h.not_inSubLoop hr
  | takes hr _ => cases h.not_inSubLoop hr
  | ticks hr _ => cases h.not_inSubLoop hr
  | idles hr => cases h.not_inSubLoop hr

/-! ### Whole runs -/

/-- Once started, the loop stays. -/
theorem Moves.initialized {e : Event} (hmoves : Moves c e c')
    (hinit : c.subLoopInitialized = true) : c'.subLoopInitialized = true := by
  cases hmoves with
  | goes hr hgoes =>
      cases hgoes with
      -- `subLoop` is started once
      | startsLoop w =>
          rw [Client.subLoop, if_pos hinit]
          exact hinit
      | drops g _ => rw [(placed_signalReturns c _ g).initialized_eq, hinit]
      | sends g _ => exact (placed_signalReturns _ _ g).initialized_eq.trans hinit
      | flags u => rw [(placed_subscribeDone c _ u).initialized_eq, hinit]
      | wakes =>
          obtain ⟨r', hplaced, -⟩ := placed_wake c _
          rw [hplaced.initialized_eq, hinit]
      | known key => exact hinit
      | registers key => exact hinit
      | subscribes w => exact hinit
      | locks g _ _ => exact hinit
      | resubscribes w rest => exact hinit
  | connects current dial hr =>
      rename_i i k
      obtain ⟨c₁, ⟨client, connected, recreated, rfl⟩, hcases⟩ :=
        connects_cases c i k current dial
      rcases hcases with heq | heq | ⟨heq, -⟩ | ⟨heq, -⟩
      · rw [heq, hinit]
      · rw [heq]
        exact hinit
      · rw [heq]
        exact (placed_getClientReturns _ i k true).initialized_eq.trans hinit
      · rw [heq]
        exact (placed_getClientReturns _ i k false).initialized_eq.trans hinit
  | filterFails hr => rw [(placed_subscribeFails c _ _).initialized_eq, hinit]
  | adds key => exact hinit
  | calls => exact hinit
  | reports w => exact hinit
  | unsubscribed w => exact hinit
  | unpackFails w => exact hinit
  | filters hr => exact hinit
  | lists hr _ => exact hinit
  | takes hr _ => exact hinit
  | ticks hr _ => exact hinit
  | idles hr => exact hinit

/-- Nothing is to be retried in a new client. -/
theorem scheduled_new (chainId : ℕ) (urls : List String) :
    Scheduled (newClient chainId urls) where
  retried := fun hinit => absurd hinit Bool.false_ne_true
  beforeLoop := fun _ =>
    { queued := rfl
      noLoop := fun _ hr => absurd hr List.not_mem_nil
      noSender := fun _ => List.not_mem_nil
      starting := fun _ hw => absurd hw (Nat.not_lt_zero _) }

/-- **EVERY STEP** that keeps the retry keeps the schedule. -/
theorem Moves.scheduled {e : Event} (hmoves : Moves c e c') (h : Scheduled c)
    (hkeep : c.keepsRetry e = true) : Scheduled c' := by
  cases hinit : c.subLoopInitialized with
  | true =>
      have hup := hmoves.initialized hinit
      refine ⟨fun _ => hmoves.retried hinit (h.retried hinit) hkeep, ?_⟩
      intro hdown
      rw [hup] at hdown
      cases hdown
  | false =>
      rcases hmoves.notStarted (h.beforeLoop hinit) hinit with
        hns | ⟨hup, hretried⟩
      · exact ⟨fun _ => hns.retried, fun _ => hns⟩
      · refine ⟨fun _ => hretried, ?_⟩
        intro hdown
        rw [hup] at hdown
        cases hdown

/-- **A DEAD WATCHER IS RETRIED**: along every run whose steps keep the
    retries, every registered watcher without a subscription has a retry
    pending in every state. -/
theorem dead_watcher_retried (chainId : ℕ) (urls : List String) :
    ∀ tr c, Run (Guarded (Fires Client.react)
        (fun c l => c.keepsRetry l.1 = true)) (newClient chainId urls) tr c →
      ∀ (w : ℕ) (e : Entry), c.watchers[w]? = some e → e.subscribed = false →
        Pending c w := by
  intro tr c hrun w e he hflag
  have h : Scheduled c := hrun.invariant (scheduled_new chainId urls)
    (fun _ _ _ ha hstep => (react_moves hstep.1).scheduled ha hstep.2)
  have hw : w ∈ c.listed false := mem_listed_false.mpr ⟨e, he, hflag⟩
  cases hinit : c.subLoopInitialized with
  | true => exact h.retried hinit w hw
  | false => exact (h.beforeLoop hinit).retried w hw

/-- `AddWatcher` of a client that reaches its node but can not subscribe, up
    to the point where `subLoop` has failed to subscribe again. -/
def failingStart : List Event :=
  [.addWatcher "bridge:OracleRequest", .goes 0, .goes 0, .goes 0,
    .connects 0 .sameChain (fun _ => .sameChain), .goes 0, .goes 0,
    .filters 0 false, .takes 1, .goes 1, .lists 1 [0], .goes 1,
    .connects 1 .sameChain (fun _ => .unreachable), .filters 1 false]

/-- The first subscription fails, and `subLoop` is started. -/
theorem dead_watcher_retried_sample :
    ∃ tr c, Run (Guarded (Fires Client.react)
        (fun c l => c.keepsRetry l.1 = true)) (newClient 1 ["ws://node"]) tr c ∧
      c.watchers = [⟨"bridge:OracleRequest", false, 0⟩] ∧ Pending c 0 := by
  obtain ⟨tr, c, hrun, hc⟩ := exists_run
    (fun _ (c : Client) => c.watchers = [⟨"bridge:OracleRequest", false, 0⟩])
    (show (execute (restrict Client.keepsRetry Client.react)
      (newClient 1 ["ws://node"]) failingStart).any _ = true by decide +kernel)
  refine ⟨tr, c, restrict_run hrun, hc, ?_⟩
  exact dead_watcher_retried 1 ["ws://node"] tr c (restrict_run hrun) 0
    ⟨"bridge:OracleRequest", false, 0⟩ (by rw [hc]; rfl) rfl

/-- **A RETRY IS DROPPED**: when `Subscribe` of `AddWatcher` fails because no
    node is reachable; and when a tick finds the connection good after
    `Resubscribe` has failed.  Nothing is left that would subscribe the
    watcher. -/
theorem retry_dropped :
    (∃ tr c, Run (Fires Client.react) (newClient 1 ["ws://node"]) tr c ∧
      c.subLoopInitialized = true ∧ c.routines = [.returned, .selecting] ∧
      c.watchers = [⟨"bridge:OracleRequest", false, 0⟩] ∧
      c.ethClient = none ∧ ¬ Pending c 0) ∧
    ∃ tr c, Run (Fires Client.react) (newClient 1 ["ws://node"]) tr c ∧
      c.subLoopInitialized = true ∧ c.routines = [.returned, .selecting] ∧
      c.watchers = [⟨"bridge:OracleRequest", false, 0⟩] ∧
      c.ethClient = some "ws://node" ∧ ¬ Pending c 0 := by
  constructor
  · exact exists_run
      (fun _ (c : Client) => c.subLoopInitialized = true ∧
        c.routines = [.returned, .selecting] ∧
        c.watchers = [⟨"bridge:OracleRequest", false, 0⟩] ∧
        c.ethClient = none ∧ ¬ Pending c 0)
      (show (execute Client.react (newClient 1 ["ws://node"])
        [.addWatcher "bridge:OracleRequest", .goes 0, .goes 0, .goes 0,
          .connects 0 .unreachable (fun _ => .unreachable)]).any _
        = true by decide +kernel)
  · exact exists_run
      (fun _ (c : Client) => c.subLoopInitialized = true ∧
        c.routines = [.returned, .selecting] ∧
        c.watchers = [⟨"bridge:OracleRequest", false, 0⟩] ∧
        c.ethClient = some "ws://node" ∧ ¬ Pending c 0)
      (show (execute Client.react (newClient 1 ["ws://node"])
        (failingStart ++ [.ticks 1,
          .connects 1 .sameChain (fun _ => .unreachable)])).any _
        = true by decide +kernel)

end RelayerClient
