import Relayer.AccumulatorProofs
import Relayer.RoutineProofs

/-! # The handover of the consensus result

    `StartProtocolByOracleRequest` makes an unbuffered channel, starts
    `WaitForProtocolMsg` with it, and waits in a select for the result or for
    the end of a context that has a deadline of 30 s.  `WaitForProtocolMsg`
    handles every message in a goroutine of its own; the handlers share a
    mutex and a context that has no deadline.

    * `Protocol.react` is one step of one of these goroutines, or of one of
      the contexts;
    * **`session_run_refined`**: a run of `RelayerSession.Loop`, where one
      message is one step, is a run of the goroutines that handles one message
      after the other;
    * **`result_finds_receiver`**: at most one `true` is sent, and the step
      that leaves a handler blocked at its send with nobody left to receive is
      known beforehand (`inTime`). -/

namespace RelayerHandover

open RelayerAccumulator RelayerBls RelayerMessage RelayerSession Routines
open Transition

/-! ## The goroutines -/

/-- Where `StartProtocolByOracleRequest` is. -/
inductive Starter where
  /-- `WaitForProtocolMsg` is started, the select is not reached. -/
  | starting
  | selecting
  /-- The select was left with the result. -/
  | agreed
  /-- The select was left because the context is done. -/
  | gaveUp
  deriving DecidableEq

/-- Has the select been left? -/
def Starter.hasLeft : Starter → Bool
  | .agreed | .gaveUp => true
  | _ => false

/-- Where the loop of `WaitForProtocolMsg` is. -/
inductive Listener where
  /-- At `ctx.Err() == nil`. -/
  | checking
  /-- In `ReceiveFrom`. -/
  | receiving
  | ended
  deriving DecidableEq

/-- Where the handler of a message is. -/
inductive Handler (PK SG : Type) where
  /-- The message is decoded. -/
  | dispatching (msg : MessageWithSig PK SG)
  /-- Prepare: at `mutex.Lock()`. -/
  | preparing (msg : MessageWithSig PK SG)
  /-- Prepare: the mutex is locked. -/
  | counting (msg : MessageWithSig PK SG)
  /-- Prepared and verified: at `mutex.Lock()`. -/
  | verified
  /-- Prepared: at `ctx.Err() == nil`, the mutex locked. -/
  | checking
  /-- Prepared: at `consensusAgreed <- true`, the mutex locked. -/
  | sending
  /-- Prepared: at `cancel()`, the mutex locked. -/
  | cancelling
  /-- Prepared: at `mutex.Unlock()`. -/
  | unlocking
  /-- Prepare: returned without unlocking. -/
  | leaked
  | returned
  deriving DecidableEq

variable {PK SG SK : Type}

/-- Is the mutex locked by this handler? -/
def Handler.holds : Handler PK SG → Bool
  | .counting _ | .checking | .sending | .cancelling | .unlocking | .leaked =>
      true
  | _ => false

def Handler.isSending : Handler PK SG → Bool
  | .sending => true
  | _ => false

/-- `StartProtocolByOracleRequest`, the `WaitForProtocolMsg` it has started,
    and the handlers of the messages so far.  `sessionDone` is the end of
    `session.Ctx`, `timedOut` the deadline of the starter's context, and
    `cancelled` says that `cancel` of `WaitForProtocolMsg` was called. -/
structure Protocol (PK SG SK : Type) where
  session : Session PK SG SK
  sessionDone : Bool
  timedOut : Bool
  cancelled : Bool
  starter : Starter
  listener : Listener
  handlers : List (Handler PK SG)

/-- `StartProtocolByOracleRequest` when it has started `WaitForProtocolMsg`. -/
def startProtocolByOracleRequest (s : Session PK SG SK) : Protocol PK SG SK :=
  ⟨s, false, false, false, .starting, .checking, []⟩

namespace Protocol

/-- `ctx.Err() != nil` in `WaitForProtocolMsg`: its context is a child of the
    session's, not of the one with the deadline. -/
def ctxErr (p : Protocol PK SG SK) : Bool := p.sessionDone || p.cancelled

/-- `ctx.Done()` in `StartProtocolByOracleRequest`. -/
def ctxDone (p : Protocol PK SG SK) : Bool := p.sessionDone || p.timedOut

def mutexFree (p : Protocol PK SG SK) : Bool := free Handler.holds p.handlers

/-- Handler `i` comes to the place `h`. -/
def move (p : Protocol PK SG SK) (i : ℕ) (h : Handler PK SG) :
    Protocol PK SG SK :=
  { p with handlers := p.handlers.set i h }

/-- A goroutine for a message starts. -/
def spawn (p : Protocol PK SG SK) (h : Handler PK SG) : Protocol PK SG SK :=
  { p with handlers := p.handlers ++ [h] }

/-- The loop of `WaitForProtocolMsg` ends, and the deferred `cancel` runs. -/
def endLoop (p : Protocol PK SG SK) : Protocol PK SG SK :=
  { p with listener := .ended, cancelled := true }

/-- The session as a handler finds it. -/
def loop (p : Protocol PK SG SK) : Loop PK SG SK :=
  ⟨p.session, !p.mutexFree, p.ctxErr, p.starter = .selecting⟩

/-- A handler up to its first `mutex.Lock()`. -/
def dispatch (bls : Bls PK SG SK) (p : Protocol PK SG SK) (i : ℕ)
    (msg : MessageWithSig PK SG) :
    Protocol PK SG SK × Option (Verdict PK SG) :=
  if msg.bridgeEventHash ≠ p.session.topic then
    (p.move i .returned, some .notMine)
  else
    match msg.msgType with
    | .prepared =>
        match p.session.verifyThresholdWitnesses bls msg with
        | .error err => (p.move i .returned, some (.thresholdFailed err))
        | .ok () => (p.move i .verified, none)
    | .prepare => (p.move i (.preparing msg), none)
    | .announce =>
        (p.move i .returned, some (p.loop.handleAnnounce bls msg).2)
    | .other _ => (p.move i .returned, some .noCase)

variable [Add PK] [Add SG]

/-- The Prepare case under the mutex; a panic ends the process. -/
def count (bls : Bls PK SG SK) (p : Protocol PK SG SK) (i : ℕ)
    (msg : MessageWithSig PK SG) :
    Option (Protocol PK SG SK × Option (Verdict PK SG)) :=
  let r := { p.loop with locked := false }.handlePrepare bls msg
  if r.2.isPanic then none
  else
    some ({ p with session := r.1.session }.move i
      (if r.1.locked then .leaked else .returned), some r.2)

/-- The next step of handler `i`, with its verdict when that is the end of
    its case; `none` where it waits, is gone, or panics. -/
def goes (bls : Bls PK SG SK) (p : Protocol PK SG SK) (i : ℕ) :
    Handler PK SG → Option (Protocol PK SG SK × Option (Verdict PK SG))
  | .dispatching msg => some (p.dispatch bls i msg)
  | .preparing msg =>
      if p.mutexFree then some (p.move i (.counting msg), none) else none
  | .counting msg => p.count bls i msg
  | .verified => if p.mutexFree then some (p.move i .checking, none) else none
  | .checking =>
      if p.ctxErr then some (p.move i .unlocking, some .tooLate)
      else some (p.move i .sending, none)
  | .cancelling => some ({ p with cancelled := true }.move i .unlocking, none)
  | .unlocking => some (p.move i .returned, none)
  | .sending | .leaked | .returned => none

end Protocol

/-- What can happen. -/
inductive Event (PK SG : Type) where
  /-- The 30 s are over. -/
  | timeout
  /-- `session.Ctx` ends. -/
  | sessionEnds
  /-- `StartProtocolByOracleRequest` comes to its select. -/
  | selects
  /-- It leaves the select because its context is done. -/
  | givesUp
  /-- It receives what handler `i` sends. -/
  | agrees (i : ℕ)
  /-- The loop of `WaitForProtocolMsg` tests its context. -/
  | listens
  /-- `ReceiveFrom` returns a message. -/
  | arrives (msg : MessageWithSig PK SG)
  /-- `ReceiveFrom` returns nil. -/
  | receivesNil
  /-- Handler `i` takes its next step. -/
  | goes (i : ℕ)

def Event.isAgrees : Event PK SG → Bool
  | .agrees _ => true
  | _ => false

/-- One step; `none` where the event can not happen. -/
def Protocol.react [Add PK] [Add SG] (bls : Bls PK SG SK)
    (p : Protocol PK SG SK) :
    Event PK SG → Option (Protocol PK SG SK × Option (Verdict PK SG))
  | .timeout => some ({ p with timedOut := true }, none)
  | .sessionEnds => some ({ p with sessionDone := true }, none)
  | .selects =>
      match p.starter with
      | .starting => some ({ p with starter := .selecting }, none)
      | _ => none
  | .givesUp =>
      match p.starter with
      | .selecting =>
          if p.ctxDone then some ({ p with starter := .gaveUp }, none)
          else none
      | _ => none
  | .agrees i =>
      match p.starter, p.handlers[i]? with
      | .selecting, some .sending =>
          some ({ p with starter := .agreed }.move i .cancelling, some .agreed)
      | _, _ => none
  | .listens =>
      match p.listener with
      | .checking =>
          if p.ctxErr then some (p.endLoop, none)
          else some ({ p with listener := .receiving }, none)
      | _ => none
  | .arrives msg =>
      match p.listener with
      | .receiving =>
          some ({ p with listener := .checking }.spawn (.dispatching msg), none)
      | _ => none
  | .receivesNil =>
      match p.listener with
      | .receiving => some (p.endLoop, none)
      | _ => none
  | .goes i =>
      match p.handlers[i]? with
      | some h => p.goes bls i h
      | none => none

/-! ## One message after the other -/

section Alone

variable {bls : Bls PK SG SK} {p : Protocol PK SG SK} {i : ℕ}
  {h h' : Handler PK SG} {msg : MessageWithSig PK SG}

@[simp] theorem move_move : (p.move i h).move i h' = p.move i h' := by
  simp [Protocol.move]

theorem loop_session : p.loop.session = p.session := rfl

theorem move_getElem? (hi : p.handlers[i]? = some h) :
    (p.move i h').handlers[i]? = some h' :=
  List.getElem?_set_self (List.getElem?_eq_some_iff.mp hi).1

/-- A handler that neither gets nor has the mutex leaves the session as it
    was for the others. -/
theorem loop_move (hi : p.handlers[i]? = some h) (hholds : h.holds = false)
    (hholds' : h'.holds = false) : (p.move i h').loop = p.loop := by
  have hfree : (p.move i h').mutexFree = p.mutexFree :=
    free_set hi hholds hholds'
  rw [Protocol.loop, Protocol.loop, hfree]
  rfl

/-- Where the mutex was free, the handler that has moved decides whether it
    is locked. -/
theorem loop_of_free {q : Protocol PK SG SK} (hi : p.handlers[i]? = some h)
    (hfree : p.mutexFree = true) (hq : q.handlers = p.handlers.set i h') :
    q.loop = ⟨q.session, h'.holds, q.ctxErr, q.starter = .selecting⟩ := by
  rw [Protocol.loop, Protocol.mutexFree, hq, free_set_of_free hi hfree,
    Bool.not_not]

variable [Add PK] [Add SG]

/-- A step of a handler at a known place. -/
theorem fires_goes {p' : Protocol PK SG SK} {v : Option (Verdict PK SG)}
    (hi : p.handlers[i]? = some h) (hgoes : p.goes bls i h = some (p', v)) :
    Fires (Protocol.react bls) p (.goes i, v) p' := by
  rw [Fires, Protocol.react, hi]
  exact hgoes

/-- The Prepare case leaves the context and the receiver alone. -/
theorem handlePrepare_frame (bls : Bls PK SG SK) (st : Loop PK SG SK)
    (msg : MessageWithSig PK SG) :
    (st.handlePrepare bls msg).1.cancelled = st.cancelled ∧
    (st.handlePrepare bls msg).1.waiting = st.waiting := by
  rw [Loop.handlePrepare]
  split
  · exact ⟨rfl, rfl⟩
  · split
    · exact ⟨rfl, rfl⟩
    · split
      · exact ⟨rfl, rfl⟩
      · exact ⟨rfl, rfl⟩
      · split
        · exact ⟨rfl, rfl⟩
        · exact ⟨rfl, rfl⟩
        · split
          · exact ⟨rfl, rfl⟩
          · rw [Loop.acceptAck]
            split
            · split <;> exact ⟨rfl, rfl⟩
            · exact ⟨rfl, rfl⟩

/-- Handler `i` alone comes to a place with the session in state `st`. -/
def Alone (bls : Bls PK SG SK) (p : Protocol PK SG SK) (i : ℕ)
    (st : Loop PK SG SK) : Prop :=
  ∃ tr p' h', Run (Fires (Protocol.react bls)) p tr p' ∧
    p'.handlers = p.handlers.set i h' ∧ p'.loop = st

/-- One more step of the handler before it. -/
theorem Alone.head {q : Protocol PK SG SK} {st : Loop PK SG SK}
    {l : Event PK SG × Option (Verdict PK SG)}
    (hstep : Fires (Protocol.react bls) p l q)
    (hq : q.handlers = p.handlers.set i h) (hrest : Alone bls q i st) :
    Alone bls p i st := by
  obtain ⟨tr, p', h', hrun, hhandlers, hloop⟩ := hrest
  refine ⟨_, p', h', Run.head hstep hrun, ?_, hloop⟩
  rw [hhandlers, hq, List.set_set]

/-- A handler that has come to its end, or waits. -/
theorem Alone.stop {st : Loop PK SG SK} (hi : p.handlers[i]? = some h)
    (hloop : p.loop = st) : Alone bls p i st := by
  obtain ⟨hlt, rfl⟩ := List.getElem?_eq_some_iff.mp hi
  exact ⟨[], p, _, Run.refl, (List.set_getElem_self hlt).symm, hloop⟩

/-- One step to a place outside the mutex, where the handler ends or waits. -/
theorem Alone.once {l : Event PK SG × Option (Verdict PK SG)}
    (hi : p.handlers[i]? = some h) (hholds : h.holds = false)
    (hholds' : h'.holds = false)
    (hstep : Fires (Protocol.react bls) p l (p.move i h')) :
    Alone bls p i p.loop :=
  Alone.head hstep rfl
    (Alone.stop (move_getElem? hi) (loop_move hi hholds hholds'))

/-- The Prepare case under the free mutex. -/
theorem prepare_alone (bls : Bls PK SG SK)
    (hi : p.handlers[i]? = some (.preparing msg)) (hfree : p.mutexFree = true)
    (hpanic : (p.loop.handlePrepare bls msg).2.isPanic = false) :
    Alone bls p i (p.loop.handlePrepare bls msg).1 := by
  have hlocked : p.loop.locked = false := by
    rw [Protocol.loop, hfree]
    rfl
  -- counting under the mutex is `handlePrepare` with the mutex free
  have hloop : { (p.move i (.counting msg)).loop with locked := false }
      = p.loop := by
    rw [← hlocked]
    rfl
  have hcount : (p.move i (.counting msg)).goes bls i (.counting msg) = some
      ({ p with session := (p.loop.handlePrepare bls msg).1.session }.move i
        (if (p.loop.handlePrepare bls msg).1.locked then .leaked
          else .returned), some (p.loop.handlePrepare bls msg).2) := by
    rw [Protocol.goes, Protocol.count]
    dsimp only
    rw [hloop, hpanic]
    simp [Protocol.move]
  refine Alone.head (fires_goes hi (if_pos hfree)) rfl ?_
  refine Alone.head (fires_goes (move_getElem? hi) hcount)
    (List.set_set ..).symm ?_
  refine Alone.stop (move_getElem? hi) ?_
  rw [loop_of_free hi hfree rfl]
  obtain ⟨hcancelled, hwaiting⟩ := handlePrepare_frame bls p.loop msg
  -- the frame lemma fixes the two flags, so only the mutex is left
  generalize p.loop.handlePrepare bls msg = r at hcancelled hwaiting ⊢
  obtain ⟨⟨session, locked, cancelled, waiting⟩, v⟩ := r
  obtain rfl : cancelled = p.loop.cancelled := hcancelled
  obtain rfl : waiting = p.loop.waiting := hwaiting
  cases locked with
  | true => rfl
  | false => rfl

/-- A verified Prepared message under the free mutex. -/
theorem prepared_alone (bls : Bls PK SG SK)
    (hi : p.handlers[i]? = some .verified) (hfree : p.mutexFree = true)
    (hver : p.session.verifyThresholdWitnesses bls msg = .ok ()) :
    Alone bls p i (p.loop.handlePrepared bls msg).1 := by
  have hlocked : p.loop.locked = false := by
    rw [Protocol.loop, hfree]
    rfl
  -- what the handler does in one piece, with the mutex free
  have hhandle : p.loop.handlePrepared bls msg =
      if p.ctxErr then (p.loop, .tooLate)
      else if p.starter = .selecting then
        ({ p.loop with cancelled := true, waiting := false }, .agreed)
      else ({ p.loop with locked := true }, .waitsForReceiver) := by
    rw [Loop.handlePrepared, loop_session, hver, hlocked]
    simp [Protocol.loop, hfree]
  have hchecking : (p.move i .checking).handlers[i]? = some .checking :=
    move_getElem? hi
  have hsending : (p.move i .sending).handlers[i]? = some .sending :=
    move_getElem? hi
  refine Alone.head (fires_goes hi (if_pos hfree)) rfl ?_
  rw [hhandle]
  by_cases hdone : p.ctxErr = true
  · -- the context is done: unlock without a send
    rw [if_pos hdone]
    refine Alone.head (fires_goes hchecking (if_pos hdone)) rfl ?_
    rw [move_move]
    refine Alone.head (fires_goes (move_getElem? hi) rfl) rfl ?_
    rw [move_move]
    exact Alone.stop (move_getElem? hi) (loop_move hi rfl rfl)
  · rw [if_neg hdone]
    refine Alone.head (fires_goes hchecking (if_neg hdone)) rfl ?_
    rw [move_move]
    by_cases hsel : p.starter = .selecting
    · -- received in the select; then cancel and unlock
      rw [if_pos hsel]
      have hagrees : Fires (Protocol.react bls) (p.move i .sending)
          (.agrees i, some .agreed)
          ({ p with starter := .agreed }.move i .cancelling) := by
        rw [Fires, Protocol.react, hsending,
          show (p.move i .sending).starter = .selecting from hsel]
        simp [Protocol.move]
      refine Alone.head hagrees (List.set_set ..).symm ?_
      refine Alone.head (fires_goes (move_getElem? hi) rfl) rfl ?_
      refine Alone.head (fires_goes (move_getElem? (move_getElem? hi)) rfl)
        rfl ?_
      refine Alone.stop (move_getElem? (move_getElem? (move_getElem? hi))) ?_
      rw [loop_of_free hi hfree (show _ = p.handlers.set i .returned by
        simp [Protocol.move]), Protocol.loop, hfree]
      simp [Protocol.move, Protocol.ctxErr, Handler.holds]
    · -- nobody receives: the handler blocks with the mutex held
      rw [if_neg hsel]
      refine Alone.stop hsending ?_
      rw [loop_of_free hi hfree rfl]
      rfl

/-- **ONE HANDLER ALONE** does to the session what the handler of the session
    model does in one step. -/
theorem handled_alone (hi : p.handlers[i]? = some (.dispatching msg))
    (hpanic : (p.loop.handle bls msg).2.isPanic = false) :
    Alone bls p i (p.loop.handle bls msg).1 := by
  have hstep : Fires (Protocol.react bls) p
      (.goes i, (p.dispatch bls i msg).2) (p.dispatch bls i msg).1 :=
    fires_goes hi rfl
  rw [Protocol.dispatch] at hstep
  rw [Loop.handle, loop_session] at hpanic ⊢
  by_cases hmine : msg.bridgeEventHash ≠ p.session.topic
  · rw [if_pos hmine] at hstep ⊢
    exact Alone.once hi rfl rfl hstep
  · rw [if_neg hmine] at hstep hpanic ⊢
    cases htype : msg.msgType with
    | other n =>
        rw [htype] at hstep
        exact Alone.once hi rfl rfl hstep
    | announce =>
        rw [htype] at hstep
        exact Alone.once hi rfl rfl hstep
    | prepare =>
        rw [htype] at hstep hpanic
        have hloop : (p.move i (.preparing msg)).loop = p.loop :=
          loop_move hi rfl rfl
        refine Alone.head hstep rfl ?_
        cases hfree : p.mutexFree with
        | true =>
            have hrest := prepare_alone bls (move_getElem? hi)
              ((free_set hi rfl rfl).trans hfree) (by rw [hloop]; exact hpanic)
            rwa [hloop] at hrest
        | false =>
            -- it stays at its Lock, where the session says it waits
            refine Alone.stop (move_getElem? hi) (hloop.trans ?_)
            show p.loop = (p.loop.handlePrepare bls msg).1
            rw [Loop.handlePrepare, if_pos (by rw [Protocol.loop, hfree]; rfl)]
    | prepared =>
        rw [htype] at hstep
        show Alone bls p i (p.loop.handlePrepared bls msg).1
        cases hver : p.session.verifyThresholdWitnesses bls msg with
        | error err =>
            rw [hver] at hstep
            rw [Loop.handlePrepared, loop_session, hver]
            exact Alone.once hi rfl rfl hstep
        | ok _ =>
            rw [hver] at hstep
            have hloop : (p.move i .verified).loop = p.loop :=
              loop_move hi rfl rfl
            refine Alone.head hstep rfl ?_
            cases hfree : p.mutexFree with
            | true =>
                have hrest := prepared_alone bls (move_getElem? hi)
                  ((free_set hi rfl rfl).trans hfree) hver
                rwa [hloop] at hrest
            | false =>
                refine Alone.stop (move_getElem? hi) (hloop.trans ?_)
                rw [Loop.handlePrepared, loop_session, hver]
                simp [Protocol.loop, hfree]

/-- Messages arrive as long as the context is alive. -/
theorem messages_arrive (bls : Bls PK SG SK)
    (msgs : List (MessageWithSig PK SG)) :
    ∀ p : Protocol PK SG SK, p.listener = .checking → p.ctxErr = false →
      ∃ tr, Run (Fires (Protocol.react bls)) p tr
        { p with handlers := p.handlers ++ msgs.map .dispatching } := by
  induction msgs with
  | nil =>
      intro p _ _
      rw [List.map_nil, List.append_nil]
      exact ⟨[], Run.refl⟩
  | cons msg msgs ih =>
      intro p hlistener halive
      have hlistens : Fires (Protocol.react bls) p (.listens, none)
          { p with listener := .receiving } := by
        rw [Fires, Protocol.react, hlistener]
        simp [halive]
      have harrives : Fires (Protocol.react bls)
          { p with listener := .receiving } (.arrives msg, none)
          (p.spawn (.dispatching msg)) := by
        rw [Fires, Protocol.react]
        simp [Protocol.spawn, ← hlistener]
      obtain ⟨tr, hrun⟩ := ih (p.spawn (.dispatching msg)) hlistener halive
      rw [List.map_cons, List.append_cons]
      exact ⟨_, Run.head hlistens (Run.head harrives hrun)⟩

/-- A state of the goroutines that looks like the state `st` of the session,
    with handlers of the messages `msgs` ready to start. -/
def Ready (bls : Bls PK SG SK) (s : Session PK SG SK)
    (msgs : List (MessageWithSig PK SG)) (st : Loop PK SG SK) : Prop :=
  ∃ tr p k, Run (Fires (Protocol.react bls)) (startProtocolByOracleRequest s)
    tr p ∧ p.loop = st ∧ p.handlers.drop k = msgs.map .dispatching

/-- The protocol as started, with any messages to come. -/
theorem ready_start (bls : Bls PK SG SK) (s : Session PK SG SK)
    (msgs : List (MessageWithSig PK SG)) :
    Ready bls s msgs (Loop.start s) := by
  have hselects : Fires (Protocol.react bls) (startProtocolByOracleRequest s)
      (.selects, none)
      { startProtocolByOracleRequest s with starter := .selecting } := rfl
  obtain ⟨tr, hrun⟩ := messages_arrive bls msgs
    { startProtocolByOracleRequest s with starter := .selecting } rfl rfl
  refine ⟨_, _, 0, Run.head hselects hrun, ?_, rfl⟩
  have hfree : free Handler.holds (msgs.map .dispatching : List (Handler PK SG))
      = true := by
    simp [free, Handler.holds]
  rw [Protocol.loop, Protocol.mutexFree]
  simp only [startProtocolByOracleRequest, List.nil_append, hfree]
  rfl

/-- One step of the session is made by the goroutines. -/
theorem ready_step {s : Session PK SG SK} {st st' : Loop PK SG SK}
    {l : RelayerSession.Event PK SG × Verdict PK SG}
    (hstep : Step bls st l st') (hready : ∀ msgs, Ready bls s msgs st)
    (msgs : List (MessageWithSig PK SG)) : Ready bls s msgs st' := by
  obtain ⟨e, v⟩ := l
  obtain ⟨heq, hpanic⟩ := hstep
  obtain rfl : (st.react bls e).1 = st' := congrArg Prod.fst heq
  cases e with
  | received msg =>
      -- the message was the first of those still to come
      obtain ⟨tr, p, k, hrun, rfl, hdrop⟩ := hready (msg :: msgs)
      have hi : p.handlers[k]? = some (.dispatching msg) := by
        rw [← List.head?_drop, hdrop]
        rfl
      have hv : (p.loop.handle bls msg).2 = v := congrArg Prod.snd heq
      obtain ⟨tr', p', h', hrun', hhandlers, hloop⟩ :=
        handled_alone hi (hv ▸ hpanic)
      refine ⟨_, p', k + 1, hrun.append hrun', hloop, ?_⟩
      rw [hhandlers, List.drop_set_of_lt (Nat.lt_succ_self k), ← List.tail_drop,
        hdrop]
      rfl
  | receiverLeft =>
      obtain ⟨tr, p, k, hrun, rfl, hdrop⟩ := hready msgs
      -- an oracle that has left already cannot leave again
      by_cases hsel : p.starter = .selecting
      · have htimeout : Fires (Protocol.react bls) p (.timeout, none)
            { p with timedOut := true } := rfl
        have hgives : Fires (Protocol.react bls) { p with timedOut := true }
            (.givesUp, none) { p with timedOut := true, starter := .gaveUp } := by
          rw [Fires, Protocol.react]
          simp [hsel, Protocol.ctxDone]
        exact ⟨_, _, k, (hrun.tail htimeout).tail hgives, rfl, hdrop⟩
      · refine ⟨tr, p, k, hrun, ?_, hdrop⟩
        simp [Loop.react, Protocol.loop, hsel]
  | contextDone =>
      obtain ⟨tr, p, k, hrun, rfl, hdrop⟩ := hready msgs
      have hends : Fires (Protocol.react bls) p (.sessionEnds, none)
          { p with sessionDone := true } := rfl
      exact ⟨_, _, k, hrun.tail hends, rfl, hdrop⟩

/-- **THE SESSION MODEL IS REFINED**: what a session goes through when one
    message is handled in one step, the goroutines go through when the
    messages are there and are handled one after the other. -/
theorem session_run_refined {s : Session PK SG SK} {st : Loop PK SG SK}
    {tr : List (RelayerSession.Event PK SG × Verdict PK SG)}
    (hrun : Run (Step bls) (Loop.start s) tr st) :
    ∃ tr' p, Run (Fires (Protocol.react bls)) (startProtocolByOracleRequest s)
      tr' p ∧ p.loop = st := by
  have hready : ∀ msgs, Ready bls s msgs st :=
    hrun.invariant (ready_start bls s) (fun _ _ _ ha hstep => ready_step hstep ha)
  obtain ⟨tr', p, -, hrun', hloop, -⟩ := hready []
  exact ⟨tr', p, hrun', hloop⟩

end Alone

/-! ## The result and its receiver -/

/-- A handler is blocked at its send, with the mutex locked, and the select
    has been left. -/
def Stranded (p : Protocol PK SG SK) : Prop :=
  p.starter.hasLeft = true ∧
    ∃ h ∈ p.handlers, h.isSending = true ∧ h.holds = true

/-- The number of times `true` was sent. -/
def agreements (tr : List (Event PK SG × Option (Verdict PK SG))) : ℕ :=
  tr.countP (fun l => l.1.isAgrees)

/-- The steps in time: the select is not left for the context while a handler
    is at its send, and after it was left so, no handler finds the context of
    `WaitForProtocolMsg` alive. -/
def inTime (p : Protocol PK SG SK) : Event PK SG → Bool
  | .givesUp => free Handler.isSending p.handlers
  | .goes i =>
      match p.handlers[i]? with
      | some .checking => p.starter ≠ .gaveUp || p.ctxErr
      | _ => true
  | _ => true

section Steps

variable {bls : Bls PK SG SK} {p p' : Protocol PK SG SK} {e : Event PK SG}
  {i : ℕ} {h h' : Handler PK SG}

/-- Sending is one place. -/
theorem isSending_iff : h.isSending = true ↔ h = .sending := by
  cases h <;> simp [Handler.isSending]

/-- A handler at its send holds the mutex. -/
theorem stranded_iff :
    Stranded p ↔ p.starter.hasLeft = true ∧ Handler.sending ∈ p.handlers := by
  constructor
  · rintro ⟨hleft, h, hmem, hsend, -⟩
    obtain rfl := isSending_iff.mp hsend
    exact ⟨hleft, hmem⟩
  · rintro ⟨hleft, hmem⟩
    exact ⟨hleft, .sending, hmem, rfl, rfl⟩

/-- What a step does to the starter, to the handlers and to the context of
    `WaitForProtocolMsg`. -/
inductive Turn (p p' : Protocol PK SG SK) : Event PK SG → Prop where
  | still {e : Event PK SG} (he : e.isAgrees = false) (hin : inTime p e = true)
      (hstarter : p'.starter.hasLeft = p.starter.hasLeft)
      (hagreed : p'.starter = .agreed ↔ p.starter = .agreed)
      (hhandlers : p'.handlers = p.handlers)
      (hctx : p.ctxErr = true → p'.ctxErr = true) : Turn p p' e
  | gaveUp (hsel : p.starter = .selecting)
      (heq : p' = { p with starter := .gaveUp }) : Turn p p' .givesUp
  | agreed (i : ℕ) (hsel : p.starter = .selecting)
      (hi : p.handlers[i]? = some .sending)
      (heq : p' = { p with starter := .agreed }.move i .cancelling) :
      Turn p p' (.agrees i)
  | arrived (msg : MessageWithSig PK SG) (hstarter : p'.starter = p.starter)
      (hhandlers : p'.handlers = p.handlers ++ [.dispatching msg])
      (hctx : p'.ctxErr = p.ctxErr) : Turn p p' (.arrives msg)
  | moved (i : ℕ) (h h' : Handler PK SG) (hi : p.handlers[i]? = some h)
      (hin : inTime p (.goes i) = true) (hstarter : p'.starter = p.starter)
      (hhandlers : p'.handlers = p.handlers.set i h')
      (hholds : h'.holds = true → h.holds = true ∨ p.mutexFree = true)
      (hwas : h ≠ .sending) (hsend : h' ≠ .sending)
      (hctx : p'.ctxErr = true ∨ h ≠ .cancelling ∧ p'.ctxErr = p.ctxErr) :
      Turn p p' (.goes i)
  | checked (i : ℕ) (hi : p.handlers[i]? = some .checking)
      (halive : p.ctxErr = false) (heq : p' = p.move i .sending) :
      Turn p p' (.goes i)

/-- Up to its first `mutex.Lock()` a handler moves only itself. -/
theorem dispatch_cases (bls : Bls PK SG SK) (p : Protocol PK SG SK) (i : ℕ)
    (msg : MessageWithSig PK SG) :
    ∃ h' v, p.dispatch bls i msg = (p.move i h', v) ∧ h'.holds = false := by
  rw [Protocol.dispatch]
  split
  · exact ⟨_, _, rfl, rfl⟩
  · split
    · split
      · exact ⟨_, _, rfl, rfl⟩
      · exact ⟨_, _, rfl, rfl⟩
    · exact ⟨_, _, rfl, rfl⟩
    · exact ⟨_, _, rfl, rfl⟩
    · exact ⟨_, _, rfl, rfl⟩

theorem inTime_goes (hi : p.handlers[i]? = some h) (hne : h ≠ .checking) :
    inTime p (.goes i) = true := by
  rw [inTime, hi]
  cases h <;> first | rfl | exact absurd rfl hne

/-- A handler that only moves itself, away from none of the places a turn
    treats apart. -/
theorem turn_of_move (hi : p.handlers[i]? = some h)
    (hfrom : h ≠ .checking ∧ h ≠ .sending ∧ h ≠ .cancelling)
    (hsend : h' ≠ .sending)
    (hholds : h'.holds = true → h.holds = true ∨ p.mutexFree = true) :
    Turn p (p.move i h') (.goes i) :=
  Turn.moved i h h' hi (inTime_goes hi hfrom.1) rfl rfl hholds hfrom.2.1 hsend
    (Or.inr ⟨hfrom.2.2, rfl⟩)

theorem endLoop_ctxErr (p : Protocol PK SG SK) : p.endLoop.ctxErr = true :=
  Bool.or_true _

variable [Add PK] [Add SG]

/-- A handler's step is one of the turns. -/
theorem goes_turn {v : Option (Verdict PK SG)} (hi : p.handlers[i]? = some h)
    (hgoes : p.goes bls i h = some (p', v)) : Turn p p' (.goes i) := by
  cases h with
  | dispatching msg =>
      obtain ⟨h', v', heq, hholds⟩ := dispatch_cases bls p i msg
      rw [Protocol.goes, heq] at hgoes
      obtain ⟨rfl, -⟩ := Prod.mk.inj (Option.some.inj hgoes)
      refine turn_of_move hi (by simp) ?_ ?_
      · rintro rfl
        cases hholds
      · intro hcon
        rw [hholds] at hcon
        cases hcon
  | preparing msg =>
      rw [Protocol.goes] at hgoes
      split at hgoes
      · rename_i hfree
        obtain ⟨rfl, -⟩ := Prod.mk.inj (Option.some.inj hgoes)
        exact turn_of_move hi (by simp) (by simp) (fun _ => Or.inr hfree)
      · cases hgoes
  | counting msg =>
      rw [Protocol.goes, Protocol.count] at hgoes
      dsimp only at hgoes
      split at hgoes
      · cases hgoes
      · obtain ⟨rfl, -⟩ := Prod.mk.inj (Option.some.inj hgoes)
        refine Turn.moved i _ _ hi (inTime_goes hi (by simp)) rfl rfl
          (fun _ => Or.inl rfl) (by simp) ?_ (Or.inr ⟨by simp, rfl⟩)
        split <;> simp
  | verified =>
      rw [Protocol.goes] at hgoes
      split at hgoes
      · rename_i hfree
        obtain ⟨rfl, -⟩ := Prod.mk.inj (Option.some.inj hgoes)
        exact turn_of_move hi (by simp) (by simp) (fun _ => Or.inr hfree)
      · cases hgoes
  -- the one place where a handler decides to send
  | checking =>
      rw [Protocol.goes] at hgoes
      split at hgoes
      · rename_i hdone
        obtain ⟨rfl, -⟩ := Prod.mk.inj (Option.some.inj hgoes)
        refine Turn.moved i _ _ hi ?_ rfl rfl (fun _ => Or.inl rfl) (by simp)
          (by simp) (Or.inl hdone)
        rw [inTime, hi, hdone, Bool.or_true]
      · rename_i halive
        obtain ⟨rfl, -⟩ := Prod.mk.inj (Option.some.inj hgoes)
        exact Turn.checked i hi (Bool.not_eq_true _ ▸ halive) rfl
  | cancelling =>
      obtain ⟨rfl, -⟩ := Prod.mk.inj (Option.some.inj hgoes)
      exact Turn.moved i _ _ hi (inTime_goes hi (by simp)) rfl rfl
        (fun _ => Or.inl rfl) (by simp) (by simp) (Or.inl (Bool.or_true _))
  | unlocking =>
      obtain ⟨rfl, -⟩ := Prod.mk.inj (Option.some.inj hgoes)
      exact turn_of_move hi (by simp) (by simp) (fun _ => Or.inl rfl)
  | sending => cases hgoes
  | leaked => cases hgoes
  | returned => cases hgoes

/-- **WHAT A STEP CAN DO**. -/
theorem react_turn {v : Option (Verdict PK SG)}
    (hreact : p.react bls e = some (p', v)) : Turn p p' e := by
  cases e with
  | timeout =>
      obtain ⟨rfl, -⟩ := Prod.mk.inj (Option.some.inj hreact)
      exact Turn.still rfl rfl rfl Iff.rfl rfl id
  | sessionEnds =>
      obtain ⟨rfl, -⟩ := Prod.mk.inj (Option.some.inj hreact)
      exact Turn.still rfl rfl rfl Iff.rfl rfl (fun _ => rfl)
  -- entering the `select` is no end of the oracle's wait
  | selects =>
      rw [Protocol.react] at hreact
      split at hreact
      · rename_i hstart
        obtain ⟨rfl, -⟩ := Prod.mk.inj (Option.some.inj hreact)
        refine Turn.still rfl rfl ?_ ?_ rfl id
        · rw [hstart]; rfl
        · rw [hstart]
          exact ⟨Starter.noConfusion, Starter.noConfusion⟩
      · cases hreact
  | givesUp =>
      rw [Protocol.react] at hreact
      split at hreact
      · rename_i hsel
        split at hreact
        · obtain ⟨rfl, -⟩ := Prod.mk.inj (Option.some.inj hreact)
          exact Turn.gaveUp hsel rfl
        · cases hreact
      · cases hreact
  | agrees i =>
      rw [Protocol.react] at hreact
      split at hreact
      · rename_i hsel hi
        obtain ⟨rfl, -⟩ := Prod.mk.inj (Option.some.inj hreact)
        exact Turn.agreed i hsel hi rfl
      · cases hreact
  | listens =>
      rw [Protocol.react] at hreact
      split at hreact
      · split at hreact
        · obtain ⟨rfl, -⟩ := Prod.mk.inj (Option.some.inj hreact)
          exact Turn.still rfl rfl rfl Iff.rfl rfl (fun _ => endLoop_ctxErr p)
        · obtain ⟨rfl, -⟩ := Prod.mk.inj (Option.some.inj hreact)
          exact Turn.still rfl rfl rfl Iff.rfl rfl id
      · cases hreact
  | arrives msg =>
      rw [Protocol.react] at hreact
      split at hreact
      · obtain ⟨rfl, -⟩ := Prod.mk.inj (Option.some.inj hreact)
        exact Turn.arrived msg rfl rfl rfl
      · cases hreact
  | receivesNil =>
      rw [Protocol.react] at hreact
      split at hreact
      · obtain ⟨rfl, -⟩ := Prod.mk.inj (Option.some.inj hreact)
        exact Turn.still rfl rfl rfl Iff.rfl rfl (fun _ => endLoop_ctxErr p)
      · cases hreact
  | goes i =>
      rw [Protocol.react] at hreact
      split at hreact
      · rename_i h hi
        exact goes_turn hi hreact
      · cases hreact

end Steps

/-! ## The invariant -/

/-- One handler at a time holds the mutex; and once the result has been
    received no handler is at its send, and the context ends before the mutex
    is free again. -/
structure HandedOver (p : Protocol PK SG SK) : Prop where
  exclusive : Exclusive Handler.holds p.handlers
  noSender : p.starter = .agreed → Handler.sending ∉ p.handlers
  ending : p.starter = .agreed →
    p.ctxErr = true ∨ Handler.cancelling ∈ p.handlers

section Invariant

variable {bls : Bls PK SG SK} {p p' : Protocol PK SG SK} {e : Event PK SG}
  {i : ℕ} {h h' : Handler PK SG}

theorem handedOver_start (s : Session PK SG SK) :
    HandedOver (startProtocolByOracleRequest s) :=
  ⟨exclusive_nil _, fun _ => List.not_mem_nil,
    fun hstart => Starter.noConfusion hstart⟩

/-- Nobody comes to the send by another handler's step. -/
theorem sending_mem_set (hmem : Handler.sending ∈ p.handlers.set i h')
    (hne : h' ≠ .sending) : ∃ j, j ≠ i ∧ p.handlers[j]? = some .sending := by
  obtain ⟨j, hj⟩ := List.mem_iff_getElem?.mp hmem
  rcases getElem?_set_cases hj with ⟨-, rfl⟩ | ⟨hji, hold⟩
  · exact absurd rfl hne
  · exact ⟨j, hji, hold⟩

/-- After the result was received no handler finds the context alive. -/
theorem HandedOver.not_agreed (hp : HandedOver p)
    (hi : p.handlers[i]? = some .checking) (halive : p.ctxErr = false) :
    p.starter ≠ .agreed := by
  intro hagreed
  rcases hp.ending hagreed with hdone | hmem
  · rw [halive] at hdone
    cases hdone
  · obtain ⟨j, hj⟩ := List.mem_iff_getElem?.mp hmem
    obtain rfl := hp.exclusive j i _ _ hj hi rfl rfl
    cases hi.symm.trans hj

/-- **ONE STEP** keeps the invariant. -/
theorem Turn.handedOver (hturn : Turn p p' e) (hp : HandedOver p) :
    HandedOver p' := by
  cases hturn with
  | still he hin hstarter hagreed hhandlers hctx =>
      refine ⟨?_, ?_, ?_⟩
      · rw [hhandlers]
        exact hp.exclusive
      · rw [hhandlers]
        exact fun ha => hp.noSender (hagreed.mp ha)
      · rw [hhandlers]
        exact fun ha => (hp.ending (hagreed.mp ha)).imp_left hctx
  | gaveUp hsel heq =>
      subst heq
      exact ⟨hp.exclusive, fun ha => Starter.noConfusion ha,
        fun ha => Starter.noConfusion ha⟩
  | agreed i hsel hi heq =>
      subst heq
      refine ⟨exclusive_set hp.exclusive hi (fun _ => Or.inl rfl), ?_, ?_⟩
      · -- another sender would hold the mutex too
        intro _ hmem
        obtain ⟨j, hji, hj⟩ := sending_mem_set hmem (by simp)
        exact hji (hp.exclusive j i _ _ hj hi rfl rfl)
      · exact fun _ => Or.inr (mem_set_self hi)
  | arrived msg hstarter hhandlers hctx =>
      refine ⟨?_, ?_, ?_⟩
      · rw [hhandlers]
        exact exclusive_concat hp.exclusive (fun hcon => by cases hcon)
      · rw [hstarter, hhandlers]
        intro ha hmem
        rcases List.mem_append.mp hmem with hold | hnew
        · exact hp.noSender ha hold
        · cases List.mem_singleton.mp hnew
      · rw [hstarter, hhandlers, hctx]
        exact fun ha => (hp.ending ha).imp_right (List.mem_append_left _)
  | moved i h h' hi hin hstarter hhandlers hholds hwas hsend hctx =>
      refine ⟨?_, ?_, ?_⟩
      · rw [hhandlers]
        exact exclusive_set hp.exclusive hi hholds
      · rw [hstarter, hhandlers]
        intro ha hmem
        obtain ⟨j, -, hj⟩ := sending_mem_set hmem hsend
        exact hp.noSender ha (List.mem_of_getElem? hj)
      · rw [hstarter, hhandlers]
        intro ha
        rcases hctx with hdone | ⟨hne, hsame⟩
        · exact Or.inl hdone
        · rw [hsame]
          exact (hp.ending ha).imp_right
            (fun hmem => mem_set_of_mem hmem hi hne)
  | checked i hi halive heq =>
      have hne := hp.not_agreed hi halive
      subst heq
      exact ⟨exclusive_set hp.exclusive hi (fun _ => Or.inl rfl),
        fun ha => absurd ha hne, fun ha => absurd ha hne⟩

/-- **ONE STEP STRANDS A HANDLER** exactly when it is not in time. -/
theorem Turn.stranded_iff (hturn : Turn p p' e) (hp : HandedOver p)
    (hok : ¬ Stranded p) : Stranded p' ↔ inTime p e = false := by
  have hp' := hturn.handedOver hp
  rw [RelayerHandover.stranded_iff] at hok ⊢
  cases hturn with
  | still he hin hstarter hagreed hhandlers hctx =>
      rw [hin, hstarter, hhandlers]
      exact ⟨fun hs => absurd hs hok, fun hcon => by cases hcon⟩
  | gaveUp hsel heq =>
      subst heq
      rw [inTime, Bool.eq_false_iff, ne_eq, free_iff]
      constructor
      · rintro ⟨-, hmem⟩ hall
        cases hall _ hmem
      -- some handler is at its send while the oracle leaves
      · intro hsome
        refine ⟨rfl, ?_⟩
        by_contra hnone
        refine hsome (fun q hq => Bool.eq_false_iff.mpr (fun hsend => ?_))
        obtain rfl := isSending_iff.mp hsend
        exact hnone hq
  | agreed i hsel hi heq =>
      subst heq
      exact ⟨fun hs => absurd hs.2 (hp'.noSender rfl), fun hcon => by cases hcon⟩
  | arrived msg hstarter hhandlers hctx =>
      rw [hstarter, hhandlers]
      refine ⟨fun hs => absurd ⟨hs.1, ?_⟩ hok, fun hcon => by cases hcon⟩
      rcases List.mem_append.mp hs.2 with hold | hnew
      · exact hold
      · cases List.mem_singleton.mp hnew
  | moved i h h' hi hin hstarter hhandlers hholds hwas hsend hctx =>
      rw [hin, hstarter, hhandlers]
      refine ⟨fun hs => absurd ⟨hs.1, ?_⟩ hok, fun hcon => by cases hcon⟩
      obtain ⟨j, -, hj⟩ := sending_mem_set hs.2 hsend
      exact List.mem_of_getElem? hj
  -- the check passed: it strands if the oracle has given up before
  | checked i hi halive heq =>
      have hne := hp.not_agreed hi halive
      subst heq
      rw [inTime, hi, halive, Bool.or_false, decide_eq_false_iff_not, not_not]
      constructor
      · rintro ⟨hleft, -⟩
        change p.starter.hasLeft = true at hleft
        cases hs : p.starter with
        | gaveUp => rfl
        | agreed => exact absurd hs hne
        | starting => rw [hs] at hleft; cases hleft
        | selecting => rw [hs] at hleft; cases hleft
      · intro hgave
        refine ⟨?_, mem_set_self hi⟩
        show p.starter.hasLeft = true
        rw [hgave]
        rfl

/-- A stranded handler stays where it is, and keeps the mutex. -/
theorem Turn.stranded (hturn : Turn p p' e) (hs : Stranded p) :
    Stranded p' := by
  rw [RelayerHandover.stranded_iff] at hs ⊢
  obtain ⟨hleft, hmem⟩ := hs
  cases hturn with
  | still he hin hstarter hagreed hhandlers hctx =>
      rw [hstarter, hhandlers]
      exact ⟨hleft, hmem⟩
  | gaveUp hsel heq =>
      rw [hsel] at hleft
      cases hleft
  | agreed i hsel hi heq =>
      rw [hsel] at hleft
      cases hleft
  | arrived msg hstarter hhandlers hctx =>
      rw [hstarter, hhandlers]
      exact ⟨hleft, List.mem_append_left _ hmem⟩
  | moved i h h' hi hin hstarter hhandlers hholds hwas hsend hctx =>
      rw [hstarter, hhandlers]
      exact ⟨hleft, mem_set_of_mem hmem hi hwas⟩
  | checked i hi halive heq =>
      subst heq
      exact ⟨hleft, mem_set_self hi⟩

/-- The result is counted when the select is left with it. -/
theorem Turn.agreements (hturn : Turn p p' e) {v : Option (Verdict PK SG)}
    {tr : List (Event PK SG × Option (Verdict PK SG))}
    (htr : agreements tr = if p.starter = .agreed then 1 else 0) :
    RelayerHandover.agreements (tr ++ [(e, v)])
      = if p'.starter = .agreed then 1 else 0 := by
  rw [RelayerHandover.agreements, List.countP_append, List.countP_singleton]
  change RelayerHandover.agreements tr + _ = _
  rw [htr]
  cases hturn with
  | still he hin hstarter hagreed hhandlers hctx =>
      simp only [he, hagreed, Bool.false_eq_true, if_false, Nat.add_zero]
  | gaveUp hsel heq => rw [heq, hsel]; rfl
  | agreed i hsel hi heq => rw [heq, hsel]; rfl
  | arrived msg hstarter hhandlers hctx => rw [hstarter]; rfl
  | moved i h h' hi hin hstarter hhandlers hholds hwas hsend hctx =>
      rw [hstarter]; rfl
  | checked i hi halive heq => rw [heq]; rfl

variable [Add PK] [Add SG]

/-- **A STRANDED HANDLER IS NEVER FREED**: it keeps the mutex in every run
    from there on. -/
theorem stranded_forever {tr : List (Event PK SG × Option (Verdict PK SG))}
    (hrun : Run (Fires (Protocol.react bls)) p tr p') (hs : Stranded p) :
    Stranded p' :=
  hrun.invariant hs (fun _ _ _ ha hstep => (react_turn hstep).stranded ha)

/-- **THE RESULT FINDS ITS RECEIVER**: at most one `true` is sent in every
    run; along every run of steps in time no handler is stranded, and the next
    step strands one exactly when it is not in time. -/
theorem result_finds_receiver (bls : Bls PK SG SK) (s : Session PK SG SK) :
    (∀ tr p, Run (Fires (Protocol.react bls)) (startProtocolByOracleRequest s)
      tr p → agreements tr ≤ 1) ∧
    ∀ tr p, Run (Guarded (Fires (Protocol.react bls))
        (fun p l => inTime p l.1 = true)) (startProtocolByOracleRequest s) tr p →
      ¬ Stranded p ∧
      ∀ e p' v, p.react bls e = some (p', v) →
        (Stranded p' ↔ inTime p e = false) := by
  constructor
  · intro tr p hrun
    have hcount : agreements tr = if p.starter = .agreed then 1 else 0 :=
      Run.traced (P := fun tr p =>
          agreements tr = if p.starter = .agreed then 1 else 0) hrun rfl
        (fun _ _ _ _ ha hstep => (react_turn hstep).agreements ha)
    rw [hcount]
    split <;> decide
  · intro tr p hrun
    have hinv : HandedOver p ∧ ¬ Stranded p := by
      refine hrun.invariant (P := fun p => HandedOver p ∧ ¬ Stranded p)
        ⟨handedOver_start s, fun hs => ?_⟩ ?_
      · cases hs.1
      · rintro p l p' ⟨hp, hok⟩ ⟨hstep, hin⟩
        have hturn := react_turn hstep
        refine ⟨hturn.handedOver hp, fun hs => ?_⟩
        rw [(hturn.stranded_iff hp hok).mp hs] at hin
        cases hin
    exact ⟨hinv.2, fun e p' v hreact =>
      (react_turn hreact).stranded_iff hinv.1 hinv.2⟩

end Invariant

/-- The Prepared message with the acks of nodes 0 to 3. -/
def samplePrepared : MessageWithSig ℤ ℤ where
  source := 1
  msgType := .prepared
  bridgeEventHash := "0x51ab"
  signature := (sampleAck 0).signature + (sampleAck 1).signature
    + (sampleAck 2).signature + (sampleAck 3).signature
  mask := 15
  publicKey := 2 + 3 + 5 + 7

/-- The message comes in time, and then once more. -/
theorem result_finds_receiver_sample :
    ∃ tr p, Run (Guarded (Fires (Protocol.react intBls))
        (fun p l => inTime p l.1 = true))
        (startProtocolByOracleRequest sampleSession) tr p ∧
      (p.starter = .agreed ∧ p.handlers = [.returned, .returned]) ∧
      agreements tr ≤ 1 ∧ ¬ Stranded p := by
  obtain ⟨tr, p, hrun, hp⟩ := exists_run
    (fun _ (p : Protocol ℤ ℤ ℤ) =>
      p.starter = .agreed ∧ p.handlers = [.returned, .returned])
    (show (execute (restrict inTime (Protocol.react intBls))
      (startProtocolByOracleRequest sampleSession)
      [.selects, .listens, .arrives samplePrepared, .listens,
        .arrives samplePrepared, .goes 0, .goes 1, .goes 0, .goes 0, .agrees 0,
        .goes 0, .goes 0, .goes 1, .goes 1, .goes 1]).any _ = true
      by decide +kernel)
  have hguarded := restrict_run hrun
  exact ⟨tr, p, hguarded, hp,
    (result_finds_receiver intBls sampleSession).1 tr p hguarded.of_guarded,
    ((result_finds_receiver intBls sampleSession).2 tr p hguarded).1⟩

/-- **THE RECEIVER IS GONE**: the select is left before the message has come; or
    its handler is at the send before the select is reached, and the deadline
    comes first. -/
theorem receiver_gone :
    (∃ tr p tr' p', Run (Fires (Protocol.react intBls))
        (startProtocolByOracleRequest sampleSession) tr p ∧
      (p.starter = .gaveUp ∧ p.handlers = []) ∧
      Run (Fires (Protocol.react intBls)) p tr' p' ∧ Stranded p') ∧
    ∃ tr p tr' p', Run (Fires (Protocol.react intBls))
        (startProtocolByOracleRequest sampleSession) tr p ∧
      (p.starter = .starting ∧ p.handlers = [.sending]) ∧
      Run (Fires (Protocol.react intBls)) p tr' p' ∧ Stranded p' := by
  constructor
  -- first the oracle gives up, then the Prepared message arrives
  · obtain ⟨tr, p, tr', p', hrun, hp, hrun', hp'⟩ := exists_run_through
      (fun _ (p : Protocol ℤ ℤ ℤ) => p.starter = .gaveUp ∧ p.handlers = [])
      (fun _ (p : Protocol ℤ ℤ ℤ) =>
        p.starter.hasLeft = true ∧ Handler.sending ∈ p.handlers)
      (show (execute (Protocol.react intBls)
        (startProtocolByOracleRequest sampleSession)
        [.selects, .listens, .timeout, .givesUp]).any (fun r => decide (_ ∧
          (execute (Protocol.react intBls) r.2 [.arrives samplePrepared,
            .goes 0, .goes 0, .goes 0]).any _ = true)) = true by decide +kernel)
    exact ⟨tr, p, tr', p', hrun, hp, hrun', stranded_iff.mpr hp'⟩
  -- first the message arrives, then the timeout ends the oracle's wait
  · obtain ⟨tr, p, tr', p', hrun, hp, hrun', hp'⟩ := exists_run_through
      (fun _ (p : Protocol ℤ ℤ ℤ) =>
        p.starter = .starting ∧ p.handlers = [.sending])
      (fun _ (p : Protocol ℤ ℤ ℤ) =>
        p.starter.hasLeft = true ∧ Handler.sending ∈ p.handlers)
      (show (execute (Protocol.react intBls)
        (startProtocolByOracleRequest sampleSession)
        [.listens, .arrives samplePrepared, .goes 0, .goes 0, .goes 0]).any
          (fun r => decide (_ ∧ (execute (Protocol.react intBls) r.2
            [.timeout, .selects, .givesUp]).any _ = true)) = true
        by decide +kernel)
    exact ⟨tr, p, tr', p', hrun, hp, hrun', stranded_iff.mpr hp'⟩

end RelayerHandover
