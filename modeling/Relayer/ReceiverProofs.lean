import Relayer.HandoverProofs

/-! # The wait group of a request

    `HandleOracleRequest` starts `StartProtocolByOracleRequest` with a wait
    group, waits for it, and leaves its topic when it returns.  All goroutines
    of the request are counted in the wait group: `StartProtocolByOracleRequest`
    itself, the `WaitForProtocolMsg` it has started, and the handlers of
    messages.  A node that is not the leader calls `ReceiveAndSaveBlock` of
    `node/bridge/distribute.go` when the consensus is reached, after one more
    `wg.Add(1)`.

    * `Request.react` is one step of one of the goroutines;
    * `running_react`: the handover of the consensus result is balanced, with
      one `Done` for each `Add`;
    * `Accounted`: the counter is the number of running goroutines, and one
      more once `ReceiveAndSaveBlock` is called;
    * `Fruitless`: no result can come of the messages that have arrived;
    * **`request_balanced_iff`**: so every `Add` is matched exactly when
      `ReceiveAndSaveBlock` is not called; once called, it loops for ever and the
      request never returns; where no result can come, the request returns;
    * **`receiver_never_ends`**: a receiver that gets no message at all, with
      its context done. -/

namespace RelayerReceiver

open RelayerAccumulator RelayerBls RelayerHandover RelayerMessage RelayerSession
open Routines Transition

variable {PK SG SK B L : Type}

/-! ## The wait group in the handover -/

/-- Has the handler returned, and called its deferred `wg.Done()`? -/
def hasReturned : Handler PK SG → Bool
  | .leaked | .returned => true
  | _ => false

/-- What a step of the handover that leads to `p` adds to the counter. -/
def wgDelta (p : Protocol PK SG SK) : RelayerHandover.Event PK SG → ℤ
  | .arrives _ => 1
  | .goes i => if (p.handlers[i]?).any hasReturned then -1 else 0
  | .listens | .receivesNil => if p.listener = .ended then -1 else 0
  | _ => 0

/-- The goroutines of the handover that have not returned: the loop of
    `WaitForProtocolMsg` and its handlers. -/
def handlersRunning (p : Protocol PK SG SK) : ℤ :=
  (if p.listener = .ended then 0 else 1) +
    p.handlers.countP fun h => !hasReturned h

section Handover

variable {bls : Bls PK SG SK} {p p' : Protocol PK SG SK} {i : ℕ}
  {h : Handler PK SG} {v : Option (Verdict PK SG)}

variable [Add PK] [Add SG]

/-- A handler that makes a step has not returned, and moves only itself. -/
theorem goes_frame (hgoes : p.goes bls i h = some (p', v)) :
    hasReturned h = false ∧ p'.listener = p.listener ∧
      ∃ h', p'.handlers = p.handlers.set i h' := by
  cases h with
  | dispatching msg =>
      obtain ⟨h', v', heq, -⟩ := dispatch_cases bls p i msg
      rw [Protocol.goes, heq] at hgoes
      obtain ⟨rfl, -⟩ := Prod.mk.inj (Option.some.inj hgoes)
      exact ⟨rfl, rfl, h', rfl⟩
  | preparing msg =>
      rw [Protocol.goes] at hgoes
      split at hgoes
      · obtain ⟨rfl, -⟩ := Prod.mk.inj (Option.some.inj hgoes)
        exact ⟨rfl, rfl, _, rfl⟩
      · cases hgoes
  | counting msg =>
      rw [Protocol.goes, Protocol.count] at hgoes
      dsimp only at hgoes
      split at hgoes
      · cases hgoes
      · obtain ⟨rfl, -⟩ := Prod.mk.inj (Option.some.inj hgoes)
        exact ⟨rfl, rfl, _, rfl⟩
  | verified =>
      rw [Protocol.goes] at hgoes
      split at hgoes
      · obtain ⟨rfl, -⟩ := Prod.mk.inj (Option.some.inj hgoes)
        exact ⟨rfl, rfl, _, rfl⟩
      · cases hgoes
  | checking =>
      rw [Protocol.goes] at hgoes
      split at hgoes
      · obtain ⟨rfl, -⟩ := Prod.mk.inj (Option.some.inj hgoes)
        exact ⟨rfl, rfl, _, rfl⟩
      · obtain ⟨rfl, -⟩ := Prod.mk.inj (Option.some.inj hgoes)
        exact ⟨rfl, rfl, _, rfl⟩
  | cancelling =>
      obtain ⟨rfl, -⟩ := Prod.mk.inj (Option.some.inj hgoes)
      exact ⟨rfl, rfl, _, rfl⟩
  | unlocking =>
      obtain ⟨rfl, -⟩ := Prod.mk.inj (Option.some.inj hgoes)
      exact ⟨rfl, rfl, _, rfl⟩
  | sending => cases hgoes
  | leaked => cases hgoes
  | returned => cases hgoes

/-- A step of a handler changes the counter by what it runs less. -/
theorem running_goes (hi : p.handlers[i]? = some h)
    (hgoes : p.goes bls i h = some (p', v)) :
    handlersRunning p' = handlersRunning p + wgDelta p' (.goes i) := by
  obtain ⟨hended, hlistener, h', hhandlers⟩ := goes_frame hgoes
  have hcount := countP_set_add (fun h => !hasReturned h) h' hi
  have hnew : (p.handlers.set i h')[i]? = some h' :=
    List.getElem?_set_self (List.getElem?_eq_some_iff.mp hi).1
  rw [hended] at hcount
  rw [handlersRunning, handlersRunning, wgDelta, hlistener, hhandlers, hnew]
  cases hh : hasReturned h' with
  | true =>
      simp [hh] at hcount ⊢
      omega
  | false =>
      simp [hh] at hcount ⊢
      omega

/-- **THE HANDOVER IS BALANCED**: what a step adds to the counter it adds to
    the number of running goroutines. -/
theorem running_react {e : RelayerHandover.Event PK SG}
    (hreact : p.react bls e = some (p', v)) :
    handlersRunning p' = handlersRunning p + wgDelta p' e := by
  cases e with
  | timeout =>
      obtain ⟨rfl, -⟩ := Prod.mk.inj (Option.some.inj hreact)
      exact (add_zero _).symm
  | sessionEnds =>
      obtain ⟨rfl, -⟩ := Prod.mk.inj (Option.some.inj hreact)
      exact (add_zero _).symm
  | selects =>
      rw [Protocol.react] at hreact
      split at hreact
      · obtain ⟨rfl, -⟩ := Prod.mk.inj (Option.some.inj hreact)
        exact (add_zero _).symm
      · cases hreact
  | givesUp =>
      rw [Protocol.react] at hreact
      split at hreact
      · split at hreact
        · obtain ⟨rfl, -⟩ := Prod.mk.inj (Option.some.inj hreact)
          exact (add_zero _).symm
        · cases hreact
      · cases hreact
  | agrees i =>
      rw [Protocol.react] at hreact
      split at hreact
      next _ hi =>
        obtain ⟨rfl, -⟩ := Prod.mk.inj (Option.some.inj hreact)
        have hcount := countP_set_add (fun h => !hasReturned h)
          (Handler.cancelling : Handler PK SG) hi
        have hsame : (p.handlers.set i Handler.cancelling).countP
            (fun h => !hasReturned h) =
              p.handlers.countP fun h => !hasReturned h := by
          simpa [hasReturned] using hcount
        refine Eq.trans ?_ (add_zero _).symm
        exact congrArg (_ + ·) (congrArg Nat.cast hsame)
      · cases hreact
  | listens =>
      rw [Protocol.react] at hreact
      split at hreact
      next hchecking =>
        split at hreact
        · obtain ⟨rfl, -⟩ := Prod.mk.inj (Option.some.inj hreact)
          simp [handlersRunning, wgDelta, Protocol.endLoop, hchecking]
        · obtain ⟨rfl, -⟩ := Prod.mk.inj (Option.some.inj hreact)
          simp [handlersRunning, wgDelta, hchecking]
      · cases hreact
  | arrives msg =>
      rw [Protocol.react] at hreact
      split at hreact
      next hreceiving =>
        obtain ⟨rfl, -⟩ := Prod.mk.inj (Option.some.inj hreact)
        simp [handlersRunning, wgDelta, Protocol.spawn, hasReturned, hreceiving,
          add_assoc]
      · cases hreact
  | receivesNil =>
      rw [Protocol.react] at hreact
      split at hreact
      next hreceiving =>
        obtain ⟨rfl, -⟩ := Prod.mk.inj (Option.some.inj hreact)
        simp [handlersRunning, wgDelta, Protocol.endLoop, hreceiving]
      · cases hreact
  | goes i =>
      rw [Protocol.react] at hreact
      split at hreact
      next h hi => exact running_goes hi hreact
      · cases hreact

end Handover

/-! ## The goroutines of a request -/

/-- `BlockMessage`. -/
structure BlockMessage where
  source : ℤ
  msgType : ℤ
  blockBytes : List UInt8

/-- `DistributeBlockPhase`. -/
def distributeBlockPhase : ℤ := 2

/-- What the handler of a block message calls: `json.Unmarshal`,
    `types.BlockFromRawBytes`, and `Ledger.ExecAndSaveBlock` with the ledger it
    leaves and whether it returns an error. -/
structure Chain (B L : Type) where
  unmarshal : List UInt8 → Option BlockMessage
  blockFromRawBytes : List UInt8 → Option B
  execAndSaveBlock : L → B → L × Bool

/-- Where the handler of a block message is. -/
inductive BlockHandler (B : Type) where
  | decoding (msgBytes : List UInt8)
  /-- At `ExecAndSaveBlock`. -/
  | executing (block : B)
  | returned
  deriving DecidableEq

def BlockHandler.hasReturned : BlockHandler B → Bool
  | .returned => true
  | _ => false

/-- Where the loop of `ReceiveAndSaveBlock` is. -/
inductive Place where
  /-- At its select. -/
  | testing
  /-- In `Receive`. -/
  | receiving
  deriving DecidableEq

/-- Where `StartProtocolByOracleRequest` is. -/
inductive Stage where
  /-- Its select is not left, or has just been left. -/
  | inSelect
  /-- The branch of the leader. -/
  | leading
  /-- In `ReceiveAndSaveBlock`. -/
  | receiver (place : Place)
  | returned
  deriving DecidableEq

def Stage.inReceiver : Stage → Bool
  | .receiver _ => true
  | _ => false

/-- A request that `HandleOracleRequest` handles, from the start of
    `WaitForProtocolMsg` on.  `leads` says whether the node is the leader of
    the session, `wg` is the counter of the wait group, and `left` says that
    `HandleOracleRequest` has returned and left its topic. -/
structure Request (PK SG SK B L : Type) where
  leads : Bool
  protocol : Protocol PK SG SK
  stage : Stage
  blocks : List (BlockHandler B)
  ledger : L
  wg : ℤ
  left : Bool

/-- `HandleOracleRequest` has counted `StartProtocolByOracleRequest`, and that
    has counted `WaitForProtocolMsg`. -/
def handleOracleRequest (leads : Bool) (s : Session PK SG SK) (ledger : L) :
    Request PK SG SK B L :=
  ⟨leads, startProtocolByOracleRequest s, .inSelect, [], ledger, 2, false⟩

/-- What can happen. -/
inductive Event (PK SG : Type) where
  /-- A step of the handover. -/
  | protocol (e : RelayerHandover.Event PK SG)
  /-- `StartProtocolByOracleRequest` goes on after its select. -/
  | branches
  /-- The branch of the leader ends. -/
  | leaderEnds
  /-- `ReceiveAndSaveBlock` comes to its select. -/
  | tests
  /-- `Receive` returns. -/
  | receives (rcvdMsg : Option (List UInt8))
  /-- Block handler `i` takes its next step. -/
  | handles (i : ℕ)
  /-- `wg.Wait()` returns. -/
  | leaves

/-- What is logged. -/
inductive Report (PK SG : Type) where
  | verdict (v : Option (Verdict PK SG))
  | quiet
  /-- "ReceiveBlock receive return nil". -/
  | receivedNil
  /-- "ReceiveBlock Unable to decode received message, skipped". -/
  | notDecoded
  /-- "BlockFromRawBytes ERROR". -/
  | badBlock
  /-- "ExecAndSaveBlock ERROR". -/
  | notSaved
  deriving DecidableEq

namespace Request

/-- `StartProtocolByOracleRequest` returns, with its deferred `wg.Done()`. -/
def returns (r : Request PK SG SK B L) : Request PK SG SK B L :=
  { r with stage := .returned, wg := r.wg - 1 }

/-- Block handler `i` comes to the place `h`, with its deferred `wg.Done()` if
    that is its end. -/
def moveBlock (r : Request PK SG SK B L) (i : ℕ) (h : BlockHandler B) :
    Request PK SG SK B L :=
  { r with
    blocks := r.blocks.set i h
    wg := r.wg + if h.hasReturned then -1 else 0 }

/-- The next step of block handler `i`. -/
def handle (chain : Chain B L) (r : Request PK SG SK B L) (i : ℕ) :
    BlockHandler B → Option (Request PK SG SK B L × Report PK SG)
  | .decoding msgBytes =>
      match chain.unmarshal msgBytes with
      | none => some (r.moveBlock i .returned, .notDecoded)
      | some msg =>
          if msg.msgType = distributeBlockPhase then
            match chain.blockFromRawBytes msg.blockBytes with
            | none => some (r.moveBlock i .returned, .badBlock)
            | some block => some (r.moveBlock i (.executing block), .quiet)
          else some (r.moveBlock i .returned, .quiet)
  | .executing block =>
      let saved := chain.execAndSaveBlock r.ledger block
      some ({ r with ledger := saved.1 }.moveBlock i .returned,
        if saved.2 then .notSaved else .quiet)
  | .returned => none

variable [Add PK] [Add SG]

/-- One step; `none` where the event can not happen. -/
def react (chain : Chain B L) (bls : Bls PK SG SK) (r : Request PK SG SK B L) :
    Event PK SG → Option (Request PK SG SK B L × Report PK SG)
  | .protocol e =>
      (r.protocol.react bls e).map fun step =>
        ({ r with protocol := step.1, wg := r.wg + wgDelta step.1 e },
          .verdict step.2)
  | .branches =>
      match r.stage, r.protocol.starter with
      | .inSelect, .agreed =>
          if r.leads then some ({ r with stage := .leading }, .quiet)
          else
            some ({ r with stage := .receiver .testing, wg := r.wg + 1 }, .quiet)
      | .inSelect, .gaveUp => some (r.returns, .quiet)
      | _, _ => none
  | .leaderEnds =>
      match r.stage with
      | .leading => some (r.returns, .quiet)
      | _ => none
  | .tests =>
      match r.stage with
      | .receiver .testing =>
          -- `break` leaves the select and not the loop, here and at nil
          if r.protocol.sessionDone then some (r, .quiet)
          else some ({ r with stage := .receiver .receiving }, .quiet)
      | _ => none
  | .receives rcvdMsg =>
      match r.stage with
      | .receiver .receiving =>
          match rcvdMsg with
          | none => some ({ r with stage := .receiver .testing }, .receivedNil)
          | some msgBytes =>
              some ({ r with
                stage := .receiver .testing
                blocks := r.blocks ++ [.decoding msgBytes]
                wg := r.wg + 1 }, .quiet)
      | _ => none
  | .handles i =>
      match r.blocks[i]? with
      | some h => r.handle chain i h
      | none => none
  | .leaves =>
      if r.wg = 0 ∧ r.left = false then some ({ r with left := true }, .quiet)
      else none

end Request

/-! ## What a step can do -/

section Steps

variable [Add PK] [Add SG] {chain : Chain B L} {bls : Bls PK SG SK}
  {r r' : Request PK SG SK B L} {e : Event PK SG} {out : Report PK SG} {i : ℕ}
  {h : BlockHandler B}

/-- The steps of a request. -/
inductive Moves (bls : Bls PK SG SK) (r r' : Request PK SG SK B L) : Prop where
  | protocol (e : RelayerHandover.Event PK SG) (p : Protocol PK SG SK)
      (v : Option (Verdict PK SG)) (hp : r.protocol.react bls e = some (p, v))
      (heq : r' = { r with protocol := p, wg := r.wg + wgDelta p e })
  | called (hstage : r.stage = .inSelect) (hleads : r.leads = false)
      (heq : r' = { r with stage := .receiver .testing, wg := r.wg + 1 })
  | leads (hstage : r.stage = .inSelect) (heq : r' = { r with stage := .leading })
  | returns (hstage : r.stage = .inSelect ∨ r.stage = .leading)
      (heq : r' = r.returns)
  | loops (place place' : Place) (hstage : r.stage = .receiver place)
      (heq : r' = { r with stage := .receiver place' })
  | obtains (place : Place) (msgBytes : List UInt8)
      (hstage : r.stage = .receiver place)
      (heq : r' = { r with
        stage := .receiver .testing
        blocks := r.blocks ++ [.decoding msgBytes]
        wg := r.wg + 1 })
  | handles (i : ℕ) (h h' : BlockHandler B) (ledger : L)
      (hi : r.blocks[i]? = some h) (hne : h.hasReturned = false)
      (heq : r' = { r with ledger := ledger }.moveBlock i h')
  | leaves (hwg : r.wg = 0) (heq : r' = { r with left := true })

omit [Add PK] [Add SG] in
/-- A block handler that has not returned makes a step, whatever its message
    is, and moves only itself: to its end, or to `ExecAndSaveBlock` once. -/
theorem handle_cases (chain : Chain B L) (r : Request PK SG SK B L) (i : ℕ)
    (hne : h.hasReturned = false) :
    ∃ h' ledger out, r.handle chain i h =
        some ({ r with ledger := ledger }.moveBlock i h', out) ∧
      (h' = .returned ∨
        (∃ msgBytes, h = .decoding msgBytes) ∧ ∃ block, h' = .executing block) := by
  cases h with
  | decoding msgBytes =>
      rw [Request.handle]
      split
      · exact ⟨_, r.ledger, _, rfl, .inl rfl⟩
      · split
        · split
          · exact ⟨_, r.ledger, _, rfl, .inl rfl⟩
          · exact ⟨_, r.ledger, _, rfl, .inr ⟨⟨_, rfl⟩, _, rfl⟩⟩
        · exact ⟨_, r.ledger, _, rfl, .inl rfl⟩
  | executing block => exact ⟨_, _, _, rfl, .inl rfl⟩
  | returned => cases hne

omit [Add PK] [Add SG] in
/-- The state that a step leads to. -/
theorem state_eq {next : Request PK SG SK B L} {logged : Report PK SG}
    (hstep : some (next, logged) = some (r', out)) : r' = next :=
  (congrArg Prod.fst (Option.some.inj hstep)).symm

/-- **EVERY STEP IS ONE OF THESE.** -/
theorem react_moves (hreact : r.react chain bls e = some (r', out)) :
    Moves bls r r' := by
  cases e with
  | protocol e =>
      obtain ⟨⟨p, v⟩, hp, heq⟩ := Option.map_eq_some_iff.mp hreact
      exact .protocol e p v hp (congrArg Prod.fst heq).symm
  | branches =>
      rw [Request.react] at hreact
      split at hreact
      next hstage hstarter =>
        split at hreact
        · exact .leads hstage (state_eq hreact)
        next hleads =>
          exact .called hstage (Bool.not_eq_true _ ▸ hleads) (state_eq hreact)
      next hstage hstarter =>
        exact .returns (.inl hstage) (state_eq hreact)
      · cases hreact
  | leaderEnds =>
      rw [Request.react] at hreact
      split at hreact
      next hstage =>
        exact .returns (.inr hstage) (state_eq hreact)
      · cases hreact
  | tests =>
      rw [Request.react] at hreact
      split at hreact
      next hstage =>
        split at hreact
        · refine .loops _ .testing hstage ?_
          rw [← hstage]
          exact state_eq hreact
        · exact .loops _ _ hstage (state_eq hreact)
      · cases hreact
  | receives rcvdMsg =>
      cases rcvdMsg with
      | none =>
          rw [Request.react] at hreact
          split at hreact
          next hstage =>
            exact .loops _ _ hstage (state_eq hreact)
          · cases hreact
      | some msgBytes =>
          rw [Request.react] at hreact
          split at hreact
          next hstage =>
            exact .obtains _ msgBytes hstage (state_eq hreact)
          · cases hreact
  | handles i =>
      rw [Request.react] at hreact
      split at hreact
      next h hi =>
        cases hret : h.hasReturned with
        | true =>
            cases h with
            | returned => cases hreact
            | decoding _ => cases hret
            | executing _ => cases hret
        | false =>
            obtain ⟨h', ledger, out', hstep, -⟩ := handle_cases chain r i hret
            rw [hstep] at hreact
            exact .handles i h h' ledger hi hret (state_eq hreact)
      · cases hreact
  | leaves =>
      rw [Request.react] at hreact
      split at hreact
      next hwg =>
        exact .leaves hwg.1 (state_eq hreact)
      · cases hreact

end Steps

/-! ## The counter -/

/-- The goroutines of a request that have not returned. -/
def Request.running (r : Request PK SG SK B L) : ℤ :=
  (if r.stage = .returned then 0 else 1) + handlersRunning r.protocol +
    r.blocks.countP fun h => !h.hasReturned

/-- The counter is the number of running goroutines, and one more once
    `ReceiveAndSaveBlock` is called; it is not called by the leader, nor after
    `HandleOracleRequest` has returned. -/
structure Accounted (leads : Bool) (r : Request PK SG SK B L) : Prop where
  wg : r.wg = r.running + if r.stage.inReceiver then 1 else 0
  same : r.leads = leads
  leader : leads = true → r.stage.inReceiver = false
  left : r.left = true → r.stage = .returned

section Counter

variable {leads : Bool} {bls : Bls PK SG SK} {r r' : Request PK SG SK B L}

theorem handlersRunning_nonneg (p : Protocol PK SG SK) :
    0 ≤ handlersRunning p := by
  unfold handlersRunning
  split <;> omega

theorem accounted_start (leads : Bool) (s : Session PK SG SK) (ledger : L) :
    Accounted leads (handleOracleRequest leads s ledger : Request PK SG SK B L) :=
  ⟨rfl, rfl, fun _ => rfl, fun hleft => by cases hleft⟩

/-- Until `StartProtocolByOracleRequest` has returned, `HandleOracleRequest` has
    not. -/
theorem Accounted.not_left (hr : Accounted leads r)
    (hstage : r.stage ≠ .returned) : r.left ≠ true :=
  fun hleft => hstage (hr.left hleft)

/-- The leader is not in `ReceiveAndSaveBlock`. -/
theorem Accounted.not_leader (hr : Accounted leads r)
    (hrec : r.stage.inReceiver = true) : leads ≠ true :=
  fun hleads => Bool.false_ne_true ((hr.leader hleads).symm.trans hrec)

variable [Add PK] [Add SG]

/-- **ONE STEP** keeps the account. -/
theorem Moves.accounted (hm : Moves bls r r') (hr : Accounted leads r) :
    Accounted leads r' := by
  have hwg := hr.wg
  cases hm with
  | protocol e p v hp heq =>
      subst heq
      refine ⟨?_, hr.same, hr.leader, hr.left⟩
      have hrun := running_react hp
      simp only [Request.running] at hwg ⊢
      omega
  -- the `wg.Add(1)` before `ReceiveAndSaveBlock`, which has no end
  | called hstage hleads heq =>
      subst heq
      have hleft := hr.not_left (by simp [hstage])
      refine ⟨?_, hr.same, ?_, fun h => absurd h hleft⟩
      · simp [Request.running, hstage, Stage.inReceiver] at hwg ⊢
        omega
      · intro htrue
        rw [hr.same, htrue] at hleads
        cases hleads
  | leads hstage heq =>
      subst heq
      have hleft := hr.not_left (by simp [hstage])
      refine ⟨?_, hr.same, fun _ => rfl, fun h => absurd h hleft⟩
      simpa [Request.running, hstage, Stage.inReceiver] using hwg
  | returns hstage heq =>
      subst heq
      refine ⟨?_, hr.same, fun _ => rfl, fun _ => rfl⟩
      rcases hstage with hstage | hstage
      · simp [Request.running, Request.returns, hstage, Stage.inReceiver] at hwg ⊢
        omega
      · simp [Request.running, Request.returns, hstage, Stage.inReceiver] at hwg ⊢
        omega
  | loops place place' hstage heq =>
      subst heq
      have hleft := hr.not_left (by simp [hstage])
      have hleads := hr.not_leader (by rw [hstage]; rfl)
      refine ⟨?_, hr.same, fun h => absurd h hleads, fun h => absurd h hleft⟩
      simpa [Request.running, hstage, Stage.inReceiver] using hwg
  | obtains place msgBytes hstage heq =>
      subst heq
      have hleft := hr.not_left (by simp [hstage])
      have hleads := hr.not_leader (by rw [hstage]; rfl)
      refine ⟨?_, hr.same, fun h => absurd h hleads, fun h => absurd h hleft⟩
      simp [Request.running, hstage, Stage.inReceiver,
        BlockHandler.hasReturned] at hwg ⊢
      omega
  -- the handler's `Done`, if it has returned
  | handles i h h' ledger hi hne heq =>
      subst heq
      refine ⟨?_, hr.same, hr.leader, hr.left⟩
      have hcount := countP_set_add (fun h => !h.hasReturned) h' hi
      rw [Request.running] at hwg
      show r.wg + (if h'.hasReturned then -1 else 0) =
        (if r.stage = .returned then 0 else 1) + handlersRunning r.protocol +
          (r.blocks.set i h').countP (fun h => !h.hasReturned) +
          if r.stage.inReceiver then 1 else 0
      cases hret : h'.hasReturned with
      | true =>
          simp [hne, hret] at hcount ⊢
          omega
      | false =>
          simp [hne, hret] at hcount ⊢
          omega
  | leaves hzero heq =>
      subst heq
      refine ⟨hwg, hr.same, hr.leader, fun _ => ?_⟩
      have hpos := handlersRunning_nonneg r.protocol
      by_contra hstage
      rw [Request.running, if_neg hstage] at hwg
      split at hwg <;> omega

/-- `ReceiveAndSaveBlock` does not return. -/
theorem Moves.inReceiver (hm : Moves bls r r')
    (hr : r.stage.inReceiver = true) : r'.stage.inReceiver = true := by
  cases hm with
  | protocol e p v hp heq => exact heq ▸ hr
  | called hstage hleads heq => exact heq ▸ rfl
  | leads hstage heq =>
      rw [hstage] at hr
      cases hr
  | returns hstage heq =>
      rcases hstage with hstage | hstage
      · rw [hstage] at hr
        cases hr
      · rw [hstage] at hr
        cases hr
  | loops place place' hstage heq => exact heq ▸ rfl
  | obtains place msgBytes hstage heq => exact heq ▸ rfl
  | handles i h h' ledger hi hne heq => exact heq ▸ hr
  | leaves hwg heq => exact heq ▸ hr

/-- What holds along a run. -/
theorem accounted_run {chain : Chain B L}
    {tr : List (Event PK SG × Report PK SG)} (hr : Accounted leads r)
    (hrun : Run (Fires (Request.react chain bls)) r tr r') :
    Accounted leads r' :=
  hrun.invariant hr fun _ _ _ ha hstep => (react_moves hstep).accounted ha

/-- **ONCE CALLED, THE RECEIVER STAYS** in its loop, and `HandleOracleRequest`
    does not return. -/
theorem inReceiver_run {chain : Chain B L}
    {tr : List (Event PK SG × Report PK SG)} (hr : Accounted leads r)
    (hrec : r.stage.inReceiver = true)
    (hrun : Run (Fires (Request.react chain bls)) r tr r') :
    r'.stage.inReceiver = true ∧ 2 ≤ r'.wg ∧ r'.left = false := by
  have hrec' : r'.stage.inReceiver = true :=
    hrun.invariant hrec fun _ _ _ ha hstep => (react_moves hstep).inReceiver ha
  have hr' := accounted_run hr hrun
  have hstage : r'.stage ≠ .returned := by
    intro hreturned
    rw [hreturned] at hrec'
    cases hrec'
  refine ⟨hrec', ?_, ?_⟩
  · have hpos := handlersRunning_nonneg r'.protocol
    have hwg := hr'.wg
    rw [Request.running, if_neg hstage, if_pos hrec'] at hwg
    omega
  · exact Bool.eq_false_iff.mpr (hr'.not_left hstage)

/-- A block handler that has not returned makes a step. -/
theorem fires_handles (chain : Chain B L) (bls : Bls PK SG SK) {i : ℕ}
    {h : BlockHandler B} (hi : r.blocks[i]? = some h)
    (hne : h.hasReturned = false) :
    ∃ r' h' out, Fires (Request.react chain bls) r (.handles i, out) r' ∧
      r'.blocks[i]? = some h' ∧ (h' = .returned ∨
        (∃ msgBytes, h = .decoding msgBytes) ∧ ∃ block, h' = .executing block) := by
  obtain ⟨h', ledger, out, hhandle, hcase⟩ := handle_cases chain r i hne
  refine ⟨{ r with ledger := ledger }.moveBlock i h', h', out, ?_, ?_, hcase⟩
  · rw [Fires, Request.react, hi]
    exact hhandle
  · exact List.getElem?_set_self (List.getElem?_eq_some_iff.mp hi).1

/-- The handler of a block message returns after two steps of its own. -/
theorem block_returns (chain : Chain B L) (bls : Bls PK SG SK)
    (r : Request PK SG SK B L) {i : ℕ} (hi : i < r.blocks.length) :
    ∃ tr r', Run (Fires (Request.react chain bls)) r tr r' ∧
      r'.blocks[i]? = some .returned := by
  obtain ⟨h, hh⟩ : ∃ h, r.blocks[i]? = some h :=
    ⟨_, List.getElem?_eq_getElem hi⟩
  cases hret : h.hasReturned with
  | true =>
      cases h with
      | returned => exact ⟨[], r, .refl, hh⟩
      | decoding _ => cases hret
      | executing _ => cases hret
  | false =>
      obtain ⟨r₁, h₁, out₁, hfirst, hh₁, rfl | ⟨-, block, rfl⟩⟩ :=
        fires_handles chain bls hh hret
      · exact ⟨_, r₁, .single hfirst, hh₁⟩
      · obtain ⟨r₂, h₂, out₂, hsecond, hh₂, rfl | ⟨⟨_, hcon⟩, -⟩⟩ :=
          fires_handles chain bls hh₁ rfl
        · exact ⟨_, r₂, (Run.single hfirst).tail hsecond, hh₂⟩
        · cases hcon

end Counter

/-! ## A request without a result -/

/-- Is the Prepare signed by its source? -/
def signed (bls : Bls PK SG SK) (s : Session PK SG SK)
    (msg : MessageWithSig PK SG) : Bool :=
  match s.verifyAckSignature bls msg with
  | .ok (.ok ()) => true
  | _ => false

/-- Does the message settle nothing by itself?  A Prepare is to be signed by
    its source, and a Prepared to be refused. -/
def settlesNothing (bls : Bls PK SG SK) (s : Session PK SG SK)
    (msg : MessageWithSig PK SG) : Bool :=
  msg.bridgeEventHash ≠ s.topic ||
    match msg.msgType with
    | .prepare => signed bls s msg
    | .prepared => !(s.verifyThresholdWitnesses bls msg).isOk
    | _ => true

/-- The message that arrives, if one does. -/
def Event.arrived : Event PK SG → Option (MessageWithSig PK SG)
  | .protocol (.arrives msg) => some msg
  | _ => none

/-- The acks among the messages that have arrived. -/
def acksArrived (tr : List (Event PK SG × Report PK SG)) : ℕ :=
  tr.countP fun l => l.1.arrived.any fun msg => msg.msgType = .prepare

/-- No result can come of the messages that have arrived: none of them settles
    anything by itself, and the acks are too few. -/
def inconclusive (bls : Bls PK SG SK) (s : Session PK SG SK)
    (tr : List (Event PK SG × Report PK SG)) : Bool :=
  (tr.all fun l => l.1.arrived.all (settlesNothing bls s)) &&
    decide (s.acks + acksArrived tr < s.thresholdAck)

/-- The steps of the goroutines: no context ends, and no message arrives.
    `ReceiveFrom` may return nil, as it does once its context is done or the
    subscription has ended. -/
def Event.own : Event PK SG → Bool
  | .protocol .timeout | .protocol .sessionEnds | .protocol (.arrives _) => false
  | _ => true

/-- A handler that will send no result and keep no mutex. -/
def isQuiet (bls : Bls PK SG SK) (s : Session PK SG SK) : Handler PK SG → Bool
  | .dispatching msg => settlesNothing bls s msg
  | .preparing msg | .counting msg => signed bls s msg
  | .returned => true
  | _ => false

/-- Can the handler still count an ack? -/
def mayCount : Handler PK SG → Bool
  | .dispatching msg => msg.msgType = .prepare
  | .preparing _ | .counting _ => true
  | _ => false

/-- The steps that are left of a quiet handler. -/
def stepsLeft : Handler PK SG → ℕ
  | .dispatching _ => 3
  | .preparing _ => 2
  | .counting _ => 1
  | _ => 0

/-- The session `s`, with other acks. -/
def Kept (s σ : Session PK SG SK) : Prop :=
  ∃ mask acks signature key, σ =
    { s with
      sigMask := mask
      acks := acks
      partSignature := signature
      partPublicKey := key }

/-- The handover while no result can come: `n` is the number of acks that the
    session will have at most. -/
structure Unsettled (bls : Bls PK SG SK) (s : Session PK SG SK) (n : ℤ)
    (p : Protocol PK SG SK) : Prop where
  kept : Kept s p.session
  acks : p.session.acks + p.handlers.countP mayCount ≤ n
  quiet : ∀ h ∈ p.handlers, isQuiet bls s h = true
  notAgreed : p.starter ≠ .agreed

section Unsettled

variable {bls : Bls PK SG SK} {s σ : Session PK SG SK} {n : ℤ}
  {p p' : Protocol PK SG SK} {i : ℕ} {h : Handler PK SG}
  {msg : MessageWithSig PK SG} {v : Option (Verdict PK SG)}

theorem Kept.signed (hk : Kept s σ) : signed bls σ msg = signed bls s msg := by
  obtain ⟨mask, acks, signature, key, rfl⟩ := hk
  rfl

theorem Kept.thresholdAck (hk : Kept s σ) : σ.thresholdAck = s.thresholdAck := by
  obtain ⟨mask, acks, signature, key, rfl⟩ := hk
  rfl

theorem Kept.verifyThresholdWitnesses (hk : Kept s σ) :
    σ.verifyThresholdWitnesses bls msg = s.verifyThresholdWitnesses bls msg := by
  obtain ⟨mask, acks, signature, key, rfl⟩ := hk
  rfl

theorem Kept.topic (hk : Kept s σ) : σ.topic = s.topic := by
  obtain ⟨mask, acks, signature, key, rfl⟩ := hk
  rfl

theorem Kept.trans {τ : Session PK SG SK} (hk : Kept s σ) (hk' : Kept σ τ) :
    Kept s τ := by
  obtain ⟨mask, acks, signature, key, rfl⟩ := hk
  exact hk'

/-- The test is that of the ack's signature. -/
theorem signed_iff : signed bls s msg = true ↔
    s.verifyAckSignature bls msg = .ok (.ok ()) := by
  rw [RelayerReceiver.signed]
  split
  next heq => exact ⟨fun _ => heq, fun _ => rfl⟩
  next hne => exact ⟨fun hcon => (by cases hcon), fun heq => absurd heq hne⟩

/-- The source of a signed Prepare is registered. -/
theorem index_of_signed (hsigned : signed bls s msg = true) :
    0 ≤ msg.source ∧ ∃ pk, index s.publicKeys msg.source = .ok pk := by
  have hok := signed_iff.mp hsigned
  rw [Session.verifyAckSignature] at hok
  split at hok
  · cases hok
  next hneg =>
    split at hok
    · cases hok
    next pk hindex => exact ⟨by omega, pk, hindex⟩

/-- A message that settles nothing is dispatched to its end, or to the mutex if
    it is an ack. -/
theorem dispatch_quiet (hk : Kept s p.session)
    (hmsg : settlesNothing bls s msg = true) :
    ∃ h' v, p.dispatch bls i msg = (p.move i h', v) ∧
      (h' = .returned ∨
        h' = .preparing msg ∧ msg.msgType = .prepare ∧
          signed bls s msg = true) := by
  rw [Protocol.dispatch, hk.topic]
  by_cases hmine : msg.bridgeEventHash ≠ s.topic
  · rw [if_pos hmine]
    exact ⟨_, _, rfl, .inl rfl⟩
  · rw [if_neg hmine]
    rw [settlesNothing, decide_eq_false hmine, Bool.false_or] at hmsg
    cases htype : msg.msgType with
    | announce => exact ⟨_, _, rfl, .inl rfl⟩
    | other n => exact ⟨_, _, rfl, .inl rfl⟩
    | prepare =>
        rw [htype] at hmsg
        exact ⟨_, _, rfl, .inr ⟨rfl, rfl, hmsg⟩⟩
    | prepared =>
        rw [htype] at hmsg
        dsimp only at hmsg ⊢
        rw [hk.verifyThresholdWitnesses]
        cases hver : s.verifyThresholdWitnesses bls msg with
        | error err => exact ⟨_, _, rfl, .inl rfl⟩
        | ok u =>
            rw [hver] at hmsg
            cases hmsg

/-- What a quiet handler does: it comes nearer to its end, and counts at most
    the ack that it could. -/
structure Quietly (bls : Bls PK SG SK) (s : Session PK SG SK)
    (p : Protocol PK SG SK) (h : Handler PK SG) (σ : Session PK SG SK)
    (h' : Handler PK SG) : Prop where
  kept : Kept s σ
  quiet : isQuiet bls s h' = true
  nearer : stepsLeft h' < stepsLeft h
  acks : σ.acks + (if mayCount h' then 1 else 0) ≤
    p.session.acks + if mayCount h then 1 else 0

def starterSteps : Starter → ℕ
  | .starting => 2
  | .selecting => 1
  | _ => 0

def listenerSteps : Listener → ℕ
  | .checking => 2
  | .receiving => 1
  | .ended => 0

/-- The steps that are left of a handover that nothing arrives at. -/
def protocolSteps (p : Protocol PK SG SK) : ℕ :=
  starterSteps p.starter + listenerSteps p.listener +
    (p.handlers.map stepsLeft).sum

/-- The acks that arrive with an event. -/
def brings (e : Event PK SG) : ℕ :=
  if e.arrived.any fun msg => msg.msgType = .prepare then 1 else 0

theorem Unsettled.later (hp : Unsettled bls s n p) (e : Event PK SG) :
    Unsettled bls s (n + brings e) p :=
  ⟨hp.kept, hp.acks.trans (by omega), hp.quiet, hp.notAgreed⟩

/-- Handlers that stay where they are. -/
theorem Unsettled.same (hp : Unsettled bls s n p)
    (hsession : p'.session = p.session) (hhandlers : p'.handlers = p.handlers)
    (hstarter : p'.starter ≠ .agreed) : Unsettled bls s n p' where
  kept := hsession ▸ hp.kept
  acks := by rw [hsession, hhandlers]; exact hp.acks
  quiet := hhandlers ▸ hp.quiet
  notAgreed := hstarter

/-- A quiet handler moves. -/
theorem Unsettled.moved {h' : Handler PK SG} (hp : Unsettled bls s n p)
    (hi : p.handlers[i]? = some h) (hq : Quietly bls s p h σ h') :
    Unsettled bls s n ({ p with session := σ }.move i h') ∧
      protocolSteps ({ p with session := σ }.move i h') < protocolSteps p := by
  refine ⟨⟨hq.kept, ?_, ?_, hp.notAgreed⟩, ?_⟩
  · have hcount := countP_set_add mayCount h' hi
    have hacks := hp.acks
    have hless := hq.acks
    show σ.acks + ((p.handlers.set i h').countP mayCount : ℕ) ≤ n
    cases hmay : mayCount h <;> cases hmay' : mayCount h' <;>
      simp only [hmay, hmay', if_true, if_false, Bool.false_eq_true]
        at hcount hless <;>
      omega
  · intro q hmem
    rcases List.mem_or_eq_of_mem_set hmem with hold | rfl
    · exact hp.quiet q hold
    · exact hq.quiet
  · have hsum := sum_set_add stepsLeft h' hi
    have hless := hq.nearer
    show starterSteps p.starter + listenerSteps p.listener +
      ((p.handlers.set i h').map stepsLeft).sum < _
    rw [protocolSteps]
    omega

variable [Add PK] [Add SG]

/-- **A SIGNED ACK BELOW THE THRESHOLD** is counted or dropped, and the mutex
    is free again. -/
theorem handlePrepare_of_signed {st : Loop PK SG SK} (hlock : st.locked = false)
    (hsigned : signed bls st.session msg = true)
    (hbelow : st.session.acks + 1 < st.session.thresholdAck) :
    (st.handlePrepare bls msg).2.isPanic = false ∧
      (st.handlePrepare bls msg).1.locked = false ∧
      Kept st.session (st.handlePrepare bls msg).1.session ∧
      (st.handlePrepare bls msg).1.session.acks ≤ st.session.acks + 1 := by
  obtain ⟨hsource, pk, hindex⟩ := index_of_signed hsigned
  have hbit : bit st.session.sigMask msg.source =
      .ok (st.session.sigMask.testBit msg.source.toNat) :=
    if_neg (by omega)
  have hacks : ¬ st.session.acks ≥ st.session.thresholdAck := by omega
  have hsame : Kept st.session st.session := ⟨_, _, _, _, rfl⟩
  rw [Loop.handlePrepare, hlock, if_neg Bool.false_ne_true, if_neg hacks, hbit]
  cases st.session.sigMask.testBit msg.source.toNat with
  | true => exact ⟨rfl, hlock, hsame, by dsimp only; omega⟩
  | false =>
      dsimp only
      rw [signed_iff.mp hsigned, hindex]
      dsimp only
      rw [Loop.acceptAck, if_neg (show ¬ (st.session.countAck msg pk).acks ≥
        (st.session.countAck msg pk).thresholdAck from not_le.mpr hbelow)]
      exact ⟨rfl, hlock, ⟨_, _, _, _, rfl⟩, le_refl _⟩

/-- A quiet handler that has not returned waits for the mutex, or goes on. -/
theorem Unsettled.goes (hp : Unsettled bls s n p) (hn : n < s.thresholdAck)
    (hi : p.handlers[i]? = some h) (hne : h ≠ .returned) :
    (p.goes bls i h = none ∧ p.mutexFree = false ∧ h.holds = false) ∨
    ∃ σ h' v, p.goes bls i h = some ({ p with session := σ }.move i h', v) ∧
      Quietly bls s p h σ h' := by
  have hquiet := hp.quiet h (List.mem_of_getElem? hi)
  cases h with
  | dispatching msg =>
      obtain ⟨h', v, heq, hcase⟩ := dispatch_quiet hp.kept hquiet
      refine .inr ⟨p.session, h', v, congrArg some heq, ?_⟩
      rcases hcase with rfl | ⟨rfl, htype, hsigned⟩
      · refine ⟨hp.kept, rfl, by simp [stepsLeft], ?_⟩
        refine Int.add_le_add_left ?_ _
        rw [if_neg (by simp [mayCount])]
        split <;> decide
      · refine ⟨hp.kept, hsigned, by simp [stepsLeft], ?_⟩
        simp [mayCount, htype]
  | preparing msg =>
      rw [Protocol.goes]
      cases hfree : p.mutexFree with
      | false => exact .inl ⟨rfl, rfl, rfl⟩
      | true =>
          exact .inr ⟨p.session, _, _, rfl, hp.kept, hquiet,
            by simp [stepsLeft], le_refl _⟩
  -- the ack counted now is one of those that were still to count
  | counting msg =>
      have hpos : 0 < p.handlers.countP mayCount :=
        List.countP_pos_iff.mpr ⟨_, List.mem_of_getElem? hi, rfl⟩
      have hacks := hp.acks
      have hbelow : p.session.acks + 1 < p.session.thresholdAck := by
        rw [hp.kept.thresholdAck]
        omega
      have hloop : { p.loop with locked := false }.locked = false := rfl
      obtain ⟨hpanic, hlock, hkept, hle⟩ := handlePrepare_of_signed hloop
        (hp.kept.signed.trans hquiet) hbelow
      have hgoes : p.goes bls i (.counting msg) = some
          ({ p with session :=
              (Loop.handlePrepare bls { p.loop with locked := false }
                msg).1.session }.move i .returned,
            some (Loop.handlePrepare bls { p.loop with locked := false }
              msg).2) := by
        rw [Protocol.goes, Protocol.count]
        dsimp only
        rw [hpanic, hlock]
        rfl
      exact .inr ⟨_, .returned, _, hgoes, hp.kept.trans hkept, rfl,
        by simp [stepsLeft], (add_zero _).le.trans hle⟩
  | returned => exact absurd rfl hne
  -- no handler has come beyond a Prepare
  | verified => cases hquiet
  | checking => cases hquiet
  | sending => cases hquiet
  | cancelling => cases hquiet
  | unlocking => cases hquiet
  | leaked => cases hquiet

/-- **ONE STEP OF THE HANDOVER** brings no result, and a step of its goroutines
    brings it nearer to its end. -/
theorem Unsettled.react {e : RelayerHandover.Event PK SG}
    (hp : Unsettled bls s n p) (hn : n < s.thresholdAck)
    (hmsg : (Event.protocol e).arrived.all (settlesNothing bls s) = true)
    (hreact : p.react bls e = some (p', v)) :
    Unsettled bls s (n + brings (.protocol e)) p' ∧
      ((Event.protocol e).own = true → protocolSteps p' < protocolSteps p) ∧
      (p.ctxDone = true → p'.ctxDone = true) := by
  cases e with
  | timeout =>
      obtain ⟨rfl, -⟩ := Prod.mk.inj (Option.some.inj hreact)
      exact ⟨(hp.later _).same rfl rfl hp.notAgreed,
        fun hown => absurd hown Bool.false_ne_true, fun _ => Bool.or_true _⟩
  | sessionEnds =>
      obtain ⟨rfl, -⟩ := Prod.mk.inj (Option.some.inj hreact)
      exact ⟨(hp.later _).same rfl rfl hp.notAgreed,
        fun hown => absurd hown Bool.false_ne_true, fun _ => rfl⟩
  | selects =>
      rw [Protocol.react] at hreact
      split at hreact
      next hstarter =>
        obtain ⟨rfl, -⟩ := Prod.mk.inj (Option.some.inj hreact)
        refine ⟨(hp.later _).same rfl rfl Starter.noConfusion, fun _ => ?_, id⟩
        simp only [protocolSteps, hstarter, starterSteps]
        omega
      · cases hreact
  | givesUp =>
      rw [Protocol.react] at hreact
      split at hreact
      next hstarter =>
        split at hreact
        · obtain ⟨rfl, -⟩ := Prod.mk.inj (Option.some.inj hreact)
          refine ⟨(hp.later _).same rfl rfl Starter.noConfusion, fun _ => ?_, id⟩
          simp only [protocolSteps, hstarter, starterSteps]
          omega
        · cases hreact
      · cases hreact
  | agrees i =>
      rw [Protocol.react] at hreact
      split at hreact
      next _ hi =>
        -- no quiet handler is at its send
        cases hp.quiet _ (List.mem_of_getElem? hi)
      · cases hreact
  | listens =>
      rw [Protocol.react] at hreact
      split at hreact
      next hlistener =>
        split at hreact
        · obtain ⟨rfl, -⟩ := Prod.mk.inj (Option.some.inj hreact)
          refine ⟨(hp.later _).same rfl rfl hp.notAgreed, fun _ => ?_, id⟩
          simp only [protocolSteps, Protocol.endLoop, hlistener, listenerSteps]
          omega
        · obtain ⟨rfl, -⟩ := Prod.mk.inj (Option.some.inj hreact)
          refine ⟨(hp.later _).same rfl rfl hp.notAgreed, fun _ => ?_, id⟩
          simp only [protocolSteps, hlistener, listenerSteps]
          omega
      · cases hreact
  | arrives msg =>
      rw [Protocol.react] at hreact
      split at hreact
      · obtain ⟨rfl, -⟩ := Prod.mk.inj (Option.some.inj hreact)
        refine ⟨⟨hp.kept, ?_, ?_, hp.notAgreed⟩,
          fun hown => absurd hown Bool.false_ne_true, id⟩
        · have hacks := hp.acks
          have hnew : [Handler.dispatching msg].countP mayCount =
              brings (.protocol (.arrives msg)) := List.countP_singleton ..
          simp only [Protocol.spawn, List.countP_append, hnew]
          omega
        · intro q hmem
          rcases List.mem_append.mp hmem with hold | hnew
          · exact hp.quiet q hold
          · obtain rfl := List.mem_singleton.mp hnew
            exact hmsg
      · cases hreact
  | receivesNil =>
      rw [Protocol.react] at hreact
      split at hreact
      next hlistener =>
        obtain ⟨rfl, -⟩ := Prod.mk.inj (Option.some.inj hreact)
        refine ⟨(hp.later _).same rfl rfl hp.notAgreed, fun _ => ?_, id⟩
        simp only [protocolSteps, Protocol.endLoop, hlistener, listenerSteps]
        omega
      · cases hreact
  | goes i =>
      rw [Protocol.react] at hreact
      split at hreact
      next h hi =>
        have hne : h ≠ .returned := by
          rintro rfl
          cases hreact
        rcases hp.goes hn hi hne with ⟨hnone, -⟩ | ⟨σ, h', v', hgoes, hq⟩
        · rw [hnone] at hreact
          cases hreact
        · rw [hgoes] at hreact
          obtain ⟨rfl, -⟩ := Prod.mk.inj (Option.some.inj hreact)
          obtain ⟨hp', hless⟩ := hp.moved hi hq
          exact ⟨hp'.later _, fun _ => hless, id⟩
      · cases hreact

/-- **NOBODY WAITS FOR EVER**: where the select can be left, some goroutine can
    go on until all of the handover have returned. -/
theorem Unsettled.progress (hp : Unsettled bls s n p) (hn : n < s.thresholdAck)
    (hdone : p.ctxDone = true) :
    p.starter = .gaveUp ∧ handlersRunning p = 0 ∨
      ∃ e p' v, (Event.protocol e : Event PK SG).own = true ∧
        p.react bls e = some (p', v) := by
  by_cases hall : ∀ h ∈ p.handlers, hasReturned h = true
  · -- only the starter and the loop can be left
    cases hstarter : p.starter with
    | starting =>
        exact .inr ⟨.selects, _, _, rfl, by rw [Protocol.react, hstarter]⟩
    | selecting =>
        exact .inr ⟨.givesUp, _, _, rfl,
          by rw [Protocol.react, hstarter]; exact if_pos hdone⟩
    | agreed => exact absurd hstarter hp.notAgreed
    | gaveUp =>
        cases hlistener : p.listener with
        | checking =>
            cases hctx : p.ctxErr with
            | true =>
                exact .inr ⟨.listens, _, _, rfl,
                  by rw [Protocol.react, hlistener]; exact if_pos hctx⟩
            | false =>
                refine .inr ⟨.listens, { p with listener := .receiving }, none,
                  rfl, ?_⟩
                rw [Protocol.react, hlistener]
                exact if_neg (by rw [hctx]; decide)
        | receiving =>
            exact .inr ⟨.receivesNil, _, _, rfl,
              by rw [Protocol.react, hlistener]⟩
        | ended =>
            have hcount : p.handlers.countP (fun h => !hasReturned h) = 0 := by
              rw [List.countP_eq_zero]
              intro h hmem
              rw [hall h hmem]
              decide
            refine .inl ⟨rfl, ?_⟩
            rw [handlersRunning, if_pos hlistener, hcount]
            rfl
  · -- the handler that holds the mutex goes on, or else any other
    obtain ⟨h, hmem, hnot⟩ : ∃ h ∈ p.handlers, hasReturned h ≠ true := by
      simpa using hall
    have hgo : ∃ (i : ℕ) (h : _), p.handlers[i]? = some h ∧ h ≠ .returned ∧
        (p.mutexFree = true ∨ h.holds = true) := by
      cases hfree : p.mutexFree with
      | true =>
          obtain ⟨i, hi⟩ := List.mem_iff_getElem?.mp hmem
          refine ⟨i, h, hi, ?_, .inl rfl⟩
          rintro rfl
          exact hnot rfl
      | false =>
          obtain ⟨q, hq, hholds⟩ : ∃ q ∈ p.handlers, q.holds = true := by
            simpa [Protocol.mutexFree, free] using hfree
          obtain ⟨i, hi⟩ := List.mem_iff_getElem?.mp hq
          refine ⟨i, q, hi, ?_, .inr hholds⟩
          rintro rfl
          cases hholds
    obtain ⟨i, q, hi, hne, hfree⟩ := hgo
    rcases hp.goes hn hi hne with ⟨-, hlocked, hholds⟩ | ⟨σ, h', v, hgoes, -⟩
    · rw [hlocked, hholds] at hfree
      simp at hfree
    · exact .inr ⟨.goes i, _, v, rfl, by rw [Protocol.react, hi]; exact hgoes⟩

end Unsettled

/-- A request while no result can come: `StartProtocolByOracleRequest` is in its
    select or has returned, and no block message is handled. -/
structure Fruitless (bls : Bls PK SG SK) (s : Session PK SG SK) (n : ℤ)
    (r : Request PK SG SK B L) : Prop where
  protocol : Unsettled bls s n r.protocol
  stage : r.stage = .inSelect ∨ r.stage = .returned
  blocks : r.blocks = []

/-- The steps that are left of a request that nothing arrives at. -/
def Request.stepsLeft (r : Request PK SG SK B L) : ℕ :=
  protocolSteps r.protocol + (if r.stage = .inSelect then 1 else 0) +
    if r.left then 0 else 1

section Fruitless

variable {chain : Chain B L} {bls : Bls PK SG SK} {s : Session PK SG SK} {n : ℤ}
  {r r' : Request PK SG SK B L} {e : Event PK SG} {out : Report PK SG}

/-- There are at most three steps left for each handler. -/
theorem Request.stepsLeft_le (r : Request PK SG SK B L) :
    r.stepsLeft ≤ 3 * r.protocol.handlers.length + 6 := by
  have hhandlers : (r.protocol.handlers.map RelayerReceiver.stepsLeft).sum ≤
      3 * r.protocol.handlers.length := by
    have hle := List.sum_le_card_nsmul
      (r.protocol.handlers.map RelayerReceiver.stepsLeft) 3 (by
        intro k hk
        obtain ⟨h, -, rfl⟩ := List.mem_map.mp hk
        cases h <;> simp [RelayerReceiver.stepsLeft])
    rw [List.length_map, smul_eq_mul] at hle
    omega
  have hstarter : starterSteps r.protocol.starter ≤ 2 := by
    cases r.protocol.starter <;> decide
  have hlistener : listenerSteps r.protocol.listener ≤ 2 := by
    cases r.protocol.listener <;> decide
  rw [Request.stepsLeft, protocolSteps]
  split <;> split <;> omega

/-- The acks that arrived, label by label. -/
theorem acksArrived_concat (tr : List (Event PK SG × Report PK SG))
    (l : Event PK SG × Report PK SG) :
    acksArrived (tr ++ [l]) = acksArrived tr + brings l.1 := by
  rw [acksArrived, List.countP_append, List.countP_singleton]
  rfl

/-- In a fruitless request nobody is in `ReceiveAndSaveBlock`. -/
theorem Fruitless.not_inReceiver (hr : Fruitless bls s n r) :
    r.stage.inReceiver = false := by
  rcases hr.stage with hstage | hstage <;> rw [hstage] <;> rfl

variable [Add PK] [Add SG]

/-- **ONE STEP OF THE REQUEST** brings no result, and a step of its goroutines
    brings it nearer to its end. -/
theorem Fruitless.react (hr : Fruitless bls s n r) (hn : n < s.thresholdAck)
    (hmsg : e.arrived.all (settlesNothing bls s) = true)
    (hreact : r.react chain bls e = some (r', out)) :
    Fruitless bls s (n + brings e) r' ∧
      (e.own = true → r'.stepsLeft < r.stepsLeft) ∧
      (r.protocol.ctxDone = true → r'.protocol.ctxDone = true) := by
  cases e with
  | protocol e =>
      obtain ⟨⟨p, v⟩, hp, heq⟩ := Option.map_eq_some_iff.mp hreact
      obtain rfl := congrArg Prod.fst heq
      obtain ⟨hp', hless, hctx⟩ := hr.protocol.react hn hmsg hp
      refine ⟨⟨hp', hr.stage, hr.blocks⟩, fun hown => ?_, hctx⟩
      have hlt := hless hown
      simp only [Request.stepsLeft]
      omega
  -- nothing was agreed, so the request returns here
  | branches =>
      rw [Request.react] at hreact
      split at hreact
      next _ hstarter => exact absurd hstarter hr.protocol.notAgreed
      next hstage _ =>
        obtain rfl := state_eq hreact
        refine ⟨⟨hr.protocol.later _, .inr rfl, hr.blocks⟩, fun _ => ?_, id⟩
        show protocolSteps r.protocol + 0 + (if r.left then 0 else 1) < _
        rw [Request.stepsLeft, if_pos hstage]
        omega
      · cases hreact
  | leaderEnds =>
      rw [Request.react] at hreact
      split at hreact
      next hstage => rcases hr.stage with h | h <;> cases hstage.symm.trans h
      · cases hreact
  | tests =>
      rw [Request.react] at hreact
      split at hreact
      next hstage => rcases hr.stage with h | h <;> cases hstage.symm.trans h
      · cases hreact
  | receives rcvdMsg =>
      cases rcvdMsg <;>
        rw [Request.react] at hreact <;>
        split at hreact
      next hstage => rcases hr.stage with h | h <;> cases hstage.symm.trans h
      · cases hreact
      next hstage => rcases hr.stage with h | h <;> cases hstage.symm.trans h
      · cases hreact
  | handles i =>
      rw [Request.react, hr.blocks, List.getElem?_nil] at hreact
      cases hreact
  | leaves =>
      rw [Request.react] at hreact
      split at hreact
      next hwg =>
        obtain rfl := state_eq hreact
        refine ⟨⟨hr.protocol.later _, hr.stage, hr.blocks⟩, fun _ => ?_, id⟩
        simp [Request.stepsLeft, hwg.2]
      · cases hreact

/-- **A RUN WITHOUT A RESULT**: where the messages are inconclusive, the request
    stays fruitless. -/
theorem fruitless_run {leads : Bool} {ledger : L}
    {tr : List (Event PK SG × Report PK SG)}
    (hrun : Run (Fires (Request.react chain bls))
      (handleOracleRequest leads s ledger) tr r)
    (hall : inconclusive bls s tr = true) :
    Fruitless bls s (s.acks + acksArrived tr) r := by
  refine hrun.traced (P := fun tr r => inconclusive bls s tr = true →
    Fruitless bls s (s.acks + acksArrived tr) r) ?_ ?_ hall
  · intro _
    refine ⟨⟨⟨_, _, _, _, rfl⟩, ?_, ?_, Starter.noConfusion⟩, .inl rfl, rfl⟩
    · exact le_refl _
    · intro h hmem
      cases hmem
  · intro tr a l b ih hstep hall
    rw [inconclusive, Bool.and_eq_true, List.all_append, Bool.and_eq_true,
      acksArrived_concat, decide_eq_true_iff] at hall
    obtain ⟨⟨hbefore, hnew⟩, hfew⟩ := hall
    have hless : s.acks + acksArrived tr < s.thresholdAck := by omega
    have ha : inconclusive bls s tr = true := by
      rw [inconclusive, hbefore, decide_eq_true hless]
      rfl
    rw [List.all_cons, List.all_nil, Bool.and_true] at hnew
    have hb := ((ih ha).react hless hnew hstep).1
    rwa [acksArrived_concat, Nat.cast_add, ← add_assoc]

/-- **A FRUITLESS REQUEST RETURNS**: where nothing arrives any more and the
    select can be left, its goroutines make at most three steps for each handler
    and six, and stop only when `HandleOracleRequest` has left its topic. -/
theorem Fruitless.returns {leads : Bool} (hr : Fruitless bls s n r)
    (hn : n < s.thresholdAck) (hacc : Accounted leads r)
    (hdone : r.protocol.ctxDone = true)
    {tr : List (Event PK SG × Report PK SG)}
    (hrun : Run (Guarded (Fires (Request.react chain bls))
      (fun _ l => l.1.own = true)) r tr r') :
    tr.length ≤ 3 * r.protocol.handlers.length + 6 ∧
      (r'.left = true ∨ ∃ l r'', l.1.own = true ∧
        Fires (Request.react chain bls) r' l r'') := by
  -- each own step uses up one of the steps left
  obtain ⟨⟨hr', hdone'⟩, hlength⟩ := hrun.length_add_le
    (P := fun r => Fruitless bls s n r ∧ r.protocol.ctxDone = true)
    Request.stepsLeft ⟨hr, hdone⟩ (by
      rintro a ⟨e, out⟩ b ⟨ha, hctx⟩ ⟨hstep, hown⟩
      have hnone : e.arrived = none := by
        cases e with
        | protocol e => cases e <;> first | rfl | cases hown
        | branches | leaderEnds | tests | receives | handles | leaves => rfl
      have hbrings : brings e = 0 := by rw [brings, hnone]; rfl
      obtain ⟨hb, hless, hctx'⟩ := ha.react hn (by rw [hnone]; rfl) hstep
      rw [hbrings, Nat.cast_zero, add_zero] at hb
      exact ⟨⟨hb, hctx' hctx⟩, hless hown⟩)
  have hacc' := accounted_run hacc hrun.of_guarded
  refine ⟨by have := r.stepsLeft_le; omega, ?_⟩
  rcases hr'.protocol.progress hn hdone' with
    ⟨hgaveUp, hzero⟩ | ⟨e, p, v, hown, hp⟩
  · rcases hr'.stage with hstage | hstage
    · -- the select was left for the context
      refine .inr ⟨(.branches, .quiet), r'.returns, rfl, ?_⟩
      rw [Fires, Request.react, hstage, hgaveUp]
    · -- the last goroutine has returned
      have hwg : r'.wg = 0 := by
        rw [hacc'.wg, hr'.not_inReceiver, Request.running, hstage, hzero,
          hr'.blocks]
        rfl
      cases hleft : r'.left with
      | true => exact .inl rfl
      | false =>
          refine .inr ⟨(.leaves, .quiet), { r' with left := true }, rfl, ?_⟩
          rw [Fires, Request.react, if_pos ⟨hwg, hleft⟩]
  · refine .inr ⟨(.protocol e, .verdict v),
      { r' with protocol := p, wg := r'.wg + wgDelta p e }, hown, ?_⟩
    rw [Fires, Request.react, hp]
    rfl

end Fruitless

/-- A chain without blocks: no message can be decoded. -/
def noChain : Chain Unit Unit where
  unmarshal _ := none
  blockFromRawBytes _ := none
  execAndSaveBlock ledger _ := (ledger, false)

/-- The Prepared message arrives, and the select is left with the result. -/
def untilAgreed : List (Event ℤ ℤ) :=
  [.protocol .selects, .protocol .listens, .protocol (.arrives samplePrepared),
    .protocol (.goes 0), .protocol (.goes 0), .protocol (.goes 0),
    .protocol (.agrees 0), .protocol (.goes 0), .protocol (.goes 0),
    .protocol .listens, .branches]

/-- A Prepared message with the acks of two nodes only. -/
def earlyPrepared : MessageWithSig ℤ ℤ :=
  { samplePrepared with
    signature := (sampleAck 0).signature + (sampleAck 1).signature
    mask := 3
    publicKey := 2 + 3 }

/-- A node that does not lead: two acks and a Prepared message that is too
    early arrive, and then the 30 s are over. -/
def untilTimeout : List (Event ℤ ℤ) :=
  [.protocol .selects, .protocol .listens, .protocol (.arrives (sampleAck 1)),
    .protocol (.goes 0), .protocol .listens,
    .protocol (.arrives (sampleAck 2)), .protocol (.goes 0),
    .protocol (.goes 1), .protocol .listens,
    .protocol (.arrives earlyPrepared), .protocol .timeout]

end RelayerReceiver
