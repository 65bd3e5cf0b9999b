import Relayer.RoutineProofs
import Relayer.TransitionProofs

/-! # The nonces of a node

    A node transacts on a chain from several goroutines.  `ReceiveRequestV2`
    takes `nonceMx`, and then either reads the pending nonce of the account
    (`CallOpt`) and calls the bridge, or, where the chain has a forwarder,
    reads the forwarder's nonce, signs a forward request and hands it to a GSN
    server (`BridgeRequestV2`).  `SpreadNewEpoch` reads the pending nonce and
    calls the bridge without the mutex.

    * `Moves` says what a step does;
    * **`account_nonces_unique`**: no account nonce is used twice along the
      runs in which a nonce is not read while one that `SpreadNewEpoch` has
      read, or wants to follow, is waiting for its transaction;
    * **`forwarder_nonces_unique`**: no forwarder nonce is signed twice along
      the runs in which it is read only when every request signed before has
      been mined. -/

namespace RelayerNonce

open Routines Transition

/-! ## The goroutines -/

/-- Where a goroutine is that transacts on the chain.  `hasInstance` is whether
    `NewBridge` gave one: its error is only logged. -/
inductive Call where
  /-- `ReceiveRequestV2`, before the mutex. -/
  | starting
  /-- At `n.nonceMx.Lock()`. -/
  | locking (hasInstance : Bool)
  /-- At `PendingNonceAt` in `CallOpt`. -/
  | callOpt (hasInstance : Bool)
  /-- In the rest of `CallOpt`. -/
  | fillingOpts (hasInstance : Bool) (nonce : ℕ)
  /-- At `instance.ReceiveRequestV2`. -/
  | calling (hasInstance : Bool) (nonce : ℕ)
  /-- `BridgeRequestV2`, before `GetNonce`. -/
  | packing
  /-- At `forwarder.GetNonce`. -/
  | gettingNonce
  /-- Up to `NewSignature`. -/
  | signing (nonce : ℕ)
  /-- Up to `gsnCaller.Execute`. -/
  | executing (nonce : ℕ)
  /-- At `n.nonceMx.Unlock()`, with or without a transaction to wait for. -/
  | unlocking (txHash : Bool)
  /-- In `WaitTransaction`. -/
  | waiting
  /-- The goroutine of `SpreadNewEpoch`, in `GetBridge`. -/
  | spreading
  /-- `SpreadNewEpoch`: at `PendingNonceAt` in `CallOpt`. -/
  | spreadCallOpt
  /-- `SpreadNewEpoch`: in the rest of `CallOpt`. -/
  | spreadFillingOpts (nonce : ℕ)
  /-- `SpreadNewEpoch`: at `instance.UpdateEpoch`. -/
  | spreadCalling (nonce : ℕ)
  | returned
  deriving DecidableEq

/-- Is `nonceMx` locked by this goroutine? -/
def Call.holdsMx : Call → Bool
  | .callOpt _ | .fillingOpts _ _ | .calling _ _ | .packing | .gettingNonce
  | .signing _ | .executing _ | .unlocking _ => true
  | _ => false

/-- The account nonce that was read and not used yet. -/
def Call.accountNonce : Call → Option ℕ
  | .fillingOpts _ nonce | .calling _ nonce => some nonce
  | .spreadFillingOpts nonce | .spreadCalling nonce => some nonce
  | _ => none

def Call.hasNonce (c : Call) : Bool := c.accountNonce.isSome

/-- Has `SpreadNewEpoch` read an account nonce and not used it yet? -/
def Call.spreadsNonce : Call → Bool
  | .spreadFillingOpts _ | .spreadCalling _ => true
  | _ => false

/-- A transaction sent with the key of the node, and whether the chain has
    accepted it. -/
structure Sent where
  nonce : ℕ
  accepted : Bool
  deriving DecidableEq

/-- A node and what one chain knows of it: the number of transactions of the
    account it has accepted, and the executes of the signer it has mined since
    the forwarder's nonce was `firstNonce`; `unmined` executes were submitted
    and are not mined. -/
structure Node where
  canUseGsn : Bool
  accepted : ℕ
  sent : List Sent
  firstNonce : ℕ
  mined : ℕ
  unmined : ℕ
  signed : List ℕ
  calls : List Call

/-- A node that has not transacted yet. -/
def newNode (canUseGsn : Bool) (accepted firstNonce : ℕ) : Node :=
  ⟨canUseGsn, accepted, [], firstNonce, 0, 0, [], []⟩

namespace Node

def mutexFree (n : Node) : Bool := free Call.holdsMx n.calls

/-- `PendingNonceAt`: the transactions the chain has accepted so far. -/
def pendingNonceAt (n : Node) : ℕ := n.accepted

/-- `forwarder.GetNonce` in the latest mined state. -/
def getNonce (n : Node) : ℕ := n.firstNonce + n.mined

def move (n : Node) (i : ℕ) (c : Call) : Node :=
  { n with calls := n.calls.set i c }

def spawn (n : Node) (c : Call) : Node := { n with calls := n.calls ++ [c] }

/-- A transaction reaches the chain; one that takes the place of another is
    not counted again. -/
def send (n : Node) (nonce : ℕ) (accepted : Bool) : Node :=
  { n with
    sent := n.sent ++ [⟨nonce, accepted⟩]
    accepted := if accepted then max n.accepted (nonce + 1) else n.accepted }

/-- The next step of goroutine `i` where nothing goes wrong. -/
def goes (n : Node) (i : ℕ) : Call → Option Node
  | .starting => some (n.move i (.locking true))
  | .locking hasInstance =>
      if n.mutexFree then
        some (n.move i (if n.canUseGsn then .packing else .callOpt hasInstance))
      else none
  | .callOpt hasInstance =>
      some (n.move i (.fillingOpts hasInstance n.pendingNonceAt))
  | .fillingOpts hasInstance nonce =>
      some (n.move i (.calling hasInstance nonce))
  | .packing => some (n.move i .gettingNonce)
  | .gettingNonce => some (n.move i (.signing n.getNonce))
  | .signing nonce =>
      some ({ n with signed := n.signed ++ [nonce] }.move i (.executing nonce))
  | .unlocking txHash =>
      some (n.move i (if txHash then .waiting else .returned))
  | .waiting => some (n.move i .returned)
  | .spreading => some (n.move i .spreadCallOpt)
  | .spreadCallOpt => some (n.move i (.spreadFillingOpts n.pendingNonceAt))
  | .spreadFillingOpts nonce => some (n.move i (.spreadCalling nonce))
  | .calling _ _ | .executing _ | .spreadCalling _ | .returned => none

/-- Goroutine `i` meets an error and gives up; a call on a nil instance
    panics. -/
def fails (n : Node) (i : ℕ) : Call → Option Node
  | .callOpt _ | .fillingOpts _ _ | .calling true _ | .packing | .gettingNonce
  | .signing _ | .executing _ => some (n.move i (.unlocking false))
  | .starting | .waiting | .spreading | .spreadCallOpt | .spreadFillingOpts _
  | .spreadCalling _ => some (n.move i .returned)
  | .locking _ | .calling false _ | .unlocking _ | .returned => none

/-- The contract call of goroutine `i` sends its transaction; `replied` is
    whether the call returns without an error. -/
def transact (n : Node) (i : ℕ) (accepted replied : Bool) : Call → Option Node
  | .calling true nonce =>
      some ((n.send nonce accepted).move i (.unlocking (accepted && replied)))
  | .spreadCalling nonce =>
      some ((n.send nonce accepted).move i
        (if accepted && replied then .waiting else .returned))
  | _ => none

/-- The GSN server has submitted the request of goroutine `i`; `replied` is
    whether its answer arrives. -/
def execute (n : Node) (i : ℕ) (replied : Bool) : Call → Option Node
  | .executing _ =>
      some ({ n with unmined := n.unmined + 1 }.move i (.unlocking replied))
  | _ => none

end Node

/-- What can happen. -/
inductive Event where
  /-- `ReceiveRequestV2` is called. -/
  | receiveRequestV2
  /-- `SpreadNewEpoch` starts its goroutine for the chain. -/
  | spreadNewEpoch
  /-- Goroutine `i` takes its next step. -/
  | goes (i : ℕ)
  /-- Goroutine `i` meets an error. -/
  | fails (i : ℕ)
  /-- `NewBridge` of goroutine `i` fails. -/
  | noInstance (i : ℕ)
  /-- Goroutine `i` sends a transaction. -/
  | transacts (i : ℕ) (accepted replied : Bool)
  /-- The GSN server submits the request of goroutine `i`. -/
  | executes (i : ℕ) (replied : Bool)
  /-- A submitted execute is mined. -/
  | mines

/-- One step of a goroutine that is there. -/
def Node.at (n : Node) (i : ℕ) (f : Call → Option Node) :
    Option (Node × Unit) :=
  (n.calls[i]?.bind f).map (fun n' => (n', ()))

/-- One step; `none` where the event can not happen. -/
def Node.react (n : Node) : Event → Option (Node × Unit)
  | .receiveRequestV2 => some (n.spawn .starting, ())
  | .spreadNewEpoch => some (n.spawn .spreading, ())
  | .goes i => n.at i (n.goes i)
  | .fails i => n.at i (n.fails i)
  | .noInstance i =>
      n.at i (fun c => if c = .starting then some (n.move i (.locking false))
        else none)
  | .transacts i accepted replied => n.at i (n.transact i accepted replied)
  | .executes i replied => n.at i (n.execute i replied)
  | .mines =>
      if 0 < n.unmined then
        some ({ n with unmined := n.unmined - 1, mined := n.mined + 1 }, ())
      else none

/-! ## What a step can do -/

/-- A goroutine moves on and neither reads nor uses a nonce. -/
structure Quiet (n : Node) (c c' : Call) : Prop where
  mutex : c'.holdsMx = true → c.holdsMx = true ∨ n.mutexFree = true
  account : c'.accountNonce = none ∨ c'.accountNonce = c.accountNonce
  forwarder : ∀ nonce, c' ≠ .signing nonce

/-- What a step does. -/
inductive Moves (n : Node) : Event → Node → Prop where
  | spawns {e : Event} (c : Call) (hmx : c.holdsMx = false)
      (hnonce : c.accountNonce = none) (hsign : ∀ nonce, c ≠ .signing nonce) :
      Moves n e (n.spawn c)
  | quiet {e : Event} {i : ℕ} {c c' : Call} (hi : n.calls[i]? = some c)
      (hquiet : Quiet n c c') : Moves n e (n.move i c')
  | reads {i : ℕ} {hasInstance : Bool}
      (hi : n.calls[i]? = some (.callOpt hasInstance)) :
      Moves n (.goes i) (n.move i (.fillingOpts hasInstance n.pendingNonceAt))
  | spreadReads {i : ℕ} (hi : n.calls[i]? = some .spreadCallOpt) :
      Moves n (.goes i) (n.move i (.spreadFillingOpts n.pendingNonceAt))
  | sends {e : Event} {i nonce : ℕ} {c c' : Call} (accepted : Bool)
      (hi : n.calls[i]? = some c) (hnonce : c.accountNonce = some nonce)
      (hnone : c'.accountNonce = none) (hquiet : Quiet n c c') :
      Moves n e ((n.send nonce accepted).move i c')
  | getsNonce {i : ℕ} (hi : n.calls[i]? = some .gettingNonce) :
      Moves n (.goes i) (n.move i (.signing n.getNonce))
  | signs {i nonce : ℕ} (hi : n.calls[i]? = some (.signing nonce)) :
      Moves n (.goes i)
        ({ n with signed := n.signed ++ [nonce] }.move i (.executing nonce))
  | executes {i nonce : ℕ} {e : Event} (replied : Bool)
      (hi : n.calls[i]? = some (.executing nonce)) :
      Moves n e
        ({ n with unmined := n.unmined + 1 }.move i (.unlocking replied))
  | mines : Moves n .mines
      { n with unmined := n.unmined - 1, mined := n.mined + 1 }

section Inversion

variable {n n' : Node} {e : Event} {i : ℕ} {c c' : Call}

/-- An event of goroutine `i` is one of its call. -/
theorem at_some {f : Call → Option Node} {u : Unit}
    (h : n.at i f = some (n', u)) :
    ∃ c, n.calls[i]? = some c ∧ f c = some n' := by
  obtain ⟨n'', hbind, heq⟩ := Option.map_eq_some_iff.mp h
  obtain ⟨rfl, -⟩ := Prod.mk.inj heq
  exact Option.bind_eq_some_iff.mp hbind

/-- Quiet steps of the goroutine that has the mutex. -/
theorem quiet_inside (hmx : c.holdsMx = true)
    (hnonce : c'.accountNonce = none ∨ c'.accountNonce = c.accountNonce)
    (hsign : ∀ nonce, c' ≠ .signing nonce) : Quiet n c c' :=
  ⟨fun _ => Or.inl hmx, hnonce, hsign⟩

/-- Steps to a place outside the mutex; nothing is signed there. -/
theorem quiet_outside (hmx : c'.holdsMx = false)
    (hnonce : c'.accountNonce = none ∨ c'.accountNonce = c.accountNonce) :
    Quiet n c c' := by
  refine ⟨fun hholds => ?_, hnonce, ?_⟩
  · rw [hmx] at hholds
    cases hholds
  · rintro nonce rfl
    cases hmx

/-- Every step of a goroutine is a move. -/
theorem goes_moves (hi : n.calls[i]? = some c) (h : n.goes i c = some n') :
    Moves n (.goes i) n' := by
  cases c with
  | starting =>
      obtain rfl := Option.some.inj h
      exact Moves.quiet hi (quiet_outside rfl (Or.inl rfl))
  -- the lock is taken only while no other goroutine holds it
  | locking hasInstance =>
      rw [Node.goes] at h
      split at h
      · rename_i hfree
        obtain rfl := Option.some.inj h
        refine Moves.quiet hi ⟨fun _ => Or.inr hfree, Or.inl ?_, ?_⟩
        · split <;> rfl
        · intro nonce
          split <;> simp
      · cases h
  | callOpt hasInstance =>
      obtain rfl := Option.some.inj h
      exact Moves.reads hi
  | fillingOpts hasInstance nonce =>
      obtain rfl := Option.some.inj h
      exact Moves.quiet hi (quiet_inside rfl (Or.inr rfl) (by simp))
  | packing =>
      obtain rfl := Option.some.inj h
      exact Moves.quiet hi (quiet_inside rfl (Or.inl rfl) (by simp))
  | gettingNonce =>
      obtain rfl := Option.some.inj h
      exact Moves.getsNonce hi
  | signing nonce =>
      obtain rfl := Option.some.inj h
      exact Moves.signs hi
  | unlocking txHash =>
      obtain rfl := Option.some.inj h
      -- the unlock ends in the wait for the receipt, or in the error
      refine Moves.quiet hi (quiet_outside ?_ (Or.inl ?_))
      · split <;> rfl
      · split <;> rfl
  | waiting =>
      obtain rfl := Option.some.inj h
      exact Moves.quiet hi (quiet_outside rfl (Or.inl rfl))
  | spreading =>
      obtain rfl := Option.some.inj h
      exact Moves.quiet hi (quiet_outside rfl (Or.inl rfl))
  | spreadCallOpt =>
      obtain rfl := Option.some.inj h
      exact Moves.spreadReads hi
  | spreadFillingOpts nonce =>
      obtain rfl := Option.some.inj h
      exact Moves.quiet hi (quiet_outside rfl (Or.inr rfl))
  | calling hasInstance nonce => cases h
  | executing nonce => cases h
  | spreadCalling nonce => cases h
  | returned => cases h

/-- A goroutine that gives up unlocks, or returns without having locked. -/
theorem fails_cases (h : n.fails i c = some n') :
    (n' = n.move i (.unlocking false) ∧ c.holdsMx = true) ∨
      n' = n.move i .returned := by
  rw [Node.fails.eq_def] at h
  split at h
  all_goals first
    | exact Or.inl ⟨(Option.some.inj h).symm, rfl⟩
    | exact Or.inr (Option.some.inj h).symm
    | cases h

/-- An error is a move that changes nothing but the place. -/
theorem fails_moves (hi : n.calls[i]? = some c) (h : n.fails i c = some n') :
    Moves n (.fails i) n' := by
  rcases fails_cases h with ⟨rfl, hmx⟩ | rfl
  · exact Moves.quiet hi (quiet_inside hmx (Or.inl rfl) (by simp))
  · exact Moves.quiet hi (quiet_outside rfl (Or.inl rfl))

/-- Sending is a move, accepted or not. -/
theorem transact_moves {accepted replied : Bool} (hi : n.calls[i]? = some c)
    (h : n.transact i accepted replied c = some n') :
    Moves n (.transacts i accepted replied) n' := by
  rw [Node.transact.eq_def] at h
  split at h
  -- inside the lock the call goes on to unlock
  · obtain rfl := Option.some.inj h
    exact Moves.sends accepted hi rfl rfl
      (quiet_inside rfl (Or.inl rfl) (by simp))
  -- outside of it the call waits, or has returned with the error
  · obtain rfl := Option.some.inj h
    have hnone : (if (accepted && replied) = true then Call.waiting
        else .returned).accountNonce = none := by
      split <;> rfl
    refine Moves.sends accepted hi rfl hnone
      (quiet_outside ?_ (Or.inl hnone))
    split <;> rfl
  · cases h

/-- **EVERY STEP** is one of these. -/
theorem react_moves {u : Unit} (h : n.react e = some (n', u)) :
    Moves n e n' := by
  cases e with
  | receiveRequestV2 =>
      obtain ⟨rfl, -⟩ := Prod.mk.inj (Option.some.inj h)
      exact Moves.spawns .starting rfl rfl (by simp)
  | spreadNewEpoch =>
      obtain ⟨rfl, -⟩ := Prod.mk.inj (Option.some.inj h)
      exact Moves.spawns .spreading rfl rfl (by simp)
  | goes i =>
      obtain ⟨c, hi, hgoes⟩ := at_some h
      exact goes_moves hi hgoes
  | fails i =>
      obtain ⟨c, hi, hfails⟩ := at_some h
      exact fails_moves hi hfails
  | noInstance i =>
      obtain ⟨c, hi, hno⟩ := at_some h
      split at hno
      · rename_i hstart
        subst hstart
        obtain rfl := Option.some.inj hno
        exact Moves.quiet hi (quiet_outside rfl (Or.inl rfl))
      · cases hno
  | transacts i accepted replied =>
      obtain ⟨c, hi, htransact⟩ := at_some h
      exact transact_moves hi htransact
  | executes i replied =>
      obtain ⟨c, hi, hexecute⟩ := at_some h
      cases c with
      | executing nonce =>
          obtain rfl := Option.some.inj hexecute
          exact Moves.executes replied hi
      | _ => cases hexecute
  -- a block takes an execute that was submitted and not yet mined
  | mines =>
      rw [Node.react] at h
      split at h
      · obtain ⟨rfl, -⟩ := Prod.mk.inj (Option.some.inj h)
        exact Moves.mines
      · cases h

/-- One goroutine at a time holds the mutex. -/
theorem Moves.mutex (hmoves : Moves n e n')
    (h : Exclusive Call.holdsMx n.calls) : Exclusive Call.holdsMx n'.calls := by
  cases hmoves with
  | spawns c hmx hnonce hsign =>
      refine exclusive_concat h (fun hcon => ?_)
      rw [hmx] at hcon
      cases hcon
  | quiet hi hquiet => exact exclusive_set h hi hquiet.mutex
  | reads hi => exact exclusive_set h hi (fun _ => Or.inl rfl)
  | spreadReads hi =>
      exact exclusive_set h hi (fun hcon => by cases hcon)
  | sends accepted hi hnonce hnone hquiet => exact exclusive_set h hi hquiet.mutex
  | getsNonce hi => exact exclusive_set h hi (fun _ => Or.inl rfl)
  | signs hi => exact exclusive_set h hi (fun _ => Or.inl rfl)
  | executes replied hi => exact exclusive_set h hi (fun _ => Or.inl rfl)
  | mines => exact h

end Inversion

/-! ## The nonce of the account -/

/-- No nonce is used twice: once the chain has accepted a transaction, none is
    sent with its nonce. -/
def NoReuse (sent : List Sent) : Prop :=
  sent.Pairwise (fun t t' => t.accepted = true → t.nonce ≠ t'.nonce)

instance (sent : List Sent) : Decidable (NoReuse sent) :=
  inferInstanceAs (Decidable (List.Pairwise _ _))

/-- Where the chain refuses nothing, all nonces are different. -/
theorem NoReuse.nodup {sent : List Sent} (h : NoReuse sent)
    (hall : ∀ t ∈ sent, t.accepted = true) : (sent.map Sent.nonce).Nodup := by
  rw [List.Nodup, List.pairwise_map]
  exact List.Pairwise.imp_of_mem (fun ht _ hne => hne (hall _ ht)) h

/-- The steps that keep clear of `SpreadNewEpoch`: `ReceiveRequestV2` does not
    read the nonce while `SpreadNewEpoch` has read one and has not sent its
    transaction, and `SpreadNewEpoch` does not read it while anybody has. -/
def keepsClear (n : Node) : Event → Bool
  | .goes i =>
      match n.calls[i]? with
      | some (.callOpt _) => free Call.spreadsNonce n.calls
      | some .spreadCallOpt => free Call.hasNonce n.calls
      | _ => true
  | _ => true

/-- One goroutine at a time has read the nonce and not used it; what it has
    read is still the pending nonce, which is above every nonce taken. -/
structure Numbered (n : Node) : Prop where
  mutex : Exclusive Call.holdsMx n.calls
  reader : Exclusive Call.hasNonce n.calls
  current : ∀ c ∈ n.calls, ∀ nonce, c.accountNonce = some nonce →
    nonce = n.accepted
  taken : ∀ t ∈ n.sent, t.accepted = true → t.nonce < n.accepted
  noReuse : NoReuse n.sent

section Account

variable {n n' : Node} {e : Event} {i : ℕ} {c c' : Call}

/-- A call has a nonce if there is one. -/
theorem hasNonce_iff : c.hasNonce = true ↔ ∃ nonce, c.accountNonce = some nonce :=
  Option.isSome_iff_exists

/-- Outside `SpreadNewEpoch` a nonce is read and used under the mutex. -/
theorem holdsMx_of_hasNonce (h : c.hasNonce = true)
    (hspread : c.spreadsNonce = false) : c.holdsMx = true := by
  cases c with
  | fillingOpts hasInstance nonce => rfl
  | calling hasInstance nonce => rfl
  | spreadFillingOpts nonce => cases hspread
  | spreadCalling nonce => cases hspread
  | _ => cases h

/-- Nobody has a nonce when `ReceiveRequestV2` reads it. -/
theorem Numbered.free_of_callOpt {hasInstance : Bool} (h : Numbered n)
    (hi : n.calls[i]? = some (.callOpt hasInstance))
    (hclear : free Call.spreadsNonce n.calls = true) :
    free Call.hasNonce n.calls = true := by
  refine free_iff.mpr (fun q hq => ?_)
  by_contra hnonce
  rw [Bool.not_eq_false] at hnonce
  obtain ⟨j, hj⟩ := List.mem_iff_getElem?.mp hq
  have hmx := holdsMx_of_hasNonce hnonce (free_iff.mp hclear q hq)
  obtain rfl := h.mutex j i q _ hj hi hmx rfl
  obtain rfl := Option.some.inj (hi.symm.trans hj)
  cases hnonce

/-- A goroutine that moves and has no nonce, or the one it had, or the pending
    one. -/
theorem Numbered.current_set (h : Numbered n)
    (hc' : ∀ nonce, c'.accountNonce = some nonce → nonce = n.accepted) :
    ∀ q ∈ n.calls.set i c', ∀ nonce, q.accountNonce = some nonce →
      nonce = n.accepted := by
  intro q hq
  rcases List.mem_or_eq_of_mem_set hq with hold | rfl
  · exact h.current q hold
  · exact hc'

/-- A goroutine moves and the account is left alone. -/
theorem Numbered.quiet (h : Numbered n) (hi : n.calls[i]? = some c)
    (hnonce : c'.accountNonce = none ∨ c'.accountNonce = c.accountNonce)
    (hmutex : Exclusive Call.holdsMx n'.calls)
    (hcalls : n'.calls = n.calls.set i c') (hsent : n'.sent = n.sent)
    (haccepted : n'.accepted = n.accepted) : Numbered n' := by
  refine ⟨hmutex, ?_, ?_, ?_, ?_⟩
  · rw [hcalls]
    refine exclusive_set h.reader hi (fun hhas => Or.inl ?_)
    rcases hnonce with hnone | hsame
    · rw [Call.hasNonce, hnone] at hhas
      cases hhas
    · rwa [Call.hasNonce, hsame] at hhas
  · rw [hcalls, haccepted]
    refine h.current_set (fun nonce hsome => ?_)
    rcases hnonce with hnone | hsame
    · rw [hnone] at hsome
      cases hsome
    · exact h.current c (List.mem_of_getElem? hi) nonce (hsame ▸ hsome)
  · rw [hsent, haccepted]
    exact h.taken
  · rw [hsent]
    exact h.noReuse

/-- A goroutine reads the pending nonce while nobody has one. -/
theorem Numbered.reads (h : Numbered n) (hi : n.calls[i]? = some c)
    (hfree : free Call.hasNonce n.calls = true)
    (hnonce : c'.accountNonce = some n.accepted)
    (hmutex : Exclusive Call.holdsMx (n.move i c').calls) :
    Numbered (n.move i c') := by
  refine ⟨hmutex, exclusive_set h.reader hi (fun _ => Or.inr hfree), ?_,
    h.taken, h.noReuse⟩
  refine h.current_set (fun nonce hsome => ?_)
  exact Option.some.inj (hsome.symm.trans hnonce)

/-- The transaction with the pending nonce is sent. -/
theorem Numbered.sends {nonce : ℕ} (h : Numbered n) (accepted : Bool)
    (hi : n.calls[i]? = some c) (hnonce : c.accountNonce = some nonce)
    (hnone : c'.accountNonce = none)
    (hmutex : Exclusive Call.holdsMx (n.calls.set i c')) :
    Numbered ((n.send nonce accepted).move i c') := by
  -- the nonce read is still the next one: nobody has sent since
  obtain rfl : nonce = n.accepted :=
    h.current c (List.mem_of_getElem? hi) nonce hnonce
  have hhas : c.hasNonce = true := hasNonce_iff.mpr ⟨_, hnonce⟩
  refine ⟨hmutex, ?_, ?_, ?_, ?_⟩
  · refine exclusive_set h.reader hi (fun hhas' => ?_)
    rw [Call.hasNonce, hnone] at hhas'
    cases hhas'
  · -- whoever else had a nonce would be this goroutine
    intro q hq m hm
    obtain ⟨j, hj⟩ := List.mem_iff_getElem?.mp hq
    rcases getElem?_set_cases hj with ⟨-, rfl⟩ | ⟨hji, hold⟩
    · rw [hnone] at hm
      cases hm
    · exact absurd (h.reader j i q c hold hi (hasNonce_iff.mpr ⟨m, hm⟩) hhas)
        hji
  -- the count of the node goes up past every accepted nonce
  · intro t ht hacc
    show t.nonce < if accepted then max n.accepted (n.accepted + 1)
      else n.accepted
    rcases List.mem_append.mp ht with hold | hnew
    · have hlt := h.taken t hold hacc
      split <;> omega
    · obtain rfl := List.mem_singleton.mp hnew
      change accepted = true at hacc
      rw [if_pos hacc]
      exact lt_max_of_lt_right (Nat.lt_succ_self _)
  · refine List.pairwise_append.mpr ⟨h.noReuse, List.pairwise_singleton _ _, ?_⟩
    intro t ht t' ht' hacc
    obtain rfl := List.mem_singleton.mp ht'
    exact Nat.ne_of_lt (h.taken t ht hacc)

/-- **ONE STEP** that keeps clear of `SpreadNewEpoch`. -/
theorem Moves.numbered (hmoves : Moves n e n') (h : Numbered n)
    (hclear : keepsClear n e = true) : Numbered n' := by
  have hmutex := hmoves.mutex h.mutex
  cases hmoves with
  | spawns c hmx hnonce hsign =>
      refine ⟨hmutex, ?_, ?_, h.taken, h.noReuse⟩
      · refine exclusive_concat h.reader (fun hhas => ?_)
        rw [Call.hasNonce, hnonce] at hhas
        cases hhas
      · intro q hq nonce hsome
        rcases List.mem_append.mp hq with hold | hnew
        · exact h.current q hold nonce hsome
        · rw [List.mem_singleton.mp hnew, hnonce] at hsome
          cases hsome
  | quiet hi hquiet => exact h.quiet hi hquiet.account hmutex rfl rfl rfl
  | reads hi =>
      rw [keepsClear, hi] at hclear
      exact h.reads hi (h.free_of_callOpt hi hclear) rfl hmutex
  | spreadReads hi =>
      rw [keepsClear, hi] at hclear
      exact h.reads hi hclear rfl hmutex
  | sends accepted hi hnonce hnone hquiet =>
      exact h.sends accepted hi hnonce hnone hmutex
  | getsNonce hi => exact h.quiet hi (Or.inl rfl) hmutex rfl rfl rfl
  | signs hi => exact h.quiet hi (Or.inl rfl) hmutex rfl rfl rfl
  | executes replied hi => exact h.quiet hi (Or.inl rfl) hmutex rfl rfl rfl
  | mines => exact ⟨hmutex, h.reader, h.current, h.taken, h.noReuse⟩

end Account

/-- **NO ACCOUNT NONCE IS USED TWICE** along every run that keeps clear of
    `SpreadNewEpoch`: only the nonce of a refused transaction is sent again. -/
theorem account_nonces_unique (canUseGsn : Bool) (accepted firstNonce : ℕ) :
    ∀ tr n, Run (Guarded (Fires Node.react)
        (fun n l => keepsClear n l.1 = true))
        (newNode canUseGsn accepted firstNonce) tr n →
      NoReuse n.sent ∧ ((∀ t ∈ n.sent, t.accepted = true) →
        (n.sent.map Sent.nonce).Nodup) := by
  intro tr n hrun
  have h : Numbered n := by
    refine hrun.invariant ⟨exclusive_nil _, exclusive_nil _, ?_, ?_,
      List.Pairwise.nil⟩ (fun _ _ _ ha hstep =>
        (react_moves hstep.1).numbered ha hstep.2)
    · intro c hc
      cases hc
    · intro t ht
      cases ht
  exact ⟨h.noReuse, h.noReuse.nodup⟩

/-- `ReceiveRequestV2` up to where it has read its nonce, as goroutine `i` that
    finds the mutex free. -/
def readsNonce (i : ℕ) : List Event := [.goes i, .goes i, .goes i]

/-- Requests and a new epoch, one after the other, without and with a refused
    transaction. -/
theorem account_nonces_unique_sample :
    (∃ tr n, Run (Guarded (Fires Node.react)
        (fun n l => keepsClear n l.1 = true)) (newNode false 5 0) tr n ∧
      n.sent = [⟨5, true⟩, ⟨6, true⟩] ∧ (n.sent.map Sent.nonce).Nodup) ∧
    ∃ tr n, Run (Guarded (Fires Node.react)
        (fun n l => keepsClear n l.1 = true)) (newNode false 5 0) tr n ∧
      n.sent = [⟨5, true⟩, ⟨6, false⟩, ⟨6, true⟩] ∧ NoReuse n.sent := by
  constructor
  · obtain ⟨tr, n, hrun, hn⟩ := exists_run
      (fun _ (n : Node) => n.sent = [⟨5, true⟩, ⟨6, true⟩])
      (show (Transition.execute (restrict keepsClear Node.react)
        (newNode false 5 0)
        ([.receiveRequestV2, .spreadNewEpoch] ++ readsNonce 0
          ++ [.goes 0, .transacts 0 true true, .goes 1, .goes 1, .goes 1,
            .transacts 1 true true])).any _ = true by decide +kernel)
    exact ⟨tr, n, restrict_run hrun, hn,
      (account_nonces_unique false 5 0 tr n (restrict_run hrun)).2
        (by rw [hn]; decide)⟩
  · obtain ⟨tr, n, hrun, hn⟩ := exists_run
      (fun _ (n : Node) => n.sent = [⟨5, true⟩, ⟨6, false⟩, ⟨6, true⟩])
      (show (Transition.execute (restrict keepsClear Node.react)
        (newNode false 5 0)
        ([.receiveRequestV2, .spreadNewEpoch, .receiveRequestV2] ++ readsNonce 0
          ++ [.goes 0, .transacts 0 true true, .goes 0] ++ readsNonce 2
          ++ [.goes 2, .transacts 2 false false, .goes 1, .goes 1, .goes 1,
            .transacts 1 true true])).any _ = true by decide +kernel)
    exact ⟨tr, n, restrict_run hrun, hn,
      (account_nonces_unique false 5 0 tr n (restrict_run hrun)).1⟩

/-- **AN ACCOUNT NONCE IS USED TWICE**: `SpreadNewEpoch` reads the nonce that
    `ReceiveRequestV2` is about to use under the mutex; the chain refuses the
    second transaction, or takes it in place of the first. -/
theorem account_nonce_reused :
    (∃ tr n, Run (Fires Node.react) (newNode false 0 0) tr n ∧
      n.sent = [⟨0, true⟩, ⟨0, false⟩] ∧ ¬ NoReuse n.sent) ∧
    ∃ tr n, Run (Fires Node.react) (newNode false 0 0) tr n ∧
      n.sent = [⟨0, true⟩, ⟨0, true⟩] ∧ ¬ NoReuse n.sent := by
  constructor
  · exact exists_run
      (fun _ (n : Node) => n.sent = [⟨0, true⟩, ⟨0, false⟩] ∧ ¬ NoReuse n.sent)
      (show (Transition.execute Node.react (newNode false 0 0)
        ([.receiveRequestV2, .spreadNewEpoch] ++ readsNonce 0
          ++ [.goes 1, .goes 1, .goes 0, .transacts 0 true true, .goes 1,
            .transacts 1 false false])).any _ = true by decide +kernel)
  · exact exists_run
      (fun _ (n : Node) => n.sent = [⟨0, true⟩, ⟨0, true⟩] ∧ ¬ NoReuse n.sent)
      (show (Transition.execute Node.react (newNode false 0 0)
        ([.receiveRequestV2, .spreadNewEpoch] ++ readsNonce 0
          ++ [.goes 1, .goes 1, .goes 0, .transacts 0 true true, .goes 1,
            .transacts 1 true true])).any _ = true by decide +kernel)

/-! ## The nonce of the forwarder -/

/-- The steps that wait for the forwarder: its nonce is read only when every
    request signed before has been mined. -/
def awaitsMining (n : Node) : Event → Bool
  | .goes i =>
      match n.calls[i]? with
      | some .gettingNonce => n.signed.length = n.mined
      | _ => true
  | _ => true

/-- The nonces signed count up from the first one, and the one that was read
    and is not signed yet is the next. -/
structure Consecutive (n : Node) : Prop where
  mutex : Exclusive Call.holdsMx n.calls
  next : ∀ nonce, Call.signing nonce ∈ n.calls →
    nonce = n.firstNonce + n.signed.length
  counted : n.signed
    = (List.range n.signed.length).map (fun k => n.firstNonce + k)

section Forwarder

variable {n n' : Node} {e : Event} {i : ℕ} {c c' : Call}

/-- A goroutine moves and nothing is read or signed. -/
theorem Consecutive.quiet (h : Consecutive n)
    (hsign : ∀ nonce, c' ≠ .signing nonce)
    (hmutex : Exclusive Call.holdsMx n'.calls)
    (hcalls : n'.calls = n.calls.set i c') (hsigned : n'.signed = n.signed)
    (hfirst : n'.firstNonce = n.firstNonce) : Consecutive n' := by
  refine ⟨hmutex, ?_, ?_⟩
  · rw [hcalls, hsigned, hfirst]
    intro nonce hmem
    rcases List.mem_or_eq_of_mem_set hmem with hold | heq
    · exact h.next nonce hold
    · exact absurd heq.symm (hsign nonce)
  · rw [hsigned, hfirst]
    exact h.counted

/-- **ONE STEP** that waits for the forwarder. -/
theorem Moves.consecutive (hmoves : Moves n e n') (h : Consecutive n)
    (hwait : awaitsMining n e = true) : Consecutive n' := by
  have hmutex := hmoves.mutex h.mutex
  cases hmoves with
  | spawns c hmx hnonce hsign =>
      refine ⟨hmutex, fun nonce hmem => ?_, h.counted⟩
      rcases List.mem_append.mp hmem with hold | hnew
      · exact h.next nonce hold
      · exact absurd (List.mem_singleton.mp hnew).symm (hsign nonce)
  | quiet hi hquiet => exact h.quiet hquiet.forwarder hmutex rfl rfl rfl
  | reads hi => exact h.quiet (by simp) hmutex rfl rfl rfl
  | spreadReads hi => exact h.quiet (by simp) hmutex rfl rfl rfl
  | sends accepted hi hnonce hnone hquiet =>
      exact h.quiet hquiet.forwarder hmutex rfl rfl rfl
  -- all that was signed is mined, so the forwarder's nonce is the next
  | getsNonce hi =>
      rw [awaitsMining, hi, decide_eq_true_eq] at hwait
      refine ⟨hmutex, fun nonce hmem => ?_, h.counted⟩
      rcases List.mem_or_eq_of_mem_set hmem with hold | heq
      · exact h.next nonce hold
      · obtain rfl := Call.signing.inj heq
        show n.firstNonce + n.mined = n.firstNonce + n.signed.length
        rw [hwait]
  | @signs i nonce hi =>
      obtain rfl := h.next nonce (List.mem_of_getElem? hi)
      refine ⟨hmutex, fun m hmem => ?_, ?_⟩
      · -- another signer would hold the mutex too
        obtain ⟨j, hj⟩ := List.mem_iff_getElem?.mp hmem
        rcases getElem?_set_cases hj with ⟨-, heq⟩ | ⟨hji, hold⟩
        · cases heq
        · exact absurd (h.mutex j i _ _ hold hi rfl rfl) hji
      · show n.signed ++ [n.firstNonce + n.signed.length] = _
        conv_lhs => rw [h.counted]
        simp only [Node.move, List.length_append, List.length_map,
          List.length_range, List.length_singleton, List.range_succ,
          List.map_append, List.map_singleton]
  | executes replied hi => exact h.quiet (by simp) hmutex rfl rfl rfl
  | mines => exact ⟨hmutex, h.next, h.counted⟩

end Forwarder

/-- **NO FORWARDER NONCE IS SIGNED TWICE** along every run that waits for the
    forwarder. -/
theorem forwarder_nonces_unique (canUseGsn : Bool) (accepted firstNonce : ℕ) :
    ∀ tr n, Run (Guarded (Fires Node.react)
        (fun n l => awaitsMining n l.1 = true))
        (newNode canUseGsn accepted firstNonce) tr n → n.signed.Nodup := by
  intro tr n hrun
  have h : Consecutive n := by
    refine hrun.invariant ⟨exclusive_nil _, ?_, rfl⟩ (fun _ _ _ ha hstep =>
      (react_moves hstep.1).consecutive ha hstep.2)
    intro nonce hmem
    cases hmem
  rw [h.counted]
  exact List.nodup_range.map (fun a b hab => Nat.add_left_cancel hab)

/-- `ReceiveRequestV2` on the GSN path up to where the server has answered and
    the mutex is free again. -/
def forwards (i : ℕ) : List Event :=
  [.goes i, .goes i, .goes i, .goes i, .goes i, .executes i true, .goes i]

/-- Two requests, the first one mined in between. -/
theorem forwarder_nonces_unique_sample :
    ∃ tr n, Run (Guarded (Fires Node.react)
        (fun n l => awaitsMining n l.1 = true)) (newNode true 0 3) tr n ∧
      n.signed = [3, 4] ∧ n.signed.Nodup := by
  obtain ⟨tr, n, hrun, hn⟩ := exists_run
    (fun _ (n : Node) => n.signed = [3, 4])
    (show (Transition.execute (restrict awaitsMining Node.react)
      (newNode true 0 3)
      ([.receiveRequestV2, .receiveRequestV2] ++ forwards 0 ++ [.mines]
        ++ forwards 1)).any _ = true by decide +kernel)
  exact ⟨tr, n, restrict_run hrun, hn,
    forwarder_nonces_unique true 0 3 tr n (restrict_run hrun)⟩

/-- **A FORWARDER NONCE IS SIGNED TWICE**: the first request is submitted and
    the mutex free again, but the request is not mined when the second one
    reads the nonce. -/
theorem forwarder_nonce_reused :
    ∃ tr n, Run (Fires Node.react) (newNode true 0 3) tr n ∧
      n.signed = [3, 3] ∧ ¬ n.signed.Nodup :=
  exists_run (fun _ (n : Node) => n.signed = [3, 3] ∧ ¬ n.signed.Nodup)
    (show (Transition.execute Node.react (newNode true 0 3)
      ([.receiveRequestV2, .receiveRequestV2] ++ forwards 0
        ++ forwards 1)).any _ = true by decide +kernel)

end RelayerNonce
