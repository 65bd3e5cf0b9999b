import Relayer.TransitionProofs

/-! # Waiting for a transaction

    Whoever has sent a transaction polls for its receipt:
    `extChains/eth/client_methods.go` (`WaitTransaction`,
    `WaitForBlockCompletion`) and their older forms in `helpers/helper.go`.

    * `pollLoop` is the loop of the four functions that poll in the caller's own
      goroutine; they differ in the deadline and in what they make of a receipt,
      and without a deadline no transaction is given up (`never_given_up`);
    * **`wait_transaction_outcome`**: `WaitTransaction` returns soon after its
      timeout at the latest, a receipt it returns is the one on the chain, and it
      returns it if the transaction was mined early enough;
    * `Completion` is `WaitForBlockCompletion`, whose polls are made by a
      goroutine of its own, and `honoursContext` what is assumed of these;
      **`worker_left_behind`**: this goroutine returns only if a receipt was
      found, and is left behind at every timeout. -/

namespace RelayerReceipt

open Transition

/-! ## Answers -/

/-- `types.Receipt`. -/
structure Receipt where
  txHash : String
  status : ℕ
  deriving DecidableEq, Repr

/-- An error of an rpc call. -/
inductive RpcError where
  /-- `ethereum.NotFound`. -/
  | notFound
  | other (text : String)
  deriving DecidableEq, Repr

/-- What `TransactionReceipt` returns. -/
structure Answer where
  receipt : Option Receipt
  err : Option RpcError
  deriving DecidableEq, Repr

/-- A poll: the time the call takes, and its answer. -/
structure Poll where
  takes : ℕ
  answer : Answer
  deriving DecidableEq, Repr

/-- `time.Millisecond * 500`. -/
def pollInterval : ℕ := 500000000

/-- The polling loop, from the time `now`: what it returns and when, if the polls
    suffice.  The context is looked at before each poll. -/
def pollLoop {α : Type} (deadline : Option ℕ) (timedOut : α)
    (verdict : Answer → Option α) : ℕ → List Poll → Option (α × ℕ)
  | now, [] => if deadline.any (· ≤ now) then some (timedOut, now) else none
  | now, p :: ps =>
      if deadline.any (· ≤ now) then some (timedOut, now)
      else
        match verdict p.answer with
        | some a => some (a, now + p.takes)
        | none =>
            pollLoop deadline timedOut verdict (now + p.takes + pollInterval) ps

/-- What is made of an answer: without a receipt there is another poll, whatever
    the error. -/
def verdictWith {α : Type} (failed : String → α) (receipt : Receipt → α)
    (a : Answer) : Option α :=
  match a.receipt with
  | none => none
  | some r =>
      match a.err with
      | some .notFound => none
      | some (.other text) => some (failed text)
      | none => some (receipt r)

/-- The texts of the errors. -/
def timedOutText (txHash : String) : String :=
  "wait for transaction " ++ txHash ++ " timed out"

def failedText (txHash err : String) : String :=
  "transaction " ++ txHash ++ " failed: " ++ err

def revertedText (txHash : String) : String := "failed transaction: " ++ txHash

/-- The receipt of a transaction that was mined with status 1, and an error of a
    receipt with any other status. -/
def checkStatus (txHash : String) (r : Receipt) : Except String Receipt :=
  if r.status ≠ 1 then .error (revertedText txHash) else .ok r

/-- `client.WaitTransaction`, from its start. -/
def waitTransaction (blockTimeout : ℕ) (txHash : String) (polls : List Poll) :
    Option (Except String Receipt × ℕ) :=
  pollLoop (some blockTimeout) (.error (timedOutText txHash))
    (verdictWith (fun err => .error (failedText txHash err)) (checkStatus txHash))
    0 polls

/-- `helpers.WaitTransactionDeadline`. -/
def waitTransactionDeadline (timeout : ℕ) (txHash : String)
    (polls : List Poll) : Option (Except String Receipt × ℕ) :=
  pollLoop (some timeout) (.error (timedOutText txHash))
    (verdictWith (fun err => .error (failedText txHash err)) (checkStatus txHash))
    0 polls

/-- `helpers.WaitTransaction`: without a deadline. -/
def helperWaitTransaction (txHash : String) (polls : List Poll) :
    Option (Except String Receipt × ℕ) :=
  pollLoop none (.error (timedOutText txHash))
    (verdictWith (fun err => .error (failedText txHash err)) (checkStatus txHash))
    0 polls

/-- `helpers.WaitTransactionWithRetry`: without a deadline, and the reason of a
    failure is asked for with `CallContract`. -/
def waitTransactionWithRetry (callContract : Except String String)
    (txHash : String) (polls : List Poll) : Option (Except String Receipt × ℕ) :=
  pollLoop none (.error (timedOutText txHash))
    (verdictWith (fun err => .error (failedText txHash err)) fun r =>
      if r.status ≠ 1 then
        match callContract with
        | .error err => .error err
        | .ok code => .error (failedText txHash code)
      else .ok r)
    0 polls

/-! ## The chain -/

/-- A property of every poll and of the time at which it starts. -/
def Along (Q : ℕ → Poll → Prop) : ℕ → List Poll → Prop
  | _, [] => True
  | now, p :: ps => Q now p ∧ Along Q (now + p.takes + pollInterval) ps

/-- A poll that answers with nothing but the receipt `r` of the transaction that
    was mined at the time `T`. -/
def Truthful (T : ℕ) (r : Receipt) (now : ℕ) (p : Poll) : Prop :=
  ∀ r', p.answer.receipt = some r' →
    r' = r ∧ p.answer.err = none ∧ T ≤ now + p.takes

/-- A poll that finds the receipt once the transaction is mined. -/
def Responsive (T : ℕ) (r : Receipt) (now : ℕ) (p : Poll) : Prop :=
  T ≤ now → p.answer = ⟨some r, none⟩

section
variable {α : Type} (timedOut : α) (failed : String → α) (receipt : Receipt → α)
  {timeout callTimeout T now : ℕ} {r : Receipt} {polls : List Poll}

/-- What a truthful poll is made of. -/
theorem Truthful.verdict {p : Poll} (h : Truthful T r now p) :
    (p.answer.receipt = none ∧ verdictWith failed receipt p.answer = none) ∨
    (verdictWith failed receipt p.answer = some (receipt r) ∧
      T ≤ now + p.takes) := by
  unfold verdictWith
  cases hreceipt : p.answer.receipt with
  | none => exact Or.inl ⟨rfl, rfl⟩
  | some r' =>
      obtain ⟨rfl, herr, htime⟩ := h r' hreceipt
      rw [herr]
      exact Or.inr ⟨rfl, htime⟩

/-- A loop over enough polls ends, a call and a sleep after its deadline at the
    latest, with the deadline or with the receipt on the chain. -/
theorem pollLoop_ends (htruth : Along (Truthful T r) now polls)
    (htakes : ∀ p ∈ polls, p.takes ≤ callTimeout)
    (henough : timeout ≤ now + polls.length * pollInterval)
    (hnow : now ≤ timeout + callTimeout + pollInterval) :
    ∃ a t, pollLoop (some timeout) timedOut (verdictWith failed receipt) now polls
        = some (a, t) ∧
      t ≤ timeout + callTimeout + pollInterval ∧
      ((a = timedOut ∧ timeout ≤ t) ∨ (a = receipt r ∧ T ≤ t)) := by
  induction polls generalizing now with
  | nil =>
      have hexpired : timeout ≤ now := by simpa using henough
      refine ⟨timedOut, now, ?_, hnow, Or.inl ⟨rfl, hexpired⟩⟩
      simp [pollLoop, hexpired]
  | cons p ps ih =>
      have hp : p.takes ≤ callTimeout := htakes p List.mem_cons_self
      rw [pollLoop]
      by_cases hexpired : timeout ≤ now
      · refine ⟨timedOut, now, ?_, hnow, Or.inl ⟨rfl, hexpired⟩⟩
        simp [hexpired]
      · simp only [Option.any_some, decide_eq_true_eq, if_neg hexpired]
        rcases htruth.1.verdict failed receipt with
          ⟨-, hnone⟩ | ⟨hsome, htime⟩
        · rw [hnone]
          refine ih htruth.2 (fun q hq => htakes q (List.mem_cons_of_mem _ hq))
            ?_ (by omega)
          rw [List.length_cons, Nat.succ_mul] at henough
          omega
        · rw [hsome]
          exact ⟨_, _, rfl, by omega, Or.inr ⟨rfl, htime⟩⟩

/-- A transaction that is mined a call and a sleep before the deadline is
    found. -/
theorem pollLoop_finds (htruth : Along (Truthful T r) now polls)
    (hresponsive : Along (Responsive T r) now polls)
    (htakes : ∀ p ∈ polls, p.takes ≤ callTimeout)
    (henough : timeout ≤ now + polls.length * pollInterval)
    (hnow : now < T + callTimeout + pollInterval)
    (hearly : T + callTimeout + pollInterval ≤ timeout) :
    ∃ t, pollLoop (some timeout) timedOut (verdictWith failed receipt) now polls =
      some (receipt r, t) := by
  induction polls generalizing now with
  | nil =>
      have hexpired : timeout ≤ now := by simpa using henough
      omega
  | cons p ps ih =>
      have hp : p.takes ≤ callTimeout := htakes p List.mem_cons_self
      have hexpired : ¬ timeout ≤ now := by omega
      rw [pollLoop]
      simp only [Option.any_some, decide_eq_true_eq, if_neg hexpired]
      rcases htruth.1.verdict failed receipt with
        ⟨hreceipt, hnone⟩ | ⟨hsome, -⟩
      · -- without a receipt the transaction was not mined yet
        have hlate : now < T := by
          refine Nat.lt_of_not_le fun hle => ?_
          rw [hresponsive.1 hle] at hreceipt
          cases hreceipt
        rw [hnone]
        refine ih htruth.2 hresponsive.2
          (fun q hq => htakes q (List.mem_cons_of_mem _ hq)) ?_ (by omega)
        rw [List.length_cons, Nat.succ_mul] at henough
        omega
      · rw [hsome]
        exact ⟨_, rfl⟩

/-- Without a deadline the loop goes on as long as there is no receipt. -/
theorem pollLoop_waits (h : ∀ p ∈ polls, p.answer.receipt = none) :
    pollLoop none timedOut (verdictWith failed receipt) now polls = none := by
  induction polls generalizing now with
  | nil => rfl
  | cons p ps ih =>
      have hnone : verdictWith failed receipt p.answer = none := by
        rw [verdictWith, h p List.mem_cons_self]
      rw [pollLoop, hnone]
      exact ih fun q hq => h q (List.mem_cons_of_mem _ hq)

end

/-- The two functions without a deadline never give a transaction up. -/
theorem never_given_up {polls : List Poll} (txHash : String)
    (callContract : Except String String)
    (h : ∀ p ∈ polls, p.answer.receipt = none) :
    helperWaitTransaction txHash polls = none ∧
    waitTransactionWithRetry callContract txHash polls = none :=
  ⟨pollLoop_waits _ _ _ h, pollLoop_waits _ _ _ h⟩

theorem waitTransactionDeadline_eq :
    waitTransactionDeadline = waitTransaction := rfl

/-- Two texts around one hash, told apart by their length. -/
theorem append_ne_append {a b c x : String}
    (h : a.length < b.length + c.length) : b ++ x ++ c ≠ a ++ x := by
  intro heq
  have hlength := congrArg String.length heq
  rw [String.length_append, String.length_append, String.length_append] at hlength
  omega

theorem timedOutText_ne (txHash : String) :
    timedOutText txHash ≠ revertedText txHash :=
  append_ne_append (by decide +kernel)

/-- **THE OUTCOME OF A WAIT**: whatever the polls of a transaction answer that is
    mined at the time `T`, as long as they answer no other receipt,
    `WaitTransaction` returns a call and a sleep after its timeout at the latest;
    a receipt it returns is that of the transaction, mined by then and
    successful; and where the polls answer, it does not miss a transaction that
    was mined a call and a sleep before the timeout. -/
theorem wait_transaction_outcome {blockTimeout callTimeout T : ℕ}
    {txHash : String} {r : Receipt} {polls : List Poll}
    (htruth : Along (Truthful T r) 0 polls)
    (htakes : ∀ p ∈ polls, p.takes ≤ callTimeout)
    (henough : blockTimeout ≤ polls.length * pollInterval) :
    ∃ res t, waitTransaction blockTimeout txHash polls = some (res, t) ∧
      t ≤ blockTimeout + callTimeout + pollInterval ∧
      (∀ r', res = .ok r' → r' = r ∧ r.status = 1 ∧ T ≤ t) ∧
      (res = .error (revertedText txHash) → r.status ≠ 1 ∧ T ≤ t) ∧
      (Along (Responsive T r) 0 polls →
        T + callTimeout + pollInterval ≤ blockTimeout →
        res = checkStatus txHash r) := by
  have henough' : blockTimeout ≤ 0 + polls.length * pollInterval := by omega
  obtain ⟨res, t, hloop, htime, hres⟩ := pollLoop_ends
    (.error (timedOutText txHash)) (fun err => .error (failedText txHash err))
    (checkStatus txHash) htruth htakes henough' (Nat.zero_le _)
  refine ⟨res, t, hloop, htime, ?_, ?_, ?_⟩
  -- a receipt returned has the status checked
  · rintro r' rfl
    rcases hres with ⟨hcontra, -⟩ | ⟨hstatus, hT⟩
    · cases hcontra
    · rw [checkStatus] at hstatus
      split at hstatus
      · cases hstatus
      · cases hstatus
        exact ⟨rfl, not_not.mp ‹_›, hT⟩
  -- the texts differ, so this error comes from the status
  · rintro rfl
    rcases hres with ⟨hcontra, -⟩ | ⟨hstatus, hT⟩
    · exact absurd (Except.error.inj hcontra).symm (timedOutText_ne txHash)
    · rw [checkStatus] at hstatus
      split at hstatus
      · exact ⟨‹_›, hT⟩
      · cases hstatus
  -- an early receipt is found before the timeout
  · intro hresponsive hearly
    have hpos : 0 < pollInterval := by decide
    obtain ⟨t', hfound⟩ := pollLoop_finds
      (.error (timedOutText txHash)) (fun err => .error (failedText txHash err))
      (checkStatus txHash) htruth hresponsive htakes henough'
      (by omega) hearly
    rw [hloop] at hfound
    cases hfound
    rfl

/-- A transaction that is mined between two polls. -/
def sampleReceipt : Receipt := ⟨"0x51", 1⟩

def samplePolls : List Poll :=
  [⟨10, ⟨none, some .notFound⟩⟩, ⟨10, ⟨none, some (.other "EOF")⟩⟩,
    ⟨10, ⟨some sampleReceipt, none⟩⟩, ⟨10, ⟨some sampleReceipt, none⟩⟩]

/-- A receipt that appears within the timeout is returned. -/
theorem wait_transaction_outcome_sample :
    ∃ t, waitTransaction 2000000000 "0x51" samplePolls =
      some (.ok sampleReceipt, t) := by
  have htruth : Along (Truthful 900000000 sampleReceipt) 0 samplePolls := by
    simp [Along, Truthful, samplePolls, sampleReceipt, pollInterval]
  have hresponsive : Along (Responsive 900000000 sampleReceipt) 0 samplePolls := by
    simp [Along, Responsive, samplePolls, sampleReceipt, pollInterval]
  obtain ⟨res, t, hwait, -, -, -, hfound⟩ :=
    @wait_transaction_outcome 2000000000 10 900000000 "0x51" sampleReceipt
      samplePolls htruth (by decide) (by decide)
  refine ⟨t, ?_⟩
  rw [hwait, hfound hresponsive (by decide)]
  rfl

/-! ## The goroutine of `WaitForBlockCompletion` -/

/-- Where the goroutine is. -/
inductive Worker where
  /-- In `TransactionReceipt`. -/
  | polling
  /-- At `transaction <- tx`, after which it returns. -/
  | giving (tx : Receipt)
  /-- At its `select`, without a receipt. -/
  | checking
  /-- At `transaction <- nil`; the `break` after it leaves the `select` only. -/
  | givingNil
  | sleeping
  | returned
  deriving DecidableEq, Repr

/-- Where the caller is. -/
inductive Caller where
  | receiving
  /-- At `TransactionByHash`. -/
  | lookingUp (tx : Receipt)
  | returned (status : ℤ) (tx : Option Receipt)
  /-- `txd.GasPrice()` of a transaction that was not found. -/
  | panicked
  deriving DecidableEq, Repr

/-- `WaitForBlockCompletion`: its two goroutines and whether the context has
    ended, by its deadline or by the deferred cancel. -/
structure Completion where
  worker : Worker
  caller : Caller
  ctxDone : Bool
  deriving DecidableEq, Repr

def Completion.start : Completion := ⟨.polling, .receiving, false⟩

inductive CompletionEvent where
  | deadline
  /-- `TransactionReceipt` returns, a receipt or an error. -/
  | answers (tx : Option Receipt)
  | checks
  | wakes
  /-- The unbuffered channel hands over. -/
  | hands
  /-- `TransactionByHash` returns. -/
  | finds (found : Bool)
  deriving DecidableEq, Repr

/-- One step, if it is possible. -/
def Completion.react (s : Completion) :
    CompletionEvent → Option (Completion × Unit)
  | .deadline => some ({ s with ctxDone := true }, ())
  | .answers tx =>
      match s.worker, tx with
      | .polling, some tx => some ({ s with worker := .giving tx }, ())
      | .polling, none => some ({ s with worker := .checking }, ())
      | _, _ => none
  | .checks =>
      match s.worker with
      | .checking =>
          some ({ s with
            worker := if s.ctxDone then .givingNil else .sleeping }, ())
      | _ => none
  | .wakes =>
      match s.worker with
      | .sleeping => some ({ s with worker := .polling }, ())
      | _ => none
  | .hands =>
      match s.worker, s.caller with
      | .giving tx, .receiving =>
          some ({ s with worker := .returned, caller := .lookingUp tx }, ())
      | .givingNil, .receiving =>
          some (⟨.sleeping, .returned (-1) none, true⟩, ())
      | _, _ => none
  | .finds found =>
      match s.caller with
      | .lookingUp tx =>
          if found then
            some ({ s with
              caller := .returned tx.status (some tx)
              ctxDone := true }, ())
          else some ({ s with caller := .panicked }, ())
      | _ => none

/-- What is assumed of `TransactionReceipt`: it returns an error where its
    context has ended. -/
def honoursContext (s : Completion) : CompletionEvent → Bool
  | .answers (some _) => !s.ctxDone
  | _ => true

/-- A run in which it does so. -/
abbrev CompletionRun : Completion → List (CompletionEvent × Unit) →
    Completion → Prop :=
  Run (Guarded (Fires Completion.react) fun s l => honoursContext s l.1 = true)

/-- The caller was given a receipt. -/
def Caller.given : Caller → Bool
  | .lookingUp _ => true
  | .returned _ (some _) => true
  | .panicked => true
  | _ => false

/-- The goroutine goes round its loop, and has no receipt to give. -/
def Worker.isLooping : Worker → Bool
  | .sleeping | .polling | .checking | .givingNil => true
  | _ => false

/-- The caller has returned without a receipt and the goroutine goes on. -/
structure Left (s : Completion) : Prop where
  caller : s.caller = .returned (-1) none
  ctxDone : s.ctxDone = true
  worker : s.worker.isLooping = true

/-- The goroutine has returned where the caller was given a receipt, and is left
    where the caller has returned without one. -/
structure Paired (s : Completion) : Prop where
  returned : s.worker = .returned ↔ s.caller.given = true
  left : ∀ status, s.caller = .returned status none → status = -1 ∧ Left s

variable {s s' : Completion} {e : CompletionEvent} {u : Unit}

/-- The steps. -/
inductive Does (s : Completion) : Completion → Prop
  | deadline : Does s { s with ctxDone := true }
  | receipt {tx : Receipt} (hworker : s.worker = .polling)
      (hctx : s.ctxDone = false) : Does s { s with worker := .giving tx }
  | noReceipt (hworker : s.worker = .polling) :
      Does s { s with worker := .checking }
  | expired (hworker : s.worker = .checking) (hctx : s.ctxDone = true) :
      Does s { s with worker := .givingNil }
  | sleeps (hworker : s.worker = .checking) (hctx : s.ctxDone = false) :
      Does s { s with worker := .sleeping }
  | wakes (hworker : s.worker = .sleeping) : Does s { s with worker := .polling }
  | hands {tx : Receipt} (hworker : s.worker = .giving tx)
      (hcaller : s.caller = .receiving) :
      Does s { s with worker := .returned, caller := .lookingUp tx }
  | handsNil (hworker : s.worker = .givingNil) (hcaller : s.caller = .receiving) :
      Does s ⟨.sleeping, .returned (-1) none, true⟩
  | finds {tx : Receipt} (hcaller : s.caller = .lookingUp tx) :
      Does s { s with
        caller := .returned tx.status (some tx)
        ctxDone := true }
  | panics {tx : Receipt} (hcaller : s.caller = .lookingUp tx) :
      Does s { s with caller := .panicked }

/-- **WHAT A STEP DOES**, while the node honours the context. -/
theorem does_of_react (h : s.react e = some (s', u))
    (hctx : honoursContext s e = true) : Does s s' := by
  cases e with
  | deadline =>
      cases h
      exact Does.deadline
  | answers tx =>
      simp only [Completion.react] at h
      split at h
      · cases h
        exact Does.receipt ‹_› ((Bool.not_eq_true' _).mp hctx)
      · cases h
        exact Does.noReceipt ‹_›
      · cases h
  | checks =>
      simp only [Completion.react] at h
      split at h
      · cases h
        by_cases hctx : s.ctxDone = true
        · rw [if_pos hctx]
          exact Does.expired ‹_› hctx
        · rw [if_neg hctx]
          exact Does.sleeps ‹_› (Bool.eq_false_iff.mpr hctx)
      · cases h
  | wakes =>
      simp only [Completion.react] at h
      split at h
      · cases h
        exact Does.wakes ‹_›
      · cases h
  | hands =>
      simp only [Completion.react] at h
      split at h
      · cases h
        exact Does.hands ‹_› ‹_›
      · cases h
        exact Does.handsNil ‹_› ‹_›
      · cases h
  | finds found =>
      simp only [Completion.react] at h
      split at h
      · split at h
        · cases h
          exact Does.finds ‹_›
        · cases h
          exact Does.panics ‹_›
      · cases h

/-- A goroutine that is left stays so. -/
theorem Left.does (h : Left s) (hdoes : Does s s') : Left s' := by
  obtain ⟨worker, caller, ctxDone⟩ := s
  obtain ⟨hcaller, hctx, hworker⟩ := h
  subst hcaller hctx
  cases hdoes with
  | deadline => exact ⟨rfl, rfl, hworker⟩
  | noReceipt | expired | wakes => exact ⟨rfl, rfl, rfl⟩
  | receipt _ hctx | sleeps _ hctx => cases hctx
  | hands _ hcaller | handsNil _ hcaller | finds hcaller | panics hcaller =>
      cases hcaller

/-- A step of the goroutine within its loop. -/
theorem Paired.works {worker : Worker} (h : Paired s)
    (hdoes : Does s { s with worker := worker }) (hbefore : s.worker ≠ .returned)
    (hafter : worker ≠ .returned) : Paired { s with worker := worker } := by
  refine ⟨⟨fun hreturned => absurd hreturned hafter, fun hgiven => ?_⟩,
    fun status hcaller => ?_⟩
  · exact absurd (h.returned.mpr hgiven) hbefore
  · obtain ⟨hstatus, hleft⟩ := h.left status hcaller
    exact ⟨hstatus, hleft.does hdoes⟩

/-- One step keeps the worker and its caller paired. -/
theorem Paired.does (h : Paired s) (hdoes : Does s s') : Paired s' := by
  have hworker : ∀ {worker}, s.worker = worker → worker ≠ .returned →
      s.worker ≠ .returned := fun heq hne => heq ▸ hne
  cases hdoes with
  | deadline =>
      refine ⟨h.returned, fun status hcaller => ?_⟩
      obtain ⟨hstatus, hleft⟩ := h.left status hcaller
      exact ⟨hstatus, hleft.does Does.deadline⟩
  | receipt hw hctx =>
      exact h.works (Does.receipt hw hctx) (hworker hw (by decide)) (by simp)
  | noReceipt hw =>
      exact h.works (Does.noReceipt hw) (hworker hw (by decide)) (by decide)
  | expired hw hctx =>
      exact h.works (Does.expired hw hctx) (hworker hw (by decide)) (by decide)
  | sleeps hw hctx =>
      exact h.works (Does.sleeps hw hctx) (hworker hw (by decide)) (by decide)
  | wakes hw => exact h.works (Does.wakes hw) (hworker hw (by decide)) (by decide)
  | hands =>
      refine ⟨⟨fun _ => rfl, fun _ => rfl⟩, fun status hcaller => ?_⟩
      cases hcaller
  -- the nil is handed over after the deadline: the worker goes on alone
  | handsNil =>
      refine ⟨by decide, fun status hcaller => ?_⟩
      cases hcaller
      exact ⟨rfl, rfl, rfl, rfl⟩
  | finds hcaller =>
      refine ⟨⟨fun _ => rfl, fun _ => ?_⟩, fun status hc => ?_⟩
      · exact h.returned.mpr (by rw [hcaller]; rfl)
      · cases hc
  | panics hcaller =>
      refine ⟨⟨fun _ => rfl, fun _ => ?_⟩, fun status hc => ?_⟩
      · exact h.returned.mpr (by rw [hcaller]; rfl)
      · cases hc

theorem paired_run {tr : List (CompletionEvent × Unit)}
    (hrun : CompletionRun Completion.start tr s) : Paired s := by
  refine hrun.invariant ⟨by decide, fun status hcaller => ?_⟩
    fun _ _ _ h hfires => h.does (does_of_react hfires.1 hfires.2)
  cases hcaller

theorem left_run {tr : List (CompletionEvent × Unit)} (h : Left s)
    (hrun : CompletionRun s tr s') : Left s' :=
  hrun.invariant h fun _ _ _ h hfires => h.does (does_of_react hfires.1 hfires.2)

/-- The goroutine is blocked in its send, and nobody receives. -/
structure Blocked (s : Completion) : Prop extends Left s where
  sending : s.worker = .givingNil

theorem blocked_run {tr : List (CompletionEvent × Unit)} (h : Blocked s)
    (hrun : CompletionRun s tr s') : Blocked s' := by
  refine hrun.invariant h fun a l b hblocked hfires => ?_
  have hdoes := does_of_react hfires.1 hfires.2
  refine ⟨hblocked.toLeft.does hdoes, ?_⟩
  have hsending := hblocked.sending
  cases hdoes with
  | deadline | finds | panics => exact hsending
  | receipt hw | noReceipt hw | expired hw | sleeps hw | wakes hw | hands hw =>
      cases hsending.symm.trans hw
  | handsNil _ hc => cases hblocked.caller.symm.trans hc

/-- A goroutine that is left is blocked after four steps at most. -/
theorem can_block (h : Left s) :
    ∃ tr s', CompletionRun s tr s' ∧ Blocked s' := by
  obtain ⟨worker, caller, ctxDone⟩ := s
  obtain ⟨hcaller, hctx, hworker⟩ := h
  subst hcaller hctx
  have hchecking : ∃ tr s', CompletionRun
      ⟨.checking, .returned (-1) none, true⟩ tr s' ∧ Blocked s' :=
    ⟨[(.checks, ())], ⟨.givingNil, .returned (-1) none, true⟩, Run.single ⟨rfl, rfl⟩,
      ⟨rfl, rfl, rfl⟩, rfl⟩
  have hpolling : ∃ tr s', CompletionRun
      ⟨.polling, .returned (-1) none, true⟩ tr s' ∧ Blocked s' := by
    obtain ⟨tr, s', hrun, hblocked⟩ := hchecking
    exact ⟨(.answers none, ()) :: tr, s', hrun.head ⟨rfl, rfl⟩, hblocked⟩
  cases worker with
  | polling => exact hpolling
  | checking => exact hchecking
  | givingNil => exact ⟨[], _, Run.refl, ⟨rfl, rfl, rfl⟩, rfl⟩
  | sleeping =>
      obtain ⟨tr, s', hrun, hblocked⟩ := hpolling
      exact ⟨(.wakes, ()) :: tr, s', hrun.head ⟨rfl, rfl⟩, hblocked⟩
  | giving tx => cases hworker
  | returned => cases hworker

/-- **THE WORKER IS LEFT BEHIND**: in every run of `WaitForBlockCompletion` its
    goroutine has returned exactly if a receipt was found.  Once the caller has
    returned without one, with the code -1, the goroutine never returns; it can
    come to block in a send, and then does so for ever. -/
theorem worker_left_behind {tr : List (CompletionEvent × Unit)} {s : Completion}
    (hrun : CompletionRun Completion.start tr s) :
    (s.worker = .returned ↔ s.caller.given = true) ∧
    ∀ status, s.caller = .returned status none →
      status = -1 ∧
      (∀ tr' s', CompletionRun s tr' s' →
        s'.worker ≠ .returned) ∧
      ∃ tr' s', CompletionRun s tr' s' ∧
        ∀ tr'' s'', CompletionRun s' tr'' s'' →
          s''.worker = .givingNil ∧ s''.caller = .returned (-1) none := by
  have hpaired := paired_run hrun
  refine ⟨hpaired.returned, fun status hcaller => ?_⟩
  obtain ⟨hstatus, hleft⟩ := hpaired.left status hcaller
  refine ⟨hstatus, fun tr' s' hrun' hreturned => ?_, ?_⟩
  · have hlooping := (left_run hleft hrun').worker
    rw [hreturned] at hlooping
    cases hlooping
  · obtain ⟨tr', s', hrun', hblocked⟩ := can_block hleft
    refine ⟨tr', s', hrun', fun tr'' s'' hrun'' => ?_⟩
    have hblocked' := blocked_run hblocked hrun''
    exact ⟨hblocked'.sending, hblocked'.caller⟩

/-- No receipt before the deadline: the caller returns, the worker never. -/
theorem worker_left_behind_sample :
    ∃ tr s, CompletionRun Completion.start tr s ∧
      s.caller = .returned (-1) none ∧
      ∀ tr' s', CompletionRun s tr' s' →
        s'.worker ≠ .returned := by
  obtain ⟨tr, s, hrun, hcaller⟩ := exists_run
    (fun _ (s : Completion) => s.caller = .returned (-1) none)
    (show (execute (restrict honoursContext Completion.react) Completion.start
      [.answers none, .checks, .deadline, .wakes, .answers none, .checks,
        .hands]).any _ = true by decide +kernel)
  have hguarded := restrict_run hrun
  exact ⟨tr, s, hguarded, hcaller,
    ((worker_left_behind hguarded).2 _ hcaller).2.1⟩

end RelayerReceipt
