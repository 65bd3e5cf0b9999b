import Mathlib

/-! # Programs that defer

    A program opens resources and defers their closing to its return.  It may
    return at any point, with or without an error, and then the deferred closings
    happen, the last one first; it may also end the whole process, and then they
    do not.

    * `Prog` is the monad of such programs, `run` their meaning;
    * `Triple`: what a program does from states with a precondition, where it goes
      on and where it stops, with a rule for each of its commands;
    * `Holding`: which resources are open, where those of one kind are deferred
      as soon as they are open and nothing is closed by hand;
    * **`Holding.finish`**: then a return closes exactly the resources of this
      kind, in the reverse order, and an exit closes nothing. -/

namespace Defers

variable {ρ ε α β : Type}

/-- What is done to a resource. -/
inductive Action (ρ : Type) where
  | opened (r : ρ)
  | closed (r : ρ)
  deriving DecidableEq, Repr

/-- How a program ends: it returns, or it ends the process. -/
inductive Stop (ε : Type) where
  | returned (err : Option ε)
  | exited (code : ℕ)
  deriving DecidableEq, Repr

/-- What was done so far, and what is deferred, the last one first. -/
structure State (ρ : Type) where
  log : List (Action ρ)
  deferred : List ρ

/-- A program: it goes on with a value, or stops. -/
def Prog (ρ ε α : Type) := State ρ → Except (Stop ε) α × State ρ

/-- A program after another one, unless that has stopped. -/
def goOn (f : α → Prog ρ ε β) :
    Except (Stop ε) α × State ρ → Except (Stop ε) β × State ρ
  | (.ok a, s) => f a s
  | (.error stop, s) => (.error stop, s)

instance monadProg : Monad (Prog ρ ε) where
  pure a := fun s => (.ok a, s)
  bind p f := fun s => goOn f (p s)

def opens (r : ρ) : Prog ρ ε Unit := fun s =>
  (.ok (), { s with log := s.log ++ [.opened r] })

def closes (r : ρ) : Prog ρ ε Unit := fun s =>
  (.ok (), { s with log := s.log ++ [.closed r] })

def defers (r : ρ) : Prog ρ ε Unit := fun s =>
  (.ok (), { s with deferred := r :: s.deferred })

def stops (stop : Stop ε) : Prog ρ ε α := fun s => (.error stop, s)

/-- Return the error of a call, if it has one. -/
def check (err : Option ε) : Prog ρ ε Unit :=
  match err with
  | some e => stops (.returned (some e))
  | none => pure ()

/-- End the process with the error of a call, if it has one. -/
def fatal (err : Option ε) : Prog ρ ε Unit :=
  match err with
  | some _ => stops (.exited 1)
  | none => pure ()

/-- The end of a program, in the state where it stopped. -/
def finish (s : State ρ) : Stop ε → List (Action ρ)
  | .returned _ => s.log ++ s.deferred.map .closed
  | .exited _ => s.log

/-- A program from its start to its end. -/
def run (p : Prog ρ ε Unit) : List (Action ρ) × Stop ε :=
  match p ⟨[], []⟩ with
  | (.ok (), s) => (finish s (.returned none : Stop ε), .returned none)
  | (.error stop, s) => (finish s stop, stop)

/-! ## Pre- and postconditions -/

/-- The end of a program: a value or a stop, each with its condition. -/
def Ends (Q : α → State ρ → Prop) (S : Stop ε → State ρ → Prop) :
    Except (Stop ε) α × State ρ → Prop
  | (.ok a, s) => Q a s
  | (.error stop, s) => S stop s

/-- From every state with `P` the program goes on with `Q` or stops with `S`. -/
def Triple (P : State ρ → Prop) (p : Prog ρ ε α) (Q : α → State ρ → Prop)
    (S : Stop ε → State ρ → Prop) : Prop :=
  ∀ s, P s → Ends Q S (p s)

variable {P : State ρ → Prop} {Q : α → State ρ → Prop} {R : β → State ρ → Prop}
  {S : Stop ε → State ρ → Prop}

theorem Triple.pure {a : α} (h : ∀ s, P s → Q a s) :
    Triple P (Pure.pure a : Prog ρ ε α) Q S :=
  fun s hs => h s hs

theorem Triple.stops {stop : Stop ε} (h : ∀ s, P s → S stop s) :
    Triple P (Defers.stops stop : Prog ρ ε α) Q S :=
  fun s hs => h s hs

/-- Weakening what holds at the end. -/
theorem Triple.mono {Q' : α → State ρ → Prop} {p : Prog ρ ε α}
    (hp : Triple P p Q S) (h : ∀ a s, Q a s → Q' a s) : Triple P p Q' S := by
  intro s hs
  have hend := hp s hs
  generalize p s = r at hend
  obtain ⟨res, s'⟩ := r
  cases res with
  | error stop => exact hend
  | ok a => exact h a s' hend

/-- The rule for programs one after the other. -/
theorem Triple.bind {p : Prog ρ ε α} {f : α → Prog ρ ε β} (hp : Triple P p Q S)
    (hf : ∀ a, Triple (Q a) (f a) R S) : Triple P (p >>= f) R S := by
  intro s hs
  have hmid := hp s hs
  show Ends R S (goOn f (p s))
  generalize p s = r at hmid
  obtain ⟨res, s'⟩ := r
  cases res with
  | error stop => exact hmid
  | ok a => exact hf a s' hmid

/-- `if err != nil { return err }`: after it the state is as before. -/
theorem Triple.check {err : Option ε}
    (h : ∀ e s, P s → S (.returned (some e)) s) :
    Triple P (Defers.check err : Prog ρ ε Unit) (fun _ => P) S := by
  cases err with
  | none => exact Triple.pure fun _ hs => hs
  | some e => exact Triple.stops (h e)

/-- `logrus.Fatal` on an error leaves by `exit(1)`. -/
theorem Triple.fatal {err : Option ε} (h : ∀ s, P s → S (.exited 1) s) :
    Triple P (Defers.fatal err : Prog ρ ε Unit) (fun _ => P) S := by
  cases err with
  | none => exact Triple.pure fun _ hs => hs
  | some e => exact Triple.stops h

/-- A fact that does not depend on the state may be taken out of the
    precondition. -/
theorem Triple.assume {φ : Prop} {p : Prog ρ ε α} (h : φ → Triple P p Q S) :
    Triple (fun s => P s ∧ φ) p Q S :=
  fun s hs => h hs.2 s hs.1

/-- What follows a check has its success for granted. -/
theorem Triple.check_known {err : Option ε}
    (hfail : ∀ e, err = some e → ∀ s, P s → S (.returned (some e)) s) :
    Triple P (Defers.check err : Prog ρ ε Unit) (fun _ s => P s ∧ err = none) S := by
  cases err with
  | none => exact Triple.pure fun _ hs => ⟨hs, rfl⟩
  | some e => exact Triple.stops (hfail e rfl)

/-- The same, keeping that the error was nil where the body goes on. -/
theorem Triple.fatal_known {err : Option ε}
    (hfail : err ≠ none → ∀ s, P s → S (.exited 1) s) :
    Triple P (Defers.fatal err : Prog ρ ε Unit) (fun _ s => P s ∧ err = none) S := by
  cases err with
  | none => exact Triple.pure fun _ hs => ⟨hs, rfl⟩
  | some e => exact Triple.stops (hfail (Option.some_ne_none e))

/-- A program that ends as a return without an error does. -/
theorem Triple.run {p : Prog ρ ε Unit}
    (h : Triple P p (fun _ => S (.returned none)) S) (hP : P ⟨[], []⟩) :
    ∃ stop s, Defers.run p = (finish s stop, stop) ∧ S stop s := by
  have hend := h _ hP
  rw [Defers.run]
  generalize p ⟨[], []⟩ = r at hend
  obtain ⟨res, s⟩ := r
  cases res with
  | error stop => exact ⟨stop, s, rfl, hend⟩
  | ok a => exact ⟨_, s, rfl, hend⟩

/-! ## Openings and closings -/

def openings (log : List (Action ρ)) : List ρ :=
  log.filterMap fun
    | .opened r => some r
    | .closed _ => none

def closings (log : List (Action ρ)) : List ρ :=
  log.filterMap fun
    | .opened _ => none
    | .closed r => some r

theorem openings_opened (log : List (Action ρ)) (r : ρ) :
    openings (log ++ [.opened r]) = openings log ++ [r] :=
  List.filterMap_append

theorem closings_opened (log : List (Action ρ)) (r : ρ) :
    closings (log ++ [.opened r]) = closings log :=
  List.filterMap_append.trans (List.append_nil _)

theorem closings_closed (log : List (Action ρ)) (rs : List ρ) :
    closings (log ++ rs.map .closed) = closings log ++ rs := by
  have hmap : closings (rs.map .closed) = rs := by
    rw [closings, List.filterMap_map]
    exact List.filterMap_some
  rw [closings, List.filterMap_append]
  exact congrArg _ hmap

theorem openings_closed (log : List (Action ρ)) (rs : List ρ) :
    openings (log ++ rs.map .closed) = openings log := by
  have hmap : openings (rs.map .closed) = [] := by
    rw [openings, List.filterMap_map]
    exact List.filterMap_eq_nil_iff.mpr fun _ _ => rfl
  rw [openings, List.filterMap_append]
  exact (congrArg _ hmap).trans (List.append_nil _)

/-- The open resources; those of the kind are deferred, and nothing was closed
    yet. -/
structure Holding (kind : ρ → Bool) (rs : List ρ) (s : State ρ) : Prop where
  opened : openings s.log = rs
  deferred : s.deferred = (rs.filter kind).reverse
  closed : closings s.log = []

variable {kind : ρ → Bool} {rs : List ρ} {r : ρ}

theorem holding_nil : Holding kind [] ⟨[], []⟩ := ⟨rfl, rfl, rfl⟩

/-- The rule of an open without a `defer`. -/
theorem Triple.opens (hr : kind r = false) :
    Triple (Holding kind rs) (Defers.opens r : Prog ρ ε Unit)
      (fun _ => Holding kind (rs ++ [r])) S := by
  intro s hs
  refine ⟨?_, ?_, (closings_opened s.log r).trans hs.closed⟩
  · exact (openings_opened s.log r).trans (congrArg (· ++ [r]) hs.opened)
  · show s.deferred = _
    rw [hs.deferred, List.filter_append, List.filter_singleton, hr]
    simp

/-- A resource that is opened and deferred at once. -/
def acquires (r : ρ) : Prog ρ ε Unit := do
  opens r
  defers r

/-- The rule of an open followed by its `defer Close()`. -/
theorem Triple.acquires (hr : kind r = true) :
    Triple (Holding kind rs) (Defers.acquires r : Prog ρ ε Unit)
      (fun _ => Holding kind (rs ++ [r])) S := by
  intro s hs
  refine ⟨?_, ?_, (closings_opened s.log r).trans hs.closed⟩
  · exact (openings_opened s.log r).trans (congrArg (· ++ [r]) hs.opened)
  · show r :: s.deferred = _
    rw [hs.deferred, List.filter_append, List.filter_singleton, hr]
    simp

/-- What is closed of these openings: after a return the resources of the kind,
    the last one first; after an exit none. -/
def closedOf (kind : ρ → Bool) (rs : List ρ) : Stop ε → List ρ
  | .returned _ => (rs.filter kind).reverse
  | .exited _ => []

/-- What has no `defer` is not closed, however the call ends. -/
theorem not_mem_closedOf (hr : kind r = false) (stop : Stop ε) :
    r ∉ closedOf kind rs stop := by
  cases stop with
  | exited code => exact List.not_mem_nil
  | returned err =>
      intro hmem
      rw [closedOf, List.mem_reverse, List.mem_filter, hr] at hmem
      cases hmem.2

/-- **WHAT IS CLOSED** at the end of a program. -/
theorem Holding.finish {s : State ρ} (hs : Holding kind rs s) (stop : Stop ε) :
    openings (Defers.finish s stop) = rs ∧
    closings (Defers.finish s stop) = closedOf kind rs stop := by
  cases stop with
  | returned err =>
      refine ⟨(openings_closed _ _).trans hs.opened, ?_⟩
      show closings (s.log ++ s.deferred.map .closed) = _
      rw [closings_closed, hs.closed, hs.deferred]
      rfl
  | exited code => exact ⟨hs.opened, hs.closed⟩

end Defers
