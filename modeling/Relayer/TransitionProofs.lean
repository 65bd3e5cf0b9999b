import Mathlib

/-! # Runs of a labelled transition system

    A system is a relation `step : σ → ℓ → σ → Prop`; a run is a finite
    sequence of steps and is remembered by the list of its labels.  What
    every state of every run satisfies is proved here once, from what one
    step preserves (`Run.invariant`, and `Run.traced` where the invariant
    also speaks of the labels so far).  A buffer that every step handles as
    a queue hands out what it was given, in order (`Queued.run`).  Where a rank
    can always fall, or tasks be done that stay done, the system can go on to
    the end (`exists_run_of_rank`, `exists_run_of_tasks`); where it always
    falls, the system comes to an end (`Run.length_add_le`).

    A system that computes is a function from a state and an event to the
    next state and an output; `Fires` is its relation, `execute` its
    interpreter, and what `execute` computes is a run (`execute_run`). -/

namespace Transition

variable {σ ℓ : Type*}

/-- The finite runs of a transition system, with their labels in order. -/
inductive Run (step : σ → ℓ → σ → Prop) (s : σ) : List ℓ → σ → Prop where
  | refl : Run step s [] s
  | tail {s' s'' : σ} {tr : List ℓ} {l : ℓ} :
      Run step s tr s' → step s' l s'' → Run step s (tr ++ [l]) s''

/-- A step relation cut down to the steps that meet a condition on the state
    before them. -/
def Guarded (step : σ → ℓ → σ → Prop) (ok : σ → ℓ → Prop) :
    σ → ℓ → σ → Prop :=
  fun s l s' => step s l s' ∧ ok s l

variable {step : σ → ℓ → σ → Prop} {s s' : σ} {tr : List ℓ}

/-- A run of one step. -/
theorem Run.single {l : ℓ} (h : step s l s') : Run step s [l] s' :=
  Run.tail Run.refl h

/-- A run of one system is a run of every system that has its steps. -/
theorem Run.mono {step' : σ → ℓ → σ → Prop} (h : Run step s tr s')
    (hstep : ∀ a l b, step a l b → step' a l b) : Run step' s tr s' := by
  induction h with
  | refl => exact Run.refl
  | tail _ hlast ih => exact Run.tail ih (hstep _ _ _ hlast)

/-- A run made of guarded steps is a run. -/
theorem Run.of_guarded {ok : σ → ℓ → Prop}
    (h : Run (Guarded step ok) s tr s') : Run step s tr s' :=
  h.mono (fun _ _ _ hstep => hstep.1)

/-- **THE INVARIANT RULE**: what holds at the start and is kept by every
    step holds in every state of every run. -/
theorem Run.invariant {P : σ → Prop} (h : Run step s tr s') (hs : P s)
    (hstep : ∀ a l b, P a → step a l b → P b) : P s' := by
  induction h with
  | refl => exact hs
  | tail _ hlast ih => exact hstep _ _ _ ih hlast

/-- The invariant rule for a property of the state and of the labels so
    far. -/
theorem Run.traced {P : List ℓ → σ → Prop} (h : Run step s tr s')
    (hs : P [] s)
    (hstep : ∀ tr a l b, P tr a → step a l b → P (tr ++ [l]) b) :
    P tr s' := by
  induction h with
  | refl => exact hs
  | tail _ hlast ih => exact hstep _ _ _ _ ih hlast

/-- A step before a run. -/
theorem Run.head {l : ℓ} {s'' : σ} (h : step s l s')
    (hrun : Run step s' tr s'') : Run step s (l :: tr) s'' := by
  induction hrun with
  | refl => exact Run.single h
  | tail _ hlast ih => exact Run.tail ih hlast

/-- A run after a run. -/
theorem Run.append {tr' : List ℓ} {s'' : σ} (h : Run step s tr s')
    (hrun : Run step s' tr' s'') : Run step s (tr ++ tr') s'' := by
  induction hrun with
  | refl => rwa [List.append_nil]
  | tail _ hlast ih =>
      rw [← List.append_assoc]
      exact Run.tail ih hlast

/-- A run passes through a state at each of its labels. -/
theorem Run.split {tr₁ tr₂ : List ℓ} {l : ℓ} {s'' : σ}
    (h : Run step s (tr₁ ++ l :: tr₂) s'') :
    ∃ a b, Run step s tr₁ a ∧ step a l b ∧ Run step b tr₂ s'' := by
  induction tr₂ using List.reverseRecOn generalizing s'' with
  | nil =>
      generalize htr : tr₁ ++ [l] = tr at h
      cases h with
      | refl => exact absurd htr (by simp)
      | tail hrun hlast =>
          obtain ⟨rfl, hl⟩ := List.append_inj' htr rfl
          cases hl
          exact ⟨_, _, hrun, hlast, Run.refl⟩
  | append_singleton tr₂ l' ih =>
      generalize htr : tr₁ ++ l :: (tr₂ ++ [l']) = tr at h
      cases h with
      | refl => exact absurd htr (by simp)
      | tail hrun hlast =>
          rw [← List.cons_append, ← List.append_assoc] at htr
          obtain ⟨rfl, hl⟩ := List.append_inj' htr rfl
          cases hl
          obtain ⟨a, b, hbefore, hstep, hafter⟩ := ih hrun
          exact ⟨a, b, hbefore, hstep, hafter.tail hlast⟩

/-- Reading one more label. -/
theorem filterMap_concat {α β : Type} (f : α → Option β) (tr : List α) (l : α) :
    (tr ++ [l]).filterMap f = tr.filterMap f ++ (f l).toList := by
  rw [List.filterMap_append]
  cases h : f l with
  | none => rw [List.filterMap_cons_none h]; rfl
  | some m => rw [List.filterMap_cons_some h]; rfl

/-! ## Queues -/

/-- One step takes at most one message from the front of a buffer and adds at
    most one at its end. -/
def Queued {α ℓ : Type} (step : σ → ℓ → σ → Prop) (buffer : σ → List α)
    (sent received : ℓ → Option α) : Prop :=
  ∀ s l s', step s l s' →
    buffer s ++ (sent l).toList = (received l).toList ++ buffer s'

/-- **FIRST IN, FIRST OUT**: over a whole run, what was sent is what was
    received and what is still buffered, in this order. -/
theorem Queued.run {α ℓ : Type} {step : σ → ℓ → σ → Prop}
    {buffer : σ → List α} {sent received : ℓ → Option α} {tr : List ℓ}
    (hq : Queued step buffer sent received) (h : Run step s tr s') :
    buffer s ++ tr.filterMap sent = tr.filterMap received ++ buffer s' := by
  induction h with
  | refl => simp
  | tail _ hlast ih =>
      rw [filterMap_concat, filterMap_concat, ← List.append_assoc, ih,
        List.append_assoc, hq _ _ _ hlast, List.append_assoc]

/-! ## Ranks -/

/-- **A RANK LEADS TO THE END**: where every state that is not done has a run
    to a smaller rank, there is a run of such runs until it is done. -/
theorem exists_run_of_rank (P done : σ → Prop) (Q : ℓ → Prop) (rank : σ → ℕ)
    (hstep : ∀ a, P a → ¬ done a →
      ∃ tr b, Run step a tr b ∧ (∀ l ∈ tr, Q l) ∧ P b ∧ rank b < rank a)
    {s : σ} (hs : P s) :
    ∃ tr s', Run step s tr s' ∧ (∀ l ∈ tr, Q l) ∧ P s' ∧ done s' := by
  induction hn : rank s using Nat.strong_induction_on generalizing s with
  | _ n ih =>
      by_cases hdone : done s
      · exact ⟨[], s, Run.refl, fun l hl => absurd hl List.not_mem_nil, hs, hdone⟩
      · obtain ⟨tr, b, hfirst, htr, hb, hlt⟩ := hstep s hs hdone
        obtain ⟨tr', s', hrun, htr', hs', hend⟩ := ih _ (hn ▸ hlt) hb rfl
        refine ⟨tr ++ tr', s', hfirst.append hrun, ?_, hs', hend⟩
        exact List.forall_mem_append.mpr ⟨htr, htr'⟩

/-- Where every step lowers a rank, a run has no more steps than the rank. -/
theorem Run.length_add_le {P : σ → Prop} (rank : σ → ℕ)
    (h : Run step s tr s') (hs : P s)
    (hstep : ∀ a l b, P a → step a l b → P b ∧ rank b < rank a) :
    P s' ∧ tr.length + rank s' ≤ rank s := by
  refine h.traced (P := fun tr s' => P s' ∧ tr.length + rank s' ≤ rank s)
    ⟨hs, (Nat.zero_add _).le⟩ ?_
  rintro tr a l b ⟨ha, hle⟩ hab
  obtain ⟨hb, hlt⟩ := hstep a l b ha hab
  refine ⟨hb, ?_⟩
  rw [List.length_append, List.length_singleton]
  omega

open Classical in
/-- **TASKS THAT STAY DONE**: where some undone task can always be done without
    another one coming back, all of them can be done. -/
theorem exists_run_of_tasks {τ : Type*} (tasks : Finset τ) (P : σ → Prop)
    (Undone : σ → τ → Prop) (Q : ℓ → Prop)
    (hstep : ∀ a, P a → (∃ t ∈ tasks, Undone a t) →
      ∃ tr b, Run step a tr b ∧ (∀ l ∈ tr, Q l) ∧ P b ∧
        (∀ t, Undone b t → Undone a t) ∧ ∃ t ∈ tasks, Undone a t ∧ ¬ Undone b t)
    {s : σ} (hs : P s) :
    ∃ tr s', Run step s tr s' ∧ (∀ l ∈ tr, Q l) ∧ P s' ∧
      ∀ t ∈ tasks, ¬ Undone s' t := by
  refine exists_run_of_rank P (fun s => ∀ t ∈ tasks, ¬ Undone s t) Q
    (fun s => (tasks.filter (Undone s)).card) ?_ hs
  intro a ha hnot
  have hundone : ∃ t ∈ tasks, Undone a t := by
    by_contra hall
    exact hnot fun t ht hu => hall ⟨t, ht, hu⟩
  obtain ⟨tr, b, hrun, htr, hb, hstay, t, ht, hbefore, hafter⟩ :=
    hstep a ha hundone
  refine ⟨tr, b, hrun, htr, hb, Finset.card_lt_card ?_⟩
  refine (Finset.ssubset_iff_of_subset ?_).mpr ⟨t, ?_, ?_⟩
  · intro u hu
    obtain ⟨hmem, hundone⟩ := Finset.mem_filter.mp hu
    exact Finset.mem_filter.mpr ⟨hmem, hstay u hundone⟩
  · exact Finset.mem_filter.mpr ⟨ht, hbefore⟩
  · exact fun hmem => hafter (Finset.mem_filter.mp hmem).2

/-! ## Systems that compute -/

section Execute

variable {ε ω : Type*}

/-- The relation of a system given by a function. -/
def Fires (f : σ → ε → Option (σ × ω)) (s : σ) (l : ε × ω) (s' : σ) : Prop :=
  f s l.1 = some (s', l.2)

/-- Feed a list of events to a system, and keep its outputs. -/
def execute (f : σ → ε → Option (σ × ω)) :
    σ → List ε → Option (List (ε × ω) × σ)
  | s, [] => some ([], s)
  | s, e :: es =>
      match f s e with
      | none => none
      | some (s', o) => (execute f s' es).map (fun r => ((e, o) :: r.1, r.2))

/-- **WHAT IS EXECUTED IS A RUN**. -/
theorem execute_run {f : σ → ε → Option (σ × ω)} :
    ∀ {es : List ε} {s s' : σ} {tr : List (ε × ω)},
      execute f s es = some (tr, s') → Run (Fires f) s tr s' := by
  intro es
  induction es with
  | nil =>
      intro s s' tr h
      obtain ⟨rfl, rfl⟩ := Prod.mk.inj (Option.some.inj h)
      exact Run.refl
  | cons e es ih =>
      intro s s' tr h
      rw [execute] at h
      cases hf : f s e with
      | none => rw [hf] at h; exact nomatch h
      | some r =>
          rw [hf] at h
          obtain ⟨⟨tr', s''⟩, hrest, heq⟩ := Option.map_eq_some_iff.mp h
          obtain ⟨rfl, rfl⟩ := Prod.mk.inj heq
          exact Run.head hf (ih hrest)

/-- To have a run to a state with some property it is enough to execute one
    and to test the state. -/
theorem exists_run (P : List (ε × ω) → σ → Prop) [∀ tr s, Decidable (P tr s)]
    {f : σ → ε → Option (σ × ω)} {s : σ} {es : List ε}
    (h : (execute f s es).any (fun r => decide (P r.1 r.2)) = true) :
    ∃ tr s', Run (Fires f) s tr s' ∧ P tr s' := by
  cases hexec : execute f s es with
  | none => rw [hexec] at h; exact nomatch h
  | some r =>
      rw [hexec] at h
      exact ⟨r.1, r.2, execute_run hexec, of_decide_eq_true h⟩

/-- The same for a run that passes through a state with some other property. -/
theorem exists_run_through (P Q : List (ε × ω) → σ → Prop)
    [∀ tr s, Decidable (P tr s)] [∀ tr s, Decidable (Q tr s)]
    {f : σ → ε → Option (σ × ω)} {s : σ} {es es' : List ε}
    (h : (execute f s es).any (fun r => decide (P r.1 r.2 ∧
      (execute f r.2 es').any (fun q => decide (Q q.1 q.2)) = true)) = true) :
    ∃ tr s₁ tr' s₂, Run (Fires f) s tr s₁ ∧ P tr s₁ ∧ Run (Fires f) s₁ tr' s₂ ∧
      Q tr' s₂ := by
  obtain ⟨tr, s₁, hrun, hP, hrest⟩ := exists_run (fun tr s₁ => P tr s₁ ∧
    (execute f s₁ es').any (fun q => decide (Q q.1 q.2)) = true) h
  obtain ⟨tr', s₂, hrun', hQ⟩ := exists_run Q hrest
  exact ⟨tr, s₁, tr', s₂, hrun, hP, hrun', hQ⟩

/-- A system that refuses the events a test rules out. -/
def restrict (test : σ → ε → Bool) (f : σ → ε → Option (σ × ω)) :
    σ → ε → Option (σ × ω) :=
  fun s e => if test s e then f s e else none

/-- What the restricted system executes is a guarded run of the system. -/
theorem restrict_run {test : σ → ε → Bool} {f : σ → ε → Option (σ × ω)}
    {s s' : σ} {tr : List (ε × ω)}
    (h : Run (Fires (restrict test f)) s tr s') :
    Run (Guarded (Fires f) (fun s l => test s l.1 = true)) s tr s' := by
  refine h.mono ?_
  intro a l b hfires
  rw [Fires, restrict] at hfires
  split at hfires
  · rename_i htest
    exact ⟨hfires, htest⟩
  · exact nomatch hfires

end Execute

end Transition
