import Mathlib

/-! # Goroutines and their mutexes

    A concurrent program is modelled by the list of its goroutines, each of
    them at some place of its code.  A step replaces one of them or appends a
    new one.  Which mutexes a goroutine holds is a property of its place, so
    a mutex is free when no place of the list holds it, and a goroutine may
    come to a place that holds it only then.

    * `countP_set_add` counts the goroutines at places with `p`;
    * `Exclusive p` says that at most one goroutine is at a place with `p`;
      `exclusive_set` and `exclusive_concat` are its rules: a goroutine comes
      to such a place only from one, or when there is none. -/

namespace Routines

variable {ρ : Type*}

/-- An element of a list with one place changed. -/
theorem getElem?_set_cases {l : List ρ} {t j : ℕ} {a c : ρ}
    (h : (l.set t a)[j]? = some c) :
    (j = t ∧ c = a) ∨ (j ≠ t ∧ l[j]? = some c) := by
  by_cases hj : j = t
  · subst hj
    rw [List.getElem?_set_self'] at h
    obtain ⟨_, -, rfl⟩ := Option.map_eq_some_iff.mp h
    exact Or.inl ⟨rfl, rfl⟩
  · rw [List.getElem?_set_ne (Ne.symm hj)] at h
    exact Or.inr ⟨hj, h⟩

/-- An element of a list with one more at its end. -/
theorem getElem?_concat_cases {l : List ρ} {j : ℕ} {a c : ρ}
    (h : (l ++ [a])[j]? = some c) :
    l[j]? = some c ∨ (j = l.length ∧ c = a) := by
  rcases Nat.lt_trichotomy j l.length with hlt | rfl | hgt
  · rw [List.getElem?_append_left hlt] at h
    exact Or.inl h
  · rw [List.getElem?_concat_length] at h
    exact Or.inr ⟨rfl, (Option.some.inj h).symm⟩
  · rw [List.getElem?_eq_none (by
      rw [List.length_append, List.length_singleton]; omega)] at h
    cases h

variable {rs : List ρ} {i : ℕ} {r r' : ρ}

/-- A goroutine other than the one that moved is still there. -/
theorem mem_set_of_ne {j : ℕ} {q : ρ} (hij : j ≠ i) (hq : rs[j]? = some q) :
    q ∈ rs.set i r' := by
  refine List.mem_iff_getElem?.mpr ⟨j, ?_⟩
  rw [List.getElem?_set_ne (Ne.symm hij), hq]

/-- The move of a goroutine leaves every place but its own taken. -/
theorem mem_set_of_mem {q : ρ} (hq : q ∈ rs) (hr : rs[i]? = some r)
    (hne : r ≠ q) : q ∈ rs.set i r' := by
  obtain ⟨j, hj⟩ := List.mem_iff_getElem?.mp hq
  refine mem_set_of_ne ?_ hj
  rintro rfl
  exact hne (Option.some.inj (hr.symm.trans hj))

/-- A goroutine at another place than the one that moved stays there. -/
theorem getElem?_set_of_ne {j : ℕ} {q : ρ} (hq : rs[j]? = some q)
    (hr : rs[i]? = some r) (hne : q ≠ r) : (rs.set i r')[j]? = some q := by
  have hij : i ≠ j := by
    rintro rfl
    exact hne (Option.some.inj (hq.symm.trans hr))
  rw [List.getElem?_set_ne hij, hq]

/-- A goroutine stays where it is when a new one starts. -/
theorem getElem?_concat {j : ℕ} {q : ρ} (hq : rs[j]? = some q) :
    (rs ++ [r])[j]? = some q := by
  rw [List.getElem?_append_left (List.getElem?_eq_some_iff.mp hq).1, hq]

/-- The goroutine that moved is at its new place. -/
theorem mem_set_self (hr : rs[i]? = some r) : r' ∈ rs.set i r' := by
  obtain ⟨hlt, -⟩ := List.getElem?_eq_some_iff.mp hr
  exact List.mem_set hlt r'

/-- What some goroutine did before a step it still does, unless it is the one
    that moved. -/
theorem exists_set {P : ρ → Prop} (hr : rs[i]? = some r)
    (h : ∃ q ∈ rs, P q) : P r ∨ ∃ q ∈ rs.set i r', P q := by
  obtain ⟨q, hq, hP⟩ := h
  obtain ⟨j, hj⟩ := List.mem_iff_getElem?.mp hq
  by_cases hij : j = i
  · subst hij
    obtain rfl := Option.some.inj (hr.symm.trans hj)
    exact Or.inl hP
  · exact Or.inr ⟨q, mem_set_of_ne hij hj, hP⟩

/-- The number of goroutines at places with `p`, when one of them moves. -/
theorem countP_set_add (p : ρ → Bool) (r' : ρ) (hr : rs[i]? = some r) :
    (rs.set i r').countP p + (if p r then 1 else 0) =
      rs.countP p + (if p r' then 1 else 0) := by
  obtain ⟨hlt, rfl⟩ := List.getElem?_eq_some_iff.mp hr
  have hpos : p rs[i] = true → 0 < rs.countP p :=
    fun hp => List.countP_pos_iff.mpr ⟨_, List.getElem_mem hlt, hp⟩
  rw [List.countP_set hlt]
  split
  · rename_i hp
    have hcount := hpos hp
    omega
  · omega

/-- What the goroutines weigh together, when one of them moves. -/
theorem sum_set_add (f : ρ → ℕ) (r' : ρ) (hr : rs[i]? = some r) :
    ((rs.set i r').map f).sum + f r = (rs.map f).sum + f r' := by
  induction rs generalizing i with
  | nil => cases hr
  | cons q rs ih =>
      cases i with
      | zero =>
          obtain rfl : q = r := Option.some.inj hr
          simp only [List.set_cons_zero, List.map_cons, List.sum_cons]
          omega
      | succ i =>
          have hrest := ih hr
          simp only [List.set_cons_succ, List.map_cons, List.sum_cons]
          omega

/-! ## One at a time -/

/-- No goroutine is at a place with `p`: the mutex is free. -/
def free (p : ρ → Bool) (rs : List ρ) : Bool := rs.all (fun r => !p r)

/-- A place is free when no goroutine is at it. -/
theorem free_iff {p : ρ → Bool} : free p rs = true ↔ ∀ q ∈ rs, p q = false := by
  simp [free]

theorem free_concat {p : ρ → Bool} :
    free p (rs ++ [r]) = (free p rs && !p r) := by
  simp [free]

/-- A goroutine that moves between places without `p` leaves the mutex as it
    was. -/
theorem free_set {p : ρ → Bool} (hr : rs[i]? = some r) (hp : p r = false)
    (hp' : p r' = false) : free p (rs.set i r') = free p rs := by
  rw [Bool.eq_iff_iff, free_iff, free_iff]
  constructor
  · intro hall q hq
    obtain ⟨j, hj⟩ := List.mem_iff_getElem?.mp hq
    by_cases hji : j = i
    · subst hji
      obtain rfl := Option.some.inj (hr.symm.trans hj)
      exact hp
    · exact hall q (mem_set_of_ne hji hj)
  · intro hall q hq
    rcases List.mem_or_eq_of_mem_set hq with hold | rfl
    · exact hall q hold
    · exact hp'

/-- Where the mutex was free, only the goroutine that has moved can have it. -/
theorem free_set_of_free {p : ρ → Bool} (hr : rs[i]? = some r)
    (hfree : free p rs = true) : free p (rs.set i r') = !p r' := by
  rw [Bool.eq_iff_iff, free_iff, Bool.not_eq_true']
  constructor
  · exact fun hall => hall r' (mem_set_self hr)
  · intro hp' q hq
    rcases List.mem_or_eq_of_mem_set hq with hold | rfl
    · exact free_iff.mp hfree q hold
    · exact hp'

/-- At most one goroutine is at a place with `p`. -/
def Exclusive (p : ρ → Bool) (rs : List ρ) : Prop :=
  ∀ (i j : ℕ) (q q' : ρ), rs[i]? = some q → rs[j]? = some q' →
    p q = true → p q' = true → i = j

theorem exclusive_nil (p : ρ → Bool) : Exclusive p [] := by
  intro i j q q' hq
  rw [List.getElem?_nil] at hq
  cases hq

/-- A goroutine that moves comes to a place with `p` only from one, or when
    the others are at none. -/
theorem exclusive_set {p : ρ → Bool} (h : Exclusive p rs)
    (hr : rs[i]? = some r)
    (hp : p r' = true → p r = true ∨ free p rs = true) :
    Exclusive p (rs.set i r') := by
  -- no other goroutine is at a place with `p` when this one is
  have hother : p r' = true → ∀ j q, j ≠ i → rs[j]? = some q → p q = false := by
    intro hp' j q hj hq
    rcases hp hp' with hheld | hfree
    · by_contra hpq
      rw [Bool.not_eq_false] at hpq
      exact hj (h j i q r hq hr hpq hheld)
    · exact free_iff.mp hfree q (List.mem_of_getElem? hq)
  intro j k q q' hq hq' hpq hpq'
  rcases getElem?_set_cases hq with ⟨rfl, rfl⟩ | ⟨hj, hold⟩
  · rcases getElem?_set_cases hq' with ⟨rfl, -⟩ | ⟨hk, hold'⟩
    · rfl
    · rw [hother hpq k q' hk hold'] at hpq'
      cases hpq'
  · rcases getElem?_set_cases hq' with ⟨rfl, rfl⟩ | ⟨-, hold'⟩
    · rw [hother hpq' j q hj hold] at hpq
      cases hpq
    · exact h j k q q' hold hold' hpq hpq'

/-- A new goroutine starts at a place with `p` only when there is none. -/
theorem exclusive_concat {p : ρ → Bool} (h : Exclusive p rs)
    (hp : p r' = true → free p rs = true) : Exclusive p (rs ++ [r']) := by
  intro j k q q' hq hq' hpq hpq'
  rcases getElem?_concat_cases hq with hold | ⟨rfl, rfl⟩
  · rcases getElem?_concat_cases hq' with hold' | ⟨rfl, rfl⟩
    · exact h j k q q' hold hold' hpq hpq'
    · rw [free_iff.mp (hp hpq') q (List.mem_of_getElem? hold)] at hpq
      cases hpq
  · rcases getElem?_concat_cases hq' with hold' | ⟨rfl, -⟩
    · rw [free_iff.mp (hp hpq) q' (List.mem_of_getElem? hold')] at hpq'
      cases hpq'
    · rfl

end Routines
