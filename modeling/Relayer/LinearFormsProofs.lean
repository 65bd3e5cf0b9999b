import Mathlib

/-! # Linear forms and what an observer can combine

    In the linear (discrete-log) model a group element is the list of its
    discrete logarithms: one for each hash point, and each of them an affine
    form in the secrets nobody but their owner knows.  An observer works
    with group elements only, so all it can produce is a linear combination,
    with scalars it knows, of the hash points themselves and of the elements
    it has seen: `derivable`.

    The one tool is `coord_eq_zero_of_derivable`: a coordinate that is zero
    on everything seen is zero on everything derived. -/

namespace LinearForms

variable {K S P : Type*} [CommRing K]

/-- An affine form in the secrets: `none` is the known part, `some j` the
    coefficient of the secret of `j`. -/
abbrev Form (K S : Type*) := Option S → K

/-- A group element: one form for each hash point. -/
abbrev Element (K S P : Type*) := P → Form K S

open Classical in
/-- A scalar everybody knows. -/
noncomputable def known (c : K) : Form K S := Pi.single none c

open Classical in
/-- The secret of `j`. -/
noncomputable def secret (j : S) : Form K S := Pi.single (some j) 1

open Classical in
/-- The hash point `p` multiplied by a discrete logarithm. -/
noncomputable def atPoint (p : P) : Form K S →+ Element K S P :=
  AddMonoidHom.single (fun _ : P => Form K S) p

open Classical in
@[simp] theorem known_some (c : K) (j : S) :
    (known c : Form K S) (some j) = 0 := by
  rw [known]
  exact Pi.single_eq_of_ne (Option.some_ne_none j) c

open Classical in
theorem secret_self (j : S) : (secret j : Form K S) (some j) = 1 := by
  rw [secret]
  exact Pi.single_eq_same (some j) 1

open Classical in
theorem secret_of_ne {j k : S} (h : j ≠ k) :
    (secret j : Form K S) (some k) = 0 := by
  rw [secret]
  exact Pi.single_eq_of_ne (fun hk => h (Option.some.inj hk).symm) 1

open Classical in
theorem atPoint_self (p : P) (f : Form K S) : atPoint p f p = f := by
  rw [atPoint, AddMonoidHom.single_apply, Pi.single_eq_same]

open Classical in
theorem atPoint_of_ne {p q : P} (h : q ≠ p) (f : Form K S) :
    atPoint p f q = 0 := by
  rw [atPoint, AddMonoidHom.single_apply, Pi.single_eq_of_ne h]

/-- What an observer of `seen` can build: the span of the hash points and of
    the elements it has seen. -/
noncomputable def derivable (seen : Set (Element K S P)) :
    Submodule K (Element K S P) :=
  Submodule.span K (Set.range (fun p : P => atPoint p (known 1)) ∪ seen)

theorem derivable_of_seen {seen : Set (Element K S P)} {x : Element K S P}
    (h : x ∈ seen) : x ∈ derivable seen :=
  Submodule.subset_span (Or.inr h)

/-- The coefficient of one secret at one hash point. -/
def coord (p : P) (j : S) : Element K S P →ₗ[K] K where
  toFun x := x p (some j)
  map_add' _ _ := rfl
  map_smul' _ _ := rfl

theorem coord_apply (p : P) (j : S) (x : Element K S P) :
    coord p j x = x p (some j) := rfl

theorem coord_atPoint_self (p : P) (j : S) (f : Form K S) :
    coord p j (atPoint p f) = f (some j) := by
  rw [coord_apply, atPoint_self]

theorem coord_atPoint_of_ne {p q : P} (h : q ≠ p) (j : S) (f : Form K S) :
    coord q j (atPoint p f) = 0 := by
  rw [coord_apply, atPoint_of_ne h]
  rfl

/-- **WHAT IS NOT SEEN IS NOT DERIVED**: a coordinate that vanishes on every
    element seen vanishes on every element derivable from them. -/
theorem coord_eq_zero_of_derivable {seen : Set (Element K S P)}
    {x : Element K S P} {p : P} {j : S}
    (hseen : ∀ y ∈ seen, coord p j y = 0) (hx : x ∈ derivable seen) :
    coord p j x = 0 := by
  have hker : derivable seen ≤ LinearMap.ker (coord p j) := by
    refine Submodule.span_le.mpr ?_
    rintro y (⟨q, rfl⟩ | hy)
    · rw [SetLike.mem_coe, LinearMap.mem_ker]
      show (atPoint q (known 1) : Element K S P) p (some j) = 0
      by_cases hpq : p = q
      · rw [hpq, atPoint_self, known_some]
      · rw [atPoint_of_ne hpq]
        rfl
    · exact hseen y hy
  exact LinearMap.mem_ker.mp (hker hx)

end LinearForms
