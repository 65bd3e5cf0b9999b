import Mathlib

/-! # Bit masks as finite index sets

    A bit mask is a number read as a set of indices.  This file fixes that
    reading once: `bitsOf` turns a natural number into the `Finset` of its
    set bits, and every operation on the number (setting a bit, dropping the
    lowest one, cutting the number into machine words) becomes an operation
    on that set.

    The second half does the same for masks that may be negative, read in
    two's complement: `clearBit`, and the fact that such a mask is zero
    exactly when none of its bits is set. -/

namespace BitMask

/-! ## Natural masks -/

/-- The indices of the set bits of a mask. -/
def bitsOf (m : ℕ) : Finset ℕ := m.bitIndices.toFinset

/-- A mask with one more bit set. -/
def setBit (m i : ℕ) : ℕ := m ||| 2 ^ i

@[simp] theorem mem_bitsOf {m i : ℕ} : i ∈ bitsOf m ↔ m.testBit i = true := by
  rw [bitsOf, List.mem_toFinset]
  exact Nat.mem_bitIndices

@[simp] theorem bitsOf_zero : bitsOf 0 = ∅ := by
  ext i
  simp

/-- Setting a bit inserts its index. -/
theorem bitsOf_setBit (m i : ℕ) : bitsOf (setBit m i) = insert i (bitsOf m) := by
  ext j
  rw [Finset.mem_insert, mem_bitsOf, mem_bitsOf, setBit, Nat.testBit_or,
    Nat.testBit_two_pow, Bool.or_eq_true, decide_eq_true_iff]
  constructor
  · rintro (h | h)
    · exact Or.inr h
    · exact Or.inl h.symm
  · rintro (h | h)
    · exact Or.inr h.symm
    · exact Or.inl h

/-- A mask below `2 ^ n` has all its bits below `n`. -/
theorem lt_of_mem_bitsOf {m n i : ℕ} (hm : m < 2 ^ n) (hi : i ∈ bitsOf m) :
    i < n := by
  by_contra hle
  have hpow : m < 2 ^ i :=
    Nat.lt_of_lt_of_le hm (Nat.pow_le_pow_right (by decide) (by omega))
  rw [mem_bitsOf, Nat.testBit_lt_two_pow hpow] at hi
  exact Bool.noConfusion hi

/-! ## Counting bits -/

theorem card_bitsOf (m : ℕ) : (bitsOf m).card = m.bitIndices.length :=
  List.toFinset_card_of_nodup Nat.bitIndices_nodup

theorem card_bitsOf_two_mul (n : ℕ) :
    (bitsOf (2 * n)).card = (bitsOf n).card := by
  rw [card_bitsOf, card_bitsOf, Nat.bitIndices_two_mul, List.length_map]

theorem card_bitsOf_two_mul_add_one (n : ℕ) :
    (bitsOf (2 * n + 1)).card = (bitsOf n).card + 1 := by
  rw [card_bitsOf, card_bitsOf, Nat.bitIndices_two_mul_add_one,
    List.length_cons, List.length_map]

/-- Dropping the lowest set bit of an even number acts on its half. -/
theorem land_pred_two_mul {n : ℕ} (hn : 0 < n) :
    2 * n &&& (2 * n - 1) = 2 * (n &&& (n - 1)) := by
  obtain ⟨k, rfl⟩ : ∃ k, n = k + 1 := ⟨n - 1, by omega⟩
  have hpred : 2 * (k + 1) - 1 = 2 * k + 1 := by omega
  rw [hpred]
  apply Nat.eq_of_testBit_eq
  intro i
  cases i with
  | zero => simp [Nat.testBit_zero]
  | succ i =>
      have hodd : (2 * k + 1) / 2 = k := by omega
      have heven : ∀ m, 2 * m / 2 = m := by omega
      rw [Nat.testBit_and, Nat.testBit_succ, Nat.testBit_succ, Nat.testBit_succ,
        hodd, heven, heven, Nat.testBit_and, Nat.add_sub_cancel]

/-- Dropping the lowest set bit of an odd number clears bit zero. -/
theorem land_pred_two_mul_add_one (n : ℕ) :
    (2 * n + 1) &&& (2 * n + 1 - 1) = 2 * n := by
  apply Nat.eq_of_testBit_eq
  intro i
  cases i with
  | zero => simp [Nat.testBit_zero]
  | succ i =>
      have hodd : (2 * n + 1) / 2 = n := by omega
      have heven : 2 * n / 2 = n := by omega
      rw [Nat.add_sub_cancel, Nat.testBit_and, Nat.testBit_succ,
        Nat.testBit_succ, hodd, heven, Bool.and_self]

/-- **KERNIGHAN'S STEP**: `x & (x - 1)` has exactly one bit fewer than
    `x`. -/
theorem card_bitsOf_land_pred {x : ℕ} (hx : x ≠ 0) :
    (bitsOf x).card = (bitsOf (x &&& (x - 1))).card + 1 := by
  induction x using Nat.strong_induction_on with
  | _ x ih =>
      rcases Nat.even_or_odd' x with ⟨n, rfl | rfl⟩
      · have hn : 0 < n := by omega
        rw [land_pred_two_mul hn, card_bitsOf_two_mul, card_bitsOf_two_mul]
        exact ih n (by omega) (by omega)
      · rw [land_pred_two_mul_add_one, card_bitsOf_two_mul,
          card_bitsOf_two_mul_add_one]

/-- Dropping bits one by one leaves nothing after as many rounds as there are
    set bits, and not before. -/
theorem iterate_land_pred_eq_zero (x k : ℕ) :
    (fun x => x &&& (x - 1))^[k] x = 0 ↔ (bitsOf x).card ≤ k := by
  induction k generalizing x with
  | zero =>
      rw [Function.iterate_zero_apply, Nat.le_zero]
      constructor
      · rintro rfl
        rw [bitsOf_zero, Finset.card_empty]
      · intro hcard
        by_contra hx
        rw [card_bitsOf_land_pred hx] at hcard
        omega
  | succ k ih =>
      rw [Function.iterate_succ_apply, ih]
      -- zero has no lowest bit to clear
      by_cases hx : x = 0
      · rw [hx, Nat.zero_and, bitsOf_zero, Finset.card_empty]
        exact iff_of_true k.zero_le (Nat.zero_le _)
      · rw [card_bitsOf_land_pred hx]
        omega

/-- Cutting a number at bit `k` splits its bit count. -/
theorem card_bitsOf_add_two_pow_mul {a k : ℕ} (b : ℕ) (ha : a < 2 ^ k) :
    (bitsOf (a + 2 ^ k * b)).card = (bitsOf a).card + (bitsOf b).card := by
  -- the bits of the low part, and those of the high part moved up
  have hsplit : bitsOf (a + 2 ^ k * b)
      = bitsOf a ∪ (bitsOf b).map (addRightEmbedding k) := by
    ext j
    rw [Finset.mem_union, Finset.mem_map, mem_bitsOf, mem_bitsOf, Nat.add_comm,
      Nat.testBit_two_pow_mul_add b ha]
    by_cases hj : j < k
    · rw [if_pos hj]
      constructor
      · exact Or.inl
      · rintro (h | ⟨i, -, hi⟩)
        · exact h
        · have hik : i + k = j := hi
          omega
    · rw [if_neg hj]
      constructor
      · intro h
        refine Or.inr ⟨j - k, mem_bitsOf.mpr h, ?_⟩
        show j - k + k = j
        omega
      · rintro (h | ⟨i, hi, hik⟩)
        · exact absurd (lt_of_mem_bitsOf ha (mem_bitsOf.mpr h)) hj
        · have hji : j - k = i := by
            have : i + k = j := hik
            omega
          rw [hji]
          exact mem_bitsOf.mp hi
  have hdisj : Disjoint (bitsOf a) ((bitsOf b).map (addRightEmbedding k)) := by
    rw [Finset.disjoint_left]
    intro j hja hjb
    obtain ⟨i, -, hi⟩ := Finset.mem_map.mp hjb
    have hlt := lt_of_mem_bitsOf ha hja
    have hik : i + k = j := hi
    omega
  rw [hsplit, Finset.card_union_of_disjoint hdisj, Finset.card_map]

/-- **QUORUM INTERSECTION**: two masks below `2 ^ n` with more than `n` bits
    between them share one. -/
theorem masks_meet {m m' n : ℕ} (hm : m < 2 ^ n) (hm' : m' < 2 ^ n)
    (h : n < (bitsOf m).card + (bitsOf m').card) :
    ∃ i < n, m.testBit i = true ∧ m'.testBit i = true := by
  have hsub : ∀ {k}, k < 2 ^ n → bitsOf k ⊆ Finset.range n := by
    intro k hk i hi
    exact Finset.mem_range.mpr (lt_of_mem_bitsOf hk hi)
  have hcard : (Finset.range n).card < (bitsOf m).card + (bitsOf m').card := by
    rw [Finset.card_range]
    exact h
  obtain ⟨i, hi⟩ := Finset.inter_nonempty_of_card_lt_card_add_card
    (hsub hm) (hsub hm') hcard
  obtain ⟨hi₁, hi₂⟩ := Finset.mem_inter.mp hi
  exact ⟨i, lt_of_mem_bitsOf hm hi₁, mem_bitsOf.mp hi₁, mem_bitsOf.mp hi₂⟩

/-! ## Two's complement masks -/

/-- An integer mask with bit `i` cleared, in two's complement. -/
def clearBit (m : ℤ) (i : ℕ) : ℤ := Int.ldiff m ((2 ^ i : ℕ) : ℤ)

/-- Clearing a bit clears that bit and no other. -/
theorem testBit_clearBit (m : ℤ) (i j : ℕ) :
    (clearBit m i).testBit j = (m.testBit j && !decide (i = j)) := by
  rw [clearBit, Int.testBit_ldiff]
  have hpow : Int.testBit ((2 ^ i : ℕ) : ℤ) j = decide (i = j) :=
    Nat.testBit_two_pow
  rw [hpow]

theorem testBit_clearBit_self (m : ℤ) (i : ℕ) :
    (clearBit m i).testBit i = false := by
  rw [testBit_clearBit]
  simp

theorem testBit_clearBit_of_ne (m : ℤ) {i j : ℕ} (h : i ≠ j) :
    (clearBit m i).testBit j = m.testBit j := by
  rw [testBit_clearBit]
  simp [h]

/-- Clearing some bits one after another clears these bits and no other. -/
theorem testBit_foldl_clearBit (bits : List ℕ) (m : ℤ) (j : ℕ) :
    (bits.foldl clearBit m).testBit j = (m.testBit j && !decide (j ∈ bits)) := by
  induction bits generalizing m with
  | nil => simp
  | cons i bits ih =>
      rw [List.foldl_cons, ih, testBit_clearBit, Bool.and_assoc]
      by_cases hij : i = j
      · simp [hij]
      · simp [hij, Ne.symm hij]

/-- Two masks with the same bits are the same mask. -/
theorem eq_of_testBit_eq {m n : ℤ} (h : ∀ i, m.testBit i = n.testBit i) :
    m = n := by
  -- beyond the size of both, a natural mask reads 0 and a negative one 1
  have hmixed : ∀ a b : ℕ, ¬ ∀ i, a.testBit i = !b.testBit i := by
    intro a b hab
    have ha : a < 2 ^ (a + b) :=
      Nat.lt_of_lt_of_le Nat.lt_two_pow_self
        (Nat.pow_le_pow_right (by decide) (by omega))
    have hb : b < 2 ^ (a + b) :=
      Nat.lt_of_lt_of_le Nat.lt_two_pow_self
        (Nat.pow_le_pow_right (by decide) (by omega))
    have habs := hab (a + b)
    rw [Nat.testBit_lt_two_pow ha, Nat.testBit_lt_two_pow hb] at habs
    exact Bool.noConfusion habs
  cases m with
  | ofNat a =>
      cases n with
      | ofNat b => exact congrArg Int.ofNat (Nat.eq_of_testBit_eq h)
      | negSucc b => exact absurd h (hmixed a b)
  | negSucc a =>
      cases n with
      | ofNat b => exact absurd (fun i => (h i).symm) (hmixed b a)
      | negSucc b =>
          refine congrArg Int.negSucc (Nat.eq_of_testBit_eq ?_)
          intro i
          have hi : (!a.testBit i) = (!b.testBit i) := h i
          rw [← Bool.not_not (a.testBit i), hi, Bool.not_not]

/-- Clearing a bit that is clear already changes nothing, and nothing else
    leaves the mask alone. -/
theorem clearBit_eq_self_iff (m : ℤ) (i : ℕ) :
    clearBit m i = m ↔ m.testBit i = false := by
  constructor
  · intro h
    rw [← h]
    exact testBit_clearBit_self m i
  · intro h
    apply eq_of_testBit_eq
    intro j
    by_cases hij : i = j
    · rw [← hij, testBit_clearBit_self, h]
    · exact testBit_clearBit_of_ne m hij

end BitMask
