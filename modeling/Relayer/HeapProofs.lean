import Mathlib

/-! # Binary heaps in a list

    Go's `container/heap` over a linear order: the children of the element at
    `i` are at `2 * i + 1` and `2 * i + 2`, and no element is below its parent.
    `push` appends an element and lets it rise (`up`), `pop` exchanges the root
    with the last element, lets the new root sink (`down`) and cuts off the
    old one.

    * `UpOrder` and `DownOrder` say that only the element on its way may be
      out of order; each step keeps them (`move`), and when the loop stops the
      order is restored (`finish`);
    * **`isHeap_push`**, **`perm_push`**: a push keeps the order and adds the
      element;
    * **`pop_spec`**: a pop keeps the order and takes out the least element. -/

namespace Heaps

variable {α : Type*} [LinearOrder α] {h : List α} {i j n : ℕ}

/-! ## Two elements exchanged -/

/-- The elements at `i` and `j` exchanged. -/
def swap (h : List α) (i j : ℕ) : List α :=
  match h[i]?, h[j]? with
  | some a, some b => (h.set i b).set j a
  | _, _ => h

/-- Is the element at `i` below the one at `j`? -/
def less (h : List α) (i j : ℕ) : Bool :=
  match h[i]?, h[j]? with
  | some a, some b => a < b
  | _, _ => false

omit [LinearOrder α] in
theorem swap_eq {a b : α} (ha : h[i]? = some a) (hb : h[j]? = some b) :
    swap h i j = (h.set i b).set j a := by
  rw [swap, ha, hb]

omit [LinearOrder α] in
/-- What stands where after a swap. -/
theorem getElem?_swap {a b : α} (ha : h[i]? = some a) (hb : h[j]? = some b)
    (k : ℕ) :
    (swap h i j)[k]? =
      if k = j then some a else if k = i then some b else h[k]? := by
  obtain ⟨hi, -⟩ := List.getElem?_eq_some_iff.mp ha
  obtain ⟨hj, -⟩ := List.getElem?_eq_some_iff.mp hb
  rw [swap_eq ha hb, List.getElem?_set, List.getElem?_set]
  grind

omit [LinearOrder α] in
/-- A swap keeps the elements. -/
theorem perm_swap (h : List α) (i j : ℕ) : (swap h i j).Perm h := by
  cases ha : h[i]? with
  | none => simp [swap, ha]
  | some a =>
      cases hb : h[j]? with
      | none => simp [swap, ha, hb]
      | some b =>
          obtain ⟨hi, rfl⟩ := List.getElem?_eq_some_iff.mp ha
          obtain ⟨hj, rfl⟩ := List.getElem?_eq_some_iff.mp hb
          rw [swap_eq ha hb]
          exact List.set_set_perm hi hj

theorem less_of {a b : α} (ha : h[i]? = some a) (hb : h[j]? = some b) :
    less h i j = decide (a < b) := by
  rw [less, ha, hb]

/-- Both places exist where `Less` answers yes. -/
theorem exists_of_less (hl : less h i j = true) :
    ∃ a b, h[i]? = some a ∧ h[j]? = some b ∧ a < b := by
  cases ha : h[i]? with
  | none => simp [less, ha] at hl
  | some a =>
      cases hb : h[j]? with
      | none => simp [less, ha, hb] at hl
      | some b => exact ⟨a, b, rfl, rfl, by simpa [less_of ha hb] using hl⟩

/-! ## Order -/

/-- The parent of place `i`; the root is its own parent. -/
def parent (i : ℕ) : ℕ :=
  (i - 1) / 2

theorem parent_lt (hi : 0 < i) : parent i < i := by
  unfold parent
  omega

theorem parent_ne (hi : 0 < i) : parent i ≠ i :=
  (parent_lt hi).ne

/-- A place other than its parent is not the root. -/
theorem pos_of_parent_ne (hi : parent i ≠ i) : 0 < i := by
  rcases Nat.eq_zero_or_pos i with rfl | hpos
  · exact absurd rfl hi
  · exact hpos

/-- Among the first `n` elements none is below its parent. -/
def HeapTo (h : List α) (n : ℕ) : Prop :=
  ∀ i a b, i < n → h[parent i]? = some a → h[i]? = some b → a ≤ b

/-- No element is below its parent. -/
def IsHeap (h : List α) : Prop :=
  HeapTo h h.length

/-- The root is the least element. -/
theorem IsHeap.root_le (hh : IsHeap h) {a : α} (ha : h[0]? = some a) :
    ∀ (i : ℕ) (b : α), h[i]? = some b → a ≤ b := by
  intro i
  induction i using Nat.strong_induction_on with
  | _ i ih =>
      intro b hb
      obtain ⟨hi, -⟩ := List.getElem?_eq_some_iff.mp hb
      rcases Nat.eq_zero_or_pos i with rfl | hpos
      · exact (Option.some.inj (ha.symm.trans hb)).le
      · have hlt := parent_lt hpos
        have hp : h[parent i]? = some (h.get ⟨parent i, hlt.trans hi⟩) :=
          List.getElem?_eq_getElem _
        exact (ih _ hlt _ hp).trans (hh i _ b hi hp hb)

/-! ## Rising -/

/-- The element at `j` rises while it is below its parent. -/
def up : ℕ → List α → ℕ → List α
  | 0, h, _ => h
  | fuel + 1, h, j =>
      if parent j = j ∨ ¬ less h j (parent j) then h
      else up fuel (swap h (parent j) j) (parent j)

/-- Only the element at `j` may be below its parent, and its children are not
    below its parent. -/
structure UpOrder (h : List α) (j : ℕ) : Prop where
  others : ∀ i a b, i ≠ j → h[parent i]? = some a → h[i]? = some b → a ≤ b
  children : ∀ i a b, 0 < i → parent i = j → h[parent j]? = some a →
    h[i]? = some b → a ≤ b

/-- Where `up` stops the whole list is a heap. -/
theorem UpOrder.finish (ho : UpOrder h j)
    (hstop : parent j = j ∨ ¬ less h j (parent j)) : IsHeap h := by
  intro i a b hi ha hb
  by_cases hij : i = j
  · subst hij
    rcases hstop with hroot | hless
    · rw [hroot, hb] at ha
      exact (Option.some.inj ha).ge
    · rw [less_of hb ha] at hless
      simpa using hless
  · exact ho.others i a b hij ha hb

/-- One round of `up` moves the doubtful place to its parent. -/
theorem UpOrder.move (ho : UpOrder h j) (hj : parent j ≠ j)
    (hless : less h j (parent j) = true) :
    UpOrder (swap h (parent j) j) (parent j) := by
  obtain ⟨x, p, hx, hp, hlt⟩ := exists_of_less hless
  -- the old parent is not above its children and the new child
  have hbelow : ∀ i b, 0 < i → parent i = parent j →
      (swap h (parent j) j)[i]? = some b → p ≤ b := by
    intro i b hpos hpar hb
    rw [getElem?_swap hp hx] at hb
    by_cases hij : i = j
    · rw [if_pos hij] at hb
      exact (Option.some.inj hb).le
    · have hne : i ≠ parent j := fun heq => parent_ne hpos (hpar.trans heq.symm)
      rw [if_neg hij, if_neg hne] at hb
      exact ho.others i p b hij (hpar ▸ hp) hb
  refine ⟨?_, ?_⟩
  · intro i a b hi ha hb
    rw [getElem?_swap hp hx] at ha
    -- siblings of the new child, its own children, and the rest
    by_cases hpar : parent i = parent j
    · rw [if_neg (hpar ▸ hj), if_pos hpar] at ha
      cases ha
      have hpos : 0 < i := pos_of_parent_ne (hpar ▸ hi.symm)
      exact hlt.le.trans (hbelow i b hpos hpar hb)
    · have hij : i ≠ j := fun heq => hpar (congrArg parent heq)
      rw [if_neg hpar] at ha
      rw [getElem?_swap hp hx, if_neg hij, if_neg hi] at hb
      by_cases hchild : parent i = j
      · rw [if_pos hchild] at ha
        cases ha
        have hpos : 0 < i := pos_of_parent_ne (hchild ▸ hij.symm)
        exact ho.children i p b hpos hchild hp hb
      · rw [if_neg hchild] at ha
        exact ho.others i a b hij ha hb
  · intro i a b hpos hpar ha hb
    refine le_trans ?_ (hbelow i b hpos hpar hb)
    have hlow : parent (parent j) ≠ j := by
      have hup := parent_lt (pos_of_parent_ne hj)
      unfold parent at hup ⊢
      omega
    rw [getElem?_swap hp hx, if_neg hlow] at ha
    -- the root is its own parent, and holds the moved element
    by_cases hroot : parent (parent j) = parent j
    · rw [if_pos hroot] at ha
      cases ha
      exact hlt.le
    · rw [if_neg hroot] at ha
      exact ho.others (parent j) a p hj ha hp

/-- `up` keeps the elements. -/
theorem perm_up (fuel : ℕ) (h : List α) (j : ℕ) : (up fuel h j).Perm h := by
  induction fuel generalizing h j with
  | zero => exact .refl h
  | succ fuel ih =>
      rw [up]
      split
      · exact .refl h
      · exact (ih _ _).trans (perm_swap _ _ _)

/-- The loop ends at the root at the latest. -/
theorem isHeap_up (fuel : ℕ) (ho : UpOrder h j) (hfuel : j ≤ fuel) :
    IsHeap (up fuel h j) := by
  induction fuel generalizing h j with
  | zero =>
      have hroot : parent j = j := by
        unfold parent
        omega
      exact ho.finish (.inl hroot)
  | succ fuel ih =>
      rw [up]
      split
      next hstop => exact ho.finish hstop
      next hgo =>
        rw [not_or, not_not] at hgo
        have hlt := parent_lt (pos_of_parent_ne hgo.1)
        exact ih (ho.move hgo.1 hgo.2) (by omega)

/-! ## Sinking -/

/-- The smaller child of place `i` among the first `n`. -/
def child (h : List α) (i n : ℕ) : ℕ :=
  if 2 * i + 2 < n ∧ less h (2 * i + 2) (2 * i + 1) then 2 * i + 2
  else 2 * i + 1

/-- The element at `i` sinks among the first `n` while a child is below it. -/
def down : ℕ → List α → ℕ → ℕ → List α
  | 0, h, _, _ => h
  | fuel + 1, h, i, n =>
      if n ≤ 2 * i + 1 ∨ ¬ less h (child h i n) i then h
      else down fuel (swap h i (child h i n)) (child h i n) n

theorem eq_of_parent_eq {k : ℕ} (hk : 0 < k) (hpar : parent k = i) :
    k = 2 * i + 1 ∨ k = 2 * i + 2 := by
  unfold parent at hpar
  omega

/-- The smaller child of a place that has one. -/
theorem child_spec (hn : n ≤ h.length) (hi : 2 * i + 1 < n) :
    i < child h i n ∧ child h i n < n ∧ parent (child h i n) = i ∧
      ∃ c, h[child h i n]? = some c ∧
        ∀ k b, k < n → 0 < k → parent k = i → h[k]? = some b → c ≤ b := by
  have hl : h[2 * i + 1]? = some (h.get ⟨2 * i + 1, hi.trans_le hn⟩) :=
    List.getElem?_eq_getElem _
  unfold child
  split
  -- the right child is there and smaller
  next hright =>
    obtain ⟨b, a, hb, ha, hlt⟩ := exists_of_less hright.2
    refine ⟨by omega, hright.1, by unfold parent; omega, b, hb, ?_⟩
    intro k c _ hpos hpar hc
    rcases eq_of_parent_eq hpos hpar with rfl | rfl
    · cases ha.symm.trans hc
      exact hlt.le
    · cases hb.symm.trans hc
      exact le_rfl
  -- it is not there, or not smaller
  next hleft =>
    refine ⟨by omega, hi, by unfold parent; omega, _, hl, ?_⟩
    intro k c hk hpos hpar hc
    rcases eq_of_parent_eq hpos hpar with rfl | rfl
    · cases hl.symm.trans hc
      exact le_rfl
    · have hless : ¬ less h (2 * i + 2) (2 * i + 1) := fun hl => hleft ⟨hk, hl⟩
      rw [less_of hc hl] at hless
      simpa using hless

/-- Only the children of place `i` may be below their parent, and they are not
    below the parent of `i`. -/
structure DownOrder (h : List α) (i n : ℕ) : Prop where
  others : ∀ k a b, k < n → parent k ≠ i → h[parent k]? = some a →
    h[k]? = some b → a ≤ b
  children : 0 < i → ∀ k a b, k < n → 0 < k → parent k = i →
    h[parent i]? = some a → h[k]? = some b → a ≤ b

/-- Where `down` stops the first `n` are a heap. -/
theorem DownOrder.finish (ho : DownOrder h i n) (hn : n ≤ h.length)
    (hstop : n ≤ 2 * i + 1 ∨ ¬ less h (child h i n) i) : HeapTo h n := by
  intro k a b hk ha hb
  by_cases hpar : parent k = i
  · rcases Nat.eq_zero_or_pos k with rfl | hpos
    · exact (Option.some.inj (ha.symm.trans hb)).le
    · rcases hstop with hleaf | hless
      · have hchild := eq_of_parent_eq hpos hpar
        omega
      · have hi : 2 * i + 1 < n := by
          have hchild := eq_of_parent_eq hpos hpar
          omega
        obtain ⟨-, -, -, c, hc, hmin⟩ := child_spec hn hi
        rw [hpar] at ha
        rw [less_of hc ha] at hless
        exact le_trans (by simpa using hless) (hmin k b hk hpos hpar hb)
  · exact ho.others k a b hk hpar ha hb

/-- One round of `down` moves the doubtful place to the smaller child. -/
theorem DownOrder.move (ho : DownOrder h i n) (hn : n ≤ h.length)
    (hi : 2 * i + 1 < n) (hless : less h (child h i n) i = true) :
    DownOrder (swap h i (child h i n)) (child h i n) n := by
  obtain ⟨hgt, hlt, hpc, c, hc, hmin⟩ := child_spec hn hi
  obtain ⟨c', x, hc', hx, hcx⟩ := exists_of_less hless
  cases hc.symm.trans hc'
  set m := child h i n
  refine ⟨?_, ?_⟩
  · intro k a b hk hpar ha hb
    rw [getElem?_swap hx hc, if_neg hpar] at ha
    rw [getElem?_swap hx hc] at hb
    -- below `i` stands the smaller child now, elsewhere what stood there
    by_cases hki : parent k = i
    · rw [if_pos hki] at ha
      cases ha
      by_cases hkm : k = m
      · rw [if_pos hkm] at hb
        cases hb
        exact hcx.le
      · rw [if_neg hkm] at hb
        by_cases hroot : k = i
        · rw [if_pos hroot] at hb
          exact (Option.some.inj hb).le
        · rw [if_neg hroot] at hb
          have hpos : 0 < k := pos_of_parent_ne (hki ▸ Ne.symm hroot)
          exact hmin k b hk hpos hki hb
    · rw [if_neg hki] at ha
      have hkm : k ≠ m := fun heq => hki (heq ▸ hpc)
      rw [if_neg hkm] at hb
      by_cases heq : k = i
      -- at `i` stands the smaller child, which was not below the parent of `i`
      · subst heq
        rw [if_pos rfl] at hb
        cases hb
        have hpos : 0 < k := pos_of_parent_ne hki
        exact ho.children hpos m a c hlt (by omega) hpc ha hc
      · rw [if_neg heq] at hb
        exact ho.others k a b hk hki ha hb
  · intro hpos k a b hk hk0 hpar ha hb
    have hkm : k ≠ m := fun heq => parent_ne hpos (heq ▸ hpar)
    have hki : k ≠ i := by
      have hup := parent_lt hk0
      omega
    rw [hpc, getElem?_swap hx hc, if_neg hgt.ne, if_pos rfl] at ha
    rw [getElem?_swap hx hc, if_neg hkm, if_neg hki] at hb
    cases ha
    exact ho.others k c b hk (by omega) (hpar ▸ hc) hb

/-- `down` keeps the elements. -/
theorem perm_down (fuel : ℕ) (h : List α) (i n : ℕ) :
    (down fuel h i n).Perm h := by
  induction fuel generalizing h i with
  | zero => exact .refl h
  | succ fuel ih =>
      rw [down]
      split
      · exact .refl h
      · exact (ih _ _).trans (perm_swap _ _ _)

/-- The loop ends at a leaf at the latest. -/
theorem heapTo_down (fuel : ℕ) (ho : DownOrder h i n) (hn : n ≤ h.length)
    (hfuel : n ≤ i + fuel) : HeapTo (down fuel h i n) n := by
  induction fuel generalizing h i with
  | zero => exact ho.finish hn (.inl (by omega))
  | succ fuel ih =>
      rw [down]
      split
      next hstop => exact ho.finish hn hstop
      next hgo =>
        rw [not_or, not_not, not_le] at hgo
        have hgt := (child_spec hn hgo.1).1
        refine ih (ho.move hn hgo.1 hgo.2) ?_ (by omega)
        rwa [(perm_swap _ _ _).length_eq]

/-- What lies beyond the first `n` elements is not touched. -/
theorem getElem?_down (fuel : ℕ) (hn : n ≤ h.length) {k : ℕ} (hk : n ≤ k) :
    (down fuel h i n)[k]? = h[k]? := by
  induction fuel generalizing h i with
  | zero => rfl
  | succ fuel ih =>
      rw [down]
      split
      · rfl
      next hgo =>
        rw [not_or, not_not, not_le] at hgo
        obtain ⟨hgt, hlt, -, c, hc, -⟩ := child_spec hn hgo.1
        obtain ⟨_, x, -, hx, -⟩ := exists_of_less hgo.2
        rw [ih (by rwa [(perm_swap _ _ _).length_eq]), getElem?_swap hx hc,
          if_neg (by omega), if_neg (by omega)]

/-! ## Push and pop -/

/-- `heap.Push`. -/
def push (h : List α) (x : α) : List α :=
  up h.length (h ++ [x]) h.length

/-- `heap.Pop`; the source panics on an empty heap. -/
def pop (h : List α) : Option (α × List α) :=
  let n := h.length - 1
  let d := down n (swap h 0 n) 0 n
  d[n]?.map fun x => (x, d.take n)

/-- **A PUSH ADDS THE ELEMENT.** -/
theorem perm_push (h : List α) (x : α) : (push h x).Perm (x :: h) :=
  (perm_up _ _ _).trans List.perm_append_comm

/-- **A PUSH KEEPS THE ORDER.** -/
theorem isHeap_push (hh : IsHeap h) (x : α) : IsHeap (push h x) := by
  have hold : ∀ i, i ≠ h.length → (h ++ [x])[i]? = h[i]? := by
    intro i hi
    rcases Nat.lt_or_gt_of_ne hi with hlt | hgt
    · exact List.getElem?_append_left hlt
    · rw [List.getElem?_eq_none (by simpa using Nat.succ_le_of_lt hgt),
        List.getElem?_eq_none hgt.le]
  refine isHeap_up _ ⟨?_, ?_⟩ le_rfl
  · intro i a b hi ha hb
    rw [hold i hi] at hb
    obtain ⟨hlt, -⟩ := List.getElem?_eq_some_iff.mp hb
    have hpar : parent i ≤ i := by
      unfold parent
      omega
    rw [hold _ (by omega)] at ha
    exact hh i a b hlt ha hb
  · -- the new element has no children
    intro i a b hpos hpar _ hb
    obtain ⟨hlt, -⟩ := List.getElem?_eq_some_iff.mp hb
    have hup := parent_lt hpos
    rw [List.length_append, List.length_singleton] at hlt
    omega

/-- With the root swapped to the end, only the new root is in doubt. -/
theorem downOrder_swap {x y : α} (hh : IsHeap h) (hx : h[0]? = some x)
    (hy : h[n]? = some y) : DownOrder (swap h 0 n) 0 n := by
  refine ⟨?_, fun hpos => absurd hpos (lt_irrefl 0)⟩
  intro k a b hk hpar ha hb
  have hpos : 0 < k := by
    rcases Nat.eq_zero_or_pos k with rfl | hpos
    · exact absurd rfl hpar
    · exact hpos
  have hup := parent_lt hpos
  rw [getElem?_swap hx hy, if_neg (by omega), if_neg hpar] at ha
  rw [getElem?_swap hx hy, if_neg hk.ne, if_neg hpos.ne'] at hb
  exact hh k a b (List.getElem?_eq_some_iff.mp hb).1 ha hb

/-- **A POP TAKES THE LEAST ELEMENT** and keeps the order. -/
theorem pop_spec {x : α} (hh : IsHeap h) (hx : h[0]? = some x) :
    ∃ h', pop h = some (x, h') ∧ (x :: h').Perm h ∧ IsHeap h' ∧
      ∀ y ∈ h', x ≤ y := by
  obtain ⟨n, hn⟩ : ∃ n, h.length = n + 1 :=
    Nat.exists_eq_add_one.mpr (List.getElem?_eq_some_iff.mp hx).1
  have hy : h[n]? = some (h.get ⟨n, by omega⟩) := List.getElem?_eq_getElem _
  have hlen : (swap h 0 n).length = n + 1 := (perm_swap _ _ _).length_eq.trans hn
  set d := down n (swap h 0 n) 0 n with hd
  have hperm : d.Perm h := (perm_down _ _ _ _).trans (perm_swap _ _ _)
  -- `down` does not touch the last place, where the root was put
  have hlast : d[n]? = some x := by
    rw [hd, getElem?_down _ (by omega) le_rfl, getElem?_swap hx hy, if_pos rfl]
  have hdn : HeapTo d n :=
    heapTo_down n (downOrder_swap hh hx hy) (by omega) (by omega)
  have hsplit : d.take n ++ [x] = d := by
    obtain ⟨hnd, hget⟩ := List.getElem?_eq_some_iff.mp hlast
    rw [← hget, List.take_append_getElem hnd, List.take_of_length_le]
    rw [hperm.length_eq, hn]
  refine ⟨d.take n, ?_, ?_, ?_, ?_⟩
  · simp [pop, hn, ← hd, hlast]
  · have hfront : (x :: d.take n).Perm (d.take n ++ [x]) :=
      (List.perm_append_singleton x _).symm
    exact (hfront.trans (.of_eq hsplit)).trans hperm
  · intro i a b _ ha hb
    rw [List.getElem?_take, Option.ite_none_right_eq_some] at ha hb
    exact hdn i a b hb.1 ha.2 hb.2
  -- the root was the least of all
  · intro y hy
    obtain ⟨i, hi⟩ := List.mem_iff_getElem?.mp (hperm.subset (List.mem_of_mem_take hy))
    exact hh.root_le hx i y hi

end Heaps
