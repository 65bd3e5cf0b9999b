import Relayer.MapProofs

/-! # Ranging over a map

    Go ranges over a map in an order that it does not fix.  `RangeOf l m` says
    that `l` has the entries of `m` in some order, so that a result about every
    such list is one about every order.

    * `RangeOf.concat`: an order of a map with one more entry;
    * `rangeOf_entriesAt`: a map with finitely many keys has an order;
    * **`RangeOf.foldl_set`**, **`RangeOf.foldl_delete`**: a loop that writes
      the entries of a map into another one, or deletes its keys there, has
      the same result in every order;
    * **`group_eq`**: a loop that appends values to the lists of a map, and
      `rangeOf_groups`, an order of what it builds. -/

namespace Ranges

open Maps

variable {κ ν : Type*} {l l' : List (κ × ν)} {m : κ → Option ν} {k : κ} {v : ν}

/-- The entries of the map `m` in some order. -/
structure RangeOf (l : List (κ × ν)) (m : κ → Option ν) : Prop where
  nodup : (l.map Prod.fst).Nodup
  mem : ∀ k v, (k, v) ∈ l ↔ m k = some v

/-- The keys ranged over are those of the map. -/
theorem RangeOf.mem_keys (hl : RangeOf l m) :
    k ∈ l.map Prod.fst ↔ (m k).isSome = true := by
  rw [List.mem_map, Option.isSome_iff_exists]
  constructor
  · rintro ⟨⟨k', v⟩, hmem, rfl⟩
    exact ⟨v, (hl.mem k' v).mp hmem⟩
  · rintro ⟨v, hv⟩
    exact ⟨(k, v), (hl.mem k v).mpr hv, rfl⟩

/-- Another order. -/
theorem RangeOf.of_perm (hl : RangeOf l m) (hperm : l.Perm l') :
    RangeOf l' m where
  nodup := (hperm.map _).nodup_iff.mp hl.nodup
  mem k v := by rw [← hperm.mem_iff, hl.mem]

theorem rangeOf_nil : RangeOf ([] : List (κ × ν)) fun _ => none where
  nodup := List.nodup_nil
  mem k v := by simp

/-- One more entry comes last in some order. -/
theorem RangeOf.concat [DecidableEq κ] (hl : RangeOf l m) (hk : m k = none)
    (v : ν) : RangeOf (l ++ [(k, v)]) (set m k v) where
  nodup := by
    rw [List.map_append, List.nodup_append]
    refine ⟨hl.nodup, List.nodup_singleton _, fun a ha b hb hab => ?_⟩
    obtain rfl := List.mem_singleton.mp hb
    rw [hab, hl.mem_keys] at ha
    rw [hk] at ha
    cases ha
  mem k' v' := by
    rw [List.mem_append, List.mem_singleton, hl.mem, set_eq_some,
      Prod.mk.injEq]
    constructor
    · rintro (hm | ⟨rfl, rfl⟩)
      · refine Or.inr ⟨fun hkk => ?_, hm⟩
        rw [hkk, hk] at hm
        cases hm
      · exact Or.inl ⟨rfl, rfl⟩
    · rintro (⟨rfl, rfl⟩ | ⟨-, hm⟩)
      · exact Or.inr ⟨rfl, rfl⟩
      · exact Or.inl hm

/-- The entries of a map at the keys of a list. -/
def entriesAt (m : κ → Option ν) (ks : List κ) : List (κ × ν) :=
  ks.filterMap fun k => (m k).map (Prod.mk k)

theorem mem_entriesAt {ks : List κ} :
    (k, v) ∈ entriesAt m ks ↔ k ∈ ks ∧ m k = some v := by
  rw [entriesAt, List.mem_filterMap]
  constructor
  · rintro ⟨k', hk', heq⟩
    obtain ⟨v', hv', heq⟩ := Option.map_eq_some_iff.mp heq
    obtain ⟨rfl, rfl⟩ := Prod.mk.inj heq
    exact ⟨hk', hv'⟩
  · rintro ⟨hk, hv⟩
    exact ⟨k, hk, by rw [hv, Option.map_some]⟩

theorem map_fst_entriesAt (m : κ → Option ν) (ks : List κ) :
    (entriesAt m ks).map Prod.fst = ks.filter fun k => (m k).isSome := by
  induction ks with
  | nil => rfl
  | cons k ks ih =>
      rw [entriesAt, List.filterMap_cons, List.filter_cons, ← ih]
      cases m k with
      | none => rfl
      | some v => rfl

/-- **EVERY FINITE MAP HAS AN ORDER**, in that of a list with its keys. -/
theorem rangeOf_entriesAt {ks : List κ} (hks : ks.Nodup)
    (hmem : ∀ k, (m k).isSome = true → k ∈ ks) :
    RangeOf (entriesAt m ks) m where
  nodup := by
    rw [map_fst_entriesAt]
    exact hks.filter _
  mem k v := by
    rw [mem_entriesAt]
    exact and_iff_right_of_imp fun hv => hmem k (hv ▸ rfl)

/-! ## Loops that assign -/

section Loops

variable [DecidableEq κ] {m₀ : κ → Option ν}

/-- A key that is not assigned to keeps its value. -/
theorem foldl_set_of_not_mem (hk : k ∉ l.map Prod.fst) (m₀ : κ → Option ν) :
    l.foldl (fun m p => set m p.1 p.2) m₀ k = m₀ k := by
  induction l generalizing m₀ with
  | nil => rfl
  | cons p l ih =>
      rw [List.map_cons, List.mem_cons, not_or] at hk
      rw [List.foldl_cons, ih hk.2, set_of_ne hk.1]

/-- A key that is assigned to once has that value. -/
theorem foldl_set_of_mem (hnodup : (l.map Prod.fst).Nodup) (hmem : (k, v) ∈ l)
    (m₀ : κ → Option ν) :
    l.foldl (fun m p => set m p.1 p.2) m₀ k = some v := by
  induction l generalizing m₀ with
  | nil => cases hmem
  | cons p l ih =>
      rw [List.map_cons, List.nodup_cons] at hnodup
      rw [List.foldl_cons]
      rcases List.mem_cons.mp hmem with rfl | hmem
      · rw [foldl_set_of_not_mem hnodup.1, set_self]
      · exact ih hnodup.2 hmem _

/-- **EVERY ORDER WRITES THE SAME**: `for k, v := range m { m₀[k] = v }`. -/
theorem RangeOf.foldl_set (hl : RangeOf l m) (m₀ : κ → Option ν) (k : κ) :
    l.foldl (fun m p => set m p.1 p.2) m₀ k = (m k).or (m₀ k) := by
  cases hk : m k with
  | none =>
      have hnot : k ∉ l.map Prod.fst := by simp [hl.mem_keys, hk]
      rw [foldl_set_of_not_mem hnot, Option.none_or]
  | some v =>
      rw [foldl_set_of_mem hl.nodup ((hl.mem k v).mpr hk), Option.some_or]

/-- A loop that makes the value from the key. -/
theorem foldl_set_key {μ : Type*} (f : κ → μ) (l : List (κ × ν)) (k : κ) :
    l.foldl (fun m p => set m p.1 (f p.1)) (fun _ => none) k =
      if k ∈ l.map Prod.fst then some (f k) else none := by
  induction l using List.reverseRecOn with
  | nil => rfl
  | append_singleton l p ih =>
      rw [List.foldl_concat, List.map_append, List.map_singleton]
      by_cases hk : k = p.1
      · simp [hk]
      · rw [set_of_ne hk, ih]
        simp only [List.mem_append, List.mem_singleton, hk, or_false]

/-- **EVERY ORDER DELETES THE SAME**: `for k := range m { delete(m₀, k) }`. -/
theorem RangeOf.foldl_delete {μ : Type*} (hl : RangeOf l m)
    (m₀ : κ → Option μ) (k : κ) :
    l.foldl (fun m p => delete m p.1) m₀ k =
      if (m k).isSome then none else m₀ k := by
  have hfold : ∀ (l : List (κ × ν)) (m₀ : κ → Option μ),
      l.foldl (fun m p => delete m p.1) m₀ k =
        if k ∈ l.map Prod.fst then none else m₀ k := by
    intro l
    induction l with
    | nil => intro m₀; rfl
    | cons p l ih =>
        intro m₀
        rw [List.foldl_cons, ih]
        by_cases hk : k = p.1
        · simp [hk]
        · rw [delete_of_ne hk]
          simp only [List.map_cons, List.mem_cons, hk, false_or]
  rw [hfold]
  simp only [hl.mem_keys]

/-! ## Loops that group -/

/-- `m[k] = append(m[k], v)`. -/
def append (m : κ → Option (List ν)) (p : κ × ν) : κ → Option (List ν) :=
  set m p.1 ((m p.1).getD [] ++ [p.2])

/-- The values that a list has for a key. -/
def valuesAt (l : List (κ × ν)) (k : κ) : List ν :=
  (l.filter (·.1 = k)).map Prod.snd

theorem valuesAt_append (l l' : List (κ × ν)) (k : κ) :
    valuesAt (l ++ l') k = valuesAt l k ++ valuesAt l' k := by
  rw [valuesAt, List.filter_append, List.map_append]
  rfl

theorem valuesAt_perm (h : l.Perm l') (k : κ) :
    (valuesAt l k).Perm (valuesAt l' k) :=
  (h.filter _).map _

theorem mem_valuesAt : v ∈ valuesAt l k ↔ (k, v) ∈ l := by
  simp [valuesAt]

/-- A key that occurs once has one value. -/
theorem length_valuesAt_le_one (hnodup : (l.map Prod.fst).Nodup) (k : κ) :
    (valuesAt l k).length ≤ 1 := by
  have hkeys : (l.filter (·.1 = k)).map Prod.fst =
      List.replicate (l.filter (·.1 = k)).length k := by
    refine List.eq_replicate_iff.mpr ⟨List.length_map _, ?_⟩
    intro k' hk'
    obtain ⟨p, hp, rfl⟩ := List.mem_map.mp hk'
    exact of_decide_eq_true (List.mem_filter.mp hp).2
  have hsub : ((l.filter (·.1 = k)).map Prod.fst).Nodup :=
    hnodup.sublist (List.filter_sublist.map Prod.fst)
  rw [hkeys, List.nodup_replicate] at hsub
  rw [valuesAt, List.length_map]
  exact hsub

/-- **THE GROUPS** of a list: a key with values has all of them, in their
    order, and there is no other key. -/
theorem group_eq (l : List (κ × ν)) (k : κ) :
    l.foldl append (fun _ => none) k =
      if valuesAt l k = [] then none else some (valuesAt l k) := by
  induction l using List.reverseRecOn with
  | nil => rfl
  | append_singleton l p ih =>
      rw [List.foldl_concat, valuesAt_append]
      by_cases hk : p.1 = k
      · subst hk
        have hold : (l.foldl append (fun _ => none) p.1).getD [] =
            valuesAt l p.1 := by
          rw [ih]
          split
          next hnil => exact hnil.symm
          · rfl
        rw [append, set_self, hold]
        simp [valuesAt]
      · have hnone : valuesAt [p] k = [] := by simp [valuesAt, hk]
        rw [append, set_of_ne (Ne.symm hk), ih, hnone, List.append_nil]

/-- The groups of a list, in the order of the last occurrence of a key. -/
def groups (l : List (κ × ν)) : List (κ × List ν) :=
  (l.map Prod.fst).dedup.map (fun k => (k, valuesAt l k))

/-- No values where the key does not occur. -/
theorem valuesAt_eq_nil : valuesAt l k = [] ↔ k ∉ l.map Prod.fst := by
  rw [List.eq_nil_iff_forall_not_mem, List.mem_map]
  constructor
  · rintro hnone ⟨⟨k', v⟩, hmem, rfl⟩
    exact hnone v (mem_valuesAt.mpr hmem)
  · intro hnot v hv
    exact hnot ⟨(k, v), mem_valuesAt.mp hv, rfl⟩

/-- There is an order to range over the groups in. -/
theorem rangeOf_groups (l : List (κ × ν)) :
    RangeOf (groups l) (l.foldl append (fun _ => none)) where
  nodup := by
    rw [groups, List.map_map]
    exact (List.map_id' (l.map Prod.fst).dedup).symm ▸ List.nodup_dedup _
  mem k vs := by
    rw [group_eq, groups, List.mem_map]
    constructor
    · rintro ⟨k', hk', heq⟩
      obtain ⟨rfl, rfl⟩ := Prod.mk.inj heq
      rw [if_neg fun hnil =>
        valuesAt_eq_nil.mp hnil (List.mem_dedup.mp hk')]
    · intro h
      split at h
      · cases h
      next hne =>
          obtain rfl := Option.some.inj h
          refine ⟨k, List.mem_dedup.mpr ?_, rfl⟩
          by_contra hnot
          exact hne (valuesAt_eq_nil.mpr hnot)

end Loops

end Ranges
