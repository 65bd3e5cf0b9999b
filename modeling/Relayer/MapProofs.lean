import Mathlib

/-! # Finite maps as functions

    A map from keys to values is the function that looks a key up.  `set` and
    `delete` are the two assignments, and `Inverse` says that two maps are
    inverse to each other: every entry of one is an entry of the other with
    key and value exchanged.

    * `set_eq_some`, `delete_eq_some`: the entries after an assignment;
    * **`Inverse.set`**, **`Inverse.delete`**: a pair of inverse maps stays one
      when an entry is added to both, or taken out of both;
    * **`fill_last`**: the entries of a map that is written in a loop over a
      list, which may skip an item or end with an error, are those of the last
      items under their keys. -/

namespace Maps

variable {κ ν : Type*} [DecidableEq κ] [DecidableEq ν]

/-- `m[k] = v`. -/
def set (m : κ → Option ν) (k : κ) (v : ν) : κ → Option ν :=
  Function.update m k (some v)

/-- `delete(m, k)`. -/
def delete (m : κ → Option ν) (k : κ) : κ → Option ν :=
  Function.update m k none

section Entries

omit [DecidableEq ν]

variable {m : κ → Option ν} {k k' : κ} {v v' : ν}

@[simp] theorem set_self : set m k v k = some v := Function.update_self ..

@[simp] theorem delete_self : delete m k k = none := Function.update_self ..

theorem set_of_ne (h : k' ≠ k) : set m k v k' = m k' :=
  Function.update_of_ne h ..

theorem delete_of_ne (h : k' ≠ k) : delete m k k' = m k' :=
  Function.update_of_ne h ..

/-- The entries after `m[k] = v`. -/
theorem set_eq_some :
    set m k v k' = some v' ↔ (k' = k ∧ v' = v) ∨ (k' ≠ k ∧ m k' = some v') := by
  by_cases hk : k' = k
  · subst hk
    rw [set_self, Option.some_inj]
    constructor
    · exact fun h => Or.inl ⟨rfl, h.symm⟩
    · rintro (⟨-, rfl⟩ | ⟨hne, -⟩)
      · rfl
      · exact absurd rfl hne
  · rw [set_of_ne hk]
    constructor
    · exact fun h => Or.inr ⟨hk, h⟩
    · rintro (⟨rfl, -⟩ | ⟨-, h⟩)
      · exact absurd rfl hk
      · exact h

/-- The entries after `delete(m, k)`. -/
theorem delete_eq_some :
    delete m k k' = some v ↔ k' ≠ k ∧ m k' = some v := by
  by_cases hk : k' = k
  · subst hk
    rw [delete_self]
    exact ⟨fun h => absurd h (by simp), fun h => absurd rfl h.1⟩
  · rw [delete_of_ne hk]
    exact ⟨fun h => ⟨hk, h⟩, And.right⟩

/-- An assignment overwrites what was deleted before it. -/
theorem set_delete : set (delete m k) k v = set m k v :=
  Function.update_idem ..

/-- A deletion undoes an assignment. -/
theorem delete_set : delete (set m k v) k = delete m k :=
  Function.update_idem ..

/-- What is not there is not there after a deletion. -/
theorem delete_none (h : m k' = none) : delete m k k' = none := by
  by_cases hk : k' = k
  · rw [hk, delete_self]
  · rw [delete_of_ne hk, h]

end Entries

/-! ## A map written in a loop -/

/-- `for _, a := range as { .. m[k] = v .. }`, where the body may see the map,
    skip the item, or return an error. -/
def fill {α ε : Type*}
    (body : (κ → Option ν) → α → Except ε (Option (κ × ν))) :
    (κ → Option ν) → List α → Except ε (κ → Option ν)
  | m, [] => .ok m
  | m, a :: as =>
      match body m a with
      | .error err => .error err
      | .ok none => fill body m as
      | .ok (some (k, v)) => fill body (set m k v) as

omit [DecidableEq ν] in
/-- A body that does not look at the map has failed for no item of a filled
    one. -/
theorem ok_of_fill {α ε : Type*} {body : α → Except ε (Option (κ × ν))}
    {as : List α} {m m' : κ → Option ν}
    (hfill : fill (fun _ => body) m as = .ok m') {a : α} (ha : a ∈ as) :
    ∃ written, body a = .ok written := by
  induction as generalizing m with
  | nil => cases ha
  | cons b as ih =>
      rw [fill] at hfill
      cases hbody : body b with
      | error err =>
          rw [hbody] at hfill
          cases hfill
      | ok written =>
          rw [hbody] at hfill
          rcases List.mem_cons.mp ha with rfl | ha
          · exact ⟨written, hbody⟩
          · cases written with
            | none => exact ih hfill ha
            | some entry => exact ih hfill ha

omit [DecidableEq ν] in
/-- Where the body does not look at the map, an entry that was not there is
    that of the last item that has one under its key. -/
theorem fill_last {α ε : Type*} {body : α → Except ε (Option (κ × ν))}
    {as : List α} {m m' : κ → Option ν}
    (hfill : fill (fun _ => body) m as = .ok m') {k : κ} {v : ν}
    (hv : m' k = some v) :
    (m k = some v ∧ ∀ b ∈ as, ∀ w, body b ≠ .ok (some (k, w))) ∨
    ∃ before a after, as = before ++ a :: after ∧
      body a = .ok (some (k, v)) ∧
      ∀ b ∈ after, ∀ w, body b ≠ .ok (some (k, w)) := by
  induction as generalizing m with
  | nil =>
      cases hfill
      exact Or.inl ⟨hv, fun b hb => absurd hb List.not_mem_nil⟩
  | cons a as ih =>
      rw [fill] at hfill
      cases hbody : body a with
      | error err =>
          rw [hbody] at hfill
          cases hfill
      | ok written =>
          rw [hbody] at hfill
          cases written with
          | none =>
              rcases ih hfill with ⟨hm, hno⟩ | ⟨before, b, after, rfl, hb⟩
              · refine Or.inl ⟨hm, List.forall_mem_cons.mpr ⟨?_, hno⟩⟩
                intro w hw
                rw [hbody] at hw
                cases hw
              · exact Or.inr ⟨a :: before, b, after, rfl, hb⟩
          | some entry =>
              rcases ih hfill with ⟨hm, hno⟩ | ⟨before, b, after, rfl, hb⟩
              · -- the entry of this item, or an older one under another key
                rcases set_eq_some.mp hm with ⟨rfl, rfl⟩ | ⟨hne, hm⟩
                · exact Or.inr ⟨[], a, as, rfl, hbody, hno⟩
                · refine Or.inl ⟨hm, List.forall_mem_cons.mpr ⟨?_, hno⟩⟩
                  intro w hw
                  rw [hbody] at hw
                  cases hw
                  exact hne rfl
              · exact Or.inr ⟨a :: before, b, after, rfl, hb⟩

omit [DecidableEq ν] in
/-- A filled map has the keys it had, and those of the items that are never
    skipped. -/
theorem isSome_of_fill {α ε : Type*}
    {body : (κ → Option ν) → α → Except ε (Option (κ × ν))} {as : List α}
    {m m' : κ → Option ν} (hfill : fill body m as = .ok m') {k : κ}
    (hk : (m k).isSome = true ∨ ∃ a ∈ as, ∀ seen written,
      body seen a = .ok written → ∃ v, written = some (k, v)) :
    (m' k).isSome = true := by
  induction as generalizing m with
  | nil =>
      cases hfill
      rcases hk with hk | ⟨a, ha, -⟩
      · exact hk
      · exact absurd ha List.not_mem_nil
  | cons a as ih =>
      rw [fill] at hfill
      cases hbody : body m a with
      | error err =>
          rw [hbody] at hfill
          cases hfill
      | ok written =>
          rw [hbody] at hfill
          cases written with
          -- an item that always writes `k` would have written it here
          | none =>
              refine ih hfill (hk.imp id ?_)
              rintro ⟨b, hb, hentry⟩
              rcases List.mem_cons.mp hb with rfl | hb
              · obtain ⟨v, hv⟩ := hentry m none hbody
                cases hv
              · exact ⟨b, hb, hentry⟩
          | some entry =>
              refine ih hfill ?_
              by_cases hkk : k = entry.1
              · rw [hkk, set_self]
                exact Or.inl rfl
              · rw [set_of_ne hkk]
                refine hk.imp id ?_
                rintro ⟨b, hb, hentry⟩
                rcases List.mem_cons.mp hb with rfl | hb
                · obtain ⟨v, hv⟩ := hentry m _ hbody
                  cases hv
                  exact absurd rfl hkk
                · exact ⟨b, hb, hentry⟩

/-! ## Two maps that are inverse to each other -/

/-- The entries of one map are those of the other, turned round. -/
def Inverse (m : κ → Option ν) (m' : ν → Option κ) : Prop :=
  ∀ k v, m k = some v ↔ m' v = some k

section Inverses

variable {m : κ → Option ν} {m' : ν → Option κ} {k : κ} {v : ν}

omit [DecidableEq κ] [DecidableEq ν] in
theorem inverse_empty : Inverse (fun _ : κ => (none : Option ν)) (fun _ => none) :=
  fun _ _ => ⟨(by cases ·), (by cases ·)⟩

omit [DecidableEq κ] [DecidableEq ν] in
/-- A key that is not there is no value of the other map. -/
theorem Inverse.ne_of_none (h : Inverse m m') (hk : m k = none) {v' : ν}
    (hv : m' v' = some k) : False := by
  rw [(h k v').mpr hv] at hk
  cases hk

/-- **A NEW ENTRY** in both maps. -/
theorem Inverse.set (h : Inverse m m') (hk : m k = none) (hv : m' v = none) :
    Inverse (Maps.set m k v) (Maps.set m' v k) := by
  intro k' v'
  rw [set_eq_some, set_eq_some]
  constructor
  · rintro (⟨rfl, rfl⟩ | ⟨-, hentry⟩)
    · exact Or.inl ⟨rfl, rfl⟩
    · refine Or.inr ⟨?_, (h k' v').mp hentry⟩
      rintro rfl
      rw [(h k' v').mp hentry] at hv
      cases hv
  · rintro (⟨rfl, rfl⟩ | ⟨-, hentry⟩)
    · exact Or.inl ⟨rfl, rfl⟩
    · refine Or.inr ⟨?_, (h k' v').mpr hentry⟩
      rintro rfl
      exact h.ne_of_none hk hentry

/-- **AN ENTRY TAKEN OUT** of both maps. -/
theorem Inverse.delete (h : Inverse m m') (hk : m k = some v) :
    Inverse (Maps.delete m k) (Maps.delete m' v) := by
  intro k' v'
  rw [delete_eq_some, delete_eq_some]
  constructor
  · rintro ⟨hne, hentry⟩
    refine ⟨?_, (h k' v').mp hentry⟩
    rintro rfl
    exact hne (Option.some.inj (((h k' v').mp hentry).symm.trans
      ((h k v').mp hk)))
  · rintro ⟨hne, hentry⟩
    refine ⟨?_, (h k' v').mpr hentry⟩
    rintro rfl
    exact hne (Option.some.inj (((h k' v').mpr hentry).symm.trans hk))

end Inverses

end Maps
