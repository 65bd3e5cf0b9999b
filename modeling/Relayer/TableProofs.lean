import Relayer.MapProofs

/-! # Typed tables in one flat map

    Several tables, each with its own type of values, kept in one map from
    flat keys to data: an entry `k` of some table has values of type `V k`, a
    flat key and an encoding of its values (`Schema`).

    * a `Change` writes or deletes one entry, in the tables (`changeAll`) and
      in the flat map (`writeAll`);
    * `Schema.Holds` says that the map holds exactly the encoded tables, and
      **`Holds.writeAll`** that it stays so: as the flat keys differ, no
      change touches another entry;
    * **`changeAll_eq`**: an entry is what the last change made of it. -/

namespace Tables

variable {K B D : Type*} [DecidableEq K] [DecidableEq B] {V : K → Type*}

/-- An entry and its new value, or none if it is deleted. -/
structure Change (V : K → Type*) where
  entry : K
  value : Option (V entry)

/-- One change to the tables. -/
def change (t : (k : K) → Option (V k)) (c : Change V) : (k : K) → Option (V k) :=
  Function.update t c.entry c.value

/-- Changes one after another. -/
def changeAll (t : (k : K) → Option (V k)) (cs : List (Change V)) :
    (k : K) → Option (V k) :=
  cs.foldl change t

/-- What the last change of entry `k` made of it, if there was one. -/
def lastChange : List (Change V) → (k : K) → Option (Option (V k))
  | [], _ => none
  | c :: cs, k =>
      match lastChange cs k with
      | some v => some v
      | none => if h : c.entry = k then some (h ▸ c.value) else none

/-- How entries and values are written in the flat map. -/
structure Schema (V : K → Type*) (B D : Type*) where
  key : K → B
  key_inj : Function.Injective key
  encode : (k : K) → V k → D

/-- The map holds the tables. -/
def Schema.Holds (S : Schema V B D) (m : B → Option D)
    (t : (k : K) → Option (V k)) : Prop :=
  ∀ k, m (S.key k) = (t k).map (S.encode k)

/-- One change to the map. -/
def Schema.write (S : Schema V B D) (m : B → Option D) (c : Change V) :
    B → Option D :=
  match c.value with
  | some v => Maps.set m (S.key c.entry) (S.encode c.entry v)
  | none => Maps.delete m (S.key c.entry)

/-- Changes one after another. -/
def Schema.writeAll (S : Schema V B D) (m : B → Option D)
    (cs : List (Change V)) : B → Option D :=
  cs.foldl S.write m

variable {S : Schema V B D} {m : B → Option D} {t : (k : K) → Option (V k)}

omit [DecidableEq K] in
theorem writeAll_append (S : Schema V B D) (m : B → Option D)
    (cs ds : List (Change V)) :
    S.writeAll m (cs ++ ds) = S.writeAll (S.writeAll m cs) ds :=
  List.foldl_append

omit [DecidableEq K] [DecidableEq B] in
theorem holds_empty (S : Schema V B D) :
    S.Holds (fun _ => none) (fun _ => none) := by
  intro k
  rfl

/-- **ONE CHANGE** touches its own entry and no other. -/
theorem Schema.Holds.write (h : S.Holds m t) (c : Change V) :
    S.Holds (S.write m c) (change t c) := by
  obtain ⟨k, v⟩ := c
  intro k'
  by_cases hk : k' = k
  · subst hk
    rw [change, Function.update_self]
    cases v with
    | none => exact Maps.delete_self
    | some v => exact Maps.set_self
  · have hkey : S.key k' ≠ S.key k := fun heq => hk (S.key_inj heq)
    rw [change, Function.update_of_ne hk, ← h k']
    cases v with
    | none => exact Maps.delete_of_ne hkey
    | some v => exact Maps.set_of_ne hkey

/-- Writing changes keeps the store and the tables in step. -/
theorem Schema.Holds.writeAll (cs : List (Change V)) (h : S.Holds m t) :
    S.Holds (S.writeAll m cs) (changeAll t cs) := by
  induction cs generalizing m t with
  | nil => exact h
  | cons c cs ih => exact ih (h.write c)

/-- Later changes come before earlier ones. -/
theorem lastChange_append (cs ds : List (Change V)) (k : K) :
    lastChange (cs ++ ds) k = (lastChange ds k).or (lastChange cs k) := by
  induction cs with
  | nil => simp [lastChange]
  | cons c cs ih =>
      rw [List.cons_append, lastChange, ih, lastChange]
      cases lastChange ds k with
      | some v => rfl
      | none => rfl

/-- An entry without a last change was not changed. -/
theorem lastChange_eq_none_iff {cs : List (Change V)} {k : K} :
    lastChange cs k = none ↔ ∀ c ∈ cs, c.entry ≠ k := by
  induction cs with
  | nil => simp [lastChange]
  | cons c cs ih =>
      rw [lastChange, List.forall_mem_cons, ← ih]
      cases lastChange cs k with
      | some v => simp
      | none =>
          by_cases hk : c.entry = k
          · simp [hk]
          · simp [hk]

/-- The last change of an entry is one of the changes. -/
theorem mem_of_lastChange {cs : List (Change V)} {k : K} {v : Option (V k)}
    (h : lastChange cs k = some v) : ⟨k, v⟩ ∈ cs := by
  induction cs with
  | nil => cases h
  | cons c cs ih =>
      rw [lastChange] at h
      cases hrest : lastChange cs k with
      | some w =>
          rw [hrest] at h
          exact List.mem_cons_of_mem _ (ih (hrest.trans h))
      | none =>
          rw [hrest] at h
          dsimp only at h
          split at h
          · rename_i hk
            subst hk
            cases h
            exact List.mem_cons_self
          · cases h

/-- **THE LAST CHANGE** of an entry is what is left of it. -/
theorem changeAll_eq (cs : List (Change V)) (t : (k : K) → Option (V k))
    (k : K) : changeAll t cs k = (lastChange cs k).getD (t k) := by
  induction cs generalizing t with
  | nil => rfl
  | cons c cs ih =>
      have hstep : changeAll t (c :: cs) k = changeAll (change t c) cs k := rfl
      rw [hstep, ih, lastChange]
      cases lastChange cs k with
      | some v => rfl
      | none =>
          by_cases hk : c.entry = k
          · subst hk
            simp [change]
          · rw [dif_neg hk, change, Option.getD_none, Option.getD_none,
              Function.update_of_ne (Ne.symm hk)]

end Tables
