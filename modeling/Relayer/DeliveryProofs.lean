import Mathlib

/-! # Sequences of deliveries

    Two general notions about items that arrive one after another, each with
    a rank.

    * `Kept` describes a memory that drops everything of lower rank whenever
      an item arrives that ranks at least as high as all items before it:
      which of the arrived items are still there.  `kept_concat` says what
      one more arrival does, `kept_iff_getElem?` speaks of positions.
    * `Interleaves` describes streams that deliver prefixes of one sequence
      side by side.  If the sequence is ordered by rank, a stream that has
      delivered an item has delivered everything below it (`mem_before`). -/

namespace Delivery

/-! ## A memory that forgets lower ranks -/

section Memory

variable {β κ : Type*} [LinearOrder β]

/-- Some occurrence of `x` has not been dropped since: whatever came after it
    with a higher rank was below something that had come before. -/
def Kept (seen : List (β × κ)) (x : β × κ) : Prop :=
  ∃ before after, seen = before ++ x :: after ∧
    ∀ mid y rest, after = mid ++ y :: rest → x.1 < y.1 →
      ∃ z ∈ before ++ x :: mid, y.1 < z.1

theorem Kept.mem {seen : List (β × κ)} {x : β × κ} (h : Kept seen x) :
    x ∈ seen := by
  obtain ⟨before, after, rfl, -⟩ := h
  exact List.mem_append_right _ List.mem_cons_self

theorem not_kept_nil (x : β × κ) : ¬ Kept [] x := by
  intro h
  exact absurd h.mem List.not_mem_nil

/-- **ONE MORE ARRIVAL**: the arrival itself is there, and what was there
    stays unless the arrival ranks above it and not below anything. -/
theorem kept_concat {seen : List (β × κ)} {x y : β × κ} :
    Kept (seen ++ [y]) x ↔
      x = y ∨ (Kept seen x ∧ ¬ ((∀ z ∈ seen, z.1 ≤ y.1) ∧ x.1 < y.1)) := by
  constructor
  · rintro ⟨before, after, heq, hafter⟩
    -- `x` is the last of the list, or stands before `y`
    rcases List.eq_nil_or_concat after with rfl | ⟨after, a, rfl⟩
    · obtain ⟨-, hlast⟩ := List.append_inj' heq rfl
      exact Or.inl (List.cons.inj hlast).1.symm
    · rw [List.concat_eq_append, ← List.cons_append,
        ← List.append_assoc] at heq
      obtain ⟨rfl, hlast⟩ := List.append_inj' heq rfl
      obtain rfl := (List.cons.inj hlast).1
      rw [List.concat_eq_append] at hafter
      refine Or.inr ⟨⟨before, after, rfl, ?_⟩, ?_⟩
      · intro mid z rest hmid hlt
        refine hafter mid z (rest ++ [y]) ?_ hlt
        rw [hmid, List.append_assoc, List.cons_append]
      · rintro ⟨htop, hlt⟩
        obtain ⟨z, hz, hyz⟩ := hafter after y [] rfl hlt
        exact absurd (htop z hz) (not_le.mpr hyz)
  -- and the last is always kept
  · rintro (rfl | ⟨⟨before, after, rfl, hafter⟩, hstay⟩)
    · refine ⟨seen, [], rfl, ?_⟩
      intro mid z rest hmid
      cases mid with
      | nil => cases hmid
      | cons a mid => cases hmid
    · refine ⟨before, after ++ [y], ?_, ?_⟩
      · rw [List.append_assoc, List.cons_append]
      · intro mid z rest hmid hlt
        rcases List.eq_nil_or_concat rest with rfl | ⟨rest, a, rfl⟩
        · obtain ⟨rfl, hlast⟩ := List.append_inj' hmid rfl
          obtain rfl := (List.cons.inj hlast).1
          -- `y` alone could drop `x`, and it tops nothing that would make it do
          -- so
          by_contra hnone
          push Not at hnone
          exact hstay ⟨hnone, hlt⟩
        · rw [List.concat_eq_append, ← List.cons_append,
            ← List.append_assoc] at hmid
          obtain ⟨rfl, -⟩ := List.append_inj' hmid rfl
          exact hafter mid z rest rfl hlt

/-- Nothing is dropped that no arrival ranks above. -/
theorem kept_of_top {seen : List (β × κ)} {x : β × κ} (hx : x ∈ seen)
    (htop : ∀ z ∈ seen, z.1 ≤ x.1) : Kept seen x := by
  obtain ⟨before, after, rfl⟩ := List.append_of_mem hx
  refine ⟨before, after, rfl, ?_⟩
  rintro mid y rest rfl hlt
  have hy : y ∈ before ++ x :: (mid ++ y :: rest) := by simp
  exact absurd (htop y hy) (not_le.mpr hlt)

/-- An item is gone once an item of a higher rank has arrived that nothing
    outranks, and the item itself has not arrived since. -/
theorem not_kept_of_above {before after : List (β × κ)} {x y : β × κ}
    (htop : ∀ z ∈ before, z.1 ≤ y.1) (hlt : x.1 < y.1) (hafter : x ∉ after) :
    ¬ Kept (before ++ y :: after) x := by
  induction after using List.reverseRecOn with
  | nil =>
      intro h
      rcases kept_concat.mp h with rfl | ⟨-, hstay⟩
      · exact lt_irrefl _ hlt
      · exact hstay ⟨htop, hlt⟩
  | append_singleton after a ih =>
      intro h
      rw [← List.cons_append, ← List.append_assoc] at h
      rcases kept_concat.mp h with rfl | ⟨hkept, -⟩
      · exact hafter (List.mem_append_right _ List.mem_cons_self)
      · exact ih (fun hx => hafter (List.mem_append_left _ hx)) hkept

/-- The position of an item splits the sequence. -/
theorem exists_split {α : Type*} {l : List α} {i : ℕ} {a : α}
    (h : l[i]? = some a) :
    ∃ before after, l = before ++ a :: after ∧ before.length = i := by
  obtain ⟨hlt, rfl⟩ := List.getElem?_eq_some_iff.mp h
  refine ⟨l.take i, l.drop (i + 1), ?_, List.length_take_of_le hlt.le⟩
  rw [← List.drop_eq_getElem_cons hlt, List.take_append_drop]

/-- The item at position `i` is `y`, and no item before ranks higher. -/
def Tops (seen : List (β × κ)) (i : ℕ) (y : β × κ) : Prop :=
  seen[i]? = some y ∧ ∀ h z, h < i → seen[h]? = some z → z.1 ≤ y.1

/-- **KEPT, BY POSITIONS**: the item has an occurrence after which nothing of
    a higher rank has arrived that tops the sequence. -/
theorem kept_iff_getElem? {seen : List (β × κ)} {x : β × κ} :
    Kept seen x ↔ ∃ j : ℕ, seen[j]? = some x ∧
      ∀ i y, j < i → Tops seen i y → y.1 ≤ x.1 := by
  constructor
  · rintro ⟨before, after, rfl, hafter⟩
    refine ⟨before.length, by simp, ?_⟩
    rintro i y hi ⟨hy, htop⟩
    by_contra hlt
    -- `y` topped the list after `x`: something between them is larger
    obtain ⟨pre, post, heq, rfl⟩ := exists_split hy
    rcases List.append_eq_append_iff.mp heq with
      ⟨mid, rfl, hmid⟩ | ⟨mid, rfl, -⟩
    · cases mid with
      | nil => simp at hi
      | cons a mid =>
          obtain ⟨rfl, hpost⟩ := List.cons.inj hmid
          obtain ⟨z, hz, hyz⟩ := hafter mid y post hpost (not_le.mp hlt)
          obtain ⟨h, hh⟩ := List.mem_iff_getElem?.mp hz
          have hbound := (List.getElem?_eq_some_iff.mp hh).1
          refine absurd (htop h z hbound ?_) (not_le.mpr hyz)
          rw [heq, List.getElem?_append_left hbound, hh]
    · rw [List.length_append] at hi
      omega
  · rintro ⟨j, hj, hafter⟩
    obtain ⟨before, after, rfl, rfl⟩ := exists_split hj
    refine ⟨before, after, rfl, ?_⟩
    rintro mid y rest rfl hlt
    -- a larger one after `x` with nothing above it would top the list
    by_contra hnone
    push Not at hnone
    have hassoc : before ++ x :: (mid ++ y :: rest) =
        (before ++ x :: mid) ++ y :: rest := by simp
    rw [hassoc] at hafter
    refine absurd (hafter (before ++ x :: mid).length y ?_ ⟨by simp, ?_⟩)
      (not_le.mpr hlt)
    · rw [List.length_append, List.length_cons]
      omega
    · intro h z hh hz
      rw [List.getElem?_append_left hh] at hz
      exact hnone z (List.mem_of_getElem? hz)

end Memory

/-! ## Streams side by side -/

section Streams

variable {ι α β : Type*} [DecidableEq ι] [LinearOrder β]

/-- What one stream has delivered. -/
def streamOf (i : ι) (ds : List (ι × α)) : List α :=
  (ds.filter (fun d => d.1 = i)).map Prod.snd

/-- Streams that have each delivered a prefix of `seq`, in any
    interleaving. -/
def Interleaves (seq : List α) (ds : List (ι × α)) : Prop :=
  ∀ i, streamOf i ds <+: seq

theorem streamOf_append (i : ι) (ds es : List (ι × α)) :
    streamOf i (ds ++ es) = streamOf i ds ++ streamOf i es := by
  rw [streamOf, List.filter_append, List.map_append]
  rfl

theorem streamOf_cons_self (i : ι) (a : α) (ds : List (ι × α)) :
    streamOf i ((i, a) :: ds) = a :: streamOf i ds := by
  simp [streamOf]

theorem mem_of_mem_streamOf {i : ι} {a : α} {ds : List (ι × α)}
    (h : a ∈ streamOf i ds) : a ∈ ds.map Prod.snd := by
  obtain ⟨d, hd, rfl⟩ := List.mem_map.mp h
  exact List.mem_map_of_mem (List.mem_filter.mp hd).1

variable {seq : List α} {before after : List (ι × α)} {i : ι} {a : α}

/-- An interleaving up to any moment is one. -/
theorem Interleaves.of_append (h : Interleaves seq (before ++ after)) :
    Interleaves seq before := by
  intro i
  have hpre := h i
  rw [streamOf_append] at hpre
  exact (List.prefix_append _ _).trans hpre

/-- Every delivered item is of the sequence. -/
theorem Interleaves.mem (h : Interleaves seq (before ++ (i, a) :: after)) :
    a ∈ seq := by
  refine (h i).subset ?_
  rw [streamOf_append, streamOf_cons_self]
  exact List.mem_append_right _ List.mem_cons_self

/-- **NOTHING IS LEFT BEHIND BY ITS OWN STREAM**: in a sequence ordered by
    rank, what ranks below a delivered item was delivered before it. -/
theorem Interleaves.mem_before {rank : α → β}
    (hseq : seq.Pairwise (fun x y => rank x ≤ rank y))
    (h : Interleaves seq (before ++ (i, a) :: after)) {b : α} (hb : b ∈ seq)
    (hlt : rank b < rank a) : b ∈ before.map Prod.snd := by
  obtain ⟨rest, hrest⟩ := h i
  rw [streamOf_append, streamOf_cons_self, List.append_assoc,
    List.cons_append] at hrest
  rw [← hrest] at hb hseq
  rcases List.mem_append.mp hb with hb | hb
  · exact mem_of_mem_streamOf hb
  · have hle : rank a ≤ rank b := by
      rcases List.mem_cons.mp hb with rfl | hb
      · exact le_refl _
      · exact (List.pairwise_cons.mp (List.pairwise_append.mp hseq).2.1).1 b hb
    exact absurd hlt (not_lt.mpr hle)

end Streams

end Delivery
