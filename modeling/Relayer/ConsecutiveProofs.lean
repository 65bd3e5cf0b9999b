import Mathlib

/-! # Runs of consecutive keys

    Items with natural numbers as keys, of which those are taken whose keys
    follow each other without a gap from some number on.

    * `IsRun`: the items with the keys `s`, `s + 1`, .. up to the first key
      that is missing;
    * `IsRun.cons`: a run one item longer, as a loop finds it;
    * `IsRun.mem_iff`: the items of a run, where no two keys are the same;
    * **`IsRun.split_iff`**: a run from the least key is all that lies below a
      number, followed by the run from that number on, if and only if up to the
      number no key is missing. -/

namespace Consecutive

variable {α : Type*} {key : α → ℕ} {items items' run : List α} {s : ℕ} {a b : α}

/-- The items with the keys from `s` on, up to the first key without one. -/
structure IsRun (key : α → ℕ) (items : List α) (s : ℕ) (run : List α) :
    Prop where
  keys : run.map key = List.range' s run.length
  subset : ∀ a ∈ run, a ∈ items
  stops : ∀ a ∈ items, key a ≠ s + run.length

/-- No two items have the same key. -/
def Distinct (key : α → ℕ) (items : List α) : Prop :=
  ∀ a ∈ items, ∀ b ∈ items, key a = key b → a = b

/-- Up to `bound` there is an item for every key between two others. -/
def GapFree (key : α → ℕ) (items : List α) (bound : ℕ) : Prop :=
  ∀ a ∈ items, ∀ b ∈ items, key b ≤ bound →
    ∀ k, key a ≤ k → k ≤ key b → ∃ c ∈ items, key c = k

/-! ## One item after another -/

/-- No run begins where there is no item. -/
theorem isRun_nil : IsRun key items s [] ↔ ∀ a ∈ items, key a ≠ s := by
  constructor
  · intro h a ha
    exact h.stops a ha
  · intro h
    exact ⟨rfl, fun a ha => (List.not_mem_nil ha).elim, h⟩

/-- A run from the next key on is made longer by an item. -/
theorem IsRun.cons (h : IsRun key items (s + 1) run) (ha : key a = s) :
    IsRun key (a :: items) s (a :: run) where
  keys := by
    rw [List.map_cons, ha, h.keys, List.length_cons, List.range'_succ]
  subset b hb := by
    rcases List.mem_cons.mp hb with rfl | hb
    · exact List.mem_cons_self
    · exact List.mem_cons_of_mem _ (h.subset b hb)
  stops b hb := by
    rw [List.length_cons]
    rcases List.mem_cons.mp hb with rfl | hb
    · omega
    · have hstops := h.stops b hb
      omega

/-- The order of the items does not matter to a run. -/
theorem IsRun.of_perm (h : IsRun key items s run) (hperm : items.Perm items') :
    IsRun key items' s run where
  keys := h.keys
  subset a ha := hperm.mem_iff.mp (h.subset a ha)
  stops a ha := h.stops a (hperm.mem_iff.mpr ha)

/-! ## The items of a run -/

theorem IsRun.exists_key (h : IsRun key items s run) {k : ℕ} :
    (∃ a ∈ run, key a = k) ↔ s ≤ k ∧ k < s + run.length := by
  rw [← List.mem_map, h.keys, List.mem_range'_1]

/-- **THE ITEMS OF A RUN** are those with a key in its range. -/
theorem IsRun.mem_iff (h : IsRun key items s run)
    (hdistinct : Distinct key items) :
    a ∈ run ↔ a ∈ items ∧ s ≤ key a ∧ key a < s + run.length := by
  constructor
  · intro ha
    exact ⟨h.subset a ha, h.exists_key.mp ⟨a, ha, rfl⟩⟩
  · rintro ⟨ha, hkey⟩
    obtain ⟨b, hb, heq⟩ := h.exists_key.mpr hkey
    rwa [hdistinct a ha b (h.subset b hb) heq.symm]

theorem IsRun.increasing (h : IsRun key items s run) :
    run.Pairwise (key · < key ·) := by
  rw [← List.pairwise_map, h.keys]
  exact List.pairwise_lt_range'

/-- Where there are no gaps, what is beyond the run is beyond the bound. -/
theorem IsRun.lt_of_gapFree (h : IsRun key items s run) {bound : ℕ}
    (hfree : GapFree key items bound) (hleast : ∃ a ∈ items, key a = s)
    (hb : b ∈ items) (hbound : key b ≤ bound) : key b < s + run.length := by
  by_contra hge
  obtain ⟨a, ha, rfl⟩ := hleast
  obtain ⟨c, hc, heq⟩ := hfree a ha b hb hbound (key a + run.length)
    (Nat.le_add_right _ _) (not_lt.mp hge)
  exact h.stops c hc heq

/-! ## Below a number, and from it on -/

/-- The items below `start` in order, then the run from `start` on. -/
structure Swept (key : α → ℕ) (items : List α) (start : ℕ)
    (stale rest : List α) : Prop where
  increasing : stale.Pairwise (key · < key ·)
  perm : stale.Perm (items.filter (fun a => decide (key a < start)))
  run : IsRun key items start rest

/-- The part of a run from a later key on. -/
theorem IsRun.drop (h : IsRun key items s run) {n : ℕ} (hn : n ≤ run.length) :
    IsRun key items (s + n) (run.drop n) where
  keys := by
    rw [List.map_drop, h.keys, List.length_drop, List.drop_range']
    simp
  subset a ha := h.subset a (List.mem_of_mem_drop ha)
  stops a ha := by
    have hstops := h.stops a ha
    rw [List.length_drop]
    omega

/-- The part of a run before a later key. -/
theorem IsRun.mem_take (h : IsRun key items s run)
    (hdistinct : Distinct key items) {n : ℕ} (hn : n ≤ run.length) :
    a ∈ run.take n ↔ a ∈ run ∧ key a < s + n := by
  have htake : (run.take n).map key = List.range' s n := by
    rw [List.map_take, h.keys, ← Nat.add_sub_of_le hn, ← List.range'_append_1]
    exact List.take_left' List.length_range'
  constructor
  · intro ha
    have hkey : key a ∈ (run.take n).map key := List.mem_map_of_mem ha
    rw [htake, List.mem_range'_1] at hkey
    exact ⟨List.mem_of_mem_take ha, hkey.2⟩
  · rintro ⟨ha, hlt⟩
    have hge := ((h.mem_iff hdistinct).mp ha).2.1
    have hkey : key a ∈ (run.take n).map key := by
      rw [htake, List.mem_range'_1]
      exact ⟨hge, hlt⟩
    obtain ⟨b, hb, heq⟩ := List.mem_map.mp hkey
    have hsame := hdistinct b (h.subset b (List.mem_of_mem_take hb)) a
      (h.subset a ha) heq
    rwa [← hsame]

/-- Without gaps the run from the least key sweeps what is below `start`. -/
theorem IsRun.swept (h : IsRun key items s run) (hnodup : items.Nodup)
    (hdistinct : Distinct key items) (hmem : ∃ a ∈ items, key a = s)
    (hleast : ∀ a ∈ items, s ≤ key a) {start : ℕ} (hstart : s ≤ start)
    (hfree : GapFree key items start) :
    Swept key items start (run.take (start - s)) (run.drop (start - s)) := by
  have hrun : run.Nodup :=
    h.increasing.imp fun hlt heq => absurd (heq ▸ hlt) (lt_irrefl _)
  -- the run reaches `start`, and the part before it is what was swept
  by_cases hlong : start - s ≤ run.length
  · refine ⟨h.increasing.sublist (List.take_sublist ..), ?_, ?_⟩
    · refine (List.perm_ext_iff_of_nodup (hrun.sublist (List.take_sublist ..))
        (hnodup.filter _)).mpr fun a => ?_
      rw [h.mem_take hdistinct hlong, h.mem_iff hdistinct, List.mem_filter,
        decide_eq_true_eq, show s + (start - s) = start by omega]
      constructor
      · rintro ⟨⟨ha, -⟩, hlt⟩
        exact ⟨ha, hlt⟩
      · rintro ⟨ha, hlt⟩
        exact ⟨⟨ha, hleast a ha, h.lt_of_gapFree hfree hmem ha hlt.le⟩, hlt⟩
    · have hdrop := h.drop hlong
      rwa [show s + (start - s) = start by omega] at hdrop
  · -- the run ends before `start`, and nothing is left up to there
    have hshort : run.length ≤ start - s := by omega
    rw [List.take_of_length_le hshort, List.drop_eq_nil_of_le hshort]
    refine ⟨h.increasing, ?_, isRun_nil.mpr ?_⟩
    · refine (List.perm_ext_iff_of_nodup hrun (hnodup.filter _)).mpr fun a => ?_
      rw [h.mem_iff hdistinct, List.mem_filter, decide_eq_true_eq]
      constructor
      · rintro ⟨ha, -, hlt⟩
        exact ⟨ha, by omega⟩
      · rintro ⟨ha, hlt⟩
        exact ⟨ha, hleast a ha, h.lt_of_gapFree hfree hmem ha hlt.le⟩
    · intro a ha heq
      have hlt := h.lt_of_gapFree hfree hmem ha heq.le
      omega

/-- What is up to `start` is part of what was swept. -/
theorem Swept.mem {start : ℕ} {stale rest : List α}
    (h : Swept key items start stale rest) (hdistinct : Distinct key items)
    (ha : a ∈ items) (hle : key a ≤ start) : a ∈ stale ++ rest := by
  rcases hle.lt_or_eq with hlt | heq
  · refine List.mem_append_left _ (h.perm.mem_iff.mpr ?_)
    exact List.mem_filter.mpr ⟨ha, decide_eq_true hlt⟩
  · refine List.mem_append_right _ ((h.run.mem_iff hdistinct).mpr ?_)
    -- a run from `start` on that has no item stops at the item with that key
    have hstops := h.run.stops a ha
    exact ⟨ha, heq.ge, by omega⟩

/-- **SWEEPING**: the run from the least key is all below `start`, in order,
    followed by the run from `start` on, exactly where no key up to `start` is
    missing. -/
theorem IsRun.split_iff (h : IsRun key items s run) (hnodup : items.Nodup)
    (hdistinct : Distinct key items) (hmem : ∃ a ∈ items, key a = s)
    (hleast : ∀ a ∈ items, s ≤ key a) {start : ℕ} (hstart : s ≤ start) :
    (∃ stale rest, run = stale ++ rest ∧ Swept key items start stale rest) ↔
      GapFree key items start := by
  constructor
  · rintro ⟨stale, rest, rfl, hswept⟩ a ha b hb hbound k hak hkb
    have hlast := (h.mem_iff hdistinct).mp (hswept.mem hdistinct hb hbound)
    obtain ⟨c, hc, heq⟩ := h.exists_key.mpr
      ⟨(hleast a ha).trans hak, hkb.trans_lt hlast.2.2⟩
    exact ⟨c, h.subset c hc, heq⟩
  · intro hfree
    exact ⟨_, _, (List.take_append_drop (start - s) run).symm,
      h.swept hnodup hdistinct hmem hleast hstart hfree⟩

end Consecutive
