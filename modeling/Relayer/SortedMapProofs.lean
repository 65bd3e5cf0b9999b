import Relayer.ConsecutiveProofs
import Relayer.PoolProofs

/-! # The nonce-sorted map over whole runs

    `txSortedMap` of `chain/tx_list.go` under any sequence of calls of `Put`,
    `Ready` and `Flatten` on a fresh map.  A map, a heap of its nonces and a
    cache have to agree after each of them; and what is in the map is told from
    the calls alone, by the last `Put` of a nonce that no `Ready` has taken.

    * `readyLoop_isRun`, `ready_isRun`: the loop of `Ready` takes the run of
      consecutive nonces from the smallest one, up to the largest `uint64`;
    * `sound_after`: the map, the heap and the cache agree in every reachable
      state;
    * `mem_after_iff`: the entries of a reachable map, by the calls;
    * **`coherent_after`**: the contract of the map in every reachable state;
    * **`ready_sweeps_iff`**: `Ready` leaves nothing below `start` behind, as
      its comment says, exactly if up to `start` no nonce is missing between
      two entries. -/

namespace RelayerSortedMap

open RelayerTransaction RelayerPool Consecutive

variable {E : Type*} {m : TxSortedMap E} {tx : Transaction E}

/-- The nonce of a transaction as a number. -/
def nonceOf (tx : Transaction E) : ℕ :=
  tx.nonce.toNat

/-! ## What `Ready` takes -/

theorem nonceOf_lt (tx : Transaction E) : nonceOf tx < 2 ^ 64 :=
  tx.nonce.toNat_lt

theorem distinct_nonceOf (hm : m.Indexed) : Distinct nonceOf m.items :=
  fun _ ht _ hu heq => hm.eq_of_nonce ht hu (UInt64.toNat_inj.mp heq)

/-- A nonce that is at most all others is the head of the heap. -/
theorem head_of_least (hm : m.Indexed) (htx : tx ∈ m.items)
    (hleast : ∀ t ∈ m.items, tx.nonce ≤ t.nonce) :
    m.index[0]? = some tx.nonce := by
  rcases head_cases hm with ⟨hempty, -⟩ | ⟨t, ht, hhead, hmin⟩
  · rw [hempty] at htx
    cases htx
  · rw [hhead, le_antisymm (hmin tx htx) (hleast t ht)]

/-- An entry that stays has a nonce beyond the least one, which is taken. -/
theorem succ_le_of_mem_without {s : ℕ} (hlow : ∀ t ∈ m.items, s ≤ nonceOf t)
    (hs : nonceOf tx = s) {u : Transaction E}
    (hu : u ∈ without m.items tx.nonce) : s + 1 ≤ nonceOf u := by
  obtain ⟨hu, hne⟩ := List.mem_filter.mp hu
  have hother : nonceOf u ≠ s := by
    intro heq
    exact of_decide_eq_true hne (UInt64.toNat_inj.mp (heq.trans hs.symm))
  have hge := hlow u hu
  omega

/-- No entry has a nonce that is below all of them and not the head. -/
theorem nonceOf_ne_of_head_ne (hm : m.Indexed) {s : ℕ}
    (hlow : ∀ t ∈ m.items, s ≤ nonceOf t)
    (hhead : ¬ m.index[0]? = some (UInt64.ofNat s)) :
    ∀ t ∈ m.items, nonceOf t ≠ s := by
  rintro t ht rfl
  refine hhead ?_
  rw [nonceOf, UInt64.ofNat_toNat]
  exact head_of_least hm ht fun u hu => UInt64.le_iff_toNat_le.mpr (hlow u hu)

/-- The loop of `Ready` stops at the first nonce without an entry.  The counter
    wraps at the largest nonce, where no entry is left. -/
theorem readyLoop_isRun (fuel s : ℕ) {txs : List (Transaction E)}
    (hm : m.Indexed) (hfuel : m.items.length ≤ fuel)
    (hlow : ∀ t ∈ m.items, s ≤ nonceOf t)
    (htxs : (m.readyLoop fuel (UInt64.ofNat s)).1 = txs.map some) :
    IsRun nonceOf m.items s txs := by
  induction fuel generalizing m s txs with
  | zero =>
      have hitems : m.items = [] := List.length_eq_zero_iff.mp (by omega)
      have hnil : txs = [] := List.map_eq_nil_iff.mp htxs.symm
      rw [hnil, isRun_nil, hitems]
      exact fun t ht => (List.not_mem_nil ht).elim
  | succ fuel ih =>
      rw [TxSortedMap.readyLoop] at htxs
      -- the round goes on while the root is the nonce wanted
      by_cases hhead : m.index[0]? = some (UInt64.ofNat s)
      · obtain ⟨tx, index, hget, hpop, hitems, hrest⟩ := hm.pop hhead
        obtain ⟨htx, hnonce⟩ := mem_of_get hget
        rw [if_pos hhead, hpop, hget] at htxs
        obtain ⟨t, rest, rfl, hfirst, hrun⟩ := List.map_eq_cons_iff.mp htxs.symm
        obtain rfl := Option.some.inj hfirst
        have hs : nonceOf t = s := by
          have hlt := (hlow t htx).trans_lt (nonceOf_lt t)
          rw [nonceOf, hnonce]
          exact UInt64.toNat_ofNat_of_lt' hlt
        have hlen := hitems.length_eq
        rw [List.length_cons] at hlen
        refine IsRun.of_perm (IsRun.cons (ih (s + 1) hrest ?_ ?_ ?_) hs) hitems
        · show (without m.items (UInt64.ofNat s)).length ≤ fuel
          omega
        · intro u hu
          refine succ_le_of_mem_without hlow hs ?_
          rwa [hnonce]
        · -- the next round asks for `next + 1` as a `uint64`
          rw [UInt64.ofNat_add]
          exact hrun.symm
      · rw [if_neg hhead] at htxs
        have hnil : txs = [] := List.map_eq_nil_iff.mp htxs.symm
        rw [hnil, isRun_nil]
        exact nonceOf_ne_of_head_ne hm hlow hhead

/-- Beyond `start` nothing is taken. -/
theorem ready_of_beyond (hm : m.Indexed) {start : UInt64}
    (hbeyond : ∀ t ∈ m.items, start < t.nonce) : m.ready start = ([], m) := by
  rcases head_cases hm with ⟨-, hhead⟩ | ⟨t, ht, hhead, -⟩
  · exact ready_of_none hhead start
  · exact ready_of_lt hhead (hbeyond t ht)

/-- **THE RUN `READY` TAKES** begins at the smallest nonce and ends before the
    first one without an entry. -/
theorem ready_isRun (hm : m.Sound) {start : UInt64} (htx : tx ∈ m.items)
    (hleast : ∀ t ∈ m.items, tx.nonce ≤ t.nonce) (hstart : tx.nonce ≤ start) :
    ∃ txs, (m.ready start).1 = txs.map some ∧
      (txs ++ (m.ready start).2.items).Perm m.items ∧
      IsRun nonceOf m.items (nonceOf tx) txs := by
  obtain ⟨txs, htxs, -, hperm, -⟩ := ready_spec hm start
  refine ⟨txs, htxs, hperm, ?_⟩
  have hhead := head_of_least hm.toIndexed htx hleast
  rw [ready_of_not_lt hhead hstart.not_gt] at htxs
  refine readyLoop_isRun m.index.length _ hm.toIndexed ?_ ?_ ?_
  · rw [hm.index.length_eq, List.length_map]
  · intro t ht
    exact UInt64.le_iff_toNat_le.mp (hleast t ht)
  · rw [nonceOf, UInt64.ofNat_toNat]
    exact htxs

/-! ## Runs of calls -/

/-- A call of a `txSortedMap`; `Flatten` with the order in which it ranges over
    the map. -/
inductive Op (E : Type*) where
  | put (tx : Transaction E)
  | ready (start : UInt64)
  | flatten (range : RangeOrder (Transaction E))

/-- What a call returns, and the map after it. -/
def call (m : TxSortedMap E) : Op E → List (Option (Transaction E)) × TxSortedMap E
  | .put tx => ([], m.put tx)
  | .ready start => m.ready start
  | .flatten range => ((m.flatten range).1.map some, (m.flatten range).2)

/-- The map after some calls. -/
def after (ops : List (Op E)) : TxSortedMap E :=
  ops.foldl (fun m op => (call m op).2) newTxSortedMap

/-- A call with what it has returned. -/
structure Done (E : Type*) where
  op : Op E
  out : List (Option (Transaction E))

/-- Some calls on a map with what they have returned. -/
def doneFrom (m : TxSortedMap E) : List (Op E) → List (Done E)
  | [] => []
  | op :: ops => ⟨op, (call m op).1⟩ :: doneFrom (call m op).2 ops

/-- The calls on a fresh map with what they have returned. -/
def done (ops : List (Op E)) : List (Done E) :=
  doneFrom newTxSortedMap ops

/-- A call puts a transaction with the nonce, or takes one out. -/
def Done.Changes (d : Done E) (nonce : UInt64) : Prop :=
  match d.op with
  | .put tx => tx.nonce = nonce
  | .ready _ => ∃ tx, some tx ∈ d.out ∧ tx.nonce = nonce
  | .flatten _ => False

/-- A transaction is the last one put for its nonce, and no `Ready` has taken
    it since. -/
def LastPut (ds : List (Done E)) (tx : Transaction E) : Prop :=
  ∃ before later, ds = before ++ ⟨.put tx, []⟩ :: later ∧
    ∀ d ∈ later, ¬ d.Changes tx.nonce

/-! ## Every reachable state -/

variable {ops : List (Op E)} {op : Op E}

theorem after_concat (ops : List (Op E)) (op : Op E) :
    after (ops ++ [op]) = (call (after ops) op).2 := by
  rw [after, List.foldl_concat, after]

theorem doneFrom_concat (m : TxSortedMap E) (ops : List (Op E)) (op : Op E) :
    doneFrom m (ops ++ [op]) = doneFrom m ops ++
      [⟨op, (call (ops.foldl (fun m op => (call m op).2) m) op).1⟩] := by
  induction ops generalizing m with
  | nil => rfl
  | cons first ops ih => exact congrArg (_ :: ·) (ih _)

theorem done_concat (ops : List (Op E)) (op : Op E) :
    done (ops ++ [op]) = done ops ++ [⟨op, (call (after ops) op).1⟩] :=
  doneFrom_concat _ ops op

/-- Every call keeps the map sound. -/
theorem sound_call (hm : m.Sound) (op : Op E) : (call m op).2.Sound := by
  cases op with
  | put tx => exact hm.put tx
  | ready start =>
      obtain ⟨-, -, hrest, -⟩ := ready_spec hm start
      exact hrest
  | flatten range => exact (flatten_spec hm range).2.2

/-- **THE MAP, THE HEAP AND THE CACHE AGREE** in every reachable state. -/
theorem sound_after (ops : List (Op E)) : (after ops).Sound := by
  induction ops using List.reverseRecOn with
  | nil => exact sound_new
  | append_singleton ops op ih =>
      rw [after_concat]
      exact sound_call ih op

/-- The last put, one call later. -/
theorem lastPut_concat {ds : List (Done E)} {d : Done E} :
    LastPut (ds ++ [d]) tx ↔
      d = ⟨.put tx, []⟩ ∨ LastPut ds tx ∧ ¬ d.Changes tx.nonce := by
  constructor
  · rintro ⟨before, later, heq, hlater⟩
    rcases List.eq_nil_or_concat later with rfl | ⟨later, last, rfl⟩
    · obtain ⟨-, hd⟩ := List.append_inj' heq rfl
      exact .inl (List.head_eq_of_cons_eq hd)
    · rw [List.concat_eq_append, ← List.cons_append, ← List.append_assoc] at heq
      obtain ⟨rfl, hd⟩ := List.append_inj' heq rfl
      obtain rfl := List.head_eq_of_cons_eq hd
      refine .inr ⟨⟨before, later, rfl, fun e he => ?_⟩, ?_⟩
      · exact hlater e (by simp [he])
      · exact hlater d (by simp)
  · rintro (rfl | ⟨⟨before, later, rfl, hlater⟩, hlast⟩)
    · exact ⟨ds, [], rfl, fun d hd => (List.not_mem_nil hd).elim⟩
    · refine ⟨before, later ++ [d], by simp, fun e he => ?_⟩
      rcases List.mem_append.mp he with he | he
      · exact hlater e he
      · rw [List.mem_singleton.mp he]
        exact hlast

/-- What one call does to the entries. -/
theorem mem_call_iff (hm : m.Sound) (op : Op E) :
    tx ∈ (call m op).2.items ↔
      (⟨op, (call m op).1⟩ : Done E) = ⟨.put tx, []⟩ ∨
        tx ∈ m.items ∧ ¬ Done.Changes ⟨op, (call m op).1⟩ tx.nonce := by
  cases op with
  | put t =>
      show tx ∈ t :: without m.items t.nonce ↔ _
      simp only [List.mem_cons, without, List.mem_filter, decide_eq_true_eq, call,
        Done.Changes, Done.mk.injEq, Op.put.injEq, and_true]
      rw [eq_comm, ne_comm]
  | ready start =>
      obtain ⟨txs, htxs, -, hperm, -⟩ := ready_spec hm start
      have hnodup := (hperm.map (·.nonce)).nodup_iff.mpr hm.distinct
      rw [List.map_append] at hnodup
      have hdisjoint := List.disjoint_of_nodup_append hnodup
      simp only [call, Done.Changes, htxs, List.mem_map, Option.some.injEq,
        exists_eq_right, Done.mk.injEq, reduceCtorEq, false_and, false_or]
      constructor
      · intro htx
        refine ⟨hperm.subset (List.mem_append_right _ htx), ?_⟩
        rintro ⟨t, ht, heq⟩
        exact hdisjoint (List.mem_map_of_mem ht)
          (heq ▸ List.mem_map_of_mem htx)
      · rintro ⟨htx, hkept⟩
        rcases List.mem_append.mp (hperm.symm.subset htx) with htaken | hleft
        · exact absurd ⟨tx, htaken, rfl⟩ hkept
        · exact hleft
  | flatten range =>
      simp only [call, Done.Changes, Done.mk.injEq, reduceCtorEq, false_and,
        false_or, not_false_eq_true, and_true]
      rfl

/-- **THE ENTRIES OF A REACHABLE MAP** are the last ones put and not taken. -/
theorem mem_after_iff (ops : List (Op E)) :
    tx ∈ (after ops).items ↔ LastPut (done ops) tx := by
  induction ops using List.reverseRecOn with
  | nil =>
      constructor
      · intro htx
        cases htx
      · rintro ⟨before, later, heq, -⟩
        exact absurd heq.symm (by simp [done, doneFrom])
  | append_singleton ops op ih =>
      rw [after_concat, done_concat, lastPut_concat, ← ih]
      exact mem_call_iff (sound_after ops) op

/-! ## The contract of the map -/

/-- What the map, the heap, the cache and the three calls are after some calls
    with what they have returned. -/
structure Coherent (m : TxSortedMap E) (ds : List (Done E)) : Prop where
  /-- The heap has each nonce of the map once. -/
  nodup_index : m.index.Nodup
  mem_index : ∀ nonce, nonce ∈ m.index ↔ (m.get nonce).isSome = true
  /-- No nonce is below the one above it in the heap. -/
  heap : Heaps.IsHeap m.index
  /-- No nonce has two entries. -/
  nodup_items : (m.items.map (·.nonce)).Nodup
  cached : ∀ txs, m.cache = some txs → Increasing txs ∧ txs.Perm m.items
  get : ∀ nonce tx, m.get nonce = some tx ↔ tx.nonce = nonce ∧ LastPut ds tx
  flatten : ∀ range,
    Increasing (m.flatten range).1 ∧ (m.flatten range).1.Perm m.items
  ready_nil : ∀ start, (∀ t ∈ m.items, start < t.nonce) →
    m.ready start = ([], m)
  ready_run : ∀ start, ∀ tx ∈ m.items, (∀ t ∈ m.items, tx.nonce ≤ t.nonce) →
    tx.nonce ≤ start → ∃ txs, (m.ready start).1 = txs.map some ∧
      (txs ++ (m.ready start).2.items).Perm m.items ∧
      IsRun nonceOf m.items (nonceOf tx) txs

theorem get_eq_some_iff (hm : m.Indexed) {nonce : UInt64} :
    m.get nonce = some tx ↔ tx.nonce = nonce ∧ tx ∈ m.items := by
  constructor
  · intro hget
    exact (mem_of_get hget).symm
  · rintro ⟨rfl, htx⟩
    exact get_of_mem hm htx

theorem mem_index_iff (hm : m.Indexed) (nonce : UInt64) :
    nonce ∈ m.index ↔ (m.get nonce).isSome = true := by
  rw [hm.index.mem_iff, List.mem_map, Option.isSome_iff_exists]
  simp only [get_eq_some_iff hm, and_comm]

/-- **THE CONTRACT OF `txSortedMap`** holds in every reachable state. -/
theorem coherent_after (ops : List (Op E)) :
    Coherent (after ops) (done ops) := by
  have hm := sound_after ops
  refine ⟨?_, mem_index_iff hm.toIndexed, hm.heap, hm.distinct, hm.cached, ?_,
    ?_, ?_, ?_⟩
  · exact hm.index.nodup_iff.mpr hm.distinct
  · intro nonce tx
    rw [get_eq_some_iff hm.toIndexed, mem_after_iff]
  · intro range
    obtain ⟨hincreasing, hperm, -⟩ := flatten_spec hm range
    exact ⟨hincreasing, hperm⟩
  · exact fun start => ready_of_beyond hm.toIndexed
  · exact fun start tx => ready_isRun hm

/-! ## What is left below `start` -/

/-- What the comment of `Ready` says: all below `start` is taken, in order, and
    then the run from `start` on. -/
structure SweepsReady (m : TxSortedMap E) (start : UInt64) : Prop where
  taken : ∃ stale rest, (m.ready start).1 = (stale ++ rest).map some ∧
    Increasing stale ∧
    stale.Perm (m.items.filter (fun t => decide (t.nonce < start))) ∧
    IsRun nonceOf m.items start.toNat rest
  left : ∀ t ∈ (m.ready start).2.items, ¬ t.nonce < start

/-- A sweep in the terms of the map. -/
theorem swept_iff {start : UInt64} {stale rest : List (Transaction E)} :
    Swept nonceOf m.items start.toNat stale rest ↔ Increasing stale ∧
      stale.Perm (m.items.filter (fun t => decide (t.nonce < start))) ∧
      IsRun nonceOf m.items start.toNat rest :=
  ⟨fun h => ⟨h.increasing, h.perm, h.run⟩, fun h => ⟨h.1, h.2.1, h.2.2⟩⟩

/-- Nothing is left of what was taken. -/
theorem sweepsReady_iff (hm : m.Sound) {start : UInt64}
    {txs : List (Transaction E)} (htxs : (m.ready start).1 = txs.map some)
    (hperm : (txs ++ (m.ready start).2.items).Perm m.items) :
    SweepsReady m start ↔ ∃ stale rest, txs = stale ++ rest ∧
      Swept nonceOf m.items start.toNat stale rest := by
  constructor
  · rintro ⟨⟨stale, rest, hout, hstale⟩, -⟩
    have heq := List.map_injective_iff.mpr (Option.some_injective _)
      (htxs.symm.trans hout)
    exact ⟨stale, rest, heq, swept_iff.mpr hstale⟩
  · rintro ⟨stale, rest, rfl, hswept⟩
    refine ⟨⟨stale, rest, htxs, swept_iff.mp hswept⟩, fun t ht hlt => ?_⟩
    have hnodup := hperm.nodup_iff.mpr (hm.distinct.of_map _)
    have hmem := hperm.subset (List.mem_append_right _ ht)
    have htaken : t ∈ stale := hswept.perm.mem_iff.mpr
      (List.mem_filter.mpr ⟨hmem, decide_eq_true hlt⟩)
    exact List.disjoint_of_nodup_append hnodup
      (List.mem_append_left _ htaken) ht

/-- **WHAT `READY` LEAVES BEHIND**: it takes all below `start`, and then the run
    from `start` on, exactly if between two entries up to `start` no nonce is
    missing. -/
theorem ready_sweeps_iff (ops : List (Op E)) (start : UInt64) :
    SweepsReady (after ops) start ↔
      GapFree nonceOf (after ops).items start.toNat := by
  have hm := sound_after ops
  by_cases hsome : ∃ t ∈ (after ops).items, t.nonce ≤ start
  · obtain ⟨t, ht, hle⟩ := hsome
    rcases head_cases hm.toIndexed with ⟨hempty, -⟩ | ⟨tx, htx, -, hleast⟩
    · rw [hempty] at ht
      cases ht
    · have hstart := (hleast t ht).trans hle
      obtain ⟨txs, htxs, hperm, hrun⟩ := ready_isRun hm htx hleast hstart
      rw [sweepsReady_iff hm htxs hperm]
      exact hrun.split_iff (hm.distinct.of_map _) (distinct_nonceOf hm.toIndexed)
        ⟨tx, htx, rfl⟩ (fun u hu => UInt64.le_iff_toNat_le.mp (hleast u hu))
        (UInt64.le_iff_toNat_le.mp hstart)
  · -- all is beyond `start`: nothing is taken, and there is nothing to take
    have hall : ∀ t ∈ (after ops).items, start < t.nonce :=
      fun t ht => not_le.mp fun hle => hsome ⟨t, ht, hle⟩
    have hready := ready_of_beyond hm.toIndexed hall
    have hbeyond : ∀ t ∈ (after ops).items, start.toNat < nonceOf t :=
      fun t ht => UInt64.lt_iff_toNat_lt.mp (hall t ht)
    refine iff_of_true ⟨⟨[], [], ?_, .nil, ?_, isRun_nil.mpr ?_⟩, ?_⟩ ?_
    · rw [hready]
      rfl
    · rw [List.filter_eq_nil_iff.mpr]
      intro t ht hlt
      exact (of_decide_eq_true hlt).asymm (hall t ht)
    · exact fun t ht => (hbeyond t ht).ne'
    · rw [hready]
      exact fun t ht => (hall t ht).asymm
    · intro t _ u hu hle
      exact absurd (hbeyond u hu) hle.not_gt

/-- The nonces 1 and 3, without 2. -/
def gapOps : List (Op ℕ) :=
  [.put ⟨4, 0, 1⟩, .put ⟨4, 0, 3⟩]

/-- With nonces 1 and 3 `Ready(5)` takes 1 and leaves 3, which is below 5. -/
theorem gap_left_behind :
    (after gapOps).ready 5 = ([some ⟨4, 0, 1⟩], ⟨[⟨4, 0, 3⟩], [3], none⟩) ∧
      ¬ SweepsReady (after gapOps) 5 := by
  have hready : (after gapOps).ready 5 =
      ([some ⟨4, 0, 1⟩], ⟨[⟨4, 0, 3⟩], [3], none⟩) := by rfl
  refine ⟨hready, fun hsweeps => ?_⟩
  have hleft := hsweeps.left ⟨4, 0, 3⟩
  rw [hready] at hleft
  exact hleft List.mem_cons_self (by decide)

end RelayerSortedMap
