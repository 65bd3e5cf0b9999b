import Relayer.ChainsProofs
import Relayer.HeapProofs
import Relayer.TransactionProofs

/-! # The transaction pool

    `chain/tx_pool.go` and `chain/tx_list.go`.  `AddEvent` numbers an event
    with a nonce that all senders share, puts it into the queue of its sender
    and promotes what is ready there to the pending list of the sender.  A
    list is a map from nonces to transactions with a heap of its nonces and a
    cache of its transactions in order; `Pending` fills the caches.

    * `TxSortedMap.Sound`: the heap has the nonces of the map and the cache is
      nil or the transactions in order; `put`, `ready` and `flatten` keep it;
    * `ready_spec`: what `Ready` takes out of a list, and when it takes nothing;
    * `flatten_spec`: the answer of `Flatten`, whatever the order in which the
      map is ranged over;
    * `Kept`: what a pool holds after some events;
    * **`events_kept`**: in every run each event is pending exactly once, under
      its sender and with its own nonce, the queue is empty after each call,
      and no call panics. -/

namespace RelayerPool

open RelayerTransaction RelayerChains

/-! ## Nonces -/

/-- The order of `uint64`. -/
instance uint64LinearOrder : LinearOrder UInt64 where
  le_refl _ := UInt64.le_refl _
  le_trans _ _ _ := UInt64.le_trans
  le_antisymm _ _ := UInt64.le_antisymm
  le_total := UInt64.le_total
  lt_iff_le_not_ge a b := by
    rw [UInt64.lt_iff_toNat_lt, UInt64.le_iff_toNat_le, UInt64.le_iff_toNat_le]
    omega
  toDecidableLE := inferInstance
  toDecidableEq := inferInstance
  toDecidableLT := inferInstance

/-! ## Lists of transactions -/

section Lists

variable {E : Type*}

/-- `txSortedMap`; `items` has the entries of the map, each under the nonce of
    its transaction, and a nil `cache` is `none`. -/
structure TxSortedMap (E : Type*) where
  items : List (Transaction E)
  index : List UInt64
  cache : Option (List (Transaction E))

/-- `newTxSortedMap`. -/
def newTxSortedMap : TxSortedMap E :=
  ⟨[], [], none⟩

/-- `delete(m.items, nonce)`. -/
def without (items : List (Transaction E)) (nonce : UInt64) :
    List (Transaction E) :=
  items.filter (·.nonce ≠ nonce)

/-- `txSortedMap.Get`. -/
def TxSortedMap.get (m : TxSortedMap E) (nonce : UInt64) :
    Option (Transaction E) :=
  m.items.find? (·.nonce = nonce)

/-- `txSortedMap.Put`. -/
def TxSortedMap.put (m : TxSortedMap E) (tx : Transaction E) :
    TxSortedMap E where
  items := tx :: without m.items tx.nonce
  index :=
    if (m.get tx.nonce).isNone then Heaps.push m.index tx.nonce else m.index
  cache := none

/-- The loop of `Ready`.  Each round takes one nonce off the heap. -/
def TxSortedMap.readyLoop : ℕ → UInt64 → TxSortedMap E →
    List (Option (Transaction E)) × TxSortedMap E
  | 0, _, m => ([], m)
  | fuel + 1, next, m =>
      if m.index[0]? = some next then
        let popped := ((Heaps.pop m.index).map Prod.snd).getD []
        let rest := readyLoop fuel (next + 1)
          { m with items := without m.items next, index := popped }
        (m.get next :: rest.1, rest.2)
      else ([], m)

/-- `txSortedMap.Ready`: what is taken out, nil where the map has no entry, and
    what is left. -/
def TxSortedMap.ready (m : TxSortedMap E) (start : UInt64) :
    List (Option (Transaction E)) × TxSortedMap E :=
  match m.index[0]? with
  | none => ([], m)
  | some next =>
      if start < next then ([], m)
      else
        let taken := TxSortedMap.readyLoop m.index.length next m
        (taken.1, { taken.2 with cache := none })

/-- An order in which a map is ranged over. -/
structure RangeOrder (α : Type*) where
  order : List α → List α
  perm : ∀ items, (order items).Perm items

/-- `txSortedMap.Flatten`.  As the nonces of a map differ, every sort gives
    what the insertion sort gives. -/
def TxSortedMap.flatten (m : TxSortedMap E)
    (range : RangeOrder (Transaction E)) :
    List (Transaction E) × TxSortedMap E :=
  let txs := m.cache.getD
    ((range.order m.items).insertionSort (·.nonce ≤ ·.nonce))
  (txs, { m with cache := some txs })

/-- The heap has the nonces of the map. -/
structure TxSortedMap.Indexed (m : TxSortedMap E) : Prop where
  distinct : (m.items.map (·.nonce)).Nodup
  index : m.index.Perm (m.items.map (·.nonce))
  heap : Heaps.IsHeap m.index

/-- In strictly increasing order of the nonces. -/
def Increasing (txs : List (Transaction E)) : Prop :=
  txs.Pairwise (·.nonce < ·.nonce)

/-- The heap has the nonces of the map, and a cache its transactions in
    order. -/
structure TxSortedMap.Sound (m : TxSortedMap E) : Prop
    extends m.Indexed where
  cached : ∀ txs, m.cache = some txs → Increasing txs ∧ txs.Perm m.items

variable {m : TxSortedMap E} {tx : Transaction E} {txs : List (Transaction E)}

/-- A new map is sound. -/
theorem sound_new : (newTxSortedMap : TxSortedMap E).Sound where
  distinct := .nil
  index := .nil
  heap i a b hi := absurd hi (Nat.not_lt_zero i)
  cached txs htxs := by cases htxs

/-- Lists in increasing order with the same transactions are the same. -/
theorem Increasing.eq_of_perm (htxs : Increasing txs)
    {txs' : List (Transaction E)} (htxs' : Increasing txs')
    (hperm : txs.Perm txs') : txs = txs' :=
  hperm.eq_of_pairwise (fun _ _ _ _ hab hba => absurd hab hba.asymm) htxs htxs'

/-- Different transactions of a map have different nonces. -/
theorem TxSortedMap.Indexed.eq_of_nonce (hm : m.Indexed) {t u : Transaction E}
    (ht : t ∈ m.items) (hu : u ∈ m.items) (htu : t.nonce = u.nonce) : t = u :=
  List.inj_on_of_nodup_map hm.distinct ht hu htu

theorem get_eq_none :
    m.get tx.nonce = none ↔ ∀ t ∈ m.items, t.nonce ≠ tx.nonce := by
  simp [TxSortedMap.get]

theorem mem_of_get {nonce : UInt64} (hget : m.get nonce = some tx) :
    tx ∈ m.items ∧ tx.nonce = nonce :=
  ⟨List.mem_of_find?_eq_some hget, by simpa using List.find?_some hget⟩

theorem get_of_mem (hm : m.Indexed) (htx : tx ∈ m.items) :
    m.get tx.nonce = some tx := by
  cases hget : m.get tx.nonce with
  | none => exact absurd rfl (get_eq_none.mp hget tx htx)
  | some t =>
      obtain ⟨ht, hnonce⟩ := mem_of_get hget
      rw [hm.eq_of_nonce ht htx hnonce]

/-- An entry and what is left without it. -/
theorem cons_without_perm (hm : m.Indexed) (htx : tx ∈ m.items) :
    (tx :: without m.items tx.nonce).Perm m.items := by
  have hnodup : m.items.Nodup := hm.distinct.of_map _
  have hnot : tx ∉ without m.items tx.nonce := by simp [without]
  refine (List.perm_ext_iff_of_nodup ?_ hnodup).mpr fun t => ?_
  · exact (hnodup.filter _).cons hnot
  · rw [List.mem_cons, without, List.mem_filter, decide_eq_true_eq]
    constructor
    · rintro (rfl | ⟨ht, -⟩)
      · exact htx
      · exact ht
    · intro ht
      by_cases hnonce : t.nonce = tx.nonce
      · exact .inl (hm.eq_of_nonce ht htx hnonce)
      · exact .inr ⟨ht, hnonce⟩

theorem without_of_fresh (hfresh : ∀ t ∈ m.items, t.nonce ≠ tx.nonce) :
    without m.items tx.nonce = m.items :=
  List.filter_eq_self.mpr fun t ht => decide_eq_true (hfresh t ht)

/-- After a put the nonces are still different. -/
theorem nodup_put (hm : m.Indexed) :
    ((m.put tx).items.map (·.nonce)).Nodup := by
  have hold : ((without m.items tx.nonce).map (·.nonce)).Nodup :=
    hm.distinct.sublist (List.filter_sublist.map _)
  refine hold.cons ?_
  simp [without]

/-- A transaction is put under its nonce, in place of the one that may be
    there. -/
theorem TxSortedMap.Indexed.put (hm : m.Indexed) (tx : Transaction E) :
    (m.put tx).Indexed := by
  cases hget : m.get tx.nonce with
  | none =>
      have hfresh := get_eq_none.mp hget
      have hindex : (m.put tx).index = Heaps.push m.index tx.nonce := by
        simp [TxSortedMap.put, hget]
      refine ⟨nodup_put hm, ?_, hindex ▸ Heaps.isHeap_push hm.heap _⟩
      rw [hindex, TxSortedMap.put, without_of_fresh hfresh, List.map_cons]
      exact (Heaps.perm_push _ _).trans (hm.index.cons _)
  | some t =>
      have hindex : (m.put tx).index = m.index := by
        simp [TxSortedMap.put, hget]
      obtain ⟨ht, hnonce⟩ := mem_of_get hget
      refine ⟨nodup_put hm, ?_, hindex ▸ hm.heap⟩
      rw [hindex, TxSortedMap.put, List.map_cons, ← hnonce]
      exact hm.index.trans ((cons_without_perm hm ht).map _).symm

theorem TxSortedMap.Sound.put (hm : m.Sound) (tx : Transaction E) :
    (m.put tx).Sound :=
  ⟨hm.toIndexed.put tx, fun txs htxs => by cases htxs⟩

/-- One round of the loop takes the entry of the least nonce. -/
theorem TxSortedMap.Indexed.pop (hm : m.Indexed) {next : UInt64}
    (hnext : m.index[0]? = some next) :
    ∃ tx index, m.get next = some tx ∧
      Heaps.pop m.index = some (next, index) ∧
      (tx :: without m.items next).Perm m.items ∧
      ({ m with items := without m.items next, index := index } :
        TxSortedMap E).Indexed := by
  obtain ⟨index, hpop, hperm, hheap, -⟩ := Heaps.pop_spec hm.heap hnext
  have hmem : next ∈ m.items.map (·.nonce) :=
    hm.index.subset (List.mem_of_getElem? hnext)
  obtain ⟨tx, htx, rfl⟩ := List.mem_map.mp hmem
  have hitems := cons_without_perm hm htx
  refine ⟨tx, index, get_of_mem hm htx, hpop, hitems, ?_, ?_, hheap⟩
  · exact hm.distinct.sublist (List.filter_sublist.map _)
  · exact ((hperm.trans hm.index).trans (hitems.map _).symm).cons_inv

/-- The loop of `Ready` takes transactions out and keeps the rest. -/
theorem readyLoop_spec (fuel : ℕ) (next : UInt64) (hm : m.Indexed) :
    ∃ txs, (m.readyLoop fuel next).1 = txs.map some ∧
      (m.readyLoop fuel next).2.Indexed ∧
      (txs ++ (m.readyLoop fuel next).2.items).Perm m.items ∧
      (0 < fuel → m.index[0]? = some next → txs ≠ []) := by
  induction fuel generalizing m next with
  | zero => exact ⟨[], rfl, hm, .refl _, fun hpos => absurd hpos (by simp)⟩
  | succ fuel ih =>
      -- the root of the heap is the nonce wanted next, or the loop ends
      by_cases hnext : m.index[0]? = some next
      · obtain ⟨tx, index, hget, hpop, hitems, hrest⟩ := hm.pop hnext
        obtain ⟨txs, htxs, hleft, hperm, -⟩ := ih (next + 1) hrest
        rw [TxSortedMap.readyLoop, if_pos hnext, hpop, hget]
        refine ⟨tx :: txs, ?_, hleft, (hperm.cons tx).trans hitems, ?_⟩
        · exact congrArg (some tx :: ·) htxs
        · exact fun _ _ => List.cons_ne_nil _ _
      · rw [TxSortedMap.readyLoop, if_neg hnext]
        exact ⟨[], rfl, hm, .refl _, fun _ h => absurd h hnext⟩

theorem ready_of_none (hhead : m.index[0]? = none) (start : UInt64) :
    m.ready start = ([], m) := by
  rw [TxSortedMap.ready, hhead]

theorem ready_of_lt {start next : UInt64} (hhead : m.index[0]? = some next)
    (hlt : start < next) : m.ready start = ([], m) := by
  rw [TxSortedMap.ready, hhead]
  exact if_pos hlt

theorem ready_of_not_lt {start next : UInt64}
    (hhead : m.index[0]? = some next) (hlt : ¬ start < next) :
    m.ready start = ((m.readyLoop m.index.length next).1,
      { (m.readyLoop m.index.length next).2 with cache := none }) := by
  rw [TxSortedMap.ready, hhead]
  exact if_neg hlt

/-- The nonce of an entry has a place in the heap. -/
theorem TxSortedMap.Indexed.exists_place (hm : m.Indexed) (htx : tx ∈ m.items) :
    ∃ i : ℕ, m.index[i]? = some tx.nonce :=
  List.mem_iff_getElem?.mp (hm.index.symm.subset (List.mem_map_of_mem htx))

/-- The head of the heap is the smallest nonce of the map. -/
theorem head_cases (hm : m.Indexed) :
    m.items = [] ∧ m.index[0]? = none ∨
      ∃ t ∈ m.items, m.index[0]? = some t.nonce ∧
        ∀ u ∈ m.items, t.nonce ≤ u.nonce := by
  cases hhead : m.index[0]? with
  | none =>
      have hindex : m.index = [] := by simpa using hhead
      have hperm := hm.index
      rw [hindex] at hperm
      exact .inl ⟨List.map_eq_nil_iff.mp hperm.nil_eq.symm, rfl⟩
  | some next =>
      have hmem : next ∈ m.items.map (·.nonce) :=
        hm.index.subset (List.mem_of_getElem? hhead)
      obtain ⟨t, ht, rfl⟩ := List.mem_map.mp hmem
      refine .inr ⟨t, ht, rfl, fun u hu => ?_⟩
      obtain ⟨i, hi⟩ := hm.exists_place hu
      exact hm.heap.root_le hhead i _ hi

/-- **WHAT `READY` TAKES**: transactions of the list, which leave it; none only
    if all nonces are beyond `start`. -/
theorem ready_spec (hm : m.Sound) (start : UInt64) :
    ∃ txs, (m.ready start).1 = txs.map some ∧ (m.ready start).2.Sound ∧
      (txs ++ (m.ready start).2.items).Perm m.items ∧
      (∀ t ∈ m.items, t.nonce ≤ start → txs ≠ []) := by
  rcases head_cases hm.toIndexed with
    ⟨hempty, hhead⟩ | ⟨least, -, hhead, hleast⟩
  · rw [ready_of_none hhead]
    refine ⟨[], rfl, hm, .refl _, ?_⟩
    intro t ht
    rw [hempty] at ht
    cases ht
  · by_cases hlt : start < least.nonce
    · rw [ready_of_lt hhead hlt]
      refine ⟨[], rfl, hm, .refl _, ?_⟩
      intro t ht hle
      exact absurd (hlt.trans_le (hleast t ht)) hle.not_gt
    · rw [ready_of_not_lt hhead hlt]
      obtain ⟨txs, htxs, hleft, hperm, hne⟩ :=
        readyLoop_spec m.index.length least.nonce hm.toIndexed
      refine ⟨txs, htxs, ⟨⟨hleft.distinct, hleft.index, hleft.heap⟩, ?_⟩,
        hperm, ?_⟩
      · intro _ hcache
        cases hcache
      · exact fun _ _ _ => hne (List.getElem?_eq_some_iff.mp hhead).1 hhead

/-- Sorted by nonces that differ, a list is in increasing order. -/
theorem increasing_insertionSort (hdistinct : (txs.map (·.nonce)).Nodup) :
    Increasing (txs.insertionSort (·.nonce ≤ ·.nonce)) := by
  have htotal : Std.Total fun a b : Transaction E => a.nonce ≤ b.nonce :=
    ⟨fun a b => le_total a.nonce b.nonce⟩
  have htrans : IsTrans (Transaction E) fun a b => a.nonce ≤ b.nonce :=
    ⟨fun _ _ _ => le_trans⟩
  have hsorted := List.pairwise_insertionSort
    (fun a b : Transaction E => a.nonce ≤ b.nonce) txs
  have hperm := List.perm_insertionSort
    (fun a b : Transaction E => a.nonce ≤ b.nonce) txs
  have hne := List.pairwise_map.mp ((hperm.map (·.nonce)).nodup_iff.mpr hdistinct)
  exact hsorted.imp₂ (fun _ _ hle hne => lt_of_le_of_ne hle hne) hne

/-- **THE ANSWER OF `FLATTEN`**: the transactions of the list in increasing
    order. -/
theorem flatten_spec (hm : m.Sound) (range : RangeOrder (Transaction E)) :
    Increasing (m.flatten range).1 ∧ (m.flatten range).1.Perm m.items ∧
      (m.flatten range).2.Sound := by
  have htxs : Increasing (m.flatten range).1 ∧
      (m.flatten range).1.Perm m.items := by
    unfold TxSortedMap.flatten
    cases hcache : m.cache with
    | none =>
        have hperm := range.perm m.items
        refine ⟨increasing_insertionSort ?_,
          (List.perm_insertionSort _ _).trans hperm⟩
        exact ((hperm.map _).nodup_iff).mpr hm.distinct
    | some txs => exact hm.cached txs hcache
  refine ⟨htxs.1, htxs.2, ⟨⟨hm.distinct, hm.index, hm.heap⟩, ?_⟩⟩
  intro txs hcache
  cases hcache
  exact htxs

/-- `txList`. -/
structure TxList (E : Type*) where
  strict : Bool
  txs : TxSortedMap E

/-- `newTxList`. -/
def newTxList (strict : Bool) : TxList E :=
  ⟨strict, newTxSortedMap⟩

/-- `txList.Add`.  An older transaction under the nonce is only logged. -/
def TxList.add (l : TxList E) (tx : Transaction E) : TxList E :=
  { l with txs := l.txs.put tx }

/-- `txList.Ready`. -/
def TxList.ready (l : TxList E) (start : UInt64) :
    List (Option (Transaction E)) × TxList E :=
  ((l.txs.ready start).1, { l with txs := (l.txs.ready start).2 })

/-- `txList.Empty`. -/
def TxList.empty (l : TxList E) : Bool :=
  l.txs.items.length = 0

/-- `txList.Flatten`. -/
def TxList.flatten (l : TxList E) (range : RangeOrder (Transaction E)) :
    List (Transaction E) × TxList E :=
  ((l.txs.flatten range).1, { l with txs := (l.txs.flatten range).2 })

end Lists

/-! ## The pool -/

section Pool

variable {A D : Type*}

/-- `wrappers.BridgeOracleRequest` with a non-nil `Chainid`; `data` has the
    fields that the pool does not look at. -/
structure BridgeOracleRequest (A D : Type*) where
  bridge : A
  chainid : ℤ
  data : D
  deriving DecidableEq

/-- `Transaction.SenderAddress`. -/
def senderAddress (tx : Transaction (BridgeOracleRequest A D)) : A :=
  tx.originData.bridge

/-- `TxPool`. -/
structure TxPool (A D : Type*) where
  nonce : UInt64
  pending : A → Option (TxList (BridgeOracleRequest A D))
  queue : A → Option (TxList (BridgeOracleRequest A D))

/-- What can stop the pool. -/
inductive Panic where
  /-- `promoteExecutables`: "Error. Address doesn't exist". -/
  | addressMissing
  /-- A nil transaction is promoted. -/
  | nilTransaction
  deriving DecidableEq

/-- `NewTxPool`. -/
def newTxPool : TxPool A D :=
  ⟨1, fun _ => none, fun _ => none⟩

variable [DecidableEq A]

/-- `TxPool.add`. -/
def TxPool.add (pool : TxPool A D)
    (tx : Transaction (BridgeOracleRequest A D)) : TxPool A D :=
  let addr := senderAddress tx
  let list := (pool.queue addr).getD (newTxList false)
  { pool with queue := Maps.set pool.queue addr (list.add tx) }

/-- `TxPool.promoteTx`. -/
def TxPool.promoteTx (pool : TxPool A D) (addr : A)
    (tx : Transaction (BridgeOracleRequest A D)) : TxPool A D :=
  let list := (pool.pending addr).getD (newTxList true)
  { pool with pending := Maps.set pool.pending addr (list.add tx) }

/-- The inner loop of `promoteExecutables`. -/
def TxPool.promoteReady (addr : A) : TxPool A D →
    List (Option (Transaction (BridgeOracleRequest A D))) →
    Except Panic (TxPool A D)
  | pool, [] => .ok pool
  | _, none :: _ => .error .nilTransaction
  | pool, some tx :: ready => (pool.promoteTx addr tx).promoteReady addr ready

/-- The outer loop of `promoteExecutables`, for one account. -/
def TxPool.promoteAccount (pool : TxPool A D) (addr : A) :
    Except Panic (TxPool A D) :=
  match pool.queue addr with
  | none => .error .addressMissing
  | some list =>
      let taken := list.ready pool.nonce
      let left := { pool with queue := Maps.set pool.queue addr taken.2 }
      (left.promoteReady addr taken.1).map fun pool =>
        if taken.2.empty then
          { pool with queue := Maps.delete pool.queue addr }
        else pool

/-- `TxPool.promoteExecutables`, for accounts that are not nil. -/
def TxPool.promoteExecutables (pool : TxPool A D) (accounts : List A) :
    Except Panic (TxPool A D) :=
  accounts.foldlM TxPool.promoteAccount pool

/-- `TxPool.addEvLocked`; `add` returns no error, so that all senders are
    promoted. -/
def TxPool.addEvLocked (pool : TxPool A D)
    (txs : List (Transaction (BridgeOracleRequest A D))) :
    Except Panic (TxPool A D) :=
  let added := txs.foldl TxPool.add pool
  let adds := (txs.map senderAddress).dedup
  if 0 < adds.length then added.promoteExecutables adds else .ok added

/-- `TxPool.AddEvent`. -/
def TxPool.addEvent (pool : TxPool A D) (ev : BridgeOracleRequest A D) :
    Except Panic (TxPool A D) :=
  let tx := newTransaction ev pool.nonce (uint64 ev.chainid)
  (pool.addEvLocked [tx]).map fun pool => { pool with nonce := pool.nonce + 1 }

/-- The orders in which the lists are ranged over in one call of `Pending`. -/
abbrev RangeOrders (A D : Type*) :=
  A → RangeOrder (Transaction (BridgeOracleRequest A D))

/-- `TxPool.Pending`: the answer and the pool with its caches. -/
def TxPool.pendingTxs (pool : TxPool A D) (ranges : RangeOrders A D) :
    (A → Option (List (Transaction (BridgeOracleRequest A D)))) × TxPool A D :=
  (fun addr => (pool.pending addr).map fun list => (list.flatten (ranges addr)).1,
    { pool with pending := fun addr =>
        (pool.pending addr).map fun list => (list.flatten (ranges addr)).2 })

/-- A call of the pool. -/
inductive Call (A D : Type*) where
  | addEvent (ev : BridgeOracleRequest A D)
  | pending (ranges : RangeOrders A D)

/-- The pool after a call. -/
def TxPool.call (pool : TxPool A D) : Call A D → Except Panic (TxPool A D)
  | .addEvent ev => pool.addEvent ev
  | .pending ranges => .ok (pool.pendingTxs ranges).2

/-- The pool after calls. -/
def TxPool.run (pool : TxPool A D) (calls : List (Call A D)) :
    Except Panic (TxPool A D) :=
  calls.foldlM TxPool.call pool

/-- The event that a call adds. -/
def Call.event? : Call A D → Option (BridgeOracleRequest A D)
  | .addEvent ev => some ev
  | .pending _ => none

/-! ## What the pool is to hold -/

/-- The transaction of the event with `i` events before it. -/
def numbered (i : ℕ) (ev : BridgeOracleRequest A D) :
    Transaction (BridgeOracleRequest A D) :=
  newTransaction ev (UInt64.ofNat (i + 1)) (uint64 ev.chainid)

/-- The transactions of one sender among the events. -/
def sentBy (evs : List (BridgeOracleRequest A D)) (addr : A) :
    List (Transaction (BridgeOracleRequest A D)) :=
  (evs.mapIdx numbered).filter fun tx => senderAddress tx = addr

/-- The list, if any, has these transactions. -/
def Holds (list : Option (TxList (BridgeOracleRequest A D)))
    (txs : List (Transaction (BridgeOracleRequest A D))) : Prop :=
  match list with
  | none => txs = []
  | some list => txs ≠ [] ∧ list.txs.Sound ∧ list.txs.items.Perm txs

/-- What a pool holds after some events. -/
structure Kept (evs : List (BridgeOracleRequest A D)) (pool : TxPool A D) :
    Prop where
  queue : ∀ addr, pool.queue addr = none
  nonce : pool.nonce = UInt64.ofNat (evs.length + 1)
  pending : ∀ addr, Holds (pool.pending addr) (sentBy evs addr)

variable {evs : List (BridgeOracleRequest A D)} {pool : TxPool A D}
  {ev : BridgeOracleRequest A D} {addr : A}

/-- One more event is one more transaction of its sender. -/
theorem sentBy_concat (evs : List (BridgeOracleRequest A D))
    (ev : BridgeOracleRequest A D) (addr : A) :
    sentBy (evs ++ [ev]) addr =
      sentBy evs addr ++ if ev.bridge = addr then [numbered evs.length ev] else [] := by
  rw [sentBy, List.mapIdx_concat, List.filter_append]
  by_cases hev : ev.bridge = addr
  · simp [sentBy, senderAddress, numbered, newTransaction, hev]
  · simp [sentBy, senderAddress, numbered, newTransaction, hev]

omit [DecidableEq A] in
theorem nonce_numbered {i : ℕ} (hi : i + 1 < 2 ^ 64)
    (ev : BridgeOracleRequest A D) : (numbered i ev).nonce.toNat = i + 1 :=
  UInt64.toNat_ofNat_of_lt' hi

/-- The transactions of a sender, by the place of their event. -/
theorem mem_sentBy {tx : Transaction (BridgeOracleRequest A D)} :
    tx ∈ sentBy evs addr ↔
      ∃ i, ∃ hi : i < evs.length, tx = numbered i evs[i] ∧ evs[i].bridge = addr := by
  rw [sentBy, List.mem_filter, List.mem_mapIdx]
  constructor
  · rintro ⟨⟨i, hi, rfl⟩, haddr⟩
    exact ⟨i, hi, rfl, of_decide_eq_true haddr⟩
  · rintro ⟨i, hi, rfl, haddr⟩
    exact ⟨⟨i, hi, rfl⟩, decide_eq_true haddr⟩

/-- The events of one sender have increasing nonces. -/
theorem increasing_sentBy (hevs : evs.length < 2 ^ 64 - 1) (addr : A) :
    Increasing (sentBy evs addr) := by
  refine List.Pairwise.filter _ ?_
  rw [List.pairwise_iff_getElem]
  intro i j hi hj hij
  rw [List.length_mapIdx] at hi hj
  rw [List.getElem_mapIdx, List.getElem_mapIdx, UInt64.lt_iff_toNat_lt,
    nonce_numbered (by omega), nonce_numbered (by omega)]
  omega

/-! ## One call -/

/-- A transaction alone in a list of the queue is taken out. -/
theorem ready_added {E : Type*} (tx : Transaction E) {start : UInt64}
    (hstart : tx.nonce ≤ start) :
    ∃ list, ((newTxList false).add tx).ready start = ([some tx], list) ∧
      list.empty = true := by
  obtain ⟨txs, htxs, -, hperm, hne⟩ := ready_spec (sound_new.put tx) start
  have hone := List.perm_singleton.mp hperm
  have htx : txs ≠ [] := hne tx List.mem_cons_self hstart
  obtain ⟨t, txs, rfl⟩ := List.exists_cons_of_ne_nil htx
  obtain ⟨rfl, hrest⟩ := List.cons_eq_cons.mp hone
  obtain ⟨rfl, hitems⟩ := List.append_eq_nil_iff.mp hrest
  refine ⟨_, Prod.ext htxs rfl, ?_⟩
  exact decide_eq_true (congrArg List.length hitems)

/-- A queue of one ready transaction is promoted and deleted. -/
theorem promoteAccount_eq {list left : TxList (BridgeOracleRequest A D)}
    {tx : Transaction (BridgeOracleRequest A D)}
    (hqueue : pool.queue addr = some list)
    (hready : list.ready pool.nonce = ([some tx], left))
    (hempty : left.empty = true) :
    pool.promoteAccount addr = .ok { pool.promoteTx addr tx with
      queue := Maps.delete pool.queue addr } := by
  rw [TxPool.promoteAccount, hqueue]
  simp only [hready, hempty, TxPool.promoteReady, TxPool.promoteTx, Except.map,
    Maps.delete_set, if_true]

/-- **AN EVENT GOES THROUGH THE QUEUE** of a sender that has none, to the
    pending list of the sender. -/
theorem addEvent_eq (hqueue : pool.queue ev.bridge = none) :
    pool.addEvent ev = .ok
      { pool.promoteTx ev.bridge
          (newTransaction ev pool.nonce (uint64 ev.chainid)) with
        nonce := pool.nonce + 1
        queue := Maps.delete pool.queue ev.bridge } := by
  set tx := newTransaction ev pool.nonce (uint64 ev.chainid) with htx
  obtain ⟨list, hready, hempty⟩ := ready_added tx (le_refl tx.nonce)
  have hadd : pool.add tx = { pool with
      queue := Maps.set pool.queue ev.bridge ((newTxList false).add tx) } := by
    simp [TxPool.add, senderAddress, htx, newTransaction, hqueue]
  have haccount : (pool.add tx).promoteAccount ev.bridge = .ok
      { pool.promoteTx ev.bridge tx with
        queue := Maps.delete pool.queue ev.bridge } := by
    have hlist : (pool.add tx).queue ev.bridge =
        some ((newTxList false).add tx) := by
      rw [hadd]
      exact Maps.set_self
    rw [promoteAccount_eq hlist (by rw [hadd]; exact hready) hempty, hadd]
    simp only [TxPool.promoteTx, Maps.delete_set]
  have hlocked : pool.addEvLocked [tx] = (pool.add tx).promoteAccount ev.bridge := by
    simp [TxPool.addEvLocked, TxPool.promoteExecutables, senderAddress, htx,
      newTransaction]
  rw [TxPool.addEvent, ← htx, hlocked, haccount]
  rfl

/-- The nonce of an event belongs to no event before it. -/
theorem nonce_fresh (hevs : evs.length + 1 < 2 ^ 64 - 1)
    {tx : Transaction (BridgeOracleRequest A D)} (htx : tx ∈ sentBy evs addr) :
    tx.nonce ≠ (numbered evs.length ev).nonce := by
  obtain ⟨i, hi, rfl, -⟩ := mem_sentBy.mp htx
  intro heq
  have hnat := congrArg UInt64.toNat heq
  rw [nonce_numbered (by omega), nonce_numbered (by omega)] at hnat
  omega

section Holds

variable {list : Option (TxList (BridgeOracleRequest A D))}
  {tx : Transaction (BridgeOracleRequest A D)}
  {txs : List (Transaction (BridgeOracleRequest A D))}

omit [DecidableEq A]

/-- A fresh transaction is added to the list. -/
theorem Holds.add (hl : Holds list txs) (hfresh : ∀ t ∈ txs, t.nonce ≠ tx.nonce) :
    Holds (some ((list.getD (newTxList true)).add tx)) (txs ++ [tx]) := by
  refine ⟨List.append_ne_nil_of_right_ne_nil _ (List.cons_ne_nil _ _), ?_⟩
  cases list with
  | none =>
      cases hl
      exact ⟨sound_new.put tx, .refl _⟩
  | some list =>
      obtain ⟨-, hsound, hperm⟩ := hl
      refine ⟨hsound.put tx, ?_⟩
      have hitems : (list.txs.put tx).items = tx :: list.txs.items := by
        rw [TxSortedMap.put, without_of_fresh]
        exact fun t ht => hfresh t (hperm.subset ht)
      rw [Option.getD_some, TxList.add, hitems]
      exact (hperm.cons tx).trans (List.perm_append_singleton tx txs).symm

/-- Flattening the list keeps what it holds. -/
theorem Holds.flatten (hl : Holds list txs)
    (range : RangeOrder (Transaction (BridgeOracleRequest A D))) :
    Holds (list.map fun list => (list.flatten range).2) txs := by
  cases list with
  | none => exact hl
  | some list => exact ⟨hl.1, (flatten_spec hl.2.1 range).2.2, hl.2.2⟩

/-- The answer for one address. -/
theorem Holds.answer (hl : Holds list txs) (htxs : Increasing txs)
    (range : RangeOrder (Transaction (BridgeOracleRequest A D)))
    (out : List (Transaction (BridgeOracleRequest A D))) :
    (list.map fun list => (list.flatten range).1) = some out ↔
      out = txs ∧ out ≠ [] := by
  cases list with
  | none =>
      cases hl
      simp
  | some list =>
      obtain ⟨hne, hsound, hperm⟩ := hl
      obtain ⟨hincr, hflat, -⟩ := flatten_spec hsound range
      have heq : (list.flatten range).1 = txs :=
        hincr.eq_of_perm htxs (hflat.trans hperm)
      rw [Option.map_some, heq, Option.some_inj]
      constructor
      · rintro rfl
        exact ⟨rfl, hne⟩
      · exact fun hout => hout.1.symm

end Holds

/-- The next event is kept too. -/
theorem Kept.addEvent (hk : Kept evs pool) (ev : BridgeOracleRequest A D)
    (hevs : evs.length + 1 < 2 ^ 64 - 1) :
    ∃ pool', pool.addEvent ev = .ok pool' ∧ Kept (evs ++ [ev]) pool' := by
  refine ⟨_, addEvent_eq (hk.queue ev.bridge), ?_, ?_, ?_⟩
  · intro addr
    exact Maps.delete_none (hk.queue addr)
  · show pool.nonce + 1 = _
    rw [hk.nonce, List.length_append, List.length_singleton,
      UInt64.ofNat_add (evs.length + 1) 1]
    rfl
  · intro addr
    have htx : newTransaction ev pool.nonce (uint64 ev.chainid) =
        numbered evs.length ev := by rw [hk.nonce, numbered]
    rw [sentBy_concat, htx]
    show Holds (Maps.set pool.pending ev.bridge _ addr) _
    by_cases haddr : ev.bridge = addr
    · subst haddr
      rw [Maps.set_self, if_pos rfl]
      exact (hk.pending ev.bridge).add fun t ht => nonce_fresh hevs ht
    · rw [Maps.set_of_ne (Ne.symm haddr), if_neg haddr, List.append_nil]
      exact hk.pending addr

/-- **EVERY RUN KEEPS ITS EVENTS**, and does not panic. -/
theorem Kept.run (hk : Kept evs pool) (calls : List (Call A D))
    (hevs : (evs ++ calls.filterMap Call.event?).length < 2 ^ 64 - 1) :
    ∃ pool', pool.run calls = .ok pool' ∧
      Kept (evs ++ calls.filterMap Call.event?) pool' := by
  induction calls generalizing evs pool with
  | nil => exact ⟨pool, rfl, by simpa using hk⟩
  | cons call calls ih =>
      cases call with
      | addEvent ev =>
          rw [List.filterMap_cons_some (show Call.event? (.addEvent ev) = some ev
            from rfl), List.append_cons] at hevs ⊢
          obtain ⟨next, hnext, hkept⟩ := hk.addEvent ev (by
            rw [List.length_append, List.length_append] at hevs
            simp only [List.length_singleton] at hevs
            omega)
          obtain ⟨pool', hrun, hkept'⟩ := ih hkept hevs
          refine ⟨pool', ?_, hkept'⟩
          rw [TxPool.run, List.foldlM_cons, TxPool.call, hnext]
          exact hrun
      | pending ranges =>
          rw [List.filterMap_cons_none (show Call.event? (.pending ranges) = none
            from rfl)] at hevs ⊢
          have hkept : Kept evs (pool.pendingTxs ranges).2 :=
            ⟨hk.queue, hk.nonce, fun addr => (hk.pending addr).flatten _⟩
          exact ih hkept hevs

theorem kept_new : Kept [] (newTxPool : TxPool A D) :=
  ⟨fun _ => rfl, rfl, fun _ => rfl⟩

/-! ## Every run -/

/-- The transactions pending under an address. -/
def TxPool.txsAt (pool : TxPool A D) (addr : A) :
    List (Transaction (BridgeOracleRequest A D)) :=
  (pool.pending addr).elim [] (·.txs.items)

/-- What is pending for a sender are its events, in some order. -/
theorem Kept.perm (hk : Kept evs pool) (addr : A) :
    (pool.txsAt addr).Perm (sentBy evs addr) := by
  have hl := hk.pending addr
  unfold TxPool.txsAt
  cases hlist : pool.pending addr with
  | none =>
      rw [hlist] at hl
      exact .of_eq hl.symm
  | some list =>
      rw [hlist] at hl
      exact hl.2.2

/-- The only transaction with the nonce of an event is the event's own. -/
theorem eq_of_nonce_numbered (hevs : evs.length < 2 ^ 64 - 1) {i : ℕ}
    (hi : evs[i]? = some ev) {tx : Transaction (BridgeOracleRequest A D)}
    (htx : tx ∈ sentBy evs addr) (hnonce : tx.nonce = (numbered i ev).nonce) :
    tx = numbered i ev ∧ ev.bridge = addr := by
  obtain ⟨hlt, rfl⟩ := List.getElem?_eq_some_iff.mp hi
  obtain ⟨j, hj, rfl, haddr⟩ := mem_sentBy.mp htx
  have hnat := congrArg UInt64.toNat hnonce
  rw [nonce_numbered (by omega), nonce_numbered (by omega)] at hnat
  obtain rfl : j = i := by omega
  exact ⟨rfl, haddr⟩

/-- Among the events of an address, those with the nonce of a given event. -/
theorem filter_sentBy (hevs : evs.length < 2 ^ 64 - 1) {i : ℕ}
    (hi : evs[i]? = some ev) (addr : A) :
    (sentBy evs addr).filter (·.nonce = (numbered i ev).nonce) =
      if ev.bridge = addr then [numbered i ev] else [] := by
  by_cases haddr : ev.bridge = addr
  · rw [if_pos haddr]
    have hnodup : (sentBy evs addr).Nodup :=
      (increasing_sentBy hevs addr).imp fun hlt heq => absurd (heq ▸ hlt) (lt_irrefl _)
    refine List.perm_singleton.mp ?_
    refine (List.perm_ext_iff_of_nodup (hnodup.filter _) (List.nodup_singleton _)).mpr ?_
    intro tx
    rw [List.mem_filter, decide_eq_true_eq, List.mem_singleton]
    constructor
    · exact fun htx => (eq_of_nonce_numbered hevs hi htx.1 htx.2).1
    · rintro rfl
      obtain ⟨hlt, hget⟩ := List.getElem?_eq_some_iff.mp hi
      exact ⟨mem_sentBy.mpr ⟨i, hlt, by rw [hget], by rw [hget, haddr]⟩, rfl⟩
  · rw [if_neg haddr, List.filter_eq_nil_iff]
    intro tx htx hnonce
    exact haddr (eq_of_nonce_numbered hevs hi htx (of_decide_eq_true hnonce)).2

/-- **NO EVENT IS LOST OR REPEATED.**  After any calls with fewer than
    `2 ^ 64 - 1` events none has panicked; the queue is empty; the `i`-th event
    has nonce `i`, counted from one, and is pending once under its sender and
    under no other address; nothing else is pending; and `Pending` answers, for
    each address that has sent an event, exactly the transactions of the
    address in increasing order of their nonces. -/
theorem events_kept (calls : List (Call A D))
    (hevs : (calls.filterMap Call.event?).length < 2 ^ 64 - 1) :
    ∃ pool, newTxPool.run calls = .ok pool ∧
      (∀ addr, pool.queue addr = none) ∧
      (∀ i ev, (calls.filterMap Call.event?)[i]? = some ev →
        (numbered i ev).nonce.toNat = i + 1 ∧
        ∀ addr, (pool.txsAt addr).filter (·.nonce = (numbered i ev).nonce) =
          if ev.bridge = addr then [numbered i ev] else []) ∧
      (∀ addr, (pool.txsAt addr).Perm
        (sentBy (calls.filterMap Call.event?) addr)) ∧
      (∀ ranges addr txs, (pool.pendingTxs ranges).1 addr = some txs ↔
        txs = sentBy (calls.filterMap Call.event?) addr ∧ txs ≠ []) ∧
      ∀ addr, Increasing (sentBy (calls.filterMap Call.event?) addr) := by
  obtain ⟨pool, hrun, hk⟩ := kept_new.run calls hevs
  rw [List.nil_append] at hk
  refine ⟨pool, hrun, hk.queue, ?_, hk.perm, ?_, increasing_sentBy hevs⟩
  · intro i ev hi
    have hlt := (List.getElem?_eq_some_iff.mp hi).1
    refine ⟨nonce_numbered (by omega) ev, fun addr => ?_⟩
    have hperm := (hk.perm addr).filter (·.nonce = (numbered i ev).nonce)
    rw [filter_sentBy hevs hi addr] at hperm
    split at hperm
    next haddr => rw [List.perm_singleton.mp hperm, if_pos haddr]
    next haddr => rw [List.perm_nil.mp hperm, if_neg haddr]
  · intro ranges addr txs
    exact (hk.pending addr).answer (increasing_sentBy hevs addr) _ txs

/-- Every map is ranged over backwards. -/
def backwards : RangeOrders A D :=
  fun _ => ⟨List.reverse, List.reverse_perm⟩

/-- Events of two senders, with a call of `Pending` between them. -/
def sampleCalls : List (Call ℕ ℕ) :=
  [.addEvent ⟨7, 4, 10⟩, .pending backwards, .addEvent ⟨8, 94, 11⟩,
    .addEvent ⟨7, 94, 12⟩]

/-- Two events of one sender with another's between them. -/
theorem events_kept_sample :
    ∃ pool, newTxPool.run sampleCalls = .ok pool ∧
      (∀ addr, pool.queue addr = none) ∧
      (pool.pendingTxs backwards).1 7 = some
        [⟨4, ⟨7, 4, 10⟩, 1⟩, ⟨94, ⟨7, 94, 12⟩, 3⟩] := by
  obtain ⟨pool, hrun, hqueue, -, -, hpending, -⟩ :=
    events_kept sampleCalls (by decide)
  have hsent : sentBy (sampleCalls.filterMap Call.event?) 7 =
      [⟨4, ⟨7, 4, 10⟩, 1⟩, ⟨94, ⟨7, 94, 12⟩, 3⟩] := by decide
  exact ⟨pool, hrun, hqueue, (hpending backwards 7 _).mpr
    ⟨hsent.symm, List.cons_ne_nil _ _⟩⟩

end Pool

end RelayerPool
