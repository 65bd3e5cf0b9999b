import Relayer.PoolProofs
import Relayer.RangeProofs

/-! # Pending transactions by chain

    `PendingByChainId` of `chain/tx_pool.go` takes the answer of `Pending`,
    which has a list in increasing order for each sender, puts the lists one
    after another in the order in which the map is ranged over, and groups the
    result by chain.

    * `Orders`: the orders of the maps in one call, and `exists_orders`, that
      there are some;
    * `Orderly`: what holds of the pool after any calls, however many;
    * `pendingByChainId_eq` is the answer for one chain;
    * **`chains_grouped`**: each pending transaction is in the list of its own
      chain once; the lists are in order of the nonces, in every order of the
      maps, if and only if no chain has transactions of two senders with
      different nonces;
    * **`chains_unsorted`**: two senders, whose nonces interleave. -/

namespace RelayerPending

open Maps Ranges RelayerPool RelayerTransaction

variable {A D : Type*}

/-- What the pool holds. -/
abbrev PoolTx (A D : Type*) := Transaction (BridgeOracleRequest A D)

/-! ## PendingByChainId -/

/-- `txsb`, from the answer of `Pending` in some order. -/
def concatenated (batches : List (A × List (PoolTx A D))) :
    List (PoolTx A D) :=
  batches.foldl (fun txsb batch => txsb ++ batch.2) []

/-- One transaction in the loop that fills `key`. -/
def keyStep (key : UInt64 → Option Bool) (tx : PoolTx A D) :
    UInt64 → Option Bool :=
  if (key tx.chainId).getD false = false then set key tx.chainId true else key

/-- The map `key`. -/
def chainKeys (txsb : List (PoolTx A D)) : UInt64 → Option Bool :=
  txsb.foldl keyStep (fun _ => none)

/-- `tmp`. -/
def ofChain (txsb : List (PoolTx A D)) (k : UInt64) : List (PoolTx A D) :=
  txsb.foldl (fun tmp tx => if k = tx.chainId then tmp ++ [tx] else tmp) []

/-- The orders in which one call ranges over its maps: the lists of the senders
    where they are not cached, the answer of `Pending`, and `key`. -/
structure Orders (pool : TxPool A D) where
  ranges : RangeOrders A D
  batches : List (A × List (PoolTx A D))
  keys : List (UInt64 × Bool)
  rangeOf_batches : RangeOf batches (pool.pendingTxs ranges).1
  rangeOf_keys : RangeOf keys (chainKeys (concatenated batches))

/-- `TxPool.PendingByChainId`: the answer and the pool with its caches. -/
def pendingByChainId (pool : TxPool A D) (orders : Orders pool) :
    (UInt64 → Option (List (PoolTx A D))) × TxPool A D :=
  (orders.keys.foldl (fun sorted k =>
      set sorted k.1 (ofChain (concatenated orders.batches) k.1))
    (fun _ => none),
    (pool.pendingTxs orders.ranges).2)

/-! ## The loops -/

/-- The loop of appends is one concatenation. -/
theorem concatenated_eq (batches : List (A × List (PoolTx A D))) :
    concatenated batches = batches.flatMap Prod.snd := by
  induction batches using List.reverseRecOn with
  | nil => rfl
  | append_singleton batches batch ih =>
      rw [concatenated] at ih ⊢
      rw [List.foldl_concat, ih, List.flatMap_append, List.flatMap_singleton]

/-- The inner loop keeps the transactions of the chain. -/
theorem ofChain_eq (txsb : List (PoolTx A D)) (k : UInt64) :
    ofChain txsb k = txsb.filter (fun tx => k = tx.chainId) := by
  induction txsb using List.reverseRecOn with
  | nil => rfl
  | append_singleton txsb tx ih =>
      rw [ofChain] at ih ⊢
      rw [List.foldl_concat, ih, List.filter_append]
      by_cases hk : k = tx.chainId
      · simp [hk]
      · simp [hk]

/-- `key` has the chains of the transactions. -/
theorem isSome_chainKeys (txsb : List (PoolTx A D)) (k : UInt64) :
    (chainKeys txsb k).isSome = true ↔ ∃ tx ∈ txsb, tx.chainId = k := by
  induction txsb using List.reverseRecOn with
  | nil => simp [chainKeys]
  | append_singleton txsb tx ih =>
      have hstep : (keyStep (chainKeys txsb) tx k).isSome = true ↔
          (chainKeys txsb k).isSome = true ∨ tx.chainId = k := by
        rw [keyStep]
        split
        next =>
            by_cases hk : k = tx.chainId
            · simp [hk]
            · rw [set_of_ne hk]
              simp [Ne.symm hk]
        next hkey =>
            -- a chain that is not added is there already
            refine ⟨Or.inl, ?_⟩
            rintro (hsome | rfl)
            · exact hsome
            · cases hold : chainKeys txsb tx.chainId with
              | none => simp [hold] at hkey
              | some b => rfl
      rw [chainKeys, List.foldl_concat]
      refine hstep.trans ?_
      rw [ih]
      simp [or_and_right, exists_or]

/-- The chains ranged over are those of some transaction. -/
theorem mem_keys_iff {pool : TxPool A D} (orders : Orders pool) (k : UInt64) :
    k ∈ orders.keys.map Prod.fst ↔
      ∃ tx ∈ concatenated orders.batches, tx.chainId = k := by
  rw [orders.rangeOf_keys.mem_keys, isSome_chainKeys]

/-- **THE ANSWER FOR A CHAIN**: its transactions, if there are any. -/
theorem pendingByChainId_eq {pool : TxPool A D} (orders : Orders pool)
    (k : UInt64) (txs : List (PoolTx A D)) :
    (pendingByChainId pool orders).1 k = some txs ↔
      txs = (concatenated orders.batches).filter (fun tx => k = tx.chainId) ∧
        txs ≠ [] := by
  have hne : (concatenated orders.batches).filter (fun tx => k = tx.chainId) ≠
      [] ↔ k ∈ orders.keys.map Prod.fst := by
    rw [mem_keys_iff, Ne, List.filter_eq_nil_iff]
    push Not
    simp [eq_comm]
  have hget : (pendingByChainId pool orders).1 k =
      if k ∈ orders.keys.map Prod.fst then
        some (ofChain (concatenated orders.batches) k) else none :=
    foldl_set_key _ orders.keys k
  rw [hget, ofChain_eq]
  split
  next hk =>
      rw [Option.some_inj]
      constructor
      · rintro rfl
        exact ⟨rfl, hne.mpr hk⟩
      · exact fun h => h.1.symm
  next hk =>
      constructor
      · intro h
        cases h
      · rintro ⟨rfl, hsome⟩
        exact absurd (hne.mp hsome) hk

/-! ## Every pool -/

/-- What holds of a pool after any calls: the queue is empty, and a pending
    list has some transactions, all of its sender. -/
structure Orderly (pool : TxPool A D) : Prop where
  queue : ∀ addr, pool.queue addr = none
  senders : ∃ addrs : List A, ∀ addr, (pool.pending addr).isSome = true →
    addr ∈ addrs
  sound : ∀ addr list, pool.pending addr = some list → list.txs.Sound
  nonempty : ∀ addr list, pool.pending addr = some list → list.txs.items ≠ []
  sender : ∀ addr list, pool.pending addr = some list →
    ∀ tx ∈ list.txs.items, senderAddress tx = addr

/-- A new pool is orderly. -/
theorem orderly_new : Orderly (newTxPool : TxPool A D) where
  queue _ := rfl
  senders := ⟨[], fun _ h => by cases h⟩
  sound _ _ h := by cases h
  nonempty _ _ h := by cases h
  sender _ _ h := by cases h

variable {pool : TxPool A D}

/-- What is pending under an address after a transaction is promoted. -/
theorem promoted_cases [DecidableEq A] (tx : PoolTx A D) {addr addr' : A}
    {list : TxList (BridgeOracleRequest A D)}
    (h : (pool.promoteTx addr tx).pending addr' = some list) :
    (addr' = addr ∧ list = ((pool.pending addr).getD (newTxList true)).add tx) ∨
      (addr' ≠ addr ∧ pool.pending addr' = some list) :=
  set_eq_some.mp h

/-- **AN EVENT** keeps the pool orderly, also when the nonce wraps around and
    replaces a transaction. -/
theorem Orderly.addEvent [DecidableEq A] (h : Orderly pool)
    (ev : BridgeOracleRequest A D) :
    ∃ pool', pool.addEvent ev = .ok pool' ∧ Orderly pool' := by
  refine ⟨_, addEvent_eq (h.queue ev.bridge), ?_⟩
  constructor
  case queue => exact fun addr => delete_none (h.queue addr)
  case senders =>
    obtain ⟨addrs, haddrs⟩ := h.senders
    refine ⟨ev.bridge :: addrs, fun addr hsome => ?_⟩
    obtain ⟨list, hlist⟩ := Option.isSome_iff_exists.mp hsome
    rcases promoted_cases _ hlist with ⟨rfl, -⟩ | ⟨-, hold⟩
    · exact List.mem_cons_self
    · exact List.mem_cons_of_mem _ (haddrs addr (hold ▸ rfl))
  case sound =>
    intro addr list hlist
    rcases promoted_cases _ hlist with ⟨rfl, rfl⟩ | ⟨-, hold⟩
    -- the list of the sender is new, or one more is put to it
    · cases hpending : pool.pending ev.bridge with
      | none => exact sound_new.put _
      | some list => exact (h.sound ev.bridge list hpending).put _
    · exact h.sound addr list hold
  case nonempty =>
    intro addr list hlist
    rcases promoted_cases _ hlist with ⟨rfl, rfl⟩ | ⟨-, hold⟩
    · exact List.cons_ne_nil _ _
    · exact h.nonempty addr list hold
  case sender =>
    intro addr list hlist tx htx
    rcases promoted_cases _ hlist with ⟨rfl, rfl⟩ | ⟨-, hold⟩
    -- the one put now, or one that was there
    · rcases List.mem_cons.mp htx with rfl | htx
      · rfl
      · have hmem := List.mem_of_mem_filter htx
        cases hpending : pool.pending ev.bridge with
        | none =>
            rw [hpending] at hmem
            cases hmem
        | some list =>
            rw [hpending] at hmem
            exact h.sender ev.bridge list hpending tx hmem
    · exact h.sender addr list hold tx htx

/-- The caches that `Pending` fills. -/
theorem Orderly.pendingTxs (h : Orderly pool) (ranges : RangeOrders A D) :
    Orderly (pool.pendingTxs ranges).2 := by
  have hcases : ∀ addr list, (pool.pendingTxs ranges).2.pending addr =
      some list → ∃ old, pool.pending addr = some old ∧
        (old.flatten (ranges addr)).2 = list :=
    fun addr list hlist => Option.map_eq_some_iff.mp hlist
  refine ⟨h.queue, ?_, ?_, ?_, ?_⟩
  · obtain ⟨addrs, haddrs⟩ := h.senders
    refine ⟨addrs, fun addr hsome => haddrs addr ?_⟩
    rwa [TxPool.pendingTxs, Option.isSome_map] at hsome
  · intro addr list hlist
    obtain ⟨old, hold, rfl⟩ := hcases addr list hlist
    exact (flatten_spec (h.sound addr old hold) (ranges addr)).2.2
  · intro addr list hlist
    obtain ⟨old, hold, rfl⟩ := hcases addr list hlist
    exact h.nonempty addr old hold
  · intro addr list hlist
    obtain ⟨old, hold, rfl⟩ := hcases addr list hlist
    exact h.sender addr old hold

/-- **EVERY RUN** keeps the pool orderly, and does not panic. -/
theorem Orderly.run [DecidableEq A] (h : Orderly pool) (calls : List (Call A D)) :
    ∃ pool', pool.run calls = .ok pool' ∧ Orderly pool' := by
  induction calls generalizing pool with
  | nil => exact ⟨pool, rfl, h⟩
  | cons call calls ih =>
      have hcall : ∃ next, pool.call call = .ok next ∧ Orderly next := by
        cases call with
        | addEvent ev => exact h.addEvent ev
        | pending ranges => exact ⟨_, rfl, h.pendingTxs ranges⟩
      obtain ⟨next, hnext, hinv⟩ := hcall
      obtain ⟨pool', hrun, hinv'⟩ := ih hinv
      refine ⟨pool', ?_, hinv'⟩
      rw [TxPool.run, List.foldlM_cons, hnext]
      exact hrun

/-! ## What one call ranges over -/

/-- Some orders, for any of the answer of `Pending`. -/
def Orders.ofBatches (ranges : RangeOrders A D)
    (batches : List (A × List (PoolTx A D)))
    (hbatches : RangeOf batches (pool.pendingTxs ranges).1) : Orders pool where
  ranges := ranges
  batches := batches
  keys := entriesAt (chainKeys (concatenated batches))
    ((concatenated batches).map (·.chainId)).dedup
  rangeOf_batches := hbatches
  rangeOf_keys := by
    refine rangeOf_entriesAt (List.nodup_dedup _) fun k hk => ?_
    obtain ⟨tx, htx, rfl⟩ := (isSome_chainKeys _ k).mp hk
    exact List.mem_dedup.mpr (List.mem_map_of_mem htx)

/-- For any orders inside there are orders of the outer ranges. -/
theorem exists_orders [DecidableEq A] (h : Orderly pool)
    (ranges : RangeOrders A D) :
    ∃ orders : Orders pool, orders.ranges = ranges := by
  obtain ⟨addrs, haddrs⟩ := h.senders
  have hrange : RangeOf (entriesAt (pool.pendingTxs ranges).1 addrs.dedup)
      (pool.pendingTxs ranges).1 := by
    refine rangeOf_entriesAt (List.nodup_dedup _) fun addr hsome => ?_
    rw [TxPool.pendingTxs, Option.isSome_map] at hsome
    exact List.mem_dedup.mpr (haddrs addr hsome)
  exact ⟨Orders.ofBatches ranges _ hrange, rfl⟩

/-- What is pending under an address was sent from it. -/
theorem Orderly.senderAddress_eq (h : Orderly pool) {addr : A}
    {tx : PoolTx A D} (htx : tx ∈ pool.txsAt addr) : senderAddress tx = addr := by
  cases hlist : pool.pending addr with
  | none =>
      rw [TxPool.txsAt, hlist] at htx
      cases htx
  | some list =>
      rw [TxPool.txsAt, hlist] at htx
      exact h.sender addr list hlist tx htx

/-- A batch is the list of its sender, in increasing order. -/
theorem Orderly.batch (h : Orderly pool) {ranges : RangeOrders A D} {addr : A}
    {batch : List (PoolTx A D)}
    (hbatch : (pool.pendingTxs ranges).1 addr = some batch) :
    Increasing batch ∧ batch.Perm (pool.txsAt addr) ∧
      ∀ tx ∈ batch, senderAddress tx = addr := by
  obtain ⟨list, hlist, rfl⟩ := Option.map_eq_some_iff.mp hbatch
  obtain ⟨hincr, hperm, -⟩ := flatten_spec (h.sound addr list hlist) (ranges addr)
  refine ⟨hincr, ?_, fun tx htx => ?_⟩
  · rw [TxPool.txsAt, hlist]
    exact hperm
  · exact h.sender addr list hlist tx (hperm.mem_iff.mp htx)

/-- The batches have what is pending. -/
theorem Orderly.mem_concatenated (h : Orderly pool) (orders : Orders pool)
    (tx : PoolTx A D) :
    tx ∈ concatenated orders.batches ↔ ∃ addr, tx ∈ pool.txsAt addr := by
  rw [concatenated_eq, List.mem_flatMap]
  constructor
  · rintro ⟨⟨addr, batch⟩, hmem, htx⟩
    have hbatch := (orders.rangeOf_batches.mem addr batch).mp hmem
    exact ⟨addr, (h.batch hbatch).2.1.mem_iff.mp htx⟩
  · rintro ⟨addr, htx⟩
    cases hlist : pool.pending addr with
    | none =>
        rw [TxPool.txsAt, hlist] at htx
        cases htx
    | some list =>
        have hbatch : (pool.pendingTxs orders.ranges).1 addr =
            some (list.flatten (orders.ranges addr)).1 :=
          congrArg (Option.map _) hlist
        exact ⟨(addr, _), (orders.rangeOf_batches.mem _ _).mpr hbatch,
          (h.batch hbatch).2.1.mem_iff.mpr htx⟩

/-- Two batches of different senders, in the order of the map. -/
theorem Orderly.pairwise_batches (h : Orderly pool) (orders : Orders pool) :
    orders.batches.Pairwise (fun b b' => ∀ tx ∈ b.2, ∀ tx' ∈ b'.2,
      senderAddress tx ≠ senderAddress tx') := by
  refine (List.pairwise_map.mp orders.rangeOf_batches.nodup).imp_of_mem ?_
  rintro ⟨addr, batch⟩ ⟨addr', batch'⟩ hmem hmem' hne tx htx tx' htx'
  have hbatch := h.batch ((orders.rangeOf_batches.mem _ _).mp hmem)
  have hbatch' := h.batch ((orders.rangeOf_batches.mem _ _).mp hmem')
  rw [hbatch.2.2 tx htx, hbatch'.2.2 tx' htx']
  exact hne

/-- No transaction is in two batches, or twice in one. -/
theorem Orderly.nodup_concatenated (h : Orderly pool) (orders : Orders pool) :
    (concatenated orders.batches).Nodup := by
  rw [concatenated_eq]
  refine List.nodup_flatMap.mpr ⟨?_, ?_⟩
  · rintro ⟨addr, batch⟩ hmem
    have hbatch := h.batch ((orders.rangeOf_batches.mem _ _).mp hmem)
    exact hbatch.1.imp fun hlt heq => absurd (heq ▸ hlt) (lt_irrefl _)
  · refine (h.pairwise_batches orders).imp ?_
    intro b b' hsenders tx htx htx'
    exact hsenders tx htx tx htx' rfl

/-! ## Sorted by nonce -/

/-- In the order of the nonces. -/
def SortedByNonce (txs : List (PoolTx A D)) : Prop :=
  txs.Pairwise (·.nonce ≤ ·.nonce)

/-- No chain has two senders with different nonces. -/
def SendersApart (pool : TxPool A D) : Prop :=
  ∀ addr addr' tx tx', tx ∈ pool.txsAt addr → tx' ∈ pool.txsAt addr' →
    tx.chainId = tx'.chainId → addr = addr' ∨ tx.nonce = tx'.nonce

/-- Then every order of the senders will do. -/
theorem sorted_of_apart (h : Orderly pool) (hapart : SendersApart pool)
    (orders : Orders pool) (k : UInt64) :
    SortedByNonce ((concatenated orders.batches).filter
      (fun tx => k = tx.chainId)) := by
  rw [SortedByNonce, List.pairwise_filter, concatenated_eq,
    List.pairwise_flatMap]
  refine ⟨?_, ?_⟩
  · -- within a batch the nonces increase
    rintro ⟨addr, batch⟩ hmem
    have hbatch := h.batch ((orders.rangeOf_batches.mem _ _).mp hmem)
    exact hbatch.1.imp fun hlt _ _ => hlt.le
  · refine (List.pairwise_map.mp orders.rangeOf_batches.nodup).imp_of_mem ?_
    rintro ⟨addr, batch⟩ ⟨addr', batch'⟩ hmem hmem' hne tx htx tx' htx' hk hk'
    have hbatch := h.batch ((orders.rangeOf_batches.mem _ _).mp hmem)
    have hbatch' := h.batch ((orders.rangeOf_batches.mem _ _).mp hmem')
    have hchain : tx.chainId = tx'.chainId :=
      (of_decide_eq_true hk).symm.trans (of_decide_eq_true hk')
    rcases hapart addr addr' tx tx' (hbatch.2.1.mem_iff.mp htx)
      (hbatch'.2.1.mem_iff.mp htx') hchain with heq | heq
    · exact absurd heq hne
    · exact heq.le

/-- With the sender of `tx` ranged over first, `tx` is before `tx'`. -/
theorem nonce_le_of_sorted [DecidableEq A] (h : Orderly pool)
    (hsorted : ∀ (orders : Orders pool) (k : UInt64),
      SortedByNonce ((concatenated orders.batches).filter
        (fun tx => k = tx.chainId)))
    {addr addr' : A} {tx tx' : PoolTx A D} (htx : tx ∈ pool.txsAt addr)
    (htx' : tx' ∈ pool.txsAt addr') (hchain : tx.chainId = tx'.chainId)
    (hne : addr ≠ addr') : tx.nonce ≤ tx'.nonce := by
  have ranges : RangeOrders A D := fun _ => ⟨id, fun _ => List.Perm.refl _⟩
  obtain ⟨orders, -⟩ := exists_orders h ranges
  have hin := (h.mem_concatenated orders tx).mpr ⟨addr, htx⟩
  rw [concatenated_eq, List.mem_flatMap] at hin
  obtain ⟨⟨first, batch⟩, hmem, htxb⟩ := hin
  -- the batch of `tx` is moved to the front
  obtain ⟨before, after, hsplit⟩ := List.append_of_mem hmem
  have hmoved : RangeOf ((first, batch) :: (before ++ after))
      (pool.pendingTxs orders.ranges).1 :=
    orders.rangeOf_batches.of_perm (hsplit ▸ List.perm_middle)
  -- `tx'` has another sender, so it comes behind that batch
  have hbatch := h.batch ((orders.rangeOf_batches.mem _ _).mp hmem)
  have hrest : tx' ∈ (before ++ after).flatMap Prod.snd := by
    have hin' := (h.mem_concatenated
      (Orders.ofBatches orders.ranges _ hmoved) tx').mpr ⟨addr', htx'⟩
    rw [concatenated_eq] at hin'
    rcases List.mem_append.mp hin' with hfirst | hrest
    · refine absurd ?_ hne
      rw [← h.senderAddress_eq htx, ← h.senderAddress_eq htx',
        hbatch.2.2 tx htxb, hbatch.2.2 tx' hfirst]
    · exact hrest
  have hall := hsorted (Orders.ofBatches orders.ranges _ hmoved) tx.chainId
  rw [SortedByNonce, concatenated_eq] at hall
  rw [Orders.ofBatches, List.flatMap_cons, List.filter_append,
    List.pairwise_append] at hall
  refine hall.2.2 tx ?_ tx' ?_
  · exact List.mem_filter.mpr ⟨htxb, decide_eq_true rfl⟩
  · exact List.mem_filter.mpr ⟨hrest, decide_eq_true hchain⟩

/-- **GROUPED BY CHAIN.**  After any calls, however many events they add, and
    for all orders of the maps: what is answered for a chain is not empty, and
    has exactly the pending transactions of that chain, each once; a chain with
    a pending transaction has an answer.  The answers are in the order of the
    nonces, for all orders of the maps, if and only if no chain has
    transactions of two senders with different nonces. -/
theorem chains_grouped [DecidableEq A] (calls : List (Call A D)) :
    ∃ pool : TxPool A D, newTxPool.run calls = .ok pool ∧
      Nonempty (Orders pool) ∧
      (∀ (orders : Orders pool) k txs,
        (pendingByChainId pool orders).1 k = some txs →
        txs ≠ [] ∧ txs.Nodup ∧
        ∀ tx, tx ∈ txs ↔ tx.chainId = k ∧ ∃ addr, tx ∈ pool.txsAt addr) ∧
      (∀ (orders : Orders pool) addr, ∀ tx ∈ pool.txsAt addr,
        ∃ txs, (pendingByChainId pool orders).1 tx.chainId = some txs) ∧
      ((∀ (orders : Orders pool) k txs,
        (pendingByChainId pool orders).1 k = some txs → SortedByNonce txs) ↔
        SendersApart pool) := by
  obtain ⟨pool, hrun, h⟩ := orderly_new.run calls
  have ranges : RangeOrders A D := fun _ => ⟨id, fun _ => List.Perm.refl _⟩
  obtain ⟨orders, -⟩ := exists_orders h ranges
  refine ⟨pool, hrun, ⟨orders⟩, ?_, ?_, ?_, ?_⟩
  · intro orders k txs htxs
    obtain ⟨rfl, hne⟩ := (pendingByChainId_eq orders k txs).mp htxs
    refine ⟨hne, (h.nodup_concatenated orders).filter _, fun tx => ?_⟩
    rw [List.mem_filter, h.mem_concatenated, decide_eq_true_eq, and_comm,
      eq_comm]
  · intro orders addr tx htx
    refine ⟨_, (pendingByChainId_eq orders _ _).mpr ⟨rfl, ?_⟩⟩
    refine List.ne_nil_of_mem (a := tx) (List.mem_filter.mpr ⟨?_, ?_⟩)
    · exact (h.mem_concatenated orders tx).mpr ⟨addr, htx⟩
    · exact decide_eq_true rfl
  -- the range may put either sender first, so their nonces must agree
  · intro hsorted addr addr' tx tx' htx htx' hchain
    have hfilter : ∀ (orders : Orders pool) (k : UInt64), SortedByNonce
        ((concatenated orders.batches).filter (fun tx => k = tx.chainId)) := by
      intro orders k
      by_cases hnil : (concatenated orders.batches).filter
          (fun tx => k = tx.chainId) = []
      · rw [hnil]
        exact List.Pairwise.nil
      · exact hsorted orders k _
          ((pendingByChainId_eq orders k _).mpr ⟨rfl, hnil⟩)
    by_cases haddr : addr = addr'
    · exact Or.inl haddr
    · right
      exact le_antisymm (nonce_le_of_sorted h hfilter htx htx' hchain haddr)
        (nonce_le_of_sorted h hfilter htx' htx hchain.symm (Ne.symm haddr))
  · intro hapart orders k txs htxs
    rw [((pendingByChainId_eq orders k txs).mp htxs).1]
    exact sorted_of_apart h hapart orders k

/-- Events of two senders to one chain, in turns. -/
def interleaved : List (Call ℕ ℕ) :=
  [.addEvent ⟨7, 4, 10⟩, .addEvent ⟨8, 4, 11⟩, .addEvent ⟨7, 4, 12⟩]

/-- **NOT SORTED**: where sender 7 is ranged over before sender 8, the answer
    for the chain has the nonces 1, 3, 2. -/
theorem chains_unsorted :
    ∃ (pool : TxPool ℕ ℕ) (orders : Orders pool) (txs : List (PoolTx ℕ ℕ)),
      newTxPool.run interleaved = .ok pool ∧
      (pendingByChainId pool orders).1 4 = some txs ∧
      txs.map (·.nonce) = [1, 3, 2] ∧ ¬ SortedByNonce txs := by
  have hevs : (interleaved.filterMap Call.event?).length < 2 ^ 64 - 1 := by
    decide
  obtain ⟨pool, hrun, hkept⟩ := kept_new.run interleaved hevs
  rw [List.nil_append] at hkept
  have hanswer : ∀ addr txs, (pool.pendingTxs backwards).1 addr = some txs ↔
      txs = sentBy (interleaved.filterMap Call.event?) addr ∧ txs ≠ [] :=
    fun addr txs =>
      (hkept.pending addr).answer (increasing_sentBy hevs addr) _ txs
  have hbatches : RangeOf [(7, sentBy (interleaved.filterMap Call.event?) 7),
      (8, sentBy (interleaved.filterMap Call.event?) 8)]
      (pool.pendingTxs backwards).1 := by
    refine ⟨by decide, fun addr txs => ?_⟩
    rw [hanswer]
    constructor
    · intro hmem
      simp only [List.mem_cons, List.not_mem_nil, or_false,
        Prod.mk.injEq] at hmem
      rcases hmem with ⟨rfl, rfl⟩ | ⟨rfl, rfl⟩
      · exact ⟨rfl, by decide⟩
      · exact ⟨rfl, by decide⟩
    · rintro ⟨rfl, hne⟩
      -- only 7 and 8 have sent something
      obtain ⟨tx, hsent⟩ := List.exists_mem_of_ne_nil _ hne
      obtain ⟨htx, haddr⟩ := List.mem_filter.mp hsent
      have hsenders : ∀ tx ∈ (interleaved.filterMap Call.event?).mapIdx
          numbered, senderAddress tx = 7 ∨ senderAddress tx = 8 := by decide
      obtain rfl := of_decide_eq_true haddr
      rcases hsenders tx htx with hseven | height
      · rw [hseven]
        exact List.mem_cons_self
      · rw [height]
        exact List.mem_cons_of_mem _ List.mem_cons_self
  refine ⟨pool, Orders.ofBatches backwards _ hbatches,
    [⟨4, ⟨7, 4, 10⟩, 1⟩, ⟨4, ⟨7, 4, 12⟩, 3⟩, ⟨4, ⟨8, 4, 11⟩, 2⟩], hrun, ?_,
    rfl, ?_⟩
  · refine (pendingByChainId_eq _ _ _).mpr ⟨?_, List.cons_ne_nil _ _⟩
    show _ = (concatenated
      [(7, sentBy (interleaved.filterMap Call.event?) 7),
        (8, sentBy (interleaved.filterMap Call.event?) 8)]).filter _
    decide
  · rw [SortedByNonce]
    decide

end RelayerPending
