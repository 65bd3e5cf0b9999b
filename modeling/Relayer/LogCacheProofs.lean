import Relayer.DeliveryProofs
import Relayer.Sha256Proofs

/-! # The cache of delivered logs

    `extChains/eth/log_cache.go`: a watcher asks `Exists` before it handles a
    log, and the cache keeps the transactions of the newest block (and of
    blocks that were delivered late).

    * `existsLog` is `Exists`; `handled` is the list of the logs for which it
      answered no, in a whole sequence of deliveries;
    * `Kept` says in terms of the delivered keys alone which of them are still
      remembered, and **`existsLog_feed`** that the cache answers exactly by
      it; **`exists_by_history`** says the same by the positions of the logs,
      and what else the cache holds;
    * **`interleaved_once_iff`**: streams that deliver one block-ordered
      sequence side by side report a transaction twice exactly when one of
      them falls behind a block another one has reached;
    * **`sequential_exactly_once`**: subscriptions one after another, each
      from the block of the cache, handle every log once and skip none. -/

namespace RelayerLogCache

open Delivery Sha256

/-! ## Hashes and logs -/

/-- `common.Hash`: 32 bytes. -/
structure Hash where
  bytes : List UInt8
  length_eq : bytes.length = 32
  deriving DecidableEq

/-- `Hash.Hex`: the text of a hash. -/
def Hash.hex (h : Hash) : String := "0x" ++ encodeToString h.bytes

/-- `common.BigToHash` on a natural number: its last 32 bytes, big-endian. -/
def bigToHash (n : ℕ) : Hash where
  bytes := (List.range 32).map (fun i => UInt8.ofNat (n / 256 ^ (31 - i)))
  length_eq := by rw [List.length_map, List.length_range]

/-- Different hashes have different texts. -/
theorem Hash.hex_inj {g h : Hash} (heq : g.hex = h.hex) : g = h := by
  obtain ⟨gs, hg⟩ := g
  obtain ⟨hs, hh⟩ := h
  obtain rfl : gs = hs := encodeToString_inj ((String.append_right_inj _).mp heq)
  rfl

/-- `types.Log`, the fields that a watcher or its events read. -/
structure Log where
  blockNumber : ℕ
  txHash : Hash
  index : ℕ
  topics : List Hash
  data : List UInt8
  deriving DecidableEq

/-- What the cache knows of a log. -/
def Log.key (l : Log) : ℕ × Hash := (l.blockNumber, l.txHash)

/-! ## The cache -/

/-- `LogCache`: the largest block number so far, and for some blocks the texts
    of the transactions seen there. -/
structure LogCache where
  blockNumber : ℕ
  data : ℕ → Option (List String)

/-- `NewLogCache`. -/
def newLogCache : LogCache := ⟨0, fun _ => none⟩

/-- `cleanup`: forget the blocks below the current one. -/
def LogCache.cleanup (c : LogCache) : LogCache :=
  { c with data := fun u => if u < c.blockNumber then none else c.data u }

/-- `l.data[blockNumber] = txMap`. -/
def LogCache.write (c : LogCache) (blockNumber : ℕ)
    (txMap : List String) : LogCache :=
  { c with data := Function.update c.data blockNumber (some txMap) }

/-- `addTxExists`: was the transaction there already?  It is afterwards. -/
def LogCache.addTxExists (c : LogCache) (blockNumber : ℕ) (txHash : Hash) :
    LogCache × Bool :=
  match c.data blockNumber with
  | some txMap =>
      if txHash.hex ∈ txMap then (c, true)
      else (c.write blockNumber (txHash.hex :: txMap), false)
  | none => (c.write blockNumber [txHash.hex], false)

/-- `Exists`: a log of a new highest block drops the blocks below it, a late
    one does not. -/
def LogCache.existsLog (c : LogCache) (log : Log) : LogCache × Bool :=
  if c.blockNumber ≤ log.blockNumber then
    ({ c with blockNumber := log.blockNumber }).cleanup.addTxExists
      log.blockNumber log.txHash
  else c.addTxExists log.blockNumber log.txHash

/-- The cache after a sequence of logs. -/
def LogCache.feed (c : LogCache) : List Log → LogCache
  | [] => c
  | l :: ls => (c.existsLog l).1.feed ls

/-- The logs of a sequence that `Exists` did not know, in order. -/
def LogCache.handled (c : LogCache) : List Log → List Log
  | [] => []
  | l :: ls =>
      if (c.existsLog l).2 then (c.existsLog l).1.handled ls
      else l :: (c.existsLog l).1.handled ls

/-- Does the cache hold this transaction? -/
def LogCache.has (c : LogCache) (k : ℕ × Hash) : Prop :=
  ∃ txMap, c.data k.1 = some txMap ∧ k.2.hex ∈ txMap

/-- What is handled, part by part. -/
theorem handled_append (ls : List Log) :
    ∀ (c : LogCache) (ms : List Log),
      c.handled (ls ++ ms) = c.handled ls ++ (c.feed ls).handled ms := by
  induction ls with
  | nil => intro c ms; rfl
  | cons l ls ih =>
      intro c ms
      rw [List.cons_append, LogCache.handled, LogCache.handled, LogCache.feed, ih]
      split <;> rfl

/-- Only what was received is handled. -/
theorem handled_subset (ls : List Log) :
    ∀ (c : LogCache) {l : Log}, l ∈ c.handled ls → l ∈ ls := by
  induction ls with
  | nil => intro c l h; exact h
  | cons x ls ih =>
      intro c l h
      rw [LogCache.handled] at h
      split at h
      · exact List.mem_cons_of_mem _ (ih _ h)
      · rcases List.mem_cons.mp h with rfl | h
        · exact List.mem_cons_self
        · exact List.mem_cons_of_mem _ (ih _ h)

/-! ## One call -/

/-- The cleanup drops the blocks below the highest. -/
theorem has_cleanup {c : LogCache} {k : ℕ × Hash} :
    c.cleanup.has k ↔ c.has k ∧ c.blockNumber ≤ k.1 := by
  constructor
  · rintro ⟨txMap, hdata, hmem⟩
    rw [LogCache.cleanup] at hdata
    dsimp only at hdata
    split at hdata
    · cases hdata
    · rename_i hle
      exact ⟨⟨txMap, hdata, hmem⟩, not_lt.mp hle⟩
  · rintro ⟨⟨txMap, hdata, hmem⟩, hle⟩
    refine ⟨txMap, ?_, hmem⟩
    rw [LogCache.cleanup]
    dsimp only
    rw [if_neg (not_lt.mpr hle), hdata]

/-- What the cache holds of block `b` is the content of its map. -/
theorem has_of_data {c : LogCache} {b : ℕ} {txMap : List String}
    (hdata : c.data b = some txMap) (t : Hash) :
    c.has (b, t) ↔ t.hex ∈ txMap := by
  constructor
  · rintro ⟨m, hm, hmem⟩
    obtain rfl := Option.some.inj (hdata.symm.trans hm)
    exact hmem
  · intro hmem
    exact ⟨txMap, hdata, hmem⟩

/-- A map that is written with one more text holds one more key. -/
theorem has_write {c : LogCache} {b : ℕ} {t : Hash}
    {txs : List String} (htxs : ∀ u, u.hex ∈ txs ↔ c.has (b, u))
    (k : ℕ × Hash) :
    (c.write b (t.hex :: txs)).has k ↔ k = (b, t) ∨ c.has k := by
  obtain ⟨b', t'⟩ := k
  by_cases hb : b' = b
  · subst hb
    have hdata : (c.write b' (t.hex :: txs)).data b' = some (t.hex :: txs) :=
      Function.update_self ..
    rw [has_of_data hdata, List.mem_cons, htxs]
    refine or_congr ?_ Iff.rfl
    constructor
    · intro heq
      rw [Hash.hex_inj heq]
    · intro heq
      rw [(Prod.mk.inj heq).2]
  · have hdata : (c.write b (t.hex :: txs)).data b' = c.data b' :=
      Function.update_of_ne hb ..
    have hhas : (c.write b (t.hex :: txs)).has (b', t') ↔ c.has (b', t') := by
      show (∃ m, _ ∧ _) ↔ (∃ m, _ ∧ _)
      dsimp only
      rw [hdata]
    rw [hhas]
    constructor
    · exact Or.inr
    · rintro (heq | h)
      · exact absurd (Prod.mk.inj heq).1 hb
      · exact h

/-- `addTxExists` answers by what the cache holds, and adds the one key. -/
theorem addTxExists_spec (c : LogCache) (b : ℕ) (t : Hash) :
    ((c.addTxExists b t).2 = true ↔ c.has (b, t)) ∧
    (c.addTxExists b t).1.blockNumber = c.blockNumber ∧
    ∀ k, (c.addTxExists b t).1.has k ↔ k = (b, t) ∨ c.has k := by
  rw [LogCache.addTxExists]
  cases hdata : c.data b with
  | none =>
      have hnone : ∀ u, ¬ c.has (b, u) := by
        rintro u ⟨m, hm, -⟩
        cases hdata.symm.trans hm
      refine ⟨?_, rfl, has_write ?_⟩
      · exact ⟨fun h => absurd h Bool.false_ne_true,
          fun h => absurd h (hnone t)⟩
      · intro u
        exact ⟨fun h => absurd h List.not_mem_nil, fun h => absurd h (hnone u)⟩
  | some txMap =>
      have hmem := has_of_data hdata
      dsimp only
      by_cases ht : t.hex ∈ txMap
      · rw [if_pos ht]
        refine ⟨⟨fun _ => (hmem t).mpr ht, fun _ => rfl⟩, rfl, ?_⟩
        intro k
        constructor
        · exact Or.inr
        · rintro (rfl | h)
          · exact (hmem t).mpr ht
          · exact h
      · rw [if_neg ht]
        refine ⟨?_, rfl, has_write (fun u => (hmem u).symm)⟩
        exact ⟨fun h => absurd h Bool.false_ne_true,
          fun h => absurd ((hmem t).mp h) ht⟩

/-- **ONE CALL OF `Exists`**: it answers by what the cache holds, adds the key
    of the log, and drops the blocks below a new highest one. -/
theorem existsLog_spec (c : LogCache) (l : Log) :
    ((c.existsLog l).2 = true ↔ c.has l.key) ∧
    (c.existsLog l).1.blockNumber = max c.blockNumber l.blockNumber ∧
    ∀ k, (c.existsLog l).1.has k ↔
      k = l.key ∨
      (c.has k ∧ ¬ (c.blockNumber ≤ l.blockNumber ∧ k.1 < l.blockNumber)) := by
  rw [LogCache.existsLog]
  by_cases hle : c.blockNumber ≤ l.blockNumber
  · rw [if_pos hle]
    obtain ⟨hans, hnum, hhas⟩ := addTxExists_spec
      ({ c with blockNumber := l.blockNumber }).cleanup l.blockNumber l.txHash
    refine ⟨?_, ?_, ?_⟩
    · rw [hans, has_cleanup]
      exact ⟨fun h => h.1, fun h => ⟨h, le_refl _⟩⟩
    · rw [hnum, max_eq_right hle]
      rfl
    · intro k
      rw [hhas, has_cleanup]
      constructor
      · rintro (h | ⟨h, hk⟩)
        · exact Or.inl h
        · exact Or.inr ⟨h, fun hlt => absurd hlt.2 (not_lt.mpr hk)⟩
      · rintro (h | ⟨h, hk⟩)
        · exact Or.inl h
        · exact Or.inr ⟨h, not_lt.mp (fun hlt => hk ⟨hle, hlt⟩)⟩
  · rw [if_neg hle]
    obtain ⟨hans, hnum, hhas⟩ := addTxExists_spec c l.blockNumber l.txHash
    refine ⟨hans, ?_, ?_⟩
    · rw [hnum, max_eq_left (le_of_not_ge hle)]
    · intro k
      rw [hhas]
      constructor
      · rintro (h | h)
        · exact Or.inl h
        · exact Or.inr ⟨h, fun hlt => hle hlt.1⟩
      · rintro (h | ⟨h, -⟩)
        · exact Or.inl h
        · exact Or.inr h

/-! ## A whole sequence of calls -/

/-- The cache describes a sequence of deliveries: its block number is the
    largest one, and it holds what `Kept` says. -/
structure Tracks (c : LogCache) (seen : List Log) : Prop where
  top : ∀ b, c.blockNumber ≤ b ↔ ∀ l ∈ seen, l.blockNumber ≤ b
  holds : ∀ k, c.has k ↔ Kept (seen.map Log.key) k

/-- A new cache has seen nothing. -/
theorem tracks_new : Tracks newLogCache [] where
  top := fun b => ⟨fun _ l hl => absurd hl List.not_mem_nil, fun _ => b.zero_le⟩
  holds := by
    intro k
    constructor
    · rintro ⟨m, hm, -⟩
      cases hm
    · intro h
      exact absurd h (not_kept_nil k)

/-- A bound on the blocks, on logs and on keys. -/
theorem forall_key {seen : List Log} {b : ℕ} :
    (∀ z ∈ seen.map Log.key, z.1 ≤ b) ↔ ∀ l ∈ seen, l.blockNumber ≤ b := by
  constructor
  · intro h l hl
    exact h _ (List.mem_map_of_mem hl)
  · intro h z hz
    obtain ⟨l, hl, rfl⟩ := List.mem_map.mp hz
    exact h l hl

/-- One call keeps the description. -/
theorem Tracks.concat {c : LogCache} {seen : List Log} (h : Tracks c seen)
    (l : Log) : Tracks (c.existsLog l).1 (seen ++ [l]) := by
  obtain ⟨-, hnum, hhas⟩ := existsLog_spec c l
  constructor
  · intro b
    rw [hnum, max_le_iff, h.top]
    constructor
    · rintro ⟨hseen, hl⟩ x hx
      rcases List.mem_append.mp hx with hx | hx
      · exact hseen x hx
      · rw [List.mem_singleton.mp hx]
        exact hl
    · intro hall
      exact ⟨fun x hx => hall x (List.mem_append_left _ hx),
        hall l (List.mem_append_right _ List.mem_cons_self)⟩
  · intro k
    rw [hhas, List.map_append, List.map_singleton, kept_concat, h.holds, h.top,
      forall_key]
    rfl

/-- The cache tracks the whole stream. -/
theorem Tracks.feed (ls : List Log) :
    ∀ {c : LogCache} {seen : List Log}, Tracks c seen →
      Tracks (c.feed ls) (seen ++ ls) := by
  induction ls with
  | nil =>
      intro c seen h
      rw [List.append_nil]
      exact h
  | cons l ls ih =>
      intro c seen h
      have := ih (h.concat l)
      rw [List.append_assoc] at this
      exact this

/-- What a fresh cache has become after a sequence of logs. -/
theorem tracks_feed (ls : List Log) : Tracks (newLogCache.feed ls) ls :=
  Tracks.feed ls tracks_new

/-- **THE CACHE, CALL BY CALL**: after any deliveries `Exists` knows exactly
    the keys that are kept of them. -/
theorem existsLog_feed (ls : List Log) (l : Log) :
    ((newLogCache.feed ls).existsLog l).2 = true ↔
      Kept (ls.map Log.key) l.key := by
  rw [(existsLog_spec _ l).1, (tracks_feed ls).holds]

/-- The last log of a sequence is handled if and only if its key is not
    kept. -/
theorem handled_concat (ls : List Log) (l : Log) :
    (Kept (ls.map Log.key) l.key ∧
      newLogCache.handled (ls ++ [l]) = newLogCache.handled ls) ∨
    (¬ Kept (ls.map Log.key) l.key ∧
      newLogCache.handled (ls ++ [l]) = newLogCache.handled ls ++ [l]) := by
  rw [handled_append, ← existsLog_feed]
  show _ ∧ _ ++ (if _ then [] else [l]) = _ ∨ _ ∧ _ ++ (if _ then [] else [l]) = _
  cases ((newLogCache.feed ls).existsLog l).2 with
  | true => exact Or.inl ⟨rfl, List.append_nil _⟩
  | false => exact Or.inr ⟨Bool.false_ne_true, rfl⟩

/-- Every delivered key is handled at least once. -/
theorem mem_handled_key (ls : List Log) {l : Log} (hl : l ∈ ls) :
    l.key ∈ (newLogCache.handled ls).map Log.key := by
  induction ls using List.reverseRecOn generalizing l with
  | nil => exact absurd hl List.not_mem_nil
  | append_singleton ls x ih =>
      rcases List.mem_append.mp hl with hl | hl
      · rw [handled_append, List.map_append]
        exact List.mem_append_left _ (ih hl)
      · obtain rfl := List.mem_singleton.mp hl
        rcases handled_concat ls l with ⟨hkept, heq⟩ | ⟨-, heq⟩
        · obtain ⟨x, hx, hkey⟩ := List.mem_map.mp hkept.mem
          rw [heq, ← hkey]
          exact ih hx
        · rw [heq, List.map_append]
          exact List.mem_append_right _ List.mem_cons_self

/-- **BLOCK ORDER IS ENOUGH**: if the deliveries never go back to a lower
    block, no key is handled twice. -/
theorem handled_nodup_of_sorted (ls : List Log)
    (hls : ls.Pairwise (fun x y => x.blockNumber ≤ y.blockNumber)) :
    ((newLogCache.handled ls).map Log.key).Nodup := by
  induction ls using List.reverseRecOn with
  | nil => exact List.nodup_nil
  | append_singleton ls l ih =>
      obtain ⟨hsorted, -, hlast⟩ := List.pairwise_append.mp hls
      rcases handled_concat ls l with ⟨-, heq⟩ | ⟨hnew, heq⟩
      · rw [heq]
        exact ih hsorted
      · rw [heq, List.map_append, List.map_singleton]
        refine List.nodup_append.mpr ⟨ih hsorted, List.nodup_singleton _, ?_⟩
        intro k hk k' hk' hkk'
        obtain rfl := List.mem_singleton.mp hk'
        subst hkk'
        -- the earlier delivery of the key was of the last block, so it is kept
        obtain ⟨x, hx, hkey⟩ := List.mem_map.mp hk
        refine hnew (kept_of_top ?_ ?_)
        · rw [← hkey]
          exact List.mem_map_of_mem (handled_subset ls _ hx)
        · rw [forall_key]
          exact fun y hy => hlast y hy l List.mem_cons_self

/-! ## The history behind an answer -/

/-- The answers of `Exists` to a sequence of logs. -/
def LogCache.answers (c : LogCache) : List Log → List Bool
  | [] => []
  | l :: ls => (c.existsLog l).2 :: (c.existsLog l).1.answers ls

/-- The `i`-th log is `x`, and its block is at or above all blocks before. -/
def Reaches (ls : List Log) (i : ℕ) (x : Log) : Prop :=
  ls[i]? = some x ∧
    ∀ h z, h < i → ls[h]? = some z → z.blockNumber ≤ x.blockNumber

/-- Every block the cache holds has a transaction. -/
def Inhabited (c : LogCache) : Prop :=
  ∀ b txMap, c.data b = some txMap → ∃ t : Hash, t.hex ∈ txMap

/-- The `k`-th answer is the one of the cache fed with the logs before. -/
theorem answers_getElem? (ls : List Log) :
    ∀ (c : LogCache) (k : ℕ), (c.answers ls)[k]? =
      ls[k]?.map (fun l => ((c.feed (ls.take k)).existsLog l).2) := by
  induction ls with
  | nil => intro c k; rfl
  | cons l ls ih =>
      intro c k
      cases k with
      | zero => rfl
      | succ k => exact ih (c.existsLog l).1 k

theorem Inhabited.write {c : LogCache} (h : Inhabited c) (b : ℕ) (t : Hash)
    (txs : List String) : Inhabited (c.write b (t.hex :: txs)) := by
  intro b' txMap hdata
  by_cases hb : b' = b
  · subst hb
    have hnew : (c.write b' (t.hex :: txs)).data b' = some (t.hex :: txs) :=
      Function.update_self ..
    rw [← Option.some.inj (hnew.symm.trans hdata)]
    exact ⟨t, List.mem_cons_self⟩
  · have hold : (c.write b (t.hex :: txs)).data b' = c.data b' :=
      Function.update_of_ne hb ..
    exact h b' txMap (hold.symm.trans hdata)

theorem Inhabited.addTxExists {c : LogCache} (h : Inhabited c) (b : ℕ)
    (t : Hash) : Inhabited (c.addTxExists b t).1 := by
  rw [LogCache.addTxExists]
  split
  · split
    · exact h
    · exact h.write b t _
  · exact h.write b t []

theorem Inhabited.cleanup {c : LogCache} (h : Inhabited c) :
    Inhabited c.cleanup := by
  intro b txMap hdata
  rw [LogCache.cleanup] at hdata
  dsimp only at hdata
  split at hdata
  · cases hdata
  · exact h b txMap hdata

/-- One call leaves no block without a transaction. -/
theorem Inhabited.existsLog {c : LogCache} (h : Inhabited c) (l : Log) :
    Inhabited (c.existsLog l).1 := by
  rw [LogCache.existsLog]
  split
  · have hmoved : Inhabited { c with blockNumber := l.blockNumber } := h
    exact hmoved.cleanup.addTxExists _ _
  · exact h.addTxExists _ _

theorem Inhabited.feed (ls : List Log) :
    ∀ {c : LogCache}, Inhabited c → Inhabited (c.feed ls) := by
  induction ls with
  | nil => exact fun h => h
  | cons l ls ih => exact fun h => ih (h.existsLog l)

/-- The keys top a sequence where the logs reach a new block. -/
theorem tops_key {ls : List Log} {i : ℕ} {y : ℕ × Hash} :
    Tops (ls.map Log.key) i y ↔ ∃ x, Reaches ls i x ∧ x.key = y := by
  simp only [Tops, Reaches, List.getElem?_map, Option.map_eq_some_iff]
  constructor
  · rintro ⟨⟨x, hx, rfl⟩, htop⟩
    exact ⟨x, ⟨hx, fun h z hh hz => htop h z.key hh ⟨z, hz, rfl⟩⟩, rfl⟩
  · rintro ⟨x, ⟨hx, htop⟩, rfl⟩
    refine ⟨⟨x, hx, rfl⟩, ?_⟩
    rintro h _ hh ⟨z, hz, rfl⟩
    exact htop h z hh hz

/-- The logs that raise the highest block, up to a place. -/
theorem reaches_take {ls : List Log} {k i : ℕ} {x : Log} :
    Reaches (ls.take k) i x ↔ i < k ∧ Reaches ls i x := by
  constructor
  · rintro ⟨hx, htop⟩
    rw [List.getElem?_take, Option.ite_none_right_eq_some] at hx
    obtain ⟨hik, hx⟩ := hx
    refine ⟨hik, hx, fun h z hh hz => htop h z hh ?_⟩
    rw [List.getElem?_take_of_lt (hh.trans hik), hz]
  · rintro ⟨hik, hx, htop⟩
    refine ⟨by rw [List.getElem?_take_of_lt hik, hx], fun h z hh hz => ?_⟩
    rw [List.getElem?_take_of_lt (hh.trans hik)] at hz
    exact htop h z hh hz

/-- The key of a log is kept if it came before and no later log that reached
    a new block was above it. -/
theorem kept_key_iff {ls : List Log} {k : ℕ × Hash} :
    Kept (ls.map Log.key) k ↔ ∃ (j : ℕ) (e : Log), ls[j]? = some e ∧
      e.key = k ∧ ∀ i x, j < i → Reaches ls i x → x.blockNumber ≤ k.1 := by
  rw [kept_iff_getElem?]
  simp only [List.getElem?_map, Option.map_eq_some_iff, tops_key]
  constructor
  · rintro ⟨j, ⟨e, he, hkey⟩, hafter⟩
    exact ⟨j, e, he, hkey, fun i x hi hx => hafter i x.key hi ⟨x, hx, rfl⟩⟩
  · rintro ⟨j, e, he, hkey, hafter⟩
    refine ⟨j, ⟨e, he, hkey⟩, ?_⟩
    rintro i _ hi ⟨x, hx, rfl⟩
    exact hafter i x hi hx

/-- `BlockNumber()` is the largest block number seen, 0 if there is none. -/
theorem blockNumber_feed (ls : List Log) :
    (newLogCache.feed ls).blockNumber =
      (ls.map Log.blockNumber).max?.getD 0 := by
  refine le_antisymm (((tracks_feed ls).top _).mpr fun l hl => ?_) ?_
  · have hmem : l.blockNumber ∈ ls.map Log.blockNumber :=
      List.mem_map_of_mem hl
    cases hmax : (ls.map Log.blockNumber).max? with
    | none =>
        rw [List.max?_eq_none_iff.mp hmax] at hmem
        exact absurd hmem List.not_mem_nil
    | some m => exact (List.max?_eq_some_iff.mp hmax).2 _ hmem
  · cases hmax : (ls.map Log.blockNumber).max? with
    | none => exact Nat.zero_le _
    | some m =>
        obtain ⟨l, hl, rfl⟩ :=
          List.mem_map.mp (List.max?_eq_some_iff.mp hmax).1
        exact ((tracks_feed ls).top _).mp le_rfl l hl

/-- A block that is held has a log after which none reached a higher one. -/
theorem data_feed {ls : List Log} {b : ℕ} {txMap : List String}
    (hdata : (newLogCache.feed ls).data b = some txMap) :
    ∃ (j : ℕ) (e : Log), ls[j]? = some e ∧ e.blockNumber = b ∧
      ∀ i x, j < i → Reaches ls i x → x.blockNumber ≤ b := by
  have hinh : Inhabited newLogCache := by
    intro u m hm
    cases hm
  obtain ⟨t, ht⟩ := hinh.feed ls b txMap hdata
  have hhas : (newLogCache.feed ls).has (b, t) := ⟨txMap, hdata, ht⟩
  rw [(tracks_feed ls).holds, kept_key_iff] at hhas
  obtain ⟨j, e, he, hkey, hafter⟩ := hhas
  exact ⟨j, e, he, congrArg Prod.fst hkey, hafter⟩

/-- **THE CACHE, BY ITS HISTORY**: for every sequence of logs the `k`-th
    answer is yes exactly if an earlier log had the same block and transaction
    and no log since then, up to the `k`-th, reached a block above it; the
    block number is the largest one seen; and below the block of a log that
    was at or above the maximum the cache holds only blocks of logs that came
    later. -/
theorem exists_by_history (ls : List Log) :
    (∀ k l, ls[k]? = some l → ((newLogCache.answers ls)[k]? = some true ↔
      ∃ j e, j < k ∧ ls[j]? = some e ∧ e.blockNumber = l.blockNumber ∧
        e.txHash = l.txHash ∧
        ¬ ∃ i x, j < i ∧ i ≤ k ∧ Reaches ls i x ∧
          l.blockNumber < x.blockNumber)) ∧
    (newLogCache.feed ls).blockNumber =
      (ls.map Log.blockNumber).max?.getD 0 ∧
    ∀ m x b, Reaches ls m x → (newLogCache.feed ls).data b ≠ none →
      x.blockNumber ≤ b ∨
        ∃ i l, m < i ∧ ls[i]? = some l ∧ l.blockNumber = b := by
  refine ⟨fun k l hl => ?_, blockNumber_feed ls, fun m x b hx hdata => ?_⟩
  · rw [answers_getElem?, hl, Option.map_some, Option.some.injEq,
      existsLog_feed, kept_key_iff]
    constructor
    · rintro ⟨j, e, he, hkey, hafter⟩
      rw [List.getElem?_take, Option.ite_none_right_eq_some] at he
      obtain ⟨hjk, he⟩ := he
      refine ⟨j, e, hjk, he, congrArg Prod.fst hkey,
        congrArg Prod.snd hkey, ?_⟩
      rintro ⟨i, x, hji, hik, hx, hlt⟩
      rcases hik.lt_or_eq with hik | rfl
      · have hle := hafter i x hji (reaches_take.mpr ⟨hik, hx⟩)
        exact absurd hle (not_le.mpr hlt)
      · -- the log itself is not above its own block
        obtain rfl := Option.some.inj (hl.symm.trans hx.1)
        exact lt_irrefl _ hlt
    · rintro ⟨j, e, hjk, he, hblock, htx, hnone⟩
      refine ⟨j, e, ?_, Prod.ext hblock htx, fun i x hji hx => ?_⟩
      · rw [List.getElem?_take_of_lt hjk, he]
      · obtain ⟨hik, hx⟩ := reaches_take.mp hx
        exact not_lt.mp fun hlt => hnone ⟨i, x, hji, hik.le, hx, hlt⟩
  · obtain ⟨txMap, htxMap⟩ := Option.ne_none_iff_exists'.mp hdata
    obtain ⟨j, e, he, hblock, hafter⟩ := data_feed htxMap
    rcases lt_trichotomy j m with hjm | rfl | hmj
    · exact Or.inl (hafter m x hjm hx)
    · obtain rfl := Option.some.inj (he.symm.trans hx.1)
      exact Or.inl hblock.le
    · exact Or.inr ⟨j, e, hmj, he, hblock⟩

/-! ## Streams side by side -/

section Streams

variable {ι : Type*} [DecidableEq ι]

/-- A delivery below a block that was reached before is handled a second
    time: its own stream is late, so another one has delivered it. -/
theorem not_nodup_of_late {seq : List Log} {ds : List (ι × Log)} {d e : ι × Log}
    (hseq : seq.Pairwise (fun x y => x.blockNumber ≤ y.blockNumber))
    (hds : Interleaves seq (ds ++ [d]))
    (hsorted : (ds.map Prod.snd).Pairwise
      (fun x y => x.blockNumber ≤ y.blockNumber))
    (he : e ∈ ds) (hlt : d.2.blockNumber < e.2.blockNumber) :
    ¬ ((newLogCache.handled ((ds ++ [d]).map Prod.snd)).map Log.key).Nodup := by
  obtain ⟨before, after, rfl⟩ := List.append_of_mem he
  have hd : d.2 ∈ seq := hds.mem
  -- the stream of `e` has delivered the log, so it was handled once
  have hbefore : d.2 ∈ before.map Prod.snd :=
    hds.of_append.mem_before hseq hd hlt
  have hhandled : d.2.key ∈ (newLogCache.handled
      ((before ++ e :: after).map Prod.snd)).map Log.key := by
    refine mem_handled_key _ ?_
    rw [List.map_append]
    exact List.mem_append_left _ hbefore
  -- the block of `e` has driven it out, and it has not come back since
  have hgone : ¬ Kept (((before ++ e :: after).map Prod.snd).map Log.key)
      d.2.key := by
    rw [List.map_append, List.map_cons] at hsorted ⊢
    obtain ⟨-, hafter, hcross⟩ := List.pairwise_append.mp hsorted
    rw [List.map_append, List.map_cons]
    refine not_kept_of_above ?_ hlt ?_
    · rw [forall_key]
      exact fun z hz => hcross z hz _ List.mem_cons_self
    · intro hmem
      obtain ⟨x, hx, hkey⟩ := List.mem_map.mp hmem
      have hle := (List.pairwise_cons.mp hafter).1 x hx
      have hblock : x.blockNumber = d.2.blockNumber := congrArg Prod.fst hkey
      omega
  intro hnodup
  rw [List.map_append, List.map_singleton] at hnodup
  rcases handled_concat ((before ++ e :: after).map Prod.snd) d.2 with
    ⟨hkept, -⟩ | ⟨-, heq⟩
  · exact hgone hkept
  · rw [heq, List.map_append, List.map_singleton] at hnodup
    exact (List.nodup_append.mp hnodup).2.2 _ hhandled _ List.mem_cons_self rfl

/-- **AT MOST ONCE, SIDE BY SIDE**: however many streams deliver one
    block-ordered sequence through the cache, each key is handled at most once
    if and only if no delivery goes back to a lower block than one that was
    delivered before. -/
theorem interleaved_once_iff {seq : List Log} {ds : List (ι × Log)}
    (hseq : seq.Pairwise (fun x y => x.blockNumber ≤ y.blockNumber))
    (hds : Interleaves seq ds) :
    ((newLogCache.handled (ds.map Prod.snd)).map Log.key).Nodup ↔
      (ds.map Prod.snd).Pairwise
        (fun x y => x.blockNumber ≤ y.blockNumber) := by
  constructor
  · induction ds using List.reverseRecOn with
    | nil => exact fun _ => List.Pairwise.nil
    | append_singleton ds d ih =>
        intro hnodup
        have hsorted := ih hds.of_append (by
          rw [List.map_append, handled_append, List.map_append] at hnodup
          exact (List.nodup_append.mp hnodup).1)
        rw [List.map_append, List.map_singleton]
        refine List.pairwise_append.mpr
          ⟨hsorted, List.pairwise_singleton _ _, ?_⟩
        intro x hx y hy
        obtain rfl := List.mem_singleton.mp hy
        obtain ⟨e, he, rfl⟩ := List.mem_map.mp hx
        by_contra hlt
        exact not_nodup_of_late hseq hds hsorted he (not_le.mp hlt) hnodup
  · exact handled_nodup_of_sorted _

end Streams

/-- A log of the `i`-th transaction, in block `b`. -/
def sampleLog (b i : ℕ) : Log := ⟨b, bigToHash i, 0, [], []⟩

/-- Two subscriptions that keep pace handle each log once. -/
theorem interleaved_once_sample :
    Interleaves [sampleLog 1 1, sampleLog 2 2]
        [(false, sampleLog 1 1), (true, sampleLog 1 1),
          (true, sampleLog 2 2), (false, sampleLog 2 2)] ∧
      ((newLogCache.handled [sampleLog 1 1, sampleLog 1 1, sampleLog 2 2,
        sampleLog 2 2]).map Log.key).Nodup := by
  have hds : Interleaves [sampleLog 1 1, sampleLog 2 2]
      [(false, sampleLog 1 1), (true, sampleLog 1 1),
        (true, sampleLog 2 2), (false, sampleLog 2 2)] := by
    rw [Interleaves]
    decide +kernel
  exact ⟨hds, (interleaved_once_iff (by decide) hds).mpr (by decide)⟩

/-- **A LATE STREAM REPEATS**: one stream is at block 2 when the other one
    delivers the log of block 1 again. -/
theorem late_stream_handled_twice :
    ¬ ∀ (seq : List Log) (ds : List (Bool × Log)),
      seq.Pairwise (fun x y => x.blockNumber ≤ y.blockNumber) →
      Interleaves seq ds →
      ((newLogCache.handled (ds.map Prod.snd)).map Log.key).Nodup := by
  intro h
  have hds : Interleaves [sampleLog 1 1, sampleLog 2 2]
      [(false, sampleLog 1 1), (false, sampleLog 2 2),
        (true, sampleLog 1 1)] := by
    rw [Interleaves]
    decide +kernel
  exact absurd (h _ _ (by decide) hds) (by decide +kernel)

/-! ## Subscriptions one after another -/

/-- `watchLogs`: the `FromBlock` of the filter query, unset for a cache that
    has seen no block. -/
def LogCache.fromBlock (c : LogCache) : Option ℕ :=
  if c.blockNumber > 0 then some c.blockNumber else none

/-- What a subscription has delivered when it is cut: the beginning of the
    logs from its first block on, in some block order. -/
def Delivers (history : List Log) (c : LogCache) (cut : List Log) : Prop :=
  ∃ rest,
    (cut ++ rest).Perm
      (history.filter (fun l => c.fromBlock.getD 0 ≤ l.blockNumber)) ∧
    (cut ++ rest).Pairwise (fun x y => x.blockNumber ≤ y.blockNumber)

/-- Any number of subscriptions of one watcher, one after another, and all
    they have delivered. -/
inductive Resubscribed (history : List Log) : List Log → Prop where
  | start : Resubscribed history []
  | again {ds cut : List Log} : Resubscribed history ds →
      Delivers history (newLogCache.feed ds) cut →
      Resubscribed history (ds ++ cut)

variable {history ds cut : List Log}

/-- A subscription starts at `BlockNumber()`. -/
theorem fromBlock_getD (c : LogCache) : c.fromBlock.getD 0 = c.blockNumber := by
  rw [LogCache.fromBlock]
  split
  · rfl
  · rename_i hzero
    exact (Nat.eq_zero_of_not_pos hzero).symm

/-- A subscription delivers logs of the history, from its first block on. -/
theorem Delivers.mem {c : LogCache} (h : Delivers history c cut) {l : Log}
    (hl : l ∈ cut) : l ∈ history ∧ c.blockNumber ≤ l.blockNumber := by
  obtain ⟨rest, hperm, -⟩ := h
  have hmem := hperm.subset (List.mem_append_left rest hl)
  rw [fromBlock_getD] at hmem
  obtain ⟨hhist, hle⟩ := List.mem_filter.mp hmem
  exact ⟨hhist, of_decide_eq_true hle⟩

/-- A subscription leaves out nothing between its first block and the block of
    a log it has delivered. -/
theorem Delivers.mem_below {c : LogCache} (h : Delivers history c cut)
    {b l : Log} (hb : b ∈ cut) (hl : l ∈ history)
    (hfrom : c.blockNumber ≤ l.blockNumber)
    (hlt : l.blockNumber < b.blockNumber) : l ∈ cut := by
  obtain ⟨rest, hperm, hsorted⟩ := h
  have hmem : l ∈ cut ++ rest := by
    refine hperm.symm.subset (List.mem_filter.mpr ⟨hl, ?_⟩)
    rw [fromBlock_getD]
    exact decide_eq_true hfrom
  rcases List.mem_append.mp hmem with hmem | hmem
  · exact hmem
  · have hle := (List.pairwise_append.mp hsorted).2.2 b hb l hmem
    omega

/-- What is delivered has happened. -/
theorem Resubscribed.mem_history (h : Resubscribed history ds) {l : Log}
    (hl : l ∈ ds) : l ∈ history := by
  induction h with
  | start => exact absurd hl List.not_mem_nil
  | again _ hcut ih =>
      rcases List.mem_append.mp hl with hl | hl
      · exact ih hl
      · exact (hcut.mem hl).1

/-- Subscriptions that start at the block of the cache never go back. -/
theorem Resubscribed.sorted (h : Resubscribed history ds) :
    ds.Pairwise (fun x y => x.blockNumber ≤ y.blockNumber) := by
  induction h with
  | start => exact List.Pairwise.nil
  | @again ds cut _ hcut ih =>
      obtain ⟨rest, -, hsorted⟩ := id hcut
      refine List.pairwise_append.mpr
        ⟨ih, (List.pairwise_append.mp hsorted).1, ?_⟩
      intro x hx y hy
      exact ((tracks_feed ds).top _).mp (hcut.mem hy).2 x hx

/-- Subscriptions that start at the block of the cache leave no gap. -/
theorem Resubscribed.no_gap (h : Resubscribed history ds) :
    ∀ b ∈ ds, ∀ l ∈ history, l.blockNumber < b.blockNumber → l ∈ ds := by
  induction h with
  | start => exact fun b hb => absurd hb List.not_mem_nil
  | @again ds cut _ hcut ih =>
      intro b hb l hl hlt
      rcases List.mem_append.mp hb with hb | hb
      · exact List.mem_append_left _ (ih b hb l hl hlt)
      · by_cases hfrom : (newLogCache.feed ds).blockNumber ≤ l.blockNumber
        · exact List.mem_append_right _ (hcut.mem_below hb hl hfrom hlt)
        · -- the cache has reached a block above the log, so the log is older
          rw [(tracks_feed ds).top] at hfrom
          push Not at hfrom
          obtain ⟨x, hx, hlx⟩ := hfrom
          exact List.mem_append_left _ (ih x hx l hl hlx)

/-- **EXACTLY ONCE, ONE AFTER ANOTHER**: if every transaction carries one log,
    any number of subscriptions handle each log that is delivered exactly
    once, and skip no log between the blocks of two handled ones. -/
theorem sequential_exactly_once (hhist : (history.map Log.txHash).Nodup)
    (h : Resubscribed history ds) :
    (∀ l ∈ ds, (newLogCache.handled ds).count l = 1) ∧
    ∀ a ∈ newLogCache.handled ds, ∀ b ∈ newLogCache.handled ds,
      ∀ l ∈ history, a.blockNumber ≤ l.blockNumber →
        l.blockNumber < b.blockNumber → l ∈ newLogCache.handled ds := by
  have hnodup := handled_nodup_of_sorted ds h.sorted
  have hhandled : ∀ l ∈ ds, l ∈ newLogCache.handled ds := by
    intro l hl
    obtain ⟨x, hx, hkey⟩ := List.mem_map.mp (mem_handled_key ds hl)
    have hxl : x = l := List.inj_on_of_nodup_map hhist
      (h.mem_history (handled_subset ds _ hx)) (h.mem_history hl)
      (congrArg Prod.snd hkey)
    exact hxl ▸ hx
  refine ⟨fun l hl => ?_, fun a _ b hb l hl _ hlt => ?_⟩
  · exact List.count_eq_one_of_mem (List.Nodup.of_map _ hnodup) (hhandled l hl)
  · exact hhandled l (h.no_gap b (handled_subset ds _ hb) l hl hlt)

/-- The second subscription starts at block 1 again, and in another order. -/
theorem sequential_exactly_once_sample :
    (newLogCache.handled [sampleLog 1 1, sampleLog 1 2, sampleLog 1 1,
      sampleLog 2 3]).count (sampleLog 1 1) = 1 := by
  have hfirst : Resubscribed [sampleLog 1 1, sampleLog 1 2, sampleLog 2 3]
      [sampleLog 1 1] := by
    refine Resubscribed.again Resubscribed.start
      ⟨[sampleLog 1 2, sampleLog 2 3], ?_, ?_⟩ <;> decide +kernel
  have hsecond : Resubscribed [sampleLog 1 1, sampleLog 1 2, sampleLog 2 3]
      ([sampleLog 1 1] ++ [sampleLog 1 2, sampleLog 1 1, sampleLog 2 3]) := by
    refine Resubscribed.again hfirst ⟨[], ?_, ?_⟩ <;> decide +kernel
  exact (sequential_exactly_once (by decide +kernel) hsecond).1 _
    List.mem_cons_self

end RelayerLogCache
