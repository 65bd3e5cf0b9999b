import Relayer.RangeProofs

/-! # The key-value store

    `chain/storage/leveldb_store.go` over a leveldb that behaves as a map,
    with atomic batches and transactions.  Every call into leveldb may fail;
    a call that fails has no effect, and a transaction in which one fails is
    discarded.

    * `Op` are the operations that change a store, with the failures that
      they meet, and `run` is a sequence of them;
    * `Op.effect` says what an operation means for one key, and
      **`run_eq_lastEffect`** that a key holds what the last operation with an
      effect on it left there;
    * **`change_set_atomic`**: a change set as a whole or not at all, in every
      order of its two maps. -/

namespace RelayerStore

open Ranges

/-- Keys and values are `[]byte`. -/
abbrev Bytes := List UInt8

/-- `LevelDBStore`: what leveldb holds. -/
abbrev Store := Bytes → Option Bytes

/-- `ErrKeyNotFound`, or another error of leveldb. -/
inductive Err where
  | keyNotFound
  | other (text : String)
  deriving DecidableEq, Repr

/-- One entry of a `leveldb.Batch`. -/
inductive BatchOp where
  | put (key value : Bytes)
  | delete (key : Bytes)
  deriving DecidableEq, Repr

/-- Which calls of a transaction fail, and how. -/
structure TxFaults where
  openTransaction : Option String
  put : Bytes → Option String
  delete : Bytes → Option String
  commit : Option String

/-- A call that changes a store, with the failures of leveldb it meets.
    `puts` and `dels` are in the order in which Go ranges over the maps. -/
inductive Op where
  | put (key value : Bytes) (fault : Option String)
  | delete (key : Bytes) (fault : Option String)
  | putBatch (batch : List BatchOp) (fault : Option String)
  | putChangeSet (puts : List (Bytes × Bytes)) (dels : List (Bytes × Bool))
      (faults : TxFaults)

/-! ## The operations -/

/-- A call of leveldb that fails, or does something. -/
def attempt (fault : Option String) (db db' : Store) : Store × Option Err :=
  match fault with
  | some text => (db, some (.other text))
  | none => (db', none)

/-- `Put`. -/
def Store.put (db : Store) (key value : Bytes) (fault : Option String) :
    Store × Option Err :=
  attempt fault db (Maps.set db key value)

/-- `Delete`. -/
def Store.delete (db : Store) (key : Bytes) (fault : Option String) :
    Store × Option Err :=
  attempt fault db (Maps.delete db key)

/-- What one entry of a batch does. -/
def BatchOp.write (db : Store) : BatchOp → Store
  | .put key value => Maps.set db key value
  | .delete key => Maps.delete db key

/-- `PutBatch`. -/
def Store.putBatch (db : Store) (batch : List BatchOp) (fault : Option String) :
    Store × Option Err :=
  attempt fault db (batch.foldl BatchOp.write db)

/-- A step of a transaction that fails, or does something. -/
def txStep (fault : Option String) (tx : Store) : Except String Store :=
  match fault with
  | some text => .error text
  | none => .ok tx

/-- The two loops of `PutChangeSet` and its commit. -/
def changeSet (db : Store) (puts : List (Bytes × Bytes))
    (dels : List (Bytes × Bool)) (faults : TxFaults) : Except String Store := do
  let tx ← txStep faults.openTransaction db
  let tx ← puts.foldlM (fun tx p => txStep (faults.put p.1)
    (Maps.set tx p.1 p.2)) tx
  -- the values of `dels` are not looked at
  let tx ← dels.foldlM (fun tx p => txStep (faults.delete p.1)
    (Maps.delete tx p.1)) tx
  txStep faults.commit tx

/-- `PutChangeSet`: discarded as a whole when a step fails. -/
def Store.putChangeSet (db : Store) (puts : List (Bytes × Bytes))
    (dels : List (Bytes × Bool)) (faults : TxFaults) : Store × Option Err :=
  match changeSet db puts dels faults with
  | .error text => (db, some (.other text))
  | .ok tx => (tx, none)

/-- One operation. -/
def Op.apply (db : Store) : Op → Store
  | .put key value fault => (Store.put db key value fault).1
  | .delete key fault => (Store.delete db key fault).1
  | .putBatch batch fault => (Store.putBatch db batch fault).1
  | .putChangeSet puts dels faults => (Store.putChangeSet db puts dels faults).1

/-- Operations on a new store. -/
def run (ops : List Op) : Store := ops.foldl Op.apply (fun _ => none)

/-- `Get`; `fault` is a failure of leveldb other than `ErrNotFound`. -/
def Store.get (db : Store) (key : Bytes) (fault : Option String) :
    Option Bytes × Option Err :=
  match fault with
  | some text => (none, some (.other text))
  | none =>
      match db key with
      | some value => (some value, none)
      | none => (none, some .keyNotFound)

/-- `Has`: the answer does not depend on the store. -/
def Store.has (_db : Store) (_value : Bytes) : Bool × Option Err := (true, none)

/-! ## What an operation means for one key -/

/-- What a sequence of writes makes of a key: nothing, its deletion or a new
    value. -/
def batchEffect (key : Bytes) : List BatchOp → Option (Option Bytes)
  | [] => none
  | op :: ops =>
      match batchEffect key ops with
      | some v => some v
      | none =>
          match op with
          | .put k v => if k = key then some (some v) else none
          | .delete k => if k = key then some none else none

/-- A change set as a batch. -/
def changes (puts : List (Bytes × Bytes)) (dels : List (Bytes × Bool)) :
    List BatchOp :=
  puts.map (fun p => .put p.1 p.2) ++ dels.map (fun p => .delete p.1)

/-- The first step of the transaction that fails. -/
def TxFaults.first (faults : TxFaults) (puts : List (Bytes × Bytes))
    (dels : List (Bytes × Bool)) : Option String :=
  faults.openTransaction.or ((puts.findSome? (fun p => faults.put p.1)).or
    ((dels.findSome? (fun p => faults.delete p.1)).or faults.commit))

/-- What an operation means for a key. -/
def Op.effect (key : Bytes) : Op → Option (Option Bytes)
  | .put k v fault => if fault.isSome then none else batchEffect key [.put k v]
  | .delete k fault => if fault.isSome then none else batchEffect key [.delete k]
  | .putBatch batch fault =>
      if fault.isSome then none else batchEffect key batch
  | .putChangeSet puts dels faults =>
      if (faults.first puts dels).isSome then none
      else batchEffect key (changes puts dels)

/-- What the last operation with an effect on a key did to it. -/
def lastEffect (key : Bytes) : List Op → Option (Option Bytes)
  | [] => none
  | op :: ops =>
      match lastEffect key ops with
      | some v => some v
      | none => op.effect key

/-- One operation of a batch, seen at a key. -/
theorem write_eq (db : Store) (op : BatchOp) (key : Bytes) :
    op.write db key = (batchEffect key [op]).getD (db key) := by
  cases op with
  | put k v =>
      by_cases hk : k = key
      · simp [BatchOp.write, batchEffect, hk]
      · simp [BatchOp.write, batchEffect, hk, Maps.set_of_ne (Ne.symm hk)]
  | delete k =>
      by_cases hk : k = key
      · simp [BatchOp.write, batchEffect, hk]
      · simp [BatchOp.write, batchEffect, hk, Maps.delete_of_ne (Ne.symm hk)]

/-- A batch means for a key what its last write of it means. -/
theorem batch_eq (batch : List BatchOp) (key : Bytes) :
    ∀ db : Store, batch.foldl BatchOp.write db key =
      (batchEffect key batch).getD (db key) := by
  induction batch with
  | nil => intro db; rfl
  | cons op ops ih =>
      intro db
      rw [List.foldl_cons, ih, write_eq, batchEffect.eq_def key (op :: ops)]
      dsimp only
      cases batchEffect key ops with
      | some v => rfl
      | none => rfl

section Transactions

variable {α : Type}

/-- A loop in a transaction is one step, which fails as its first failing
    step does. -/
theorem foldlM_txStep (fault : α → Option String) (write : Store → α → Store)
    (l : List α) : ∀ tx,
    l.foldlM (fun tx a => txStep (fault a) (write tx a)) tx =
      txStep (l.findSome? fault) (l.foldl write tx) := by
  induction l with
  | nil => intro tx; rfl
  | cons a l ih =>
      intro tx
      rw [List.foldlM_cons, List.findSome?_cons, List.foldl_cons]
      cases fault a with
      | some text => rfl
      | none => exact ih (write tx a)

end Transactions

/-- `ChangeSet` writes all changes or none, by its first fault. -/
theorem changeSet_eq (db : Store) (puts : List (Bytes × Bytes))
    (dels : List (Bytes × Bool)) (faults : TxFaults) :
    changeSet db puts dels faults = txStep (faults.first puts dels)
      ((changes puts dels).foldl BatchOp.write db) := by
  have hwrite : (changes puts dels).foldl BatchOp.write db =
      dels.foldl (fun tx p => Maps.delete tx p.1)
        (puts.foldl (fun tx p => Maps.set tx p.1 p.2) db) := by
    rw [changes, List.foldl_append, List.foldl_map, List.foldl_map]
    rfl
  rw [changeSet, hwrite, TxFaults.first]
  simp only [foldlM_txStep]
  -- the faults come in the order the transaction meets them
  cases faults.openTransaction with
  | some text => rfl
  | none =>
      cases puts.findSome? (fun p => faults.put p.1) with
      | some text => rfl
      | none =>
          cases dels.findSome? (fun p => faults.delete p.1) with
          | some text => rfl
          | none => rfl

/-- **ALL OR NOTHING**: a change set without failures is its batch, and one
    with a failure is discarded. -/
theorem putChangeSet_eq (db : Store) (puts : List (Bytes × Bytes))
    (dels : List (Bytes × Bool)) (faults : TxFaults) :
    (Store.putChangeSet db puts dels faults).1 =
      if (faults.first puts dels).isSome then db
      else (changes puts dels).foldl BatchOp.write db := by
  rw [Store.putChangeSet, changeSet_eq]
  cases faults.first puts dels with
  | some text => rfl
  | none => rfl

/-- **ONE OPERATION, ONE KEY**. -/
theorem apply_eq (db : Store) (op : Op) (key : Bytes) :
    op.apply db key = (op.effect key).getD (db key) := by
  cases op with
  | put k v fault =>
      cases fault with
      | some text => rfl
      | none => exact write_eq db (.put k v) key
  | delete k fault =>
      cases fault with
      | some text => rfl
      | none => exact write_eq db (.delete k) key
  | putBatch batch fault =>
      cases fault with
      | some text => rfl
      | none => exact batch_eq batch key db
  | putChangeSet puts dels faults =>
      rw [Op.apply, Op.effect, putChangeSet_eq]
      split
      · rfl
      · exact batch_eq _ key db

/-- **A KEY HOLDS WHAT WAS LAST LEFT THERE**. -/
theorem run_eq_lastEffect (ops : List Op) (key : Bytes) :
    run ops key = (lastEffect key ops).join := by
  have hrun : ∀ db : Store, ops.foldl Op.apply db key =
      (lastEffect key ops).getD (db key) := by
    induction ops with
    | nil => intro db; rfl
    | cons op ops ih =>
        intro db
        rw [List.foldl_cons, ih, apply_eq, lastEffect]
        cases lastEffect key ops with
        | some v => rfl
        | none => rfl
  rw [run, hrun]
  cases lastEffect key ops with
  | some v => rfl
  | none => rfl

/-! ## Change sets in every order -/

/-- The content after a change set: the keys of `dels` are absent, the others
    have the value of `puts` if there is one. -/
def Store.changed (db : Store) (puts : Bytes → Option Bytes)
    (dels : Bytes → Option Bool) : Store :=
  fun key => if (dels key).isSome then none else (puts key).or (db key)

/-- The changes written one by one, in any order of the ranges. -/
theorem foldl_changes {db : Store} {ps : List (Bytes × Bytes)}
    {ds : List (Bytes × Bool)} {puts : Bytes → Option Bytes}
    {dels : Bytes → Option Bool} (hps : RangeOf ps puts)
    (hds : RangeOf ds dels) :
    (changes ps ds).foldl BatchOp.write db = db.changed puts dels := by
  funext key
  rw [changes, List.foldl_append, List.foldl_map, List.foldl_map]
  show ds.foldl (fun tx p => Maps.delete tx p.1)
    (ps.foldl (fun tx p => Maps.set tx p.1 p.2) db) key = _
  rw [hds.foldl_delete, hps.foldl_set, Store.changed]

/-- **A CHANGE SET IS ATOMIC**, in whatever order its maps are ranged over: it
    returns nil exactly when no step of the transaction fails, and then the
    keys of `dels` are absent and the others have the value of `puts`, if there
    is one, or their old one; otherwise nothing is changed. -/
theorem change_set_atomic (db : Store) (puts : Bytes → Option Bytes)
    (dels : Bytes → Option Bool) {ps : List (Bytes × Bytes)}
    {ds : List (Bytes × Bool)} (hps : RangeOf ps puts) (hds : RangeOf ds dels)
    (faults : TxFaults) :
    ((Store.putChangeSet db ps ds faults).2 = none ↔
      faults.openTransaction = none ∧
        (∀ key, (puts key).isSome → faults.put key = none) ∧
        (∀ key, (dels key).isSome → faults.delete key = none) ∧
        faults.commit = none) ∧
    ((Store.putChangeSet db ps ds faults).2 = none →
      (Store.putChangeSet db ps ds faults).1 = db.changed puts dels) ∧
    ((Store.putChangeSet db ps ds faults).2 ≠ none →
      (Store.putChangeSet db ps ds faults).1 = db) := by
  have hfirst : faults.first ps ds = none ↔ faults.openTransaction = none ∧
      (∀ key, (puts key).isSome → faults.put key = none) ∧
      (∀ key, (dels key).isSome → faults.delete key = none) ∧
      faults.commit = none := by
    simp only [TxFaults.first, Option.or_eq_none_iff, List.findSome?_eq_none_iff,
      ← hps.mem_keys, ← hds.mem_keys, List.forall_mem_map]
  rw [Store.putChangeSet, changeSet_eq, foldl_changes hps hds, ← hfirst]
  cases faults.first ps ds with
  | none => simp [txStep]
  | some text => simp [txStep]

/-- Two keys are put, and one of them and another are deleted. -/
def samplePuts : List (Bytes × Bytes) := [([1], [2]), ([3], [4])]

def sampleDels : List (Bytes × Bool) := [([1], true), ([5], true)]

def samplePutMap : Bytes → Option Bytes :=
  Maps.set (Maps.set (fun _ => none) [1] [2]) [3] [4]

def sampleDelMap : Bytes → Option Bool :=
  Maps.set (Maps.set (fun _ => none) [1] true) [5] true

theorem rangeOf_samplePuts : RangeOf samplePuts samplePutMap :=
  (rangeOf_nil.concat rfl _).concat rfl _

theorem rangeOf_sampleDels : RangeOf sampleDels sampleDelMap :=
  (rangeOf_nil.concat rfl _).concat rfl _

/-- A commit that works, or a `Delete` of the second key that fails. -/
def sampleFaults (fails : Bool) : TxFaults where
  openTransaction := none
  put _ := none
  delete key := if fails ∧ key = [5] then some "corrupted" else none
  commit := none

/-- A key that is put and deleted is absent, the other ones are put and deleted,
    and the rest stays; where the last `Delete` fails nothing is changed. -/
theorem change_set_atomic_sample :
    (∃ db, Store.putChangeSet (fun _ => some [9]) samplePuts sampleDels
        (sampleFaults false) = (db, none) ∧
      db [1] = none ∧ db [3] = some [4] ∧ db [5] = none ∧ db [6] = some [9]) ∧
    ∃ err, Store.putChangeSet (fun _ => some [9]) samplePuts sampleDels
      (sampleFaults true) = (fun _ => some [9], some err) := by
  constructor
  · obtain ⟨hnil, hchanged, -⟩ := change_set_atomic (fun _ => some [9]) _ _
      rangeOf_samplePuts rangeOf_sampleDels (sampleFaults false)
    have hnone := hnil.mpr ⟨rfl, fun _ _ => rfl, fun _ _ => rfl, rfl⟩
    exact ⟨_, Prod.ext (hchanged hnone) hnone, rfl, rfl, rfl, rfl⟩
  · obtain ⟨hnil, -, hsame⟩ := change_set_atomic (fun _ => some [9]) _ _
      rangeOf_samplePuts rangeOf_sampleDels (sampleFaults true)
    have herr : (Store.putChangeSet (fun _ => some [9]) samplePuts sampleDels
        (sampleFaults true)).2 ≠ none := by
      intro hnone
      exact absurd ((hnil.mp hnone).2.2.1 [5] rfl) (by decide)
    obtain ⟨err, herr'⟩ := Option.ne_none_iff_exists'.mp herr
    exact ⟨err, Prod.ext (hsame herr) herr'⟩

end RelayerStore
