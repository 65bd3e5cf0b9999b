import Relayer.LogCacheProofs

/-! # Transactions and what is left of them in bytes

    `chain/transaction.go`.  A transaction is serialized by `encoding/gob`,
    which encodes the exported fields of a structure, those whose name begins
    with an upper-case letter, and decodes them into a zero value.  Of a
    `Transaction` the event `OriginData` is exported; `nonce` and `chainId` are
    not.

    * `Gob` is what is assumed of the encoder;
    * `deserialize_serialize`: what comes back of a transaction;
    * **`transaction_kept_iff`**: a transaction comes back exactly when its
      nonce and its chain id are zero, and two transactions have different
      bytes, and so hashes, exactly when their events differ;
    * **`transaction_forgets_nonce`**: two transactions that differ in nonce
      and chain id, with the same bytes and hash. -/

namespace RelayerTransaction

open RelayerLogCache Sha256

/-! ## Fields -/

/-- `Transaction`; the events of type `E` are `wrappers.BridgeOracleRequest`. -/
structure Transaction (E : Type*) where
  chainId : UInt64
  originData : E
  nonce : UInt64
  deriving DecidableEq

/-- `NewTransaction`. -/
def newTransaction {E : Type*} (ev : E) (nonce chId : UInt64) : Transaction E :=
  ⟨chId, ev, nonce⟩

/-- A field of a transaction with its value. -/
inductive Field (E : Type*) where
  | chainId (n : UInt64)
  | originData (e : E)
  | nonce (n : UInt64)

/-- The name of a field in the source. -/
def Field.name {E : Type*} : Field E → String
  | .chainId _ => "chainId"
  | .originData _ => "OriginData"
  | .nonce _ => "nonce"

/-- Is a field with this name exported? -/
def isExported (name : String) : Bool :=
  match name.toList with
  | [] => false
  | c :: _ => c.isUpper

/-- The fields that `gob` looks at. -/
def Transaction.exported {E : Type*} (tx : Transaction E) : List (Field E) :=
  [.chainId tx.chainId, .originData tx.originData, .nonce tx.nonce].filter
    fun field => isExported field.name

/-- Of the three fields only `OriginData` is exported. -/
theorem exported_eq {E : Type*} (tx : Transaction E) :
    tx.exported = [.originData tx.originData] := by
  have hchainId : isExported "chainId" = false := by decide
  have horiginData : isExported "OriginData" = true := by decide
  have hnonce : isExported "nonce" = false := by decide
  simp [Transaction.exported, Field.name, hchainId, horiginData, hnonce]

/-- A decoded field is assigned. -/
def Transaction.assign {E : Type*} (tx : Transaction E) :
    Field E → Transaction E
  | .chainId n => { tx with chainId := n }
  | .originData e => { tx with originData := e }
  | .nonce n => { tx with nonce := n }

/-! ## Bytes -/

/-- `encoding/gob` on transactions: the exported fields are encoded, and
    decoded unchanged. -/
structure Gob (E : Type*) where
  encode : List (Field E) → List UInt8
  decode : List UInt8 → Option (List (Field E))
  decode_encode : ∀ tx : Transaction E,
    decode (encode tx.exported) = some tx.exported

/-- `common.BytesToHash`: the last 32 bytes, filled up with zeros on the
    left. -/
def bytesToHash (b : List UInt8) : Hash where
  bytes := List.replicate (32 - b.length) 0 ++ b.drop (b.length - 32)
  length_eq := by
    rw [List.length_append, List.length_replicate, List.length_drop]
    omega

theorem length_sum256 (m : List UInt8) : (sum256 m).length = 32 := rfl

/-- The hash of 32 bytes is these bytes. -/
theorem bytes_bytesToHash {b : List UInt8} (h : b.length = 32) :
    (bytesToHash b).bytes = b := by
  simp [bytesToHash, h]

section Bytes

variable {E : Type*} (gob : Gob E)

/-- `Serialize`. -/
def Transaction.serialize (tx : Transaction E) : List UInt8 :=
  gob.encode tx.exported

/-- `DeserializeTransaction`, into the zero value; `none` is `log.Panic`. -/
def deserializeTransaction (zero : E) (data : List UInt8) :
    Option (Transaction E) :=
  (gob.decode data).map (List.foldl Transaction.assign ⟨0, zero, 0⟩)

/-- `Hash`. -/
def Transaction.hash (tx : Transaction E) : Hash :=
  bytesToHash (sum256 (tx.serialize gob))

/-- **WHAT COMES BACK** of a transaction: its event. -/
theorem deserialize_serialize (zero : E) (tx : Transaction E) :
    deserializeTransaction gob zero (tx.serialize gob) =
      some ⟨0, tx.originData, 0⟩ := by
  rw [deserializeTransaction, Transaction.serialize, gob.decode_encode,
    exported_eq]
  rfl

/-- **THE BYTES** of a transaction are those of its event. -/
theorem serialize_eq_iff {tx tx' : Transaction E} :
    tx.serialize gob = tx'.serialize gob ↔ tx.originData = tx'.originData := by
  constructor
  · intro h
    have hread := deserialize_serialize gob tx.originData tx
    rw [h, deserialize_serialize] at hread
    exact (congrArg Transaction.originData (Option.some.inj hread)).symm
  · intro h
    rw [Transaction.serialize, Transaction.serialize, exported_eq, exported_eq,
      h]

/-- Hashes are equal when the digests are. -/
theorem bytesToHash_sum256_eq_iff {b b' : List UInt8} :
    bytesToHash (sum256 b) = bytesToHash (sum256 b') ↔ sum256 b = sum256 b' := by
  constructor
  · intro h
    have hbytes := congrArg Hash.bytes h
    rwa [bytes_bytesToHash (length_sum256 b),
      bytes_bytesToHash (length_sum256 b')] at hbytes
  · exact congrArg bytesToHash

/-- **WHEN A TRANSACTION IS KEPT**: it comes back whole exactly when its nonce
    and its chain id are zero; another transaction has other bytes, and another
    hash when SHA-256 has no collision there, exactly when its event differs. -/
theorem transaction_kept_iff (zero : E) (tx : Transaction E) :
    (∃ back, deserializeTransaction gob zero (tx.serialize gob) = some back ∧
      back.originData = tx.originData) ∧
    (deserializeTransaction gob zero (tx.serialize gob) = some tx ↔
      tx.nonce = 0 ∧ tx.chainId = 0) ∧
    ∀ tx' : Transaction E,
      (tx.serialize gob ≠ tx'.serialize gob ↔
        tx.originData ≠ tx'.originData) ∧
      (Set.InjOn sum256 {tx.serialize gob, tx'.serialize gob} →
        (tx.hash gob ≠ tx'.hash gob ↔ tx.originData ≠ tx'.originData)) := by
  have hback := deserialize_serialize gob zero tx
  refine ⟨⟨_, hback, rfl⟩, ?_, fun tx' => ⟨?_, fun hinj => ?_⟩⟩
  · rw [hback, Option.some_inj]
    constructor
    · intro h
      rw [← h]
      exact ⟨rfl, rfl⟩
    · rintro ⟨hnonce, hchain⟩
      obtain ⟨chainId, ev, nonce⟩ := tx
      subst hnonce hchain
      rfl
  · exact not_congr (serialize_eq_iff gob)
  · rw [Transaction.hash, Transaction.hash, Ne, bytesToHash_sum256_eq_iff,
      hinj.eq_iff (by simp) (by simp)]
    exact not_congr (serialize_eq_iff gob)

end Bytes

/-! ## Two transactions -/

/-- An encoder for events that are one byte. -/
def byteGob : Gob UInt8 where
  encode
    | [.originData e] => [e]
    | _ => []
  decode
    | [e] => some [.originData e]
    | _ => none
  decode_encode tx := by rw [exported_eq]

theorem serialize_byteGob (tx : Transaction UInt8) :
    tx.serialize byteGob = [tx.originData] := by
  rw [Transaction.serialize, exported_eq]
  rfl

/-- A transaction without nonce and chain is kept, and its hash tells it from
    another. -/
theorem transaction_kept_sample :
    (newTransaction (7 : UInt8) 0 0).originData = 7 ∧
    deserializeTransaction byteGob 0
      ((newTransaction (7 : UInt8) 0 0).serialize byteGob) =
        some (newTransaction 7 0 0) ∧
    (newTransaction (7 : UInt8) 0 0).hash byteGob ≠
      (newTransaction (8 : UInt8) 0 0).hash byteGob := by
  have hkept := transaction_kept_iff byteGob 0 (newTransaction 7 0 0)
  refine ⟨rfl, hkept.2.1.mpr ⟨rfl, rfl⟩, ?_⟩
  have hdigests : sum256 [7] ≠ sum256 [8] := by decide +kernel
  have hinj : Set.InjOn sum256
      {(newTransaction 7 0 0).serialize byteGob,
        (newTransaction 8 0 0).serialize byteGob} := by
    rw [serialize_byteGob, serialize_byteGob]
    rintro a (rfl | rfl) b (rfl | rfl) heq
    · rfl
    · exact absurd heq hdigests
    · exact absurd heq.symm hdigests
    · rfl
  exact ((hkept.2.2 (newTransaction 8 0 0)).2 hinj).mpr (by decide)

/-- **THE NONCE IS FORGOTTEN**: transactions of one event with other nonces and
    chain ids have the same bytes and the same hash, and none of them comes
    back. -/
theorem transaction_forgets_nonce :
    newTransaction (7 : UInt8) 1 1 ≠ newTransaction 7 2 5 ∧
    (newTransaction (7 : UInt8) 1 1).serialize byteGob =
      (newTransaction 7 2 5).serialize byteGob ∧
    (newTransaction (7 : UInt8) 1 1).hash byteGob =
      (newTransaction 7 2 5).hash byteGob ∧
    deserializeTransaction byteGob 0
      ((newTransaction 7 1 1).serialize byteGob) = some ⟨0, 7, 0⟩ ∧
    newTransaction (7 : UInt8) 1 1 ≠ ⟨0, 7, 0⟩ :=
  ⟨by decide, by decide, by decide +kernel, deserialize_serialize byteGob _ _,
    by decide⟩

end RelayerTransaction
