import Relayer.MerkleProofs
import Relayer.MessageProofs
import Relayer.StoreProofs
import Relayer.TableProofs

/-! # The raw database

    `chain/rawdb`: accessors that keep the tables of a chain in one key-value
    store, each under keys of its own (`schema.go`).

    * `Key` are the entries of all tables, and `Key.bytes_inj` says that no
      two of them share a key of the store;
    * every accessor that writes is some changes of entries (`applyOp_eq`), so
      that the store holds the tables (`holds_run`);
    * **`tables_refined`**: what each accessor that reads makes of the last
      change of its entry, and where it does not report an absent one;
    * **`has_truthful_iff`**: when `Has`, `HasHeader` and `HasBody` of a
      `LevelDBStore` agree with what is stored. -/

namespace RelayerRawdb

open RelayerLogCache RelayerMessage RelayerStore RelayerTransaction Tables

/-! ## Keys -/

/-- The bytes of a text in the schema. -/
def ascii (s : String) : Bytes := s.toList.map (fun c => UInt8.ofNat c.toNat)

def headHeaderKey : Bytes := ascii "LastHeader"
def headBlockKey : Bytes := ascii "LastBlock"
def headFastBlockKey : Bytes := ascii "LastFast"
def headerPrefix : Bytes := ascii "h"
def headerTDSuffix : Bytes := ascii "t"
def headerHashSuffix : Bytes := ascii "n"
def headerNumberPrefix : Bytes := ascii "H"
def blockBodyPrefix : Bytes := ascii "b"
def blockReceiptsPrefix : Bytes := ascii "r"
def txLookupPrefix : Bytes := ascii "l"

/-- `encodeBlockNumber`: eight bytes, big-endian. -/
def encodeBlockNumber (number : UInt64) : Bytes :=
  (List.range 8).map (fun i => UInt8.ofNat (number.toNat / 256 ^ (7 - i)))

/-- `binary.BigEndian.Uint64`. -/
def decodeBlockNumber (data : Bytes) : UInt64 := UInt64.ofNat (setBytes data)

def headerKey (number : UInt64) (hash : Hash) : Bytes :=
  headerPrefix ++ encodeBlockNumber number ++ hash.bytes

def headerTDKey (number : UInt64) (hash : Hash) : Bytes :=
  headerKey number hash ++ headerTDSuffix

def headerHashKey (number : UInt64) : Bytes :=
  headerPrefix ++ encodeBlockNumber number ++ headerHashSuffix

def headerNumberKey (hash : Hash) : Bytes := headerNumberPrefix ++ hash.bytes

def blockBodyKey (number : UInt64) (hash : Hash) : Bytes :=
  blockBodyPrefix ++ encodeBlockNumber number ++ hash.bytes

def blockReceiptsKey (number : UInt64) (hash : Hash) : Bytes :=
  blockReceiptsPrefix ++ encodeBlockNumber number ++ hash.bytes

def txLookupKey (hash : Hash) : Bytes := txLookupPrefix ++ hash.bytes

/-- The entries of all tables. -/
inductive Key where
  | canonicalHash (number : UInt64)
  | headHeaderHash
  | headBlockHash
  | headFastBlockHash
  | headerNumber (hash : Hash)
  | header (number : UInt64) (hash : Hash)
  | body (number : UInt64) (hash : Hash)
  | td (number : UInt64) (hash : Hash)
  | receipts (number : UInt64) (hash : Hash)
  | txLookup (hash : Hash)
  deriving DecidableEq

/-- The key of the store that an entry is kept under. -/
def Key.bytes : Key → Bytes
  | .canonicalHash number => headerHashKey number
  | .headHeaderHash => headHeaderKey
  | .headBlockHash => headBlockKey
  | .headFastBlockHash => headFastBlockKey
  | .headerNumber hash => headerNumberKey hash
  | .header number hash => headerKey number hash
  | .body number hash => blockBodyKey number hash
  | .td number hash => headerTDKey number hash
  | .receipts number hash => blockReceiptsKey number hash
  | .txLookup hash => txLookupKey hash

theorem length_encodeBlockNumber (number : UInt64) :
    (encodeBlockNumber number).length = 8 := by
  rw [encodeBlockNumber, List.length_map, List.length_range]

/-- Reading the bytes from the left, the number is shifted in. -/
theorem setBytes_bigEndian (n w : ℕ) :
    setBytes ((List.range w).map (fun i => UInt8.ofNat (n / 256 ^ (w - 1 - i))))
      = n % 256 ^ w := by
  induction w generalizing n with
  | zero => simp [setBytes, Nat.mod_one]
  | succ w ih =>
      have hhigh : (List.range w).map
          (fun i => UInt8.ofNat (n / 256 ^ (w + 1 - 1 - i))) =
          (List.range w).map
            (fun i => UInt8.ofNat (n / 256 / 256 ^ (w - 1 - i))) := by
        refine List.map_congr_left fun i hi => ?_
        have hi := List.mem_range.mp hi
        rw [Nat.div_div_eq_div_mul, ← pow_succ',
          show w + 1 - 1 - i = w - 1 - i + 1 by omega]
      have hlast : UInt8.toNat (UInt8.ofNat (n / 256 ^ (w + 1 - 1 - w))) =
          n % 256 := by
        simp
      rw [List.range_succ, List.map_append, hhigh]
      show setBytes (_ ++ [_]) = _
      rw [setBytes, List.foldl_append]
      show setBytes _ * 256 + UInt8.toNat _ = _
      rw [ih, hlast, pow_succ', Nat.mod_mul]
      ring

/-- Eight bytes give the number back. -/
theorem decode_encodeBlockNumber (number : UInt64) :
    decodeBlockNumber (encodeBlockNumber number) = number := by
  have hset : setBytes (encodeBlockNumber number) = number.toNat := by
    rw [encodeBlockNumber, setBytes_bigEndian _ 8]
    exact Nat.mod_eq_of_lt number.toNat_lt
  rw [decodeBlockNumber, hset, UInt64.ofNat_toNat]

theorem encodeBlockNumber_inj {n n' : UInt64}
    (h : encodeBlockNumber n = encodeBlockNumber n') : n = n' := by
  rw [← decode_encodeBlockNumber n, h, decode_encodeBlockNumber]

/-- A hash is its bytes. -/
theorem Hash.eq_of_bytes {h h' : Hash} (heq : h.bytes = h'.bytes) : h = h' := by
  obtain ⟨bs, hbs⟩ := h
  obtain ⟨bs', hbs'⟩ := h'
  obtain rfl : bs = bs' := heq
  rfl

/-- The first byte of a key and its length: no two tables have the same. -/
def Key.shape : Key → UInt8 × ℕ
  | .canonicalHash _ => (104, 10)
  | .headHeaderHash => (76, 10)
  | .headBlockHash => (76, 9)
  | .headFastBlockHash => (76, 8)
  | .headerNumber _ => (72, 33)
  | .header _ _ => (104, 41)
  | .body _ _ => (98, 41)
  | .td _ _ => (104, 42)
  | .receipts _ _ => (114, 41)
  | .txLookup _ => (108, 33)

/-- The first byte and the length of each kind of key. -/
theorem shape_bytes (k : Key) :
    k.bytes.head? = some k.shape.1 ∧ k.bytes.length = k.shape.2 := by
  cases k <;>
    simp [Key.bytes, Key.shape, headerHashKey, headHeaderKey, headBlockKey,
      headFastBlockKey, headerNumberKey, headerKey, blockBodyKey, headerTDKey,
      blockReceiptsKey, txLookupKey, headerPrefix, headerTDSuffix,
      headerHashSuffix, headerNumberPrefix, blockBodyPrefix,
      blockReceiptsPrefix, txLookupPrefix, ascii, length_encodeBlockNumber,
      Hash.length_eq]

/-- A number and a hash behind a prefix. -/
theorem number_hash_inj {start : Bytes} {n n' : UInt64} {h h' : Hash}
    (heq : start ++ encodeBlockNumber n ++ h.bytes =
      start ++ encodeBlockNumber n' ++ h'.bytes) : n = n' ∧ h = h' := by
  rw [List.append_assoc, List.append_assoc] at heq
  obtain ⟨hn, hh⟩ := List.append_inj (List.append_cancel_left heq)
    ((length_encodeBlockNumber n).trans (length_encodeBlockNumber n').symm)
  exact ⟨encodeBlockNumber_inj hn, Hash.eq_of_bytes hh⟩

/-- **THE KEYS DIFFER**: an entry is determined by its key in the store. -/
theorem Key.bytes_inj : Function.Injective Key.bytes := by
  intro k k' heq
  have hshape : k.shape = k'.shape := by
    obtain ⟨hhead, hlen⟩ := shape_bytes k
    obtain ⟨hhead', hlen'⟩ := shape_bytes k'
    rw [heq] at hhead hlen
    exact Prod.ext (Option.some.inj (hhead.symm.trans hhead'))
      (hlen.symm.trans hlen')
  -- equal shapes are of one table, so the arguments are left to compare
  cases k with
  | canonicalHash n =>
      cases k' with
      | canonicalHash n' =>
          have hn := List.append_cancel_left (List.append_cancel_right heq)
          rw [encodeBlockNumber_inj hn]
      | _ => simp [Key.shape] at hshape
  | headHeaderHash =>
      cases k' with
      | headHeaderHash => rfl
      | _ => simp [Key.shape] at hshape
  | headBlockHash =>
      cases k' with
      | headBlockHash => rfl
      | _ => simp [Key.shape] at hshape
  | headFastBlockHash =>
      cases k' with
      | headFastBlockHash => rfl
      | _ => simp [Key.shape] at hshape
  | headerNumber h =>
      cases k' with
      | headerNumber h' =>
          rw [Hash.eq_of_bytes (List.append_cancel_left heq)]
      | _ => simp [Key.shape] at hshape
  | header n h =>
      cases k' with
      | header n' h' =>
          obtain ⟨rfl, rfl⟩ := number_hash_inj heq
          rfl
      | _ => simp [Key.shape] at hshape
  | body n h =>
      cases k' with
      | body n' h' =>
          obtain ⟨rfl, rfl⟩ := number_hash_inj heq
          rfl
      | _ => simp [Key.shape] at hshape
  | td n h =>
      cases k' with
      | td n' h' =>
          obtain ⟨rfl, rfl⟩ := number_hash_inj (List.append_cancel_right heq)
          rfl
      | _ => simp [Key.shape] at hshape
  | receipts n h =>
      cases k' with
      | receipts n' h' =>
          obtain ⟨rfl, rfl⟩ := number_hash_inj heq
          rfl
      | _ => simp [Key.shape] at hshape
  | txLookup h =>
      cases k' with
      | txLookup h' =>
          rw [Hash.eq_of_bytes (List.append_cancel_left heq)]
      | _ => simp [Key.shape] at hshape

/-! ## Values -/

/-- `chain.Epoch`. -/
structure Epoch where
  number : ℤ
  sign : Bytes
  leader : Bytes
  deriving DecidableEq

/-- `headerFields` of `chain.Header`. -/
structure Header where
  parentHash : Hash
  root : Hash
  number : UInt64
  time : UInt64
  epoch : Epoch
  lastCommitSignature : Bytes
  lastCommitBitmap : Bytes
  deriving DecidableEq

/-- `chain.Block`, with its `ChanId`. -/
structure Block (E : Type) extends RelayerMerkle.Block Header E where
  chanId : ℤ

/-- `TxLookupEntry`; `Index` is an index of a slice. -/
structure TxLookupEntry where
  blockHash : Hash
  blockIndex : UInt64
  index : ℕ
  deriving DecidableEq

/-- `common.Hash{}`. -/
def zeroHash : Hash := ⟨List.replicate 32 0, List.length_replicate⟩

/-- What rlp sees of a block: like gob it skips the fields of a transaction
    that are not exported. -/
structure BlockFields (E : Type) where
  number : UInt64
  hash : Hash
  transactions : List (List (RelayerTransaction.Field E))
  signature : Bytes
  leader : Bytes
  chanId : ℤ
  header : Header

/-- The rlp package: an encoder fails on what rlp has no form for, such as a
    negative number. -/
structure Rlp (E : Type) where
  encodeBlock : BlockFields E → Option Bytes
  decodeBlock : Bytes → Option (BlockFields E)
  encodeHeader : Header → Option Bytes
  decodeHeader : Bytes → Option Header
  encodeInt : ℤ → Option Bytes
  decodeInt : Bytes → Option ℤ
  encodeEntry : TxLookupEntry → Bytes
  decodeEntry : Bytes → Option TxLookupEntry

/-- Rlp decodes what it encoded, and encodes nothing as no bytes.  Of a
    `types.Log` it leaves `TxHash`, `BlockNumber` and `Index` out, so that this
    is about events whose raw logs have none of them. -/
structure Rlp.Faithful {E : Type} (rlp : Rlp E) : Prop where
  block : ∀ {b data}, rlp.encodeBlock b = some data →
    data ≠ [] ∧ rlp.decodeBlock data = some b
  header : ∀ {h data}, rlp.encodeHeader h = some data →
    data ≠ [] ∧ rlp.decodeHeader data = some h
  int : ∀ {z data}, rlp.encodeInt z = some data →
    data ≠ [] ∧ rlp.decodeInt data = some z
  entry : ∀ e, rlp.encodeEntry e ≠ [] ∧
    rlp.decodeEntry (rlp.encodeEntry e) = some e

/-- The fields of a block that are encoded. -/
def Block.fields {E : Type} (b : Block E) : BlockFields E where
  number := b.number
  hash := b.hash
  transactions := b.transactions.map Transaction.exported
  signature := b.signature
  leader := b.leader
  chanId := b.chanId
  header := b.header

/-- A block decoded into zero values; `zero` is the zero event. -/
def BlockFields.assign {E : Type} (zero : E) (f : BlockFields E) : Block E where
  number := f.number
  hash := f.hash
  transactions :=
    f.transactions.map (List.foldl Transaction.assign ⟨0, zero, 0⟩)
  signature := f.signature
  leader := f.leader
  header := f.header
  chanId := f.chanId

/-- A transaction without its nonce and chain id. -/
def bare {E : Type} (tx : Transaction E) : Transaction E := ⟨0, tx.originData, 0⟩

/-- What is left of a block: its transactions are without nonce and chain
    id. -/
def Block.bare {E : Type} (b : Block E) : Block E :=
  { b with transactions := b.transactions.map RelayerRawdb.bare }

/-- The fields assigned by the decoder give the block without its nonces. -/
theorem assign_fields {E : Type} (zero : E) (b : Block E) :
    b.fields.assign zero = b.bare := by
  have htx : ∀ tx : Transaction E,
      tx.exported.foldl Transaction.assign ⟨0, zero, 0⟩ = bare tx := by
    intro tx
    rw [exported_eq]
    rfl
  simp only [Block.fields, BlockFields.assign, Block.bare, List.map_map,
    Function.comp_def, htx]

/-! ## Accessors -/

/-- How a call ends the process. -/
inductive Abort where
  | panic (err : Err)
  | fatal (text : String)
  | indexOutOfRange (i len : ℕ)
  deriving DecidableEq, Repr

section Accessors

variable {E : Type} (gob : Gob E) (rlp : Rlp E) (db : Store)

/-- `data, _ := db.Get(key)`. -/
def getData (key : Bytes) : Bytes := (Store.get db key none).1.getD []

/-- The accessors that read a hash. -/
def readHash (key : Bytes) : Hash :=
  if (getData db key).length = 0 then zeroHash else bytesToHash (getData db key)

def readCanonicalHash (number : UInt64) : Hash :=
  readHash db (headerHashKey number)

def writeCanonicalHash (hash : Hash) (number : UInt64) : Store :=
  Maps.set db (headerHashKey number) hash.bytes

def deleteCanonicalHash (number : UInt64) : Store :=
  Maps.delete db (headerHashKey number)

def readHeaderNumber (hash : Hash) : Option UInt64 :=
  if (getData db (headerNumberKey hash)).length ≠ 8 then none
  else some (decodeBlockNumber (getData db (headerNumberKey hash)))

def readHeadHeaderHash : Hash := readHash db headHeaderKey

def writeHeadHeaderHash (hash : Hash) : Store :=
  Maps.set db headHeaderKey hash.bytes

def readHeadBlockHash : Hash := readHash db headBlockKey

def writeHeadBlockHash (hash : Hash) : Store :=
  Maps.set db headBlockKey hash.bytes

def readHeadFastBlockHash : Hash := readHash db headFastBlockKey

def writeHeadFastBlockHash (hash : Hash) : Store :=
  Maps.set db headFastBlockKey hash.bytes

def readHeaderRLP (hash : Hash) (number : UInt64) : Bytes :=
  getData db (headerKey number hash)

/-- The accessors that decode what they read; bytes that do not decode are
    logged and count as absent. -/
def readDecoded {α : Type} (decode : Bytes → Option α) (data : Bytes) :
    Option α :=
  if data.length = 0 then none else decode data

def readHeader (hash : Hash) (number : UInt64) : Option Header :=
  readDecoded rlp.decodeHeader (readHeaderRLP db hash number)

/-- `WriteHeader`: under the parent hash; a header that can not be encoded is
    logged, and no bytes are stored for it. -/
def writeHeader (header : Header) : Store :=
  let db := Maps.set db (headerNumberKey header.parentHash)
    (encodeBlockNumber header.number)
  Maps.set db (headerKey header.number header.parentHash)
    ((rlp.encodeHeader header).getD [])

def deleteHeader (hash : Hash) (number : UInt64) : Store :=
  Maps.delete (Maps.delete db (headerKey number hash)) (headerNumberKey hash)

/-- `ReadBodyRLP`: the error of `Get` is a panic. -/
def readBodyRLP (hash : Hash) (number : UInt64) : Except Abort Bytes :=
  match Store.get db (blockBodyKey number hash) none with
  | (_, some err) => .error (.panic err)
  | (data, none) => .ok (data.getD [])

/-- `ReadBlock`: what is not there or does not decode ends the process. -/
def readBlock (zero : E) (hash : Hash) (number : UInt64) :
    Except Abort (Block E) := do
  let data ← readBodyRLP db hash number
  if data.length = 0 then .error (.fatal "[]")
  else
    match rlp.decodeBlock data with
    | none => .error (.fatal "Invalid block body RLP")
    | some fields => .ok (fields.assign zero)

def writeBodyRLP (hash : Hash) (number : UInt64) (data : Bytes) : Store :=
  Maps.set db (blockBodyKey number hash) data

def writeBodyBytes (hash : Hash) (number : UInt64) (data : Bytes) : Store :=
  writeBodyRLP db hash number data

/-- `WriteBlock`: a block that can not be encoded ends the process. -/
def writeBlock (hash : Hash) (number : UInt64) (block : Block E) :
    Except Abort Store :=
  match rlp.encodeBlock block.fields with
  | none => .error (.fatal "Failed to RLP encode body")
  | some data => .ok (writeBodyRLP db hash number data)

def deleteBody (hash : Hash) (number : UInt64) : Store :=
  Maps.delete db (blockBodyKey number hash)

def readTd (hash : Hash) (number : UInt64) : Option ℤ :=
  readDecoded rlp.decodeInt (getData db (headerTDKey number hash))

/-- `WriteTd`: no bytes are stored for a number that can not be encoded. -/
def writeTd (hash : Hash) (number : UInt64) (td : ℤ) : Store :=
  Maps.set db (headerTDKey number hash) ((rlp.encodeInt td).getD [])

def deleteTd (hash : Hash) (number : UInt64) : Store :=
  Maps.delete db (headerTDKey number hash)

def deleteReceipts (hash : Hash) (number : UInt64) : Store :=
  Maps.delete db (blockReceiptsKey number hash)

/-- The entry of the `i`-th transaction of a block. -/
def Block.entryAt (block : Block E) (i : ℕ) : TxLookupEntry :=
  ⟨block.hash, block.number, i⟩

/-- `WriteTxLookupEntries`. -/
def writeTxLookupEntries (block : Block E) : Store :=
  block.transactions.zipIdx.foldl
    (fun db p => Maps.set db (txLookupKey (p.1.hash gob))
      (rlp.encodeEntry (block.entryAt p.2))) db

/-- `ReadTxLookupEntry`; the zero entry stands for an absent one. -/
def readTxLookupEntry (hash : Hash) : TxLookupEntry :=
  (readDecoded rlp.decodeEntry (getData db (txLookupKey hash))).getD
    ⟨zeroHash, 0, 0⟩

/-- `HasHeader` and `HasBody`, on the `Has` of the store. -/
def hasKey (has : Bytes → Bool × Option Err) (key : Bytes) : Bool :=
  !(!(has key).1 || (has key).2.isSome)

def hasHeader (has : Bytes → Bool × Option Err) (hash : Hash)
    (number : UInt64) : Bool :=
  hasKey has (headerKey number hash)

def hasBody (has : Bytes → Bool × Option Err) (hash : Hash)
    (number : UInt64) : Bool :=
  hasKey has (blockBodyKey number hash)

end Accessors

/-! ## The accessors that write, as changes of entries -/

/-- The calls that change the store. -/
inductive Op (E : Type) where
  | writeCanonicalHash (hash : Hash) (number : UInt64)
  | deleteCanonicalHash (number : UInt64)
  | writeHeadHeaderHash (hash : Hash)
  | writeHeadBlockHash (hash : Hash)
  | writeHeadFastBlockHash (hash : Hash)
  | writeHeader (header : Header)
  | deleteHeader (hash : Hash) (number : UInt64)
  | writeBodyRLP (hash : Hash) (number : UInt64) (data : Bytes)
  | writeBodyBytes (hash : Hash) (number : UInt64) (data : Bytes)
  | writeBlock (hash : Hash) (number : UInt64) (block : Block E)
  | deleteBody (hash : Hash) (number : UInt64)
  | writeTd (hash : Hash) (number : UInt64) (td : ℤ)
  | deleteTd (hash : Hash) (number : UInt64)
  | deleteReceipts (hash : Hash) (number : UInt64)
  | writeTxLookupEntries (block : Block E)

/-- The values of an entry.  Nothing writes receipts. -/
def Key.Value : Key → Type
  | .canonicalHash _ | .headHeaderHash | .headBlockHash
  | .headFastBlockHash => Hash
  | .headerNumber _ => UInt64
  | .header _ _ => Header
  | .body _ _ => Bytes
  | .td _ _ => ℤ
  | .receipts _ _ => Bytes
  | .txLookup _ => TxLookupEntry

section Refinement

variable {E : Type} (gob : Gob E) (rlp : Rlp E)

/-- One call. -/
def applyOp (db : Store) : Op E → Except Abort Store
  | .writeCanonicalHash hash number =>
      .ok (writeCanonicalHash db hash number)
  | .deleteCanonicalHash number => .ok (deleteCanonicalHash db number)
  | .writeHeadHeaderHash hash => .ok (writeHeadHeaderHash db hash)
  | .writeHeadBlockHash hash => .ok (writeHeadBlockHash db hash)
  | .writeHeadFastBlockHash hash => .ok (writeHeadFastBlockHash db hash)
  | .writeHeader header => .ok (writeHeader rlp db header)
  | .deleteHeader hash number => .ok (deleteHeader db hash number)
  | .writeBodyRLP hash number data => .ok (writeBodyRLP db hash number data)
  | .writeBodyBytes hash number data =>
      .ok (writeBodyBytes db hash number data)
  | .writeBlock hash number block => writeBlock rlp db hash number block
  | .deleteBody hash number => .ok (deleteBody db hash number)
  | .writeTd hash number td => .ok (writeTd rlp db hash number td)
  | .deleteTd hash number => .ok (deleteTd db hash number)
  | .deleteReceipts hash number => .ok (deleteReceipts db hash number)
  | .writeTxLookupEntries block =>
      .ok (writeTxLookupEntries gob rlp db block)

/-- Calls one after another. -/
def runOps (db : Store) (ops : List (Op E)) : Except Abort Store :=
  ops.foldlM (applyOp gob rlp) db

/-- How values are written in the store. -/
def encodeValue : (k : Key) → k.Value → Bytes
  | .canonicalHash _, hash | .headHeaderHash, hash | .headBlockHash, hash
  | .headFastBlockHash, hash => Hash.bytes hash
  | .headerNumber _, number => encodeBlockNumber number
  | .header _ _, header => (rlp.encodeHeader header).getD []
  | .body _ _, data => data
  | .td _ _, td => (rlp.encodeInt td).getD []
  | .receipts _ _, data => data
  | .txLookup _, entry => rlp.encodeEntry entry

/-- The tables of a chain in one store. -/
def schema : Schema Key.Value Bytes Bytes where
  key := Key.bytes
  key_inj := Key.bytes_inj
  encode := encodeValue rlp

/-- The entries that a call changes, as the tables see them. -/
def Op.changes : Op E → List (Change Key.Value)
  | .writeCanonicalHash hash number => [⟨.canonicalHash number, some hash⟩]
  | .deleteCanonicalHash number => [⟨.canonicalHash number, none⟩]
  | .writeHeadHeaderHash hash => [⟨.headHeaderHash, some hash⟩]
  | .writeHeadBlockHash hash => [⟨.headBlockHash, some hash⟩]
  | .writeHeadFastBlockHash hash => [⟨.headFastBlockHash, some hash⟩]
  | .writeHeader header =>
      [⟨.headerNumber header.parentHash, some header.number⟩,
        ⟨.header header.number header.parentHash, some header⟩]
  | .deleteHeader hash number =>
      [⟨.header number hash, none⟩, ⟨.headerNumber hash, none⟩]
  | .writeBodyRLP hash number data => [⟨.body number hash, some data⟩]
  | .writeBodyBytes hash number data => [⟨.body number hash, some data⟩]
  | .writeBlock hash number block =>
      [⟨.body number hash, some ((rlp.encodeBlock block.fields).getD [])⟩]
  | .deleteBody hash number => [⟨.body number hash, none⟩]
  | .writeTd hash number td => [⟨.td number hash, some td⟩]
  | .deleteTd hash number => [⟨.td number hash, none⟩]
  | .deleteReceipts hash number => [⟨.receipts number hash, none⟩]
  | .writeTxLookupEntries block =>
      block.transactions.zipIdx.map
        (fun p => ⟨.txLookup (p.1.hash gob), some (block.entryAt p.2)⟩)

/-- Rlp has a form for what the call writes. -/
def Op.Encodable : Op E → Prop
  | .writeHeader header => (rlp.encodeHeader header).isSome
  | .writeBlock _ _ block => (rlp.encodeBlock block.fields).isSome
  | .writeTd _ _ td => (rlp.encodeInt td).isSome
  | _ => True

/-- **EVERY CALL IS SOME CHANGES OF ENTRIES**. -/
theorem applyOp_eq (db : Store) {op : Op E} (h : op.Encodable rlp) :
    applyOp gob rlp db op =
      .ok ((schema rlp).writeAll db (op.changes gob rlp)) := by
  cases op with
  | writeBlock hash number block =>
      obtain ⟨data, hdata⟩ := Option.isSome_iff_exists.mp h
      rw [applyOp, writeBlock, Op.changes, hdata]
      rfl
  | writeTxLookupEntries block =>
      rw [applyOp, writeTxLookupEntries, Op.changes, Schema.writeAll,
        List.foldl_map]
      rfl
  | _ => rfl

/-- The tables after some calls on an empty store. -/
def tablesAfter (ops : List (Op E)) : (k : Key) → Option k.Value :=
  fun k => (lastChange (ops.flatMap (Op.changes gob rlp)) k).join

/-- The store holds the tables, whatever was called. -/
theorem holds_run {ops : List (Op E)} (h : ∀ op ∈ ops, op.Encodable rlp) :
    ∃ db, runOps gob rlp (fun _ => none) ops = .ok db ∧
      (schema rlp).Holds db (tablesAfter gob rlp ops) := by
  have hrun : ∀ db, runOps gob rlp db ops = .ok ((schema rlp).writeAll db
      (ops.flatMap (Op.changes gob rlp))) := by
    induction ops with
    | nil => intro db; rfl
    | cons op ops ih =>
        intro db
        rw [runOps, List.foldlM_cons,
          applyOp_eq gob rlp db (h op List.mem_cons_self), List.flatMap_cons,
          writeAll_append]
        exact ih (fun o ho => h o (List.mem_cons_of_mem _ ho)) _
  refine ⟨_, hrun _, ?_⟩
  have hheld := (holds_empty (schema rlp)).writeAll
    (ops.flatMap (Op.changes gob rlp))
  intro k
  rw [hheld k, changeAll_eq, tablesAfter]
  cases lastChange (ops.flatMap (Op.changes gob rlp)) k with
  | none => rfl
  | some v => rfl

end Refinement

/-! ## The accessors that read -/

/-- An entry of the store as `Get` finds it, an absent one being a panic. -/
def orPanic {α : Type} : Option α → Except Abort α
  | some a => .ok a
  | none => .error (.panic .keyNotFound)

/-- What the accessors read from a store that keeps the tables `t`.  An absent
    hash is the zero hash, an absent lookup entry the zero entry and an absent
    number or header is nil, but the body of a block has to be there. -/
structure Reads {E : Type} (rlp : Rlp E) (zero : E) (db : Store)
    (t : (k : Key) → Option k.Value) : Prop where
  canonicalHash : ∀ number, readCanonicalHash db number =
    (t (.canonicalHash number) : Option Hash).getD zeroHash
  headHeaderHash : readHeadHeaderHash db =
    (t .headHeaderHash : Option Hash).getD zeroHash
  headBlockHash : readHeadBlockHash db =
    (t .headBlockHash : Option Hash).getD zeroHash
  headFastBlockHash : readHeadFastBlockHash db =
    (t .headFastBlockHash : Option Hash).getD zeroHash
  headerNumber : ∀ hash, readHeaderNumber db hash = t (.headerNumber hash)
  headerRLP : ∀ hash number, readHeaderRLP db hash number =
    ((t (.header number hash) : Option Header).bind rlp.encodeHeader).getD []
  header : ∀ hash number,
    readHeader rlp db hash number = t (.header number hash)
  td : ∀ hash number, readTd rlp db hash number = t (.td number hash)
  txLookupEntry : ∀ hash, readTxLookupEntry rlp db hash =
    (t (.txLookup hash) : Option TxLookupEntry).getD ⟨zeroHash, 0, 0⟩
  bodyRLP : ∀ hash number, readBodyRLP db hash number =
    orPanic (t (.body number hash) : Option Bytes)
  block : ∀ hash number (b : Block E) (data : Bytes),
    rlp.encodeBlock b.fields = some data →
    t (.body number hash) = some data →
    readBlock rlp db zero hash number = .ok b.bare
  noBlock : ∀ hash number, t (.body number hash) = none →
    readBlock rlp db zero hash number = .error (.panic .keyNotFound)

section Reading

variable {E : Type} {gob : Gob E} {rlp : Rlp E} {db : Store}
  {t : (k : Key) → Option k.Value}

/-- What `Get` finds under the key of an entry. -/
theorem getData_eq (h : (schema rlp).Holds db t) (k : Key) :
    getData db k.bytes = ((t k).map (encodeValue rlp k)).getD [] := by
  have hk : db k.bytes = (t k).map (encodeValue rlp k) := h k
  rw [getData, Store.get, hk]
  cases t k with
  | none => rfl
  | some v => rfl

/-- A hash is read back, and no hash as the zero hash. -/
theorem readHash_eq {key : Bytes} {stored : Option Hash}
    (h : getData db key = (stored.map Hash.bytes).getD []) :
    readHash db key = stored.getD zeroHash := by
  rw [readHash, h]
  cases stored with
  | none => rfl
  | some hash =>
      have hlen := hash.length_eq
      rw [Option.map_some, Option.getD_some, if_neg (by omega),
        Option.getD_some]
      exact Hash.eq_of_bytes (bytes_bytesToHash hlen)

/-- A value is read back where it was encoded. -/
theorem readDecoded_eq {α : Type} (encode : α → Option Bytes)
    {decode : Bytes → Option α} {data : Bytes} {stored : Option α}
    (hrlp : ∀ {a data}, encode a = some data → data ≠ [] ∧ decode data = some a)
    (hstored : ∀ a, stored = some a → (encode a).isSome)
    (h : data = (stored.map (fun a => (encode a).getD [])).getD []) :
    readDecoded decode data = stored := by
  subst h
  cases stored with
  | none => rfl
  | some a =>
      obtain ⟨data, hdata⟩ := Option.isSome_iff_exists.mp (hstored a rfl)
      obtain ⟨hne, hdecode⟩ := hrlp hdata
      rw [Option.map_some, Option.getD_some, hdata, Option.getD_some,
        readDecoded, if_neg (fun h => hne (List.length_eq_zero_iff.mp h)),
        hdecode]

/-- The bytes of a body that is stored, or a panic. -/
theorem readBodyRLP_eq (h : (schema rlp).Holds db t) (hash : Hash)
    (number : UInt64) : readBodyRLP db hash number =
      orPanic (t (.body number hash) : Option Bytes) := by
  have hk : db (blockBodyKey number hash) = _ := h (.body number hash)
  rw [readBodyRLP, Store.get, hk]
  cases t (.body number hash) with
  | none => rfl
  | some data => rfl

/-- The values of the tables have a form in rlp. -/
structure Stored (rlp : Rlp E) (t : (k : Key) → Option k.Value) : Prop where
  header : ∀ number hash (v : Header), t (.header number hash) = some v →
    (rlp.encodeHeader v).isSome
  td : ∀ number hash (v : ℤ), t (.td number hash) = some v →
    (rlp.encodeInt v).isSome

/-- **READING THE TABLES BACK**. -/
theorem reads_of_holds (hrlp : rlp.Faithful) (zero : E)
    (h : (schema rlp).Holds db t) (hstored : Stored rlp t) :
    Reads rlp zero db t where
  canonicalHash number := readHash_eq (getData_eq h (.canonicalHash number))
  headHeaderHash := readHash_eq (getData_eq h .headHeaderHash)
  headBlockHash := readHash_eq (getData_eq h .headBlockHash)
  headFastBlockHash := readHash_eq (getData_eq h .headFastBlockHash)
  headerNumber hash := by
    have hdata : getData db (headerNumberKey hash) = _ :=
      getData_eq h (.headerNumber hash)
    rw [readHeaderNumber, hdata]
    cases t (.headerNumber hash) with
    | none => rfl
    | some number =>
        have hlen : ¬ (encodeBlockNumber number).length ≠ 8 :=
          fun hne => hne (length_encodeBlockNumber number)
        exact (if_neg hlen).trans
          (congrArg some (decode_encodeBlockNumber number))
  headerRLP hash number := by
    have hdata : getData db (headerKey number hash) = _ :=
      getData_eq h (.header number hash)
    rw [readHeaderRLP, hdata]
    cases t (.header number hash) with
    | none => rfl
    | some v => rfl
  header hash number :=
    readDecoded_eq rlp.encodeHeader hrlp.header (hstored.header number hash)
      (getData_eq h (.header number hash))
  td hash number :=
    readDecoded_eq rlp.encodeInt hrlp.int (hstored.td number hash)
      (getData_eq h (.td number hash))
  txLookupEntry hash := by
    have hentry : ∀ {e : TxLookupEntry} {data : Bytes},
        some (rlp.encodeEntry e) = some data →
        data ≠ [] ∧ rlp.decodeEntry data = some e := by
      intro e data he
      cases he
      exact hrlp.entry e
    have hread : readDecoded rlp.decodeEntry (getData db (txLookupKey hash)) =
        t (.txLookup hash) :=
      readDecoded_eq (fun e => some (rlp.encodeEntry e)) hentry
        (fun _ _ => rfl) (getData_eq h (.txLookup hash))
    rw [readTxLookupEntry, hread]
    rfl
  bodyRLP := readBodyRLP_eq h
  -- a block is read through its fields: what is not exported is lost
  block hash number b data hdata hbody := by
    obtain ⟨hne, hdecode⟩ := hrlp.block hdata
    have hread : readBodyRLP db hash number = .ok data := by
      rw [readBodyRLP_eq h, hbody]
      rfl
    rw [readBlock, hread, ← assign_fields zero b]
    show (if data.length = 0 then _ else _) = _
    rw [if_neg (fun hlen => hne (List.length_eq_zero_iff.mp hlen)), hdecode]
  noBlock hash number hbody := by
    have hread : readBodyRLP db hash number = .error (.panic .keyNotFound) := by
      rw [readBodyRLP_eq h, hbody]
      rfl
    rw [readBlock, hread]
    rfl

/-- Headers and difficulties are written by calls that encode them. -/
theorem encodable_of_mem {op : Op E} (h : op.Encodable rlp) :
    (∀ number hash (v : Header),
      ⟨.header number hash, some v⟩ ∈ op.changes gob rlp →
      (rlp.encodeHeader v).isSome) ∧
    ∀ number hash (v : ℤ), ⟨.td number hash, some v⟩ ∈ op.changes gob rlp →
      (rlp.encodeInt v).isSome := by
  cases op with
  | writeHeader header =>
      constructor
      · intro number hash v hmem
        simp only [Op.changes, List.mem_cons, List.not_mem_nil, or_false]
          at hmem
        rcases hmem with hmem | hmem
        · cases hmem
        · cases hmem
          exact h
      · intro number hash v hmem
        simp [Op.changes] at hmem
  | writeTd hash number td =>
      constructor
      · intro number hash v hmem
        simp [Op.changes] at hmem
      · intro number hash v hmem
        cases List.mem_singleton.mp hmem
        exact h
  | deleteTd hash number =>
      constructor
      · intro number hash v hmem
        simp [Op.changes] at hmem
      · intro number hash v hmem
        cases List.mem_singleton.mp hmem
  | deleteHeader hash number =>
      constructor
      · intro number hash v hmem
        rcases List.mem_cons.mp hmem with hmem | hmem
        · cases hmem
        · cases List.mem_singleton.mp hmem
      · intro number hash v hmem
        simp [Op.changes] at hmem
  | _ =>
      constructor
      · intro number hash v hmem
        simp [Op.changes] at hmem
      · intro number hash v hmem
        simp [Op.changes] at hmem

/-- What is in the tables was written by some call. -/
theorem stored_tablesAfter {ops : List (Op E)}
    (h : ∀ op ∈ ops, op.Encodable rlp) :
    Stored rlp (tablesAfter gob rlp ops) := by
  have hwritten : ∀ {k : Key} {v : k.Value},
      tablesAfter gob rlp ops k = some v →
      ∃ op ∈ ops, ⟨k, some v⟩ ∈ op.changes gob rlp := by
    intro k v hv
    exact List.mem_flatMap.mp (mem_of_lastChange (Option.join_eq_some_iff.mp hv))
  constructor
  · intro number hash v hv
    obtain ⟨op, hop, hmem⟩ := hwritten hv
    exact (encodable_of_mem (h op hop)).1 number hash v hmem
  · intro number hash v hv
    obtain ⟨op, hop, hmem⟩ := hwritten hv
    exact (encodable_of_mem (h op hop)).2 number hash v hmem

/-- **SEPARATE TYPED TABLES**: after any calls on an empty store that rlp has a
    form for, every accessor that reads returns what the last call that changed
    its entry has made of it, or reports it absent; for the body of a block,
    `ReadBodyRLP` and `ReadBlock` panic where it is absent. -/
theorem tables_refined (gob : Gob E) (hrlp : rlp.Faithful) (zero : E)
    (ops : List (Op E)) (h : ∀ op ∈ ops, op.Encodable rlp) :
    ∃ db, runOps gob rlp (fun _ => none) ops = .ok db ∧
      Reads rlp zero db (tablesAfter gob rlp ops) := by
  obtain ⟨db, hrun, hholds⟩ := holds_run gob rlp h
  exact ⟨db, hrun, reads_of_holds hrlp zero hholds (stored_tablesAfter h)⟩

end Reading

/-! ### A small rlp -/

deriving instance DecidableEq for RelayerTransaction.Field
deriving instance DecidableEq for BlockFields

/-- An item of a list as its position. -/
def encodeItem {α : Type} [DecidableEq α] (items : List α) (a : α) :
    Option Bytes :=
  (items.idxOf? a).map (fun i => 1 :: bytes i)

def decodeItem {α : Type} (items : List α) : Bytes → Option α
  | [] => none
  | _ :: bs => items[setBytes bs]?

/-- An item of the list is read back from its place in it. -/
theorem decode_encodeItem {α : Type} [DecidableEq α] {items : List α} {a : α}
    {data : Bytes} (h : encodeItem items a = some data) :
    data ≠ [] ∧ decodeItem items data = some a := by
  obtain ⟨i, hi, rfl⟩ := Option.map_eq_some_iff.mp h
  refine ⟨List.cons_ne_nil _ _, ?_⟩
  obtain ⟨hlt, ha, -⟩ := List.idxOf?_eq_some_iff.mp hi
  rw [decodeItem, setBytes_bytes, List.getElem?_eq_getElem hlt, ha]

/-- A coder that knows some blocks and headers, and all numbers and lookup
    entries. -/
def knownRlp (blocks : List (BlockFields UInt8)) (headers : List Header) :
    Rlp UInt8 where
  encodeBlock := encodeItem blocks
  decodeBlock := decodeItem blocks
  encodeHeader := encodeItem headers
  decodeHeader := decodeItem headers
  encodeInt z := if z < 0 then none else some (1 :: bytes z.toNat)
  decodeInt
    | [] => none
    | _ :: bs => some (setBytes bs : ℤ)
  encodeEntry e :=
    e.blockHash.bytes ++ (encodeBlockNumber e.blockIndex ++ bytes e.index)
  decodeEntry data := some ⟨bytesToHash (data.take 32),
    decodeBlockNumber ((data.drop 32).take 8), setBytes (data.drop 40)⟩

/-- The sample codec reads back what it writes. -/
theorem knownRlp_faithful (blocks : List (BlockFields UInt8))
    (headers : List Header) : (knownRlp blocks headers).Faithful where
  block := decode_encodeItem
  header := decode_encodeItem
  int := by
    intro z data h
    simp only [knownRlp] at h ⊢
    split at h
    · cases h
    · cases h
      refine ⟨List.cons_ne_nil _ _, ?_⟩
      dsimp only
      rw [setBytes_bytes]
      congr 1
      omega
  entry := by
    intro e
    have hlen := e.blockHash.length_eq
    have hnum := length_encodeBlockNumber e.blockIndex
    constructor
    · intro hnil
      have hzero := congrArg List.length hnil
      simp only [knownRlp, List.length_append, List.length_nil] at hzero
      omega
    · have htail : (e.blockHash.bytes ++ (encodeBlockNumber e.blockIndex ++
          bytes e.index)).drop 40 = bytes e.index := by
        rw [← List.append_assoc]
        exact List.drop_left' (by rw [List.length_append, hlen, hnum])
      simp only [knownRlp]
      rw [htail, List.take_left' hlen, List.drop_left' hlen,
        List.take_left' hnum, decode_encodeBlockNumber, setBytes_bytes,
        Hash.eq_of_bytes (bytes_bytesToHash hlen)]

/-- A header of block 3, and one that rlp has no form for. -/
def sampleHeader (epoch : ℤ) : Header where
  parentHash := zeroHash
  root := zeroHash
  number := 3
  time := 1111111111
  epoch := ⟨epoch, [], []⟩
  lastCommitSignature := List.replicate 96 0
  lastCommitBitmap := []

/-- A block of two one-byte events. -/
def sampleBlock : Block UInt8 where
  number := 1
  hash := bigToHash 5
  transactions := [newTransaction 7 0 0, newTransaction 8 0 0]
  signature := []
  leader := []
  header := sampleHeader 0
  chanId := 0

/-- A coder that knows them. -/
def sampleRlp : Rlp UInt8 := knownRlp [sampleBlock.fields] [sampleHeader 0]

/-- A header and its number, a difficulty that is deleted again, a block. -/
def sampleOps : List (Op UInt8) :=
  [.writeHeader (sampleHeader 0), .writeTd zeroHash 3 7,
    .writeBlock zeroHash 3 sampleBlock, .deleteTd zeroHash 3]

/-- A header, a difficulty written and deleted, and a block, read back. -/
theorem tables_refined_sample :
    ∃ db, runOps byteGob sampleRlp (fun _ => none) sampleOps = .ok db ∧
      readHeader sampleRlp db zeroHash 3 = some (sampleHeader 0) ∧
      readHeaderNumber db zeroHash = some 3 ∧
      readTd sampleRlp db zeroHash 3 = none ∧
      readBlock sampleRlp db 0 zeroHash 3 = .ok sampleBlock := by
  have henc : ∀ op ∈ sampleOps, op.Encodable sampleRlp := by
    intro op hop
    simp only [sampleOps, List.mem_cons, List.not_mem_nil, or_false] at hop
    rcases hop with rfl | rfl | rfl | rfl
    · rfl
    · rfl
    · rfl
    · trivial
  obtain ⟨db, hrun, hreads⟩ := tables_refined byteGob
    (knownRlp_faithful [sampleBlock.fields] [sampleHeader 0]) 0 sampleOps henc
  refine ⟨db, hrun, ?_, ?_, ?_, ?_⟩
  · rw [sampleRlp, hreads.header]
    rfl
  · rw [hreads.headerNumber]
    rfl
  · rw [sampleRlp, hreads.td]
    rfl
  · exact hreads.block zeroHash 3 sampleBlock _ rfl rfl

/-- **ABSENT BODIES END THE PROCESS**: where the tables have no body, because
    none was written or because it was deleted, `ReadBlock` panics; and of a
    negative difficulty nothing is left. -/
theorem absent_body_panics :
    readBlock sampleRlp (fun _ => none) 0 zeroHash 1 =
      .error (.panic .keyNotFound) ∧
    (∃ db, runOps byteGob sampleRlp (fun _ => none)
        [.writeBlock zeroHash 3 sampleBlock, .deleteBody zeroHash 3] = .ok db ∧
      readBodyRLP db zeroHash 3 = .error (.panic .keyNotFound)) ∧
    ∃ db, runOps byteGob sampleRlp (fun _ => none)
        [.writeTd zeroHash 3 7, .writeTd zeroHash 3 (-1)] = .ok db ∧
      readTd sampleRlp db zeroHash 3 = none := by
  refine ⟨rfl, ⟨_, rfl, ?_⟩, ⟨_, rfl, ?_⟩⟩
  · rw [readBodyRLP, Store.get, deleteBody, Maps.delete_self]
  · rw [readTd, getData, Store.get, writeTd, Maps.set_self]
    rfl

/-! ## Existence checks -/

/-- The last operation with an effect on the key has written it. -/
def IsStored (ops : List RelayerStore.Op) (key : Bytes) : Prop :=
  (lastEffect key ops).join ≠ none

/-- **EXISTENCE CHECKS**: after any operations on a `LevelDBStore`, `Has`
    agrees with `Get` exactly for the keys that are stored, and `HasHeader` and
    `HasBody` are right exactly about headers and bodies that were written and
    not deleted. -/
theorem has_truthful_iff (ops : List RelayerStore.Op) :
    (∀ key, (((Store.has (run ops) key).1 = true ↔
      (Store.get (run ops) key none).2 ≠ some .keyNotFound) ↔
        IsStored ops key)) ∧
    (∀ hash number, (hasHeader (Store.has (run ops)) hash number = true ↔
      IsStored ops (headerKey number hash)) ↔
        IsStored ops (headerKey number hash)) ∧
    ∀ hash number, (hasBody (Store.has (run ops)) hash number = true ↔
      IsStored ops (blockBodyKey number hash)) ↔
        IsStored ops (blockBodyKey number hash) := by
  have hget : ∀ key, (Store.get (run ops) key none).2 ≠ some .keyNotFound ↔
      IsStored ops key := by
    intro key
    rw [Store.get, run_eq_lastEffect, IsStored]
    cases (lastEffect key ops).join with
    | none => simp
    | some value => simp
  have hiff : ∀ p : Prop, ((true = true ↔ p) ↔ p) := by simp
  refine ⟨fun key => ?_, fun hash number => ?_, fun hash number => ?_⟩
  · rw [hget]
    exact hiff _
  · exact hiff _
  · exact hiff _

/-- **`Has` KNOWS NOTHING**: in a new store it reports a key that `Get` does
    not find, and there are headers and bodies that nobody wrote. -/
theorem has_untruthful :
    (Store.has (run []) [1]).1 = true ∧
    (Store.get (run []) [1] none).2 = some .keyNotFound ∧
    hasHeader (Store.has (run [])) zeroHash 1 = true ∧
    hasBody (Store.has (run [])) zeroHash 1 = true ∧
    run [] (headerKey 1 zeroHash) = none ∧
    run [] (blockBodyKey 1 zeroHash) = none :=
  ⟨rfl, rfl, rfl, rfl, rfl, rfl⟩

end RelayerRawdb
