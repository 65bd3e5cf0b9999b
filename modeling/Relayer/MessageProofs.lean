import Mathlib

/-! # Consensus messages and their wire form

    The message types of `consensus/session/message.go` and the conversion of
    `consensus/protobuf/message/convert.go`.  What Go does with a value that
    is not there (a nil pointer, an index outside a slice, a negative bit
    index) is a `Panic`, so that every use of such a value says what happens
    when it is missing.

    The protobuf library and the (un)marshalling of BLS values are not part
    of the repository: `Codec` lists what is used of them. -/

namespace RelayerMessage

/-! ## Go runtime errors -/

/-- The runtime panics the message handlers can run into. -/
inductive Panic where
  | nilDereference
  | indexOutOfRange (i : ℤ) (len : ℕ)
  | negativeBitIndex
  | badPublicKey (err : String)
  deriving DecidableEq, Repr

/-- Indexing a slice with a Go `int`. -/
def index {α : Type} (l : List α) (i : ℤ) : Except Panic α :=
  if 0 ≤ i then
    match l[i.toNat]? with
    | some a => .ok a
    | none => .error (.indexOutOfRange i l.length)
  else .error (.indexOutOfRange i l.length)

/-- `big.Int.Bit` of a non-negative mask. -/
def bit (m : ℕ) (i : ℤ) : Except Panic Bool :=
  if i < 0 then .error .negativeBitIndex else .ok (m.testBit i.toNat)

/-- An index is in range when it names an element. -/
def InRange {α : Type} (l : List α) (i : ℤ) : Prop :=
  0 ≤ i ∧ i.toNat < l.length

instance {α : Type} (l : List α) (i : ℤ) : Decidable (InRange l i) :=
  inferInstanceAs (Decidable (_ ∧ _))

/-- An index in range finds its element. -/
theorem index_of_inRange {α : Type} {l : List α} {i : ℤ} (h : InRange l i) :
    ∃ a, index l i = .ok a ∧ l[i.toNat]? = some a := by
  refine ⟨l.get ⟨i.toNat, h.2⟩, ?_, List.getElem?_eq_getElem h.2⟩
  rw [index, if_pos h.1, List.getElem?_eq_getElem h.2]
  rfl

/-- When an index panics, and what it finds otherwise. -/
theorem index_ok_iff {α : Type} {l : List α} {i : ℤ} {a : α} :
    index l i = .ok a ↔ 0 ≤ i ∧ l[i.toNat]? = some a := by
  rw [index]
  by_cases hi : 0 ≤ i
  · rw [if_pos hi]
    cases hl : l[i.toNat]? with
    | none => simp
    | some b => simp [hi]
  · rw [if_neg hi]
    simp [hi]

theorem inRange_of_index_ok {α : Type} {l : List α} {i : ℤ} {a : α}
    (h : index l i = .ok a) : InRange l i := by
  obtain ⟨hi, hl⟩ := index_ok_iff.mp h
  exact ⟨hi, (List.getElem?_eq_some_iff.mp hl).1⟩

/-- Outside the range, indexing is a panic and nothing else. -/
theorem index_of_not_inRange {α : Type} {l : List α} {i : ℤ}
    (h : ¬ InRange l i) : index l i = .error (.indexOutOfRange i l.length) := by
  rw [index]
  by_cases hi : 0 ≤ i
  · have hlen : l.length ≤ i.toNat := by
      by_contra hlt
      exact h ⟨hi, by omega⟩
    rw [if_pos hi, List.getElem?_eq_none hlen]
  · rw [if_neg hi]

theorem bit_of_nonneg {m : ℕ} {i : ℤ} (h : 0 ≤ i) :
    bit m i = .ok (m.testBit i.toNat) := by
  rw [bit, if_neg (by omega)]

theorem bit_of_neg {m : ℕ} {i : ℤ} (h : i < 0) :
    bit m i = .error .negativeBitIndex := by
  rw [bit, if_pos h]

/-! ## Messages -/

/-- `session.MsgType`: the three constants, and whatever else the wire may
    carry. -/
inductive MsgType where
  | announce
  | prepare
  | prepared
  | other (n : ℤ)
  deriving DecidableEq, Repr

/-- The numeric value of a message type, as `Announce = iota` counts. -/
def MsgType.toInt : MsgType → ℤ
  | .announce => 0
  | .prepare => 1
  | .prepared => 2
  | .other n => n

/-- The message type of a number from the wire. -/
def MsgType.ofInt (n : ℤ) : MsgType :=
  if n = 0 then .announce
  else if n = 1 then .prepare
  else if n = 2 then .prepared
  else .other n

/-- `session.Header`. -/
structure Header where
  source : ℤ
  msgType : MsgType
  deriving DecidableEq, Repr

/-- `session.Body`. -/
structure Body where
  bridgeEventHash : String
  deriving DecidableEq, Repr

/-- `session.MessageWithSig`.  Its `History` is made empty by every sender and
    read by nobody. -/
structure MessageWithSig (PK SG : Type) extends Header, Body where
  signature : SG
  mask : ℕ
  publicKey : PK
  deriving DecidableEq, Repr

/-- One character of a JSON string as `json.Marshal` writes it, with its HTML
    escapes. -/
def escapeChar (c : Char) : List Char :=
  if c = '"' then ['\\', '"']
  else if c = '\\' then ['\\', '\\']
  else if c = '\n' then ['\\', 'n']
  else if c = '\r' then ['\\', 'r']
  else if c = '\t' then ['\\', 't']
  else if c.toNat < 32 ∨ c = '<' ∨ c = '>' ∨ c = '&' then
    ['\\', 'u', '0', '0', Nat.digitChar (c.toNat / 16),
      Nat.digitChar (c.toNat % 16)]
  else if c.toNat = 0x2028 then ['\\', 'u', '2', '0', '2', '8']
  else if c.toNat = 0x2029 then ['\\', 'u', '2', '0', '2', '9']
  else [c]

/-- `json.Marshal` of a body: the bytes that are signed and verified. -/
def Body.marshal (b : Body) : String :=
  "\x7b\"BridgeEventHash\":\""
    ++ String.ofList (b.bridgeEventHash.toList.flatMap escapeChar) ++ "\"\x7d"

/-! ## The wire form -/

/-- `message.ConsensusRequest`: the proto2 message, absent fields being nil
    pointers. -/
structure ConsensusRequest where
  msgType : Option ℤ
  source : Option ℤ
  signature : List UInt8
  mask : List UInt8
  publicKey : List UInt8
  bridgeEventHash : Option String
  deriving DecidableEq, Repr

/-- What the conversion uses of the protobuf and bls packages.  Unmarshalling
    a BLS value yields a value even when it reports an error, and the value
    is used. -/
structure Codec (PK SG : Type) where
  marshal : ConsensusRequest → Option (List UInt8)
  unmarshal : List UInt8 → Option ConsensusRequest
  marshalSignature : SG → List UInt8
  unmarshalSignature : List UInt8 → SG × Option String
  marshalPublicKey : PK → List UInt8
  unmarshalPublicKey : List UInt8 → PK × Option String

/-- `big.Int.SetBytes`: a big-endian number. -/
def setBytes (bs : List UInt8) : ℕ :=
  bs.foldl (fun acc b => acc * 256 + b.toNat) 0

/-- `big.Int.Bytes`: the shortest big-endian form. -/
def bytes (n : ℕ) : List UInt8 :=
  ((Nat.digits 256 n).map UInt8.ofNat).reverse

variable {PK SG : Type}

/-- `GetMsgType`, with the default of the generated getter. -/
def ConsensusRequest.getMsgType (r : ConsensusRequest) : ℤ := r.msgType.getD 0

/-- `GetSource`. -/
def ConsensusRequest.getSource (r : ConsensusRequest) : ℤ := r.source.getD 0

/-- `GetBridgeEventHash`. -/
def ConsensusRequest.getBridgeEventHash (r : ConsensusRequest) : String :=
  r.bridgeEventHash.getD ""

/-- `convertModelMessage`: every required field is set. -/
def convertModelMessage (c : Codec PK SG) (msg : MessageWithSig PK SG) :
    ConsensusRequest where
  msgType := some msg.msgType.toInt
  source := some msg.source
  signature := c.marshalSignature msg.signature
  mask := bytes msg.mask
  publicKey := c.marshalPublicKey msg.publicKey
  bridgeEventHash := some msg.bridgeEventHash

/-- `MessageToBytes`: nil when marshalling fails. -/
def messageToBytes (c : Codec PK SG) (msg : MessageWithSig PK SG) :
    Option (List UInt8) :=
  c.marshal (convertModelMessage c msg)

/-- `convertConsensusRequestSig`: the errors of the two BLS decoders are
    logged and their values used. -/
def convertConsensusRequestSig (c : Codec PK SG) (r : ConsensusRequest) :
    MessageWithSig PK SG where
  source := r.getSource
  msgType := MsgType.ofInt r.getMsgType
  bridgeEventHash := r.getBridgeEventHash
  signature := (c.unmarshalSignature r.signature).1
  mask := setBytes r.mask
  publicKey := (c.unmarshalPublicKey r.publicKey).1

/-- `BytesToModelMessage`: nil when the bytes do not decode. -/
def bytesToModelMessage (c : Codec PK SG) (msgBytes : List UInt8) :
    Option (MessageWithSig PK SG) :=
  (c.unmarshal msgBytes).map (convertConsensusRequestSig c)

/-! ## What was sent arrives -/

/-- The values of a Go `int64`. -/
def IsInt64 (z : ℤ) : Prop := -2 ^ 63 ≤ z ∧ z < 2 ^ 63

instance (z : ℤ) : Decidable (IsInt64 z) := inferInstanceAs (Decidable (_ ∧ _))

/-- One of the three constants. -/
def MsgType.isKnown : MsgType → Bool
  | .other _ => false
  | _ => true

/-- What the round trip of a message rests on: protobuf gives a request of
    `convertModelMessage` back, and the bls package the value it has
    marshalled. -/
structure Codec.Faithful (c : Codec PK SG) : Prop where
  request : ∀ msg : MessageWithSig PK SG, msg.msgType.isKnown = true →
    IsInt64 msg.source → ∃ bs, c.marshal (convertModelMessage c msg) = some bs ∧
      c.unmarshal bs = some (convertModelMessage c msg)
  signature : ∀ sg, (c.unmarshalSignature (c.marshalSignature sg)).1 = sg
  publicKey : ∀ pk, (c.unmarshalPublicKey (c.marshalPublicKey pk)).1 = pk

/-- The types sent are read back. -/
theorem MsgType.ofInt_toInt {t : MsgType} (h : t.isKnown = true) :
    MsgType.ofInt t.toInt = t := by
  cases t with
  | announce => rfl
  | prepare => rfl
  | prepared => rfl
  | other n => cases h

/-- A mask survives its big-endian form. -/
theorem setBytes_bytes (n : ℕ) : setBytes (bytes n) = n := by
  have hdigits : (Nat.digits 256 n).map (fun d => (UInt8.ofNat d).toNat)
      = Nat.digits 256 n := by
    refine (List.map_congr_left (fun d hd => ?_)).trans (List.map_id _)
    have hlt : d < 256 := Nat.digits_lt_base (by norm_num) hd
    rw [UInt8.toNat_ofNat', Nat.mod_eq_of_lt hlt]
    rfl
  rw [setBytes, bytes, List.foldl_reverse, List.foldr_map]
  calc (Nat.digits 256 n).foldr
        (fun d acc => acc * 256 + (UInt8.ofNat d).toNat) 0
      = ((Nat.digits 256 n).map (fun d => (UInt8.ofNat d).toNat)).foldr
        (fun d acc => acc * 256 + d) 0 := by rw [List.foldr_map]
    _ = (Nat.digits 256 n).foldr (fun d acc => acc * 256 + d) 0 := by
        rw [hdigits]
    _ = Nat.ofDigits 256 (Nat.digits 256 n) := by
        rw [Nat.ofDigits_eq_foldr]
        congr 1
        funext d acc
        rw [Nat.cast_id, Nat.mul_comm, Nat.add_comm]
    _ = n := Nat.ofDigits_digits 256 n

/-- **THE ROUND TRIP OF A MESSAGE**. -/
theorem bytesToModelMessage_messageToBytes {c : Codec PK SG}
    (hc : c.Faithful) {msg : MessageWithSig PK SG}
    (hknown : msg.msgType.isKnown = true) (hsource : IsInt64 msg.source) :
    ∃ bs, messageToBytes c msg = some bs ∧
      bytesToModelMessage c bs = some msg := by
  obtain ⟨bs, hmarshal, hunmarshal⟩ := hc.request msg hknown hsource
  refine ⟨bs, hmarshal, ?_⟩
  rw [bytesToModelMessage, hunmarshal, Option.map_some]
  congr 1
  rw [convertConsensusRequestSig, convertModelMessage]
  simp only [ConsensusRequest.getSource, ConsensusRequest.getMsgType,
    ConsensusRequest.getBridgeEventHash, Option.getD_some, hc.signature,
    hc.publicKey, setBytes_bytes, MsgType.ofInt_toInt hknown]

end RelayerMessage
