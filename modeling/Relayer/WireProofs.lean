import Relayer.HonestProofs

/-! # The wire round trip

    `session.MessageWithSig` has two parts that no handler relies on: the
    `History`, and the sign of the `Mask`, a `big.Int`.  The earlier files
    leave both out.  Here the conversion of
    `consensus/protobuf/message/convert.go` is modelled with them:

    * `messageToBytes` and `bytesToModelMessage` take and return whole
      messages, and are the ones of the earlier files on what the wire
      carries (`convertModelMessage_eq`, `convertConsensusRequestSig_eq`);
    * a message comes back without its history and without the sign of its
      mask (`decoded_of_encoded`);
    * **`wire_round_trip`**: nothing is lost of a message with a non-negative
      mask and no history, and its encoding determines it;
    * **`popcount_exact`**: `Popcount` is the number of set bits of a mask of
      any size, on both sides of the wire. -/

namespace RelayerWire

open RelayerHonest RelayerMessage

variable {PK SG : Type}

/-- `session.MessageWithSig`, every field. -/
structure ModelMessage (PK SG : Type) extends Header, Body where
  history : List (ModelMessage PK SG)
  signature : SG
  mask : ℤ
  publicKey : PK

/-- `convertModelMessage`: `Mask.Bytes()` is the absolute value, and nothing
    is made of the history. -/
def convertModelMessage (c : Codec PK SG) (msg : ModelMessage PK SG) :
    ConsensusRequest where
  msgType := some msg.msgType.toInt
  source := some msg.source
  signature := c.marshalSignature msg.signature
  mask := bytes msg.mask.natAbs
  publicKey := c.marshalPublicKey msg.publicKey
  bridgeEventHash := some msg.bridgeEventHash

/-- `MessageToBytes`. -/
def messageToBytes (c : Codec PK SG) (msg : ModelMessage PK SG) :
    Option (List UInt8) :=
  c.marshal (convertModelMessage c msg)

/-- `convertConsensusRequestSig`: the history is a new empty slice. -/
def convertConsensusRequestSig (c : Codec PK SG) (r : ConsensusRequest) :
    ModelMessage PK SG where
  source := r.getSource
  msgType := MsgType.ofInt r.getMsgType
  bridgeEventHash := r.getBridgeEventHash
  history := []
  signature := (c.unmarshalSignature r.signature).1
  mask := setBytes r.mask
  publicKey := (c.unmarshalPublicKey r.publicKey).1

/-- `BytesToModelMessage`. -/
def bytesToModelMessage (c : Codec PK SG) (msgBytes : List UInt8) :
    Option (ModelMessage PK SG) :=
  (c.unmarshal msgBytes).map (convertConsensusRequestSig c)

/-! ## What the wire carries -/

/-- The part of a message that is encoded. -/
def ModelMessage.carried (msg : ModelMessage PK SG) : MessageWithSig PK SG where
  toHeader := msg.toHeader
  toBody := msg.toBody
  signature := msg.signature
  mask := msg.mask.natAbs
  publicKey := msg.publicKey

/-- A message as a decoder makes it. -/
def decoded (msg : MessageWithSig PK SG) : ModelMessage PK SG where
  toHeader := msg.toHeader
  toBody := msg.toBody
  history := []
  signature := msg.signature
  mask := msg.mask
  publicKey := msg.publicKey

theorem convertModelMessage_eq (c : Codec PK SG) (msg : ModelMessage PK SG) :
    convertModelMessage c msg =
      RelayerMessage.convertModelMessage c msg.carried := rfl

theorem convertConsensusRequestSig_eq (c : Codec PK SG) (r : ConsensusRequest) :
    convertConsensusRequestSig c r =
      decoded (RelayerMessage.convertConsensusRequestSig c r) := rfl

/-- The messages that the protocol sends. -/
structure Sendable (msg : ModelMessage PK SG) : Prop where
  mask_nonneg : 0 ≤ msg.mask
  known : msg.msgType.isKnown = true
  source : IsInt64 msg.source
  history : msg.history = []

/-- Nothing of such a message is left behind. -/
theorem Sendable.decoded_carried {msg : ModelMessage PK SG}
    (h : Sendable msg) : decoded msg.carried = msg := by
  obtain ⟨header, body, history, signature, mask, publicKey⟩ := msg
  obtain rfl : history = [] := h.history
  have hmask : ((mask.natAbs : ℕ) : ℤ) = mask :=
    Int.natAbs_of_nonneg h.mask_nonneg
  simp only [decoded, ModelMessage.carried, hmask]

/-- **WHAT COMES BACK**: the encoded part of the message, with an empty
    history. -/
theorem decoded_of_encoded {c : Codec PK SG} (hc : c.Faithful)
    {msg : ModelMessage PK SG} (hknown : msg.msgType.isKnown = true)
    (hsource : IsInt64 msg.source) :
    ∃ bs, messageToBytes c msg = some bs ∧
      bytesToModelMessage c bs = some (decoded msg.carried) := by
  have hknown' : msg.carried.msgType.isKnown = true := hknown
  have hsource' : IsInt64 msg.carried.source := hsource
  obtain ⟨bs, hbytes, hmsg⟩ :=
    bytesToModelMessage_messageToBytes hc hknown' hsource'
  refine ⟨bs, hbytes, ?_⟩
  obtain ⟨r, hr, hconvert⟩ := Option.map_eq_some_iff.mp hmsg
  rw [bytesToModelMessage, hr, Option.map_some,
    convertConsensusRequestSig_eq, hconvert]

/-- **THE WIRE ROUND TRIP**: for every codec that gives back what it encoded,
    every message with a non-negative mask, a known type, a 64-bit source and
    no history is encoded, comes back as it was, and shares its encoding with
    no other such message. -/
theorem wire_round_trip (c : Codec PK SG) (hc : c.Faithful) :
    (∀ msg : ModelMessage PK SG, Sendable msg →
      ∃ bs, messageToBytes c msg = some bs ∧
        bytesToModelMessage c bs = some msg) ∧
    ∀ msg msg' : ModelMessage PK SG, Sendable msg → Sendable msg' →
      messageToBytes c msg = messageToBytes c msg' → msg = msg' := by
  have hround : ∀ msg : ModelMessage PK SG, Sendable msg →
      ∃ bs, messageToBytes c msg = some bs ∧
        bytesToModelMessage c bs = some msg := by
    intro msg hmsg
    obtain ⟨bs, hbytes, hback⟩ :=
      decoded_of_encoded hc hmsg.known hmsg.source
    rw [hmsg.decoded_carried] at hback
    exact ⟨bs, hbytes, hback⟩
  refine ⟨hround, fun msg msg' hmsg hmsg' heq => ?_⟩
  obtain ⟨bs, hbytes, hback⟩ := hround msg hmsg
  obtain ⟨bs', hbytes', hback'⟩ := hround msg' hmsg'
  obtain rfl : bs = bs' :=
    Option.some.inj (hbytes.symm.trans (heq.trans hbytes'))
  exact Option.some.inj (hback.symm.trans hback')

/-- A Prepared message with a mask of 70 bits. -/
def samplePrepared : ModelMessage ℤ ℤ where
  source := -1
  msgType := .prepared
  bridgeEventHash := "0x51ab"
  history := []
  signature := 12
  mask := 2 ^ 70 - 1
  publicKey := 58

/-- A Prepared message sent and read. -/
theorem wire_round_trip_sample :
    ∃ bs, messageToBytes framedCodec samplePrepared = some bs ∧
      bytesToModelMessage framedCodec bs = some samplePrepared :=
  (wire_round_trip framedCodec framedCodec_faithful).1 samplePrepared
    ⟨by decide, rfl, by decide, rfl⟩

/-! ## The count of a mask -/

open BitMask RelayerSession

/-- The set bits, counted. -/
theorem ncard_testBit (z : ℕ) :
    Set.ncard {i : ℕ | z.testBit i = true} = (bitsOf z).card := by
  rw [← Set.ncard_coe_finset]
  congr 1
  ext i
  exact mem_bitsOf.symm

theorem lt_of_mem_words {z x : ℕ} (hx : x ∈ words z) : x < 2 ^ 64 :=
  Nat.digits_lt_base (by norm_num) hx

/-- `SetBytes(Bytes())` keeps the absolute value of a mask. -/
theorem mask_convert {c : Codec PK SG} {msg : ModelMessage PK SG}
    {r : ConsensusRequest} (hr : r.mask = (convertModelMessage c msg).mask) :
    (convertConsensusRequestSig c r).mask = msg.mask.natAbs := by
  rw [convertConsensusRequestSig, hr, convertModelMessage, setBytes_bytes]

/-- **`POPCOUNT` IS EXACT**: the number of the set bits of any mask, found word
    by word in as many rounds as the word has set bits; one more for each clear
    bit that is set; and the same for the mask that is decoded on the other
    side of the wire, wherever the bytes of the mask arrive and from end to end
    for every codec that gives back what it encoded. -/
theorem popcount_exact (z : ℕ) :
    popcount z = Set.ncard {i : ℕ | z.testBit i = true} ∧
    (∀ x ∈ words z, x < 2 ^ 64 ∧ ∀ k, clearLowest^[k] (UInt64.ofNat x) = 0 ↔
      Set.ncard {i : ℕ | x.testBit i = true} ≤ k) ∧
    (∀ i, z.testBit i = false → popcount (setBit z i) = popcount z + 1) ∧
    ∀ (c : Codec PK SG) (msg : ModelMessage PK SG), msg.mask = z →
      (∀ r : ConsensusRequest, r.mask = (convertModelMessage c msg).mask →
        popcount (convertConsensusRequestSig c r).mask.natAbs = popcount z) ∧
      (c.Faithful → msg.msgType.isKnown = true → IsInt64 msg.source →
        ∃ bs msg', messageToBytes c msg = some bs ∧
          bytesToModelMessage c bs = some msg' ∧
          popcount msg'.mask.natAbs = popcount z) := by
  refine ⟨?_, ?_, fun i => popcount_setBit, fun c msg hmask => ⟨?_, ?_⟩⟩
  · rw [popcount_eq_card, ncard_testBit]
  · intro x hx
    have hlt := lt_of_mem_words hx
    refine ⟨hlt, fun k => ?_⟩
    rw [clearLowest_iterate_eq_zero, UInt64.toNat_ofNat_of_lt' hlt, ncard_testBit]
  · intro r hr
    rw [mask_convert hr, hmask, Int.natAbs_natCast, Int.natAbs_natCast]
  · intro hc hknown hsource
    obtain ⟨bs, hbytes, hback⟩ := decoded_of_encoded hc hknown hsource
    refine ⟨bs, decoded msg.carried, hbytes, hback, ?_⟩
    rw [decoded, ModelMessage.carried, hmask, Int.natAbs_natCast,
      Int.natAbs_natCast]

end RelayerWire
