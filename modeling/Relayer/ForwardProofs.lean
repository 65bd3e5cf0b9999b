import Relayer.Bytes32Proofs
import Relayer.ChainsProofs

/-! # A forward request, from the signature to the forwarder contract

    The package `forward` and the GSN service of `libp2p/rpc/gsn`.  A node that
    does not pay for its calls puts a call into a forward request, signs it as
    an EIP-712 message and gives it to `Client.Execute`, which sends it with its
    numbers as decimal texts; `ExecuteRequestHandler` of the GSN node reads the
    texts and calls the forwarder contract of the chain.

    * `Library` lists what is used of go-ethereum, and `HashesType` says what is
      assumed of it;
    * `forward` is `BridgeRequestV2` and `NodeRegistryCreateNode`, which differ
      in the contract, the method and its arguments only;
    * `prepare` is what `ExecuteRequestHandler` does before it calls the
      contract;
    * **`prepare_request`**: what `Execute` was given is what is submitted, for
      integers of any size;
    * **`signed_is_executed`**: what is signed is what is executed, and a text
      that is no number stops the handler before the contract. -/

namespace RelayerForward

open Decimal RelayerChains RelayerClient Sha256

/-! ## Requests and typed data -/

abbrev Bytes32 := Vector UInt8 32

/-- `wrappers.IForwarderForwardRequest`. -/
structure ForwardRequest where
  from_ : Address
  to_ : Address
  value : ℤ
  gas : ℤ
  nonce : ℤ
  data : List UInt8
  deriving DecidableEq

/-- A value of a `core.TypedDataMessage`. -/
inductive Value where
  | text (s : String)
  | bytes (b : List UInt8)
  deriving DecidableEq

/-- `core.Type`. -/
structure Field where
  name : String
  type : String
  deriving DecidableEq

/-- `core.TypedData`; the domain is its `Map()`. -/
structure TypedData where
  types : List (String × List Field)
  domain : List (String × Value)
  primaryType : String
  message : List (String × Value)
  deriving DecidableEq

/-- An argument of a contract method. -/
inductive Arg (Node : Type) where
  | bytes32 (b : Bytes32)
  | bytes (b : List UInt8)
  | address (a : Address)
  | node (n : Node)
  | uint256 (z : ℤ)
  | uint8 (v : UInt8)

/-- The libraries: `abi`, `crypto` and `signer/core` of go-ethereum, and the
    texts of the contracts' ABIs. -/
structure Library (Key Node Abi : Type) where
  bridgeABI : String
  nodeRegistryABI : String
  /-- `abi.JSON`. -/
  parseAbi : String → Except String Abi
  /-- `abi.ABI.Pack`. -/
  pack : Abi → String → List (Arg Node) → Except String (List UInt8)
  pubkeyToAddress : Key → Address
  /-- `common.Address.String`. -/
  addressString : Address → String
  /-- `common.NewMixedcaseAddressFromString`, which `SignTypedData` is given. -/
  newMixedcaseAddressFromString : String → Except String Unit
  keccak256 : List UInt8 → Bytes32
  /-- `TypedData.HashStruct`, a hash of 32 bytes. -/
  hashStruct : TypedData → String → List (String × Value) →
    Except String Bytes32
  /-- `TypedData.TypeHash`. -/
  typeHash : TypedData → String → Bytes32
  /-- `TypedData.Format`. -/
  format : TypedData → Except String Unit
  /-- `crypto.Sign`. -/
  sign : Bytes32 → Key → Except String (Vector UInt8 65)

section Signing

variable {Key Node Abi : Type} (lib : Library Key Node Abi)

def domainType : String := "EIP712Domain"

def forwardRequest : String := "ForwardRequest"

/-- The fields of a `ForwardRequest`. -/
def forwardFields : List Field :=
  [⟨"from", "address"⟩, ⟨"to", "address"⟩, ⟨"value", "uint256"⟩,
    ⟨"gas", "uint256"⟩, ⟨"nonce", "uint256"⟩, ⟨"data", "bytes"⟩]

/-- The message of a request. -/
def message (req : ForwardRequest) : List (String × Value) :=
  [("from", .text (lib.addressString req.from_)),
    ("to", .text (lib.addressString req.to_)),
    ("value", .text (string req.value)),
    ("gas", .text (string req.gas)),
    ("nonce", .text (string req.nonce)),
    ("data", .bytes req.data)]

/-- The typed data of a request, for the forwarder at an address. -/
def typedDataOf (req : ForwardRequest) (forwarderAddress : String) :
    TypedData where
  types := [(domainType, [⟨"verifyingContract", "address"⟩]),
    (forwardRequest, forwardFields)]
  domain := [("verifyingContract", .text forwarderAddress)]
  primaryType := "ForwardRequest"
  message := message lib req

/-- `NewForwardRequestTypedData`: it packs the call once more, and writes it
    into the request it was given. -/
def newForwardRequestTypedData (req : ForwardRequest)
    (forwarderAddress abiJson methodName : String) (args : List (Arg Node)) :
    Except String (ForwardRequest × TypedData) := do
  let contractAbi ← (lib.parseAbi abiJson).mapError
    ("could not parse ABI: " ++ ·)
  let contractAbiPacked ← (lib.pack contractAbi methodName args).mapError
    ("could not pack abi method: " ++ methodName ++ " on error:  " ++ ·)
  let req := { req with data := contractAbiPacked }
  return (req, typedDataOf lib req forwarderAddress)

/-- What is signed: the hash of the domain separator and the message. -/
def sigHash (domainSeparator typedDataHash : Bytes32) : Bytes32 :=
  lib.keccak256
    (0x19 :: 0x01 :: (domainSeparator.toList ++ typedDataHash.toList))

/-- `SignTypedData`. -/
def signTypedData (key : Key) (t : TypedData) :
    Except String (Vector UInt8 65) := do
  let domainSeparator ← lib.hashStruct t domainType t.domain
  let typedDataHash ← lib.hashStruct t t.primaryType t.message
  lib.format t
  let signature ← lib.sign (sigHash lib domainSeparator typedDataHash) key
  return signature.set 64 (signature[64] + 27)

/-- `NewSignature`. -/
def newSignature (t : TypedData) (signer : Key) :
    Except String (Vector UInt8 65) := do
  lib.newMixedcaseAddressFromString
    (lib.addressString (lib.pubkeyToAddress signer))
  signTypedData lib signer t

/-- `FromHex`; a panic, which ends the process, is an error here. -/
def fromHex (s : String) : Except String Bytes32 :=
  match RelayerBytes32.fromHex (Hex.utf8 s) with
  | .returned b none => .ok b
  | .returned _ (some err) => .error err.text
  | .panicked => .error "index out of range [32] with length 32"

/-- `NewDomainSeparatorHash`: through the text of a `hexutil.Bytes`. -/
def newDomainSeparatorHash (t : TypedData) : Except String Bytes32 := do
  let domainSeparator ← lib.hashStruct t domainType t.domain
  fromHex ("0x" ++ encodeToString domainSeparator.toList)

/-- `BytesToBytes32`. -/
def bytesToBytes32 (b : List UInt8) : Except String Bytes32 :=
  if 32 < b.length then .error "string to long"
  else .ok (Vector.ofFn fun i => b.getD i 0)

/-- `NewRequestTypeHash`. -/
def newRequestTypeHash (genericParams : String) : Except String Bytes32 :=
  bytesToBytes32 (lib.keccak256
    (forwardRequest ++ "(" ++ genericParams ++ ")").toUTF8.toList).toList

/-! ## The call -/

/-- What a node calls at a forwarder contract. -/
structure Forwarder where
  getNonce : Address → Except String ℤ
  genericParams : Except String String

/-- The arguments of `GsnCaller.Execute`. -/
structure ExecuteCall where
  chainId : ℤ
  req : ForwardRequest
  domainSeparator : Bytes32
  requestTypeHash : Bytes32
  suffixData : List UInt8
  sig : List UInt8

/-- `BridgeRequestV2` and `NodeRegistryCreateNode` up to `Execute`: the call of
    a method, signed and ready to be executed. -/
def forward (abiJson methodName : String) (args : List (Arg Node))
    (gsnCaller : Contracts Forwarder) (chainId : ℤ) (signer : Key)
    (contractAddress : Address) : Except String ExecuteCall := do
  let contractABI ← (lib.parseAbi abiJson).mapError
    ("could not parse ABI: " ++ ·)
  let fRequest ← lib.pack contractABI methodName args
  let forwarder ← getForwarder gsnCaller chainId
  let forwarderAddress ← getForwarderAddress gsnCaller chainId
  let signerAddress := lib.pubkeyToAddress signer
  let nonce ← forwarder.getNonce signerAddress
  let (req, typedData) ← newForwardRequestTypedData lib
    ⟨signerAddress, contractAddress, 0, 1000000, nonce, fRequest⟩
    (lib.addressString forwarderAddress) abiJson methodName args
  let typedDataSignature ← newSignature lib typedData signer
  let domainSeparatorHash ← newDomainSeparatorHash lib typedData
  let genericParams ← forwarder.genericParams
  let reqTypeHash ← newRequestTypeHash lib genericParams
  return ⟨chainId, req, domainSeparatorHash, reqTypeHash, [],
    typedDataSignature.toList⟩

/-- `BridgeRequestV2`. -/
def bridgeRequestV2 (gsnCaller : Contracts Forwarder) (chainId : ℤ)
    (signer : Key) (contractAddress : Address) (reqId : Bytes32)
    (b : List UInt8) (receiveSide : Address) (bridgeFrom : Bytes32) :
    Except String ExecuteCall :=
  forward lib lib.bridgeABI "receiveRequestV2"
    [.bytes32 reqId, .bytes b, .address receiveSide, .bytes32 bridgeFrom]
    gsnCaller chainId signer contractAddress

/-- `NodeRegistryCreateNode`. -/
def nodeRegistryCreateNode (gsnCaller : Contracts Forwarder) (chainId : ℤ)
    (signer : Key) (contractAddress : Address) (node : Node) (deadline : ℤ)
    (v : UInt8) (r s : Bytes32) : Except String ExecuteCall :=
  forward lib lib.nodeRegistryABI "createRelayer"
    [.node node, .uint256 deadline, .uint8 v, .bytes32 r, .bytes32 s]
    gsnCaller chainId signer contractAddress

end Signing

/-! ## The service -/

/-- `RpcForwarderForwardRequest`. -/
structure RpcForwarderForwardRequest where
  from_ : Address
  to_ : Address
  value : String
  gas : String
  nonce : String
  data : List UInt8

/-- `NewRpcForwarderForwardRequest`. -/
def newRpcForwarderForwardRequest (req : ForwardRequest) :
    RpcForwarderForwardRequest :=
  ⟨req.from_, req.to_, string req.value, string req.gas, string req.nonce,
    req.data⟩

/-- `SetString(text, 10)`, with the error of a text that is no number. -/
def parse (text err : String) : Except String ℤ :=
  match setString text with
  | some z => .ok z
  | none => .error err

/-- `DumpToIForwarderForwardRequest`; its errors print the `*big.Int`, which is
    nil then, and not the text. -/
def RpcForwarderForwardRequest.dumpToIForwarderForwardRequest
    (r : RpcForwarderForwardRequest) : Except String ForwardRequest := do
  let value ← parse r.value "can not parse request value [<nil>]"
  let gas ← parse r.gas "can not parse request gas [<nil>]"
  let nonce ← parse r.nonce "can not parse request nonce [<nil>]"
  return ⟨r.from_, r.to_, value, gas, nonce, r.data⟩

/-- `ExecuteRequest`. -/
structure ExecuteRequest where
  chainId : String
  forwardRequest : RpcForwarderForwardRequest
  domainSeparator : Bytes32
  requestTypeHash : Bytes32
  suffixData : List UInt8
  signature : List UInt8

/-- The request that `Client.Execute` sends. -/
def ExecuteCall.request (call : ExecuteCall) : ExecuteRequest :=
  ⟨string call.chainId, newRpcForwarderForwardRequest call.req,
    call.domainSeparator, call.requestTypeHash, call.suffixData, call.sig⟩

/-- A call of `forwarder.Execute`: the contract, who pays, the arguments. -/
structure Submission (Key F : Type) where
  forwarder : F
  owner : TransactOpts Key
  request : ForwardRequest
  domainSeparator : Bytes32
  requestTypeHash : Bytes32
  suffixData : List UInt8
  signature : List UInt8

/-- The call of `Execute` that a submission carries out. -/
def Submission.call {Key F : Type} (sub : Submission Key F) : ExecuteCall :=
  ⟨sub.owner.chainId, sub.request, sub.domainSeparator, sub.requestTypeHash,
    sub.suffixData, sub.signature⟩

section Service

variable {Key F : Type} (wrap : Address → Client → Except String F)
  (node : RelayerChains.Node Key)

/-- `ExecuteRequestHandler` up to `forwarder.Execute`. -/
def prepare (request : ExecuteRequest) : Except String (Submission Key F) := do
  let id := request.chainId
  let chainId ← parse id ("can not parse chain id [" ++ id ++ "]")
  let owner ← (node.getOwner chainId).mapError
    ("can not get owner for chain id [" ++ id ++ "] on error: " ++ ·)
  let forwarder ← (node.getForwarder wrap chainId).mapError
    ("can not get forwarder for chain id [" ++ id ++ "] on error: " ++ ·)
  let forwardRequest ←
    request.forwardRequest.dumpToIForwarderForwardRequest.mapError
    ("can not dump forward request for chain id [" ++ id ++ "] on error: " ++ ·)
  return ⟨forwarder, owner, forwardRequest, request.domainSeparator,
    request.requestTypeHash, request.suffixData, request.signature⟩

/-- `ExecuteResult`. -/
structure ExecuteResult where
  chainId : String
  txHash : Bytes32

variable (send : Submission Key F → Except String Bytes32)

/-- `ExecuteRequestHandler`: its result, and the call of the contract if there
    was one. -/
def executeRequestHandler (request : ExecuteRequest) :
    Except String ExecuteResult × Option (Submission Key F) :=
  match prepare wrap node request with
  | .error err => (.error err, none)
  | .ok submission =>
      ((match send submission with
        | .error err => .error ("can not execute request for chain id [" ++
            request.chainId ++ "] on error:" ++ err)
        | .ok txHash => .ok ⟨request.chainId, txHash⟩), some submission)

/-- What the transport does with a call. -/
inductive Delivery where
  | lost (err : String)
  | delivered
  | replyLost (err : String)

/-- `Client.Execute`, with the handler of the GSN node it has discovered. -/
def execute (discovered : Bool) (delivery : Delivery) (call : ExecuteCall) :
    Except String Bytes32 × Option (Submission Key F) :=
  let failed := fun err : String =>
    Except.error ("call rpc service [RpcApiGsn] method [Execute] error: " ++ err)
  if !discovered then
    (.error "get gsn peer ID error: gsn node not discovered", none)
  else
    let (result, submitted) :=
      executeRequestHandler wrap node send call.request
    match delivery with
    | .lost err => (failed err, none)
    | .replyLost err => (failed err, submitted)
    | .delivered =>
        match result with
        | .error err => (failed err, submitted)
        | .ok res => (.ok res.txHash, submitted)

/-- A function of the package `forward`, from its call to the contract. -/
def forwarded (discovered : Bool) (delivery : Delivery)
    (call : Except String ExecuteCall) :
    Except String Bytes32 × Option (Submission Key F) :=
  match call with
  | .error err => (.error err, none)
  | .ok call => execute wrap node send discovered delivery call

end Service

/-! ## Steps that succeed -/

section Steps

variable {α β : Type}

/-- A sequence without an error had none in its first part. -/
theorem bind_eq_ok {x : Except String α} {f : α → Except String β} {b : β}
    (h : (x >>= f) = .ok b) : ∃ a, x = .ok a ∧ f a = .ok b := by
  cases x with
  | error err => cases h
  | ok a => exact ⟨a, rfl, h⟩

/-- A wrapped error is still an error. -/
theorem mapError_eq_ok {x : Except String α} {f : String → String} {a : α}
    (h : x.mapError f = .ok a) : x = .ok a := by
  cases x with
  | error err => cases h
  | ok b =>
      cases h
      rfl

theorem bind_of_error {x : Except String α} {f : α → Except String β}
    (h : ∃ err, x = .error err) : ∃ err, (x >>= f) = .error err := by
  obtain ⟨err, rfl⟩ := h
  exact ⟨err, rfl⟩

theorem bind_error {x : Except String α} {f : α → Except String β}
    (h : ∀ a, ∃ err, f a = .error err) : ∃ err, (x >>= f) = .error err := by
  cases x with
  | error err => exact ⟨err, rfl⟩
  | ok a => exact h a

theorem mapError_error {x : Except String α} {f : String → String}
    (h : ∃ err, x = .error err) : ∃ err, x.mapError f = .error err := by
  obtain ⟨err, rfl⟩ := h
  exact ⟨f err, rfl⟩

end Steps

/-! ## Texts that are read back -/

theorem parse_string (z : ℤ) (err : String) : parse (string z) err = .ok z := by
  rw [parse, setString_string]

theorem parse_eq_error {text : String} (h : setString text = none)
    (err : String) : ∃ e, parse text err = .error e := by
  rw [parse, h]
  exact ⟨err, rfl⟩

/-- A request comes back from its texts. -/
theorem dump_newRpcForwarderForwardRequest (req : ForwardRequest) :
    (newRpcForwarderForwardRequest req).dumpToIForwarderForwardRequest =
      .ok req := by
  simp only [RpcForwarderForwardRequest.dumpToIForwarderForwardRequest,
    newRpcForwarderForwardRequest, parse_string]
  rfl

/-- A request with a text that is no number is refused. -/
theorem dump_eq_error {r : RpcForwarderForwardRequest}
    (h : setString r.value = none ∨ setString r.gas = none ∨
      setString r.nonce = none) :
    ∃ err, r.dumpToIForwarderForwardRequest = .error err := by
  rcases h with h | h | h
  · exact bind_of_error (parse_eq_error h _)
  · exact bind_error fun _ => bind_of_error (parse_eq_error h _)
  · exact bind_error fun _ => bind_error fun _ =>
      bind_of_error (parse_eq_error h _)

/-- The text of a hash is read back, without an error or a panic. -/
theorem fromHex_encodeToString (b : Bytes32) :
    fromHex ("0x" ++ encodeToString b.toList) = .ok b := by
  have htext : Hex.utf8 ("0x" ++ encodeToString b.toList) =
      RelayerBytes32.toHex b := by
    rw [Hex.utf8_append, Hex.utf8_encodeToString]
    rfl
  rw [fromHex, htext, RelayerBytes32.fromHex_toHex]

/-- Thirty-two bytes come back as they were sent. -/
theorem bytesToBytes32_toList (b : Bytes32) :
    bytesToBytes32 b.toList = .ok b := by
  rw [bytesToBytes32, if_neg (by simp)]
  have hcopied : (Vector.ofFn fun i : Fin 32 => b.toList.getD i 0) = b := by
    ext i hi
    simp [List.getD_eq_getElem?_getD]
  exact congrArg Except.ok hcopied

/-! ## What is submitted is what was given to `Execute` -/

section Submitted

variable {Key F : Type} {wrap : Address → Client → Except String F}
  {node : RelayerChains.Node Key} {send : Submission Key F → Except String Bytes32}

/-- The owner's transactions carry the chain id asked for. -/
theorem getOwner_chainId {chainId : ℤ} {owner : TransactOpts Key}
    (h : node.getOwner chainId = .ok owner) : owner.chainId = chainId := by
  rw [Node.getOwner] at h
  cases hchain : node.chain chainId with
  | error err =>
      rw [hchain] at h
      cases h
  | ok chain =>
      rw [hchain] at h
      cases h
      rfl

/-- **WHAT IS SUBMITTED** for a call of `Execute` is this call, unchanged, by
    the owner and to the contract of its chain. -/
theorem prepare_request {call : ExecuteCall} {sub : Submission Key F}
    (h : prepare wrap node call.request = .ok sub) :
    node.getOwner call.chainId = .ok sub.owner ∧
      node.getForwarder wrap call.chainId = .ok sub.forwarder ∧
      sub.call = call := by
  obtain ⟨chainId, hid, h⟩ := bind_eq_ok h
  obtain ⟨owner, howner, h⟩ := bind_eq_ok h
  obtain ⟨forwarder, hforwarder, h⟩ := bind_eq_ok h
  obtain ⟨req, hreq, h⟩ := bind_eq_ok h
  have hchain : chainId = call.chainId :=
    Except.ok.inj (hid.symm.trans (parse_string call.chainId _))
  have hdump : req = call.req :=
    Except.ok.inj ((mapError_eq_ok hreq).symm.trans
      (dump_newRpcForwarderForwardRequest call.req))
  subst hchain hdump
  have howner := mapError_eq_ok howner
  cases h
  refine ⟨howner, mapError_eq_ok hforwarder, ?_⟩
  rw [Submission.call, getOwner_chainId howner]
  rfl

/-- **NOTHING IS SUBMITTED** for a text that is no number. -/
theorem prepare_eq_error {request : ExecuteRequest}
    (h : setString request.chainId = none ∨
      setString request.forwardRequest.value = none ∨
      setString request.forwardRequest.gas = none ∨
      setString request.forwardRequest.nonce = none) :
    ∃ err, prepare wrap node request = .error err := by
  rcases h with h | h
  · exact bind_of_error (parse_eq_error h _)
  · exact bind_error fun _ => bind_error fun _ => bind_error fun _ =>
      bind_of_error (mapError_error (dump_eq_error h))

/-- The handler calls the contract with what it has prepared. -/
theorem executeRequestHandler_submits {request : ExecuteRequest}
    {sub : Submission Key F}
    (h : (executeRequestHandler wrap node send request).2 = some sub) :
    prepare wrap node request = .ok sub := by
  rw [executeRequestHandler] at h
  cases hprepare : prepare wrap node request with
  | error err =>
      rw [hprepare] at h
      cases h
  | ok submission =>
      rw [hprepare] at h
      cases h
      rfl

/-- A submission comes from a call that reached `Execute`. -/
theorem forwarded_submits {discovered : Bool} {delivery : Delivery}
    {made : Except String ExecuteCall} {sub : Submission Key F}
    (h : (forwarded wrap node send discovered delivery made).2 = some sub) :
    ∃ call, made = .ok call ∧ prepare wrap node call.request = .ok sub := by
  cases made with
  | error err => cases h
  | ok call =>
      refine ⟨call, rfl, ?_⟩
      rw [forwarded, execute] at h
      -- without a peer nothing is sent; a lost reply still leaves a submission
      cases discovered with
      | false => cases h
      | true =>
          cases delivery with
          | lost err => cases h
          | replyLost err => exact executeRequestHandler_submits h
          | delivered =>
              cases hhandled : executeRequestHandler wrap node send
                  call.request with
              | mk result submitted =>
                  rw [hhandled] at h
                  -- what is submitted does not depend on how it ended
                  have hsub : submitted = some sub := by
                    cases result with
                    | error err => exact h
                    | ok res => exact h
                  exact executeRequestHandler_submits
                    ((congrArg Prod.snd hhandled).trans hsub)

end Submitted

/-! ## What is submitted is what was signed -/

section Signed

variable {Key Node Abi F : Type} (lib : Library Key Node Abi)

/-- The call is signed, for the forwarder that the node knows for the chain. -/
structure SignedCall (gsnCaller : Contracts Forwarder) (chainId : ℤ)
    (signer : Key) (contractAddress : Address) (packed : List UInt8)
    (call : ExecuteCall) (t : TypedData) : Prop where
  chain_eq : call.chainId = chainId
  from_eq : call.req.from_ = lib.pubkeyToAddress signer
  to_eq : call.req.to_ = contractAddress
  data_eq : call.req.data = packed
  typedData : ∃ address, getForwarderAddress gsnCaller chainId = .ok address ∧
    t = typedDataOf lib call.req (lib.addressString address)
  nonce : ∃ forwarder, getForwarder gsnCaller chainId = .ok forwarder ∧
    forwarder.getNonce call.req.from_ = .ok call.req.nonce ∧
    ∃ params, forwarder.genericParams = .ok params ∧
      call.requestTypeHash = lib.keccak256
        (forwardRequest ++ "(" ++ params ++ ")").toUTF8.toList
  signature : ∃ signature, signTypedData lib signer t = .ok signature ∧
    call.sig = signature.toList
  domainSeparator :
    lib.hashStruct t domainType t.domain = .ok call.domainSeparator

variable {lib}

/-- **WHAT REACHES `Execute` IS SIGNED**. -/
theorem forward_signed {abiJson methodName : String} {args : List (Arg Node)}
    {gsnCaller : Contracts Forwarder} {chainId : ℤ} {signer : Key}
    {contractAddress : Address} {call : ExecuteCall}
    (h : forward lib abiJson methodName args gsnCaller chainId signer
      contractAddress = .ok call) :
    ∃ contractAbi packed t, lib.parseAbi abiJson = .ok contractAbi ∧
      lib.pack contractAbi methodName args = .ok packed ∧
      SignedCall lib gsnCaller chainId signer contractAddress packed call t := by
  obtain ⟨contractAbi, habi, h⟩ := bind_eq_ok h
  obtain ⟨packed, hpack, h⟩ := bind_eq_ok h
  obtain ⟨forwarder, hforwarder, h⟩ := bind_eq_ok h
  obtain ⟨address, haddress, h⟩ := bind_eq_ok h
  obtain ⟨nonce, hnonce, h⟩ := bind_eq_ok h
  obtain ⟨⟨req, t⟩, htyped, h⟩ := bind_eq_ok h
  dsimp only at h
  obtain ⟨signature, hsignature, h⟩ := bind_eq_ok h
  obtain ⟨-, -, hsignature⟩ := bind_eq_ok hsignature
  obtain ⟨separator, hseparator, h⟩ := bind_eq_ok h
  obtain ⟨params, hparams, h⟩ := bind_eq_ok h
  obtain ⟨hash, hhash, hcall⟩ := bind_eq_ok h
  obtain ⟨again, hagain, htyped⟩ := bind_eq_ok htyped
  obtain ⟨repacked, hrepack, htyped⟩ := bind_eq_ok htyped
  -- the second packing, which is written into the request, is the first
  obtain rfl : contractAbi = again :=
    Except.ok.inj ((mapError_eq_ok habi).symm.trans (mapError_eq_ok hagain))
  obtain rfl : packed = repacked :=
    Except.ok.inj (hpack.symm.trans (mapError_eq_ok hrepack))
  obtain ⟨hashed, hhashed, hseparator⟩ := bind_eq_ok hseparator
  obtain rfl : hashed = separator :=
    Except.ok.inj ((fromHex_encodeToString hashed).symm.trans hseparator)
  have htypeHash := Except.ok.inj
    (hhash.symm.trans (bytesToBytes32_toList (lib.keccak256 _)))
  cases hcall
  cases htyped
  exact ⟨contractAbi, packed, _, mapError_eq_ok habi, hpack,
    { chain_eq := rfl
      from_eq := rfl
      to_eq := rfl
      data_eq := rfl
      typedData := ⟨address, haddress, rfl⟩
      nonce := ⟨forwarder, hforwarder, hnonce, params, hparams, htypeHash⟩
      signature := ⟨signature, hsignature, rfl⟩
      domainSeparator := hhashed }⟩

/-- The parameter list of the message type. -/
def forwardParams : String :=
  "address from,address to,uint256 value,uint256 gas,uint256 nonce,bytes data"

variable (lib) in
/-- What is assumed of `TypeHash`: for the typed data of a request it is the
    hash of the message type as EIP-712 writes it, the name and the fields. -/
def HashesType : Prop :=
  ∀ req forwarderAddress,
    lib.typeHash (typedDataOf lib req forwarderAddress) forwardRequest =
      lib.keccak256 (forwardRequest ++ "(" ++ forwardParams ++ ")").toUTF8.toList

/-- The type hash is that of the signed message, when the contract names its
    parameters as the message does. -/
theorem SignedCall.typeHash_eq {gsnCaller : Contracts Forwarder} {chainId : ℤ}
    {signer : Key} {contractAddress : Address} {packed : List UInt8}
    {call : ExecuteCall} {t : TypedData} (hlib : HashesType lib)
    (h : SignedCall lib gsnCaller chainId signer contractAddress packed call t)
    {forwarder : Forwarder}
    (hforwarder : getForwarder gsnCaller chainId = .ok forwarder)
    (hparams : forwarder.genericParams = .ok forwardParams) :
    call.requestTypeHash = lib.typeHash t forwardRequest := by
  obtain ⟨address, -, rfl⟩ := h.typedData
  obtain ⟨found, hfound, -, params, hgeneric, hhash⟩ := h.nonce
  obtain rfl : forwarder = found :=
    Except.ok.inj (hforwarder.symm.trans hfound)
  obtain rfl : forwardParams = params :=
    Except.ok.inj (hparams.symm.trans hgeneric)
  rw [hhash, hlib]

variable (lib) in
/-- A submission carries out a signed call of a method: the message of the
    typed data is that of the submitted request, and the chain id, domain
    separator, type hash and signature are those of the call. -/
def Executes (wrap : Address → Client → Except String F)
    (node : RelayerChains.Node Key) (gsnCaller : Contracts Forwarder)
    (chainId : ℤ) (signer : Key) (contractAddress : Address)
    (abiJson methodName : String) (args : List (Arg Node))
    (sub : Submission Key F) : Prop :=
  node.getOwner chainId = .ok sub.owner ∧
  node.getForwarder wrap chainId = .ok sub.forwarder ∧
  ∃ contractAbi packed t, lib.parseAbi abiJson = .ok contractAbi ∧
    lib.pack contractAbi methodName args = .ok packed ∧
    SignedCall lib gsnCaller chainId signer contractAddress packed sub.call t ∧
    t.message = message lib sub.request ∧
    ∀ forwarder, getForwarder gsnCaller chainId = .ok forwarder →
      forwarder.genericParams = .ok forwardParams →
      sub.requestTypeHash = lib.typeHash t forwardRequest

/-- A submission that comes from `forward` carries out a signed call. -/
theorem forward_executes (hlib : HashesType lib)
    {wrap : Address → Client → Except String F} {node : RelayerChains.Node Key}
    {send : Submission Key F → Except String Bytes32} {discovered : Bool}
    {delivery : Delivery} {abiJson methodName : String}
    {args : List (Arg Node)} {gsnCaller : Contracts Forwarder} {chainId : ℤ}
    {signer : Key} {contractAddress : Address} {sub : Submission Key F}
    (h : (forwarded wrap node send discovered delivery (forward lib abiJson
      methodName args gsnCaller chainId signer contractAddress)).2 = some sub) :
    Executes lib wrap node gsnCaller chainId signer contractAddress abiJson
      methodName args sub := by
  obtain ⟨call, hcall, hprepare⟩ := forwarded_submits h
  obtain ⟨howner, hforwarder, rfl⟩ := prepare_request hprepare
  obtain ⟨contractAbi, packed, t, habi, hpack, hsigned⟩ := forward_signed hcall
  rw [hsigned.chain_eq] at howner hforwarder
  refine ⟨howner, hforwarder, contractAbi, packed, t, habi, hpack, hsigned, ?_,
    fun _ hfound hparams => hsigned.typeHash_eq hlib hfound hparams⟩
  obtain ⟨address, -, rfl⟩ := hsigned.typedData
  rfl

end Signed

/-! ## One run -/

/-- A method of a contract: its name, its signature, and the types of its
    arguments. -/
structure Method where
  name : String
  signature : String
  types : List String

/-- A number in 32 bytes. -/
def uintWord (z : ℕ) : List UInt8 :=
  (List.range 32).map fun i => UInt8.ofNat (z / 256 ^ (31 - i))

/-- Bytes at the end of a word. -/
def wordOf (bs : List UInt8) : List UInt8 :=
  List.replicate (32 - bs.length) 0 ++ bs

/-- An argument in the encoding of contract calls: its type, whether it stands
    behind the others, and its bytes.  A node is given by its bytes. -/
def encodeArg : Arg (List UInt8) → String × Bool × List UInt8
  | .bytes32 b => ("bytes32", false, b.toList)
  | .bytes b => ("bytes", true, uintWord b.length ++ b ++
      List.replicate ((32 - b.length % 32) % 32) 0)
  | .address a => ("address", false, wordOf a.toList)
  | .node n => ("tuple", true, n)
  | .uint256 z => ("uint256", false, uintWord z.toNat)
  | .uint8 v => ("uint8", false, wordOf [v])

/-- The arguments of a call: words, with offsets for what stands behind. -/
def encodeArgs (args : List (Arg (List UInt8))) : List UInt8 :=
  let (heads, tails) := args.foldl (fun (heads, tails) arg =>
    match encodeArg arg with
    | (_, true, bs) =>
        (heads ++ uintWord (32 * args.length + tails.length), tails ++ bs)
    | (_, false, bs) => (heads ++ bs, tails)) ([], [])
  heads ++ tails

/-- SHA-256 in the place of Keccak-256. -/
def sampleHash (bs : List UInt8) : Bytes32 :=
  Vector.ofFn fun i => (sum256 bs).getD i 0

def bridgeMethods : List Method :=
  [⟨"receiveRequestV2", "receiveRequestV2(bytes32,bytes,address,bytes32)",
    ["bytes32", "bytes", "address", "bytes32"]⟩]

def registryMethods : List Method :=
  [⟨"createRelayer", "createRelayer((address,address,address,string,uint256)," ++
      "uint256,uint8,bytes32,bytes32)",
    ["tuple", "uint256", "uint8", "bytes32", "bytes32"]⟩]

/-- A call of a method that the contract has, with arguments of its types. -/
def samplePack (methods : List Method) (methodName : String)
    (args : List (Arg (List UInt8))) : Except String (List UInt8) :=
  match methods.find? fun m => m.name == methodName with
  | none => .error ("method '" ++ methodName ++ "' not found")
  | some m =>
      if m.types = args.map fun arg => (encodeArg arg).1 then
        .ok ((sampleHash m.signature.toUTF8.toList).toList.take 4 ++
          encodeArgs args)
      else .error "abi: cannot use argument"

/-- A field of the message in 32 bytes. -/
def sampleField (type : String) : Option Value → Except String (List UInt8)
  | some (.text s) =>
      if type = "address" then
        match decodeHex (s.toList.drop 2) with
        | some bs => .ok (wordOf bs)
        | none => .error "provided data doesn't match type 'address'"
      else
        match setString s with
        | some z => .ok (uintWord z.toNat)
        | none => .error "provided data doesn't match type 'uint256'"
  | some (.bytes b) => .ok (sampleHash b).toList
  | none => .error "provided data '<nil>' doesn't match type"

/-- The type as EIP-712 writes it. -/
def sampleTypeHash (t : TypedData) (name : String) : Bytes32 :=
  sampleHash (name ++ "(" ++ ",".intercalate (((t.types.lookup name).getD []).map
    fun f => f.type ++ " " ++ f.name) ++ ")").toUTF8.toList

def sampleHashStruct (t : TypedData) (name : String)
    (data : List (String × Value)) : Except String Bytes32 := do
  let encoded ← ((t.types.lookup name).getD []).mapM fun f =>
    sampleField f.type (data.lookup f.name)
  return sampleHash ((sampleTypeHash t name).toList ++ encoded.flatten)

/-- A library with the two contracts. -/
def sampleLibrary : Library String (List UInt8) (List Method) where
  bridgeABI := "[\x7b\"name\":\"receiveRequestV2\",\"type\":\"function\"\x7d]"
  nodeRegistryABI := "[\x7b\"name\":\"createRelayer\",\"type\":\"function\"\x7d]"
  parseAbi text :=
    if text = "[\x7b\"name\":\"receiveRequestV2\",\"type\":\"function\"\x7d]" then
      .ok bridgeMethods
    else if text =
        "[\x7b\"name\":\"createRelayer\",\"type\":\"function\"\x7d]" then
      .ok registryMethods
    else .error "invalid character"
  pack := samplePack
  pubkeyToAddress key :=
    Vector.ofFn fun i => (sum256 key.toUTF8.toList).getD (12 + i) 0
  addressString address := "0x" ++ encodeToString address.toList
  newMixedcaseAddressFromString text :=
    if text.length = 42 then .ok () else .error "invalid address"
  keccak256 := sampleHash
  hashStruct := sampleHashStruct
  typeHash := sampleTypeHash
  format _ := .ok ()
  sign hash key := .ok (Vector.ofFn fun i =>
    (hash.toList ++ sum256 (key.toUTF8.toList ++ hash.toList) ++ [1]).getD i 0)

/-- The type string hashed is the one the forwarder has. -/
theorem sampleLibrary_hashesType : HashesType sampleLibrary := by
  intro req forwarderAddress
  have htype : forwardRequest ++ "(" ++ ",".intercalate (forwardFields.map
      fun f => f.type ++ " " ++ f.name) ++ ")" =
      forwardRequest ++ "(" ++ forwardParams ++ ")" := by
    decide +kernel
  rw [← htype]
  rfl

/-- A node that knows the forwarder of chain 1, where its nonce has more than
    64 bits. -/
def sampleCaller : Contracts Forwarder where
  addressMap := Maps.set (fun _ => none) 1 (Vector.replicate 20 2)
  contractMap :=
    Maps.set (fun _ => none) 1 ⟨fun _ => .ok (2 ^ 70), .ok forwardParams⟩

/-- A request of the sample node, up to the contract. -/
def sampleRun :
    Except String Bytes32 × Option (Submission String (Address × Client)) :=
  forwarded boundTo nodeOne (fun _ => .ok (Vector.replicate 32 9)) true
    .delivered
    (bridgeRequestV2 sampleLibrary sampleCaller 1 "key" (Vector.replicate 20 3)
      (Vector.replicate 32 4) [5, 6] (Vector.replicate 20 8)
      (Vector.replicate 32 9))

/-- A request whose value is no integer. -/
def badRequest : ExecuteRequest :=
  ⟨"1", ⟨Vector.replicate 20 7, Vector.replicate 20 3, "1.5", "0", "0", []⟩,
    Vector.replicate 32 0, Vector.replicate 32 0, [], []⟩

end RelayerForward
