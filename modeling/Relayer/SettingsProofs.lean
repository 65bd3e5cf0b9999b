import Relayer.Bytes32Proofs
import Relayer.ChainsProofs
import Relayer.RegisterProofs

/-! # The settings of a node

    `LoadBridgeConfig` of `config/bridge.go` and what `main` of
    `cmd/bridge/bridge.go` makes of its result: defaults for what the file leaves
    out, the keys of the chains, the flag that turns the gas station off, the
    environment, and the flag and the default of the rendezvous.

    * `loadBridgeConfig` has every way to fail, with its text; without chains it
      panics, if the file does not name the chain of the registry;
    * `Loaded` says what is loaded;
    * **`registration_needs_gsn`**: the settings and `RegisterNode` together.
      For a file that does not set `usegsn` itself, the transaction of a
      registration goes over the gas station exactly if the flag is not given
      and the file has a forwarder for the chain of the registry; otherwise
      every registration that gets as far as its transaction panics. -/

namespace RelayerSettings

open Maps RelayerChains RelayerRegister Defers

/-! ## Loading -/

variable {K D : Type}

/-- `config.BridgeChain`, with the key that is decoded. -/
structure Chain (K : Type) extends BridgeChain where
  ecdsaKeyString : List UInt8
  ecdsaKey : Option K
  ecdsaAddress : Address

/-- `config.Configuration`: the fields that are read here, durations being in
    nanoseconds. -/
structure Configuration (K : Type) where
  gsnDiscoveryInterval : ℤ
  gsnWaitDuration : ℤ
  uptimeReportInterval : ℤ
  useGsn : Bool
  rendezvous : String
  regChainId : UInt64
  chains : List (Chain K)
  promListenPort : Option String

/-- What `os.Getenv` returns; an empty text stands for no variable. -/
structure Environment where
  randevoue : String
  promListenPort : String

def second : ℤ := 1000000000

/-- The chain is to be used over the gas station. -/
def usable (useGsn : Bool) (chain : Chain K) : Bool :=
  useGsn && !addressIsZero chain.forwarderAddress

/-- The functions on keys: `HexToECDSA`, and `PubkeyToAddress` of the public
    key. -/
structure Keys (K : Type) where
  hexToECDSA : List UInt8 → Except String K
  pubkeyToAddress : K → Address

/-- The body of the loop over the chains. -/
def loadChain (keys : Keys K) (useGsn : Bool) (chain : Chain K) :
    Except String (Chain K) :=
  match keys.hexToECDSA (RelayerBytes32.trimPrefix chain.ecdsaKeyString
      RelayerBytes32.zeroX) with
  | .error err => .error ("decode chain [" ++ toString chain.id.toNat ++
      "] ecdsa_key error: " ++ err)
  | .ok key => .ok { chain with
      ecdsaKey := some key
      ecdsaAddress := keys.pubkeyToAddress key
      useGsn := chain.useGsn || usable useGsn chain }

def loadChains (keys : Keys K) (useGsn : Bool) :
    List (Chain K) → Except String (List (Chain K))
  | [] => .ok []
  | chain :: chains =>
      match loadChain keys useGsn chain with
      | .error err => .error err
      | .ok loaded =>
          (loadChains keys useGsn chains).map (loaded :: ·)

/-- A duration, or its default. -/
def orDefault (duration byDefault : ℤ) : ℤ :=
  if duration ≤ 0 then byDefault else duration

/-- `RegChainId`, or the id of the first chain. -/
def regChain (file : Configuration K) : Except Failure UInt64 :=
  if file.regChainId ≤ 0 then
    match file.chains with
    | [] => .error (.panic
        "runtime error: index out of range [0] with length 0")
    | chain :: _ => .ok chain.id
  else .ok file.regChainId

/-- A text of the environment, if it is set. -/
def orEnv (env text : String) : String := if env ≠ "" then env else text

/-- `LoadBridgeConfig`; `data` is what `ReadFile` returns. -/
def loadBridgeConfig (keys : Keys K)
    (unmarshal : D → Except String (Configuration K)) (env : Environment)
    (path : String) (data : Except String D) (useGsn : Bool) :
    Except Failure (Configuration K) :=
  match data with
  | .error err =>
      .error (.error ("read config file [" ++ path ++ "] error: " ++ err))
  | .ok data =>
      match unmarshal data with
      | .error err => .error (.error ("unmarshal config error: " ++ err))
      | .ok file =>
          match regChain file with
          | .error failure => .error failure
          | .ok regChainId =>
              match loadChains keys useGsn file.chains with
              | .error err => .error (.error err)
              | .ok chains => .ok {
                  gsnDiscoveryInterval :=
                    orDefault file.gsnDiscoveryInterval (10 * second)
                  gsnWaitDuration := orDefault file.gsnWaitDuration (60 * second)
                  uptimeReportInterval := 300 * second
                  useGsn := file.useGsn || file.chains.any (usable useGsn)
                  rendezvous := orEnv env.randevoue file.rendezvous
                  regChainId := regChainId
                  chains := chains
                  promListenPort :=
                    if env.promListenPort ≠ "" then some env.promListenPort
                    else file.promListenPort }

/-- What `main` makes of the rendezvous. -/
def rendezvous (flag : String) (config : Configuration K) : String :=
  if orEnv flag config.rendezvous = "" then "mygroupofnodes"
  else orEnv flag config.rendezvous

/-- No node meets the others under the empty text. -/
theorem rendezvous_ne_empty (flag : String) (config : Configuration K) :
    rendezvous flag config ≠ "" := by
  rw [rendezvous]
  split
  · decide
  · assumption

/-! ## What is loaded -/

/-- The chains of the file with their keys, and with the gas station where the
    flag and the address of the forwarder have it. -/
def Matches (useGsn : Bool) (chain loaded : Chain K) : Prop :=
  loaded.id = chain.id ∧ loaded.forwarderAddress = chain.forwarderAddress ∧
  loaded.useGsn = (chain.useGsn || usable useGsn chain) ∧
  loaded.ecdsaKey.isSome = true

theorem loadChain_eq_ok {keys : Keys K}
    {useGsn : Bool} {chain loaded : Chain K}
    (h : loadChain keys useGsn chain = .ok loaded) :
    Matches useGsn chain loaded := by
  rw [loadChain] at h
  split at h
  · cases h
  · cases h
    exact ⟨rfl, rfl, rfl, rfl⟩

theorem loadChains_eq_ok {keys : Keys K}
    {useGsn : Bool} {chains loaded : List (Chain K)}
    (h : loadChains keys useGsn chains = .ok loaded) :
    List.Forall₂ (Matches useGsn) chains loaded := by
  induction chains generalizing loaded with
  | nil =>
      cases h
      exact List.Forall₂.nil
  | cons chain chains ih =>
      rw [loadChains] at h
      split at h
      · cases h
      · rename_i first hfirst
        cases hrest : loadChains keys useGsn chains with
        | error err =>
            rw [hrest] at h
            cases h
        | ok rest =>
            rw [hrest] at h
            cases h
            exact List.Forall₂.cons (loadChain_eq_ok hfirst) (ih hrest)

/-- What is known of loaded settings. -/
structure Loaded (useGsn : Bool) (file config : Configuration K) : Prop where
  wait : 0 < config.gsnWaitDuration
  discovery : 0 < config.gsnDiscoveryInterval
  regChain : regChain file = .ok config.regChainId
  chains : List.Forall₂ (Matches useGsn) file.chains config.chains
  useGsn : config.useGsn = (file.useGsn || file.chains.any (usable useGsn))

/-- A duration left out is replaced by its default. -/
theorem orDefault_pos {duration byDefault : ℤ} (h : 0 < byDefault) :
    0 < orDefault duration byDefault := by
  rw [orDefault]
  split
  · exact h
  · omega

/-- What a loaded configuration has from its file. -/
theorem loaded_of_ok {keys : Keys K}
    {unmarshal : D → Except String (Configuration K)} {env : Environment}
    {path : String} {data : D} {useGsn : Bool} {file config : Configuration K}
    (hfile : unmarshal data = .ok file)
    (hload : loadBridgeConfig keys unmarshal env path (.ok data) useGsn =
      .ok config) : Loaded useGsn file config := by
  simp only [loadBridgeConfig, hfile] at hload
  cases hreg : regChain file with
  | error failure =>
      rw [hreg] at hload
      cases hload
  | ok regChainId =>
      cases hchains : loadChains keys useGsn file.chains with
      | error err =>
          rw [hreg, hchains] at hload
          cases hload
      | ok chains =>
          rw [hreg, hchains] at hload
          cases hload
          exact {
            wait := orDefault_pos (by decide)
            discovery := orDefault_pos (by decide)
            regChain := hreg
            chains := loadChains_eq_ok hchains
            useGsn := rfl }

/-! ## The forwarders -/

variable {C : Type} {wrap : Address → RelayerClient.Client → Except String C}
  {clients : Clients} {chains : List BridgeChain} {f : Contracts C}

/-- **WHICH CHAINS CAN USE THE GAS STATION**. -/
theorem canUseGsn_iff (hforwarder : newForwarder wrap clients chains = .ok f)
    (id : UInt64) : canUseGsn f (setUint64 id) = true ↔
      ∃ chain ∈ chains, chain.id = id ∧ chain.hasForwarder = true := by
  rw [canUseGsn, uint64_setUint64]
  constructor
  · intro h
    obtain ⟨contract, hcontract⟩ := Option.isSome_iff_exists.mp h
    obtain ⟨p, -, hp, -⟩ :=
      ((contracts_last hforwarder id).2 contract).mp hcontract
    obtain ⟨hmem, hid⟩ := mem_of_last hp
    obtain ⟨chain, hchain, hwanted, rfl⟩ := mem_placed.mp hmem
    exact ⟨chain, hchain, hid, hwanted⟩
  · rintro ⟨chain, hchain, rfl, hwanted⟩
    exact isSome_contractMap hforwarder hchain hwanted

/-- The file leaves `usegsn` to the flag. -/
structure Plain (file : Configuration K) : Prop where
  useGsn : file.useGsn = false
  chains : ∀ chain ∈ file.chains, chain.useGsn = false

/-- A loaded chain has a forwarder if it could be used with GSN. -/
theorem Matches.hasForwarder {useGsn : Bool} {chain loaded : Chain K}
    (h : Matches useGsn chain loaded) (hplain : chain.useGsn = false) :
    loaded.hasForwarder = usable useGsn chain := by
  obtain ⟨-, hforwarder, huse, -⟩ := h
  rw [BridgeChain.hasForwarder, hforwarder, huse, hplain, usable]
  cases useGsn <;> cases addressIsZero chain.forwarderAddress <;> rfl

/-- The chains that are loaded with a forwarder are the usable ones of the
    file. -/
theorem exists_hasForwarder {useGsn : Bool} {file loaded : List (Chain K)}
    (h : List.Forall₂ (Matches useGsn) file loaded)
    (hplain : ∀ chain ∈ file, chain.useGsn = false) (id : UInt64) :
    (∃ chain ∈ loaded.map Chain.toBridgeChain,
      chain.id = id ∧ chain.hasForwarder = true) ↔
    ∃ chain ∈ file, chain.id = id ∧ usable useGsn chain = true := by
  induction h with
  | nil => simp only [List.map_nil, List.not_mem_nil, false_and, exists_false]
  | cons hmatch _ ih =>
      obtain ⟨hfirst, hrest⟩ := List.forall_mem_cons.mp hplain
      rw [List.map_cons, List.exists_mem_cons_iff, List.exists_mem_cons_iff,
        ih hrest, hmatch.hasForwarder hfirst, hmatch.1]

/-- The file has a forwarder for the chain of the registry, and the flag does
    not turn the gas station off. -/
def Forwards (useGsn : Bool) (file : Configuration K) (regChainId : UInt64) :
    Prop :=
  ∃ chain ∈ file.chains, chain.id = regChainId ∧ usable useGsn chain = true

/-- A usable chain switches GSN on. -/
theorem Forwards.useGsn {useGsn : Bool} {file config : Configuration K}
    (h : Forwards useGsn file config.regChainId)
    (hloaded : Loaded useGsn file config) : config.useGsn = true := by
  obtain ⟨chain, hchain, -, husable⟩ := h
  rw [hloaded.useGsn, List.any_eq_true.mpr ⟨chain, hchain, husable⟩,
    Bool.or_true]

/-- **A REGISTRATION NEEDS THE GAS STATION**: with the settings of a file that
    leaves `usegsn` to the flag, the transaction of `RegisterNode` goes over the
    gas station exactly if the chain of the registry has a usable forwarder.
    If it has none, a registration that gets to its transaction panics, and one
    that returns without error has found the node registered. -/
theorem registration_needs_gsn {keys : Keys K}
    {unmarshal : D → Except String (Configuration K)} {env : Environment}
    {path : String} {data : D} {useGsn : Bool} {file config : Configuration K}
    {w : World} (hfile : unmarshal data = .ok file) (hplain : Plain file)
    (hload : loadBridgeConfig keys unmarshal env path (.ok data) useGsn =
      .ok config)
    (hforwarder : newForwarder wrap clients
      (config.chains.map Chain.toBridgeChain) = .ok f)
    (huse : w.useGsn = config.useGsn)
    (hcan : w.canUseGsn = canUseGsn f (setUint64 config.regChainId)) :
    (w.overGsn = true ↔ Forwards useGsn file config.regChainId) ∧
    (¬ Forwards useGsn file config.regChainId →
      (Signs w →
        (run (registerNode w)).2 = .returned (some nilDereference)) ∧
      ((run (registerNode w)).2 = .returned none →
        w.isRegistered = true)) := by
  have hloaded := loaded_of_ok hfile hload
  have hcan' : w.canUseGsn = true ↔ Forwards useGsn file config.regChainId := by
    rw [hcan, canUseGsn_iff hforwarder,
      exists_hasForwarder hloaded.chains hplain.chains, Forwards]
  have hover : w.overGsn = true ↔ Forwards useGsn file config.regChainId := by
    rw [World.overGsn, Bool.and_eq_true, hcan', huse]
    exact and_iff_left_of_imp fun h => h.useGsn hloaded
  refine ⟨hover, fun hnone => ?_⟩
  rw [← hover, Bool.not_eq_true] at hnone
  refine ⟨fun hsigns => run_of_stranded ⟨hsigns, hnone⟩, fun hreturned => ?_⟩
  rcases succeeds_of_run hreturned with ⟨-, hregistered⟩ | ⟨hsubmits, -⟩
  · exact hregistered
  · exact absurd (hnone.symm.trans hsubmits.gsn) (by decide)

/-- The private key 1, as a file has it. -/
def keyText : List UInt8 :=
  RelayerBytes32.zeroX ++ List.replicate 63 48 ++ [49]

/-- A file with one chain, which has a forwarder. -/
def sampleFile : Configuration ℕ where
  gsnDiscoveryInterval := 0
  gsnWaitDuration := 0
  uptimeReportInterval := 0
  useGsn := false
  rendezvous := ""
  regChainId := 0
  chains := [{
    id := 4
    rpcUrls := ["ws://node"]
    bridgeAddress := Vector.replicate 20 1
    forwarderAddress := Vector.replicate 20 2
    useGsn := false
    ecdsaKeyString := keyText
    ecdsaKey := none
    ecdsaAddress := Vector.replicate 20 0 }]
  promListenPort := none

/-- A node that is not registered, and no call that fails. -/
def sampleWorld (useGsn : Bool) : World where
  loadSecp256k1Key := none
  newNodeWithClients := none
  loadBlsPublicKey := none
  newHostFromKeyFile := none
  writeHostAddrToConfig := none
  useGsn := useGsn
  initDHT := none
  newGsnClient := none
  waitForDiscoveryGsn := none
  regChainId := 4
  getEthClient := none
  nodeExists := .ok false
  newERC20Permit := none
  nonces := .ok 0
  balanceOf := .ok 1
  signTypedData value nonce :=
    if value = "<nil>" ∨ nonce = "<nil>" then some "uint256" else none
  canUseGsn := useGsn
  nodeRegistryCreateNode := none
  nodeRegistryAddress := ""
  callOpt := none
  createRelayer := none
  waitTransaction := none
  filterCreatedRelayer := none

theorem sampleFile_plain : Plain sampleFile :=
  ⟨rfl, List.forall_mem_cons.mpr ⟨rfl, List.forall_mem_nil _⟩⟩

/-- The sample comes to the signature. -/
theorem sampleWorld_signs : Signs (sampleWorld false) where
  reaches := ⟨rfl, rfl, rfl, rfl, rfl, fun _ => ⟨rfl, rfl, rfl⟩, rfl⟩
  unregistered := rfl
  eywa := rfl
  permit := rfl

/-- The address of the private key 1. -/
def addressOne : Address :=
  #v[126, 95, 69, 82, 9, 26, 105, 18, 93, 93, 252, 183, 184, 194, 101, 144, 41,
    57, 91, 223]

/-- A key has 64 digits and is not zero. -/
def sampleKeys : Keys ℕ where
  hexToECDSA s :=
    if s.length = 64 ∧ ∀ c ∈ s, Hex.IsDigit c then
      match Nat.ofDigits 256 ((Hex.bytesOf s).reverse.map UInt8.toNat) with
      | 0 => .error "invalid private key, zero or negative"
      | key + 1 => .ok (key + 1)
    else .error "invalid length, need 256 bits"
  pubkeyToAddress key :=
    if key = 1 then addressOne else Vector.replicate 20 0

def sampleUnmarshal (_ : Unit) : Except String (Configuration ℕ) :=
  .ok sampleFile

/-- What is loaded from the file. -/
def sampleConfig (useGsn : Bool) : Configuration ℕ :=
  { sampleFile with
    gsnDiscoveryInterval := 10 * second
    gsnWaitDuration := 60 * second
    uptimeReportInterval := 300 * second
    useGsn := useGsn
    regChainId := 4
    chains := sampleFile.chains.map fun chain => { chain with
      ecdsaKey := some 1
      ecdsaAddress := addressOne
      useGsn := useGsn } }

theorem hexToECDSA_keyText : sampleKeys.hexToECDSA
    (RelayerBytes32.trimPrefix keyText RelayerBytes32.zeroX) = .ok 1 := by
  decide +kernel

theorem sampleConfig_loaded (useGsn : Bool) :
    loadBridgeConfig sampleKeys sampleUnmarshal ⟨"", ""⟩ "bridge.yaml" (.ok ())
      useGsn = .ok (sampleConfig useGsn) := by
  have hchains : loadChains sampleKeys useGsn sampleFile.chains =
      .ok (sampleConfig useGsn).chains := by
    simp only [loadChains, sampleFile, loadChain, hexToECDSA_keyText]
    cases useGsn <;> rfl
  simp only [loadBridgeConfig, sampleUnmarshal, hchains]
  cases useGsn <;> rfl

/-- One file, loaded with the flag and without it. -/
theorem registration_needs_gsn_sample :
    (sampleWorld true).overGsn = true ∧
    (run (registerNode (sampleWorld false))).2 =
      .returned (some nilDereference) := by
  have hread : sampleUnmarshal () = .ok sampleFile := rfl
  have hwrap : ∀ useGsn, ∃ clients f,
      newClients ((sampleConfig useGsn).chains.map fun chain =>
        chain.toBridgeChain.config) = .ok clients ∧
      newForwarder (fun address _ => .ok address) clients
        ((sampleConfig useGsn).chains.map Chain.toBridgeChain) = .ok f ∧
      canUseGsn f 4 = useGsn := by
    intro useGsn
    cases useGsn <;> exact ⟨_, _, rfl, rfl, rfl⟩
  constructor
  · obtain ⟨clients, f, -, hforwarder, hcan⟩ := hwrap true
    have h := registration_needs_gsn (w := sampleWorld true) hread
      sampleFile_plain (sampleConfig_loaded true) hforwarder rfl hcan.symm
    exact h.1.mpr ⟨_, List.mem_cons_self .., rfl, rfl⟩
  · obtain ⟨clients, f, -, hforwarder, hcan⟩ := hwrap false
    have h := registration_needs_gsn (w := sampleWorld false) hread
      sampleFile_plain (sampleConfig_loaded false) hforwarder rfl hcan.symm
    refine (h.2 ?_).1 sampleWorld_signs
    rintro ⟨chain, -, -, husable⟩
    cases husable

end RelayerSettings
