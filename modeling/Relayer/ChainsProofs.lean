import Relayer.ClientProofs
import Relayer.DecimalProofs
import Relayer.MapProofs

/-! # The chains of a node, and how a chain id finds its chain

    `extChains/clients.go`, `node/contracts/bridge.go`,
    `node/contracts/forwarder.go` and the GSN node of `node/gsn/node.go`.  Each
    of them fills maps from the configured chains, under the `uint64` ids of the
    configuration, and looks a chain up for a `*big.Int`, through
    `chainId.Uint64()`: the low 64 bits of the absolute value.

    * `find` is the one lookup all accessors make;
    * `setUint64_uint64`: `Uint64` keeps an id exactly when it is from `0` to
      `2 ^ 64 - 1`;
    * `clients_first`, `contracts_last` and `chains_last`: of several chains
      with one id the client is that of the first, the address and the key are
      those of the last;
    * **`chain_ids_exact`**: the ids for which every accessor that succeeds
      gives the object of a configured chain with exactly this id;
    * **`chain_id_misrouted`**: for the others, other chains answer. -/

namespace RelayerChains

open Decimal Maps RelayerClient

/-! ## Chain ids -/

/-- `big.Int.Uint64`: the low 64 bits of the absolute value. -/
def uint64 (z : ℤ) : UInt64 := UInt64.ofNat z.natAbs

/-- `new(big.Int).SetUint64(id)`. -/
def setUint64 (id : UInt64) : ℤ := id.toNat

theorem uint64_setUint64 (id : UInt64) : uint64 (setUint64 id) = id := by
  rw [uint64, setUint64, Int.natAbs_natCast, UInt64.ofNat_toNat]

/-- **WHEN `Uint64` KEEPS AN ID**. -/
theorem setUint64_uint64 {z : ℤ} :
    setUint64 (uint64 z) = z ↔ 0 ≤ z ∧ z < 2 ^ 64 := by
  have hlow : (uint64 z).toNat = z.natAbs % 2 ^ 64 := UInt64.toNat_ofNat'
  rw [setUint64, hlow]
  omega

/-- The lookup of the accessors, with the text of their error. -/
def find {ν : Type*} (m : UInt64 → Option ν) (err : String) (chainId : ℤ) :
    Except String ν :=
  match m (uint64 chainId) with
  | some v => .ok v
  | none => .error err

theorem find_eq_ok {ν : Type*} {m : UInt64 → Option ν} {err : String}
    {chainId : ℤ} {v : ν} :
    find m err chainId = .ok v ↔ m (uint64 chainId) = some v := by
  rw [find]
  cases hm : m (uint64 chainId) with
  | none => simp
  | some w => simp

/-! ## The clients -/

/-- `eth.Config`. -/
structure Config where
  id : UInt64
  urls : List String
  deriving DecidableEq

/-- `Clients`: the map `ethClients`. -/
abbrev Clients := UInt64 → Option Client

/-- The loop body of `NewClients`. -/
def addClient (ethClients : Clients) (cfg : Config) :
    Except String (Option (UInt64 × Client)) :=
  if (ethClients cfg.id).isSome then .ok none
  else
    match newClientOf cfg.id.toNat cfg.urls with
    | .error err => .error err
    | .ok client => .ok (some (cfg.id, client))

/-- `NewClients`: of several configurations with one id the first counts. -/
def newClients (clientConfigs : List Config) : Except String Clients :=
  fill addClient (fun _ => none) clientConfigs

/-- `IsEth`. -/
def isEth (s : Clients) (chainId : ℤ) : Bool := (s (uint64 chainId)).isSome

/-- `GetEthClient`. -/
def getEthClient (s : Clients) (chainId : ℤ) : Except String Client :=
  find s ("chain id [" ++ string chainId ++ "] unsupported now") chainId

/-- `AddWatcher`: the client that the watcher is added to, or the warning. -/
def addWatcher (s : Clients) (chainId : ℤ) : Except String Client :=
  find s ("skip add watcher for unsuported chain [" ++ string chainId ++ "]")
    chainId

/-- The first configuration with an id. -/
def first (cfgs : List Config) (id : UInt64) : Option Config :=
  cfgs.find? fun cfg => cfg.id == id

/-- The loop of `NewClients`, from any map on: an entry stays, and for an id
    without one the first configuration with it is tried. -/
theorem fill_clients {cfgs : List Config} {m clients : Clients}
    (hfill : fill addClient m cfgs = .ok clients) (id : UInt64) :
    (∃ client, m id = some client ∧ clients id = some client) ∨
    (m id = none ∧ first cfgs id = none ∧ clients id = none) ∨
    (m id = none ∧ ∃ cfg client, first cfgs id = some cfg ∧
      newClientOf cfg.id.toNat cfg.urls = .ok client ∧
      clients id = some client) := by
  induction cfgs generalizing m with
  | nil =>
      cases hfill
      cases hm : clients id with
      | none => exact Or.inr (Or.inl ⟨rfl, rfl, rfl⟩)
      | some client => exact Or.inl ⟨client, rfl, rfl⟩
  | cons cfg cfgs ih =>
      rw [fill, addClient] at hfill
      by_cases hid : cfg.id = id
      -- the first configuration with the id makes the client, unless there is one
      · subst hid
        have hfirst : first (cfg :: cfgs) cfg.id = some cfg :=
          List.find?_cons_of_pos (beq_self_eq_true _)
        cases hm : m cfg.id with
        | some client =>
            simp only [hm, Option.isSome_some, if_true] at hfill
            rcases ih hfill with ⟨client', hm', hclients⟩ | ⟨hm', -⟩ | ⟨hm', -⟩
            · exact Or.inl ⟨client', hm.symm.trans hm', hclients⟩
            · cases hm.symm.trans hm'
            · cases hm.symm.trans hm'
        | none =>
            simp only [hm, Option.isSome_none, Bool.false_eq_true, if_false]
              at hfill
            cases hclient : newClientOf cfg.id.toNat cfg.urls with
            | error err =>
                rw [hclient] at hfill
                cases hfill
            | ok client =>
                rw [hclient] at hfill
                have hset : set m cfg.id client cfg.id = some client := set_self
                rcases ih hfill with ⟨c, hc, hclients⟩ | ⟨hc, -⟩ | ⟨hc, -⟩
                · cases hset.symm.trans hc
                  exact Or.inr (Or.inr
                    ⟨rfl, cfg, client, hfirst, hclient, hclients⟩)
                · cases hset.symm.trans hc
                · cases hset.symm.trans hc
      · -- another id: the entry of `id` and the first one with it stay
        have hfirst : first (cfg :: cfgs) id = first cfgs id :=
          List.find?_cons_of_neg (by rw [beq_iff_eq]; exact hid)
        rw [hfirst]
        split at hfill
        · cases hfill
        · rename_i hskip
          exact ih hfill
        · rename_i key client hwrites
          have hkey : key = cfg.id := by
            split at hwrites
            · cases hwrites
            · split at hwrites
              · cases hwrites
              · cases hwrites
                rfl
          have hrest := ih hfill
          rw [hkey, set_of_ne (Ne.symm hid)] at hrest
          exact hrest

/-- **THE CLIENT OF AN ID** is made from the first configuration with it. -/
theorem clients_first {cfgs : List Config} {clients : Clients}
    (hnew : newClients cfgs = .ok clients) (id : UInt64) :
    (first cfgs id = none ∧ clients id = none) ∨
    ∃ cfg client, first cfgs id = some cfg ∧
      newClientOf cfg.id.toNat cfg.urls = .ok client ∧
      clients id = some client := by
  rcases fill_clients hnew id with ⟨client, hnone, -⟩ | ⟨-, hnone⟩ | ⟨-, hsome⟩
  · cases hnone
  · exact Or.inl hnone
  · exact Or.inr hsome

theorem mem_of_first {cfgs : List Config} {id : UInt64} {cfg : Config}
    (h : first cfgs id = some cfg) : cfg ∈ cfgs ∧ cfg.id = id := by
  have hid := List.find?_some h
  exact ⟨List.mem_of_find?_eq_some h, beq_iff_eq.mp hid⟩

/-! ## The contracts of a bridge node -/

/-- `common.Address`. -/
abbrev Address := Vector UInt8 20

/-- `AddressIsZero`. -/
def addressIsZero (address : Address) : Bool :=
  address = Vector.replicate 20 0

/-- `config.BridgeChain`, the fields that are read here. -/
structure BridgeChain where
  id : UInt64
  rpcUrls : List String
  bridgeAddress : Address
  forwarderAddress : Address
  useGsn : Bool

/-- The `eth.Config` that `NewNodeWithClients` makes for a chain. -/
def BridgeChain.config (chain : BridgeChain) : Config :=
  ⟨chain.id, chain.rpcUrls⟩

/-- A pair of maps `addressMap` and `bridgeMap` (or `forwarderMap`), which are
    always written together. -/
structure Contracts (C : Type*) where
  addressMap : UInt64 → Option Address
  contractMap : UInt64 → Option C

section Contracts

variable {C : Type*} (wrap : Address → Client → Except String C)

/-- The body of the loops of `NewBridge` and `NewForwarder`: the client of the
    chain, and then its contract at an address, if it is to have one. -/
def contractOf (name : String) (address : BridgeChain → Address)
    (wanted : BridgeChain → Bool) (clients : Clients) (chain : BridgeChain) :
    Except String (Option (UInt64 × (Address × C))) :=
  let text := "chain [" ++ string (setUint64 chain.id) ++ "] " ++ name
  match getEthClient clients (setUint64 chain.id) with
  | .error err => .error (text ++ " contract get client error: " ++ err)
  | .ok client =>
      if !wanted chain then .ok none
      else
        match wrap (address chain) client with
        | .error err =>
            .error (text ++ " contract not initialized on error: " ++ err)
        | .ok contract => .ok (some (chain.id, (address chain, contract)))

/-- The constructor that both are. -/
def newContracts (name : String) (address : BridgeChain → Address)
    (wanted : BridgeChain → Bool) (clients : Clients)
    (chains : List BridgeChain) : Except String (Contracts C) :=
  (fill (fun _ => contractOf wrap name address wanted clients)
    (fun _ => none) chains).map
    fun m => ⟨fun id => (m id).map Prod.fst, fun id => (m id).map Prod.snd⟩

/-- `NewBridge`: every chain has a bridge. -/
def newBridge (clients : Clients) (chains : List BridgeChain) :
    Except String (Contracts C) :=
  newContracts wrap "bridge" BridgeChain.bridgeAddress (fun _ => true) clients
    chains

/-- Is a chain with a forwarder address, used for GSN? -/
def BridgeChain.hasForwarder (chain : BridgeChain) : Bool :=
  !(addressIsZero chain.forwarderAddress || !chain.useGsn)

/-- `NewForwarder`. -/
def newForwarder (clients : Clients) (chains : List BridgeChain) :
    Except String (Contracts C) :=
  newContracts wrap "forwarder" BridgeChain.forwarderAddress
    BridgeChain.hasForwarder clients chains

end Contracts

section Accessors

variable {C : Type*}

/-- `GetBridge`. -/
def getBridge (b : Contracts C) (chainId : ℤ) : Except String C :=
  find b.contractMap
    ("bridge not supported for chain [" ++ string chainId ++ "]") chainId

/-- `GetBridgeAddress`. -/
def getBridgeAddress (b : Contracts C) (chainId : ℤ) : Except String Address :=
  find b.addressMap
    ("bridge not supported for chain [" ++ string chainId ++ "]") chainId

/-- `GetForwarder`. -/
def getForwarder (f : Contracts C) (chainId : ℤ) : Except String C :=
  find f.contractMap
    ("forwarder not supported for chain [" ++ string chainId ++ "]") chainId

/-- `GetForwarderAddress`. -/
def getForwarderAddress (f : Contracts C) (chainId : ℤ) :
    Except String Address :=
  find f.addressMap
    ("forwarder not supported for chain [" ++ string chainId ++ "]") chainId

/-- `CanUseGsn`. -/
def canUseGsn (f : Contracts C) (chainId : ℤ) : Bool :=
  (f.contractMap (uint64 chainId)).isSome

end Accessors

section Built

variable {C : Type*} {wrap : Address → Client → Except String C} {name : String}
  {address : BridgeChain → Address} {wanted : BridgeChain → Bool}
  {clients : Clients} {chains : List BridgeChain} {made : Contracts C}
  {id : UInt64}

/-- What the loop body writes is the contract of its chain. -/
theorem contractOf_eq_some {chain : BridgeChain} {entry : Address × C}
    (h : contractOf wrap name address wanted clients chain =
      .ok (some (id, entry))) :
    chain.id = id ∧ wanted chain = true ∧ entry.1 = address chain ∧
      ∃ client, getEthClient clients (setUint64 id) = .ok client ∧
        wrap (address chain) client = .ok entry.2 := by
  rw [contractOf] at h
  cases hclient : getEthClient clients (setUint64 chain.id) with
  | error err =>
      rw [hclient] at h
      cases h
  | ok client =>
      rw [hclient] at h
      cases hwanted : wanted chain with
      | false =>
          rw [hwanted] at h
          cases h
      | true =>
          cases hwrap : wrap (address chain) client with
          | error err =>
              simp only [hwanted, hwrap] at h
              cases h
          | ok contract =>
              simp only [hwanted, hwrap] at h
              cases h
              exact ⟨rfl, rfl, rfl, client, hclient, hwrap⟩

/-- A chain that is to have a contract is not skipped. -/
theorem contractOf_wanted {chain : BridgeChain} (hwanted : wanted chain = true)
    {written : Option (UInt64 × (Address × C))}
    (h : contractOf wrap name address wanted clients chain = .ok written) :
    ∃ entry, written = some (chain.id, entry) := by
  simp only [contractOf, hwanted] at h
  split at h
  · cases h
  · simp only [Bool.not_true, Bool.false_eq_true, if_false] at h
    split at h
    · cases h
    · cases h
      exact ⟨_, rfl⟩

/-- Both maps come from one loop, which writes pairs. -/
theorem newContracts_eq_ok
    (hnew : newContracts wrap name address wanted clients chains = .ok made) :
    ∃ m, fill (fun _ => contractOf wrap name address wanted clients)
        (fun _ => none) chains = .ok m ∧
      made = ⟨fun id => (m id).map Prod.fst, fun id => (m id).map Prod.snd⟩ := by
  rw [newContracts] at hnew
  cases hfill : fill (fun _ => contractOf wrap name address wanted clients)
      (fun _ => none) chains with
  | error err =>
      rw [hfill] at hnew
      cases hnew
  | ok m =>
      rw [hfill] at hnew
      cases hnew
      exact ⟨m, rfl, rfl⟩

/-- The chains that have a contract, each with its address. -/
def placed (address : BridgeChain → Address) (wanted : BridgeChain → Bool)
    (chains : List BridgeChain) : List (Config × Address) :=
  (chains.filter wanted).map fun chain => (chain.config, address chain)

/-- The last chain with an id, and its address. -/
def last (placed : List (Config × Address)) (id : UInt64) :
    Option (Config × Address) :=
  placed.reverse.find? fun p => p.1.id == id

theorem mem_of_last {ps : List (Config × Address)} {p : Config × Address}
    (h : last ps id = some p) : p ∈ ps ∧ p.1.id = id := by
  have hid := List.find?_some h
  exact ⟨List.mem_reverse.mp (List.mem_of_find?_eq_some h), beq_iff_eq.mp hid⟩

theorem mem_placed {p : Config × Address} :
    p ∈ placed address wanted chains ↔
      ∃ chain ∈ chains, wanted chain = true ∧ (chain.config, address chain) = p := by
  simp only [placed, List.mem_map, List.mem_filter, and_assoc]

/-- A chain that is to have a contract has one. -/
theorem isSome_contractMap
    (hnew : newContracts wrap name address wanted clients chains = .ok made)
    {chain : BridgeChain} (hchain : chain ∈ chains)
    (hwanted : wanted chain = true) :
    (made.contractMap chain.id).isSome = true := by
  obtain ⟨m, hfill, rfl⟩ := newContracts_eq_ok hnew
  rw [Option.isSome_map]
  exact isSome_of_fill hfill
    (Or.inr ⟨chain, hchain, fun _ _ => contractOf_wanted hwanted⟩)

/-- **THE LAST CHAIN** with an id has written its entry, with the client of that
    id. -/
theorem last_of_fill {m : UInt64 → Option (Address × C)}
    (hfill : fill (fun _ => contractOf wrap name address wanted clients)
      (fun _ => none) chains = .ok m) {entry : Address × C}
    (hentry : m id = some entry) :
    ∃ p client, last (placed address wanted chains) id = some p ∧
      entry.1 = p.2 ∧ clients id = some client ∧
      wrap p.2 client = .ok entry.2 := by
  rcases fill_last hfill hentry with ⟨hnone, -⟩ |
    ⟨before, chain, after, rfl, hbody, hafter⟩
  · cases hnone
  · obtain ⟨hid, hwanted, hfst, client, hclient, hwrap⟩ :=
      contractOf_eq_some hbody
    refine ⟨(chain.config, address chain), client, ?_, hfst, ?_, hwrap⟩
    · rw [last, List.find?_eq_some_iff_append]
      refine ⟨beq_iff_eq.mpr hid, (placed address wanted after).reverse,
        (placed address wanted before).reverse, ?_, ?_⟩
      · simp only [placed, List.filter_append, List.filter_cons_of_pos hwanted,
          List.map_append, List.map_cons, List.reverse_append,
          List.reverse_cons, List.append_assoc, List.singleton_append]
      · intro q hq
        obtain ⟨b, hb, hwantedb, rfl⟩ := mem_placed.mp (List.mem_reverse.mp hq)
        rw [Bool.not_eq_true', beq_eq_false_iff_ne]
        intro hbid
        -- a later chain with the id would have written the entry
        obtain ⟨written, hwritten⟩ := ok_of_fill hfill
          (List.mem_append_right before (List.mem_cons_of_mem chain hb))
        obtain ⟨later, rfl⟩ := contractOf_wanted hwantedb hwritten
        rw [show b.id = id from hbid] at hwritten
        exact hafter b hb later hwritten
    · have hfound := find_eq_ok.mp hclient
      rw [uint64_setUint64] at hfound
      exact hfound

/-- **THE CONTRACT OF AN ID** is at the address of the last chain with it that
    is to have one, and has the client of the id. -/
theorem contracts_last
    (hnew : newContracts wrap name address wanted clients chains = .ok made)
    (id : UInt64) :
    made.addressMap id = (last (placed address wanted chains) id).map Prod.snd ∧
    ∀ contract, made.contractMap id = some contract ↔
      ∃ p client, last (placed address wanted chains) id = some p ∧
        clients id = some client ∧ wrap p.2 client = .ok contract := by
  obtain ⟨m, hfill, rfl⟩ := newContracts_eq_ok hnew
  cases hm : m id with
  | none =>
      have hnone : last (placed address wanted chains) id = none := by
        rw [← Option.not_isSome_iff_eq_none]
        intro hsome
        -- a chain that is to have a contract has an entry
        obtain ⟨p, hp⟩ := Option.isSome_iff_exists.mp hsome
        obtain ⟨hmem, hid⟩ := mem_of_last hp
        obtain ⟨chain, hchain, hwanted, rfl⟩ := mem_placed.mp hmem
        have hentry := isSome_contractMap hnew hchain hwanted
        rw [Option.isSome_map, show chain.id = id from hid, hm] at hentry
        cases hentry
      simp [hm, hnone]
  | some entry =>
      obtain ⟨p, client, hp, hfst, hclient, hwrap⟩ := last_of_fill hfill hm
      refine ⟨by simp [hm, hp, hfst], fun contract => ⟨fun h => ?_, ?_⟩⟩
      · have hsnd : entry.2 = contract := by simpa [hm] using h
        rw [← hsnd]
        exact ⟨p, client, hp, hclient, hwrap⟩
      · rintro ⟨p', client', hp', hclient', hwrap'⟩
        cases hp.symm.trans hp'
        cases hclient.symm.trans hclient'
        cases hwrap.symm.trans hwrap'
        simp [hm]

end Built

/-! ## The GSN node -/

/-- `config.GsnChain`, the fields that are read here. -/
structure GsnChain (Key : Type*) where
  id : UInt64
  rpcUrls : List String
  ecdsaKey : Key
  forwarderAddress : Address

/-- The `eth.Config` that `RunNode` makes for a chain. -/
def GsnChain.config {Key : Type*} (chain : GsnChain Key) : Config :=
  ⟨chain.id, chain.rpcUrls⟩

/-- `bind.TransactOpts`: who signs, and for which chain id. -/
structure TransactOpts (Key : Type*) where
  key : Key
  chainId : ℤ

/-- The GSN node. -/
structure Node (Key : Type*) where
  clients : Clients
  chains : UInt64 → Option (GsnChain Key)

section Gsn

variable {Key C : Type*}

/-- The start of `RunNode`: of several chains with one id the last counts, but
    the client is that of the first. -/
def runNode (chains : List (GsnChain Key)) : Except String (Node Key) :=
  match fill (fun _ chain => .ok (some (chain.id, chain))) (fun _ => none)
      chains with
  | .error err => .error err
  | .ok table =>
      match newClients (chains.map GsnChain.config) with
      | .error err => .error ("init eth clients error: " ++ err)
      | .ok clients => .ok ⟨clients, table⟩

/-- The chain of an id. -/
def Node.chain (n : Node Key) (chainId : ℤ) : Except String (GsnChain Key) :=
  find n.chains ("chain[" ++ string chainId ++ "] error: unsupported now")
    chainId

/-- `GetOwner`. -/
def Node.getOwner (n : Node Key) (chainId : ℤ) :
    Except String (TransactOpts Key) :=
  match n.chain chainId with
  | .error err => .error err
  | .ok chain => .ok ⟨chain.ecdsaKey, chainId⟩

/-- `GetForwarder`. -/
def Node.getForwarder (wrap : Address → Client → Except String C)
    (n : Node Key) (chainId : ℤ) : Except String C :=
  match n.chain chainId with
  | .error err => .error err
  | .ok chain =>
      match getEthClient n.clients chainId with
      | .error err => .error err
      | .ok client => wrap chain.forwarderAddress client

variable {chains : List (GsnChain Key)} {n : Node Key} {chainId : ℤ}

/-- What a GSN node is made of. -/
theorem runNode_eq_ok (hrun : runNode chains = .ok n) :
    fill (fun _ chain => .ok (some (chain.id, chain))) (fun _ => none) chains =
      (.ok n.chains : Except String _) ∧
    newClients (chains.map GsnChain.config) = .ok n.clients := by
  rw [runNode] at hrun
  split at hrun
  · cases hrun
  · rename_i table htable
    split at hrun
    · cases hrun
    · rename_i clients hclients
      cases hrun
      exact ⟨htable, hclients⟩

/-- **THE CHAIN OF AN ID** is the last one with it. -/
theorem chains_last (hrun : runNode chains = .ok n) (id : UInt64) :
    n.chains id = chains.reverse.find? fun chain => chain.id == id := by
  have hfill := (runNode_eq_ok hrun).1
  cases hchain : n.chains id with
  | none =>
      symm
      rw [List.find?_eq_none]
      intro chain hmem hid
      have hsome : (n.chains id).isSome = true := by
        refine isSome_of_fill hfill (Or.inr ⟨chain, List.mem_reverse.mp hmem, ?_⟩)
        intro _ written hwritten
        rw [← beq_iff_eq.mp hid]
        exact ⟨chain, (Except.ok.inj hwritten).symm⟩
      rw [hchain] at hsome
      cases hsome
  -- the entry is that of the last chain with the id
  | some chain =>
      rcases fill_last hfill hchain with ⟨hnone, -⟩ |
        ⟨before, chain', after, hsplit, hbody, hafter⟩
      · cases hnone
      · cases hbody
        symm
        rw [List.find?_eq_some_iff_append]
        refine ⟨beq_self_eq_true _, after.reverse, before.reverse, ?_, ?_⟩
        · rw [hsplit, List.reverse_append, List.reverse_cons, List.append_assoc,
            List.singleton_append]
        · intro b hb
          rw [Bool.not_eq_true', beq_eq_false_iff_ne]
          intro hid
          exact hafter b (List.mem_reverse.mp hb) b (by rw [hid])

end Gsn

/-! ## Chain ids that are matched exactly -/

section Exact

variable {Key B F C : Type*}

/-- An integer that is an id fits into 64 bits. -/
theorem fits_of_setUint64 {id : UInt64} {chainId : ℤ}
    (h : setUint64 id = chainId) :
    uint64 chainId = id ∧ 0 ≤ chainId ∧ chainId < 2 ^ 64 := by
  subst h
  exact ⟨uint64_setUint64 id,
    setUint64_uint64.mp (by rw [uint64_setUint64])⟩

/-- A contract is bound to an address and a client, and keeps both. -/
structure Binds (wrap : Address → Client → Except String C) : Prop where
  ok : ∀ address client, ∃ contract, wrap address client = .ok contract
  keeps : ∀ {address address' client client' contract},
    wrap address client = .ok contract →
    wrap address' client' = .ok contract →
    address = address' ∧ client = client'

/-- The contract that a chain has by itself, at its address and with a client
    of its own urls. -/
def ContractFor (wrap : Address → Client → Except String C)
    (p : Config × Address) (contract : C) : Prop :=
  ∃ client, newClientOf p.1.id.toNat p.1.urls = .ok client ∧
    wrap p.2 client = .ok contract

/-- Whatever the accessors of a bridge node give for an id, it is the object of
    a configured chain with exactly this id. -/
structure BridgeExact (wrapBridge : Address → Client → Except String B)
    (wrapForwarder : Address → Client → Except String F)
    (chains : List BridgeChain) (clients : Clients) (b : Contracts B)
    (f : Contracts F) (chainId : ℤ) : Prop where
  isEth : isEth clients chainId = true →
    ∃ chain ∈ chains, setUint64 chain.id = chainId
  client : ∀ client, getEthClient clients chainId = .ok client ∨
      addWatcher clients chainId = .ok client →
    ∃ chain ∈ chains, setUint64 chain.id = chainId ∧
      newClientOf chain.id.toNat chain.rpcUrls = .ok client
  bridge : ∀ bridge, getBridge b chainId = .ok bridge →
    ∃ chain ∈ chains, setUint64 chain.id = chainId ∧
      ContractFor wrapBridge (chain.config, chain.bridgeAddress) bridge
  bridgeAddress : ∀ address, getBridgeAddress b chainId = .ok address →
    ∃ chain ∈ chains, setUint64 chain.id = chainId ∧
      address = chain.bridgeAddress
  forwarder : ∀ forwarder, getForwarder f chainId = .ok forwarder →
    ∃ chain ∈ chains, setUint64 chain.id = chainId ∧
      chain.hasForwarder = true ∧
      ContractFor wrapForwarder (chain.config, chain.forwarderAddress) forwarder
  forwarderAddress : ∀ address, getForwarderAddress f chainId = .ok address →
    ∃ chain ∈ chains, setUint64 chain.id = chainId ∧
      chain.hasForwarder = true ∧ address = chain.forwarderAddress
  canUseGsn : canUseGsn f chainId = true →
    ∃ chain ∈ chains, setUint64 chain.id = chainId ∧
      chain.hasForwarder = true

/-- The same of a GSN node. -/
structure GsnExact (wrapForwarder : Address → Client → Except String F)
    (chains : List (GsnChain Key)) (n : Node Key) (chainId : ℤ) : Prop where
  owner : ∀ owner, n.getOwner chainId = .ok owner →
    ∃ chain ∈ chains, setUint64 chain.id = chainId ∧
      owner = ⟨chain.ecdsaKey, chainId⟩
  forwarder : ∀ forwarder, n.getForwarder wrapForwarder chainId = .ok forwarder →
    ∃ chain ∈ chains, setUint64 chain.id = chainId ∧
      ContractFor wrapForwarder (chain.config, chain.forwarderAddress) forwarder

/-- The urls of the first chain with an id, which the client is made from, and
    the address of the last one belong to one chain. -/
def Unmixed (cfgs : List Config) (ps : List (Config × Address))
    (id : UInt64) : Prop :=
  ∀ cfg p, first cfgs id = some cfg → last ps id = some p → (cfg, p.2) ∈ ps

/-- The bridges, the forwarders, and the forwarders of a GSN node. -/
def bridges (chains : List BridgeChain) : List (Config × Address) :=
  placed BridgeChain.bridgeAddress (fun _ => true) chains

def forwarders (chains : List BridgeChain) : List (Config × Address) :=
  placed BridgeChain.forwarderAddress BridgeChain.hasForwarder chains

def gsnForwarders (chains : List (GsnChain Key)) : List (Config × Address) :=
  chains.map fun chain => (chain.config, chain.forwarderAddress)

/-- A client tells what it was made from. -/
theorem newClientOf_inj {id id' : ℕ} {urls urls' : List String} {client : Client}
    (h : newClientOf id urls = .ok client)
    (h' : newClientOf id' urls' = .ok client) : urls = urls' := by
  rw [newClientOf] at h h'
  split at h
  · cases h
  · split at h'
    · cases h'
    · cases h
      exact (congrArg Client.urls (Except.ok.inj h')).symm

variable {wrap : Address → Client → Except String C} {cfgs : List Config}
  {clients : Clients} {ps : List (Config × Address)} {id : UInt64}

/-- **CONTRACTS OF ONE CHAIN**: the contract at the last address with the
    client of the id is that of a chain exactly if nothing is mixed. -/
theorem unmixed_iff (hwrap : Binds wrap) (hnew : newClients cfgs = .ok clients) :
    Unmixed cfgs ps id ↔ ∀ p client contract, last ps id = some p →
      clients id = some client → wrap p.2 client = .ok contract →
      ∃ q ∈ ps, q.1.id = id ∧ ContractFor wrap q contract := by
  constructor
  · intro hunmixed p client contract hp hclient hcontract
    rcases clients_first hnew id with ⟨-, hnone⟩ |
      ⟨cfg, client', hfirst, hmade, hclient'⟩
    · cases hnone.symm.trans hclient
    · cases hclient.symm.trans hclient'
      exact ⟨(cfg, p.2), hunmixed cfg p hfirst hp, (mem_of_first hfirst).2,
        client, hmade, hcontract⟩
  -- the contract that is given has the client of the first and the address of the
  -- last, and belongs to one chain
  · intro hexact cfg p hfirst hp
    rcases clients_first hnew id with ⟨hnone, -⟩ |
      ⟨cfg', client, hfirst', hmade, hclient⟩
    · cases hnone.symm.trans hfirst
    · cases hfirst.symm.trans hfirst'
      obtain ⟨contract, hcontract⟩ := hwrap.ok p.2 client
      obtain ⟨q, hq, hid, client', hmade', hcontract'⟩ :=
        hexact p client contract hp hclient hcontract
      obtain ⟨haddress, rfl⟩ := hwrap.keeps hcontract' hcontract
      have hcfg : q.1 = cfg := by
        have hids : q.1.id = cfg.id := hid.trans (mem_of_first hfirst).2.symm
        have hurls : q.1.urls = cfg.urls := newClientOf_inj hmade' hmade
        obtain ⟨⟨qid, qurls⟩, qaddress⟩ := q
        obtain ⟨cid, curls⟩ := cfg
        cases hids
        cases hurls
        rfl
      rw [← haddress, ← hcfg]
      exact hq

/-- Some chain has the id. -/
theorem clients_some (hnew : newClients cfgs = .ok clients)
    (hsome : ∃ cfg ∈ cfgs, cfg.id = id) : (clients id).isSome = true := by
  rcases clients_first hnew id with ⟨hnone, -⟩ | ⟨-, client, -, -, hclient⟩
  · obtain ⟨cfg, hcfg, hid⟩ := hsome
    rw [first, List.find?_eq_none] at hnone
    exact absurd (beq_iff_eq.mpr hid) (hnone cfg hcfg)
  · rw [hclient]
    rfl

variable {wrapBridge : Address → Client → Except String B}
  {wrapForwarder : Address → Client → Except String F}
  {chains : List BridgeChain} {gsnChains : List (GsnChain Key)}
  {b : Contracts B} {f : Contracts F} {n : Node Key} {chainId : ℤ}

/-- `Uint64` keeps the id, or what it makes of it is no configured id. -/
theorem keeps_iff {ids : UInt64 → Prop} :
    (∀ id, ids id → id = uint64 chainId → setUint64 id = chainId) ↔
      (0 ≤ chainId ∧ chainId < 2 ^ 64) ∨ ¬ ids (uint64 chainId) := by
  rw [← setUint64_uint64]
  constructor
  · intro h
    by_cases hid : ids (uint64 chainId)
    · exact Or.inl (h _ hid rfl)
    · exact Or.inr hid
  · rintro (h | h) id hid rfl
    · exact h
    · exact absurd hid h

/-- The address of an id belongs to a chain with the low part of it. -/
theorem address_of_last {address : BridgeChain → Address}
    {wanted : BridgeChain → Bool} {a : Address}
    (h : (last (placed address wanted chains) id).map Prod.snd = some a) :
    ∃ chain ∈ chains, chain.id = id ∧ wanted chain = true ∧
      a = address chain := by
  obtain ⟨p, hp, rfl⟩ := Option.map_eq_some_iff.mp h
  obtain ⟨hmem, hid⟩ := mem_of_last hp
  obtain ⟨chain, hchain, hwanted, rfl⟩ := mem_placed.mp hmem
  exact ⟨chain, hchain, hid, hwanted, rfl⟩

/-- The contract of an id is that of one chain, where nothing is mixed. -/
theorem contract_of_last {name : String} {address : BridgeChain → Address}
    {wanted : BridgeChain → Bool} {made : Contracts C} {contract : C}
    (hwrap : Binds wrap) (hclients : newClients cfgs = .ok clients)
    (hmade : newContracts wrap name address wanted clients chains = .ok made)
    (hunmixed : Unmixed cfgs (placed address wanted chains) id)
    (h : made.contractMap id = some contract) :
    ∃ chain ∈ chains, chain.id = id ∧ wanted chain = true ∧
      ContractFor wrap (chain.config, address chain) contract := by
  obtain ⟨p, client, hp, hclient, hcontract⟩ :=
    ((contracts_last hmade id).2 contract).mp h
  obtain ⟨q, hq, hid, hfor⟩ := (unmixed_iff hwrap hclients).mp hunmixed
    p client contract hp hclient hcontract
  obtain ⟨chain, hchain, hwanted, rfl⟩ := mem_placed.mp hq
  exact ⟨chain, hchain, hid, hwanted, hfor⟩

/-- Only where nothing is mixed. -/
theorem unmixed_of_contract {name : String} {address : BridgeChain → Address}
    {wanted : BridgeChain → Bool} {made : Contracts C}
    (hwrap : Binds wrap) (hclients : newClients cfgs = .ok clients)
    (hmade : newContracts wrap name address wanted clients chains = .ok made)
    (h : ∀ contract, made.contractMap id = some contract →
      ∃ chain ∈ chains, chain.id = id ∧ wanted chain = true ∧
        ContractFor wrap (chain.config, address chain) contract) :
    Unmixed cfgs (placed address wanted chains) id := by
  refine (unmixed_iff hwrap hclients).mpr ?_
  intro p client contract hp hclient hcontract
  obtain ⟨chain, hchain, hid, hwanted, hfor⟩ := h contract
    (((contracts_last hmade id).2 contract).mpr
      ⟨p, client, hp, hclient, hcontract⟩)
  exact ⟨(chain.config, address chain),
    mem_placed.mpr ⟨chain, hchain, hwanted, rfl⟩, hid, hfor⟩

/-- For a bridge node: every configured id that is looked up is the one asked for,
    and neither its bridges nor its forwarders are mixed. -/
theorem bridgeExact_iff (hwrap : Binds wrapBridge) (hwrap' : Binds wrapForwarder)
    (hclients : newClients (chains.map BridgeChain.config) = .ok clients)
    (hbridge : newBridge wrapBridge clients chains = .ok b)
    (hforwarder : newForwarder wrapForwarder clients chains = .ok f) :
    BridgeExact wrapBridge wrapForwarder chains clients b f chainId ↔
      (∀ id, (∃ chain ∈ chains, chain.id = id) → id = uint64 chainId →
        setUint64 id = chainId) ∧
      Unmixed (chains.map BridgeChain.config) (bridges chains)
        (uint64 chainId) ∧
      Unmixed (chains.map BridgeChain.config) (forwarders chains)
        (uint64 chainId) := by
  constructor
  · intro h
    refine ⟨?_, ?_, ?_⟩
    · -- a configured chain makes `IsEth` true
      rintro id ⟨chain, hchain, hid⟩ rfl
      have hsome : (clients (uint64 chainId)).isSome = true :=
        clients_some hclients
          ⟨chain.config, List.mem_map_of_mem hchain, hid⟩
      obtain ⟨chain', -, hexact⟩ := h.isEth hsome
      rw [(fits_of_setUint64 hexact).1]
      exact hexact
    · refine unmixed_of_contract hwrap hclients hbridge fun contract hfound => ?_
      obtain ⟨chain, hchain, hexact, hfor⟩ :=
        h.bridge contract (find_eq_ok.mpr hfound)
      exact ⟨chain, hchain, (fits_of_setUint64 hexact).1.symm, rfl, hfor⟩
    · refine unmixed_of_contract hwrap' hclients hforwarder
        fun contract hfound => ?_
      obtain ⟨chain, hchain, hexact, hhas, hfor⟩ :=
        h.forwarder contract (find_eq_ok.mpr hfound)
      exact ⟨chain, hchain, (fits_of_setUint64 hexact).1.symm, hhas, hfor⟩
  · rintro ⟨hkeeps, hbridges, hforwarders⟩
    have hexact : ∀ chain ∈ chains, chain.id = uint64 chainId →
        setUint64 chain.id = chainId :=
      fun chain hchain hid => hkeeps chain.id ⟨chain, hchain, rfl⟩ hid
    -- a client is made from a chain with the id
    have hclient : ∀ client, clients (uint64 chainId) = some client →
        ∃ chain ∈ chains, setUint64 chain.id = chainId ∧
          newClientOf chain.id.toNat chain.rpcUrls = .ok client := by
      intro client hfound
      rcases clients_first hclients (uint64 chainId) with ⟨-, hnone⟩ |
        ⟨cfg, client', hfirst, hmade, hsome⟩
      · cases hnone.symm.trans hfound
      · cases hsome.symm.trans hfound
        obtain ⟨hmem, hid⟩ := mem_of_first hfirst
        obtain ⟨chain, hchain, rfl⟩ := List.mem_map.mp hmem
        exact ⟨chain, hchain, hexact chain hchain hid, hmade⟩
    exact {
      isEth := by
        intro hsome
        obtain ⟨client, hfound⟩ := Option.isSome_iff_exists.mp hsome
        obtain ⟨chain, hchain, hid, -⟩ := hclient client hfound
        exact ⟨chain, hchain, hid⟩
      client := fun client hfound =>
        hclient client (hfound.elim find_eq_ok.mp find_eq_ok.mp)
      bridge := by
        intro bridge hfound
        obtain ⟨chain, hchain, hid, -, hfor⟩ := contract_of_last hwrap hclients
          hbridge hbridges (find_eq_ok.mp hfound)
        exact ⟨chain, hchain, hexact chain hchain hid, hfor⟩
      bridgeAddress := by
        intro address hfound
        have hlast := find_eq_ok.mp hfound
        rw [(contracts_last hbridge (uint64 chainId)).1] at hlast
        obtain ⟨chain, hchain, hid, -, rfl⟩ := address_of_last hlast
        exact ⟨chain, hchain, hexact chain hchain hid, rfl⟩
      forwarder := by
        intro forwarder hfound
        obtain ⟨chain, hchain, hid, hhas, hfor⟩ := contract_of_last hwrap'
          hclients hforwarder hforwarders (find_eq_ok.mp hfound)
        exact ⟨chain, hchain, hexact chain hchain hid, hhas, hfor⟩
      forwarderAddress := by
        intro address hfound
        have hlast := find_eq_ok.mp hfound
        rw [(contracts_last hforwarder (uint64 chainId)).1] at hlast
        obtain ⟨chain, hchain, hid, hhas, rfl⟩ := address_of_last hlast
        exact ⟨chain, hchain, hexact chain hchain hid, hhas, rfl⟩
      canUseGsn := by
        intro hsome
        obtain ⟨forwarder, hfound⟩ := Option.isSome_iff_exists.mp hsome
        obtain ⟨chain, hchain, hid, hhas, -⟩ := contract_of_last hwrap' hclients
          hforwarder hforwarders hfound
        exact ⟨chain, hchain, hexact chain hchain hid, hhas⟩ }

/-- What the forwarder of a GSN node is. -/
theorem Node.getForwarder_eq_ok (hrun : runNode gsnChains = .ok n)
    {forwarder : F} :
    n.getForwarder wrapForwarder chainId = .ok forwarder ↔
      ∃ p client, last (gsnForwarders gsnChains) (uint64 chainId) = some p ∧
        n.clients (uint64 chainId) = some client ∧
        wrapForwarder p.2 client = .ok forwarder := by
  have hlast : last (gsnForwarders gsnChains) (uint64 chainId) =
      (n.chains (uint64 chainId)).map
        fun chain => (chain.config, chain.forwarderAddress) := by
    rw [chains_last hrun, last, gsnForwarders, ← List.map_reverse,
      List.find?_map]
    rfl
  rw [Node.getForwarder, Node.chain, getEthClient, hlast, find, find]
  cases n.chains (uint64 chainId) with
  | none => simp
  | some chain =>
      cases n.clients (uint64 chainId) with
      | none => simp
      | some client => simp

/-- The same for a GSN node, which has no bridges. -/
theorem gsnExact_iff (hwrap : Binds wrapForwarder)
    (hrun : runNode gsnChains = .ok n) :
    GsnExact wrapForwarder gsnChains n chainId ↔
      (∀ id, (∃ chain ∈ gsnChains, chain.id = id) → id = uint64 chainId →
        setUint64 id = chainId) ∧
      Unmixed (gsnChains.map GsnChain.config) (gsnForwarders gsnChains)
        (uint64 chainId) := by
  have hclients := (runNode_eq_ok hrun).2
  have howner : ∀ owner, n.getOwner chainId = .ok owner ↔
      ∃ chain, n.chains (uint64 chainId) = some chain ∧
        (⟨chain.ecdsaKey, chainId⟩ : TransactOpts Key) = owner := by
    intro owner
    rw [Node.getOwner, Node.chain, find]
    cases n.chains (uint64 chainId) with
    | none => simp
    | some chain => simp
  have hchains : ∀ chain, n.chains (uint64 chainId) = some chain →
      chain ∈ gsnChains ∧ chain.id = uint64 chainId := by
    intro chain hchain
    rw [chains_last hrun] at hchain
    have hid := List.find?_some hchain
    exact ⟨List.mem_reverse.mp (List.mem_of_find?_eq_some hchain),
      beq_iff_eq.mp hid⟩
  constructor
  · intro h
    constructor
    · -- the last chain with the id gives an owner
      rintro id ⟨chain, hchain, hid⟩ rfl
      cases hfound : n.chains (uint64 chainId) with
      | none =>
          rw [chains_last hrun, List.find?_eq_none] at hfound
          exact absurd (beq_iff_eq.mpr hid)
            (hfound chain (List.mem_reverse.mpr hchain))
      | some chain' =>
          obtain ⟨chain'', -, hexact, -⟩ :=
            h.owner _ ((howner _).mpr ⟨chain', hfound, rfl⟩)
          rw [(fits_of_setUint64 hexact).1]
          exact hexact
    · refine (unmixed_iff hwrap hclients).mpr ?_
      intro p client contract hp hclient hcontract
      obtain ⟨chain, hchain, hexact, hfor⟩ := h.forwarder contract
        ((Node.getForwarder_eq_ok hrun).mpr ⟨p, client, hp, hclient, hcontract⟩)
      exact ⟨(chain.config, chain.forwarderAddress),
        List.mem_map_of_mem hchain, (fits_of_setUint64 hexact).1.symm, hfor⟩
  · rintro ⟨hkeeps, hunmixed⟩
    constructor
    · intro owner hfound
      obtain ⟨chain, hchain, rfl⟩ := (howner owner).mp hfound
      obtain ⟨hmem, hid⟩ := hchains chain hchain
      exact ⟨chain, hmem, hkeeps chain.id ⟨chain, hmem, rfl⟩ hid, rfl⟩
    · intro forwarder hfound
      obtain ⟨p, client, hp, hclient, hcontract⟩ :=
        (Node.getForwarder_eq_ok hrun).mp hfound
      obtain ⟨q, hq, hid, hfor⟩ := (unmixed_iff hwrap hclients).mp hunmixed
        p client forwarder hp hclient hcontract
      obtain ⟨chain, hchain, rfl⟩ := List.mem_map.mp hq
      exact ⟨chain, hchain, hkeeps chain.id ⟨chain, hchain, rfl⟩ hid, hfor⟩

/-- **WHEN CHAIN IDS ARE MATCHED EXACTLY**: whatever a bridge node or a GSN
    node gives for a chain id is the object of a configured chain with exactly
    this id, if and only if the id is from `0` to `2 ^ 64 - 1`, or its low part
    is no configured id, and no two chains with the id are mixed. -/
theorem chain_ids_exact (hwrap : Binds wrapBridge) (hwrap' : Binds wrapForwarder)
    (hclients : newClients (chains.map BridgeChain.config) = .ok clients)
    (hbridge : newBridge wrapBridge clients chains = .ok b)
    (hforwarder : newForwarder wrapForwarder clients chains = .ok f)
    (hnode : runNode gsnChains = .ok n) (chainId : ℤ) :
    (BridgeExact wrapBridge wrapForwarder chains clients b f chainId ↔
      ((0 ≤ chainId ∧ chainId < 2 ^ 64) ∨
        ¬ ∃ chain ∈ chains, chain.id = uint64 chainId) ∧
      Unmixed (chains.map BridgeChain.config) (bridges chains)
        (uint64 chainId) ∧
      Unmixed (chains.map BridgeChain.config) (forwarders chains)
        (uint64 chainId)) ∧
    (GsnExact wrapForwarder gsnChains n chainId ↔
      ((0 ≤ chainId ∧ chainId < 2 ^ 64) ∨
        ¬ ∃ chain ∈ gsnChains, chain.id = uint64 chainId) ∧
      Unmixed (gsnChains.map GsnChain.config) (gsnForwarders gsnChains)
        (uint64 chainId)) := by
  rw [bridgeExact_iff hwrap hwrap' hclients hbridge hforwarder,
    gsnExact_iff hwrap' hnode, keeps_iff, keeps_iff]
  exact ⟨Iff.rfl, Iff.rfl⟩

end Exact

/-! ## One chain -/

/-- A configuration with the chain 1 only. -/
def chainOne : BridgeChain :=
  ⟨1, ["ws://node"], Vector.replicate 20 1, Vector.replicate 20 2, true⟩

def gsnChainOne : GsnChain String :=
  ⟨1, ["ws://node"], "key", Vector.replicate 20 2⟩

/-- A contract, known by its address and its client. -/
def boundTo (address : Address) (client : Client) :
    Except String (Address × Client) :=
  .ok (address, client)

theorem boundTo_binds : Binds boundTo where
  ok address client := ⟨(address, client), rfl⟩
  keeps h h' := Prod.mk.inj (Except.ok.inj (h.trans h'.symm))

def clientOne : Client := newClient 1 ["ws://node"]

def clientsOne : Clients := set (fun _ => none) 1 clientOne

/-- The maps of one contract on chain 1. -/
def contractsOne (address : Address) : Contracts (Address × Client) where
  addressMap id :=
    (set (fun _ => none) 1 (address, (address, clientOne)) id).map Prod.fst
  contractMap id :=
    (set (fun _ => none) 1 (address, (address, clientOne)) id).map Prod.snd

def nodeOne : Node String :=
  ⟨clientsOne, set (fun _ => none) 1 gsnChainOne⟩

theorem newClients_chainOne :
    newClients ([chainOne].map BridgeChain.config) = .ok clientsOne := rfl

theorem newBridge_chainOne :
    newBridge boundTo clientsOne [chainOne] =
      .ok (contractsOne chainOne.bridgeAddress) := rfl

theorem newForwarder_chainOne :
    newForwarder boundTo clientsOne [chainOne] =
      .ok (contractsOne chainOne.forwarderAddress) := rfl

theorem runNode_chainOne : runNode [gsnChainOne] = .ok nodeOne := rfl

/-- One chain is not mixed with another. -/
theorem unmixed_single {cfg : Config} {address : Address} {id : UInt64} :
    Unmixed [cfg] [(cfg, address)] id := by
  intro cfg' p hfirst hlast
  rw [List.mem_singleton.mp (mem_of_first hfirst).1,
    List.mem_singleton.mp (mem_of_last hlast).1]
  exact List.mem_singleton_self _

/-- A second chain with the id 1, and the node that has both. -/
def gsnChainTwin : GsnChain String :=
  ⟨1, ["ws://other"], "other key", Vector.replicate 20 3⟩

def nodeTwins : Node String :=
  ⟨clientsOne, set (set (fun _ => none) 1 gsnChainOne) 1 gsnChainTwin⟩

theorem runNode_twins : runNode [gsnChainOne, gsnChainTwin] = .ok nodeTwins := rfl

/-- With chain 1 alone, 1 finds it, and the other ids but those with the low
    part 1 find nothing; a forwarder of two chains with the id 1 has the client
    of one and the address of the other. -/
theorem chain_ids_exact_one :
    (∀ chainId ∈ [(1 : ℤ), 5, 2 ^ 64 + 2, 2 ^ 65, -7],
      BridgeExact boundTo boundTo [chainOne] clientsOne
        (contractsOne chainOne.bridgeAddress)
        (contractsOne chainOne.forwarderAddress) chainId ∧
      GsnExact boundTo [gsnChainOne] nodeOne chainId) ∧
    getBridge (contractsOne chainOne.bridgeAddress) 1 =
      .ok (chainOne.bridgeAddress, clientOne) ∧
    ¬ BridgeExact boundTo boundTo [chainOne] clientsOne
      (contractsOne chainOne.bridgeAddress)
      (contractsOne chainOne.forwarderAddress) (2 ^ 64 + 1) ∧
    ¬ GsnExact boundTo [gsnChainOne, gsnChainTwin] nodeTwins 1 := by
  have hkept : ∀ chainId ∈ [(1 : ℤ), 5, 2 ^ 64 + 2, 2 ^ 65, -7],
      ((0 ≤ chainId ∧ chainId < 2 ^ 64) ∨
        ¬ ∃ chain ∈ [chainOne], chain.id = uint64 chainId) ∧
      ((0 ≤ chainId ∧ chainId < 2 ^ 64) ∨
        ¬ ∃ chain ∈ [gsnChainOne], chain.id = uint64 chainId) := by
    decide
  -- ids that fit, or are unknown; one that is cut to a configured id; two chains
  -- with one id
  refine ⟨fun chainId hmem => ?_, rfl, fun h => ?_, fun h => ?_⟩
  · obtain ⟨hbridge, hgsn⟩ := chain_ids_exact boundTo_binds boundTo_binds
      newClients_chainOne newBridge_chainOne newForwarder_chainOne
      runNode_chainOne chainId
    obtain ⟨hchain, hchain'⟩ := hkept chainId hmem
    exact ⟨hbridge.mpr ⟨hchain, unmixed_single, unmixed_single⟩,
      hgsn.mpr ⟨hchain', unmixed_single⟩⟩
  · rw [(chain_ids_exact boundTo_binds boundTo_binds
      newClients_chainOne newBridge_chainOne newForwarder_chainOne
      runNode_chainOne (2 ^ 64 + 1)).1] at h
    exact absurd h.1 (by decide)
  · rw [(chain_ids_exact boundTo_binds boundTo_binds
      newClients_chainOne newBridge_chainOne newForwarder_chainOne
      runNode_twins 1).2] at h
    have hmixed := h.2 _ _ rfl rfl
    revert hmixed
    decide

/-- Chain 1 answers for every id whose low 64 bits are 1. -/
theorem routed_to_one {chainId : ℤ} (h : uint64 chainId = 1) :
    isEth clientsOne chainId = true ∧
    getEthClient clientsOne chainId = .ok clientOne ∧
    addWatcher clientsOne chainId = .ok clientOne ∧
    getBridge (contractsOne chainOne.bridgeAddress) chainId =
      .ok (chainOne.bridgeAddress, clientOne) ∧
    getBridgeAddress (contractsOne chainOne.bridgeAddress) chainId =
      .ok chainOne.bridgeAddress ∧
    getForwarder (contractsOne chainOne.forwarderAddress) chainId =
      .ok (chainOne.forwarderAddress, clientOne) ∧
    getForwarderAddress (contractsOne chainOne.forwarderAddress) chainId =
      .ok chainOne.forwarderAddress ∧
    canUseGsn (contractsOne chainOne.forwarderAddress) chainId = true ∧
    nodeOne.getOwner chainId = .ok ⟨"key", chainId⟩ ∧
    nodeOne.getForwarder boundTo chainId =
      .ok (chainOne.forwarderAddress, clientOne) := by
  simp only [isEth, getEthClient, addWatcher, getBridge, getBridgeAddress,
    getForwarder, getForwarderAddress, canUseGsn, Node.getOwner,
    Node.getForwarder, Node.chain, find, h]
  exact ⟨rfl, rfl, rfl, rfl, rfl, rfl, rfl, rfl, rfl, rfl⟩

/-- **ANOTHER CHAIN ANSWERS**: with chain 1 alone configured, the ids
    `2 ^ 64 + 1`, which a decimal text can name, and `-1` are served by it. -/
theorem chain_id_misrouted :
    newClients [chainOne.config] = .ok clientsOne ∧
    newBridge boundTo clientsOne [chainOne] =
      .ok (contractsOne chainOne.bridgeAddress) ∧
    newForwarder boundTo clientsOne [chainOne] =
      .ok (contractsOne chainOne.forwarderAddress) ∧
    runNode [gsnChainOne] = .ok nodeOne ∧
    setString "18446744073709551617" = some (2 ^ 64 + 1) ∧
    ∀ chainId ∈ [(2 ^ 64 + 1 : ℤ), -1],
      setUint64 chainOne.id ≠ chainId ∧ setUint64 gsnChainOne.id ≠ chainId ∧
      isEth clientsOne chainId = true ∧
      getEthClient clientsOne chainId = .ok clientOne ∧
      addWatcher clientsOne chainId = .ok clientOne ∧
      getBridge (contractsOne chainOne.bridgeAddress) chainId =
        .ok (chainOne.bridgeAddress, clientOne) ∧
      getBridgeAddress (contractsOne chainOne.bridgeAddress) chainId =
        .ok chainOne.bridgeAddress ∧
      getForwarder (contractsOne chainOne.forwarderAddress) chainId =
        .ok (chainOne.forwarderAddress, clientOne) ∧
      getForwarderAddress (contractsOne chainOne.forwarderAddress) chainId =
        .ok chainOne.forwarderAddress ∧
      canUseGsn (contractsOne chainOne.forwarderAddress) chainId = true ∧
      nodeOne.getOwner chainId = .ok ⟨"key", chainId⟩ ∧
      nodeOne.getForwarder boundTo chainId =
        .ok (chainOne.forwarderAddress, clientOne) := by
  refine ⟨newClients_chainOne, newBridge_chainOne, newForwarder_chainOne,
    runNode_chainOne, by decide, ?_⟩
  intro chainId hmem
  have hlow : uint64 chainId = 1 ∧ chainId ≠ 1 := by
    rcases List.mem_pair.mp hmem with rfl | rfl
    · decide
    · decide
  exact ⟨hlow.2.symm, hlow.2.symm, routed_to_one hlow.1⟩

end RelayerChains
