import Relayer.DeferProofs

/-! # Registering a node

    `RegisterNode` of `node/bridge/init.go`, with the registry of
    `node/contracts/registry.go` that it creates the relayer through, and the
    part of `main` that calls it.

    * `registerNode` has every call that can fail, for any outcomes (`World`);
    * `World.RefusesNil` is what is assumed of signing;
    * `Reaches` and `Signs` say how far a run comes, `Submits`, `Stranded` and
      `Succeeds` what becomes of it;
    * **`registration_outcome`**: a transaction is submitted only over the gas
      station.  Without one the registry is asked for a session, which it makes
      with a client that it does not have, and the command panics.  An error of
      `NodeExists` counts as a node that is not registered; and whatever becomes
      of a submitted transaction, the exit code is 0. -/

namespace RelayerRegister

open Defers

/-! ## The registry -/

/-- An error that is returned, or a panic: both leave a function through its
    deferred calls. -/
inductive Failure where
  | error (text : String)
  | panic (text : String)
  deriving DecidableEq, Repr

/-- The runtime error of a call on a nil interface. -/
def nilDereference : Failure :=
  .panic "runtime error: invalid memory address or nil pointer dereference"

/-- `registry`, with a client of any type. -/
structure Registry (C : Type) where
  client : Option C
  address : String

/-- `NewRegistry`: the client is used for the contracts, and not kept. -/
def newRegistry {C : Type} (address : String) (_client : C) : Registry C where
  client := none
  address := address

/-- `NodeRegistrySession`: how it fails, if it does; `callOpt` is the error of
    `CallOpt`. -/
def nodeRegistrySession {C : Type} (r : Registry C) (callOpt : C → Option String) :
    Option Failure :=
  match r.client with
  | none => some nilDereference
  | some client =>
      (callOpt client).map fun err =>
        .error ("get node registry session error: " ++
          ("get registry call option error " ++ err))

/-! ## `RegisterNode` -/

/-- What the command opens, a submitted transaction being left to the chain. -/
inductive Resource where
  | context
  | clients
  | host
  | dht
  | gsnClient
  | transaction
  | iterator
  deriving DecidableEq, Repr

/-- What is closed by a `defer`: `cancel`, `clientsClose` and `it.Close`. -/
def isDeferred : Resource → Bool
  | .context | .clients | .iterator => true
  | _ => false

/-- The outcomes of the calls: an error, if there is one. -/
structure World where
  loadSecp256k1Key : Option String
  newNodeWithClients : Option String
  loadBlsPublicKey : Option String
  newHostFromKeyFile : Option String
  writeHostAddrToConfig : Option String
  useGsn : Bool
  initDHT : Option String
  newGsnClient : Option String
  waitForDiscoveryGsn : Option String
  regChainId : ℕ
  getEthClient : Option String
  nodeExists : Except String Bool
  newERC20Permit : Option String
  nonces : Except String ℕ
  balanceOf : Except String ℕ
  /-- By the texts of the value and of the nonce of the permit. -/
  signTypedData : String → String → Option String
  canUseGsn : Bool
  nodeRegistryCreateNode : Option String
  nodeRegistryAddress : String
  callOpt : Option String
  createRelayer : Option String
  waitTransaction : Option String
  filterCreatedRelayer : Option String

/-- `String` of a number whose error is dropped: one that could not be read is
    nil. -/
def numberText : Except String ℕ → String
  | .ok n => toString n
  | .error _ => "<nil>"

/-- `SignErc20Permit`: it fails where signing does. -/
def signErc20Permit (w : World) : Option String :=
  w.signTypedData (numberText w.balanceOf) (numberText w.nonces)

/-- What may be assumed of signing: the text of nil is none of a number. -/
def World.RefusesNil (w : World) : Prop :=
  ∀ value nonce, value = "<nil>" ∨ nonce = "<nil>" →
    (w.signTypedData value nonce).isSome = true

/-- The part for the gas station. -/
def connectGsn (w : World) : Prog Resource Failure Unit :=
  if w.useGsn then do
    check (w.initDHT.map fun err =>
      .error ("can not init DHT on error: " ++ err ++ " "))
    opens .dht
    check (w.newGsnClient.map fun err =>
      .error ("can not init gsn client on error: " ++ err ++ " "))
    opens .gsnClient
    check (w.waitForDiscoveryGsn.map fun err =>
      .error ("can not discover gsn node on error: " ++ err ++ " "))
  else pure ()

/-- The transaction goes over the gas station: there is a forwarder for the
    chain, and a client of the gas station. -/
def World.overGsn (w : World) : Bool := w.canUseGsn && w.useGsn

/-- How creating the relayer fails, if it does. -/
def createRelayer (w : World) : Prog Resource Failure Unit :=
  if w.overGsn then
    check (w.nodeRegistryCreateNode.map fun err =>
      .error ("CreateRelayer over gsn chainId " ++ toString w.regChainId ++
        " ERROR: " ++ err))
  else do
    check (nodeRegistrySession (newRegistry w.nodeRegistryAddress ())
      fun _ => w.callOpt)
    check (w.createRelayer.map fun err =>
      .error ("CreateRelayer chainId " ++ toString w.regChainId ++ " ERROR: " ++
        err))

/-- The node is not registered yet. -/
def createNode (w : World) : Prog Resource Failure Unit := do
  check (w.newERC20Permit.map fun err => .error ("EYWA contract error: " ++ err))
  fatal ((signErc20Permit w).map .error)
  createRelayer w
  opens .transaction
  check (w.waitTransaction.map fun err => .error ("WaitTransaction error: " ++ err))
  check (w.filterCreatedRelayer.map .error)
  acquires .iterator

/-- `NodeExists` says that the node is registered; its error is overwritten. -/
def World.isRegistered (w : World) : Bool :=
  match w.nodeExists with
  | .ok res => res
  | .error _ => false

/-- `RegisterNode`. -/
def registerNode (w : World) : Prog Resource Failure Unit := do
  check (w.loadSecp256k1Key.map .error)
  acquires .context
  fatal (w.newNodeWithClients.map .error)
  acquires .clients
  check (w.loadBlsPublicKey.map .error)
  check (w.newHostFromKeyFile.map .panic)
  opens .host
  fatal (w.writeHostAddrToConfig.map .error)
  connectGsn w
  check (w.getEthClient.map .error)
  if w.isRegistered then pure () else createNode w

/-- The exit code of `main` after `RegisterNode`: an error is logged only, and
    `MainRecoveryExit` recovers a panic. -/
def exitCode : Stop Failure → ℕ
  | .returned (some (.panic _)) => 1
  | .returned _ => 0
  | .exited code => code

/-! ## How far it comes -/

/-- All calls up to `NodeExists` succeed. -/
structure Reaches (w : World) : Prop where
  key : w.loadSecp256k1Key = none
  clients : w.newNodeWithClients = none
  blsKey : w.loadBlsPublicKey = none
  host : w.newHostFromKeyFile = none
  address : w.writeHostAddrToConfig = none
  gsn : w.useGsn = true → w.initDHT = none ∧ w.newGsnClient = none ∧
    w.waitForDiscoveryGsn = none
  client : w.getEthClient = none

/-- All calls up to the creation of the relayer succeed. -/
structure Signs (w : World) : Prop where
  reaches : Reaches w
  unregistered : w.isRegistered = false
  eywa : w.newERC20Permit = none
  permit : signErc20Permit w = none

/-- Where signing refuses the text of nil, the numbers of a signed permit were
    read. -/
theorem Signs.numbers {w : World} (h : Signs w) (hnil : w.RefusesNil) :
    ∃ nonce balance, w.nonces = .ok nonce ∧ w.balanceOf = .ok balance := by
  have hpermit : w.signTypedData (numberText w.balanceOf) (numberText w.nonces)
      = none := h.permit
  have hread : ∀ {value nonce}, w.signTypedData value nonce = none →
      ¬ (value = "<nil>" ∨ nonce = "<nil>") := by
    intro value nonce hnone hno
    have hsome := hnil value nonce hno
    rw [hnone] at hsome
    cases hsome
  cases hnonces : w.nonces with
  | error err =>
      rw [hnonces] at hpermit
      exact absurd (Or.inr rfl) (hread hpermit)
  | ok nonce =>
      cases hbalance : w.balanceOf with
      | error err =>
          rw [hbalance] at hpermit
          exact absurd (Or.inl rfl) (hread hpermit)
      | ok balance => exact ⟨nonce, balance, rfl, rfl⟩

/-- The transaction is submitted over the gas station. -/
structure Submits (w : World) : Prop where
  signs : Signs w
  gsn : w.overGsn = true
  created : w.nodeRegistryCreateNode = none

/-- The transaction would have to be submitted without the gas station. -/
structure Stranded (w : World) : Prop where
  signs : Signs w
  gsn : w.overGsn = false

/-- The node is registered, before or by the command. -/
def Succeeds (w : World) : Prop :=
  (Reaches w ∧ w.isRegistered = true) ∨
  (Submits w ∧ w.waitTransaction = none ∧ w.filterCreatedRelayer = none)

theorem Succeeds.reaches {w : World} (h : Succeeds w) : Reaches w := by
  rcases h with h | h
  · exact h.1
  · exact h.1.signs.reaches

/-- What is open at a stop, and the stop. -/
structure Judged (w : World) (rs : List Resource) (stop : Stop Failure) : Prop where
  submitted : .transaction ∈ rs ↔ Submits w
  succeeded : stop = .returned none ↔ Succeeds w
  stranded : Stranded w → stop = .returned (some nilDereference)
  code : Submits w → exitCode stop = 0

/-- A stop with what is open there. -/
def Settled (w : World) (stop : Stop Failure) (s : State Resource) : Prop :=
  ∃ rs, Holding isDeferred rs s ∧ Judged w rs stop

variable {w : World} {rs : List Resource} {stop : Stop Failure}
  {s : State Resource}

/-- A stop before the relayer is created. -/
theorem judged_unsigned (hrs : .transaction ∉ rs) (hsigns : ¬ Signs w)
    (hsucceeds : ¬ Succeeds w) (hstop : stop ≠ .returned none) :
    Judged w rs stop where
  submitted := ⟨fun h => absurd h hrs, fun h => absurd h.signs hsigns⟩
  succeeded := ⟨fun h => absurd h hstop, fun h => absurd h hsucceeds⟩
  stranded h := absurd h.signs hsigns
  code h := absurd h.signs hsigns

/-- A stop before `NodeExists`. -/
theorem settled_early (hrs : .transaction ∉ rs) (hnot : ¬ Reaches w)
    (hstop : stop ≠ .returned none) (hs : Holding isDeferred rs s) :
    Settled w stop s :=
  ⟨rs, hs, judged_unsigned hrs (fun h => hnot h.reaches)
    (fun h => hnot h.reaches) hstop⟩

theorem returned_ne_none {e : Failure} :
    (Stop.returned (some e) : Stop Failure) ≠ .returned none :=
  fun h => by cases h

theorem exited_ne_none {code : ℕ} :
    (Stop.exited code : Stop Failure) ≠ .returned none :=
  fun h => by cases h

section Rules

variable {err : Option String} {text : String → Failure}

/-- A call before `NodeExists` whose error is returned. -/
theorem check_early (hrs : .transaction ∉ rs) (hnot : Reaches w → err = none) :
    Triple (Holding isDeferred rs) (check (err.map text))
      (fun _ s => Holding isDeferred rs s ∧ err.map text = none) (Settled w) := by
  refine Triple.check_known fun e he s hs => ?_
  refine settled_early hrs (fun hreaches => ?_) returned_ne_none hs
  rw [hnot hreaches] at he
  cases he

/-- A call before `NodeExists` whose error is fatal. -/
theorem fatal_early (hrs : .transaction ∉ rs) (hnot : Reaches w → err = none) :
    Triple (Holding isDeferred rs) (fatal (err.map text))
      (fun _ s => Holding isDeferred rs s ∧ err.map text = none) (Settled w) := by
  refine Triple.fatal_known fun hne s hs => ?_
  refine settled_early hrs (fun hreaches => hne ?_) exited_ne_none hs
  rw [hnot hreaches]
  rfl

end Rules

/-- What is open before `NodeExists`. -/
def connected (w : World) : List Resource :=
  [.context, .clients, .host] ++ if w.useGsn then [.dht, .gsnClient] else []

/-- What is opened for the relay over GSN. -/
theorem connectGsn_holding (w : World) :
    Triple (Holding isDeferred [.context, .clients, .host]) (connectGsn w)
      (fun _ s => Holding isDeferred (connected w) s ∧
        (w.useGsn = true → w.initDHT = none ∧ w.newGsnClient = none ∧
          w.waitForDiscoveryGsn = none)) (Settled w) := by
  cases hgsn : w.useGsn with
  | false =>
      rw [connectGsn, hgsn]
      refine Triple.pure fun s hs => ⟨?_, fun h => (by cases h)⟩
      rw [connected, hgsn]
      exact hs
  | true =>
      rw [connectGsn, hgsn]
      refine Triple.bind (check_early (by decide) fun h => (h.gsn hgsn).1)
        fun _ => Triple.assume fun hdht => ?_
      refine Triple.bind (Triple.opens rfl) fun _ => ?_
      refine Triple.bind (check_early (by decide) fun h => (h.gsn hgsn).2.1)
        fun _ => Triple.assume fun hclient => ?_
      refine Triple.bind (Triple.opens rfl) fun _ => ?_
      refine Triple.mono (check_early (by decide) fun h => (h.gsn hgsn).2.2) ?_
      rintro _ s ⟨hs, hwait⟩
      rw [connected, hgsn]
      exact ⟨hs, fun _ => ⟨Option.map_eq_none_iff.mp hdht,
        Option.map_eq_none_iff.mp hclient, Option.map_eq_none_iff.mp hwait⟩⟩

/-! ## The creation of the relayer -/

/-- Without the gas station there is no session. -/
theorem no_session (w : World) : nodeRegistrySession
    (newRegistry w.nodeRegistryAddress ()) (fun _ => w.callOpt) =
      some nilDereference :=
  rfl

/-- A stop after `NodeExists` and before the transaction. -/
theorem settled_unsubmitted (hrs : .transaction ∉ rs)
    (hunregistered : w.isRegistered = false) (hsubmits : ¬ Submits w)
    (hstranded : Stranded w → stop = .returned (some nilDereference))
    (hstop : stop ≠ .returned none) (hs : Holding isDeferred rs s) :
    Settled w stop s := by
  refine ⟨rs, hs, ⟨fun h => absurd h hrs, fun h => absurd h hsubmits⟩,
    ⟨fun h => absurd h hstop, fun h => ?_⟩, hstranded,
    fun h => absurd h hsubmits⟩
  rcases h with h | h
  · rw [hunregistered] at h
    cases h.2
  · exact absurd h.1 hsubmits

/-- A stop after the transaction. -/
theorem settled_submitted (hrs : .transaction ∈ rs) (hsubmits : Submits w)
    (hsucceeded : stop = .returned none ↔ Succeeds w) (hcode : exitCode stop = 0)
    (hs : Holding isDeferred rs s) : Settled w stop s := by
  refine ⟨rs, hs, ⟨fun _ => hsubmits, fun _ => hrs⟩, hsucceeded,
    fun h => ?_, fun _ => hcode⟩
  have hgsn := h.gsn
  rw [hsubmits.gsn] at hgsn
  cases hgsn

/-- With GSN the call is sent; without it there is no session, and it panics. -/
theorem createRelayer_holding (hrs : .transaction ∉ rs) (hsigns : Signs w) :
    Triple (Holding isDeferred rs) (createRelayer w)
      (fun _ s => Holding isDeferred rs s ∧ Submits w) (Settled w) := by
  cases hgsn : w.overGsn with
  | true =>
      have hno : ¬ Stranded w := fun h => absurd (hgsn.symm.trans h.gsn) (by decide)
      rw [createRelayer, hgsn]
      refine Triple.mono (Triple.check_known fun e he s hs => ?_) ?_
      · refine settled_unsubmitted hrs hsigns.unregistered (fun h => ?_)
          (fun h => absurd h hno) returned_ne_none hs
        rw [h.created] at he
        cases he
      · rintro _ s ⟨hs, hcreated⟩
        exact ⟨hs, hsigns, hgsn, Option.map_eq_none_iff.mp hcreated⟩
  | false =>
      have hno : ¬ Submits w := fun h => absurd (hgsn.symm.trans h.gsn) (by decide)
      rw [createRelayer, hgsn]
      refine Triple.bind (Triple.check_known fun e he s hs => ?_)
        fun _ => Triple.assume fun hnone => ?_
      · rw [no_session] at he
        cases he
        exact settled_unsubmitted hrs hsigns.unregistered hno (fun _ => rfl)
          returned_ne_none hs
      · rw [no_session] at hnone
        cases hnone

/-- From the registry's answer on: the command sends a transaction, or has stopped
    before it. -/
theorem createNode_holding (hrs : .transaction ∉ rs) (hreaches : Reaches w)
    (hunregistered : w.isRegistered = false) :
    Triple (Holding isDeferred rs) (createNode w)
      (fun _ => Settled w (.returned none)) (Settled w) := by
  refine Triple.bind (Triple.check_known fun e he s hs => ?_)
    fun _ => Triple.assume fun heywa => ?_
  · have hno : ¬ Signs w := by
      intro h
      rw [h.eywa] at he
      cases he
    exact settled_unsubmitted hrs hunregistered (fun h => hno h.signs)
      (fun h => absurd h.signs hno) returned_ne_none hs
  refine Triple.bind (Triple.fatal_known fun hne s hs => ?_)
    fun _ => Triple.assume fun hpermit => ?_
  · have hno : ¬ Signs w := by
      intro h
      rw [h.permit] at hne
      exact hne rfl
    exact settled_unsubmitted hrs hunregistered (fun h => hno h.signs)
      (fun h => absurd h.signs hno) exited_ne_none hs
  refine Triple.bind (createRelayer_holding hrs ⟨hreaches, hunregistered,
    Option.map_eq_none_iff.mp heywa, Option.map_eq_none_iff.mp hpermit⟩)
    fun _ => Triple.assume fun hsubmits => ?_
  -- from here on the transaction is on its way
  have hmem : ∀ others, .transaction ∈ rs ++ [.transaction] ++ others := by
    intro others
    exact List.mem_append_left _ (List.mem_append_right _ List.mem_cons_self)
  have hfailed : ∀ {e : Failure}, ¬ Succeeds w →
      ((Stop.returned (some e) : Stop Failure) = .returned none ↔ Succeeds w) :=
    fun hno => ⟨fun h => absurd h returned_ne_none, fun h => absurd h hno⟩
  have hsucceeds : Succeeds w →
      w.waitTransaction = none ∧ w.filterCreatedRelayer = none := by
    rintro (h | h)
    · rw [hunregistered] at h
      cases h.2
    · exact h.2
  refine Triple.bind (Triple.opens rfl) fun _ => ?_
  refine Triple.bind (Triple.check_known fun e he s hs => ?_)
    fun _ => Triple.assume fun hwait => ?_
  · obtain ⟨err, herr, rfl⟩ := Option.map_eq_some_iff.mp he
    refine settled_submitted (List.append_nil (rs ++ _) ▸ hmem []) hsubmits
      (hfailed fun h => ?_) rfl hs
    rw [(hsucceeds h).1] at herr
    cases herr
  refine Triple.bind (Triple.check_known fun e he s hs => ?_)
    fun _ => Triple.assume fun hfilter => ?_
  · obtain ⟨err, herr, rfl⟩ := Option.map_eq_some_iff.mp he
    refine settled_submitted (List.append_nil (rs ++ _) ▸ hmem []) hsubmits
      (hfailed fun h => ?_) rfl hs
    rw [(hsucceeds h).2] at herr
    cases herr
  refine Triple.mono (Triple.acquires rfl) fun _ s hs => ?_
  refine settled_submitted (hmem [.iterator]) hsubmits ⟨fun _ => ?_, fun _ => rfl⟩
    rfl hs
  exact Or.inr ⟨hsubmits, Option.map_eq_none_iff.mp hwait,
    Option.map_eq_none_iff.mp hfilter⟩

/-- The whole command, check after check. -/
theorem registerNode_holding (w : World) :
    Triple (Holding isDeferred []) (registerNode w)
      (fun _ => Settled w (.returned none)) (Settled w) := by
  refine Triple.bind (check_early (by decide) fun h => h.key)
    fun _ => Triple.assume fun hkey => ?_
  refine Triple.bind (Triple.acquires rfl) fun _ => ?_
  refine Triple.bind (fatal_early (by decide) fun h => h.clients)
    fun _ => Triple.assume fun hclients => ?_
  refine Triple.bind (Triple.acquires rfl) fun _ => ?_
  refine Triple.bind (check_early (by decide) fun h => h.blsKey)
    fun _ => Triple.assume fun hblsKey => ?_
  refine Triple.bind (check_early (by decide) fun h => h.host)
    fun _ => Triple.assume fun hhost => ?_
  refine Triple.bind (Triple.opens rfl) fun _ => ?_
  refine Triple.bind (fatal_early (by decide) fun h => h.address)
    fun _ => Triple.assume fun haddress => ?_
  refine Triple.bind (connectGsn_holding w) fun _ => Triple.assume fun hgsn => ?_
  have hrs : .transaction ∉ connected w := by
    rw [connected]
    split <;> decide
  refine Triple.bind (check_early hrs fun h => h.client)
    fun _ => Triple.assume fun hclient => ?_
  have hreaches : Reaches w :=
    ⟨Option.map_eq_none_iff.mp hkey, Option.map_eq_none_iff.mp hclients,
      Option.map_eq_none_iff.mp hblsKey, Option.map_eq_none_iff.mp hhost,
      Option.map_eq_none_iff.mp haddress, hgsn, Option.map_eq_none_iff.mp hclient⟩
  cases hregistered : w.isRegistered with
  | false => exact createNode_holding hrs hreaches hregistered
  | true =>
      have hno : ¬ Signs w := fun h =>
        absurd (hregistered.symm.trans h.unregistered) (by decide)
      refine Triple.pure fun s hs => ⟨connected w, hs,
        ⟨fun h => absurd h hrs, fun h => absurd h.signs hno⟩,
        ⟨fun _ => Or.inl ⟨hreaches, hregistered⟩, fun _ => rfl⟩,
        fun h => absurd h.signs hno, fun _ => rfl⟩

/-- Every run ends as its world says. -/
theorem judged_run (w : World) :
    ∃ rs, Judged w rs (run (registerNode w)).2 := by
  obtain ⟨stop, s, hrun, rs, -, hjudged⟩ :=
    (registerNode_holding w).run holding_nil
  rw [hrun]
  exact ⟨rs, hjudged⟩

theorem run_of_stranded {w : World} (h : Stranded w) :
    (run (registerNode w)).2 = .returned (some nilDereference) := by
  obtain ⟨rs, hjudged⟩ := judged_run w
  exact hjudged.stranded h

theorem succeeds_of_run {w : World}
    (h : (run (registerNode w)).2 = .returned none) : Succeeds w := by
  obtain ⟨rs, hjudged⟩ := judged_run w
  exact hjudged.succeeded.mp h

/-- **WHAT BECOMES OF A REGISTRATION**, for all outcomes of the calls.  The
    deferred closings are made if the command returns or panics, and the host is
    never closed.  A transaction is submitted exactly if all goes well up to it,
    the node is not known to be registered, and it can go over the gas station;
    where it can not, the command panics.  No error is returned exactly if the
    node was registered before, or the transaction has succeeded and its event
    could be looked for; but once it is submitted the exit code is 0 in any
    case.  The errors of `Nonces` and `BalanceOf` are dropped, and stop the
    command where signing refuses the text of nil. -/
theorem registration_outcome (w : World) :
    closings (run (registerNode w)).1 =
      closedOf isDeferred (openings (run (registerNode w)).1)
        (run (registerNode w)).2 ∧
    .host ∉ closings (run (registerNode w)).1 ∧
    (.transaction ∈ openings (run (registerNode w)).1 ↔ Submits w) ∧
    ((run (registerNode w)).2 = .returned none ↔ Succeeds w) ∧
    (Stranded w →
      (run (registerNode w)).2 = .returned (some nilDereference)) ∧
    (Submits w → exitCode (run (registerNode w)).2 = 0) ∧
    (w.RefusesNil → Submits w →
      ∃ nonce balance, w.nonces = .ok nonce ∧ w.balanceOf = .ok balance) := by
  obtain ⟨stop, s, hrun, rs, hs, hjudged⟩ :=
    (registerNode_holding w).run holding_nil
  obtain ⟨hopenings, hclosings⟩ := hs.finish stop
  rw [hrun, hopenings, hclosings]
  exact ⟨rfl, not_mem_closedOf rfl stop, hjudged.submitted, hjudged.succeeded,
    hjudged.stranded, hjudged.code, fun hnil h => h.signs.numbers hnil⟩

/-- All calls succeed for a node that is not registered, but the transaction is
    not seen in time. -/
def lateWorld (useGsn : Bool) : World :=
  ⟨none, none, none, none, none, useGsn, none, none, none, 4, none, .ok false, none,
    .ok 0, .ok 100, fun _ _ => none, true, none, "0x01", none, none, some "timeout", none⟩

example : (run (registerNode (lateWorld true))).2 =
    .returned (some (.error "WaitTransaction error: timeout")) := rfl

example : (run (registerNode (lateWorld false))).2 =
    .returned (some nilDereference) := rfl

end RelayerRegister
