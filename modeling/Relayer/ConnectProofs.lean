import Relayer.ClientProofs

/-! # Choosing a connection

    `getClient` of `extChains/eth/client.go` as one whole call that nothing
    interrupts: the work under `c.mx` (`Client.getClient`), the call of itself
    after a connection was given up, and the signal after a reconnect.

    * `Outcomes` is what the network does during one call: what the present
      connection answers to `ChainID`, and what dialling each url leads to;
    * `getClientCall` is the call with a bound on the depth of its recursion,
      and `Settled` the invariant of a client between calls;
    * **`getClient_connects`**: after any calls from `NewClient` on, when a
      call returns a connection, which one, and what it leaves behind. -/

namespace RelayerConnect

open RelayerClient Transition

/-! ## One call -/

/-- What the network does during one call: the chain id that the present
    connection reports, if it reports one, and for each url whether it can be
    dialled and what the new connection reports. -/
structure Outcomes where
  current : Option ℤ
  dial : String → Option (Option ℤ)

/-- A connection that is returned: the one the client had, or a new one. -/
inductive Connection where
  | held (url : String)
  | dialled (url : String)
  deriving DecidableEq, Repr

def Connection.url : Connection → String
  | .held url => url
  | .dialled url => url

/-- The network id of a connection during the call. -/
def Outcomes.networkId (o : Outcomes) : Connection → Option ℤ
  | .held _ => o.current
  | .dialled url => (o.dial url).join

/-- `chainId.Cmp(c.chainId)` on the answer to `ChainID`. -/
def replyOf (chainId : ℕ) : Option ℤ → Reply
  | none => .noChainId
  | some id => if id = chainId then .sameChain else .otherChain

/-- What dialling a url comes to. -/
def dialReply (chainId : ℕ) : Option (Option ℤ) → Reply
  | none => .unreachable
  | some answer => replyOf chainId answer

/-- `SendResubscribeSignal`, the send not blocking. -/
def sendResubscribeSignal (c : Client) : Client :=
  if c.subLoopInitialized then { c with queued := c.queued + 1 } else c

/-- `getClient`, its recursion at most `depth` calls deep. -/
def getClientCall : ℕ → Client → Outcomes →
    Option (Client × Except String (Option Connection))
  | 0, _, _ => none
  | depth + 1, c, o =>
      match c.getClient (replyOf c.chainId o.current)
          (fun url => dialReply c.chainId (o.dial url)) with
      | (c, .again) => getClientCall depth c o
      | (c, .reconnected) =>
          some (sendResubscribeSignal c,
            .ok (c.ethClient.map Connection.dialled))
      | (c, .found) => some (c, .ok (c.ethClient.map Connection.held))
      | (c, .failed err) => some (c, .error err)

/-- A completed call. -/
def Calls (c : Client)
    (l : Outcomes × Except String (Option Connection)) (c' : Client) : Prop :=
  ∃ depth, getClientCall depth c l.1 = some (c', l.2)

/-! ## The loop over the urls -/

/-- Only the client's own chain id makes the connection good. -/
theorem replyOf_eq_sameChain {chainId : ℕ} {answer : Option ℤ} :
    replyOf chainId answer = .sameChain ↔ answer = some (chainId : ℤ) := by
  cases answer with
  | none => simp [replyOf]
  | some id =>
      rw [replyOf, Option.some.injEq]
      split
      · simp [*]
      · simp [*]

/-- A dialled url is good if it answers with that id. -/
theorem dialReply_eq_sameChain {chainId : ℕ} {result : Option (Option ℤ)} :
    dialReply chainId result = .sameChain ↔
      result = some (some (chainId : ℤ)) := by
  cases result with
  | none => simp [dialReply]
  | some answer => rw [dialReply, replyOf_eq_sameChain, Option.some.injEq]

/-- The client after the loop has found a url, or none. -/
def connectedTo (c : Client) : Option String → Client
  | some url =>
      { c with ethClient := some url, connected := true, recreated := true }
  | none => c

/-- **THE FIRST USABLE URL**: a client that has not set `currentUrl` tries all
    urls in order, and stops at the first that answers with its chain id. -/
theorem connect_eq_find? {dial : String → Reply} (urls : List String) :
    ∀ c : Client, c.currentUrl = "" → c.connected = false →
      c.connect dial urls =
        connectedTo c (urls.find? (fun url => dial url = .sameChain)) := by
  induction urls with
  | nil => intro c _ _; rfl
  | cons url urls ih =>
      intro c hurl hdown
      have hskip : ¬ (c.currentUrl ≠ "" ∧ c.urls.length > 1 ∧
          url = c.currentUrl) := fun h => h.1 hurl
      have hsame : { c with connected := false } = c := by
        rw [← hdown]
      rw [Client.connect, if_neg hskip, hsame]
      cases hdial : dial url with
      | sameChain => simp [hdial, connectedTo]
      | _ => simp [hdial, ih c hurl hdown]

/-! ## What a call comes to -/

/-- A client between calls. -/
structure Settled (c : Client) : Prop where
  currentUrl : c.currentUrl = ""
  connected : c.connected = c.ethClient.isSome

/-- The first url that dials and reports the client's chain id. -/
def firstUsable (c : Client) (o : Outcomes) : Option String :=
  c.urls.find? (fun url => o.dial url = some (some (c.chainId : ℤ)))

/-- The connection is still there and on the right chain. -/
def StillGood (c : Client) (o : Outcomes) : Prop :=
  c.ethClient ≠ none ∧ o.current = some (c.chainId : ℤ)

instance (c : Client) (o : Outcomes) : Decidable (StillGood c o) :=
  inferInstanceAs (Decidable (_ ∧ _))

/-- What a client without a connection gets. -/
def dialAll (c : Client) (o : Outcomes) :
    Client × Except String (Option Connection) :=
  match firstUsable c o with
  | some url =>
      (sendResubscribeSignal (connectedTo c (some url)),
        .ok (some (.dialled url)))
  | none => (c, .error ("connection to all rpc url for chain ["
      ++ toString c.chainId ++ "]  failed"))

/-- What a call comes to. -/
def callResult (c : Client) (o : Outcomes) :
    Client × Except String (Option Connection) :=
  if StillGood c o then
    ({ c with connected := true, recreated := false },
      .ok (c.ethClient.map Connection.held))
  else dialAll { c with ethClient := none, connected := false } o

/-- More depth changes nothing. -/
theorem getClientCall_succ {depth : ℕ} :
    ∀ {c : Client} {o : Outcomes}
      {r : Client × Except String (Option Connection)},
      getClientCall depth c o = some r →
      getClientCall (depth + 1) c o = some r := by
  induction depth with
  | zero => intro c o r h; cases h
  | succ depth ih =>
      intro c o r h
      rw [getClientCall] at h ⊢
      split at h
      · exact ih h
      · exact h
      · exact h
      · exact h

/-- Without a connection the urls are tried. -/
theorem getClientCall_of_none {c : Client} (o : Outcomes) (depth : ℕ)
    (hurl : c.currentUrl = "") (hdown : c.connected = false)
    (hclient : c.ethClient = none) :
    getClientCall (depth + 1) c o = some (dialAll c o) := by
  have hfind : c.urls.find? (fun url =>
      dialReply c.chainId (o.dial url) = .sameChain) = firstUsable c o := by
    simp only [firstUsable, dialReply_eq_sameChain]
  rw [getClientCall, Client.getClient.eq_def, hclient]
  simp only [connect_eq_find? c.urls c hurl hdown, hfind, dialAll]
  cases firstUsable c o with
  | some url => rfl
  | none => simp only [connectedTo, hdown, Bool.false_eq_true, if_false]

/-- A good connection is returned. -/
theorem getClientCall_of_good {c : Client} {o : Outcomes} (depth : ℕ)
    (hgood : StillGood c o) :
    getClientCall (depth + 1) c o =
      some ({ c with connected := true, recreated := false },
        .ok (c.ethClient.map Connection.held)) := by
  obtain ⟨url, hclient⟩ := Option.ne_none_iff_exists'.mp hgood.1
  rw [getClientCall, Client.getClient.eq_def, hclient,
    replyOf_eq_sameChain.mpr hgood.2]

/-- A connection that is no good is given up, and the call starts again. -/
theorem getClientCall_of_lost {c : Client} {o : Outcomes} (depth : ℕ)
    (hclient : c.ethClient ≠ none) (hbad : ¬ StillGood c o) :
    getClientCall (depth + 1) c o =
      getClientCall depth { c with ethClient := none, connected := false } o := by
  obtain ⟨url, hurl⟩ := Option.ne_none_iff_exists'.mp hclient
  have hreply : replyOf c.chainId o.current ≠ .sameChain :=
    fun h => hbad ⟨hclient, replyOf_eq_sameChain.mp h⟩
  rw [getClientCall, Client.getClient.eq_def, hurl]
  cases hcase : replyOf c.chainId o.current with
  | sameChain => exact absurd hcase hreply
  | _ => rfl

/-- **A CALL IS AT MOST ONE CALL OF ITSELF DEEP**: it comes to the same result
    with every depth from two on. -/
theorem getClientCall_eq {c : Client} (hc : Settled c) (o : Outcomes)
    (depth : ℕ) : getClientCall (depth + 2) c o = some (callResult c o) := by
  rw [callResult]
  by_cases hgood : StillGood c o
  · rw [if_pos hgood]
    exact getClientCall_of_good _ hgood
  · rw [if_neg hgood]
    by_cases hclient : c.ethClient = none
    · have hdown : c.connected = false := by
        rw [hc.connected, hclient]
        rfl
      have hsame : { c with ethClient := none, connected := false } = c := by
        rw [← hclient, ← hdown]
      rw [hsame]
      exact getClientCall_of_none o _ hc.currentUrl hdown hclient
    · rw [getClientCall_of_lost _ hclient hgood]
      exact getClientCall_of_none o depth hc.currentUrl rfl rfl

/-- A completed call came to the result, whatever its depth. -/
theorem eq_callResult {c c' : Client} {o : Outcomes}
    {r : Except String (Option Connection)} (hc : Settled c)
    (h : Calls c (o, r) c') : callResult c o = (c', r) := by
  obtain ⟨depth, hcall⟩ := h
  have hdeep := getClientCall_succ (getClientCall_succ hcall)
  rw [getClientCall_eq hc] at hdeep
  exact Option.some.inj hdeep

/-- Sending the signal does not touch the connection. -/
theorem sendResubscribeSignal_eq (c : Client) :
    ∃ queued, sendResubscribeSignal c = { c with queued := queued } := by
  rw [sendResubscribeSignal]
  split
  · exact ⟨_, rfl⟩
  · exact ⟨c.queued, rfl⟩

/-- What a call leaves behind. -/
structure LeftBy (c : Client) (c' : Client) : Prop where
  settled : Settled c'
  chainId : c'.chainId = c.chainId
  urls : c'.urls = c.urls

/-- **EVERY CALL IS ONE OF THESE**: the connection is still good, a first
    usable url is found, or nothing is. -/
theorem callResult_cases {c : Client} (hc : Settled c) (o : Outcomes) :
    LeftBy c (callResult c o).1 ∧
    ((∃ url, StillGood c o ∧ c.ethClient = some url ∧
      (callResult c o).2 = .ok (some (.held url)) ∧
      (callResult c o).1.ethClient = some url) ∨
    (∃ url, ¬ StillGood c o ∧ firstUsable c o = some url ∧
      (callResult c o).2 = .ok (some (.dialled url)) ∧
      (callResult c o).1.ethClient = some url) ∨
    (¬ StillGood c o ∧ firstUsable c o = none ∧
      (∃ err, (callResult c o).2 = .error err) ∧
      (callResult c o).1.ethClient = none)) := by
  rw [callResult]
  -- a client still good is kept, any other is dropped before the dialling
  by_cases hgood : StillGood c o
  · obtain ⟨url, hclient⟩ := Option.ne_none_iff_exists'.mp hgood.1
    rw [if_pos hgood]
    refine ⟨⟨⟨hc.currentUrl, ?_⟩, rfl, rfl⟩,
      Or.inl ⟨url, hgood, hclient, ?_, hclient⟩⟩
    · show true = c.ethClient.isSome
      rw [hclient]
      rfl
    · rw [hclient]
      rfl
  · rw [if_neg hgood, dialAll]
    have hfirst : firstUsable { c with ethClient := none, connected := false } o
        = firstUsable c o := rfl
    rw [hfirst]
    cases hfind : firstUsable c o with
    | none =>
        exact ⟨⟨⟨hc.currentUrl, rfl⟩, rfl, rfl⟩,
          Or.inr (Or.inr ⟨hgood, rfl, ⟨_, rfl⟩, rfl⟩)⟩
    | some url =>
        obtain ⟨queued, hsignal⟩ := sendResubscribeSignal_eq
          (connectedTo { c with ethClient := none, connected := false }
            (some url))
        dsimp only
        rw [hsignal]
        exact ⟨⟨⟨hc.currentUrl, rfl⟩, rfl, rfl⟩,
          Or.inr (Or.inl ⟨url, hgood, rfl, rfl, rfl⟩)⟩

/-! ## Any number of calls -/

/-- Calls keep a client settled, with its chain id and its urls. -/
theorem leftBy_run {c₀ c : Client}
    {tr : List (Outcomes × Except String (Option Connection))}
    (h₀ : Settled c₀) (hrun : Run Calls c₀ tr c) : LeftBy c₀ c := by
  refine hrun.invariant (P := LeftBy c₀) ⟨h₀, rfl, rfl⟩ ?_
  rintro a ⟨o, r⟩ b ha hcall
  obtain ⟨hleft, -⟩ := callResult_cases ha.settled o
  rw [eq_callResult ha.settled hcall] at hleft
  exact ⟨hleft.settled, hleft.chainId.trans ha.chainId,
    hleft.urls.trans ha.urls⟩

/-- **THE CHOICE OF A CONNECTION**: after any calls from `NewClient` on and
    for any outcomes, a call is at most one call of itself deep.  It returns a
    connection, never a nil one, if and only if the connection is still good
    or some url dials and reports the chain id; where the connection is not
    good, it is a new one to the first such url.  The connection returned is
    the one the client has then, its network id is the client's chain id, and
    `connected` holds exactly when there is a connection. -/
theorem getClient_connects {id : ℕ} {urls : List String} {c₀ c : Client}
    {tr : List (Outcomes × Except String (Option Connection))}
    (hnew : newClientOf id urls = .ok c₀) (hrun : Run Calls c₀ tr c)
    (o : Outcomes) :
    ∃ c' r, (∀ depth, 2 ≤ depth → getClientCall depth c o = some (c', r)) ∧
      ((∃ conn, r = .ok (some conn)) ↔
        (c.ethClient ≠ none ∧ o.current = some (id : ℤ)) ∨
          ∃ url ∈ urls, o.dial url = some (some (id : ℤ))) ∧
      r ≠ .ok none ∧
      (¬ (c.ethClient ≠ none ∧ o.current = some (id : ℤ)) → ∀ url,
        urls.find? (fun url => o.dial url = some (some (id : ℤ))) = some url →
        r = .ok (some (.dialled url))) ∧
      (∀ conn, r = .ok (some conn) →
        o.networkId conn = some (id : ℤ) ∧ c'.ethClient = some conn.url) ∧
      (c'.connected = true ↔ c'.ethClient ≠ none) := by
  obtain rfl : c₀ = newClient id urls := by
    rw [newClientOf] at hnew
    split at hnew
    · cases hnew
    · exact (Except.ok.inj hnew).symm
  have hleft := leftBy_run ⟨rfl, rfl⟩ hrun
  have hid : c.chainId = id := hleft.chainId
  have hurls : c.urls = urls := hleft.urls
  -- the calls before this one changed neither the urls nor the chain id
  have hfirst : firstUsable c o =
      urls.find? (fun url => o.dial url = some (some (id : ℤ))) := by
    rw [firstUsable, hid, hurls]
  have hstill : StillGood c o ↔
      c.ethClient ≠ none ∧ o.current = some (id : ℤ) := by
    rw [StillGood, hid]
  obtain ⟨hleft', hcases⟩ := callResult_cases hleft.settled o
  refine ⟨(callResult c o).1, (callResult c o).2, ?_, ?_⟩
  · intro depth hdepth
    obtain ⟨d, rfl⟩ := Nat.exists_eq_add_of_le' hdepth
    exact getClientCall_eq hleft.settled o d
  · rw [hfirst, hstill] at hcases
    have hconnected : (callResult c o).1.connected = true ↔
        (callResult c o).1.ethClient ≠ none := by
      rw [hleft'.settled.connected, Option.isSome_iff_ne_none]
    rcases hcases with ⟨url, hgood, hclient, hr, heth⟩ |
      ⟨url, hbad, hfind, hr, heth⟩ | ⟨hbad, hfind, ⟨err, hr⟩, heth⟩
    -- the client held is still good
    · rw [hr]
      refine ⟨⟨fun _ => Or.inl hgood, fun _ => ⟨_, rfl⟩⟩, by simp,
        fun hbad => absurd hgood hbad, ?_, hconnected⟩
      rintro conn hconn
      cases hconn
      exact ⟨hgood.2, heth⟩
    -- it is not, and `url` is the first of the list that answers
    · have hdial := List.find?_some hfind
      have hmem := List.mem_of_find?_eq_some hfind
      rw [decide_eq_true_iff] at hdial
      rw [hr]
      refine ⟨⟨fun _ => Or.inr ⟨url, hmem, hdial⟩, fun _ => ⟨_, rfl⟩⟩, by simp,
        ?_, ?_, hconnected⟩
      · intro _ url' hfind'
        rw [Option.some.inj (hfind.symm.trans hfind')]
      · rintro conn hconn
        cases hconn
        refine ⟨?_, heth⟩
        rw [Outcomes.networkId, hdial]
        rfl
    -- it is not, and no url answers
    · rw [hr]
      refine ⟨⟨?_, ?_⟩, by simp, ?_, ?_, hconnected⟩
      · rintro ⟨conn, hconn⟩
        cases hconn
      · rintro (hgood | ⟨url, hmem, hdial⟩)
        · exact absurd hgood hbad
        · have hnone := List.find?_eq_none.mp hfind url hmem
          exact absurd (decide_eq_true hdial) hnone
      · intro _ url hsome
        cases hfind.symm.trans hsome
      · rintro conn hconn
        cases hconn

/-- Every url can be dialled, and only `good` is on the chain 7. -/
def onlyUrl (good : String) : Outcomes where
  current := none
  dial := fun url => if url = good then some (some 7) else some (some 8)

/-- The second url is chosen; its connection breaks, and the next call chooses
    the third. -/
theorem getClient_connects_sample :
    ∃ tr c c', Run Calls (newClient 7 ["a", "b", "c"]) tr c ∧
      c.ethClient = some "b" ∧
      getClientCall 2 c (onlyUrl "c") =
        some (c', .ok (some (.dialled "c"))) := by
  have hnew : newClientOf 7 ["a", "b", "c"] =
      .ok (newClient 7 ["a", "b", "c"]) := rfl
  obtain ⟨c, r, hcall, -, -, hfirst, hconn, -⟩ :=
    getClient_connects hnew Run.refl (onlyUrl "b")
  have hr := hfirst (fun h => h.1 rfl) "b" (by decide +kernel)
  have hrun : Run Calls (newClient 7 ["a", "b", "c"]) [(onlyUrl "b", r)] c :=
    Run.single ⟨2, hcall 2 le_rfl⟩
  obtain ⟨c', r', hcall', -, -, hfirst', -⟩ :=
    getClient_connects hnew hrun (onlyUrl "c")
  have hr' := hfirst' (fun h => by cases h.2) "c" (by decide +kernel)
  refine ⟨_, c, c', hrun, (hconn _ hr).2, ?_⟩
  rw [← hr']
  exact hcall' 2 le_rfl

end RelayerConnect
