import Relayer.LogCacheProofs
import Relayer.MessageProofs
import Relayer.TransitionProofs

/-! # A watcher and its subscription loops

    `extChains/eth/watcher.go`: a watcher subscribes to the logs of one event,
    and a loop of its own takes them from the subscription, asks the cache and
    hands what is new to `OnEvent`.

    * `onLog` is the log case of the loop, with `unpackLog` in it;
      **`none_lost_iff`** says which sequences of deliveries reach `OnEvent`
      without a loss;
    * `Watcher.react` is one event in the life of a watcher: a call of
      `Subscribe`, `Resubscribe` or `Close`, a log or an error at one of its
      running loops.  Each is atomic (the calls hold the mutex of the
      watcher), so the states are those between two events;
    * `Healthy` is what the flag and the loops ought to be, `Orderly` the
      events that keep it so, and **`healthy_exactly_when_orderly`** connects
      the two along every run. -/

namespace RelayerWatcher

open Delivery RelayerLogCache RelayerMessage Transition

/-! ## One log -/

/-- `abi.Argument`: an input of an event. -/
structure Argument where
  name : String
  indexed : Bool

/-- `ContractWatcher` as the loop uses it.  Decoding by an ABI is not in this
    repository: `unpackIntoInterface` and `parseTopics` are what it makes of
    an event pointer, or its error. -/
structure ContractWatcher (E : Type) where
  name : String
  inputs : List Argument
  unpackIntoInterface : E → String → List UInt8 → Except String E
  parseTopics : E → List Argument → List Hash → Except String E
  newEventPointer : E
  setEventRaw : E → Log → E

variable {E : Type}

/-- `unpackLog`; `log.Topics[1:]` panics on a log without topics. -/
def ContractWatcher.unpackLog (contract : ContractWatcher E) (out : E)
    (log : Log) : Except Panic (Except String E) :=
  match
    if log.data.length > 0 then
      contract.unpackIntoInterface out contract.name log.data
    else .ok out with
  | .error err => .ok (.error err)
  | .ok out =>
      match log.topics with
      | [] => .error (.indexOutOfRange 1 0)
      | _ :: topics =>
          .ok (contract.parseTopics out (contract.inputs.filter Argument.indexed)
            topics)

/-- How the log case of the loop ends. -/
inductive Outcome (E : Type) where
  /-- `Exists` knew the log. -/
  | skipped
  /-- The event goes to `OnEvent`, in a goroutine of its own. -/
  | relayed (event : E)
  /-- The loop returns this error. -/
  | failed (err : String)
  | panicked (p : Panic)
  deriving DecidableEq

/-- Does the loop take further logs? -/
def Outcome.goesOn : Outcome E → Bool
  | .skipped | .relayed _ => true
  | .failed _ | .panicked _ => false

/-- The log case of `watchEvents`. -/
def onLog (chainId : ℕ) (contract : ContractWatcher E) (cache : LogCache)
    (log : Log) : LogCache × Outcome E :=
  let (cache, known) := cache.existsLog log
  if known then (cache, .skipped)
  else
    match contract.unpackLog contract.newEventPointer log with
    | .error p => (cache, .panicked p)
    | .ok (.error err) =>
        (cache, .failed ("can not unpack chain[" ++ toString chainId ++ "] "
          ++ contract.name ++ " on error:" ++ err))
    | .ok (.ok event) => (cache, .relayed (contract.setEventRaw event log))

/-- The cache after a sequence of logs went through the log case. -/
def watched (chainId : ℕ) (contract : ContractWatcher E) (cache : LogCache) :
    List Log → LogCache
  | [] => cache
  | l :: ls => watched chainId contract (onLog chainId contract cache l).1 ls

/-- The log decodes under the ABI of the event. -/
def Decodes (contract : ContractWatcher E) (log : Log) : Prop :=
  ∃ event, contract.unpackLog contract.newEventPointer log = .ok (.ok event)

variable {chainId : ℕ} {contract : ContractWatcher E} {cache : LogCache}
  {log : Log}

instance : Decidable (Decodes contract log) :=
  match h : contract.unpackLog contract.newEventPointer log with
  | .ok (.ok event) => isTrue ⟨event, h⟩
  | .ok (.error _) => isFalse (fun ⟨_, he⟩ => by rw [h] at he; cases he)
  | .error _ => isFalse (fun ⟨_, he⟩ => by rw [h] at he; cases he)

/-- Whatever becomes of the event, the cache has seen its log. -/
theorem onLog_cache : (onLog chainId contract cache log).1 =
    (cache.existsLog log).1 := by
  rw [onLog]
  dsimp only
  split
  · rfl
  · split <;> rfl

/-- The cache sees every log that the loop receives. -/
theorem watched_eq_feed (ls : List Log) :
    ∀ cache : LogCache, watched chainId contract cache ls = cache.feed ls := by
  induction ls with
  | nil => intro cache; rfl
  | cons l ls ih =>
      intro cache
      rw [watched, onLog_cache, ih]
      rfl

/-- What is new and decodes is relayed, and nothing else. -/
theorem onLog_relayed {event : E} :
    (onLog chainId contract cache log).2 =
        .relayed (contract.setEventRaw event log) ∧
      contract.unpackLog contract.newEventPointer log = .ok (.ok event) ↔
    (cache.existsLog log).2 = false ∧
      contract.unpackLog contract.newEventPointer log = .ok (.ok event) := by
  refine and_congr_left ?_
  intro hunpack
  rw [onLog, hunpack]
  dsimp only
  cases (cache.existsLog log).2 with
  | true => exact ⟨fun h => absurd h (by simp), fun h => absurd h (by simp)⟩
  | false => exact ⟨fun _ => rfl, fun _ => rfl⟩

/-! ## No request is lost -/

/-- What tells two logs of a chain apart. -/
def identity (l : Log) : ℕ × Hash × ℕ := (l.blockNumber, l.txHash, l.index)

/-- The log reaches `OnEvent` with its own event, after the logs `before`. -/
def Relays (chainId : ℕ) (contract : ContractWatcher E) (before : List Log)
    (l : Log) : Prop :=
  let cache := watched chainId contract newLogCache before
  (cache.existsLog l).2 = false ∧
  ∃ event, contract.unpackLog contract.newEventPointer l = .ok (.ok event) ∧
    (onLog chainId contract cache l).2 =
      .relayed (contract.setEventRaw event l)

/-- Every log of the same transaction was followed by a log of a higher block,
    one that nothing before it exceeds. -/
def Outdated (before : List Log) (l : Log) : Prop :=
  ∀ earlier x later, before = earlier ++ x :: later →
    x.blockNumber = l.blockNumber → x.txHash = l.txHash →
    ∃ mid y rest, later = mid ++ y :: rest ∧
      x.blockNumber < y.blockNumber ∧
      ∀ z ∈ earlier ++ x :: mid, z.blockNumber ≤ y.blockNumber

/-- The cache has forgotten a transaction exactly when every log of it is
    outdated. -/
theorem not_kept_iff_outdated {before : List Log} {l : Log} :
    ¬ Kept (before.map Log.key) l.key ↔ Outdated before l := by
  constructor
  · rintro hgone earlier x later rfl hblock htx
    have hkey : x.key = l.key := Prod.ext hblock htx
    by_contra hnone
    push Not at hnone
    refine hgone ⟨earlier.map Log.key, later.map Log.key, ?_, ?_⟩
    · rw [List.map_append, List.map_cons, hkey]
    · intro mid y rest hlater hlt
      obtain ⟨mid', rest', rfl, rfl, hrest⟩ := List.map_eq_append_iff.mp hlater
      obtain ⟨y', rest'', rfl, rfl, rfl⟩ := List.map_eq_cons_iff.mp hrest
      rw [← hkey] at hlt
      obtain ⟨z, hz, hyz⟩ := hnone mid' y' rest'' rfl hlt
      refine ⟨z.key, ?_, hyz⟩
      rw [← hkey, ← List.map_cons, ← List.map_append]
      exact List.mem_map_of_mem hz
  · rintro hout ⟨earlier, later, heq, hkept⟩
    obtain ⟨earlier', rest', rfl, rfl, hrest⟩ := List.map_eq_append_iff.mp heq
    obtain ⟨x, later', rfl, hkey, rfl⟩ := List.map_eq_cons_iff.mp hrest
    obtain ⟨mid, y, rest, rfl, hlt, htop⟩ := hout earlier' x later' rfl
      (congrArg Prod.fst hkey) (congrArg Prod.snd hkey)
    rw [List.map_append, List.map_cons, ← hkey] at hkept
    obtain ⟨z, hz, hyz⟩ := hkept _ _ _ rfl hlt
    rw [← List.map_cons, ← List.map_append] at hz
    obtain ⟨z', hz', rfl⟩ := List.mem_map.mp hz
    exact absurd (htop z' hz') (not_le.mpr hyz)

/-- One log after another reaches `OnEvent` if and only if it decodes and
    every earlier log of its transaction is outdated. -/
theorem relays_iff {before : List Log} {l : Log} :
    Relays chainId contract before l ↔
      Decodes contract l ∧ Outdated before l := by
  have hforgotten : (((watched chainId contract newLogCache before).existsLog
      l).2 = false) ↔ Outdated before l := by
    rw [watched_eq_feed, ← not_kept_iff_outdated, ← existsLog_feed,
      Bool.not_eq_true]
  rw [Relays, hforgotten]
  constructor
  · rintro ⟨hout, event, hunpack, -⟩
    exact ⟨⟨event, hunpack⟩, hout⟩
  · rintro ⟨⟨event, hunpack⟩, hout⟩
    exact ⟨hout, event, hunpack,
      (onLog_relayed.mpr ⟨hforgotten.mpr hout, hunpack⟩).1⟩

/-- Every log of the sequence that differs from all logs before it is
    relayed. -/
def NoneLost (chainId : ℕ) (contract : ContractWatcher E) (ls : List Log) :
    Prop :=
  ∀ before l after, ls = before ++ l :: after →
    (∀ x ∈ before, identity x ≠ identity l) → Relays chainId contract before l

/-- **WHEN NO REQUEST IS LOST**: of a sequence of deliveries every new log
    reaches `OnEvent` if and only if each of them decodes and finds every
    earlier log of its transaction outdated. -/
theorem none_lost_iff (chainId : ℕ) (contract : ContractWatcher E)
    (ls : List Log) :
    NoneLost chainId contract ls ↔
      ∀ before l after, ls = before ++ l :: after →
        (∀ x ∈ before, identity x ≠ identity l) →
        Decodes contract l ∧ Outdated before l := by
  constructor
  · intro h before l after heq hnew
    exact relays_iff.mp (h before l after heq hnew)
  · intro h before l after heq hnew
    exact relays_iff.mpr (h before l after heq hnew)

/-- A contract whose events are the logs themselves, and whose data are one
    byte at most. -/
def sampleContract : ContractWatcher (Option Log) where
  name := "OracleRequest"
  inputs := [⟨"requestType", false⟩]
  unpackIntoInterface := fun out _ data =>
    if data.length ≤ 1 then .ok out else .error "abi: improperly formatted output"
  parseTopics := fun out _ _ => .ok out
  newEventPointer := none
  setEventRaw := fun _ log => some log

/-- The `i`-th log of one transaction. -/
def sampleRequestLog (i : ℕ) : Log := ⟨7, bigToHash 1, i, [bigToHash 2], [0]⟩

/-- **A LOST REQUEST**: the second event of a transaction is skipped. -/
theorem second_request_lost :
    ¬ NoneLost 1 sampleContract [sampleRequestLog 0, sampleRequestLog 1] := by
  intro h
  have hrelays := h [sampleRequestLog 0] (sampleRequestLog 1) [] rfl
    (by decide +kernel)
  exact absurd hrelays.1 (by decide +kernel)

/-! ## The life of a watcher -/

/-- `clientWatcher` with the loops its subscriptions have started: the running
    ones by their numbers, the one in the field `sub`, and how many there have
    been. -/
structure Watcher where
  cache : LogCache
  sub : Option ℕ
  subscribed : Bool
  closed : Bool
  running : List ℕ
  started : ℕ

/-- `NewClientWatcher`. -/
def newClientWatcher : Watcher := ⟨newLogCache, none, false, false, [], 0⟩

/-- How a call of `watchEvents` goes, up to `setSubscribed`. -/
inductive Attempt where
  | fails (err : String)
  | starts
  /-- The new loop takes its subscription's error, and clears the flag, before
      the caller sets it. -/
  | startsAndEnds
  deriving DecidableEq

/-- What `Subscribe` and `Resubscribe` do; the one they replace is not
    unsubscribed. -/
def Watcher.replace (w : Watcher) : Attempt → Watcher
  | .fails _ => { w with sub := none, subscribed := false }
  | .starts =>
      { w with
        sub := some w.started
        subscribed := true
        running := w.started :: w.running
        started := w.started + 1 }
  | .startsAndEnds =>
      { w with
        sub := some w.started
        subscribed := true
        started := w.started + 1 }

/-- `Subscribe`. -/
def Watcher.subscribe (w : Watcher) (a : Attempt) : Watcher × Except String Unit :=
  (w.replace a,
    match a with
    | .fails err => .error err
    | _ => .ok ())

/-- `Resubscribe`. -/
def Watcher.resubscribe (chainId : ℕ) (contract : ContractWatcher E)
    (w : Watcher) (a : Attempt) : Watcher × Except String Unit :=
  (w.replace a,
    match a with
    | .fails err =>
        .error ("can not resubscribe to " ++ contract.name ++ " on chain "
          ++ toString chainId ++ " on error: " ++ err)
    | _ => .ok ())

/-- `Close`: `Unsubscribe` makes the loop of the field `sub` quit and waits
    for it; the flag stays. -/
def Watcher.close (w : Watcher) : Watcher :=
  { w with
    running :=
      match w.sub with
      | some i => w.running.erase i
      | none => w.running
    closed := true }

/-- What can happen to a watcher. -/
inductive Event where
  | subscribe (a : Attempt)
  | resubscribe (a : Attempt)
  | close
  /-- A running loop takes a log. -/
  | received (loop : ℕ) (log : Log)
  /-- A running loop takes an error of its subscription, or learns that it was
      unsubscribed. -/
  | subErr (loop : ℕ) (err : Option String)

/-- What comes of it. -/
inductive Output (E : Type) where
  | returned (result : Except String Unit)
  | closed
  | took (outcome : Outcome E)
  /-- The loop is over; `SendResubscribeSignal` has been called after an
      error. -/
  | over (signal : Bool)

/-- One event; a loop that is over takes nothing, and after a panic there is
    no process left. -/
def Watcher.react (chainId : ℕ) (contract : ContractWatcher E) (w : Watcher) :
    Event → Option (Watcher × Output E)
  | .subscribe a => some ((w.subscribe a).1, .returned (w.subscribe a).2)
  | .resubscribe a =>
      some ((w.resubscribe chainId contract a).1,
        .returned (w.resubscribe chainId contract a).2)
  | .close => some (w.close, .closed)
  | .received i log =>
      if i ∈ w.running then
        match onLog chainId contract w.cache log with
        | (_, .panicked _) => none
        | (cache, .failed err) =>
            some ({ w with cache := cache, running := w.running.erase i },
              .took (.failed err))
        | (cache, outcome) => some ({ w with cache := cache }, .took outcome)
      else none
  | .subErr i err =>
      if i ∈ w.running then
        some ({ w with running := w.running.erase i, subscribed := false },
          .over err.isSome)
      else none

/-- At most one loop, the flag says whether there is one, and none is left
    after `Close`. -/
structure Healthy (w : Watcher) : Prop where
  atMostOne : w.running.length ≤ 1
  flag : w.subscribed = true ↔ w.running ≠ []
  afterClose : w.closed = true → w.running = []

/-- An attempt that leaves a healthy watcher healthy: nothing is running, and
    a start comes before `Close` and lasts until the flag is set. -/
def OrderlyAttempt (w : Watcher) : Attempt → Prop
  | .fails _ => w.running = []
  | .starts => w.running = [] ∧ w.closed = false
  | .startsAndEnds => w.running ≠ []

/-- An event that leaves a healthy watcher healthy. -/
def Orderly (contract : ContractWatcher E) (w : Watcher) : Event → Prop
  | .subscribe a => OrderlyAttempt w a
  | .resubscribe a => OrderlyAttempt w a
  | .close => w.running = []
  | .received _ log => (w.cache.existsLog log).2 = true ∨ Decodes contract log
  | .subErr _ _ => True

instance (w : Watcher) : (a : Attempt) → Decidable (OrderlyAttempt w a)
  | .fails _ => inferInstanceAs (Decidable (w.running = []))
  | .starts => inferInstanceAs (Decidable (_ ∧ _))
  | .startsAndEnds => inferInstanceAs (Decidable (w.running ≠ []))

instance (w : Watcher) : (e : Event) → Decidable (Orderly contract w e)
  | .subscribe a => inferInstanceAs (Decidable (OrderlyAttempt w a))
  | .resubscribe a => inferInstanceAs (Decidable (OrderlyAttempt w a))
  | .close => inferInstanceAs (Decidable (w.running = []))
  | .received _ _ => inferInstanceAs (Decidable (_ ∨ _))
  | .subErr _ _ => inferInstanceAs (Decidable True)

theorem healthy_new : Healthy newClientWatcher where
  atMostOne := Nat.zero_le 1
  flag := ⟨fun h => absurd h Bool.false_ne_true, fun h => absurd rfl h⟩
  afterClose := fun _ => rfl

variable {w w' : Watcher}

/-- The only running loop of a healthy watcher. -/
theorem Healthy.running_eq (h : Healthy w) {i : ℕ} (hi : i ∈ w.running) :
    w.running = [i] := by
  have hlen := h.atMostOne
  cases hrun : w.running with
  | nil => rw [hrun] at hi; exact absurd hi List.not_mem_nil
  | cons j js =>
      rw [hrun] at hi hlen
      obtain rfl : js = [] := by
        rw [List.length_cons] at hlen
        exact List.eq_nil_of_length_eq_zero (by omega)
      rw [List.mem_singleton.mp hi]

theorem Healthy.flag_eq_false (h : Healthy w) :
    w.subscribed = false ↔ w.running = [] := by
  rw [← Bool.not_eq_true, h.flag, not_not]

/-- Both calls keep the watcher healthy exactly when their attempt is
    orderly. -/
theorem replace_healthy_iff (h : Healthy w) (a : Attempt) :
    Healthy (w.replace a) ↔ OrderlyAttempt w a := by
  cases a with
  | fails err =>
      constructor
      · intro h'
        by_contra hne
        exact absurd (h'.flag.mpr hne) Bool.false_ne_true
      · intro hempty
        exact ⟨h.atMostOne, ⟨fun hf => absurd hf Bool.false_ne_true,
          fun hne => absurd hempty hne⟩, h.afterClose⟩
  | starts =>
      constructor
      · intro h'
        have hlen : (w.started :: w.running).length ≤ 1 := h'.atMostOne
        rw [List.length_cons] at hlen
        refine ⟨List.eq_nil_of_length_eq_zero (by omega), ?_⟩
        by_contra hclosed
        rw [Bool.not_eq_false] at hclosed
        exact absurd (h'.afterClose hclosed) (List.cons_ne_nil _ _)
      · rintro ⟨hempty, hopen⟩
        refine ⟨?_, ⟨fun _ => List.cons_ne_nil _ _, fun _ => rfl⟩, ?_⟩
        · show (w.started :: w.running).length ≤ 1
          rw [hempty, List.length_singleton]
        · intro hclosed
          exact absurd (hopen.symm.trans hclosed) Bool.false_ne_true
  | startsAndEnds =>
      constructor
      · intro h'
        exact h'.flag.mp rfl
      · intro hne
        exact ⟨h.atMostOne, ⟨fun _ => hne, fun _ => rfl⟩, h.afterClose⟩

/-- Closing leaves a healthy watcher only where nothing ran. -/
theorem close_healthy_iff (h : Healthy w) :
    Healthy w.close ↔ w.running = [] := by
  constructor
  -- `close` leaves the flag, so a loop it ends leaves the flag up
  · intro h'
    have hempty : w.close.running = [] := h'.afterClose rfl
    rw [← h.flag_eq_false]
    exact h'.flag_eq_false.mpr hempty
  · intro hempty
    have hclose : w.close.running = [] := by
      rw [Watcher.close, hempty]
      cases w.sub <;> rfl
    refine ⟨?_, ?_, fun _ => hclose⟩
    · rw [hclose]
      exact Nat.zero_le 1
    · show w.subscribed = true ↔ w.close.running ≠ []
      rw [hclose, h.flag, hempty]

/-- A loop that ends on an error of its subscription clears the flag. -/
theorem subErr_healthy (h : Healthy w) {i : ℕ} (hi : i ∈ w.running) :
    Healthy { w with running := w.running.erase i, subscribed := false } := by
  have hempty : w.running.erase i = [] := by
    rw [h.running_eq hi, List.erase_cons_head]
  refine ⟨?_, ?_, fun _ => hempty⟩
  · show (w.running.erase i).length ≤ 1
    rw [hempty]
    exact Nat.zero_le 1
  · exact ⟨fun hf => absurd hf Bool.false_ne_true, fun hne => absurd hempty hne⟩

/-- A loop that ends on a log it can not unpack does not. -/
theorem failed_not_healthy (h : Healthy w) {i : ℕ} (hi : i ∈ w.running)
    (cache : LogCache) :
    ¬ Healthy { w with cache := cache, running := w.running.erase i } := by
  intro h'
  have hflag : w.subscribed = true := h.flag.mpr (List.ne_nil_of_mem hi)
  have hne : w.running.erase i ≠ [] := h'.flag.mp hflag
  rw [h.running_eq hi, List.erase_cons_head] at hne
  exact hne rfl

/-- The loop goes on after a log exactly when the cache knows it or it
    decodes. -/
theorem onLog_goesOn_iff :
    (onLog chainId contract cache log).2.goesOn = true ↔
      (cache.existsLog log).2 = true ∨ Decodes contract log := by
  rw [onLog, Decodes]
  obtain ⟨cache', known⟩ := cache.existsLog log
  cases known with
  | true => exact ⟨fun _ => Or.inl rfl, fun _ => rfl⟩
  | false =>
      cases contract.unpackLog contract.newEventPointer log with
      | error p => simp [Outcome.goesOn]
      | ok r =>
          cases r with
          | error err => simp [Outcome.goesOn]
          | ok event => exact ⟨fun _ => Or.inr ⟨event, rfl⟩, fun _ => rfl⟩

/-- **ONE EVENT**: a healthy watcher stays healthy exactly when the event is
    orderly. -/
theorem react_healthy_iff {e : Event} {o : Output E} (h : Healthy w)
    (hreact : w.react chainId contract e = some (w', o)) :
    Healthy w' ↔ Orderly contract w e := by
  cases e with
  | subscribe a =>
      obtain ⟨rfl, -⟩ := Prod.mk.inj (Option.some.inj hreact)
      exact replace_healthy_iff h a
  | resubscribe a =>
      obtain ⟨rfl, -⟩ := Prod.mk.inj (Option.some.inj hreact)
      exact replace_healthy_iff h a
  | close =>
      obtain ⟨rfl, -⟩ := Prod.mk.inj (Option.some.inj hreact)
      exact close_healthy_iff h
  | subErr i err =>
      rw [Watcher.react] at hreact
      split at hreact
      · rename_i hi
        obtain ⟨rfl, -⟩ := Prod.mk.inj (Option.some.inj hreact)
        exact ⟨fun _ => trivial, fun _ => subErr_healthy h hi⟩
      · cases hreact
  | received i log =>
      rw [Watcher.react] at hreact
      split at hreact
      · rename_i hi
        split at hreact
        · cases hreact
        -- the loop returns on the error and leaves its subscription
        · rename_i cache' err hlog
          obtain ⟨rfl, -⟩ := Prod.mk.inj (Option.some.inj hreact)
          rw [Orderly, ← @onLog_goesOn_iff E chainId, hlog]
          exact ⟨fun h' => absurd h' (failed_not_healthy h hi _),
            fun hgoes => absurd hgoes Bool.false_ne_true⟩
        · rename_i cache' outcome hpanic hfail hlog
          obtain ⟨rfl, -⟩ := Prod.mk.inj (Option.some.inj hreact)
          rw [Orderly, ← @onLog_goesOn_iff E chainId, hlog]
          refine ⟨fun _ => ?_, fun _ => ⟨h.atMostOne, h.flag, h.afterClose⟩⟩
          cases outcome with
          | skipped => rfl
          | relayed event => rfl
          | failed err => exact absurd rfl (hfail err)
          | panicked p => exact absurd rfl (hpanic p)
      · cases hreact

/-- **THE LIFE CYCLE**: along every run of orderly events the watcher is
    healthy in every state, and the first event that is not orderly ends
    that. -/
theorem healthy_exactly_when_orderly (chainId : ℕ)
    (contract : ContractWatcher E) :
    ∀ tr w, Run (Guarded (Fires (Watcher.react chainId contract))
        (fun w l => Orderly contract w l.1)) newClientWatcher tr w →
      Healthy w ∧
      ∀ e w' o, w.react chainId contract e = some (w', o) →
        (Healthy w' ↔ Orderly contract w e) := by
  intro tr w hrun
  have hw : Healthy w := hrun.invariant healthy_new
    (fun _ _ _ ha hstep => (react_healthy_iff ha hstep.1).mpr hstep.2)
  exact ⟨hw, fun e w' o hreact => react_healthy_iff hw hreact⟩

/-- A subscription that delivers a request, breaks, is replaced and breaks
    again before the watcher is closed. -/
theorem healthy_exactly_when_orderly_sample :
    ∃ tr w, Run (Guarded (Fires (Watcher.react 1 sampleContract))
        (fun w l => Orderly sampleContract w l.1)) newClientWatcher tr w ∧
      (w.started = 2 ∧ w.closed = true) ∧ Healthy w := by
  obtain ⟨tr, w, hrun, hw⟩ := exists_run
    (fun _ (w : Watcher) => w.started = 2 ∧ w.closed = true)
    (show (execute (restrict (fun w e => decide (Orderly sampleContract w e))
        (Watcher.react 1 sampleContract)) newClientWatcher
      [.subscribe .starts, .received 0 (sampleRequestLog 0),
        .subErr 0 (some "EOF"), .resubscribe .starts,
        .received 1 (sampleRequestLog 0), .subErr 1 none, .close]).any _
        = true by decide +kernel)
  have hguarded := (restrict_run hrun).mono (fun _ _ _ hstep =>
    (⟨hstep.1, of_decide_eq_true hstep.2⟩ :
      Guarded (Fires (Watcher.react 1 sampleContract))
        (fun w l => Orderly sampleContract w l.1) _ _ _))
  exact ⟨tr, w, hguarded, hw,
    (healthy_exactly_when_orderly 1 sampleContract tr w hguarded).1⟩

/-- **THE LIFE CYCLE BREAKS**: `Resubscribe` on a running watcher makes a
    second loop, which `Close` does not end; and a log that does not decode,
    or `Close` itself, leaves the flag set without a loop. -/
theorem life_cycle_breaks :
    (∃ tr w, Run (Fires (Watcher.react 1 sampleContract)) newClientWatcher tr w ∧
      w.running.length = 2) ∧
    (∃ tr w, Run (Fires (Watcher.react 1 sampleContract)) newClientWatcher tr w ∧
      w.closed = true ∧ w.running ≠ []) ∧
    (∃ tr w, Run (Fires (Watcher.react 1 sampleContract)) newClientWatcher tr w ∧
      w.closed = false ∧ w.subscribed = true ∧ w.running = []) ∧
    ∃ tr w, Run (Fires (Watcher.react 1 sampleContract)) newClientWatcher tr w ∧
      w.closed = true ∧ w.subscribed = true ∧ w.running = [] := by
  refine ⟨?_, ?_, ?_, ?_⟩
  · exact exists_run (fun _ (w : Watcher) => w.running.length = 2)
      (show (execute (Watcher.react 1 sampleContract) newClientWatcher
        [.subscribe .starts, .resubscribe .starts]).any _ = true by decide)
  · exact exists_run (fun _ (w : Watcher) => w.closed = true ∧ w.running ≠ [])
      (show (execute (Watcher.react 1 sampleContract) newClientWatcher
        [.subscribe .starts, .resubscribe .starts, .close]).any _
        = true by decide)
  · exact exists_run (fun _ (w : Watcher) =>
        w.closed = false ∧ w.subscribed = true ∧ w.running = [])
      (show (execute (Watcher.react 1 sampleContract) newClientWatcher
        [.subscribe .starts,
          .received 0 ⟨7, bigToHash 1, 0, [bigToHash 2], [0, 0]⟩]).any _
        = true by decide +kernel)
  · exact exists_run (fun _ (w : Watcher) =>
        w.closed = true ∧ w.subscribed = true ∧ w.running = [])
      (show (execute (Watcher.react 1 sampleContract) newClientWatcher
        [.subscribe .starts, .close]).any _ = true by decide)

end RelayerWatcher
