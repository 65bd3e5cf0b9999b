import Relayer.MapProofs
import Relayer.TransitionProofs

/-! # The topics of a node

    `Protocol` of `consensus/consensus.go`: the pubsub topics a node has joined
    and its subscriptions, in two maps, next to the handles that are open in
    pubsub itself.  `JoinTopic`, `Subscribe` and `LeaveTopic` hold the mutex
    from their first statement to their last, so that each call is one step;
    what pubsub answers is part of the call.

    * `Moves` says what a call does to the two maps and to pubsub;
    * `Booked` is what holds after any calls, and `Leaked` is a topic that is
      open in pubsub and in no map;
    * **`topics_booked`**: the maps and pubsub agree exactly as long as no
      `Close` of a `LeaveTopic` has failed;
    * **`topic_leaks`**: a topic whose `Close` fails can be neither left nor
      joined again. -/

namespace RelayerTopics

open Maps Transition

/-! ## Pubsub -/

/-- `pubsub.PubSub`: the open handle of each topic; handles and subscriptions
    are numbered. -/
structure PubSub where
  opened : String → Option ℕ
  next : ℕ

/-- `PubSub.Join`: it fails for a topic that is open, or with `err`. -/
def PubSub.join (p : PubSub) (topicName : String) (err : Option String) :
    Except String (PubSub × ℕ) :=
  match p.opened topicName, err with
  | some _, _ => .error "topic already exists"
  | none, some err => .error err
  | none, none => .ok (⟨set p.opened topicName p.next, p.next + 1⟩, p.next)

/-- `Topic.Subscribe`: it fails for a closed handle, or with `err`. -/
def PubSub.subscribe (p : PubSub) (topicName : String) (topic : ℕ)
    (err : Option String) : Except String (PubSub × ℕ) :=
  if p.opened topicName = some topic then
    match err with
    | some err => .error err
    | none => .ok (⟨p.opened, p.next + 1⟩, p.next)
  else .error "this Topic is closed, try opening a new one"

/-- `Topic.Close`: with `err` the topic stays open. -/
def PubSub.close (p : PubSub) (topicName : String) (topic : ℕ)
    (err : Option String) : Except String PubSub :=
  if p.opened topicName = some topic then
    match err with
    | some err => .error err
    | none => .ok ⟨delete p.opened topicName, p.next⟩
  else .ok p

/-! ## The protocol -/

/-- `Protocol`. -/
structure Protocol where
  pubsub : PubSub
  mainTopic : String
  topics : String → Option ℕ
  subscriptions : String → Option ℕ

/-- The answer of a call: an error, or the handle of `JoinTopic`. -/
abbrev Answer := Except String (Option ℕ)

/-- `NewPubSubWithTopic`, with the errors of `NewGossipSub`, `Join` and
    `Subscribe`. -/
def newPubSubWithTopic (mainTopicName : String)
    (gossipErr joinErr subscribeErr : Option String) :
    Except String Protocol :=
  match gossipErr with
  | some err => .error err
  | none =>
      match PubSub.join ⟨fun _ => none, 0⟩ mainTopicName joinErr with
      | .error err => .error err
      | .ok (pubsub, topic) =>
          match pubsub.subscribe mainTopicName topic subscribeErr with
          | .error err => .error err
          | .ok (pubsub, subscription) =>
              .ok {
                pubsub := pubsub
                mainTopic := mainTopicName
                topics := set (fun _ => none) mainTopicName topic
                subscriptions :=
                  set (fun _ => none) mainTopicName subscription }

/-- `JoinTopic`. -/
def Protocol.joinTopic (c : Protocol) (topicName : String)
    (err : Option String) : Protocol × Answer :=
  match c.topics topicName with
  | some topic => (c, .ok (some topic))
  | none =>
      match c.pubsub.join topicName err with
      | .error err => (c, .error err)
      | .ok (pubsub, topic) =>
          ({ c with pubsub := pubsub, topics := set c.topics topicName topic },
            .ok (some topic))

/-- `Subscribe`. -/
def Protocol.subscribe (c : Protocol) (topicName : String)
    (err : Option String) : Protocol × Answer :=
  match c.topics topicName with
  | none => (c, .error ("topic " ++ topicName ++ " not joined"))
  | some topic =>
      match c.subscriptions topicName with
      | some _ => (c, .ok none)
      | none =>
          match c.pubsub.subscribe topicName topic err with
          | .error err =>
              (c, .error ("topic " ++ topicName ++ " subscribe error " ++ err))
          | .ok (pubsub, subscription) =>
              ({ c with
                  pubsub := pubsub
                  subscriptions := set c.subscriptions topicName subscription },
                .ok none)

/-- The topic leaves both maps. -/
def Protocol.forget (c : Protocol) (topicName : String) : Protocol :=
  { c with
    topics := delete c.topics topicName
    subscriptions := delete c.subscriptions topicName }

/-- `LeaveTopic`: the topic leaves the maps before its handle is closed. -/
def Protocol.leaveTopic (c : Protocol) (topicName : String)
    (err : Option String) : Protocol × Answer :=
  match c.topics topicName with
  | none => (c, .ok none)
  | some topic =>
      if topicName = c.mainTopic then (c, .ok none)
      else
        match c.pubsub.close topicName topic err with
        | .error err => (c.forget topicName, .error err)
        | .ok pubsub => ({ c.forget topicName with pubsub := pubsub }, .ok none)

/-- A call, with the error that pubsub would answer. -/
inductive Call where
  | joinTopic (topicName : String) (err : Option String)
  | subscribe (topicName : String) (err : Option String)
  | leaveTopic (topicName : String) (err : Option String)

/-- One call. -/
def Protocol.react (c : Protocol) : Call → Option (Protocol × Answer)
  | .joinTopic topicName err => some (c.joinTopic topicName err)
  | .subscribe topicName err => some (c.subscribe topicName err)
  | .leaveTopic topicName err => some (c.leaveTopic topicName err)

/-- The topic of a `LeaveTopic` that returned an error. -/
def failedLeave : Call × Answer → Option String
  | (.leaveTopic topicName _, .error _) => some topicName
  | _ => none

/-! ## What a call does -/

/-- What a call can do; only `leaks` is a failed `LeaveTopic`. -/
inductive Moves (c : Protocol) (l : Call × Answer) : Protocol → Prop where
  | still : failedLeave l = none → Moves c l c
  | joins (n : String) : failedLeave l = none → c.topics n = none →
      c.pubsub.opened n = none →
      Moves c l { c with
        pubsub := ⟨set c.pubsub.opened n c.pubsub.next, c.pubsub.next + 1⟩
        topics := set c.topics n c.pubsub.next }
  | subscribes (n : String) : failedLeave l = none →
      (c.topics n).isSome = true →
      Moves c l { c with
        pubsub := ⟨c.pubsub.opened, c.pubsub.next + 1⟩
        subscriptions := set c.subscriptions n c.pubsub.next }
  | leaves (n : String) : failedLeave l = none → (c.topics n).isSome = true →
      n ≠ c.mainTopic →
      Moves c l { c.forget n with
        pubsub := ⟨delete c.pubsub.opened n, c.pubsub.next⟩ }
  | leaks (n : String) : failedLeave l = some n →
      (c.topics n).isSome = true → n ≠ c.mainTopic → Moves c l (c.forget n)

/-- What holds after any calls: a subscription has its topic, the main topic
    has both, and the handles in the map are open. -/
structure Booked (c : Protocol) : Prop where
  subscribed : ∀ n, (c.subscriptions n).isSome = true →
    (c.topics n).isSome = true
  mainJoined : (c.topics c.mainTopic).isSome = true
  mainSubscribed : (c.subscriptions c.mainTopic).isSome = true
  opened : ∀ n topic, c.topics n = some topic →
    c.pubsub.opened n = some topic

variable {c c' : Protocol} {n : String} {err : Option String} {answer : Answer}

/-- `JoinTopic` joins a topic it does not know, or changes nothing. -/
theorem joinTopic_moves (h : c.joinTopic n err = (c', answer)) :
    Moves c (.joinTopic n err, answer) c' := by
  rw [Protocol.joinTopic] at h
  cases htopic : c.topics n with
  | some topic =>
      rw [htopic] at h
      cases h
      exact .still rfl
  | none =>
      cases hopened : c.pubsub.opened n with
      | some topic =>
          simp only [htopic, PubSub.join, hopened] at h
          cases h
          exact .still rfl
      | none =>
          cases err with
          | some err =>
              simp only [htopic, PubSub.join, hopened] at h
              cases h
              exact .still rfl
          | none =>
              simp only [htopic, PubSub.join, hopened] at h
              cases h
              exact .joins n rfl htopic hopened

theorem subscribe_moves (hbooked : Booked c)
    (h : c.subscribe n err = (c', answer)) :
    Moves c (.subscribe n err, answer) c' := by
  rw [Protocol.subscribe] at h
  cases htopic : c.topics n with
  | none =>
      rw [htopic] at h
      cases h
      exact .still rfl
  | some topic =>
      rw [htopic] at h
      cases hsub : c.subscriptions n with
      | some sub =>
          simp only [hsub] at h
          cases h
          exact .still rfl
      | none =>
          have hopened := hbooked.opened n topic htopic
          cases err with
          | some err =>
              simp only [hsub, PubSub.subscribe, if_pos hopened] at h
              cases h
              exact .still rfl
          | none =>
              simp only [hsub, PubSub.subscribe, if_pos hopened] at h
              cases h
              exact .subscribes n rfl (by rw [htopic]; rfl)

/-- `LeaveTopic` changes nothing, leaves its topic, or leaks it. -/
theorem leaveTopic_moves (hbooked : Booked c)
    (h : c.leaveTopic n err = (c', answer)) :
    Moves c (.leaveTopic n err, answer) c' := by
  rw [Protocol.leaveTopic] at h
  cases htopic : c.topics n with
  | none =>
      rw [htopic] at h
      cases h
      exact .still rfl
  | some topic =>
      simp only [htopic] at h
      have hjoined : (c.topics n).isSome = true := by rw [htopic]; rfl
      have hopened := hbooked.opened n topic htopic
      by_cases hmain : n = c.mainTopic
      · rw [if_pos hmain] at h
        cases h
        exact .still rfl
      -- pubsub refuses to close: the topic is forgotten here and stays open there
      · cases err with
        | some err =>
            simp only [if_neg hmain, PubSub.close, if_pos hopened] at h
            cases h
            exact .leaks n rfl hjoined hmain
        | none =>
            simp only [if_neg hmain, PubSub.close, if_pos hopened] at h
            cases h
            exact .leaves n rfl hjoined hmain

/-- Every call on booked topics is one of the five moves. -/
theorem react_moves {l : Call × Answer} (hbooked : Booked c)
    (h : Fires Protocol.react c l c') : Moves c l c' := by
  obtain ⟨call, answer⟩ := l
  cases call with
  | joinTopic n err => exact joinTopic_moves (Option.some.inj h)
  | subscribe n err => exact subscribe_moves hbooked (Option.some.inj h)
  | leaveTopic n err => exact leaveTopic_moves hbooked (Option.some.inj h)

/-! ## The books -/

theorem isSome_set {m : String → Option ℕ} {k : String} {v : ℕ} {k' : String} :
    (set m k v k').isSome = true ↔ k' = k ∨ (m k').isSome = true := by
  by_cases hk : k' = k
  · subst hk
    simp
  · rw [set_of_ne hk]
    exact ⟨Or.inr, fun h => h.resolve_left hk⟩

theorem isSome_delete {m : String → Option ℕ} {k k' : String} :
    (delete m k k').isSome = true ↔ k' ≠ k ∧ (m k').isSome = true := by
  by_cases hk : k' = k
  · subst hk
    simp
  · rw [delete_of_ne hk]
    exact ⟨fun h => ⟨hk, h⟩, And.right⟩

/-- Forgetting a topic keeps the others booked. -/
theorem Booked.forget (h : Booked c) (hmain : n ≠ c.mainTopic) :
    Booked (c.forget n) where
  subscribed k hk := by
    obtain ⟨hne, hsome⟩ := isSome_delete.mp hk
    exact isSome_delete.mpr ⟨hne, h.subscribed k hsome⟩
  mainJoined := isSome_delete.mpr ⟨hmain.symm, h.mainJoined⟩
  mainSubscribed := isSome_delete.mpr ⟨hmain.symm, h.mainSubscribed⟩
  opened k topic hk := h.opened k topic (delete_eq_some.mp hk).2

/-- **A CALL KEEPS THE BOOKS**. -/
theorem Moves.booked {l : Call × Answer} (hmoves : Moves c l c')
    (h : Booked c) : Booked c' := by
  cases hmoves with
  | still => exact h
  | joins n _ hnew hclosed =>
      refine ⟨?_, ?_, h.mainSubscribed, ?_⟩
      · intro k hk
        exact isSome_set.mpr (Or.inr (h.subscribed k hk))
      · exact isSome_set.mpr (Or.inr h.mainJoined)
      · intro k topic hk
        rcases set_eq_some.mp hk with ⟨rfl, rfl⟩ | ⟨hne, hk⟩
        · exact set_self
        · exact (set_of_ne hne).trans (h.opened k topic hk)
  | subscribes n _ hjoined =>
      refine ⟨?_, h.mainJoined, ?_, h.opened⟩
      · intro k hk
        rcases isSome_set.mp hk with rfl | hk
        · exact hjoined
        · exact h.subscribed k hk
      · exact isSome_set.mpr (Or.inr h.mainSubscribed)
  | leaves n _ _ hmain =>
      have hforget := h.forget hmain
      refine ⟨hforget.subscribed, hforget.mainJoined, hforget.mainSubscribed, ?_⟩
      intro k topic hk
      obtain ⟨hne, hk⟩ := delete_eq_some.mp hk
      exact delete_eq_some.mpr ⟨hne, h.opened k topic hk⟩
  | leaks n _ _ hmain => exact h.forget hmain

theorem Moves.mainTopic_eq {l : Call × Answer} (hmoves : Moves c l c') :
    c'.mainTopic = c.mainTopic := by
  cases hmoves with
  | still | joins | subscribes | leaves | leaks => rfl

/-- A protocol with its main topic, in both maps and in pubsub. -/
def started (mainTopicName : String) : Protocol where
  pubsub := ⟨set (fun _ => none) mainTopicName 0, 2⟩
  mainTopic := mainTopicName
  topics := set (fun _ => none) mainTopicName 0
  subscriptions := set (fun _ => none) mainTopicName 1

/-- The main topic is booked at the start. -/
theorem booked_started (mainTopicName : String) :
    Booked (started mainTopicName) := by
  refine ⟨?_, by simp [started], by simp [started], fun _ _ hn => hn⟩
  intro n hn
  rw [started, isSome_set] at hn
  rcases hn with rfl | hn
  · simp [started]
  · cases hn

/-- A constructor without an error has started so. -/
theorem newPubSubWithTopic_eq_ok {mainTopicName : String}
    {gossipErr joinErr subscribeErr : Option String}
    (h : newPubSubWithTopic mainTopicName gossipErr joinErr subscribeErr =
      .ok c) : c = started mainTopicName := by
  cases gossipErr with
  | some err => cases h
  | none =>
      cases joinErr with
      | some err => cases h
      | none =>
          cases subscribeErr with
          | some err =>
              simp [newPubSubWithTopic, PubSub.join, PubSub.subscribe] at h
          | none =>
              simp only [newPubSubWithTopic, PubSub.join, PubSub.subscribe,
                set_self, if_true] at h
              cases h
              rfl

/-! ## The leaks -/

/-- A topic that is open in pubsub, and in no map. -/
def Leaked (c : Protocol) (n : String) : Prop :=
  c.topics n = none ∧ (c.pubsub.opened n).isSome = true

/-- The maps and pubsub agree when nothing has leaked. -/
theorem Booked.opened_eq_iff (h : Booked c) :
    c.pubsub.opened = c.topics ↔ ∀ n, ¬ Leaked c n := by
  constructor
  · intro heq n hleaked
    rw [Leaked, heq] at hleaked
    rw [hleaked.1] at hleaked
    cases hleaked.2
  · intro hnone
    funext n
    cases htopic : c.topics n with
    | some topic => exact h.opened n topic htopic
    | none =>
        cases hopened : c.pubsub.opened n with
        | none => rfl
        | some topic => exact absurd ⟨htopic, by rw [hopened]; rfl⟩ (hnone n)

/-- **A LEAK** comes from a failed `LeaveTopic`, and stays. -/
theorem Moves.leaked_iff {l : Call × Answer} (hmoves : Moves c l c')
    (h : Booked c) (k : String) :
    Leaked c' k ↔ Leaked c k ∨ failedLeave l = some k := by
  cases hmoves with
  | still hl =>
      rw [hl]
      simp
  | joins n hl hnew hclosed =>
      rw [hl]
      by_cases hk : k = n
      · subst hk
        simp [Leaked, hclosed]
      · simp [Leaked, set_of_ne hk]
  | subscribes n hl hjoined =>
      rw [hl]
      simp [Leaked]
  | leaves n hl hjoined _ =>
      rw [hl]
      by_cases hk : k = n
      · subst hk
        have hopen : c.topics k ≠ none := Option.isSome_iff_ne_none.mp hjoined
        simp [Leaked, hopen]
      · simp [Leaked, Protocol.forget, delete_of_ne hk]
  | leaks n hl hjoined _ =>
      rw [hl]
      by_cases hk : k = n
      · subst hk
        obtain ⟨topic, htopic⟩ := Option.isSome_iff_exists.mp hjoined
        simp [Leaked, Protocol.forget, h.opened k topic htopic]
      · have hne : n ≠ k := fun heq => hk heq.symm
        simp [Leaked, Protocol.forget, delete_of_ne hk, hne]

/-- What holds after a run: the books, and a leak for each failed
    `LeaveTopic`. -/
theorem booked_run {mainTopicName : String} {tr : List (Call × Answer)}
    (hrun : Run (Fires Protocol.react) (started mainTopicName) tr c) :
    Booked c ∧ c.mainTopic = mainTopicName ∧
      ∀ n, Leaked c n ↔ ∃ l ∈ tr, failedLeave l = some n := by
  refine hrun.traced (P := fun tr c => Booked c ∧ c.mainTopic = mainTopicName ∧
    ∀ n, Leaked c n ↔ ∃ l ∈ tr, failedLeave l = some n) ?_ ?_
  · have hstart := booked_started mainTopicName
    refine ⟨hstart, rfl, fun n => ?_⟩
    simp [hstart.opened_eq_iff.mp rfl n]
  · rintro tr a l b ⟨hbooked, hmain, hleaked⟩ hstep
    have hmoves := react_moves hbooked hstep
    refine ⟨hmoves.booked hbooked, hmoves.mainTopic_eq.trans hmain, fun n => ?_⟩
    rw [hmoves.leaked_iff hbooked n, hleaked n]
    simp [or_and_right, exists_or]

/-- **THE BOOKS OF THE TOPICS**: after any calls, with any failures, a
    subscription has its topic, the main topic has both, and the handles in the
    map are open; the open handles are exactly those in the map when no
    `LeaveTopic` has returned an error, and then only. -/
theorem topics_booked {mainTopicName : String}
    {gossipErr joinErr subscribeErr : Option String} {tr : List (Call × Answer)}
    (hnew : newPubSubWithTopic mainTopicName gossipErr joinErr subscribeErr =
      .ok c)
    (hrun : Run (Fires Protocol.react) c tr c') :
    Booked c' ∧ c'.mainTopic = mainTopicName ∧
      (c'.pubsub.opened = c'.topics ↔ ∀ l ∈ tr, failedLeave l = none) := by
  obtain rfl := newPubSubWithTopic_eq_ok hnew
  obtain ⟨hbooked, hmain, hleaked⟩ := booked_run hrun
  refine ⟨hbooked, hmain, ?_⟩
  rw [hbooked.opened_eq_iff]
  constructor
  · intro hnone l hl
    cases hfailed : failedLeave l with
    | none => rfl
    | some n => exact absurd ((hleaked n).mpr ⟨l, hl, hfailed⟩) (hnone n)
  · intro hall n hn
    obtain ⟨l, hl, hfailed⟩ := (hleaked n).mp hn
    rw [hall l hl] at hfailed
    cases hfailed

/-- Two topics, one of which is left again. -/
def orderlyCalls : List Call :=
  [.joinTopic "a" none, .subscribe "a" none, .joinTopic "b" (some "refused"),
    .joinTopic "b" none, .leaveTopic "a" none]

/-- Joins and leaves without a failure: both sides agree. -/
theorem topics_booked_sample :
    ∃ tr c, Run (Fires Protocol.react) (started "main") tr c ∧
      c.topics "b" = some 4 ∧ c.pubsub.opened = c.topics := by
  obtain ⟨tr, c, hrun, hb, hall⟩ := exists_run
    (fun tr (c : Protocol) =>
      c.topics "b" = some 4 ∧ ∀ l ∈ tr, failedLeave l = none)
    (show (execute Protocol.react (started "main") orderlyCalls).any _ = true
      by decide +kernel)
  have hnew : newPubSubWithTopic "main" none none none = .ok (started "main") :=
    rfl
  exact ⟨tr, c, hrun, hb, (topics_booked hnew hrun).2.2.mpr hall⟩

/-- **A TOPIC LEAKS**: `LeaveTopic` returns the error of `Close` with the topic
    and its subscription taken out of the maps.  The handle is open, and in
    every later state the topic can be neither joined nor left. -/
theorem topic_leaks :
    ∃ tr c, Run (Fires Protocol.react) (started "main") tr c ∧
      c.topics "a" = some 2 ∧ (c.subscriptions "a").isSome = true ∧
      ∃ c', c.leaveTopic "a" (some "outstanding subscriptions") =
          (c', .error "outstanding subscriptions") ∧
        c'.topics "a" = none ∧ c'.subscriptions "a" = none ∧
        c'.pubsub.opened "a" = some 2 ∧ c'.pubsub.opened ≠ c'.topics ∧
        ∀ tr' c'', Run (Fires Protocol.react) c' tr' c'' →
          (∀ err, c''.joinTopic "a" err = (c'', .error "topic already exists")) ∧
          ∀ err, c''.leaveTopic "a" err = (c'', .ok none) := by
  obtain ⟨tr, c, hrun, htopic, hsub⟩ := exists_run
    (fun _ (c : Protocol) =>
      c.topics "a" = some 2 ∧ (c.subscriptions "a").isSome = true)
    (show (execute Protocol.react (started "main")
      [.joinTopic "a" none, .subscribe "a" none]).any _ = true
      by decide +kernel)
  obtain ⟨hbooked, hmain, -⟩ := booked_run hrun
  have hopened := hbooked.opened "a" 2 htopic
  have hother : "a" ≠ c.mainTopic := by
    rw [hmain]
    decide
  have hleave : c.leaveTopic "a" (some "outstanding subscriptions") =
      (c.forget "a", .error "outstanding subscriptions") := by
    simp only [Protocol.leaveTopic, htopic, if_neg hother, PubSub.close,
      if_pos hopened]
  have hleft : (c.forget "a").topics "a" = none := by
    simp [Protocol.forget]
  have hunsubscribed : (c.forget "a").subscriptions "a" = none := by
    simp [Protocol.forget]
  refine ⟨tr, c, hrun, htopic, hsub, c.forget "a", hleave, hleft,
    hunsubscribed, hopened, ?_, ?_⟩
  · intro heq
    rw [← heq] at hleft
    exact absurd (hopened.symm.trans hleft) (by simp)
  · intro tr' c'' hlater
    -- the leak stays, whatever is called
    have hleaked : Booked c'' ∧ Leaked c'' "a" := by
      refine hlater.invariant (P := fun c => Booked c ∧ Leaked c "a")
        ⟨hbooked.forget hother, hleft, by
          change (c.pubsub.opened "a").isSome = true
          rw [hopened]
          rfl⟩ ?_
      rintro a l b ⟨ha, hleak⟩ hstep
      have hmoves := react_moves ha hstep
      exact ⟨hmoves.booked ha, (hmoves.leaked_iff ha "a").mpr (Or.inl hleak)⟩
    obtain ⟨-, hnone, hopen⟩ := hleaked
    obtain ⟨topic, htopen⟩ := Option.isSome_iff_exists.mp hopen
    constructor
    · intro err
      simp only [Protocol.joinTopic, hnone, PubSub.join, htopen]
    · intro err
      simp only [Protocol.leaveTopic, hnone]

end RelayerTopics
