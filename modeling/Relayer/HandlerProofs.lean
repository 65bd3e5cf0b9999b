import Relayer.PubSubProofs
import Relayer.RoutineProofs

/-! # Handlers and their topics

    `HandleOracleRequest` and `StartEpoch` use topics in one way: join, subscribe,
    work, and leave by a deferred call on every way out.  The watchers start a
    goroutine for each event, so that any number of handlers run at once on the
    books of one node, also on one topic: the topic of a request is the hash of
    its transaction, which may carry several.

    * `Does` says once what a step can do;
    * `Held` is what holds after any steps, `Alone` where no two handlers in
      flight have one topic;
    * **`topics_held`**: no topic outlives its handlers in the books, and a
      handler that is alone on its topic keeps it until it leaves. -/

namespace RelayerHandlers

open Maps RelayerPubSub RelayerTopics Routines Transition

/-! ## Handlers -/

/-- How far a handler has come. -/
inductive Phase where
  | joined
  /-- Subscribed to the topic, and at work. -/
  | working
  /-- `Subscribe` returned an error. -/
  | failed
  | returned
  deriving DecidableEq

/-- A call of `HandleOracleRequest` or `StartEpoch`. -/
structure Handler where
  topicName : String
  phase : Phase
  deriving DecidableEq

/-- The handler has still to leave its topic. -/
def Handler.inFlight (h : Handler) : Bool :=
  decide (h.phase ≠ .returned)

/-- The books of a node, and its handlers. -/
structure State where
  protocol : Protocol
  handlers : List Handler

/-- What may happen, with the errors of pubsub. -/
inductive Action where
  | joins (topicName : String) (err : Option String)
  | subscribes (i : ℕ) (err : Option String)
  | leaves (i : ℕ) (err : Option String)

/-- One step, if it is possible. -/
def State.react (s : State) : Action → Option (State × Answer)
  | .joins topicName err =>
      let (c, answer) := s.protocol.joinTopic topicName err
      match answer with
      | .ok _ => some (⟨c, s.handlers ++ [⟨topicName, .joined⟩]⟩, answer)
      | .error _ => some (⟨c, s.handlers⟩, answer)
  | .subscribes i err =>
      match s.handlers[i]? with
      | some ⟨topicName, .joined⟩ =>
          let (c, answer) := s.protocol.subscribe topicName err
          match answer with
          | .ok _ => some (⟨c, s.handlers.set i ⟨topicName, .working⟩⟩, answer)
          | .error _ => some (⟨c, s.handlers.set i ⟨topicName, .failed⟩⟩, answer)
      | _ => none
  | .leaves i err =>
      match s.handlers[i]? with
      | some ⟨topicName, .working⟩ | some ⟨topicName, .failed⟩ =>
          let (c, answer) := s.protocol.leaveTopic topicName err
          some (⟨c, s.handlers.set i ⟨topicName, .returned⟩⟩, answer)
      | _ => none

/-! ## What one step does -/

/-- All that a step can do. -/
inductive Does (s : State) : Action → State → Prop where
  | joins {t : String} {err : Option String} {answer : Option ℕ}
      (hjoin : (s.protocol.joinTopic t err).2 = .ok answer) :
      Does s (.joins t err)
        ⟨(s.protocol.joinTopic t err).1, s.handlers ++ [⟨t, .joined⟩]⟩
  | refused {t : String} {err : Option String} {e : String}
      (hjoin : (s.protocol.joinTopic t err).2 = .error e) :
      Does s (.joins t err) ⟨(s.protocol.joinTopic t err).1, s.handlers⟩
  | subscribes {i : ℕ} {t : String} {err : Option String} {phase : Phase}
      (hi : s.handlers[i]? = some ⟨t, .joined⟩)
      (hphase : phase = .failed ∨ phase = .working ∧
        ((s.protocol.subscribe t err).1.subscriptions t).isSome = true) :
      Does s (.subscribes i err)
        ⟨(s.protocol.subscribe t err).1, s.handlers.set i ⟨t, phase⟩⟩
  | leaves {i : ℕ} {t : String} {err : Option String} {phase : Phase}
      (hi : s.handlers[i]? = some ⟨t, phase⟩) (hphase : phase ≠ .returned) :
      Does s (.leaves i err)
        ⟨(s.protocol.leaveTopic t err).1, s.handlers.set i ⟨t, .returned⟩⟩

variable {s s' : State} {a : Action} {answer : Answer}

/-- **WHAT A STEP DOES**. -/
theorem does_of_react (h : s.react a = some (s', answer)) : Does s a s' := by
  cases a with
  | joins t err =>
      simp only [State.react] at h
      cases hjoin : (s.protocol.joinTopic t err).2 with
      | ok topic =>
          simp only [hjoin] at h
          cases h
          exact .joins hjoin
      | error e =>
          simp only [hjoin] at h
          cases h
          exact .refused hjoin
  | subscribes i err =>
      simp only [State.react] at h
      split at h
      next t hi =>
          -- a failed subscribe leaves its topic joined
          cases hsub : (s.protocol.subscribe t err).2 with
          | ok topic =>
              simp only [hsub] at h
              cases h
              exact .subscribes hi
                (Or.inr ⟨rfl, subscribe_grows.2.2 topic hsub⟩)
          | error e =>
              simp only [hsub] at h
              cases h
              exact .subscribes hi (Or.inl rfl)
      next => cases h
  | leaves i err =>
      simp only [State.react] at h
      split at h
      next t hi =>
          cases h
          exact .leaves hi (fun hp => by cases hp)
      next t hi =>
          cases h
          exact .leaves hi (fun hp => by cases hp)
      next => cases h

/-! ## The books -/

section Books

variable {c : Protocol} {t m : String} {err : Option String}

/-- A join adds its own topic, and only if it succeeds. -/
theorem joinTopic_topics (h : ((c.joinTopic t err).1.topics m).isSome = true) :
    (c.topics m).isSome = true ∨
      m = t ∧ ∃ answer, (c.joinTopic t err).2 = .ok answer := by
  cases htopic : c.topics t with
  | some topic =>
      simp only [Protocol.joinTopic, htopic] at h
      exact Or.inl h
  | none =>
      simp only [Protocol.joinTopic, htopic] at h ⊢
      cases hjoin : c.pubsub.join t err with
      | error e =>
          simp only [hjoin] at h
          exact Or.inl h
      | ok r =>
          simp only [hjoin] at h
          rcases isSome_set.mp h with rfl | h
          · exact Or.inr ⟨rfl, some r.2, rfl⟩
          · exact Or.inl h

theorem joinTopic_main : (c.joinTopic t err).1.mainTopic = c.mainTopic := by
  unfold Protocol.joinTopic
  split
  next => rfl
  next =>
      split
      next => rfl
      next => rfl

theorem subscribe_main : (c.subscribe t err).1.mainTopic = c.mainTopic := by
  unfold Protocol.subscribe
  split
  next => rfl
  next =>
      split
      next => rfl
      next =>
          split
          next => rfl
          next => rfl

/-- `LeaveTopic` concerns its topic only. -/
theorem leaveTopic_cases :
    (c.leaveTopic t err).1.mainTopic = c.mainTopic ∧
    ((c.leaveTopic t err).1.topics = c.topics ∧
        (c.leaveTopic t err).1.subscriptions = c.subscriptions ∧
        (c.topics t = none ∨ t = c.mainTopic) ∨
      (c.leaveTopic t err).1.topics = delete c.topics t ∧
        (c.leaveTopic t err).1.subscriptions = delete c.subscriptions t) := by
  cases htopic : c.topics t with
  | none =>
      simp only [Protocol.leaveTopic, htopic]
      exact ⟨trivial, Or.inl ⟨trivial, trivial, Or.inl trivial⟩⟩
  | some topic =>
      by_cases hmain : t = c.mainTopic
      · simp only [Protocol.leaveTopic, htopic, if_pos hmain]
        exact ⟨trivial, Or.inl ⟨trivial, trivial, Or.inr hmain⟩⟩
      · simp only [Protocol.leaveTopic, htopic, if_neg hmain]
        cases c.pubsub.close t topic err with
        | error e => exact ⟨rfl, Or.inr ⟨rfl, rfl⟩⟩
        | ok p => exact ⟨rfl, Or.inr ⟨rfl, rfl⟩⟩

end Books

/-- Every topic in the books is the main topic, or that of a handler that has
    still to leave it. -/
def Held (s : State) : Prop :=
  ∀ t, (s.protocol.topics t).isSome = true → t = s.protocol.mainTopic ∨
    ∃ (i : ℕ) (h : Handler), s.handlers[i]? = some h ∧ h.topicName = t ∧
      h.inFlight = true

/-- **NO TOPIC OUTLIVES** its handlers. -/
theorem Held.does (h : Held s) (hdoes : Does s a s') : Held s' := by
  intro t ht
  cases hdoes with
  | joins hjoin =>
      rcases joinTopic_topics ht with ht | ⟨rfl, -⟩
      · rcases h t ht with hmain | ⟨i, x, hi, hx⟩
        · exact Or.inl (hmain.trans joinTopic_main.symm)
        · refine Or.inr ⟨i, x, ?_, hx⟩
          rw [List.getElem?_append_left (List.getElem?_eq_some_iff.mp hi).1]
          exact hi
      · refine Or.inr ⟨s.handlers.length, ⟨t, .joined⟩, ?_, rfl, rfl⟩
        exact List.getElem?_concat_length
  | refused hjoin =>
      rcases joinTopic_topics ht with ht | ⟨-, answer, hok⟩
      · rcases h t ht with hmain | hheld
        · exact Or.inl (hmain.trans joinTopic_main.symm)
        · exact Or.inr hheld
      · rw [hok] at hjoin
        cases hjoin
  | @subscribes i u err phase hi hphase =>
      have ht : ((s.protocol.subscribe u err).1.topics t).isSome = true := ht
      rw [subscribe_grows.1] at ht
      rcases h t ht with hmain | ⟨k, x, hk, hx⟩
      · exact Or.inl (hmain.trans subscribe_main.symm)
      · by_cases hki : i = k
        · subst hki
          rw [hi] at hk
          cases hk
          refine Or.inr ⟨i, ⟨u, phase⟩,
            List.getElem?_set_self (List.getElem?_eq_some_iff.mp hi).1, hx.1, ?_⟩
          rcases hphase with rfl | ⟨rfl, -⟩
          · rfl
          · rfl
        · exact Or.inr ⟨k, x, by rw [List.getElem?_set_ne hki, hk], hx⟩
  | @leaves i u err phase hi _ =>
      have hleft : ((s.protocol.leaveTopic u err).1.topics t).isSome = true := ht
      obtain ⟨hmain', hcases⟩ := @leaveTopic_cases s.protocol u err
      -- the books have lost the topic, or it is the main one
      have hkept : (s.protocol.topics t).isSome = true ∧
          (t = s.protocol.mainTopic ∨ t ≠ u) := by
        rcases hcases with ⟨hsame, -, hwhy⟩ | ⟨hdelete, -⟩
        · rw [hsame] at hleft
          refine ⟨hleft, ?_⟩
          by_cases htu : t = u
          · rw [htu] at hleft ⊢
            rcases hwhy with hnone | hmain
            · rw [hnone] at hleft
              cases hleft
            · exact Or.inl hmain
          · exact Or.inr htu
        · rw [hdelete] at hleft
          obtain ⟨hne, hkept⟩ := isSome_delete.mp hleft
          exact ⟨hkept, Or.inr hne⟩
      rcases hkept.2 with hmain | hne
      · exact Or.inl (hmain.trans hmain'.symm)
      · rcases h t hkept.1 with hmain | ⟨k, x, hk, hx⟩
        · exact Or.inl (hmain.trans hmain'.symm)
        · have hki : i ≠ k := by
            rintro rfl
            rw [hi] at hk
            cases hk
            exact hne hx.1.symm
          exact Or.inr ⟨k, x, by rw [List.getElem?_set_ne hki, hk], hx⟩

/-! ## Handlers that are alone -/

/-- A handler starts on a topic that no handler in flight has. -/
def State.lonely (s : State) : Action → Bool
  | .joins t _ => s.handlers.all fun h => !(h.inFlight && decide (h.topicName = t))
  | _ => true

/-- No two handlers in flight have one topic, and each of them has what it
    joined and subscribed to. -/
structure Alone (s : State) : Prop where
  distinct : ∀ (i k : ℕ) (x y : Handler), s.handlers[i]? = some x →
    s.handlers[k]? = some y → x.inFlight = true → y.inFlight = true →
    x.topicName = y.topicName → i = k
  joined : ∀ (i : ℕ) (x : Handler), s.handlers[i]? = some x →
    x.inFlight = true → (s.protocol.topics x.topicName).isSome = true
  working : ∀ (i : ℕ) (t : String), s.handlers[i]? = some ⟨t, .working⟩ →
    (s.protocol.subscriptions t).isSome = true

/-- A handler goes on, on its topic. -/
theorem Alone.set {c : Protocol} {i : ℕ} {t : String} {before after : Phase}
    (h : Alone s) (hi : s.handlers[i]? = some ⟨t, before⟩) (hbefore : before ≠ .returned)
    (hjoined : ∀ (k : ℕ) (x : Handler),
      (s.handlers.set i ⟨t, after⟩)[k]? = some x → x.inFlight = true →
      (c.topics x.topicName).isSome = true)
    (hworking : ∀ (k : ℕ) (u : String),
      (s.handlers.set i ⟨t, after⟩)[k]? = some ⟨u, .working⟩ →
      (c.subscriptions u).isSome = true) :
    Alone ⟨c, s.handlers.set i ⟨t, after⟩⟩ := by
  have hfly : (⟨t, before⟩ : Handler).inFlight = true := decide_eq_true hbefore
  refine ⟨?_, hjoined, hworking⟩
  intro k m x y hk hm hx hy hxy
  rcases getElem?_set_cases hk with ⟨hki, rfl⟩ | ⟨hne, hk'⟩
  · rcases getElem?_set_cases hm with ⟨hmi, -⟩ | ⟨hne', hm'⟩
    · exact hki.trans hmi.symm
    · exact absurd (h.distinct i m _ y hi hm' hfly hy hxy) (Ne.symm hne')
  · rcases getElem?_set_cases hm with ⟨hmi, rfl⟩ | ⟨-, hm'⟩
    · exact absurd (h.distinct k i x _ hk' hi hx hfly hxy) hne
    · exact h.distinct k m x y hk' hm' hx hy hxy

/-- **WHO IS ALONE** is not disturbed by the others. -/
theorem Alone.does (h : Alone s) (hlonely : s.lonely a = true)
    (hdoes : Does s a s') : Alone s' := by
  cases hdoes with
  | @joins t err answer hjoin =>
      obtain ⟨htopics, hsubs, hok⟩ := @joinTopic_grows s.protocol t err
      rw [State.lonely, List.all_eq_true] at hlonely
      have hnew : ∀ (k : ℕ) (y : Handler), s.handlers[k]? = some y →
          y.inFlight = true → y.topicName ≠ t := by
        intro k y hk hy heq
        have hno := hlonely y (List.mem_of_getElem? hk)
        rw [hy, decide_eq_true heq] at hno
        cases hno
      refine ⟨?_, ?_, ?_⟩
      · intro i k x y hi hk hx hy hxy
        rcases getElem?_concat_cases hi with hi | ⟨rfl, rfl⟩
        · rcases getElem?_concat_cases hk with hk | ⟨rfl, rfl⟩
          · exact h.distinct i k x y hi hk hx hy hxy
          · exact absurd hxy (hnew i x hi hx)
        · rcases getElem?_concat_cases hk with hk | ⟨rfl, rfl⟩
          · exact absurd hxy.symm (hnew k y hk hy)
          · rfl
      · intro i x hi hx
        rcases getElem?_concat_cases hi with hi | ⟨-, rfl⟩
        · exact htopics x.topicName (h.joined i x hi hx)
        · exact hok answer hjoin
      · intro i u hi
        rcases getElem?_concat_cases hi with hi | ⟨-, heq⟩
        · show ((s.protocol.joinTopic t err).1.subscriptions u).isSome = true
          rw [hsubs]
          exact h.working i u hi
        · cases heq
  | @refused t err e hjoin =>
      obtain ⟨htopics, hsubs, -⟩ := @joinTopic_grows s.protocol t err
      refine ⟨h.distinct, ?_, ?_⟩
      · exact fun i x hi hx => htopics x.topicName (h.joined i x hi hx)
      · intro i u hi
        show ((s.protocol.joinTopic t err).1.subscriptions u).isSome = true
        rw [hsubs]
        exact h.working i u hi
  | @subscribes i t err phase hi hphase =>
      obtain ⟨htopics, hsubs, -⟩ := @subscribe_grows s.protocol t err
      refine h.set hi (fun hp => by cases hp) ?_ ?_
      · intro k x hk hx
        rw [htopics]
        rcases getElem?_set_cases hk with ⟨-, rfl⟩ | ⟨-, hk⟩
        · exact h.joined i ⟨t, .joined⟩ hi rfl
        · exact h.joined k x hk hx
      · intro k u hk
        rcases getElem?_set_cases hk with ⟨-, heq⟩ | ⟨-, hk⟩
        · cases heq
          rcases hphase with hp | ⟨-, hsome⟩
          · cases hp
          · exact hsome
        · exact hsubs u (h.working k u hk)
  | @leaves i t err phase hi hphase =>
      obtain ⟨-, hcases⟩ := @leaveTopic_cases s.protocol t err
      have hfly : (⟨t, phase⟩ : Handler).inFlight = true := decide_eq_true hphase
      -- whoever is left has another topic
      have hother : ∀ {k : ℕ} {x : Handler}, k ≠ i → s.handlers[k]? = some x →
          x.inFlight = true → x.topicName ≠ t := by
        intro k x hne hk hx hxt
        exact hne (h.distinct k i _ _ hk hi hx hfly hxt)
      refine h.set hi hphase ?_ ?_
      · intro k x hk hx
        rcases getElem?_set_cases hk with ⟨-, rfl⟩ | ⟨hne, hk⟩
        · cases hx
        · have hsome := h.joined k x hk hx
          rcases hcases with ⟨hsame, -⟩ | ⟨hdelete, -⟩
          · rw [hsame]
            exact hsome
          · rw [hdelete]
            exact isSome_delete.mpr ⟨hother hne hk hx, hsome⟩
      · intro k u hk
        rcases getElem?_set_cases hk with ⟨-, heq⟩ | ⟨hne, hk⟩
        · cases heq
        · have hsome := h.working k u hk
          rcases hcases with ⟨-, hsame, -⟩ | ⟨-, hdelete⟩
          · rw [hsame]
            exact hsome
          · rw [hdelete]
            exact isSome_delete.mpr ⟨hother hne hk rfl, hsome⟩

/-! ## Whole runs -/

/-- No action changes the main topic. -/
theorem Does.main (hdoes : Does s a s') :
    s'.protocol.mainTopic = s.protocol.mainTopic := by
  cases hdoes with
  | joins | refused => exact joinTopic_main
  | subscribes => exact subscribe_main
  | leaves => exact leaveTopic_cases.1

/-- Every topic is the main one or held by a handler, along every run. -/
theorem held_run {mainTopicName : String} {tr : List (Action × Answer)}
    (hrun : Run (Fires State.react) ⟨started mainTopicName, []⟩ tr s) :
    Held s ∧ s.protocol.mainTopic = mainTopicName := by
  refine hrun.invariant (P := fun s => Held s ∧ s.protocol.mainTopic = mainTopicName)
    ⟨?_, rfl⟩ ?_
  -- at the start the main topic is the only one
  · intro t ht
    have hset : (set (fun _ => none) mainTopicName 0 t).isSome = true := ht
    rcases isSome_set.mp hset with rfl | hnone
    · exact Or.inl rfl
    · cases hnone
  · rintro s l s' ⟨hheld, hmain⟩ hfires
    have hdoes := does_of_react hfires
    exact ⟨hheld.does hdoes, hdoes.main.trans hmain⟩

/-- Runs in which no handler starts on a topic that another one has. -/
def LonelyRun (mainTopicName : String) (tr : List (Action × Answer)) (s : State) :
    Prop :=
  Run (Guarded (Fires State.react) fun s l => s.lonely l.1 = true)
    ⟨started mainTopicName, []⟩ tr s

/-- A topic for each handler alone: what every lonely run keeps. -/
theorem alone_run {mainTopicName : String} {tr : List (Action × Answer)}
    (hrun : LonelyRun mainTopicName tr s) : Alone s := by
  refine hrun.invariant ?_ fun s l s' h hstep =>
    h.does hstep.2 (does_of_react hstep.1)
  refine ⟨?_, ?_, ?_⟩
  · intro i k x y hi
    cases hi
  · intro i x hi
    cases hi
  · intro i t hi
    cases hi

/-- **TOPICS ARE HELD**: whatever handlers run at once and whatever pubsub
    refuses, a topic in the books is the main topic or that of a handler that has
    still to leave it; and where no handler starts on a topic that another one
    in flight has, each of them keeps its topic until it leaves, and while it
    works its subscription. -/
theorem topics_held {mainTopicName : String}
    {gossipErr joinErr subscribeErr : Option String} {c : Protocol}
    {tr : List (Action × Answer)} {s : State}
    (hnew : newPubSubWithTopic mainTopicName gossipErr joinErr subscribeErr =
      .ok c)
    (hrun : Run (Fires State.react) ⟨c, []⟩ tr s) :
    (∀ t, (s.protocol.topics t).isSome = true → t = mainTopicName ∨
      ∃ h ∈ s.handlers, h.topicName = t ∧ h.inFlight = true) ∧
    (LonelyRun mainTopicName tr s → ∀ h ∈ s.handlers,
      (h.inFlight = true → (s.protocol.topics h.topicName).isSome = true) ∧
      (h.phase = .working →
        (s.protocol.subscriptions h.topicName).isSome = true)) := by
  obtain rfl := newPubSubWithTopic_eq_ok hnew
  obtain ⟨hheld, hmain⟩ := held_run hrun
  constructor
  · intro t ht
    rcases hheld t ht with htmain | ⟨i, h, hi, hh⟩
    · exact Or.inl (htmain.trans hmain)
    · exact Or.inr ⟨h, List.mem_of_getElem? hi, hh⟩
  · rintro hlonely ⟨t, phase⟩ hmem
    have halone := alone_run hlonely
    obtain ⟨i, hi⟩ := List.mem_iff_getElem?.mp hmem
    constructor
    · exact halone.joined i _ hi
    · rintro rfl
      exact halone.working i t hi

/-- A handler on the main topic, one that returns, one that `Subscribe` refuses
    and one at work. -/
def sampleActions : List Action :=
  [.joins "main" none, .joins "0x51" none, .joins "0x52" none,
    .subscribes 1 none, .joins "0x53" none, .subscribes 2 (some "refused"),
    .subscribes 3 none, .leaves 1 none]

/-- Four handlers: one joined, one back, one failed, one working. -/
theorem topics_held_sample :
    ∃ tr s, Run (Fires State.react) ⟨started "main", []⟩ tr s ∧
      s.handlers = [⟨"main", .joined⟩, ⟨"0x51", .returned⟩, ⟨"0x52", .failed⟩,
        ⟨"0x53", .working⟩] ∧
      s.protocol.topics "0x51" = none ∧
      (s.protocol.topics "main").isSome = true ∧
      (s.protocol.topics "0x52").isSome = true ∧
      (s.protocol.subscriptions "0x53").isSome = true := by
  obtain ⟨tr, s, hlonely, hhandlers⟩ := exists_run
    (fun _ (s : State) =>
      s.handlers = [⟨"main", .joined⟩, ⟨"0x51", .returned⟩, ⟨"0x52", .failed⟩,
        ⟨"0x53", .working⟩])
    (show (execute (restrict State.lonely State.react) ⟨started "main", []⟩
      sampleActions).any _ = true by decide +kernel)
  have hnew : newPubSubWithTopic "main" none none none = .ok (started "main") :=
    rfl
  have hguarded : LonelyRun "main" tr s := restrict_run hlonely
  have hrun : Run (Fires State.react) ⟨started "main", []⟩ tr s :=
    Run.of_guarded hguarded
  obtain ⟨hheld, hkept⟩ := topics_held hnew hrun
  refine ⟨tr, s, hrun, hhandlers, ?_, ?_, ?_, ?_⟩
  · refine Option.not_isSome_iff_eq_none.mp fun hsome => ?_
    rcases hheld "0x51" hsome with heq | ⟨h, hmem, htopic, hfly⟩
    · exact absurd heq (by decide)
    · rw [hhandlers] at hmem
      revert h
      decide
  · exact (hkept hguarded ⟨"main", .joined⟩ (by rw [hhandlers]; decide)).1 rfl
  · exact (hkept hguarded ⟨"0x52", .failed⟩ (by rw [hhandlers]; decide)).1 rfl
  · exact (hkept hguarded ⟨"0x53", .working⟩ (by rw [hhandlers]; decide)).2 rfl

end RelayerHandlers
