import Relayer.RoutineProofs
import Relayer.TopicProofs

/-! # What is received on topics

    `ReceiveFrom`, `Receive` and `Disconnect` of `consensus/consensus.go` over
    the books of a node.  A receiver looks its subscription up under the mutex
    and then waits in `subscription.Next` without it, so that topics may be left
    while somebody waits.  What `Next` returns, and when, is up to pubsub: a
    message or an error, at any time.

    * `Effect` says once what a call does to the subscriptions;
    * `Served` holds in every reachable state: whoever waits does so on the
      subscription of its topic, or on a cancelled one;
    * **`leaving_silences`**: a topic that one user of the node leaves is lost
      for all of them: whoever asks for its messages gets nothing, and whoever
      was waiting gets one at most. -/

namespace RelayerPubSub

open Maps RelayerTopics Routines Transition

variable {M : Type}

/-! ## Receivers -/

/-- A call of `ReceiveFrom` or `Receive`: in `subscription.Next`, or back. -/
inductive Reader (M : Type) where
  | next (topicName : String) (subscription : ℕ)
  | returned (msg : Option M)

/-- A node with the subscriptions that were cancelled, and its receivers. -/
structure System (M : Type) where
  protocol : Protocol
  cancelled : List (String × ℕ)
  readers : List (Reader M)

/-- A node after `NewPubSubWithTopic`. -/
def System.start (c : Protocol) : System M :=
  ⟨c, [], []⟩

inductive Event (M : Type) where
  | call (call : Call)
  /-- The topics in the order of the range, and the errors of `Close`. -/
  | disconnect (names : List String) (errs : String → Option String)
  | receiveFrom (topicName : String)
  | receive
  /-- `subscription.Next` returns: a message, or an error. -/
  | next (i : ℕ) (msg : Option M)
  /-- It returns because the context of the receiver is done. -/
  | expires (i : ℕ)

/-- What a step shows. -/
inductive Output (M : Type) where
  | answered (answer : Answer)
  | disconnected
  | waits
  | took (topicName : String) (subscription : ℕ) (msg : M)
  /-- `nil` is returned. -/
  | nothing

/-- The subscription that a call cancels. -/
def cancels (c : Protocol) : Call → List (String × ℕ)
  | .leaveTopic n _ =>
      match c.topics n with
      | none => []
      | some _ =>
          if n = c.mainTopic then []
          else (c.subscriptions n).toList.map (n, ·)
  | _ => []

/-- One round of `Disconnect`: errors of `UnregisterTopicValidator` and of
    `Close` are logged. -/
def disconnectTopic (errs : String → Option String) (c : Protocol)
    (topicName : String) : Protocol :=
  match c.topics topicName with
  | none => c
  | some topic =>
      match c.pubsub.close topicName topic (errs topicName) with
      | .error _ => c.forget topicName
      | .ok pubsub => { c.forget topicName with pubsub := pubsub }

/-- The subscription that a round cancels. -/
def disconnects (c : Protocol) (topicName : String) : List (String × ℕ) :=
  match c.topics topicName with
  | none => []
  | some _ => (c.subscriptions topicName).toList.map (topicName, ·)

/-- `Disconnect`. -/
def System.disconnect (errs : String → Option String) :
    System M → List String → System M
  | s, [] => s
  | s, n :: names =>
      System.disconnect errs { s with
        protocol := disconnectTopic errs s.protocol n
        cancelled := s.cancelled ++ disconnects s.protocol n } names

/-- A receiver comes back. -/
def System.back (s : System M) (i : ℕ) (msg : Option M) : System M :=
  { s with readers := s.readers.set i (.returned msg) }

/-- A receiver looks up its subscription. -/
def System.lookup (s : System M) (topicName : String) : System M × Output M :=
  match s.protocol.subscriptions topicName with
  | some k => ({ s with readers := s.readers ++ [.next topicName k] }, .waits)
  | none => ({ s with readers := s.readers ++ [.returned none] }, .nothing)

/-- Is the receiver waiting on a cancelled subscription? -/
def System.onCancelled (s : System M) (i : ℕ) : Bool :=
  match s.readers[i]? with
  | some (.next n k) => decide ((n, k) ∈ s.cancelled)
  | _ => false

/-- What `subscription.Next` returned. -/
def Output.ofNext (n : String) (k : ℕ) : Option M → Output M
  | some msg => .took n k msg
  | none => .nothing

/-- `subscription.Next` of a receiver returns. -/
def System.next (s : System M) (i : ℕ) (msg : Option M) :
    Option (System M × Output M) :=
  match s.readers[i]? with
  | some (.next n k) => some (s.back i msg, .ofNext n k msg)
  | _ => none

/-- One step, if it is possible. -/
def System.react (s : System M) : Event M → Option (System M × Output M)
  | .call call =>
      (s.protocol.react call).map fun r =>
        ({ s with
            protocol := r.1
            cancelled := s.cancelled ++ cancels s.protocol call }, .answered r.2)
  | .disconnect names errs => some (s.disconnect errs names, .disconnected)
  | .receiveFrom n => some (s.lookup n)
  | .receive => some (s.lookup s.protocol.mainTopic)
  | .next i msg => s.next i msg
  | .expires i => s.next i none

/-! ## What a call does to the subscriptions -/

/-- The topic that a call may subscribe to. -/
def opens : Call → Option String
  | .subscribe n _ => some n
  | _ => none

/-- What happens to the books where `opened` may be subscribed to, and which
    subscription is cancelled. -/
inductive Effect (c : Protocol) (opened : Option String) :
    Protocol → List (String × ℕ) → Prop where
  | still {c' : Protocol} (hsubs : c'.subscriptions = c.subscriptions)
      (hnext : c.pubsub.next ≤ c'.pubsub.next)
      (hjoined : ∀ n, (c.topics n).isSome = true → (c'.topics n).isSome = true) :
      Effect c opened c' []
  | subscribes {c' : Protocol} (n : String) (hopened : opened = some n)
      (hnone : c.subscriptions n = none)
      (hsubs : c'.subscriptions = set c.subscriptions n c.pubsub.next)
      (hnext : c'.pubsub.next = c.pubsub.next + 1)
      (htopics : c'.topics = c.topics) (hjoined : (c.topics n).isSome = true) :
      Effect c opened c' []
  | leaves {c' : Protocol} (n : String)
      (hsubs : c'.subscriptions = delete c.subscriptions n)
      (hnext : c'.pubsub.next = c.pubsub.next)
      (htopics : c'.topics = delete c.topics n) :
      Effect c opened c' ((c.subscriptions n).toList.map (n, ·))

variable {c c' : Protocol} {answer : Answer}

/-- `JoinTopic` subscribes to nothing and cancels nothing. -/
theorem joinTopic_effect {n : String} {err : Option String} :
    Effect c none (c.joinTopic n err).1 [] := by
  unfold Protocol.joinTopic
  split
  next => exact .still rfl le_rfl fun _ => id
  next htopic =>
      split
      next => exact .still rfl le_rfl fun _ => id
      next pubsub topic hjoin =>
          unfold PubSub.join at hjoin
          split at hjoin
          next => cases hjoin
          next => cases hjoin
          next =>
              cases hjoin
              refine .still rfl (Nat.le_succ _) fun m hm => ?_
              exact isSome_set.mpr (Or.inr hm)

/-- `Subscribe` opens one subscription, or changes nothing. -/
theorem subscribe_effect {n : String} {err : Option String} :
    Effect c (some n) (c.subscribe n err).1 [] := by
  unfold Protocol.subscribe
  split
  next => exact .still rfl le_rfl fun _ => id
  next topic htopic =>
      split
      next => exact .still rfl le_rfl fun _ => id
      next hnone =>
          split
          next => exact .still rfl le_rfl fun _ => id
          next pubsub subscription hsub =>
              unfold PubSub.subscribe at hsub
              split at hsub
              next =>
                  split at hsub
                  next => cases hsub
                  next =>
                      cases hsub
                      exact .subscribes n rfl hnone rfl rfl rfl (by rw [htopic]; rfl)
              next => cases hsub

/-- Closing a topic makes no new handle. -/
theorem close_next {p p' : PubSub} {n : String} {topic : ℕ}
    {err : Option String} (h : p.close n topic err = .ok p') :
    p'.next = p.next := by
  unfold PubSub.close at h
  split at h
  next =>
      cases err with
      | some err => cases h
      | none =>
          cases h
          rfl
  next =>
      cases h
      rfl

/-- A topic is taken from the maps and closed, whatever `Close` answers. -/
theorem forget_effect {n : String} {p : PubSub}
    (hnext : p.next = c.pubsub.next) :
    Effect c none { c.forget n with pubsub := p }
      ((c.subscriptions n).toList.map (n, ·)) :=
  .leaves n rfl hnext rfl

/-- `LeaveTopic` forgets its topic and cancels its subscription. -/
theorem leaveTopic_effect {n : String} {err : Option String} :
    Effect c none (c.leaveTopic n err).1 (cancels c (.leaveTopic n err)) := by
  cases htopic : c.topics n with
  | none =>
      simp only [Protocol.leaveTopic, cancels, htopic]
      exact .still rfl le_rfl fun _ => id
  | some topic =>
      simp only [Protocol.leaveTopic, cancels, htopic]
      by_cases hmain : n = c.mainTopic
      · simp only [if_pos hmain]
        exact .still rfl le_rfl fun _ => id
      · simp only [if_neg hmain]
        -- the topic is forgotten whether or not pubsub could close it
        cases hclose : c.pubsub.close n topic err with
        | error err => exact forget_effect (p := c.pubsub) rfl
        | ok p => exact forget_effect (close_next hclose)

/-- One round of `Disconnect` does so for the main topic too. -/
theorem disconnectTopic_effect {errs : String → Option String} {n : String} :
    Effect c none (disconnectTopic errs c n) (disconnects c n) := by
  cases htopic : c.topics n with
  | none =>
      simp only [disconnectTopic, disconnects, htopic]
      exact .still rfl le_rfl fun _ => id
  | some topic =>
      simp only [disconnectTopic, disconnects, htopic]
      cases hclose : c.pubsub.close n topic (errs n) with
      | error err => exact forget_effect (p := c.pubsub) rfl
      | ok p => exact forget_effect (close_next hclose)

/-- **WHAT A CALL DOES** to the subscriptions. -/
theorem react_effect {call : Call} (h : c.react call = some (c', answer)) :
    Effect c (opens call) c' (cancels c call) := by
  cases call with
  | joinTopic n err =>
      have hc' : (c.joinTopic n err).1 = c' :=
        congrArg Prod.fst (Option.some.inj h)
      exact hc' ▸ joinTopic_effect
  | subscribe n err =>
      have hc' : (c.subscribe n err).1 = c' :=
        congrArg Prod.fst (Option.some.inj h)
      exact hc' ▸ subscribe_effect
  | leaveTopic n err =>
      have hc' : (c.leaveTopic n err).1 = c' :=
        congrArg Prod.fst (Option.some.inj h)
      exact hc' ▸ leaveTopic_effect

/-! ## Calls that succeed -/

/-- A join takes no topic away, and a successful one adds its own. -/
theorem joinTopic_grows {m : String} {err : Option String} :
    (∀ k, (c.topics k).isSome = true → ((c.joinTopic m err).1.topics k).isSome = true) ∧
    (c.joinTopic m err).1.subscriptions = c.subscriptions ∧
    ∀ answer, (c.joinTopic m err).2 = .ok answer →
      ((c.joinTopic m err).1.topics m).isSome = true := by
  cases htopic : c.topics m with
  | some topic =>
      simp only [Protocol.joinTopic, htopic]
      exact ⟨fun _ => id, trivial, fun _ _ => rfl⟩
  | none =>
      simp only [Protocol.joinTopic, htopic]
      cases hjoin : c.pubsub.join m err with
      | error e => exact ⟨fun _ => id, rfl, fun _ h => by cases h⟩
      | ok r =>
          refine ⟨fun k hk => ?_, rfl, fun _ _ => ?_⟩
          · exact isSome_set.mpr (Or.inr hk)
          · exact isSome_set.mpr (Or.inl rfl)

/-- A subscription takes none away, and a successful one adds its own. -/
theorem subscribe_grows {m : String} {err : Option String} :
    (c.subscribe m err).1.topics = c.topics ∧
    (∀ k, (c.subscriptions k).isSome = true →
      ((c.subscribe m err).1.subscriptions k).isSome = true) ∧
    ∀ answer, (c.subscribe m err).2 = .ok answer →
      ((c.subscribe m err).1.subscriptions m).isSome = true := by
  cases htopic : c.topics m with
  | none =>
      simp only [Protocol.subscribe, htopic]
      exact ⟨trivial, fun _ => id, fun _ h => by cases h⟩
  | some topic =>
      cases hsub : c.subscriptions m with
      | some k =>
          simp only [Protocol.subscribe, htopic, hsub]
          exact ⟨trivial, fun _ => id, fun _ _ => rfl⟩
      | none =>
          simp only [Protocol.subscribe, htopic, hsub]
          cases hpubsub : c.pubsub.subscribe m topic err with
          | error e => exact ⟨rfl, fun _ => id, fun _ h => by cases h⟩
          | ok r =>
              refine ⟨rfl, fun k hk => ?_, fun _ _ => ?_⟩
              · exact isSome_set.mpr (Or.inr hk)
              · exact isSome_set.mpr (Or.inl rfl)

/-- `Subscribe` to a topic that was joined succeeds, unless pubsub refuses. -/
theorem subscribe_succeeds {m : String} (hbooked : Booked c)
    (hjoined : (c.topics m).isSome = true) :
    ∃ answer, (c.subscribe m none).2 = .ok answer := by
  obtain ⟨topic, htopic⟩ := Option.isSome_iff_exists.mp hjoined
  cases hsub : c.subscriptions m with
  | some k =>
      refine ⟨none, ?_⟩
      simp only [Protocol.subscribe, htopic, hsub]
  | none =>
      refine ⟨none, ?_⟩
      simp only [Protocol.subscribe, htopic, hsub, PubSub.subscribe,
        if_pos (hbooked.opened m topic htopic)]

/-! ## What one step does -/

/-- A step of the system: the books change by the effect of a call or of a
    round of `Disconnect`, a receiver starts or comes back. -/
inductive Does (s : System M) : Event M → Output M → System M → Prop where
  | calls {call : Call} {answer : Answer} {c' : Protocol}
      (hreact : s.protocol.react call = some (c', answer)) :
      Does s (.call call) (.answered answer) { s with
        protocol := c', cancelled := s.cancelled ++ cancels s.protocol call }
  | disconnects (names : List String) (errs : String → Option String) :
      Does s (.disconnect names errs) .disconnected (s.disconnect errs names)
  | waits {e : Event M} {n : String} {k : ℕ}
      (hlook : e = .receiveFrom n ∨ e = .receive ∧ n = s.protocol.mainTopic)
      (hsub : s.protocol.subscriptions n = some k) :
      Does s e .waits { s with readers := s.readers ++ [.next n k] }
  | misses {e : Event M} {n : String}
      (hlook : e = .receiveFrom n ∨ e = .receive ∧ n = s.protocol.mainTopic)
      (hsub : s.protocol.subscriptions n = none) :
      Does s e .nothing { s with readers := s.readers ++ [.returned none] }
  | takes {i : ℕ} {n : String} {k : ℕ} {msg : M}
      (hreader : s.readers[i]? = some (.next n k)) :
      Does s (.next i (some msg)) (.took n k msg) (s.back i (some msg))
  | gives {e : Event M} {i : ℕ} {n : String} {k : ℕ}
      (hreader : s.readers[i]? = some (.next n k))
      (hwhy : e = .next i none ∨ e = .expires i) :
      Does s e .nothing (s.back i none)

variable {s s' : System M} {e : Event M} {o : Output M}

/-- A receive waits on the subscription of its topic, or has none. -/
theorem does_of_lookup {n : String}
    (hlook : e = .receiveFrom n ∨ e = .receive ∧ n = s.protocol.mainTopic)
    (h : s.lookup n = (s', o)) : Does s e o s' := by
  unfold System.lookup at h
  cases hsub : s.protocol.subscriptions n with
  | some k =>
      rw [hsub] at h
      cases h
      exact .waits hlook hsub
  | none =>
      rw [hsub] at h
      cases h
      exact .misses hlook hsub

/-- `Next` returns to a reader that waits in it. -/
theorem next_eq_some {i : ℕ} {msg : Option M} (h : s.next i msg = some (s', o)) :
    ∃ n k, s.readers[i]? = some (.next n k) ∧ s' = s.back i msg ∧
      o = .ofNext n k msg := by
  rw [System.next] at h
  split at h
  next n k hreader =>
      cases h
      exact ⟨n, k, hreader, rfl, rfl⟩
  next => cases h

/-- **WHAT A STEP DOES**. -/
theorem does_of_react (h : s.react e = some (s', o)) : Does s e o s' := by
  cases e with
  | call call =>
      obtain ⟨⟨c', answer⟩, hreact, heq⟩ := Option.map_eq_some_iff.mp h
      cases heq
      exact .calls hreact
  | disconnect names errs =>
      cases h
      exact .disconnects names errs
  | receiveFrom n => exact does_of_lookup (Or.inl rfl) (Option.some.inj h)
  | receive => exact does_of_lookup (Or.inr ⟨rfl, rfl⟩) (Option.some.inj h)
  | next i msg =>
      obtain ⟨n, k, hreader, rfl, rfl⟩ := next_eq_some h
      cases msg with
      | some msg => exact .takes hreader
      | none => exact .gives hreader (Or.inl rfl)
  | expires i =>
      obtain ⟨n, k, hreader, rfl, rfl⟩ := next_eq_some h
      exact .gives hreader (Or.inr rfl)

/-- A call acts on the protocol and cancels what it cancels. -/
theorem call_of_react {call : Call}
    {o : Output M} (h : s.react (.call call) = some (s', o)) :
    ∃ c' answer, s.protocol.react call = some (c', answer) ∧
      o = .answered answer ∧ s'.protocol = c' ∧
      s'.cancelled = s.cancelled ++ cancels s.protocol call := by
  obtain ⟨⟨c', answer⟩, hreact, heq⟩ := Option.map_eq_some_iff.mp h
  cases heq
  exact ⟨c', answer, hreact, rfl, rfl, rfl⟩

/-! ## The subscriptions of the receivers -/

/-- What holds after any steps: a subscription has its topic and is not a
    cancelled one, and whoever waits does so on the subscription of the topic or
    on a cancelled one. -/
structure Served (s : System M) : Prop where
  joined : ∀ n, (s.protocol.subscriptions n).isSome = true →
    (s.protocol.topics n).isSome = true
  known : ∀ n k, s.protocol.subscriptions n = some k ∨ (n, k) ∈ s.cancelled →
    k < s.protocol.pubsub.next
  live : ∀ n k, s.protocol.subscriptions n = some k → (n, k) ∉ s.cancelled
  waiting : ∀ (i : ℕ) n k, s.readers[i]? = some (.next n k) →
    s.protocol.subscriptions n = some k ∨ (n, k) ∈ s.cancelled

/-- **A CALL SERVES** the receivers that wait. -/
theorem Served.effect {opened : Option String} {c' : Protocol}
    {gone : List (String × ℕ)} (h : Served s)
    (heffect : Effect s.protocol opened c' gone) :
    Served { s with protocol := c', cancelled := s.cancelled ++ gone } := by
  cases heffect with
  | still hsubs hnext hjoined =>
      refine ⟨?_, ?_, ?_, ?_⟩
      · intro n hn
        rw [hsubs] at hn
        exact hjoined n (h.joined n hn)
      · intro n k hk
        simp only [hsubs, List.append_nil] at hk
        exact (h.known n k hk).trans_le hnext
      · intro n k hk
        rw [hsubs] at hk
        simpa using h.live n k hk
      · intro i n k hi
        simpa [hsubs] using h.waiting i n k hi
  -- the handle is new, so it is neither cancelled nor waited on
  | subscribes n _ hnone hsubs hnext htopics hjoined =>
      refine ⟨?_, ?_, ?_, ?_⟩
      · intro m hm
        rw [hsubs, isSome_set] at hm
        rw [htopics]
        rcases hm with rfl | hm
        · exact hjoined
        · exact h.joined m hm
      · intro m k hk
        simp only [hsubs, List.append_nil] at hk
        simp only [hnext]
        rcases hk with hk | hk
        · rcases set_eq_some.mp hk with ⟨-, rfl⟩ | ⟨-, hk⟩
          · exact Nat.lt_succ_self _
          · exact Nat.lt_succ_of_lt (h.known m k (Or.inl hk))
        · exact Nat.lt_succ_of_lt (h.known m k (Or.inr hk))
      · intro m k hk
        simp only [hsubs] at hk
        simp only [List.append_nil]
        rcases set_eq_some.mp hk with ⟨rfl, rfl⟩ | ⟨-, hk⟩
        · exact fun hmem => (h.known m _ (Or.inr hmem)).ne rfl
        · exact h.live m k hk
      · intro i m k hi
        simp only [hsubs, List.append_nil]
        refine (h.waiting i m k hi).imp_left fun hm => ?_
        have hne : m ≠ n := by
          rintro rfl
          rw [hnone] at hm
          cases hm
        rwa [set_of_ne hne]
  -- what was subscribed under the name is now cancelled
  | leaves n hsubs hnext htopics =>
      have hgone : ∀ m k, (m, k) ∈ (s.protocol.subscriptions n).toList.map (n, ·) ↔
          m = n ∧ s.protocol.subscriptions n = some k := by
        intro m k
        simp only [List.mem_map, Option.mem_toList, Prod.mk.injEq]
        constructor
        · rintro ⟨k', hk, rfl, rfl⟩
          exact ⟨rfl, hk⟩
        · rintro ⟨rfl, hk⟩
          exact ⟨k, hk, rfl, rfl⟩
      refine ⟨?_, ?_, ?_, ?_⟩
      · intro m hm
        rw [hsubs, isSome_delete] at hm
        rw [htopics, isSome_delete]
        exact ⟨hm.1, h.joined m hm.2⟩
      · intro m k hk
        simp only [hsubs, List.mem_append, hgone] at hk
        simp only [hnext]
        rcases hk with hk | hk | ⟨rfl, hk⟩
        · exact h.known m k (Or.inl (delete_eq_some.mp hk).2)
        · exact h.known m k (Or.inr hk)
        · exact h.known m k (Or.inl hk)
      · intro m k hk
        simp only [hsubs] at hk
        obtain ⟨hne, hk⟩ := delete_eq_some.mp hk
        simp only [List.mem_append, hgone, not_or]
        exact ⟨h.live m k hk, fun hm => hne hm.1⟩
      · intro i m k hi
        simp only [hsubs, List.mem_append, hgone]
        rcases h.waiting i m k hi with hk | hk
        · by_cases hm : m = n
          · subst hm
            exact Or.inr (Or.inr ⟨rfl, hk⟩)
          · exact Or.inl (delete_eq_some.mpr ⟨hm, hk⟩)
        · exact Or.inr (Or.inl hk)

/-- The loop of `Disconnect` keeps every reader served. -/
theorem Served.disconnect {errs : String → Option String} {names : List String}
    (h : Served s) : Served (s.disconnect errs names) := by
  induction names generalizing s with
  | nil => exact h
  | cons n names ih => exact ih (h.effect disconnectTopic_effect)

/-- A reader that returns waits for nothing. -/
theorem Served.back {i : ℕ} {msg : Option M} (h : Served s) :
    Served (s.back i msg) := by
  refine ⟨h.joined, h.known, h.live, ?_⟩
  intro j n k hj
  by_cases hij : i = j
  · subst hij
    simp only [System.back, List.getElem?_set_self'] at hj
    cases hget : s.readers[i]? with
    | none => simp [hget] at hj
    | some r => simp [hget] at hj
  · exact h.waiting j n k (by rwa [System.back, List.getElem?_set_ne hij] at hj)

/-- A new reader waits on a subscription that is there. -/
theorem Served.reader {r : Reader M} (h : Served s)
    (hr : ∀ n k, r = .next n k → s.protocol.subscriptions n = some k) :
    Served { s with readers := s.readers ++ [r] } := by
  refine ⟨h.joined, h.known, h.live, ?_⟩
  intro i n k hi
  rw [List.getElem?_append] at hi
  split at hi
  next => exact h.waiting i n k hi
  next =>
      rw [List.getElem?_singleton] at hi
      split at hi
      next => exact Or.inl (hr n k (Option.some.inj hi))
      next => cases hi

/-- **EVERY STEP SERVES**. -/
theorem Served.does (h : Served s) (hdoes : Does s e o s') : Served s' := by
  cases hdoes with
  | calls hreact => exact h.effect (react_effect hreact)
  | disconnects names errs => exact h.disconnect
  | waits hlook hsub =>
      refine h.reader fun n k hr => ?_
      cases hr
      exact hsub
  | misses => exact h.reader fun n k hr => by cases hr
  | takes | gives => exact h.back

/-- At the start nobody waits. -/
theorem served_start (mainTopicName : String) :
    Served (System.start (started mainTopicName) : System M) := by
  refine ⟨(booked_started mainTopicName).subscribed, ?_, ?_, ?_⟩
  · intro n k hk
    rcases hk with hk | hk
    · have hset : set (fun _ => none) mainTopicName 1 n = some k := hk
      rcases set_eq_some.mp hset with ⟨-, rfl⟩ | ⟨-, hnone⟩
      · exact Nat.lt_succ_self 1
      · cases hnone
    · cases hk
  · intro n k _ hk
    cases hk
  · intro i n k hi
    cases hi

/-- Every reader waits on a live or a cancelled subscription, along every run. -/
theorem served_run {mainTopicName : String} {tr : List (Event M × Output M)}
    (hrun : Run (Fires System.react) (System.start (started mainTopicName)) tr s) :
    Served s :=
  hrun.invariant (served_start mainTopicName)
    fun _ _ _ h hfires => h.does (does_of_react hfires)

/-! ## Leaving a topic -/

/-- The event takes the topic from the node: `LeaveTopic`, unless it is the main
    topic, or `Disconnect`. -/
def LeavesTopic (s : System M) (n : String) : Event M → Prop
  | .call (.leaveTopic m _) => m = n ∧ n ≠ s.protocol.mainTopic
  | .disconnect names _ => n ∈ names
  | _ => False

/-- The event may subscribe to the topic. -/
def Subscribes (n : String) : Event M → Prop
  | .call call => opens call = some n
  | _ => False

instance (n : String) (e : Event M) : Decidable (Subscribes n e) := by
  cases e <;> unfold Subscribes <;> infer_instance

/-- Only a subscription to `n` can subscribe to `n`. -/
theorem Effect.unsubscribed {opened : Option String} {gone : List (String × ℕ)}
    {n : String} (heffect : Effect c opened c' gone)
    (hopened : opened ≠ some n) (h : c.subscriptions n = none) :
    c'.subscriptions n = none := by
  cases heffect with
  | still hsubs => rwa [hsubs]
  | subscribes m hm _ hsubs =>
      rw [hsubs, set_of_ne]
      · exact h
      · rintro rfl
        exact hopened hm
  | leaves m hsubs =>
      rw [hsubs]
      by_cases hn : n = m
      · subst hn
        exact delete_self
      · rwa [delete_of_ne hn]

/-- The rounds of `Disconnect` subscribe to nothing. -/
theorem disconnect_unsubscribed {errs : String → Option String} {n : String}
    {names : List String} (h : s.protocol.subscriptions n = none) :
    (s.disconnect errs names).protocol.subscriptions n = none := by
  induction names generalizing s with
  | nil => exact h
  | cons m names ih =>
      exact ih (disconnectTopic_effect.unsubscribed (Option.some_ne_none n).symm h)

/-- Without another `Subscribe` a topic stays without a subscription. -/
theorem Does.unsubscribed {n : String} (hdoes : Does s e o s')
    (hno : ¬ Subscribes n e) (h : s.protocol.subscriptions n = none) :
    s'.protocol.subscriptions n = none := by
  cases hdoes with
  | calls hreact => exact (react_effect hreact).unsubscribed hno h
  | disconnects => exact disconnect_unsubscribed h
  | waits | misses | takes | gives => exact h

theorem leaveTopic_unsubscribed {n : String} {err : Option String}
    (hmain : n ≠ c.mainTopic)
    (hjoined : (c.subscriptions n).isSome = true → (c.topics n).isSome = true) :
    (c.leaveTopic n err).1.subscriptions n = none := by
  cases htopic : c.topics n with
  | none =>
      cases hsub : c.subscriptions n with
      | none => simpa [Protocol.leaveTopic, htopic] using hsub
      | some k => simp [hsub, htopic] at hjoined
  | some topic =>
      simp only [Protocol.leaveTopic, htopic, if_neg hmain]
      split
      next => exact delete_self
      next => exact delete_self

theorem disconnectTopic_unsubscribed {errs : String → Option String} {n : String}
    (hjoined : (c.subscriptions n).isSome = true → (c.topics n).isSome = true) :
    (disconnectTopic errs c n).subscriptions n = none := by
  cases htopic : c.topics n with
  | none =>
      cases hsub : c.subscriptions n with
      | none => simpa [disconnectTopic, htopic] using hsub
      | some k => simp [hsub, htopic] at hjoined
  | some topic =>
      simp only [disconnectTopic, htopic]
      split
      next => exact delete_self
      next => exact delete_self

theorem disconnect_leaves {errs : String → Option String} {n : String}
    {names : List String} (h : Served s) (hn : n ∈ names) :
    (s.disconnect errs names).protocol.subscriptions n = none := by
  induction names generalizing s with
  | nil => cases hn
  | cons m names ih =>
      rw [System.disconnect]
      rcases List.mem_cons.mp hn with rfl | hn
      · exact disconnect_unsubscribed (disconnectTopic_unsubscribed (h.joined n))
      · exact ih (h.effect disconnectTopic_effect) hn

/-- Whoever leaves a topic takes its subscription. -/
theorem Does.leaves {n : String} (hdoes : Does s e o s') (hserved : Served s)
    (hleaves : LeavesTopic s n e) : s'.protocol.subscriptions n = none := by
  cases hdoes with
  | @calls call answer c' hreact =>
      cases call with
      | joinTopic | subscribe => cases hleaves
      | leaveTopic m err =>
          obtain ⟨rfl, hmain⟩ := hleaves
          have hc' : (s.protocol.leaveTopic m err).1 = c' :=
            congrArg Prod.fst (Option.some.inj hreact)
          exact hc' ▸ leaveTopic_unsubscribed hmain (hserved.joined m)
  | disconnects names errs => exact disconnect_leaves hserved hleaves
  | takes => cases hleaves
  | waits hlook | misses hlook =>
      rcases hlook with rfl | ⟨rfl, -⟩
      · cases hleaves
      · cases hleaves
  | gives _ hwhy =>
      rcases hwhy with rfl | rfl
      · cases hleaves
      · cases hleaves

/-- Is the receiver in `Next`, for a message of the topic? -/
def Reader.waitsFor (n : String) : Reader M → Bool
  | .next m _ => decide (m = n)
  | .returned _ => false

/-- The receivers that wait for a message of the topic. -/
def System.waitingFor (s : System M) (n : String) : ℕ :=
  s.readers.countP (Reader.waitsFor n)

/-- Is a message of the topic received? -/
def received (n : String) : Event M × Output M → Bool
  | (_, .took m _ _) => decide (m = n)
  | _ => false

/-- `Disconnect` returns nothing to the readers. -/
theorem disconnect_readers {errs : String → Option String} {names : List String} :
    (s.disconnect errs names).readers = s.readers := by
  induction names generalizing s with
  | nil => rfl
  | cons n names ih => exact ih

/-- Whoever receives a message of a topic without a subscription has waited for
    it, and does so no more; and whoever asks gets nothing. -/
theorem Does.silent {n : String} (hdoes : Does s e o s')
    (h : s.protocol.subscriptions n = none) :
    (if received n (e, o) then 1 else 0) + s'.waitingFor n ≤ s.waitingFor n ∧
      (e = .receiveFrom n → o = .nothing) := by
  cases hdoes with
  | calls => exact ⟨(Nat.zero_add _).le, fun he => by cases he⟩
  | disconnects =>
      refine ⟨?_, fun he => by cases he⟩
      rw [System.waitingFor, disconnect_readers]
      exact (Nat.zero_add _).le
  | @waits e m k hlook hsub =>
      have hne : m ≠ n := by
        rintro rfl
        rw [h] at hsub
        cases hsub
      refine ⟨?_, ?_⟩
      · simp [received, System.waitingFor, Reader.waitsFor, hne]
      · rintro rfl
        rcases hlook with heq | ⟨heq, -⟩
        · cases heq
          exact absurd rfl hne
        · cases heq
  | misses =>
      refine ⟨?_, fun _ => rfl⟩
      simp [received, System.waitingFor, Reader.waitsFor]
  -- a message taken now is one reader less that waits
  | @takes i m k msg hreader =>
      refine ⟨?_, fun he => by cases he⟩
      have hcount := countP_set_add (Reader.waitsFor n)
        (Reader.returned (some msg)) hreader
      simp only [received, System.waitingFor, System.back]
      simpa [Reader.waitsFor, Nat.add_comm] using hcount.le
  | @gives e i m k hreader =>
      refine ⟨?_, fun _ => rfl⟩
      have hcount := countP_set_add (Reader.waitsFor n)
        (Reader.returned (none : Option M)) hreader
      have hfalse : (Reader.returned (none : Option M)).waitsFor n = false := rfl
      rw [hfalse, if_neg Bool.false_ne_true, Nat.add_zero] at hcount
      exact (Nat.zero_add _).le.trans ((Nat.le_add_right _ _).trans hcount.le)

/-- What holds of a topic without a subscription along a run from `s₀`. -/
structure Silent (n : String) (s₀ : System M) (tr : List (Event M × Output M))
    (s : System M) : Prop where
  served : Served s
  unsubscribed : s.protocol.subscriptions n = none
  received : tr.countP (received n) + s.waitingFor n ≤ s₀.waitingFor n
  misses : ∀ l ∈ tr, l.1 = .receiveFrom n → l.2 = .nothing

/-- After leaving, until the next subscription, along every run. -/
theorem silent_run {n : String} {tr : List (Event M × Output M)}
    (hserved : Served s) (h : s.protocol.subscriptions n = none)
    (hrun : Run (Fires System.react) s tr s')
    (hno : ∀ l ∈ tr, ¬ Subscribes n l.1) : Silent n s tr s' := by
  induction hrun with
  | refl =>
      exact ⟨hserved, h, (Nat.zero_add _).le,
        fun l hl => absurd hl List.not_mem_nil⟩
  | @tail a b tr l _ hlast ih =>
      have hsilent := ih fun l hl => hno l (List.mem_append_left _ hl)
      have hdoes := does_of_react hlast
      obtain ⟨hreceived, hmisses⟩ := hdoes.silent hsilent.unsubscribed
      have hbefore := hsilent.received
      refine ⟨hsilent.served.does hdoes, ?_, ?_, ?_⟩
      · exact hdoes.unsubscribed (hno l (by simp)) hsilent.unsubscribed
      · rw [List.countP_append, List.countP_singleton]
        exact (Nat.add_assoc _ _ _).le.trans
          ((Nat.add_le_add_left hreceived _).trans hbefore)
      · intro l' hl' he
        rcases List.mem_append.mp hl' with hl' | hl'
        · exact hsilent.misses l' hl' he
        · obtain rfl := List.mem_singleton.mp hl'
          exact hmisses he

/-- **LEAVING SILENCES**: once one user of the node has left a topic, it is lost
    for all of them.  Until somebody subscribes to it again, every `ReceiveFrom`
    returns nothing, whoever is still waiting does so on a cancelled
    subscription, and no more messages are received than there were receivers
    waiting when the topic was left. -/
theorem leaving_silences {mainTopicName n : String}
    {gossipErr joinErr subscribeErr : Option String} {c : Protocol}
    {tr tr' : List (Event M × Output M)} {l : Event M × Output M}
    {s₁ s₂ s₃ : System M}
    (hnew : newPubSubWithTopic mainTopicName gossipErr joinErr subscribeErr =
      .ok c)
    (hbefore : Run (Fires System.react) (System.start c) tr s₁)
    (hstep : Fires System.react s₁ l s₂) (hleaves : LeavesTopic s₁ n l.1)
    (hafter : Run (Fires System.react) s₂ tr' s₃)
    (hno : ∀ l ∈ tr', ¬ Subscribes n l.1) :
    (∀ l ∈ tr', l.1 = .receiveFrom n → l.2 = .nothing) ∧
    (∀ (i : ℕ) k, s₃.readers[i]? = some (.next n k) → (n, k) ∈ s₃.cancelled) ∧
    tr'.countP (received n) + s₃.waitingFor n ≤ s₂.waitingFor n := by
  obtain rfl := newPubSubWithTopic_eq_ok hnew
  have hserved := served_run hbefore
  have hdoes := does_of_react hstep
  have hnone := hdoes.leaves hserved hleaves
  have hsilent := silent_run (hserved.does hdoes) hnone hafter hno
  refine ⟨hsilent.misses, ?_, hsilent.received⟩
  intro i k hreader
  refine (hsilent.served.waiting i n k hreader).resolve_left fun hsub => ?_
  rw [hsilent.unsubscribed] at hsub
  cases hsub

/-- Three receivers wait on a topic; one of them gets a message. -/
def sampleEvents : List (Event ℕ) :=
  [.call (.joinTopic "a" none), .call (.subscribe "a" none), .receiveFrom "a",
    .receiveFrom "a", .receiveFrom "a", .next 1 (some 7)]

/-- The topic is left.  One receiver still gets a message, one does not, and who
    asks again gets nothing. -/
def laterEvents : List (Event ℕ) :=
  [.next 2 (some 8), .receiveFrom "a", .next 0 none]

/-- Two readers waiting when the topic is left, one of them still served. -/
theorem leaving_silences_sample :
    ∃ tr tr', ∃ s₁ s₂ s₃ : System ℕ, ∃ o,
      Run (Fires System.react) (System.start (started "main")) tr s₁ ∧
      Fires System.react s₁ (.call (.leaveTopic "a" none), o) s₂ ∧
      s₂.waitingFor "a" = 2 ∧ Run (Fires System.react) s₂ tr' s₃ ∧
      tr'.countP (received "a") = 1 ∧ 1 + s₃.waitingFor "a" ≤ 2 ∧
      ∀ l ∈ tr', l.1 = .receiveFrom "a" → l.2 = .nothing := by
  obtain ⟨tr, s₁, hrun, hmain, hleave⟩ := exists_run
    (fun _ (s : System ℕ) => "a" ≠ s.protocol.mainTopic ∧
      (s.react (.call (.leaveTopic "a" none))).any (fun r =>
        decide (r.1.waitingFor "a" = 2) &&
        (execute System.react r.1 laterEvents).any (fun q =>
          decide (q.1.countP (received "a") = 1 ∧
            ∀ l ∈ q.1, ¬ Subscribes "a" l.1))) = true)
    (show (execute System.react (System.start (started "main"))
      sampleEvents).any _ = true by decide +kernel)
  obtain ⟨⟨s₂, o⟩, hstep, hcheck⟩ := (Option.any_eq_true _ _).mp hleave
  obtain ⟨hwaiting, hlater⟩ := (Bool.and_eq_true _ _).mp hcheck
  obtain ⟨tr', s₃, hafter, hcount, hno⟩ := exists_run
    (fun tr _ => tr.countP (received "a") = 1 ∧ ∀ l ∈ tr, ¬ Subscribes "a" l.1)
    hlater
  have hnew : newPubSubWithTopic "main" none none none = .ok (started "main") :=
    rfl
  have hwaits := of_decide_eq_true hwaiting
  obtain ⟨hnothing, -, hbound⟩ := leaving_silences hnew hrun
    (l := (.call (.leaveTopic "a" none), o)) hstep ⟨rfl, hmain⟩ hafter hno
  rw [hcount, hwaits] at hbound
  exact ⟨tr, tr', s₁, s₂, s₃, o, hrun, hstep, hwaits, hafter, hcount, hbound,
    hnothing⟩

end RelayerPubSub
