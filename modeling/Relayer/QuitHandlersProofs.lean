import Relayer.MapProofs
import Relayer.RoutineProofs
import Relayer.TransitionProofs

/-! # The quit handlers of a node

    `node/bridge/quit_handlers.go`: a table from topics to channels, and back
    from channels to topics.  Who waits on a channel learns from its closing
    that the topic was taken over or removed.  Every method works under one
    mutex, so a method is one step.

    * `Consistent` is what holds between the two maps, the channels handed out
      and whether they are open;
    * `drop` and `insert` are the two changes all methods are made of;
    * **`quit_handlers_consistent`**: after any sequence of calls. -/

namespace RelayerQuitHandlers

open Maps Routines Transition

/-! ## Channels -/

/-- `QuitChannel`: nil, or a channel by its number in the order of `make`. -/
inductive QuitChannel where
  | nil
  | made (id : ℕ)
  deriving DecidableEq

/-- The panics of `close`. -/
inductive Panic where
  | closeOfNil
  | closeOfClosed
  deriving DecidableEq

/-- The channels of the program: how many were made, and which are closed. -/
structure Channels where
  made : ℕ
  closed : ℕ → Bool

namespace Channels

def empty : Channels := ⟨0, fun _ => false⟩

/-- `make(QuitChannel)` gives the channel `cs.next`. -/
def next (cs : Channels) : QuitChannel := .made cs.made

def make (cs : Channels) : Channels := { cs with made := cs.made + 1 }

def isOpen (cs : Channels) : QuitChannel → Bool
  | .nil => false
  | .made id => id < cs.made && !cs.closed id

/-- The channels with one of them closed. -/
def shut (cs : Channels) : QuitChannel → Channels
  | .nil => cs
  | .made id => { cs with closed := Function.update cs.closed id true }

/-- `close(ch)`. -/
def close (cs : Channels) : QuitChannel → Except Panic Channels
  | .nil => .error .closeOfNil
  | .made id =>
      if cs.closed id then .error .closeOfClosed else .ok (cs.shut (.made id))

variable {cs : Channels} {ch ch' : QuitChannel}

/-- An open channel is closed without a panic. -/
theorem close_of_isOpen (h : cs.isOpen ch = true) :
    cs.close ch = .ok (cs.shut ch) := by
  cases ch with
  | nil => cases h
  | made id =>
      rw [isOpen, Bool.and_eq_true, Bool.not_eq_true'] at h
      rw [close, h.2, if_neg Bool.false_ne_true]

theorem made_shut : (cs.shut ch).made = cs.made := by
  cases ch <;> rfl

/-- Closing one channel leaves the others open. -/
theorem isOpen_shut :
    (cs.shut ch).isOpen ch' = true ↔ ch' ≠ ch ∧ cs.isOpen ch' = true := by
  cases ch' with
  | nil => simp [isOpen]
  | made id' =>
      cases ch with
      | nil => simp [shut]
      | made id =>
          by_cases hid : id' = id
          · subst hid
            simp [shut, isOpen]
          · have hsame : (cs.shut (.made id)).closed id' = cs.closed id' :=
              Function.update_of_ne hid ..
            rw [isOpen, hsame]
            exact ⟨fun h => ⟨by simp [hid], h⟩, And.right⟩

/-- `make` opens the new channel and touches no other. -/
theorem isOpen_make (hnew : cs.closed cs.made = false) :
    cs.make.isOpen ch = true ↔ ch = cs.next ∨ cs.isOpen ch = true := by
  cases ch with
  | nil => simp [isOpen, next]
  | made id =>
      rw [isOpen, isOpen, Bool.and_eq_true, Bool.and_eq_true, next,
        QuitChannel.made.injEq, decide_eq_true_eq, decide_eq_true_eq]
      show id < cs.made + 1 ∧ _ ↔ _
      constructor
      · rintro ⟨hlt, hopen⟩
        rcases Nat.lt_succ_iff_lt_or_eq.mp hlt with h | h
        · exact Or.inr ⟨h, hopen⟩
        · exact Or.inl h
      · rintro (rfl | ⟨hlt, hopen⟩)
        · exact ⟨Nat.lt_succ_self _, Bool.not_eq_true' _ ▸ hnew⟩
        · exact ⟨Nat.lt_succ_of_lt hlt, hopen⟩

end Channels

/-! ## The table -/

/-- `QuitHandlers`, with the channels of the program. -/
structure QuitHandlers where
  handlers : String → Option QuitChannel
  topics : QuitChannel → Option String
  channels : Channels

/-- `NewQuitHandlers`. -/
def newQuitHandlers : QuitHandlers := ⟨fun _ => none, fun _ => none, .empty⟩

namespace QuitHandlers

/-- `AddQuitHandler`. -/
def addQuitHandler (q : QuitHandlers) (topic : String) :
    Except Panic (QuitHandlers × QuitChannel) :=
  let ch := q.channels.next
  let channels := q.channels.make
  match q.handlers topic with
  | some oldch => do
      let channels ← channels.close oldch
      return (⟨set q.handlers topic ch, set (delete q.topics oldch) ch topic,
        channels⟩, ch)
  | none => .ok (⟨set q.handlers topic ch, set q.topics ch topic, channels⟩, ch)

/-- `RemoveQuitHandler`. -/
def removeQuitHandler (q : QuitHandlers) (ch : QuitChannel) :
    Except Panic (QuitHandlers × Option String) :=
  match q.topics ch with
  | some topic =>
      match q.handlers topic with
      | some oldch =>
          if oldch = ch then do
            let channels ← q.channels.close oldch
            return (⟨delete q.handlers topic, delete q.topics ch, channels⟩,
              some topic)
          else .ok (q, none)
      | none => .ok (q, none)
  | none => .ok (q, none)

/-- `RemoveTopicHandler`. -/
def removeTopicHandler (q : QuitHandlers) (topic : String) :
    Except Panic (QuitHandlers × Bool) :=
  match q.handlers topic with
  | some ch => do
      let channels ← q.channels.close ch
      return (⟨delete q.handlers topic, delete q.topics ch, channels⟩, true)
  | none => .ok (q, false)

/-- An entry is taken out and its channel closed. -/
def drop (q : QuitHandlers) (topic : String) (ch : QuitChannel) :
    QuitHandlers :=
  ⟨delete q.handlers topic, delete q.topics ch, q.channels.shut ch⟩

/-- A new channel is made and entered. -/
def insert (q : QuitHandlers) (topic : String) : QuitHandlers :=
  ⟨set q.handlers topic q.channels.next, set q.topics q.channels.next topic,
    q.channels.make⟩

end QuitHandlers

/-! ## What holds between maps and channels -/

/-- A table after the channels `issued` were handed out, each for a topic, in
    this order. -/
structure Consistent (issued : List (String × QuitChannel))
    (q : QuitHandlers) : Prop where
  inverse : Inverse q.handlers q.topics
  registered : ∀ topic ch, q.topics ch = some topic → (topic, ch) ∈ issued
  made : ∀ topic ch, (topic, ch) ∈ issued →
    ∃ id < q.channels.made, ch = .made id
  isOpen_iff : ∀ topic ch, (topic, ch) ∈ issued →
    (q.channels.isOpen ch = true ↔ (q.topics ch).isSome = true)
  oneTopic : ∀ topic topic' ch, (topic, ch) ∈ issued → (topic', ch) ∈ issued →
    topic = topic'
  replaced : ∀ (i j : ℕ) topic ch ch', i < j →
    issued[i]? = some (topic, ch) → issued[j]? = some (topic, ch') →
    q.topics ch = none
  unmade : ∀ id, q.channels.made ≤ id → q.channels.closed id = false

section Calls

variable {issued : List (String × QuitChannel)} {q : QuitHandlers}
  {topic : String} {ch : QuitChannel}

theorem Consistent.isOpen (h : Consistent issued q)
    (htopic : q.topics ch = some topic) : q.channels.isOpen ch = true :=
  (h.isOpen_iff topic ch (h.registered topic ch htopic)).mpr
    (by rw [htopic]; rfl)

/-- A new channel was not handed out before. -/
theorem Consistent.next_fresh (h : Consistent issued q) :
    (topic, q.channels.next) ∉ issued := by
  intro hmem
  obtain ⟨id, hlt, heq⟩ := h.made _ _ hmem
  exact absurd (QuitChannel.made.inj heq).symm (Nat.ne_of_lt hlt)

/-- The next channel is registered for nothing. -/
theorem Consistent.topics_next (h : Consistent issued q) :
    q.topics q.channels.next = none := by
  cases htopic : q.topics q.channels.next with
  | none => rfl
  | some topic => exact absurd (h.registered topic _ htopic) h.next_fresh

/-! Each method is a `drop`, an `insert`, both, or nothing. -/

theorem removeTopicHandler_some (h : Consistent issued q)
    (hch : q.handlers topic = some ch) :
    q.removeTopicHandler topic = .ok (q.drop topic ch, true) := by
  have hopen := h.isOpen ((h.inverse topic ch).mp hch)
  rw [QuitHandlers.removeTopicHandler, hch]
  dsimp only
  rw [Channels.close_of_isOpen hopen]
  rfl

theorem removeTopicHandler_none (hch : q.handlers topic = none) :
    q.removeTopicHandler topic = .ok (q, false) := by
  rw [QuitHandlers.removeTopicHandler, hch]

theorem removeQuitHandler_some (h : Consistent issued q)
    (htopic : q.topics ch = some topic) :
    q.removeQuitHandler ch = .ok (q.drop topic ch, some topic) := by
  have hch := (h.inverse topic ch).mpr htopic
  rw [QuitHandlers.removeQuitHandler, htopic]
  dsimp only
  rw [hch]
  dsimp only
  rw [if_pos rfl, Channels.close_of_isOpen (h.isOpen htopic)]
  rfl

theorem removeQuitHandler_none (htopic : q.topics ch = none) :
    q.removeQuitHandler ch = .ok (q, none) := by
  rw [QuitHandlers.removeQuitHandler, htopic]

theorem addQuitHandler_none (hch : q.handlers topic = none) :
    q.addQuitHandler topic = .ok (q.insert topic, q.channels.next) := by
  rw [QuitHandlers.addQuitHandler, hch]
  rfl

/-- A replaced channel is taken out before the new one is entered. -/
theorem addQuitHandler_some (h : Consistent issued q)
    (hch : q.handlers topic = some ch) :
    q.addQuitHandler topic
      = .ok ((q.drop topic ch).insert topic, q.channels.next) := by
  have htopic := (h.inverse topic ch).mp hch
  obtain ⟨id, hlt, rfl⟩ := h.made topic ch (h.registered topic ch htopic)
  have hopen : q.channels.make.isOpen (.made id) = true :=
    (Channels.isOpen_make (h.unmade _ le_rfl)).mpr (Or.inr (h.isOpen htopic))
  rw [QuitHandlers.addQuitHandler, hch]
  dsimp only
  rw [Channels.close_of_isOpen hopen, QuitHandlers.insert, QuitHandlers.drop]
  simp only [set_delete]
  rfl

/-- **AN ENTRY IS DROPPED**: its channel is closed and stays known. -/
theorem Consistent.drop (h : Consistent issued q)
    (htopic : q.topics ch = some topic) :
    Consistent issued (q.drop topic ch) := by
  have hch := (h.inverse topic ch).mpr htopic
  refine ⟨h.inverse.delete hch, ?_, ?_, ?_, h.oneTopic, ?_, ?_⟩
  · intro topic' ch' hentry
    exact h.registered topic' ch' (delete_eq_some.mp hentry).2
  · intro topic' ch' hmem
    obtain ⟨id, hlt, heq⟩ := h.made topic' ch' hmem
    exact ⟨id, by rwa [QuitHandlers.drop, Channels.made_shut], heq⟩
  · intro topic' ch' hmem
    show (q.channels.shut ch).isOpen ch' = true
      ↔ (delete q.topics ch ch').isSome = true
    rw [Channels.isOpen_shut, h.isOpen_iff topic' ch' hmem]
    by_cases heq : ch' = ch
    · subst heq
      simp
    · rw [delete_of_ne heq]
      exact ⟨And.right, fun hsome => ⟨heq, hsome⟩⟩
  · intro i j topic' ch' ch'' hij hi hj
    have hnone := h.replaced i j topic' ch' ch'' hij hi hj
    by_cases heq : ch' = ch
    · rw [heq]
      exact delete_self
    · exact (delete_of_ne heq).trans hnone
  · obtain ⟨id, hlt, rfl⟩ := h.made topic ch (h.registered topic ch htopic)
    intro id' hle
    refine (Function.update_of_ne ?_ ..).trans (h.unmade id' hle)
    rintro rfl
    exact absurd hlt (not_lt.mpr hle)

/-- **A CHANNEL IS ENTERED** for a topic that has none. -/
theorem Consistent.insert (h : Consistent issued q)
    (hnone : q.handlers topic = none) :
    Consistent (issued ++ [(topic, q.channels.next)]) (q.insert topic) := by
  have hmake := @Channels.isOpen_make q.channels
  have hold : ∀ topic' ch', (topic', ch') ∈ issued → ch' ≠ q.channels.next := by
    rintro topic' ch' hmem rfl
    exact h.next_fresh hmem
  refine ⟨h.inverse.set hnone h.topics_next, ?_, ?_, ?_, ?_, ?_, ?_⟩
  · intro topic' ch' hentry
    rcases set_eq_some.mp hentry with ⟨rfl, rfl⟩ | ⟨-, hentry⟩
    · exact List.mem_append_right _ (List.mem_singleton_self _)
    · exact List.mem_append_left _ (h.registered topic' ch' hentry)
  · intro topic' ch' hmem
    rcases List.mem_append.mp hmem with hmem | hmem
    · obtain ⟨id, hlt, heq⟩ := h.made topic' ch' hmem
      exact ⟨id, Nat.lt_succ_of_lt hlt, heq⟩
    · obtain ⟨-, rfl⟩ := Prod.mk.inj (List.mem_singleton.mp hmem)
      exact ⟨_, Nat.lt_succ_self _, rfl⟩
  · intro topic' ch' hmem
    show q.channels.make.isOpen ch' = true
      ↔ (set q.topics q.channels.next topic ch').isSome = true
    rw [hmake (h.unmade _ le_rfl)]
    rcases List.mem_append.mp hmem with hmem | hmem
    · have hne := hold topic' ch' hmem
      rw [set_of_ne hne, ← h.isOpen_iff topic' ch' hmem]
      exact or_iff_right hne
    · obtain ⟨-, rfl⟩ := Prod.mk.inj (List.mem_singleton.mp hmem)
      rw [set_self]
      exact ⟨fun _ => rfl, fun _ => Or.inl rfl⟩
  · intro topic₁ topic₂ ch' h₁ h₂
    rcases List.mem_append.mp h₁ with h₁ | h₁ <;>
      rcases List.mem_append.mp h₂ with h₂ | h₂
    · exact h.oneTopic topic₁ topic₂ ch' h₁ h₂
    · exact absurd (Prod.mk.inj (List.mem_singleton.mp h₂)).2 (hold _ _ h₁)
    · exact absurd (Prod.mk.inj (List.mem_singleton.mp h₁)).2 (hold _ _ h₂)
    · exact (Prod.mk.inj (List.mem_singleton.mp h₁)).1.trans
        (Prod.mk.inj (List.mem_singleton.mp h₂)).1.symm
  · intro i j topic' ch' ch'' hij hi hj
    -- the later one of the two is either old as well, or the new one
    have hi' : issued[i]? = some (topic', ch') := by
      rcases getElem?_concat_cases hi with hi | ⟨rfl, -⟩
      · exact hi
      · rcases getElem?_concat_cases hj with hj | ⟨rfl, -⟩
        · exact absurd (List.getElem?_eq_some_iff.mp hj).1 (not_lt.mpr hij.le)
        · exact absurd hij (lt_irrefl _)
    have hmem := List.mem_of_getElem? hi'
    refine (set_of_ne (hold topic' ch' hmem)).trans ?_
    rcases getElem?_concat_cases hj with hj | ⟨-, heq⟩
    · exact h.replaced i j topic' ch' ch'' hij hi' hj
    · obtain ⟨rfl, -⟩ := Prod.mk.inj heq
      cases htopic : q.topics ch' with
      | none => rfl
      | some topic'' =>
          have hsame := h.oneTopic _ _ _ (h.registered _ _ htopic) hmem
          rw [(h.inverse topic' ch').mpr (hsame ▸ htopic)] at hnone
          cases hnone
  · intro id hle
    exact h.unmade id (Nat.le_of_succ_le hle)

/-! What the methods guarantee. -/

/-- What `AddQuitHandler` keeps and does. -/
theorem addQuitHandler_spec (h : Consistent issued q) (topic : String) :
    ∃ q', q.addQuitHandler topic = .ok (q', q.channels.next) ∧
      Consistent (issued ++ [(topic, q.channels.next)]) q' ∧
      ∀ topic' ≠ topic, q'.handlers topic' = q.handlers topic' := by
  cases hch : q.handlers topic with
  | none =>
      exact ⟨q.insert topic, addQuitHandler_none hch, h.insert hch,
        fun topic' hne => set_of_ne hne⟩
  -- the old channel is closed first, then the new one is registered
  | some ch =>
      have hdrop := h.drop ((h.inverse topic ch).mp hch)
      have hins := hdrop.insert
        (show (q.drop topic ch).handlers topic = none from delete_self)
      rw [show (q.drop topic ch).channels.next = q.channels.next from
        congrArg QuitChannel.made Channels.made_shut] at hins
      refine ⟨_, addQuitHandler_some h hch, hins, fun topic' hne => ?_⟩
      exact (set_of_ne hne).trans (delete_of_ne hne)

theorem removeQuitHandler_spec (h : Consistent issued q) (ch : QuitChannel) :
    ∃ q' topic, q.removeQuitHandler ch = .ok (q', topic) ∧
      Consistent issued q' ∧
      ∀ topic', q.handlers topic' = none → q'.handlers topic' = none := by
  cases htopic : q.topics ch with
  | none => exact ⟨q, none, removeQuitHandler_none htopic, h, fun _ => id⟩
  | some topic =>
      refine ⟨_, _, removeQuitHandler_some h htopic, h.drop htopic, ?_⟩
      exact fun topic' hnone => delete_none hnone

theorem removeTopicHandler_spec (h : Consistent issued q) (topic : String) :
    ∃ q' found, q.removeTopicHandler topic = .ok (q', found) ∧
      Consistent issued q' ∧ q'.handlers topic = none ∧
      ∀ topic', q.handlers topic' = none → q'.handlers topic' = none := by
  cases hch : q.handlers topic with
  | none => exact ⟨q, false, removeTopicHandler_none hch, h, hch, fun _ => id⟩
  | some ch =>
      refine ⟨_, _, removeTopicHandler_some h hch,
        h.drop ((h.inverse topic ch).mp hch), delete_self, ?_⟩
      exact fun topic' hnone => delete_none hnone

/-- A channel made elsewhere. -/
theorem Consistent.make (h : Consistent issued q) :
    Consistent issued { q with channels := q.channels.make } := by
  refine ⟨h.inverse, h.registered, ?_, ?_, h.oneTopic, h.replaced, ?_⟩
  · intro topic ch hmem
    obtain ⟨id, hlt, heq⟩ := h.made topic ch hmem
    exact ⟨id, Nat.lt_succ_of_lt hlt, heq⟩
  · intro topic ch hmem
    refine (Channels.isOpen_make (h.unmade _ le_rfl)).trans ?_
    rw [h.isOpen_iff topic ch hmem]
    refine or_iff_right ?_
    rintro rfl
    exact h.next_fresh hmem
  · intro id hle
    exact h.unmade id (Nat.le_of_succ_le hle)

end Calls

/-! ## Sequences of calls -/

/-- The calls; `makes` is a channel made elsewhere in the program. -/
inductive Event where
  | addQuitHandler (topic : String)
  | removeQuitHandler (ch : QuitChannel)
  | removeTopicHandler (topic : String)
  | makes

/-- What a call returns. -/
inductive Outcome where
  | added (ch : QuitChannel)
  | removedQuit (topic : Option String)
  | removedTopic (found : Bool)
  | made
  | panicked (p : Panic)
  deriving DecidableEq

def Outcome.isPanic : Outcome → Bool
  | .panicked _ => true
  | _ => false

/-- A call is over, or has panicked. -/
def finish {α : Type} (q : QuitHandlers) (outcome : α → Outcome) :
    Except Panic (QuitHandlers × α) → Option (QuitHandlers × Outcome)
  | .ok (q', a) => some (q', outcome a)
  | .error p => some (q, .panicked p)

/-- One call. -/
def QuitHandlers.react (q : QuitHandlers) :
    Event → Option (QuitHandlers × Outcome)
  | .addQuitHandler topic => finish q .added (q.addQuitHandler topic)
  | .removeQuitHandler ch => finish q .removedQuit (q.removeQuitHandler ch)
  | .removeTopicHandler topic =>
      finish q .removedTopic (q.removeTopicHandler topic)
  | .makes => some ({ q with channels := q.channels.make }, .made)

/-- The channel that `AddQuitHandler` has returned, and its topic. -/
def issuedBy : Event × Outcome → Option (String × QuitChannel)
  | (.addQuitHandler topic, .added ch) => some (topic, ch)
  | _ => none

/-- The channels handed out so far, in order. -/
def issued (tr : List (Event × Outcome)) : List (String × QuitChannel) :=
  tr.filterMap issuedBy

/-- A channel whose topic was given another one after it. -/
def Replaced (tr : List (Event × Outcome)) (ch : QuitChannel) : Prop :=
  ∃ (i j : ℕ) (topic : String) (ch' : QuitChannel), i < j ∧
    (issued tr)[i]? = some (topic, ch) ∧ (issued tr)[j]? = some (topic, ch')

section Runs

variable {tr : List (Event × Outcome)} {l : Event × Outcome}
  {q q' : QuitHandlers}

/-- New handlers are consistent. -/
theorem consistent_new : Consistent [] newQuitHandlers where
  inverse := inverse_empty
  registered := fun _ _ h => by cases h
  made := fun _ _ h => by cases h
  isOpen_iff := fun _ _ h => by cases h
  oneTopic := fun _ _ _ h => by cases h
  replaced := fun _ _ _ _ _ _ h => by cases h
  unmade := fun _ _ => rfl

/-- **ONE CALL** keeps the table consistent and does not panic. -/
theorem react_consistent {is : List (String × QuitChannel)}
    (h : Consistent is q) (e : Event) :
    ∃ q' o, q.react e = some (q', o) ∧ o.isPanic = false ∧
      Consistent (is ++ (issuedBy (e, o)).toList) q' := by
  cases e with
  | addQuitHandler topic =>
      obtain ⟨q', heq, hcons, -⟩ := addQuitHandler_spec h topic
      refine ⟨q', .added q.channels.next, ?_, rfl, hcons⟩
      rw [QuitHandlers.react, heq]
      rfl
  | removeQuitHandler ch =>
      obtain ⟨q', topic, heq, hcons, -⟩ := removeQuitHandler_spec h ch
      refine ⟨q', .removedQuit topic, ?_, rfl, (List.append_nil is).symm ▸ hcons⟩
      rw [QuitHandlers.react, heq]
      rfl
  | removeTopicHandler topic =>
      obtain ⟨q', found, heq, hcons, -⟩ := removeTopicHandler_spec h topic
      refine ⟨q', .removedTopic found, ?_, rfl,
        (List.append_nil is).symm ▸ hcons⟩
      rw [QuitHandlers.react, heq]
      rfl
  | makes =>
      exact ⟨{ q with channels := q.channels.make }, .made, rfl, rfl,
        (List.append_nil is).symm ▸ h.make⟩

/-- Every run keeps the table consistent and does not panic. -/
theorem consistent_run (hrun : Run (Fires QuitHandlers.react) newQuitHandlers
      tr q) :
    Consistent (issued tr) q ∧ ∀ l ∈ tr, l.2.isPanic = false := by
  refine Run.traced (P := fun tr q =>
    Consistent (issued tr) q ∧ ∀ l ∈ tr, l.2.isPanic = false) hrun
    ⟨consistent_new, fun l hl => by cases hl⟩ ?_
  rintro tr q ⟨e, o⟩ q' ⟨hcons, hquiet⟩ hstep
  obtain ⟨q'', o', heq, hpanic, hcons'⟩ := react_consistent hcons e
  obtain ⟨rfl, rfl⟩ := Prod.mk.inj (Option.some.inj (heq.symm.trans hstep))
  refine ⟨?_, fun l hl => ?_⟩
  · rwa [issued, filterMap_concat]
  · rcases List.mem_append.mp hl with hl | hl
    · exact hquiet l hl
    · rw [List.mem_singleton.mp hl]
      exact hpanic

end Runs

/-- **THE TABLE IS CONSISTENT** after any sequence of calls: the maps are
    inverse to each other, a channel handed out is open exactly while it is
    registered, no call has panicked and none is going to, and to remove with a
    channel that is not registered, as a replaced one, returns nil and changes
    nothing. -/
theorem quit_handlers_consistent (tr : List (Event × Outcome))
    (q : QuitHandlers)
    (hrun : Run (Fires QuitHandlers.react) newQuitHandlers tr q) :
    Inverse q.handlers q.topics ∧
    (∀ topic ch, (topic, ch) ∈ issued tr → (q.channels.isOpen ch = true ↔
      ∃ topic', q.handlers topic' = some ch)) ∧
    (∀ l ∈ tr, l.2.isPanic = false) ∧
    (∀ e, ∃ q' o, q.react e = some (q', o) ∧ o.isPanic = false) ∧
    (∀ ch, Replaced tr ch → ∀ topic, q.handlers topic ≠ some ch) ∧
    ∀ ch, (∀ topic, q.handlers topic ≠ some ch) →
      q.react (.removeQuitHandler ch) = some (q, .removedQuit none) := by
  obtain ⟨h, hquiet⟩ := consistent_run hrun
  refine ⟨h.inverse, ?_, hquiet, ?_, ?_, ?_⟩
  · intro topic ch hmem
    rw [h.isOpen_iff topic ch hmem, Option.isSome_iff_exists]
    exact exists_congr (fun topic' => (h.inverse topic' ch).symm)
  · intro e
    obtain ⟨q', o, heq, hpanic, -⟩ := react_consistent h e
    exact ⟨q', o, heq, hpanic⟩
  · rintro ch ⟨i, j, topic, ch', hij, hi, hj⟩ topic' hch
    have hnone := h.replaced i j topic ch ch' hij hi hj
    rw [(h.inverse topic' ch).mp hch] at hnone
    cases hnone
  · intro ch hnone
    have htopic : q.topics ch = none := by
      refine Option.eq_none_iff_forall_ne_some.mpr (fun topic hentry => ?_)
      exact hnone topic ((h.inverse topic ch).mpr hentry)
    rw [QuitHandlers.react, removeQuitHandler_none htopic]
    rfl

/-- A topic is given a second channel; the first one is closed, and to remove
    with it changes nothing. -/
theorem quit_handlers_replaced :
    ∃ tr q, Run (Fires QuitHandlers.react) newQuitHandlers tr q ∧
      issued tr = [("one", .made 0), ("one", .made 2)] ∧
      q.channels.isOpen (.made 0) = false ∧
      q.channels.isOpen (.made 2) = true ∧
      q.react (.removeQuitHandler (.made 0)) = some (q, .removedQuit none) := by
  obtain ⟨tr, q, hrun, hissued, hclosed, hopen⟩ := exists_run
    (fun tr (q : QuitHandlers) =>
      issued tr = [("one", .made 0), ("one", .made 2)] ∧
      q.channels.isOpen (.made 0) = false ∧ q.channels.isOpen (.made 2) = true)
    (show (execute QuitHandlers.react newQuitHandlers
      [.addQuitHandler "one", .makes, .addQuitHandler "one"]).any _ = true by
        decide +kernel)
  obtain ⟨-, -, -, -, hreplaced, hremove⟩ := quit_handlers_consistent tr q hrun
  refine ⟨tr, q, hrun, hissued, hclosed, hopen, hremove _ (hreplaced _ ?_)⟩
  exact ⟨0, 1, "one", .made 2, by decide, by rw [hissued]; rfl,
    by rw [hissued]; rfl⟩

end RelayerQuitHandlers
