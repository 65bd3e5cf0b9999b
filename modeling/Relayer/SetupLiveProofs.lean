import Relayer.SetupProofs

/-! # A setup phase that gets to its end

    What `BlsSetup` can always still do.  The nodes of an epoch are honest, no
    answer is added twice and nobody has left the topic; messages may have been
    delayed, reordered and repeated in any way.

    * `Sane` is what holds of every node in every reachable state: it does not
      panic, it has ticked off nobody who has not answered, and it stops when
      nobody is left;
    * `exists_handled`: a message that was sent can be delivered and handled at
      once, whatever else waits;
    * **`setup_can_finish_iff`**: from every such state all nodes can still come
      to their membership keys, if and only if there are at most 63 of them. -/

namespace RelayerSetupLive

open BitMask RelayerBls RelayerMessage RelayerSetup Transition

variable {PK SG SK : Type} [AddCommGroup SG] {bls : Bls PK SG SK}
  {ep : Epoch PK SK} {net net' : Network SG} {p p' : Process SG}
  {sent sent' : List (MessageBlsSetup SG)} {o : Outcome SG}
  {tr : List (NetEvent × Outcome SG)}

/-! ## Nodes that are well -/

/-- What holds of a node of the epoch in every reachable state. -/
structure Sane (bls : Bls PK SG SK) (ep : Epoch PK SK)
    (sent : List (MessageBlsSetup SG)) (p : Process SG) : Prop where
  running : p.crashed = false
  handlers : ∀ bytes ∈ p.handlers, ∃ msg ∈ sent, bytes = some msg
  heard : ∀ j < ep.publicKeys.length,
    p.setup.receivedMembershipKeyMask.testBit j = false → ep.parts bls j ∈ sent
  beyond : ∀ j, ep.publicKeys.length ≤ j →
    p.setup.receivedMembershipKeyMask.testBit j
      = decide (64 ≤ ep.publicKeys.length)
  ended : p.setup.cancelled = true ↔ p.setup.receivedMembershipKeyMask = 0
  given : p.result ≠ none → p.closed = false → p.setup.cancelled = true

/-- Beyond the nodes a mask has bits only if it overflowed. -/
theorem testBit_initialMask_beyond {np j : ℕ} (hj : np ≤ j) :
    (initialMask np).testBit j = decide (64 ≤ np) := by
  by_cases hnp : np < 64
  · rw [testBit_initialMask_of_lt hnp, decide_eq_false (not_lt.mpr hj),
      decide_eq_false (not_le.mpr hnp)]
  · rw [initialMask_of_le (not_lt.mp hnp), decide_eq_true (not_lt.mp hnp)]
    show (!(Nat.testBit 0 j)) = true
    rw [Nat.zero_testBit]
    rfl

/-- A node at its start is sane. -/
theorem sane_start (bls : Bls PK SG SK) (hn : 1 ≤ ep.publicKeys.length) :
    Sane bls ep [] (Process.start ep.publicKeys.length : Process SG) where
  running := rfl
  handlers bytes hbytes := absurd hbytes List.not_mem_nil
  heard j hj hbit := by
    rw [start_mask, testBit_initialMask hj] at hbit
    cases hbit
  beyond j hj := by rw [start_mask, testBit_initialMask_beyond hj]
  ended := by
    have hbit : (initialMask ep.publicKeys.length).testBit 0 = true :=
      testBit_initialMask hn
    constructor
    · intro hcancel
      cases hcancel
    · intro hzero
      rw [start_mask] at hzero
      rw [hzero] at hbit
      cases hbit
  given h := absurd rfl h

omit [AddCommGroup SG] in
/-- More may be sent. -/
theorem Sane.mono (h : Sane bls ep sent p) (hsub : sent ⊆ sent') :
    Sane bls ep sent' p :=
  { h with
    handlers := fun bytes hbytes => by
      obtain ⟨msg, hmsg, heq⟩ := h.handlers bytes hbytes
      exact ⟨msg, hsub hmsg, heq⟩
    heard := fun j hj hbit => hsub (h.heard j hj hbit) }

/-- The part of a node that has sent its parts is added. -/
theorem Sane.aggregate {j : ℕ} {part : SG} {k : ℕ} (h : Sane bls ep sent p)
    (hj : j < ep.publicKeys.length) (hsent : ep.parts bls j ∈ sent) :
    Sane bls ep sent { p with
      setup := p.setup.aggregate part j
      handlers := p.handlers.eraseIdx k
      crashed := false } where
  running := rfl
  handlers bytes hbytes := h.handlers bytes (List.mem_of_mem_eraseIdx hbytes)
  heard i hi hbit := by
    have hclear : (clearBit p.setup.receivedMembershipKeyMask j).testBit i
        = false := hbit
    by_cases hij : j = i
    · exact hij ▸ hsent
    · rw [testBit_clearBit_of_ne _ hij] at hclear
      exact h.heard i hi hclear
  beyond i hi := by
    show (clearBit p.setup.receivedMembershipKeyMask j).testBit i = _
    rw [testBit_clearBit_of_ne _ (by omega)]
    exact h.beyond i hi
  ended := by
    constructor
    · exact aggregate_done h.ended.mp part j
    · intro hzero
      exact (Bool.or_eq_true _ _).mpr (Or.inr (decide_eq_true hzero))
  given hresult hclosed :=
    (Bool.or_eq_true _ _).mpr (Or.inl (h.given hresult hclosed))

/-- Honest nodes stay well, whatever they do. -/
theorem Sane.react {i : ℕ} {e : Event SG} (h : Sane bls ep sent p)
    (hhonest : ∀ msg ∈ sent, ep.Honest bls msg)
    (hi : i < ep.publicKeys.length)
    (hreceived : ∀ bytes, e = .receives bytes → ∃ msg ∈ sent, bytes = some msg)
    (hreact : p.react bls (ep.node bls i) e = some (p', o)) :
    Sane bls ep (sent ++ o.broadcast) p' := by
  refine Sane.mono ?_ (List.subset_append_left sent _)
  rcases react_cases hreact with ⟨bytes, rfl, -, rfl⟩ |
    ⟨k, bytes, -, hk, rfl, rfl⟩ | ⟨-, -, rfl⟩ | ⟨-, -, -, hended, rfl⟩
  · refine { h with handlers := ?_ }
    intro b hb
    rcases List.mem_append.mp hb with hold | hnew
    · exact h.handlers b hold
    · rw [List.mem_singleton.mp hnew]
      exact hreceived bytes rfl
  · obtain ⟨msg, hmsg, rfl⟩ := h.handlers _ (List.mem_of_getElem? hk)
    rcases hhonest msg hmsg with rfl | ⟨j, hj, rfl⟩
    · rw [handle_trigger p.setup hi]
      refine { h with running := rfl, handlers := ?_ }
      exact fun b hb => h.handlers b (List.mem_of_mem_eraseIdx hb)
    · obtain ⟨verified, heq⟩ := handle_answer bls p.setup hi hj
      rw [heq]
      exact h.aggregate hj hmsg
  · exact { h with given := fun _ hclosed => by cases hclosed }
  · refine { h with given := fun _ hclosed => ?_ }
    rw [hclosed, Bool.or_false] at hended
    exact hended

/-- **ALL NODES ARE WELL** in every reachable state. -/
theorem sane_run (hn : 1 ≤ ep.publicKeys.length)
    (h : Run (Fires (Network.react bls ep)) (Network.start ep) tr net) :
    ∀ i, Sane bls ep net.sent (net.procs i) := by
  refine (h.invariant (P := fun net => Authentic bls ep net ∧
    ∀ i, Sane bls ep net.sent (net.procs i)) ⟨?_, fun _ => sane_start bls hn⟩ ?_).2
  · exact ⟨fun _ hmsg => absurd hmsg List.not_mem_nil,
      fun _ _ hb => absurd hb List.not_mem_nil⟩
  · rintro net ⟨e, o⟩ net' ⟨ha, hs⟩ hstep
    refine ⟨authentic_step ha hstep, fun i => ?_⟩
    rcases net_cases hstep with ⟨-, rfl⟩ | ⟨i', pe, p, hof, hi', hp, rfl⟩
    · exact (hs i).mono (List.subset_append_left _ _)
    · by_cases hii : i = i'
      · subst hii
        show Sane bls ep _ (Function.update net.procs i p i)
        rw [Function.update_self]
        refine (hs i).react ha.sent hi' ?_ hp
        rintro bytes rfl
        obtain ⟨msg, hmsg, heq, -⟩ := hof
        exact ⟨msg, hmsg, heq⟩
      · show Sane bls ep _ (Function.update net.procs i' p i)
        rw [Function.update_of_ne hii]
        exact (hs i).mono (List.subset_append_left _ _)

/-! ## Keys -/

/-- A node that has heard every source, each once, has its key. -/
theorem complete_key {i : ℕ} (h : OnceRun bls ep tr net)
    (hnone : (net.procs i).result = none)
    (hcancel : (net.procs i).setup.cancelled = true) :
    (net.procs i).setup.membershipKey =
      ∑ j ∈ Finset.range ep.publicKeys.length, ep.keyPart bls j i := by
  have hs := (summed_run (Run.of_guarded h)).2 i
  rw [hs.key]
  refine Finset.sum_congr rfl ?_
  intro j hj
  have hlt := Finset.mem_range.mp hj
  have hbit := hs.bits j hlt
  rw [hs.done hcancel] at hbit
  have hne : answers i j tr ≠ 0 :=
    of_decide_eq_false (hbit.symm.trans (Nat.zero_testBit j))
  have hle := onceRun_answers h i hnone j hlt
  have hone : answers i j tr = 1 := by omega
  rw [hone, one_smul]

/-- **WHAT WAS GIVEN BACK** by a node that nobody cut off is its key. -/
theorem returned_key (h : OnceRun bls ep tr net) :
    ∀ i key, (net.procs i).closed = false → (net.procs i).result = some key →
      key = ∑ j ∈ Finset.range ep.publicKeys.length, ep.keyPart bls j i := by
  refine (h.traced (P := fun tr net => OnceRun bls ep tr net ∧
    ∀ i key, (net.procs i).closed = false → (net.procs i).result = some key →
      key = ∑ j ∈ Finset.range ep.publicKeys.length, ep.keyPart bls j i)
    ⟨Run.refl, ?_⟩ ?_).2
  · intro i key _ hresult
    cases hresult
  · rintro tr net ⟨e, o⟩ net' ⟨hrun, hkeys⟩ hstep
    refine ⟨hrun.tail hstep, ?_⟩
    intro i key hclosed hresult
    rcases net_cases hstep.1 with ⟨-, rfl⟩ | ⟨i', pe, p, -, -, hp, rfl⟩
    · exact hkeys i key hclosed hresult
    · by_cases hii : i = i'
      · subst hii
        replace hclosed : (Function.update net.procs i p i).closed = false := hclosed
        replace hresult : (Function.update net.procs i p i).result = some key :=
          hresult
        rw [Function.update_self] at hclosed hresult
        rcases react_cases hp with ⟨_, -, -, rfl⟩ | ⟨_, _, -, -, -, rfl⟩ |
          ⟨-, -, rfl⟩ | ⟨-, -, hnone, hended, rfl⟩
        · exact hkeys i key hclosed hresult
        · exact hkeys i key hclosed hresult
        · cases hclosed
        · replace hclosed : (net.procs i).closed = false := hclosed
          rw [hclosed, Bool.or_false] at hended
          exact (Option.some.inj hresult).symm.trans
            (complete_key hrun hnone hended)
      · replace hclosed : (Function.update net.procs i' p i).closed = false :=
          hclosed
        replace hresult : (Function.update net.procs i' p i).result = some key :=
          hresult
        rw [Function.update_of_ne hii] at hclosed hresult
        exact hkeys i key hclosed hresult

/-! ## What can be done next -/

/-- The steps that add no answer twice. -/
abbrev Once (bls : Bls PK SG SK) (ep : Epoch PK SK) :
    Network SG → NetEvent × Outcome SG → Network SG → Prop :=
  Guarded (Fires (Network.react bls ep)) (fun net l => net.fresh l.1 = true)

/-- A node that is still waiting for messages. -/
structure Waiting (p : Process SG) : Prop where
  running : p.crashed = false
  uncancelled : p.setup.cancelled = false
  unclosed : p.closed = false
  unfinished : p.result = none

/-- **A MESSAGE CAN BE DELIVERED AND HANDLED** at once, before the handlers that
    wait already. -/
theorem exists_handled {i : ℕ} {msg : MessageBlsSetup SG}
    (hi : i < ep.publicKeys.length) (hw : Waiting (net.procs i))
    (hmsg : msg ∈ net.sent)
    (hfresh : msg.msgType = .blsSetupParts →
      (net.procs i).setup.receivedMembershipKeyMask.testBit msg.source.toNat
        = true) :
    ∃ tr, Run (Once bls ep) net tr
      ⟨Function.update net.procs i { net.procs i with
          setup := ((net.procs i).setup.handle bls (ep.node bls i) (some msg)).1
          crashed := ((net.procs i).setup.handle bls (ep.node bls i)
            (some msg)).2.isPanic },
        net.sent ++ ((net.procs i).setup.handle bls (ep.node bls i)
          (some msg)).2.broadcast⟩ := by
  obtain ⟨k, hk⟩ := List.mem_iff_getElem?.mp hmsg
  have hlast : ((net.procs i).handlers ++ [some msg])[(net.procs i).handlers.length]?
      = some (some msg) := List.getElem?_concat_length
  have herase : ((net.procs i).handlers ++ [some msg]).eraseIdx
      (net.procs i).handlers.length = (net.procs i).handlers := by
    rw [List.eraseIdx_append_of_length_le le_rfl, Nat.sub_self]
    exact List.append_nil _
  refine ⟨[(.delivers i k, .started), (.handles i (net.procs i).handlers.length,
    ((net.procs i).setup.handle bls (ep.node bls i) (some msg)).2)], ?_⟩
  -- the message is delivered, and then handled by its goroutine
  have hdelivered : Once bls ep net (.delivers i k, .started)
      ⟨Function.update net.procs i { net.procs i with
        handlers := (net.procs i).handlers ++ [some msg] }, net.sent⟩ := by
    refine ⟨?_, rfl⟩
    simp only [Fires, Network.react, hk, Network.move, if_pos hi, Process.react,
      Process.reactWith, hw.running, hw.uncancelled, hw.unclosed, hw.unfinished]
    simp [Outcome.broadcast]
  refine Run.head hdelivered (Run.single ⟨?_, ?_⟩)
  · simp only [Fires, Network.react, Network.move, if_pos hi, Process.react,
      Function.update_self, Process.reactWith, hw.running, hlast, herase]
    simp [Setup.handle]
  · simp only [Network.fresh, Function.update_self, hlast]
    by_cases htype : msg.msgType = .blsSetupParts
    · simp [hfresh htype]
    · simp [htype]

/-! ## What is left to do -/

/-- What has to happen in a setup. -/
inductive Task where
  | trigger
  | answers (j : ℕ)
  | hears (i j : ℕ)
  | returns (i : ℕ)
  deriving DecidableEq

/-- What has not happened yet. -/
def Undone (bls : Bls PK SG SK) (ep : Epoch PK SK) (net : Network SG) :
    Task → Prop
  | .trigger => setupTrigger SG ∉ net.sent
  | .answers j => ep.parts bls j ∉ net.sent
  | .hears i j =>
      (net.procs i).setup.receivedMembershipKeyMask.testBit j = true
  | .returns i => (net.procs i).result = none

/-- The tasks of an epoch of `n` nodes. -/
def tasks (n : ℕ) : Finset Task :=
  {.trigger} ∪ (Finset.range n).image .answers
    ∪ (Finset.range n ×ˢ Finset.range n).image (fun ij => .hears ij.1 ij.2)
    ∪ (Finset.range n).image .returns

/-- What there is to do in a setup of `n` nodes. -/
theorem mem_tasks {n : ℕ} {t : Task} :
    t ∈ tasks n ↔ t = .trigger ∨ (∃ j < n, t = .answers j) ∨
      (∃ i < n, ∃ j < n, t = .hears i j) ∨ ∃ i < n, t = .returns i := by
  simp only [tasks, Finset.mem_union, Finset.mem_singleton, Finset.mem_image,
    Finset.mem_range, Finset.mem_product, Prod.exists, eq_comm (b := t)]
  grind

/-- Nobody has left the topic, and no answer was added twice. -/
structure Open (bls : Bls PK SG SK) (ep : Epoch PK SK) (net : Network SG) :
    Prop where
  reached : ∃ tr, OnceRun bls ep tr net
  unclosed : ∀ i < ep.publicKeys.length, (net.procs i).closed = false

theorem Open.sane (h : Open bls ep net) (hn : 1 ≤ ep.publicKeys.length) (i : ℕ) :
    Sane bls ep net.sent (net.procs i) := by
  obtain ⟨tr, hrun⟩ := h.reached
  exact sane_run hn (Run.of_guarded hrun) i

/-- A node with a bit left is waiting. -/
theorem Open.waiting {i j : ℕ} (h : Open bls ep net)
    (hn : 1 ≤ ep.publicKeys.length) (hi : i < ep.publicKeys.length)
    (hbit : (net.procs i).setup.receivedMembershipKeyMask.testBit j = true) :
    Waiting (net.procs i) := by
  have hs := h.sane hn i
  have hcancel : (net.procs i).setup.cancelled = false := by
    rw [Bool.eq_false_iff]
    intro hcancel
    rw [hs.ended.mp hcancel] at hbit
    exact Bool.false_ne_true ((Nat.zero_testBit j).symm.trans hbit)
  refine ⟨hs.running, hcancel, h.unclosed i hi, ?_⟩
  by_contra hresult
  rw [hs.given hresult (h.unclosed i hi)] at hcancel
  cases hcancel

/-- What one task done at node `i` comes to: nobody else is touched, and node
    `i` keeps what it has. -/
structure Progress (net : Network SG) (i : ℕ) (p : Process SG)
    (sent : List (MessageBlsSetup SG)) : Prop where
  closed : p.closed = (net.procs i).closed
  bits : ∀ j, p.setup.receivedMembershipKeyMask.testBit j = true →
    (net.procs i).setup.receivedMembershipKeyMask.testBit j = true
  result : p.result = none → (net.procs i).result = none
  sent : net.sent ⊆ sent

/-- Such a step keeps the state open, and brings no task back. -/
theorem Progress.open_undone {i : ℕ} (hp : Progress net i p sent)
    (h : Open bls ep net)
    (hrun : Run (Once bls ep) net tr ⟨Function.update net.procs i p, sent⟩) :
    Open bls ep ⟨Function.update net.procs i p, sent⟩ ∧
      ∀ t, Undone bls ep ⟨Function.update net.procs i p, sent⟩ t →
        Undone bls ep net t := by
  obtain ⟨tr₀, hreached⟩ := h.reached
  refine ⟨⟨⟨tr₀ ++ tr, hreached.append hrun⟩, ?_⟩, ?_⟩
  · refine (Function.forall_update_iff net.procs
      (fun j q => j < ep.publicKeys.length → q.closed = false)).mpr ⟨?_, ?_⟩
    · exact fun hi => hp.closed.trans (h.unclosed i hi)
    · exact fun j _ => h.unclosed j
  · intro t hundone
    cases t with
    | trigger => exact fun hold => hundone (hp.sent hold)
    | answers j => exact fun hold => hundone (hp.sent hold)
    | hears k j =>
        replace hundone : (Function.update net.procs i p
          k).setup.receivedMembershipKeyMask.testBit j = true := hundone
        by_cases hk : k = i
        · subst hk
          rw [Function.update_self] at hundone
          exact hp.bits j hundone
        · rw [Function.update_of_ne hk] at hundone
          exact hundone
    | returns k =>
        replace hundone : (Function.update net.procs i p k).result = none := hundone
        by_cases hk : k = i
        · subst hk
          rw [Function.update_self] at hundone
          exact hp.result hundone
        · rw [Function.update_of_ne hk] at hundone
          exact hundone

/-- One more task can be done. -/
def CanDo (bls : Bls PK SG SK) (ep : Epoch PK SK) (net : Network SG) : Prop :=
  ∃ tr net', Run (Once bls ep) net tr net' ∧ Open bls ep net' ∧
    (∀ t, Undone bls ep net' t → Undone bls ep net t) ∧
    ∃ t ∈ tasks ep.publicKeys.length,
      Undone bls ep net t ∧ ¬ Undone bls ep net' t

/-- Somebody triggers the setup. -/
theorem canDo_trigger (h : Open bls ep net) (hmsg : setupTrigger SG ∉ net.sent) :
    CanDo bls ep net := by
  have hrun : Run (Once bls ep) net [(.triggers, .triggered)]
      ⟨Function.update net.procs 0 (net.procs 0),
        net.sent ++ [setupTrigger SG]⟩ := by
    rw [Function.update_eq_self]
    exact Run.single ⟨rfl, rfl⟩
  have hp : Progress net 0 (net.procs 0) (net.sent ++ [setupTrigger SG]) :=
    ⟨rfl, fun _ => id, id, List.subset_append_left _ _⟩
  obtain ⟨hopen, hstay⟩ := hp.open_undone h hrun
  refine ⟨_, _, hrun, hopen, hstay, .trigger, mem_tasks.mpr (.inl rfl), hmsg, ?_⟩
  exact fun hundone =>
    hundone (List.mem_append_right _ (List.mem_singleton.mpr rfl))

/-- A node that has not answered yet does so. -/
theorem canDo_answers {j : ℕ} (h : Open bls ep net)
    (hn : 1 ≤ ep.publicKeys.length) (htrigger : setupTrigger SG ∈ net.sent)
    (hj : j < ep.publicKeys.length) (hparts : ep.parts bls j ∉ net.sent) :
    CanDo bls ep net := by
  -- it has not heard itself, so that it is not done
  have hbit : (net.procs j).setup.receivedMembershipKeyMask.testBit j = true := by
    by_contra hbit
    exact hparts ((h.sane hn j).heard j hj (Bool.eq_false_iff.mpr hbit))
  obtain ⟨tr, hrun⟩ := exists_handled hj (h.waiting hn hj hbit) htrigger
    (fun htype => by cases htype)
  rw [handle_trigger _ hj] at hrun
  have hp : Progress net j { net.procs j with crashed := false }
      (net.sent ++ [ep.parts bls j]) :=
    ⟨rfl, fun _ => id, id, List.subset_append_left _ _⟩
  obtain ⟨hopen, hstay⟩ := hp.open_undone h hrun
  refine ⟨_, _, hrun, hopen, hstay, .answers j,
    mem_tasks.mpr (.inr (.inl ⟨j, hj, rfl⟩)), hparts, ?_⟩
  exact fun hundone =>
    hundone (List.mem_append_right _ (List.mem_singleton.mpr rfl))

/-- A node hears another one. -/
theorem canDo_hears {i j : ℕ} (h : Open bls ep net)
    (hn : 1 ≤ ep.publicKeys.length) (hi : i < ep.publicKeys.length)
    (hj : j < ep.publicKeys.length) (hparts : ep.parts bls j ∈ net.sent)
    (hbit : (net.procs i).setup.receivedMembershipKeyMask.testBit j = true) :
    CanDo bls ep net := by
  obtain ⟨tr, hrun⟩ := exists_handled hi (h.waiting hn hi hbit) hparts
    (fun _ => hbit)
  obtain ⟨verified, heq⟩ := handle_answer bls (net.procs i).setup hi hj
  rw [heq] at hrun
  have hp : Progress net i { net.procs i with
      setup := (net.procs i).setup.aggregate (ep.keyPart bls j i) j
      crashed := false } (net.sent ++ []) := by
    refine ⟨rfl, ?_, id, List.subset_append_left _ _⟩
    intro k hk
    replace hk : (clearBit (net.procs i).setup.receivedMembershipKeyMask
      j).testBit k = true := hk
    rw [testBit_clearBit, Bool.and_eq_true] at hk
    exact hk.1
  obtain ⟨hopen, hstay⟩ := hp.open_undone h hrun
  refine ⟨_, _, hrun, hopen, hstay, .hears i j,
    mem_tasks.mpr (.inr (.inr (.inl ⟨i, hi, j, hj, rfl⟩))), hbit, ?_⟩
  intro hundone
  replace hundone : (Function.update net.procs i _
    i).setup.receivedMembershipKeyMask.testBit j = true := hundone
  rw [Function.update_self] at hundone
  exact Bool.false_ne_true ((testBit_clearBit_self _ j).symm.trans hundone)

/-- A node that has heard everybody gives its key back. -/
theorem canDo_returns {i : ℕ} (h : Open bls ep net)
    (hn : 1 ≤ ep.publicKeys.length) (hi : i < ep.publicKeys.length)
    (hnone : (net.procs i).result = none)
    (hcancel : (net.procs i).setup.cancelled = true) : CanDo bls ep net := by
  have hrun : Run (Once bls ep) net
      [(.returns i, .returned (net.procs i).setup.membershipKey)]
      ⟨Function.update net.procs i { net.procs i with
        result := some (net.procs i).setup.membershipKey }, net.sent ++ []⟩ := by
    refine Run.single ⟨?_, rfl⟩
    simp only [Fires, Network.react, Network.move, if_pos hi, Process.react,
      Process.reactWith, (h.sane hn i).running, hnone, hcancel]
    rfl
  have hp : Progress net i { net.procs i with
      result := some (net.procs i).setup.membershipKey } (net.sent ++ []) := by
    refine ⟨rfl, fun _ => id, ?_, List.subset_append_left _ _⟩
    intro hno
    cases hno
  obtain ⟨hopen, hstay⟩ := hp.open_undone h hrun
  refine ⟨_, _, hrun, hopen, hstay, .returns i,
    mem_tasks.mpr (.inr (.inr (.inr ⟨i, hi, rfl⟩))), hnone, ?_⟩
  intro hundone
  replace hundone : (Function.update net.procs i _ i).result = none := hundone
  rw [Function.update_self] at hundone
  cases hundone

/-- As long as something is left, something can be done. -/
theorem canDo_of_undone (h : Open bls ep net) (hn : 1 ≤ ep.publicKeys.length)
    (hle : ep.publicKeys.length ≤ 63)
    (hundone : ∃ t ∈ tasks ep.publicKeys.length, Undone bls ep net t) :
    CanDo bls ep net := by
  by_cases htrigger : setupTrigger SG ∈ net.sent
  · by_cases hanswers : ∀ j < ep.publicKeys.length, ep.parts bls j ∈ net.sent
    · by_cases hhears : ∃ i < ep.publicKeys.length, ∃ j < ep.publicKeys.length,
          (net.procs i).setup.receivedMembershipKeyMask.testBit j = true
      · obtain ⟨i, hi, j, hj, hbit⟩ := hhears
        exact canDo_hears h hn hi hj (hanswers j hj) hbit
      · obtain ⟨t, ht, hu⟩ := hundone
        rcases mem_tasks.mp ht with rfl | ⟨j, hj, rfl⟩ | ⟨i, hi, j, hj, rfl⟩ |
          ⟨i, hi, rfl⟩
        · exact absurd htrigger hu
        · exact absurd (hanswers j hj) hu
        · exact absurd ⟨i, hi, j, hj, hu⟩ hhears
        · refine canDo_returns h hn hi hu ((h.sane hn i).ended.mpr ?_)
          -- no bit is left, neither of a node nor beyond
          apply eq_of_testBit_eq
          intro j
          rw [show (0 : ℤ).testBit j = false from Nat.zero_testBit j]
          by_cases hj : j < ep.publicKeys.length
          · rw [Bool.eq_false_iff]
            exact fun hbit => hhears ⟨i, hi, j, hj, hbit⟩
          · rw [(h.sane hn i).beyond j (not_lt.mp hj)]
            exact decide_eq_false (by omega)
    · rw [not_forall] at hanswers
      obtain ⟨j, hj⟩ := hanswers
      rw [Classical.not_imp] at hj
      exact canDo_answers h hn htrigger hj.1 hj.2
  · exact canDo_trigger h htrigger

/-- All nodes can go on to their keys. -/
theorem exists_finished (hn : 1 ≤ ep.publicKeys.length)
    (hle : ep.publicKeys.length ≤ 63) (h : OnceRun bls ep tr net)
    (hopen : ∀ i < ep.publicKeys.length, (net.procs i).closed = false) :
    ∃ tr' net', OnceRun bls ep (tr ++ tr') net' ∧
      ∀ i < ep.publicKeys.length, (net'.procs i).closed = false ∧
        (net'.procs i).result = some
          (∑ j ∈ Finset.range ep.publicKeys.length, ep.keyPart bls j i) := by
  obtain ⟨tr', net', hrun, -, ⟨-, hunclosed⟩, hdone⟩ :=
    exists_run_of_tasks (tasks ep.publicKeys.length) (Open bls ep)
      (Undone bls ep) (fun _ => True)
      (by
        intro a ha hundone
        obtain ⟨tr, b, hrun, hb, hstay, hdid⟩ := canDo_of_undone ha hn hle hundone
        exact ⟨tr, b, hrun, fun _ _ => trivial, hb, hstay, hdid⟩)
      ⟨⟨tr, h⟩, hopen⟩
  have hreached : OnceRun bls ep (tr ++ tr') net' := Run.append h hrun
  refine ⟨tr', net', hreached, fun i hi => ⟨hunclosed i hi, ?_⟩⟩
  obtain ⟨key, hkey⟩ := Option.ne_none_iff_exists'.mp
    (hdone (.returns i) (mem_tasks.mpr (.inr (.inr (.inr ⟨i, hi, rfl⟩)))))
  rw [hkey, returned_key hreached i key (hunclosed i hi) hkey]

/-- **A SETUP CAN FINISH**: from every reachable state in which nobody has left
    the topic and no answer was added twice, all nodes can still come to their
    membership keys; but only in an epoch of at most 63 nodes. -/
theorem setup_can_finish_iff (bls : Bls PK SG SK) (ep : Epoch PK SK)
    (hn : 1 ≤ ep.publicKeys.length) (h : OnceRun bls ep tr net)
    (hopen : ∀ i < ep.publicKeys.length, (net.procs i).closed = false) :
    (∃ tr' net', OnceRun bls ep (tr ++ tr') net' ∧
      ∀ i < ep.publicKeys.length, (net'.procs i).closed = false ∧
        (net'.procs i).result = some
          (∑ j ∈ Finset.range ep.publicKeys.length, ep.keyPart bls j i)) ↔
    ep.publicKeys.length ≤ 63 := by
  constructor
  · rintro ⟨tr', net', hrun, hdone⟩
    by_contra hle
    have hs := sane_run hn (Run.of_guarded hrun) 0
    obtain ⟨hunclosed, hresult⟩ := hdone 0 hn
    have hcancel := hs.given (by rw [hresult]; exact Option.some_ne_none _)
      hunclosed
    -- the bits beyond the nodes are never cleared
    have hbit := hs.beyond _ le_rfl
    rw [hs.ended.mp hcancel, decide_eq_true (by omega)] at hbit
    exact Bool.false_ne_true ((Nat.zero_testBit _).symm.trans hbit)
  · exact fun hle => exists_finished hn hle h hopen

/-- Node 0 has answered twice and has a trigger left; both nodes still come to
    their keys. -/
theorem setup_can_finish_sample :
    ∃ tr net, OnceRun intBls sampleEpoch tr net ∧
      (net.procs 0).handlers.length = 1 ∧ net.sent.length = 4 ∧
      ∃ tr' net', OnceRun intBls sampleEpoch (tr ++ tr') net' ∧
        (net'.procs 1).result = some 10000 := by
  obtain ⟨tr, net, hrun, hopen₀, hopen₁, hwaits, hsent⟩ := exists_run
    (fun _ (net : Network ℤ) => (net.procs 0).closed = false ∧
      (net.procs 1).closed = false ∧ (net.procs 0).handlers.length = 1 ∧
      net.sent.length = 4)
    (show (execute (restrict Network.fresh (Network.react intBls sampleEpoch))
      (Network.start sampleEpoch)
      [.triggers, .triggers, .delivers 0 0, .delivers 0 1, .delivers 0 1,
        .handles 0 0, .handles 0 0]).any _ = true by decide +kernel)
  have hopen : ∀ i < 2, (net.procs i).closed = false := by
    intro i hi
    interval_cases i
    · exact hopen₀
    · exact hopen₁
  obtain ⟨tr', net', hrun', hdone⟩ := (setup_can_finish_iff intBls sampleEpoch
    (by decide) (restrict_run hrun) hopen).mpr (by decide)
  refine ⟨tr, net, restrict_run hrun, hwaits, hsent, tr', net', hrun', ?_⟩
  rw [(hdone 1 (by decide)).2]
  decide +kernel

end RelayerSetupLive
