import Relayer.LeaderProofs
import Relayer.RangeProofs

/-! # The vote on uptimes

    `Client.Uptime` of `libp2p/rpc/uptime/client.go`: the leader collects how
    long each peer was seen, from its own registry and from the replies of the
    others, and reports the peers for which more than half of the durations lie
    around the report interval.  What a reporter replies is a list that nothing
    checks.

    * `uptimes` is the map that the two loops build, and `uptimes_eq` says that
      it groups the durations of `collected`;
    * `mem_report_iff` says what is reported, in whatever order the map is
      ranged over;
    * **`uptime_aggregated`**: who is reported, with which duration, and that
      the order of replies, entries and registry does not matter;
    * **`single_reporter_votes`**: how many durations it takes one reporter to
      win the vote on a peer alone, and that one duration is not enough;
    * **`repeated_votes_win`**: a reply that names a peer three times overrules
      two other reporters. -/

namespace RelayerUptime

open Ranges RelayerLeader

/-! ## Messages and settings -/

/-- `UpTime`. -/
structure UpTime where
  peerId : PeerID
  dur : Int64
  deriving DecidableEq

/-- `UpList`. -/
abbrev UpList := List UpTime

/-- The settings that are read. -/
structure Config where
  uptimeReportInterval : Int64
  tickerInterval : Int64

def Config.low (config : Config) : Int64 :=
  config.uptimeReportInterval - config.tickerInterval

def Config.high (config : Config) : Int64 :=
  config.uptimeReportInterval + config.tickerInterval

/-- The duration is accepted. -/
def Config.inWindow (config : Config) (duration : Int64) : Bool :=
  decide (duration ≥ config.low) && decide (duration ≤ config.high)

/-- The names of a `flow.MeterRegistry` with the totals of their meters, in the
    order that `ForEach` takes. -/
abbrev Registry := List (String × UInt64)

/-- `time.Duration(snapshot.Total) * time.Second`. -/
def toDuration (total : UInt64) : Int64 := total.toInt64 * 1000000000

/-- One call of `MultiCall`: who was called, and the reply or the error. -/
abbrev Call := PeerID × Except String UpList

/-- `ErrLeaderNotMatch`. -/
def errLeaderNotMatch : String := "request leader not match to node leader"

/-! ## Client and server -/

/-- The peers that `NewLeader` will call. -/
def newLeader (host : PeerID) (peerIds : List PeerID) : List PeerID :=
  peerIds.foldl (fun filteredIds pId =>
    if pId ≠ host then filteredIds ++ [pId] else filteredIds) []

section Source

variable (config : Config) (decode : String → Option PeerID)

/-- One meter of the registry; a name that is no peer id is logged. -/
def registryStep (uptimes : PeerID → Option (List Int64))
    (meter : String × UInt64) : PeerID → Option (List Int64) :=
  match decode meter.1 with
  | none => uptimes
  | some pId => append uptimes (pId, toDuration meter.2)

/-- One call; an error is logged. -/
def replyStep (uptimes : PeerID → Option (List Int64)) (call : Call) :
    PeerID → Option (List Int64) :=
  match call.2 with
  | .error _ => uptimes
  | .ok reply =>
      reply.foldl (fun uptimes u => append uptimes (u.peerId, u.dur)) uptimes

/-- The map `uptimes` after both loops. -/
def uptimes (registry : Registry) (calls : List Call) :
    PeerID → Option (List Int64) :=
  calls.foldl replyStep (registry.foldl (registryStep decode) (fun _ => none))

/-- One duration in the count of a peer: `cnt` and `dur`. -/
def tallyStep (acc : ℕ × Int64) (duration : Int64) : ℕ × Int64 :=
  if config.inWindow duration then
    (acc.1 + 1, if duration > acc.2 then duration else acc.2)
  else acc

/-- The count of a peer. -/
def tally (durations : List Int64) : ℕ × Int64 :=
  durations.foldl (tallyStep config) (0, 0)

/-- One peer of the map. -/
def reportStep (resList : UpList) (entry : PeerID × List Int64) : UpList :=
  if (tally config entry.2).1 > entry.2.length / 2 then
    resList ++ [⟨entry.1, (tally config entry.2).2⟩]
  else resList

/-- What `Uptime` returns, for an order in which the map is ranged over. -/
def report (order : List (PeerID × List Int64)) : UpList :=
  order.foldl (reportStep config) []

/-- One meter of the registry of a server. -/
def handlerStep (res : UpList) (meter : String × UInt64) : UpList :=
  match decode meter.1 with
  | none => res
  | some peerId => res ++ [⟨peerId, toDuration meter.2⟩]

/-- `UptimeHandler` of the server. -/
def uptimeHandler (consensusLeader : PeerID) (registry : Registry)
    (leader : PeerID) : Except String UpList :=
  if consensusLeader = leader then .ok (registry.foldl (handlerStep decode) [])
  else .error errLeaderNotMatch

/-! ## What is collected -/

/-- What a registry says about peers. -/
def entries (registry : Registry) : List (PeerID × Int64) :=
  registry.filterMap (fun meter =>
    (decode meter.1).map (fun pId => (pId, toDuration meter.2)))

/-- What a call says about peers. -/
def replied (call : Call) : List (PeerID × Int64) :=
  match call.2 with
  | .error _ => []
  | .ok reply => reply.map (fun u => (u.peerId, u.dur))

/-- All durations, from the registry and from the replies without an error. -/
def collected (registry : Registry) (calls : List Call) :
    List (PeerID × Int64) :=
  entries decode registry ++ calls.flatMap replied

/-- The durations of one peer. -/
def durationsOf (registry : Registry) (calls : List Call) (p : PeerID) :
    List Int64 :=
  valuesAt (collected decode registry calls) p

end Source

variable {config : Config} {decode : String → Option PeerID}

/-- What one meter says. -/
theorem entries_cons (meter : String × UInt64) (registry : Registry) :
    entries decode (meter :: registry) =
      ((decode meter.1).map (fun pId => (pId, toDuration meter.2))).toList ++
        entries decode registry := by
  rw [entries, List.filterMap_cons]
  cases decode meter.1 with
  | none => rfl
  | some pId => rfl

theorem foldl_registryStep (registry : Registry)
    (m : PeerID → Option (List Int64)) :
    registry.foldl (registryStep decode) m =
      (entries decode registry).foldl append m := by
  induction registry generalizing m with
  | nil => rfl
  | cons meter registry ih =>
      rw [List.foldl_cons, ih, entries_cons, List.foldl_append, registryStep]
      cases decode meter.1 with
      | none => rfl
      | some pId => rfl

theorem replyStep_eq (m : PeerID → Option (List Int64)) (call : Call) :
    replyStep m call = (replied call).foldl append m := by
  rw [replyStep, replied]
  cases call.2 with
  | error err => rfl
  | ok reply => exact List.foldl_map.symm

/-- **THE MAP** groups all that is collected by peer. -/
theorem uptimes_eq (decode : String → Option PeerID) (registry : Registry)
    (calls : List Call) :
    uptimes decode registry calls =
      (collected decode registry calls).foldl append (fun _ => none) := by
  rw [uptimes, foldl_registryStep, collected, List.foldl_append]
  generalize (entries decode registry).foldl append (fun _ => none) = m
  induction calls generalizing m with
  | nil => rfl
  | cons call calls ih =>
      rw [List.foldl_cons, ih, List.flatMap_cons, List.foldl_append,
        replyStep_eq]

/-- A server replies with what its registry says. -/
theorem replied_handler (reporter leader : PeerID) (registry : Registry) :
    replied (reporter, uptimeHandler decode leader registry leader) =
      entries decode registry := by
  have hloop : ∀ res : UpList, (registry.foldl (handlerStep decode) res).map
      (fun u => (u.peerId, u.dur)) =
        res.map (fun u => (u.peerId, u.dur)) ++ entries decode registry := by
    induction registry with
    | nil => intro res; exact (List.append_nil _).symm
    | cons meter registry ih =>
        intro res
        rw [List.foldl_cons, ih, entries_cons, ← List.append_assoc, handlerStep]
        cases decode meter.1 with
        | none => simp
        | some peerId => simp
  rw [replied, uptimeHandler, if_pos rfl]
  exact hloop []

/-! ## The count of a peer -/

/-- More than half of the durations are accepted. -/
def Accepted (config : Config) (durations : List Int64) : Prop :=
  durations.length < 2 * durations.countP config.inWindow

theorem tally_concat (durations : List Int64) (d : Int64) :
    tally config (durations ++ [d]) =
      tallyStep config (tally config durations) d :=
  List.foldl_concat ..

/-- The tally counts the durations in the window. -/
theorem tally_count (durations : List Int64) :
    (tally config durations).1 = durations.countP config.inWindow := by
  induction durations using List.reverseRecOn with
  | nil => rfl
  | append_singleton durations d ih =>
      rw [tally_concat, tallyStep, List.countP_append, List.countP_singleton]
      split
      · rw [ih]
      · exact ih

/-- The duration that is kept: zero, or the largest accepted one above it. -/
structure Kept (config : Config) (durations : List Int64) (dur : Int64) :
    Prop where
  nonneg : 0 ≤ dur
  upper : ∀ d ∈ durations, config.inWindow d = true → d ≤ dur
  attained : dur = 0 ∨ (dur ∈ durations ∧ config.inWindow dur = true)

/-- A duration that is not accepted, or not larger, changes nothing. -/
theorem Kept.concat {durations : List Int64} {d dur : Int64}
    (h : Kept config durations dur)
    (hd : config.inWindow d = true → d ≤ dur) :
    Kept config (durations ++ [d]) dur where
  nonneg := h.nonneg
  upper x hx hwin := by
    rcases List.mem_append.mp hx with hx | hx
    · exact h.upper x hx hwin
    · obtain rfl := List.mem_singleton.mp hx
      exact hd hwin
  attained := h.attained.imp id (And.imp_left (List.mem_append_left _))

/-- An accepted duration that is larger is kept in its place. -/
theorem Kept.replace {durations : List Int64} {d dur : Int64}
    (h : Kept config durations dur) (hwin : config.inWindow d = true)
    (hgt : d > dur) : Kept config (durations ++ [d]) d where
  nonneg := Int64.le_trans h.nonneg (Int64.le_of_lt hgt)
  upper x hx hxwin := by
    rcases List.mem_append.mp hx with hx | hx
    · exact Int64.le_trans (h.upper x hx hxwin) (Int64.le_of_lt hgt)
    · obtain rfl := List.mem_singleton.mp hx
      exact Int64.le_refl x
  attained := Or.inr
    ⟨List.mem_append_right _ (List.mem_singleton_self d), hwin⟩

/-- The tally keeps the largest duration in the window. -/
theorem kept_tally (config : Config) (durations : List Int64) :
    Kept config durations (tally config durations).2 := by
  induction durations using List.reverseRecOn with
  | nil => exact ⟨Int64.le_refl 0, fun d hd => (List.not_mem_nil hd).elim,
      Or.inl rfl⟩
  | append_singleton durations d ih =>
      rw [tally_concat, tallyStep]
      by_cases hwin : config.inWindow d = true
      · rw [if_pos hwin]
        by_cases hgt : d > (tally config durations).2
        · rw [if_pos hgt]
          exact ih.replace hwin hgt
        · rw [if_neg hgt]
          exact ih.concat fun _ => Int64.not_lt.mp hgt
      · rw [if_neg hwin]
        exact ih.concat fun h => absurd h hwin

theorem Kept.le {durations : List Int64} {dur dur' : Int64}
    (h : Kept config durations dur) (h' : Kept config durations dur') :
    dur ≤ dur' := by
  rcases h.attained with rfl | ⟨hmem, hwin⟩
  · exact h'.nonneg
  · exact h'.upper dur hmem hwin

theorem Kept.perm {durations durations' : List Int64} {dur : Int64}
    (h : Kept config durations dur) (hperm : durations.Perm durations') :
    Kept config durations' dur where
  nonneg := h.nonneg
  upper d hd := h.upper d (hperm.mem_iff.mpr hd)
  attained := h.attained.imp id (And.imp_left hperm.mem_iff.mp)

/-- The count does not depend on the order of the durations. -/
theorem tally_perm {durations durations' : List Int64}
    (hperm : durations.Perm durations') :
    tally config durations = tally config durations' := by
  refine Prod.ext ?_ ?_
  · rw [tally_count, tally_count, hperm.countP_eq]
  · have h := (kept_tally config durations).perm hperm
    have h' := kept_tally config durations'
    exact Int64.le_antisymm (h.le h') (h'.le h)

theorem accepted_perm {durations durations' : List Int64}
    (hperm : durations.Perm durations') :
    Accepted config durations ↔ Accepted config durations' := by
  rw [Accepted, Accepted, hperm.length_eq, hperm.countP_eq]

/-- In a window without negative durations the largest accepted one is kept. -/
theorem Kept.greatest {durations : List Int64} {dur : Int64}
    (h : Kept config durations dur) (hlow : 0 ≤ config.low)
    (hacc : Accepted config durations) :
    (dur ∈ durations ∧ config.inWindow dur = true) ∧
      ∀ d ∈ durations, config.inWindow d = true → d ≤ dur := by
  refine ⟨?_, h.upper⟩
  rcases h.attained with rfl | hmem
  · -- some duration is accepted, and it can only be zero
    have hpos : 0 < durations.countP config.inWindow := by
      rw [Accepted] at hacc
      omega
    obtain ⟨d, hd, hwin⟩ := List.countP_pos_iff.mp hpos
    have hge : config.low ≤ d := by
      rw [Config.inWindow, Bool.and_eq_true, decide_eq_true_eq] at hwin
      exact hwin.1
    obtain rfl : d = 0 :=
      Int64.le_antisymm (h.upper d hd hwin) (Int64.le_trans hlow hge)
    exact ⟨hd, hwin⟩
  · exact hmem

/-! ## What is reported -/

theorem report_concat (order : List (PeerID × List Int64))
    (entry : PeerID × List Int64) :
    report config (order ++ [entry]) =
      reportStep config (report config order) entry :=
  List.foldl_concat ..

/-- Who is reported, and with which duration. -/
theorem mem_report (order : List (PeerID × List Int64)) (u : UpTime) :
    u ∈ report config order ↔ ∃ durations, (u.peerId, durations) ∈ order ∧
      Accepted config durations ∧ u.dur = (tally config durations).2 := by
  induction order using List.reverseRecOn with
  | nil => simp [report]
  | append_singleton order entry ih =>
      obtain ⟨p, durations⟩ := entry
      have hhalf : (tally config durations).1 > durations.length / 2 ↔
          Accepted config durations := by
        rw [tally_count, Accepted]
        omega
      rw [report_concat, reportStep]
      simp only [List.mem_append, List.mem_singleton, or_and_right, exists_or,
        ← ih, Prod.mk.injEq]
      split
      next hacc =>
          rw [List.mem_append, List.mem_singleton]
          refine or_congr_right ?_
          constructor
          · rintro rfl
            exact ⟨durations, ⟨rfl, rfl⟩, hhalf.mp hacc, rfl⟩
          · rintro ⟨_, ⟨rfl, rfl⟩, -, hdur⟩
            rw [← hdur]
      next hrej =>
          refine ⟨Or.inl, ?_⟩
          rintro (hmem | ⟨_, ⟨-, rfl⟩, hacc, -⟩)
          · exact hmem
          · exact absurd (hhalf.mpr hacc) hrej

theorem sublist_report (order : List (PeerID × List Int64)) :
    ((report config order).map (·.peerId)).Sublist (order.map Prod.fst) := by
  induction order using List.reverseRecOn with
  | nil => exact List.Sublist.refl _
  | append_singleton order entry ih =>
      rw [report_concat, reportStep, List.map_append]
      split
      · rw [List.map_append]
        exact ih.append (List.Sublist.refl _)
      · exact ih.trans (List.sublist_append_left ..)

section Collected

variable {registry : Registry} {calls : List Call}
  {order : List (PeerID × List Int64)}

/-- **WHAT IS REPORTED**, in whatever order the map is ranged over. -/
theorem mem_report_iff (horder : RangeOf order (uptimes decode registry calls))
    {u : UpTime} :
    u ∈ report config order ↔
      Accepted config (durationsOf decode registry calls u.peerId) ∧
        u.dur = (tally config (durationsOf decode registry calls u.peerId)).2 := by
  rw [mem_report]
  constructor
  · rintro ⟨durations, hmem, hrest⟩
    have hget := (horder.mem _ _).mp hmem
    rw [uptimes_eq, group_eq] at hget
    split at hget
    · cases hget
    · obtain rfl := Option.some.inj hget
      exact hrest
  · rintro ⟨hacc, hdur⟩
    refine ⟨_, (horder.mem _ _).mpr ?_, hacc, hdur⟩
    rw [uptimes_eq, group_eq]
    refine if_neg fun hnil => ?_
    -- a peer without durations is not accepted
    rw [durationsOf, hnil] at hacc
    exact Nat.not_lt_zero _ hacc

/-- The peers reported are those accepted. -/
theorem mem_peers_iff (horder : RangeOf order (uptimes decode registry calls))
    (p : PeerID) :
    p ∈ (report config order).map (·.peerId) ↔
      Accepted config (durationsOf decode registry calls p) := by
  rw [List.mem_map]
  constructor
  · rintro ⟨u, hu, rfl⟩
    exact ((mem_report_iff horder).mp hu).1
  · intro hacc
    refine ⟨⟨p, (tally config (durationsOf decode registry calls p)).2⟩, ?_, rfl⟩
    exact (mem_report_iff horder).mpr ⟨hacc, rfl⟩

/-! ## The order of what is collected -/

/-- Two calls of one peer that both failed, or that were replied to with the
    same entries. -/
inductive SameReply : Call → Call → Prop where
  | failed (p : PeerID) (err err' : String) :
      SameReply (p, .error err) (p, .error err')
  | answered (p : PeerID) {reply reply' : UpList} (h : reply.Perm reply') :
      SameReply (p, .ok reply) (p, .ok reply')

/-- The same repliers in another order, and the entries of each reply too. -/
def SameReplies (calls calls' : List Call) : Prop :=
  ∃ mid, calls.Perm mid ∧ List.Forall₂ SameReply mid calls'

theorem SameReply.perm {call call' : Call} (h : SameReply call call') :
    (replied call).Perm (replied call') := by
  cases h with
  | failed p err err' => exact List.Perm.refl _
  | answered p h => exact h.map _

theorem SameReplies.perm {calls calls' : List Call}
    (h : SameReplies calls calls') :
    (calls.flatMap replied).Perm (calls'.flatMap replied) := by
  obtain ⟨mid, hperm, hall⟩ := h
  refine (hperm.flatMap_right replied).trans ?_
  clear hperm
  induction hall with
  | nil => exact List.Perm.refl _
  | cons hcall _ ih =>
      rw [List.flatMap_cons, List.flatMap_cons]
      exact hcall.perm.append ih

/-- Replies that say the same collect the same durations, in any order. -/
theorem durationsOf_perm (decode : String → Option PeerID)
    {registry registry' : Registry} {calls calls' : List Call}
    (hregistry : registry.Perm registry') (hcalls : SameReplies calls calls')
    (p : PeerID) :
    (durationsOf decode registry calls p).Perm
      (durationsOf decode registry' calls' p) :=
  valuesAt_perm ((hregistry.filterMap _).append hcalls.perm) p

/-- **AGGREGATION**: for every registry and all replies and errors, and in
    whatever order the map is ranged over, a peer is returned at most once, and
    if and only if more than half of its durations are accepted; its duration
    is the largest accepted one, if the window has no negative ones.  Another
    order of the repliers, of the entries of a reply or of the registry does
    not change the set that is returned. -/
theorem uptime_aggregated (config : Config) (decode : String → Option PeerID)
    (registry : Registry) (calls : List Call)
    {order : List (PeerID × List Int64)}
    (horder : RangeOf order (uptimes decode registry calls)) :
    ((report config order).map (·.peerId)).Nodup ∧
    (∀ p, p ∈ (report config order).map (·.peerId) ↔
      (durationsOf decode registry calls p).length <
        2 * (durationsOf decode registry calls p).countP config.inWindow) ∧
    (∀ u ∈ report config order, 0 ≤ config.low →
      (u.dur ∈ durationsOf decode registry calls u.peerId ∧
        config.inWindow u.dur = true) ∧
      ∀ d ∈ durationsOf decode registry calls u.peerId,
        config.inWindow d = true → d ≤ u.dur) ∧
    (∀ registry' calls' order', registry.Perm registry' →
      SameReplies calls calls' →
      RangeOf order' (uptimes decode registry' calls') →
      ∀ u, u ∈ report config order ↔ u ∈ report config order') := by
  refine ⟨horder.nodup.sublist (sublist_report order), mem_peers_iff horder,
    ?_, ?_⟩
  · intro u hu hlow
    obtain ⟨hacc, hdur⟩ := (mem_report_iff horder).mp hu
    rw [hdur]
    exact (kept_tally config _).greatest hlow hacc
  · intro registry' calls' order' hregistry hcalls horder' u
    have hperm := durationsOf_perm decode hregistry hcalls u.peerId
    rw [mem_report_iff horder, mem_report_iff horder', accepted_perm hperm,
      tally_perm hperm]

/-- A window of ten seconds around five minutes, and one known name. -/
def sampleConfig : Config := ⟨300000000000, 10000000000⟩

def sampleDecode (name : String) : Option PeerID :=
  if name = "9" then some ⟨[9]⟩ else none

/-- Two of three have seen peer 9 for about five minutes, one call failed. -/
def sampleCalls : List Call :=
  [(⟨[2]⟩, .ok [⟨⟨[9]⟩, 305000000000⟩]), (⟨[3]⟩, .ok [⟨⟨[9]⟩, 0⟩]),
    (⟨[4]⟩, .error "timeout")]

/-- Some order of the map. -/
def sampleOrder (registry : Registry) (calls : List Call) :
    List (PeerID × List Int64) :=
  groups (collected sampleDecode registry calls)

/-- The sample's order is one of the map. -/
theorem rangeOf_sampleOrder (registry : Registry) (calls : List Call) :
    RangeOf (sampleOrder registry calls)
      (uptimes sampleDecode registry calls) := by
  rw [uptimes_eq]
  exact rangeOf_groups _

/-- Two of three calls answer, in either order. -/
theorem uptime_aggregated_sample :
    (⟨[9]⟩ : PeerID) ∈ (report sampleConfig
      (sampleOrder [("9", 300)] sampleCalls)).map (·.peerId) ∧
    ((⟨⟨[9]⟩, 305000000000⟩ : UpTime) ∈ report sampleConfig
        (sampleOrder [("9", 300)] sampleCalls) ↔
      (⟨⟨[9]⟩, 305000000000⟩ : UpTime) ∈ report sampleConfig
        (sampleOrder [("9", 300)] sampleCalls.reverse)) := by
  obtain ⟨-, hpeers, -, hperm⟩ := uptime_aggregated sampleConfig sampleDecode
    [("9", 300)] sampleCalls (rangeOf_sampleOrder _ _)
  refine ⟨(hpeers _).mpr (by decide), ?_⟩
  refine hperm _ _ _ (List.Perm.refl _) ⟨_, List.reverse_perm _ |>.symm, ?_⟩
    (rangeOf_sampleOrder _ _) _
  exact .cons (.failed ..) (.cons (.answered _ (List.Perm.refl _))
    (.cons (.answered _ (List.Perm.refl _)) .nil))

/-! ## Reporters -/

/-- Every duration with the reporter that it comes from: the leader for its
    registry, the called peer for a reply. -/
def votes (decode : String → Option PeerID) (leader : PeerID)
    (registry : Registry) (calls : List Call) :
    List (PeerID × PeerID × Int64) :=
  (entries decode registry).map (Prod.mk leader) ++
    calls.flatMap (fun call => (replied call).map (Prod.mk call.1))

/-- The votes without their voters are what is collected. -/
theorem map_snd_votes (leader : PeerID) (registry : Registry)
    (calls : List Call) :
    (votes decode leader registry calls).map Prod.snd =
      collected decode registry calls := by
  rw [votes, List.map_append, List.map_map, List.map_flatMap, collected]
  simp only [List.map_map, Function.comp_def, List.map_id']

/-- The durations for peer `p` that reporter `r` has reported. -/
def reported (vs : List (PeerID × PeerID × Int64)) (r p : PeerID) :
    List Int64 :=
  ((vs.filter (·.2.1 = p)).filter (·.1 = r)).map (·.2.2)

/-- The durations for peer `p` from all other reporters. -/
def reportedByOthers (vs : List (PeerID × PeerID × Int64)) (r p : PeerID) :
    List Int64 :=
  ((vs.filter (·.2.1 = p)).filter (fun v => !decide (v.1 = r))).map (·.2.2)

/-- All durations are those of one reporter and those of the others. -/
theorem reported_append_perm (vs : List (PeerID × PeerID × Int64))
    (r p : PeerID) :
    (reported vs r p ++ reportedByOthers vs r p).Perm
      (valuesAt (vs.map Prod.snd) p) := by
  rw [reported, reportedByOthers, ← List.map_append, valuesAt, List.filter_map,
    List.map_map]
  exact (List.filter_append_perm _ _).map _

/-- **THE VOTE OF ONE REPORTER**: if all that others have reported for a peer
    is outside the window, the peer is returned if and only if the reporter has
    more durations inside than there are outside; so it can not decide the vote
    with one duration against any other reporter. -/
theorem single_reporter_votes (config : Config)
    (decode : String → Option PeerID) (leader : PeerID) (registry : Registry)
    (calls : List Call) {order : List (PeerID × List Int64)}
    (horder : RangeOf order (uptimes decode registry calls)) (r p : PeerID)
    (hothers : ∀ d ∈ reportedByOthers (votes decode leader registry calls) r p,
      config.inWindow d = false) :
    (p ∈ (report config order).map (·.peerId) ↔
      (reportedByOthers (votes decode leader registry calls) r p).length +
        (reported (votes decode leader registry calls) r p).countP
          (fun d => !config.inWindow d) <
        (reported (votes decode leader registry calls) r p).countP
          config.inWindow) ∧
    ((reported (votes decode leader registry calls) r p).length ≤ 1 →
      reportedByOthers (votes decode leader registry calls) r p ≠ [] →
      p ∉ (report config order).map (·.peerId)) := by
  have hperm := reported_append_perm (votes decode leader registry calls) r p
  rw [map_snd_votes] at hperm
  -- from here on only the two lists of durations matter
  generalize reportedByOthers (votes decode leader registry calls) r p = others
    at hothers hperm ⊢
  generalize reported (votes decode leader registry calls) r p = own
    at hperm ⊢
  have hnone : others.countP config.inWindow = 0 := by
    rw [List.countP_eq_zero]
    intro d hd
    rw [hothers d hd]
    exact Bool.false_ne_true
  have hown : own.length = own.countP config.inWindow +
      own.countP (fun d => !config.inWindow d) := by
    rw [List.length_eq_countP_add_countP config.inWindow]
    simp only [Bool.not_eq_true, Bool.decide_eq_false]
  have hreturned : p ∈ (report config order).map (·.peerId) ↔
      others.length + own.countP (fun d => !config.inWindow d) <
        own.countP config.inWindow := by
    rw [mem_peers_iff horder, durationsOf, ← accepted_perm hperm, Accepted,
      List.length_append, List.countP_append, hnone]
    omega
  refine ⟨hreturned, fun hone hsome hmem => ?_⟩
  have hlen := List.length_pos_iff.mpr hsome
  have hlt := hreturned.mp hmem
  omega

/-- Peer 3 answers with one duration, or with the same one three times. -/
def callsWith (times : ℕ) : List Call :=
  [(⟨[2]⟩, .ok [⟨⟨[9]⟩, 0⟩]),
    (⟨[3]⟩, .ok (List.replicate times ⟨⟨[9]⟩, 300000000000⟩))]

/-- One reporter against two that saw nothing. -/
theorem single_reporter_sample :
    (⟨[9]⟩ : PeerID) ∉ (report sampleConfig
      (sampleOrder [("9", 0)] (callsWith 1))).map (·.peerId) := by
  have hothers : reportedByOthers
      (votes sampleDecode ⟨[1]⟩ [("9", 0)] (callsWith 1)) ⟨[3]⟩ ⟨[9]⟩ =
        [0, 0] := by decide
  have hown : reported
      (votes sampleDecode ⟨[1]⟩ [("9", 0)] (callsWith 1)) ⟨[3]⟩ ⟨[9]⟩ =
        [300000000000] := by decide
  refine (single_reporter_votes sampleConfig sampleDecode ⟨[1]⟩ [("9", 0)]
    (callsWith 1) (rangeOf_sampleOrder _ _) ⟨[3]⟩ ⟨[9]⟩ ?_).2 ?_ ?_
  · intro d hd
    rw [hothers] at hd
    obtain rfl : d = 0 := by simpa using hd
    decide
  · rw [hown]
    decide
  · rw [hothers]
    decide

/-- **REPEATED VOTES WIN**: the leader and peer 2 have each reported one
    duration for peer 9, both outside the window; peer 3 repeats one that is
    inside, and peer 9 is returned. -/
theorem repeated_votes_win :
    reported (votes sampleDecode ⟨[1]⟩ [("9", 0)] (callsWith 3)) ⟨[1]⟩ ⟨[9]⟩ =
      [0] ∧
    reported (votes sampleDecode ⟨[1]⟩ [("9", 0)] (callsWith 3)) ⟨[2]⟩ ⟨[9]⟩ =
      [0] ∧
    sampleConfig.inWindow 0 = false ∧
    RangeOf (sampleOrder [("9", 0)] (callsWith 3))
      (uptimes sampleDecode [("9", 0)] (callsWith 3)) ∧
    report sampleConfig (sampleOrder [("9", 0)] (callsWith 3)) =
      [⟨⟨[9]⟩, 300000000000⟩] := by
  refine ⟨by decide, by decide, by decide, rangeOf_sampleOrder _ _, by decide⟩

end Collected

/-! ## Reporters that follow the protocol -/

/-- The loop leaves out the host. -/
theorem newLeader_eq (host : PeerID) (peerIds : List PeerID) :
    newLeader host peerIds = peerIds.filter (· ≠ host) := by
  induction peerIds using List.reverseRecOn with
  | nil => rfl
  | append_singleton peerIds pId ih =>
      rw [newLeader] at ih ⊢
      rw [List.foldl_concat, ih, List.filter_append]
      by_cases hhost : pId = host
      · simp [hhost]
      · simp [hhost]

/-- What a called peer has replied. -/
theorem filter_calls {calls : List Call} (hcalled : (calls.map Prod.fst).Nodup)
    {call : Call} (hmem : call ∈ calls) :
    (calls.flatMap (fun call => (replied call).map (Prod.mk call.1))).filter
      (·.1 = call.1) = (replied call).map (Prod.mk call.1) := by
  have hother : ∀ (calls : List Call) (r : PeerID), r ∉ calls.map Prod.fst →
      (calls.flatMap (fun call => (replied call).map (Prod.mk call.1))).filter
        (·.1 = r) = [] := by
    intro calls r hr
    rw [List.filter_eq_nil_iff]
    intro v hv
    obtain ⟨c, hc, hvc⟩ := List.mem_flatMap.mp hv
    obtain ⟨e, -, rfl⟩ := List.mem_map.mp hvc
    simp only [decide_eq_true_eq]
    rintro rfl
    exact hr (List.mem_map_of_mem hc)
  have hself : ∀ c : Call, ((replied c).map (Prod.mk c.1)).filter
      (·.1 = c.1) = (replied c).map (Prod.mk c.1) := by
    intro c
    simp [List.filter_map, Function.comp_def]
  induction calls with
  | nil => cases hmem
  | cons c calls ih =>
      rw [List.map_cons, List.nodup_cons] at hcalled
      rw [List.flatMap_cons, List.filter_append]
      rcases List.mem_cons.mp hmem with rfl | hmem
      · rw [hself, hother calls _ hcalled.1, List.append_nil]
      · have hne : c.1 ≠ call.1 := by
          intro heq
          exact hcalled.1 (heq ▸ List.mem_map_of_mem hmem)
        rw [ih hcalled.2 hmem]
        simp [List.filter_map, Function.comp_def, hne]

/-- **ONE VOTE EACH**: a leader calls every other peer at most once; one that
    answers by its handler, from a registry with one name for each peer, has
    reported at most one duration for a peer. -/
theorem handler_votes_once {leader : PeerID} {peerIds : List PeerID}
    (hpeers : peerIds.Nodup) {calls : List Call}
    (hcalls : calls.map Prod.fst = newLeader leader peerIds)
    {r : PeerID} {own : Registry}
    (hmem : (r, uptimeHandler decode leader own leader) ∈ calls)
    (hnames : (own.map Prod.fst).Nodup)
    (hdecode : ∀ s ∈ own, ∀ s' ∈ own, ∀ q, decode s.1 = some q →
      decode s'.1 = some q → s.1 = s'.1) (registry : Registry) (p : PeerID) :
    (reported (votes decode leader registry calls) r p).length ≤ 1 := by
  rw [newLeader_eq] at hcalls
  have hcalled : (calls.map Prod.fst).Nodup := hcalls ▸ hpeers.filter _
  have hr : leader ≠ r := by
    have hin : r ∈ calls.map Prod.fst := List.mem_map_of_mem hmem
    rw [hcalls] at hin
    exact Ne.symm (of_decide_eq_true (List.mem_filter.mp hin).2)
  -- of all votes, those of `r` are the entries of its own registry
  have hown : (votes decode leader registry calls).filter (·.1 = r) =
      (entries decode own).map (Prod.mk r) := by
    rw [votes, List.filter_append, filter_calls hcalled hmem, replied_handler]
    simp [List.filter_map, Function.comp_def, hr]
  have hentries : ((entries decode own).map Prod.fst).Nodup := by
    rw [entries, List.map_filterMap]
    refine List.pairwise_filterMap.mpr ?_
    refine (List.pairwise_map.mp hnames).imp_of_mem ?_
    intro s s' hs hs' hne q hq q' hq' heq
    simp only [Option.map_map, Option.map_eq_some_iff, Function.comp_apply]
      at hq hq'
    obtain ⟨a, ha, rfl⟩ := hq
    obtain ⟨a', ha', rfl⟩ := hq'
    exact hne (hdecode s hs s' hs' a ha (heq ▸ ha'))
  have hreported : reported (votes decode leader registry calls) r p =
      valuesAt (entries decode own) p := by
    rw [reported, List.filter_comm, hown, List.filter_map, List.map_map]
    rfl
  rw [hreported]
  exact length_valuesAt_le_one hentries p

end RelayerUptime
