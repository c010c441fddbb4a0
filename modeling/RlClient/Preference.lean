import RlClient.Timing

/-!
# The preference window

Until the end of round zero a request waits for the oldest server of its
snapshot; behind it any response will do. A request in flight never holds the
response of that oldest server, and it holds a candidate at all only in round
zero.
-/

namespace RlClient

/-- `id` is the oldest of the given server ids. -/
def OldestOf (ids : List UInt64) (id : UInt64) : Prop := id ∈ ids ∧ ∀ a ∈ ids, ¬ Older a id

/-- The call ended request `h` with a result. -/
def CompletesOk (h : Handle) (m' : Machine) (effects : List Effect) : Prop :=
  (∃ result, Effect.callback (some h) .ok (some result) ∈ effects) ∧
    ∀ req ∈ m'.client.inflight, req.handle ≠ h

/-! ### The candidate is never the oldest server -/

/-- A candidate that is not decisive stays so, unless the new response is. -/
theorem oldest_of_update {ids : List UInt64} {best : Option RRateLimitResult}
    {result chosen : RRateLimitResult}
    (hopen : ∀ current, best = some current → rIsOldestKnownServer ids current.serverId = false)
    (hchosen : rCandidateTryUpdateBest best result = some chosen) :
    rIsOldestKnownServer ids chosen.serverId = rIsOldestKnownServer ids result.serverId := by
  unfold rCandidateTryUpdateBest at hchosen
  split at hchosen
  · rw [Option.some.inj hchosen]
  · rename_i current
    split at hchosen
    · rw [Option.some.inj hchosen]
    · rename_i hyounger
      obtain rfl := Option.some.inj hchosen
      rw [hopen current rfl, eq_comm, ← Bool.not_eq_true, rIsOldestKnownServer_iff]
      -- nothing is older than the result, so nothing is older than the candidate before it
      intro holdest
      apply Bool.false_ne_true
      rw [← hopen current rfl, rIsOldestKnownServer_iff]
      intro a ha
      rw [older_iff_lt]
      rw [rServerIsOlder_iff, older_iff_lt] at hyounger
      have hle := holdest a ha
      rw [older_iff_lt] at hle
      exact UInt64.not_lt.mpr (UInt64.le_trans (UInt64.not_lt.mp hyounger) (UInt64.not_lt.mp hle))

def Undecided (req : RClientReq) : Prop :=
  ∀ best, req.best = some best → rIsOldestKnownServer req.allowedIds best.serverId = false

theorem ReqStep.undecided {c : RClient} {h : Handle} {req req' : RClientReq} {call : Call}
    {effects : List Effect} (hstep : ReqStep c h req call effects (.live req'))
    (hopen : Undecided req) : Undecided req' := by
  cases hstep with
  | retained buf sender io response hallowed hgate hselect =>
    intro best hbest
    rw [holdCandidate_eq] at hbest ⊢
    exact (selectBest_eq_none hbest hselect).2
  | early => exact hopen
  | held => exact hopen
  | rearmed => exact hopen
  | replayed => exact hopen
  | finalEntered nowMs io entered _ _ _ _ _ hentered =>
    obtain ⟨-, rfl⟩ := rEnterFinal_ok hentered
    exact hopen

theorem run_undecided {gcm : Gcm} {args : CreateArgs} {c : RClient}
    (hcreate : rClientCreate args = .ok c) {calls : List Call} {m : Machine}
    {trace : List Effect} (hrun : run gcm c calls = some (m, trace)) {h : Handle}
    {req : RClientReq} (hview : m.view h = .live req) : Undecided req := by
  refine live_induction (h := h) hcreate (P := fun _ req _ => Undecided req)
    (fun _ _ _ _ hopen => hopen) ?_ ?_ hrun hview
  · intro calls args io req gapUnits built _ best hbest
    rw [built.eq] at hbest
    exact absurd hbest (by simp [enterRound, newRequest])
  · intro calls call req req' trace effects hopen hstep
    exact hstep.undecided hopen

/-! ### The window -/

/-- The preference deadline of a timed request has passed exactly when round zero
    has. -/
theorem Timed.window_iff {policy : RRequestPolicy} {readings : List UInt64} {due : Nat}
    {req : RClientReq} (h : Timed policy readings due req) {nowMs : UInt64}
    (hlate : ∀ r ∈ readings, r ≤ nowMs) :
    req.haPreferenceDeadlineMs ≤ nowMs ↔ policy.firstDeadline req.startMs ≤ nowMs.toNat := by
  cases h.stage with
  | first _ _ _ hdeadline hpref => rw [hpref, UInt64.le_iff_toNat_le, hdeadline]
  | replay k _ hround =>
    obtain ⟨hpref, hfirst⟩ := h.preference_passed hlate (.inr (by omega))
    exact iff_of_true hpref hfirst
  | final hphase =>
    obtain ⟨hpref, hfirst⟩ := h.preference_passed hlate (.inl hphase)
    exact iff_of_true hpref hfirst

/-- A candidate is held only in round zero, and no longer than that round. -/
theorem Timed.candidate_first {policy : RRequestPolicy} {readings : List UInt64} {due : Nat}
    {req : RClientReq} (h : Timed policy readings due req) {best : RRateLimitResult}
    (hbest : req.best = some best) :
    req.phase = .round ∧ req.haRound = 0 ∧
      (rClientRequestDeadlineMs req).toNat = policy.firstDeadline req.startMs := by
  cases h.stage with
  | first hphase hround _ hdeadline =>
    refine ⟨hphase, UInt32.toNat_inj.mp hround, ?_⟩
    rw [rClientRequestDeadlineMs, h.attempt]
    exact hdeadline
  | replay _ _ _ _ _ _ hnone => exact absurd (hbest.symm.trans hnone) (by simp)
  | final _ _ _ _ hnone => exact absurd (hbest.symm.trans hnone) (by simp)

/-- Which response completes a request: the oldest server's until the end of
    round zero, any behind it. -/
theorem Timed.select_iff {policy : RRequestPolicy} {readings : List UInt64} {due : Nat}
    {req : RClientReq} (h : Timed policy readings due req) (hopen : Undecided req)
    {nowMs : UInt64} (hlate : ∀ r ∈ readings, r ≤ nowMs) (response : RResponse) (sender : RAddr)
    (alloc : SeenAlloc) :
    selectBest (recordResponse req response sender alloc) nowMs ≠ none ↔
      policy.firstDeadline req.startMs ≤ nowMs.toNat ∨
        rIsOldestKnownServer req.allowedIds response.serverId = true := by
  obtain ⟨best, hbest⟩ := recordResponse_best_isSome req response sender alloc
  obtain ⟨addrs, addrCap, heq⟩ := recordResponse_eq req response sender alloc
  rw [selectBest_ne_none_iff hbest, ← h.window_iff hlate]
  rw [heq] at hbest ⊢
  rw [oldest_of_update hopen hbest]
  rfl

theorem Launch.oldest_iff {gcm : Gcm} {c : RClient} {h : Handle} {calls : List Call}
    {started req : RClientReq} (launch : Launch gcm c h calls started)
    (hsame : SameRequest started req) {id : UInt64} (hallowed : rAllowedServerId req id = true) :
    rIsOldestKnownServer req.allowedIds id = true ↔ OldestOf (req.targets.map (·.serverId)) id := by
  obtain ⟨-, htargets, hids, -⟩ := launch.fields
  have hmem : id ∈ req.targets.map (·.serverId) := by
    rw [hsame.targets]
    exact (launch.allowed_iff hsame id).mp hallowed
  rw [rIsOldestKnownServer_iff, hsame.allowedIds, hids, OldestOf, hsame.targets, htargets] at *
  simp only [mem_snapshotIds]
  exact ⟨fun holdest => ⟨hmem, holdest⟩, fun holdest => holdest.2⟩

/-! ### Whole runs -/

theorem completesOk_of_calling {c : RClient} {m' : Machine} {h : Handle} {req : RClientReq}
    {effects : List Effect} {result : RRateLimitResult} (hwf : m'.Wf c)
    (hview : m'.view h = .calling req)
    (hmem : Effect.callback (some h) .ok (some result) ∈ about h effects) :
    CompletesOk h m' effects :=
  ⟨⟨result, (mem_about.mp hmem).1⟩, not_mem_of_calling hwf hview⟩

section

variable {gcm : Gcm} {args : CreateArgs} {c : RClient} (hcreate : rClientCreate args = .ok c)
  {calls : List Call} {m : Machine} {trace : List Effect}
  (hrun : run gcm c calls = some (m, trace))

include hcreate hrun

/-- An accepted response completes the request, behind round zero or from the
    oldest server, or it is recorded and nothing else happens. -/
theorem accepted_outcome {buf : Bytes} {sender : RAddr} {io : DatagramIo}
    (hclock : Clocked (calls ++ [.datagram buf sender io])) {h : Handle} {req : RClientReq}
    (hlive : m.view h = .live req) {m' : Machine} {effects : List Effect} {response : RResponse}
    (hstep : step gcm m (.datagram buf sender io) = some (m', effects))
    (haccepted : Effect.accepted h response ∈ effects) :
    ((c.policy.firstDeadline req.startMs ≤ io.nowMs.toNat ∨
        OldestOf (req.targets.map (·.serverId)) response.serverId) ∧ CompletesOk h m' effects) ∨
      (¬ (c.policy.firstDeadline req.startMs ≤ io.nowMs.toNat ∨
        OldestOf (req.targets.map (·.serverId)) response.serverId) ∧
        about h effects = [.accepted h response] ∧
        recordResponse req response sender io.allocSeen ∈ m'.client.inflight) := by
  obtain ⟨hwf', hlife⟩ := step_wf_life (run_wf hcreate hrun) hstep
  have htimed := run_timed hcreate hrun hclock.left hlive
  have hlate : ∀ r ∈ calls.flatMap Call.readings, r ≤ io.nowMs := by
    intro r hr
    exact hclock.last_le hr (by simp [Call.readings])
  obtain ⟨started, ⟨launch⟩, hsame, -⟩ := run_live hcreate hrun hlive
  have hreq := hlife h
  rw [hlive] at hreq
  obtain ⟨_, hview, hreq⟩ :=
    hreq.treats (mem_about.mpr ⟨haccepted, rfl⟩) (by simp [Effect.isTrigger])
  obtain rfl := View.live.inj hview
  have hmem : response ∈ acceptedBy h (about h effects) := by
    rw [acceptedBy_about]
    exact List.mem_filterMap.mpr ⟨_, haccepted, by simp [Effect.accepted?]⟩
  obtain ⟨_, _, _, hcall, hallowed, -, houtcome⟩ := hreq.accepts hmem
  obtain ⟨rfl, rfl, rfl⟩ := Call.datagram.inj hcall
  have hselect := htimed.select_iff (run_undecided hcreate hrun hlive) hlate response sender
    io.allocSeen
  rw [launch.oldest_iff hsame hallowed] at hselect
  rw [← hselect]
  rcases houtcome with ⟨hopen, heffects, hview⟩ | ⟨best, hbest, heffects, hview⟩
  · right
    refine ⟨not_not.mpr hopen, heffects, ?_⟩
    -- in round zero both deadlines agree, so holding the candidate moves neither
    obtain ⟨-, -, hpref, -⟩ := htimed.retained_first hlate hopen
    have hhold : holdCandidate (recordResponse req response sender io.allocSeen) =
        recordResponse req response sender io.allocSeen := by
      obtain ⟨addrs, addrCap, heq⟩ := recordResponse_eq req response sender io.allocSeen
      unfold holdCandidate
      rw [heq]
      simp [hpref, htimed.attempt, UInt64.lt_irrefl]
    rw [hhold] at hview
    exact List.mem_of_find?_eq_some (view_live_iff.mp hview)
  · left
    have hfired : Effect.callback (some h) .ok (some best) ∈ about h effects := by
      rw [heffects]
      exact List.mem_append_right _ List.mem_cons_self
    refine ⟨?_, completesOk_of_calling hwf' hview hfired⟩
    rw [hbest]
    exact Option.some_ne_none best

/-- A timer at or behind the end of round zero delivers a candidate. -/
theorem candidate_delivered (hclock : Clocked calls) {h : Handle} {req : RClientReq}
    (hlive : m.view h = .live req) {best : RRateLimitResult} (hbest : req.best = some best)
    {nowMs : UInt64} (hfirst : c.policy.firstDeadline req.startMs ≤ nowMs.toNat) {io : TimeoutIo}
    {m' : Machine} {effects : List Effect}
    (hstep : step gcm m (.timeout h nowMs io) = some (m', effects)) :
    CompletesOk h m' effects := by
  have hwf := run_wf hcreate hrun
  have htimed := run_timed hcreate hrun hclock hlive
  obtain ⟨-, -, hdeadline⟩ := htimed.candidate_first hbest
  have hdue : rClientRequestDeadlineMs req ≤ nowMs := by
    rw [UInt64.le_iff_toNat_le, hdeadline]
    exact hfirst
  have hreq := timeout_live hwf hlive hstep
  have hwf' := (step_wf_life hwf hstep).1
  generalize heffects : about h effects = own, hview : m'.view h = view at hreq
  cases hreq with
  | early _ _ hearly => exact absurd hdue (UInt64.not_le.mpr hearly)
  | held _ _ _ _ _ hbefore =>
    exact absurd (htimed.not_held hbest hdue) (UInt64.not_le.mpr hbefore)
  | elected _ _ best' =>
    have hfired : Effect.callback (some h) .ok (some best') ∈ about h effects := by
      rw [heffects]
      exact List.mem_append_right _ List.mem_cons_self
    exact completesOk_of_calling hwf' hview hfired
  | rearmed _ _ _ hnone => exact absurd (hbest.symm.trans hnone) (by simp)
  | replayed _ _ _ _ hnone => exact absurd (hbest.symm.trans hnone) (by simp)
  | replayFailed _ _ _ _ _ _ hnone => exact absurd (hbest.symm.trans hnone) (by simp)
  | replayRefused _ _ _ _ hnone => exact absurd (hbest.symm.trans hnone) (by simp)
  | finalEntered _ _ _ _ hnone => exact absurd (hbest.symm.trans hnone) (by simp)
  | ended _ _ _ hnone => exact absurd (hbest.symm.trans hnone) (by simp)
  | expired _ _ _ hnone => exact absurd (hbest.symm.trans hnone) (by simp)

end

/-- **Preference-window timing.** For a request in flight in a run with a clock that
    never runs backwards: a candidate is held only in round zero, with the end of
    round zero as its deadline; a response accepted before that end completes the
    request exactly if it is the oldest server's and is recorded otherwise; at or
    behind that end, and in every later round and the final phase, an accepted
    response completes the request, as does a timer once there is a candidate. -/
theorem preference_window {gcm : Gcm} {args : CreateArgs} {c : RClient}
    (hcreate : rClientCreate args = .ok c) {calls : List Call} {m : Machine}
    {trace : List Effect} (hrun : run gcm c calls = some (m, trace)) (hclock : Clocked calls)
    {req : RClientReq} (hmem : req ∈ m.client.inflight) :
    (req.best ≠ none → req.phase = .round ∧ req.haRound = 0 ∧
      (rClientRequestDeadlineMs req).toNat = c.policy.firstDeadline req.startMs) ∧
    (∀ buf sender io m' effects response, Clocked (calls ++ [.datagram buf sender io]) →
      step gcm m (.datagram buf sender io) = some (m', effects) →
      Effect.accepted req.handle response ∈ effects →
      (io.nowMs.toNat < c.policy.firstDeadline req.startMs →
        (CompletesOk req.handle m' effects ↔
          OldestOf (req.targets.map (·.serverId)) response.serverId) ∧
        (¬ OldestOf (req.targets.map (·.serverId)) response.serverId →
          about req.handle effects = [.accepted req.handle response] ∧
          recordResponse req response sender io.allocSeen ∈ m'.client.inflight)) ∧
      (c.policy.firstDeadline req.startMs ≤ io.nowMs.toNat →
        CompletesOk req.handle m' effects) ∧
      (req.phase = .final ∨ req.haRound ≠ 0 → CompletesOk req.handle m' effects)) ∧
    (∀ nowMs io m' effects, step gcm m (.timeout req.handle nowMs io) = some (m', effects) →
      acceptedBy req.handle trace ≠ [] → c.policy.firstDeadline req.startMs ≤ nowMs.toNat →
      CompletesOk req.handle m' effects) := by
  have hlive := view_of_mem (run_wf hcreate hrun) hmem
  have htimed := run_timed hcreate hrun hclock hlive
  refine ⟨?_, ?_, ?_⟩
  · intro hsome
    obtain ⟨best, hbest⟩ := Option.ne_none_iff_exists'.mp hsome
    exact htimed.candidate_first hbest
  · intro buf sender io m' effects response hclock' hstep haccepted
    have hbehind : c.policy.firstDeadline req.startMs ≤ io.nowMs.toNat →
        CompletesOk req.handle m' effects := by
      intro hfirst
      rcases accepted_outcome hcreate hrun hclock' hlive hstep haccepted with
        ⟨-, hdone⟩ | ⟨hnot, -⟩
      · exact hdone
      · exact absurd (.inl hfirst) hnot
    refine ⟨?_, hbehind, ?_⟩
    · intro hbefore
      rcases accepted_outcome hcreate hrun hclock' hlive hstep haccepted with
        ⟨hwhy, hdone⟩ | ⟨hnot, heffects, hkept⟩
      · have holdest := hwhy.resolve_left (Nat.not_le.mpr hbefore)
        exact ⟨iff_of_true hdone holdest, fun hnot => absurd holdest hnot⟩
      · have hyounger := (not_or.mp hnot).2
        have hopen : ¬ CompletesOk req.handle m' effects := by
          intro hdone
          exact hdone.2 _ hkept (recordResponse_same req response sender io.allocSeen).handle
        exact ⟨iff_of_false hopen hyounger, fun _ => ⟨heffects, hkept⟩⟩
    · intro hlater
      apply hbehind
      have hlate : ∀ r ∈ calls.flatMap Call.readings, r ≤ io.nowMs := by
        intro r hr
        exact hclock'.last_le hr (by simp [Call.readings])
      refine (htimed.preference_passed hlate (hlater.imp_right ?_)).2
      intro hround hzero
      exact hround (UInt32.toNat_inj.mp hzero)
  · intro nowMs io m' effects hstep haccepted hfirst
    have hview : (m.view req.handle).request? = some req := by
      rw [hlive]
      rfl
    have hknows := run_knows hcreate hrun hview
    have hsome : req.best ≠ none := by
      intro hnone
      exact haccepted (List.map_eq_nil_iff.mp (hknows.candidate.1.mp hnone))
    obtain ⟨best, hbest⟩ := Option.ne_none_iff_exists'.mp hsome
    exact candidate_delivered hcreate hrun hclock hlive hbest hfirst hstep

/-- Server 5 answers at 105, before the older server 3: its response is kept, and the
    timer at the end of round zero, 120, delivers it. -/
theorem preference_window_timer :
    ∃ m trace, run noGcm sampleClient [sampleSubmit 1 100, sampleDatagram 1 5 1 105] =
        some (m, trace) ∧
      ∃ req ∈ m.client.inflight, req.best ≠ none ∧ req.phase = .round ∧ req.haRound = 0 ∧
        ∃ m' effects, step noGcm m (sampleTimeout req.handle 120) = some (m', effects) ∧
          CompletesOk req.handle m' effects := by
  have hclock : Clocked [sampleSubmit 1 100, sampleDatagram 1 5 1 105] := by
    refine ⟨by decide, ?_⟩
    intro h nowMs io hmem
    exact absurd hmem (by simp [sampleSubmit, sampleDatagram])
  obtain ⟨⟨m, trace⟩, hrun, hread⟩ := Option.map_eq_some_iff.mp
    (show (run noGcm sampleClient [sampleSubmit 1 100, sampleDatagram 1 5 1 105]).map (fun s =>
        (s.1.client.inflight.map (fun req => (req.startMs, req.best.isSome)),
          (acceptedBy 0 s.2).length, s.1.client.inflight.map (·.handle),
          (step noGcm s.1 (sampleTimeout 0 120)).isSome)) =
        some ([(100, true)], 1, [0], true) by
      decide +kernel)
  simp only [Prod.mk.injEq] at hread
  obtain ⟨hfields, haccepted, hhandles, hstep⟩ := hread
  obtain ⟨req, hreq, hfield⟩ := List.map_eq_singleton_iff.mp hfields
  rw [hreq] at hhandles
  obtain ⟨hstart, hsome⟩ := Prod.mk.inj hfield
  have hhandle : req.handle = 0 := List.singleton_inj.mp hhandles
  have hmem : req ∈ m.client.inflight := by
    rw [hreq]
    exact List.mem_cons_self
  have hbest : req.best ≠ none := Option.isSome_iff_ne_none.mp hsome
  obtain ⟨hround, -, htimer⟩ := preference_window sampleClient_created hrun hclock hmem
  obtain ⟨⟨m', effects⟩, hstep⟩ := Option.isSome_iff_exists.mp hstep
  rw [← hhandle] at hstep haccepted
  refine ⟨m, trace, hrun, req, hmem, hbest, (hround hbest).1, (hround hbest).2.1, m', effects,
    hstep, htimer 120 _ m' effects hstep ?_ ?_⟩
  · intro hnil
    rw [hnil] at haccepted
    exact absurd haccepted (by decide)
  · rw [hstart]
    decide

end RlClient
