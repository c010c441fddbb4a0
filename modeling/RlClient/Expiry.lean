import RlClient.Timing

/-!
# Progress and expiry

A due timer completes its request or moves it one stage on, so a request is over
after as many due timers as its policy has stages. It fails with a timeout only
once its deduplication deadline has passed, and that deadline is its start plus
the TTL in its packet.
-/

namespace RlClient

/-- The deadlines of a request in flight, in plain arithmetic. -/
structure OnSchedule (policy : RRequestPolicy) (req : RClientReq) : Prop where
  round : req.phase = .round → req.haRound.toNat ≤ policy.replayCount.toNat ∧
    (rClientRequestDeadlineMs req).toNat = req.startMs.toNat +
      policy.unitMs.toNat * policy.replayGap.unitsThrough req.haRound.toNat
  final : req.phase = .final →
    (rClientRequestDeadlineMs req).toNat = req.startMs.toNat + policy.horizonMs ∧
      rClientRequestDeadlineMs req = req.dedupDeadlineMs
  within : rClientRequestDeadlineMs req ≤ req.dedupDeadlineMs

/-- The request went on to the next round, or from a round to the final phase. -/
def Advanced (req req' : RClientReq) : Prop :=
  req.phase = .round ∧
    ((req'.phase = .round ∧ req'.haRound.toNat = req.haRound.toNat + 1) ∨ req'.phase = .final)

/-- The stages of a request: `N + 1` rounds, and the final phase if there is one. -/
def RRequestPolicy.stages (policy : RRequestPolicy) : Nat :=
  policy.replayCount.toNat + if policy.finalReceiveUnits = 0 then 1 else 2

/-- The packet carries a rate request with this deduplication TTL. -/
def CarriesTtl (gcm : Gcm) (cred : RCredential) (packet : Bytes) (ttlMs : UInt32) : Prop :=
  ∃ tenant pdu io, framePdu gcm cred tenant pdu R_MAX_PACKET_SIZE io = .ok packet ∧
    rLe16 pdu 0 = R_PDU_RATE_REQUEST ∧ rLe32 pdu 4 = ttlMs

/-! ### One request -/

theorem Timed.onSchedule {policy : RRequestPolicy} {readings : List UInt64} {due : Nat}
    {req : RClientReq} (h : Timed policy readings due req) : OnSchedule policy req := by
  have hround := h.in_round
  have hfinal : req.phase = .final →
      req.attemptDeadlineMs.toNat = req.startMs.toNat + policy.horizonMs := by
    intro hphase
    rw [h.attempt]
    cases h.stage with
    | first hround => exact absurd (hround.symm.trans hphase) (by decide)
    | replay _ hround => exact absurd (hround.symm.trans hphase) (by decide)
    | final _ _ _ hdeadline => exact hdeadline
  refine ⟨?_, ?_, ?_⟩
  · intro hphase
    obtain ⟨hdeadline, hcount, -⟩ := hround hphase
    refine ⟨hcount, ?_⟩
    rw [rClientRequestDeadlineMs, h.attempt]
    exact hdeadline
  · intro hphase
    refine ⟨hfinal hphase, ?_⟩
    apply UInt64.toNat_inj.mp
    rw [rClientRequestDeadlineMs, hfinal hphase, h.dedup]
  · rw [rClientRequestDeadlineMs, UInt64.le_iff_toNat_le, h.dedup]
    cases hphase : req.phase with
    | round =>
      obtain ⟨hdeadline, hcount, -⟩ := hround hphase
      rw [h.attempt, hdeadline]
      exact Nat.add_le_add_left (unitsThrough_le_horizon policy hcount) _
    | final => exact Nat.le_of_eq (hfinal hphase)

theorem Timed.due_lt_stages {policy : RRequestPolicy} {readings : List UInt64} {due : Nat}
    {req : RClientReq} (h : Timed policy readings due req) : due < policy.stages := by
  unfold RRequestPolicy.stages
  cases h.stage with
  | first _ _ hdue =>
    split
    · omega
    · omega
  | replay k _ _ hcount hdue =>
    split
    · omega
    · omega
  | final _ hunits hdue =>
    rw [if_neg hunits]
    omega

/-- A due timer completes the request or moves it on. -/
theorem ReqStep.progress {c : RClient} {h : Handle} {req : RClientReq} {nowMs : UInt64}
    {io : TimeoutIo} {effects : List Effect} {view : View} {readings : List UInt64} {due : Nat}
    (hstep : ReqStep c h req (.timeout h nowMs io) effects view)
    (htimed : Timed c.policy readings due req) (hdue : req.attemptDeadlineMs ≤ nowMs) :
    (∃ req', view = .live req' ∧ Advanced req req') ∨ ∃ req', view = .calling req' := by
  cases hstep with
  | early _ _ hearly => exact absurd hdue (UInt64.not_le.mpr hearly)
  | held _ _ best hdue hbest hbefore =>
    exact absurd (htimed.not_held hbest hdue) (UInt64.not_le.mpr hbefore)
  | rearmed _ _ hdue hnone hbefore => exact absurd hbefore (htimed.round_over hdue)
  | replayed _ _ gapUnits hdue hnone hover hphase hleft =>
    exact .inl ⟨_, rfl, hphase, .inl ⟨rfl, toNat_succ_of_lt hleft⟩⟩
  | finalEntered _ _ entered hdue hnone hover hphase hlast hentered =>
    obtain ⟨-, rfl⟩ := rEnterFinal_ok hentered
    exact .inl ⟨_, rfl, hphase, .inr rfl⟩
  | elected => exact .inr ⟨_, rfl⟩
  | replayFailed => exact .inr ⟨_, rfl⟩
  | replayRefused => exact .inr ⟨_, rfl⟩
  | ended => exact .inr ⟨_, rfl⟩
  | expired => exact .inr ⟨_, rfl⟩

theorem last_status {h : Handle} {front front' : List Effect} {status status' : RClientError}
    {result result' : Option RRateLimitResult}
    (heq : front ++ [.callback (some h) status result] =
      front' ++ [.callback (some h) status' result']) : status = status' := by
  have hlast := (List.append_inj' heq rfl).2
  exact (Effect.callback.inj (List.singleton_inj.mp hlast)).2.1

/-- A timeout is delivered by a timer, at or after the deduplication deadline. -/
theorem ReqStep.times_out {c : RClient} {h : Handle} {req req' : RClientReq} {call : Call}
    {front : List Effect} {result : Option RRateLimitResult} {readings : List UInt64} {due : Nat}
    (hstep : ReqStep c h req call (front ++ [.callback (some h) .errTimeout result])
      (.calling req'))
    (htimed : Timed c.policy readings due req)
    (htimers : ∀ nowMs io, call = .timeout h nowMs io → io.roundMs = nowMs) :
    ∃ nowMs io, call = .timeout h nowMs io ∧ req.dedupDeadlineMs ≤ nowMs := by
  generalize heffects : front ++ [.callback (some h) .errTimeout result] = effects at hstep
  generalize hview : View.calling req' = view at hstep
  cases hstep with
  | retained => exact absurd hview (by simp)
  | early => exact absurd hview (by simp)
  | held => exact absurd hview (by simp)
  | rearmed => exact absurd hview (by simp)
  | replayed => exact absurd hview (by simp)
  | finalEntered => exact absurd hview (by simp)
  | selected => exact absurd (last_status heffects) (by decide)
  | elected => exact absurd (last_status heffects) (by decide)
  | replayFailed _ _ _ status sends _ _ _ _ _ _ _ hstatus =>
    obtain rfl := last_status heffects
    rcases hstatus with hstatus | hstatus
    · exact absurd hstatus (by decide)
    · exact absurd hstatus (by decide)
  | replayRefused nowMs io status hdue hnone hover hphase hleft hwhy =>
    obtain rfl := last_status heffects
    rcases hwhy with ⟨-, hlate⟩ | ⟨hstatus, -⟩
    · rw [htimers nowMs io rfl] at hlate
      exact ⟨nowMs, io, rfl, hlate⟩
    · exact absurd hstatus (by decide)
  | ended nowMs io hdue hnone hover hphase hlast hzero =>
    refine ⟨nowMs, io, rfl, UInt64.le_trans ?_ hover⟩
    obtain ⟨hdeadline, hcount, -⟩ := htimed.in_round hphase
    have hround : req.haRound.toNat = c.policy.replayCount.toNat := by
      have hge := mt UInt32.lt_iff_toNat_lt.mpr hlast
      omega
    -- without a final phase the last round ends at the horizon
    rw [UInt64.le_iff_toNat_le, htimed.dedup, hdeadline, hround, RRequestPolicy.horizonMs, hzero]
    exact Nat.le_refl _
  | expired nowMs io hdue hnone hover hphase =>
    refine ⟨nowMs, io, rfl, UInt64.le_trans ?_ hdue⟩
    rw [← (htimed.onSchedule.final hphase).2]
    exact UInt64.le_refl _

/-! ### The TTL on the wire -/

theorem buildPdu_words {pduType : UInt16} {word : UInt32} {body pdu : Bytes} {cap : Nat}
    (h : buildPdu pduType word body cap = .ok pdu) :
    rLe16 pdu 0 = pduType ∧ rLe32 pdu 4 = word := by
  simp only [buildPdu] at h
  split at h
  · exact absurd h (by simp)
  · rw [← Except.ok.inj h]
    constructor
    · rw [List.append_assoc, List.append_assoc, rLe16_write]
    · rw [List.append_assoc, rLe32_append (by simp)]
      simp only [List.length_append, length_rWriteLe16, Nat.sub_self]
      exact rLe32_write word body

theorem Launch.carriesTtl {gcm : Gcm} {c : RClient} {h : Handle} {calls : List Call}
    {started : RClientReq} (launch : Launch gcm c h calls started) :
    CarriesTtl gcm c.credential started.packet started.dedupTtlMs := by
  obtain ⟨-, -, -, -, httl, -, hpacket, -⟩ := launch.fields
  have hframed := launch.built.framed
  rw [← hpacket, ← httl] at hframed
  unfold rBuildRateRequestPacket at hframed
  split at hframed
  · exact absurd hframed (by simp)
  · rename_i pdu hpdu
    unfold rateRequestPdu at hpdu
    split at hpdu
    · exact absurd hpdu (by simp)
    · obtain ⟨htype, hword⟩ := buildPdu_words hpdu
      exact ⟨_, pdu, _, hframed, htype, hword⟩

/-! ### Whole runs -/

section

variable {gcm : Gcm} {args : CreateArgs} {c : RClient} (hcreate : rClientCreate args = .ok c)
  {calls : List Call} {m : Machine} {trace : List Effect}

include hcreate

theorem due_timer_outcome (hrun : run gcm c calls = some (m, trace)) (hclock : Clocked calls)
    {h : Handle} {req : RClientReq} (hlive : m.view h = .live req) {nowMs : UInt64}
    {io : TimeoutIo} {m' : Machine} {effects : List Effect}
    (hstep : step gcm m (.timeout h nowMs io) = some (m', effects))
    (hdue : rClientRequestDeadlineMs req ≤ nowMs) :
    (∃ req' ∈ m'.client.inflight, req'.handle = h ∧ Advanced req req') ∨
      ((∀ req' ∈ m'.client.inflight, req'.handle ≠ h) ∧
        ∃ status result, Effect.callback (some h) status result ∈ effects) := by
  have hwf := run_wf hcreate hrun
  have hreq := timeout_live hwf hlive hstep
  rcases hreq.progress (run_timed hcreate hrun hclock hlive) hdue with
    ⟨req', hview, hadvanced⟩ | ⟨req', hview⟩
  · left
    exact ⟨req', List.mem_of_find?_eq_some (view_live_iff.mp hview), view_live_handle hview,
      hadvanced⟩
  · right
    rw [hview] at hreq
    refine ⟨not_mem_of_calling (step_wf_life hwf hstep).1 hview, ?_⟩
    obtain ⟨front, status, result, heffects, -, -⟩ := hreq.completion
    have hmem : Effect.callback (some h) status result ∈ about h effects := by
      rw [heffects]
      exact List.mem_append_right front List.mem_cons_self
    exact ⟨status, result, (mem_about.mp hmem).1⟩

theorem timeout_delivered_late {h : Handle} {pre post : List Effect}
    {result : Option RRateLimitResult}
    (hrun : run gcm c calls = some (m, pre ++ .callback (some h) .errTimeout result :: post))
    (hclock : Clocked calls) {started : RClientReq}
    (hsubmitted : .submitted h started ∈ pre ++ .callback (some h) .errTimeout result :: post) :
    ∃ calls₁ nowMs io calls₂ m₁ trace₁ m₂ left right,
      calls = calls₁ ++ .timeout h nowMs io :: calls₂ ∧ run gcm c calls₁ = some (m₁, trace₁) ∧
      step gcm m₁ (.timeout h nowMs io) =
        some (m₂, left ++ .callback (some h) .errTimeout result :: right) ∧
      pre = trace₁ ++ left ∧ started.dedupDeadlineMs ≤ nowMs := by
  obtain ⟨calls₁, call, calls₂, m₁, trace₁, m₂, left, right, req, req', rfl, hrun₁, hstep, rfl,
    -, hlive, -, hreq, -⟩ := callback_located hcreate hrun
  have hclock₁ : Clocked calls₁ := hclock.left
  have htimers : ∀ nowMs io, call = .timeout h nowMs io → io.roundMs = nowMs := by
    rintro nowMs io rfl
    exact hclock.timers h nowMs io (List.mem_append_right _ List.mem_cons_self)
  obtain ⟨nowMs, io, rfl, hlate⟩ := hreq.times_out (run_timed hcreate hrun₁ hclock₁ hlive) htimers
  obtain ⟨first, -, hsame, hmarks⟩ := run_live hcreate hrun₁ hlive
  have hfirst : Effect.submitted h first ∈ trace₁ := by
    rw [submitted_mem, hmarks]
    exact List.mem_cons_self
  obtain rfl := (submitted_launch hcreate hrun hsubmitted).2 first
    (List.mem_append_left _ (List.mem_append_left _ hfirst))
  rw [hsame.dedupDeadlineMs] at hlate
  exact ⟨calls₁, nowMs, io, calls₂, m₁, trace₁, m₂, left, right, rfl, hrun₁, hstep, rfl, hlate⟩

end

/-- **Schedule exactness and bounded completion.** For a request submitted at `s`
    under a policy with unit `U`, `N` replays, gaps `B` and `F` final units, in every
    run with a clock that never runs backwards: round `k` ends at
    `s + U * (B(0) + ... + B(k))` and the final phase at the deduplication deadline,
    which is `s` plus the TTL in the packet; a due timer completes the request or
    moves it on, and fewer due timers than stages have been seen while it is in
    flight; a timeout is delivered only if nothing was accepted, and not before the
    deduplication deadline. -/
theorem schedule_exact {gcm : Gcm} {args : CreateArgs} {c : RClient}
    (hcreate : rClientCreate args = .ok c) {calls : List Call} {m : Machine}
    {trace : List Effect} (hrun : run gcm c calls = some (m, trace)) (hclock : Clocked calls)
    {h : Handle} {started : RClientReq} (hsubmitted : Effect.submitted h started ∈ trace) :
    (∃ args io, Call.submit args io ∈ calls ∧ started.startMs = io.startMs) ∧
    (∀ k ≤ c.policy.replayCount.toNat, ∃ units,
      rHaScheduleUnits c.policy.replayGap (UInt32.ofNat k) false = .ok units ∧
        units.toNat = c.policy.replayGap.gapUnits k) ∧
    started.dedupDeadlineMs.toNat = started.startMs.toNat + c.policy.horizonMs ∧
    started.dedupDeadlineMs.toNat = started.startMs.toNat + started.dedupTtlMs.toNat ∧
    CarriesTtl gcm c.credential started.packet started.dedupTtlMs ∧
    (∀ req ∈ m.client.inflight, req.handle = h →
      req.startMs = started.startMs ∧ req.dedupDeadlineMs = started.dedupDeadlineMs ∧
      OnSchedule c.policy req ∧ dueTimers h trace < c.policy.stages ∧
      ∀ nowMs io m' effects, step gcm m (.timeout h nowMs io) = some (m', effects) →
        rClientRequestDeadlineMs req ≤ nowMs →
        (∃ req' ∈ m'.client.inflight, req'.handle = h ∧ Advanced req req') ∨
          ((∀ req' ∈ m'.client.inflight, req'.handle ≠ h) ∧
            ∃ status result, Effect.callback (some h) status result ∈ effects)) ∧
    ∀ pre result post, trace = pre ++ .callback (some h) .errTimeout result :: post →
      acceptedBy h pre = [] ∧
      ∃ calls₁ nowMs io calls₂ m₁ trace₁ m₂ left right,
        calls = calls₁ ++ .timeout h nowMs io :: calls₂ ∧
        run gcm c calls₁ = some (m₁, trace₁) ∧
        step gcm m₁ (.timeout h nowMs io) =
          some (m₂, left ++ .callback (some h) .errTimeout result :: right) ∧
        pre = trace₁ ++ left ∧ started.dedupDeadlineMs ≤ nowMs := by
  obtain ⟨⟨launch⟩, -⟩ := submitted_launch hcreate hrun hsubmitted
  obtain ⟨-, -, -, hstart, httl, hdedup, -⟩ := launch.fields
  obtain ⟨hhorizon, hschedules⟩ := rRequestPolicyTtlMs_toNat launch.built.ttl
  have hdeadline : started.dedupDeadlineMs.toNat =
      started.startMs.toNat + started.dedupTtlMs.toNat := by
    rw [hdedup, hstart, httl]
    exact toNat_add_of_le_max launch.built.fits
  refine ⟨⟨launch.args, launch.io, launch.called, hstart⟩, ?_, ?_, hdeadline, launch.carriesTtl,
    ?_, ?_⟩
  · intro k hk
    obtain ⟨units, hunits⟩ := hschedules k hk
    have hround : (UInt32.ofNat k).toNat = k :=
      UInt32.toNat_ofNat_of_lt (Nat.lt_of_le_of_lt hk c.policy.replayCount.toNat_lt)
    refine ⟨units, hunits, ?_⟩
    rw [rHaScheduleUnits_toNat hunits, hround]
  · rw [hdeadline, httl, hhorizon]
  · rintro req hmem rfl
    have hlive := view_of_mem (run_wf hcreate hrun) hmem
    have hsame := submitted_same hcreate hrun hsubmitted hlive
    have htimed := run_timed hcreate hrun hclock hlive
    refine ⟨hsame.startMs, hsame.dedupDeadlineMs, htimed.onSchedule, htimed.due_lt_stages, ?_⟩
    intro nowMs io m' effects hstep hdue
    exact due_timer_outcome hcreate hrun hclock hlive hstep hdue
  · rintro pre result post rfl
    exact ⟨(failed_accepted_nil hcreate hrun (by decide)).2,
      timeout_delivered_late hcreate hrun hclock hsubmitted⟩

/-- Round zero ends at 120, the only replay at 140 and the final phase at 160; with
    every timer on time the request fails with a timeout at 160. -/
theorem schedule_exact_all_stages :
    ∃ m trace, run noGcm sampleClient
        [sampleSubmit 1 100, sampleTimeout 0 120, sampleTimeout 0 140, sampleTimeout 0 160] =
          some (m, trace) ∧
      ∃ started pre, Effect.submitted 0 started ∈ trace ∧
        started.dedupDeadlineMs.toNat = started.startMs.toNat + started.dedupTtlMs.toNat ∧
        trace = pre ++ [.callback (some 0) .errTimeout none] ∧ acceptedBy 0 pre = [] := by
  have hclock : Clocked
      [sampleSubmit 1 100, sampleTimeout 0 120, sampleTimeout 0 140, sampleTimeout 0 160] := by
    refine ⟨by decide, ?_⟩
    intro h nowMs io hmem
    simp [sampleSubmit, sampleTimeout] at hmem
    rcases hmem with ⟨-, rfl, rfl⟩ | ⟨-, rfl, rfl⟩ | ⟨-, rfl, rfl⟩
    · rfl
    · rfl
    · rfl
  obtain ⟨⟨m, trace⟩, hrun, hread⟩ := Option.map_eq_some_iff.mp
    (show (run noGcm sampleClient [sampleSubmit 1 100, sampleTimeout 0 120, sampleTimeout 0 140,
      sampleTimeout 0 160]).map (fun s =>
        (s.2.any (Effect.launches 0), s.2.getLast?)) =
        some (true, some (.callback (some 0) .errTimeout none)) by
      decide +kernel)
  obtain ⟨hany, hlast⟩ := Prod.mk.inj hread
  obtain ⟨pre, hpre⟩ := List.getLast?_eq_some_iff.mp hlast
  obtain ⟨started, hsubmitted⟩ := exists_submitted hany
  have hspec := schedule_exact sampleClient_created hrun hclock hsubmitted
  exact ⟨m, trace, hrun, started, pre, hsubmitted, hspec.2.2.2.1, hpre,
    (hspec.2.2.2.2.2.2 pre none [] hpre).1⟩

end RlClient
