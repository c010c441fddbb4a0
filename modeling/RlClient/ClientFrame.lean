import RlClient.Keyed
import RlClient.Machine

/-!
# What the entry points leave alone

Configuration never changes after creation, a send touches only the failure
counter, and the in-flight list changes one request at a time. These facts are
stated once for each function of `RlClient.Client`; no later proof unfolds a
function to see that something is unchanged.
-/

namespace RlClient

/-! ### The fixed part of a client -/

/-- The client with everything mutable blanked out. -/
def RClient.static (c : RClient) : RClient :=
  { c with
    membership := .empty
    sendFailureCount := 0
    inflight := []
    steeringRebindPending := false }

theorem policy_of_static {c c' : RClient} (h : c'.static = c.static) : c'.policy = c.policy := by
  change c'.static.policy = c.static.policy
  rw [h]

theorem credential_of_static {c c' : RClient} (h : c'.static = c.static) :
    c'.credential = c.credential := by
  change c'.static.credential = c.static.credential
  rw [h]

theorem udpSend_of_static {c c' : RClient} (h : c'.static = c.static) :
    c'.udpSend = c.udpSend := by
  change c'.static.udpSend = c.static.udpSend
  rw [h]

theorem onSteeringFeedback_of_static {c c' : RClient} (h : c'.static = c.static) :
    c'.onSteeringFeedback = c.onSteeringFeedback := by
  change c'.static.onSteeringFeedback = c.static.onSteeringFeedback
  rw [h]

theorem quotas_of_static {c c' : RClient} (h : c'.static = c.static) :
    c'.hasQuotas = c.hasQuotas ∧ c'.quotas = c.quotas := by
  change c'.static.hasQuotas = c.static.hasQuotas ∧ c'.static.quotas = c.static.quotas
  rw [h]
  exact ⟨rfl, rfl⟩

/-- From one client state to another: the configuration is the same, and the
    membership is still one in which every server has an id. -/
structure Keeps (c c' : RClient) : Prop where
  static : c'.static = c.static
  identified : c.membership.Identified → c'.membership.Identified

theorem Keeps.same {c c' : RClient} (hstatic : c'.static = c.static)
    (hmembership : c'.membership = c.membership) : Keeps c c' :=
  ⟨hstatic, fun h => hmembership ▸ h⟩

theorem Keeps.trans {c₁ c₂ c₃ : RClient} (h₁ : Keeps c₁ c₂) (h₂ : Keeps c₂ c₃) : Keeps c₁ c₃ :=
  ⟨h₂.static.trans h₁.static, fun h => h₂.identified (h₁.identified h)⟩

/-- From one client state to another: neither configuration nor membership change. -/
structure Steady (c c' : RClient) : Prop where
  static : c'.static = c.static
  membership : c'.membership = c.membership

theorem Steady.keeps {c c' : RClient} (h : Steady c c') : Keeps c c' :=
  .same h.static h.membership

theorem Steady.trans {c₁ c₂ c₃ : RClient} (h₁ : Steady c₁ c₂) (h₂ : Steady c₂ c₃) :
    Steady c₁ c₃ :=
  ⟨h₂.static.trans h₁.static, h₂.membership.trans h₁.membership⟩

theorem Steady.of_count {c c' : RClient} (h : ∃ n, c' = { c with sendFailureCount := n }) :
    Steady c c' := by
  obtain ⟨n, rfl⟩ := h
  exact ⟨rfl, rfl⟩

theorem Keeps.refresh (c : RClient) (force : Bool) (io : RefreshIo) :
    Keeps c { c with
      membership := rDnsMaybeRefresh c.membership c.dnsRefresh c.dnsName force io } :=
  ⟨rfl, fun h => rDnsMaybeRefresh_identified h c.dnsRefresh c.dnsName force io⟩

/-! ### Sends -/

theorem rRecordSendFailures_eq (c : RClient) (failures : UInt64) :
    ∃ n, rRecordSendFailures c failures = { c with sendFailureCount := n } := by
  unfold rRecordSendFailures
  split
  · exact ⟨c.sendFailureCount, rfl⟩
  · split
    · exact ⟨UINT64_MAX, rfl⟩
    · exact ⟨c.sendFailureCount + failures, rfl⟩

theorem rSendRateRequest_client (c : RClient) (req : RClientReq) (missingOnly bestEffort : Bool)
    (pass : SendPass) (startedMs : UInt64) (udpSend : Nat → Bool) :
    ∃ n, (rSendRateRequest c req missingOnly bestEffort pass startedMs udpSend).client =
      { c with sendFailureCount := n } := by
  unfold rSendRateRequest
  split
  · exact ⟨c.sendFailureCount, rfl⟩
  · split
    · exact ⟨c.sendFailureCount, rfl⟩
    · simp only
      split
      · exact ⟨c.sendFailureCount, rfl⟩
      · split
        · exact rRecordSendFailures_eq c _
        · exact ⟨c.sendFailureCount, rfl⟩

/-- Either nothing is sent, or one packet goes to every endpoint of the pass. -/
theorem rSendRateRequest_effects (c : RClient) (req : RClientReq) (missingOnly bestEffort : Bool)
    (pass : SendPass) (startedMs : UInt64) (udpSend : Nat → Bool) :
    let reply := rSendRateRequest c req missingOnly bestEffort pass startedMs udpSend
    (reply.effects = [] ∧ (req.packet = [] ∧ reply.status = .errProtocol ∨
        c.udpSend = false ∧ reply.status = .errIo)) ∨
      (reply.effects = sendEffects req missingOnly pass startedMs udpSend ∧
        req.packet ≠ [] ∧ c.udpSend = true ∧ (reply.status = .ok ∨ reply.status = .errIo)) := by
  unfold rSendRateRequest
  by_cases hpacket : req.packet.length = 0
  · rw [if_pos hpacket]
    exact .inl ⟨rfl, .inl ⟨List.length_eq_zero_iff.mp hpacket, rfl⟩⟩
  · rw [if_neg hpacket]
    have hne : req.packet ≠ [] := fun hnil => hpacket (List.length_eq_zero_iff.mpr hnil)
    cases hudp : c.udpSend with
    | false => exact .inl ⟨rfl, .inr ⟨rfl, rfl⟩⟩
    | true =>
      simp only [Bool.not_true, Bool.false_eq_true, if_false]
      right
      split
      · exact ⟨rfl, hne, trivial, .inr rfl⟩
      · split
        · exact ⟨rfl, hne, trivial, .inl rfl⟩
        · exact ⟨rfl, hne, trivial, .inl rfl⟩

/-! ### Rounds -/

/-- What `r_start_round` can do: refuse because it is too late, fail on the
    schedule, or set the round up and send. -/
theorem rStartRound_cases (c : RClient) (req : RClientReq) (round : UInt32) (nowMs : UInt64)
    (udpSend : Nat → Bool) :
    (rStartRound c req round nowMs udpSend = (req, .done .errTimeout c []) ∧
      (c.policy.replayCount < round ∨ req.dedupDeadlineMs ≤ nowMs)) ∨
    (∃ rc, rStartRound c req round nowMs udpSend = (req, .done rc c []) ∧
      rHaScheduleUnits c.policy.replayGap round false = .error rc) ∨
    (∃ gapUnits, rHaScheduleUnits c.policy.replayGap round false = .ok gapUnits ∧
      round ≤ c.policy.replayCount ∧ nowMs < req.dedupDeadlineMs ∧
      rStartRound c req round nowMs udpSend =
        (enterRound c.policy req round gapUnits,
          rSendRateRequest c (enterRound c.policy req round gapUnits) (round > 0) false
            (.round round) nowMs udpSend)) := by
  unfold rStartRound
  by_cases hlate : (round > c.policy.replayCount || nowMs ≥ req.dedupDeadlineMs) = true
  · left
    rw [if_pos hlate]
    refine ⟨rfl, ?_⟩
    simpa using hlate
  · right
    rw [if_neg hlate]
    have hintime : round ≤ c.policy.replayCount ∧ nowMs < req.dedupDeadlineMs := by
      simpa using hlate
    cases hgap : rHaScheduleUnits c.policy.replayGap round false with
    | error rc => exact .inl ⟨rc, rfl, rfl⟩
    | ok gapUnits => exact .inr ⟨gapUnits, rfl, hintime.1, hintime.2, rfl⟩

theorem rStartRound_client (c : RClient) (req : RClientReq) (round : UInt32) (nowMs : UInt64)
    (udpSend : Nat → Bool) :
    ∃ n, (rStartRound c req round nowMs udpSend).2.client = { c with sendFailureCount := n } := by
  rcases rStartRound_cases c req round nowMs udpSend with
    ⟨heq, -⟩ | ⟨rc, heq, -⟩ | ⟨gapUnits, -, -, -, heq⟩
  · exact ⟨c.sendFailureCount, by rw [heq]; rfl⟩
  · exact ⟨c.sendFailureCount, by rw [heq]; rfl⟩
  · rw [heq]
    exact rSendRateRequest_client c _ _ _ _ _ _

theorem rStartRound_handle (c : RClient) (req : RClientReq) (round : UInt32) (nowMs : UInt64)
    (udpSend : Nat → Bool) : (rStartRound c req round nowMs udpSend).1.handle = req.handle := by
  rcases rStartRound_cases c req round nowMs udpSend with
    ⟨heq, -⟩ | ⟨rc, heq, -⟩ | ⟨gapUnits, -, -, -, heq⟩ <;> rw [heq]
  rfl

/-! ### Entry points -/

/-- What a submission can come to, with the check it has passed. -/
inductive Staged (build : RClient → Except RClientError RClientReq) (c : RClient)
    (args : SubmitArgs) (io : SubmitIo) : Submission → Prop
  | refused (rc : RClientError) (hcheck : checkSubmission c args = .refused rc)
      (hrc : rc = .errConfig ∨ rc = .errProtocol) : Staged build c args io (.refused rc c)
  | empty (hcheck : checkSubmission c args = .empty) : Staged build c args io .empty
  | unserved (hcheck : checkSubmission c args = .passed)
      (hnone : (c.refreshed false io.refresh).membership.servers.length = 0) :
      Staged build c args io
        (.refused .errDns ((c.refreshed false io.refresh).refreshed true io.forcedRefresh))
  | unbuilt (rc : RClientError) (hcheck : checkSubmission c args = .passed)
      (hsome : (c.refreshed false io.refresh).membership.servers.length ≠ 0)
      (hbuild : build (c.refreshed false io.refresh) = .error rc) :
      Staged build c args io (.refused rc (c.refreshed false io.refresh))
  | built (req : RClientReq) (hcheck : checkSubmission c args = .passed)
      (hsome : (c.refreshed false io.refresh).membership.servers.length ≠ 0)
      (hbuild : build (c.refreshed false io.refresh) = .ok req) :
      Staged build c args io (.built (c.refreshed false io.refresh) req)

theorem checkSubmission_refused {c : RClient} {args : SubmitArgs} {rc : RClientError}
    (h : checkSubmission c args = .refused rc) : rc = .errConfig ∨ rc = .errProtocol := by
  unfold checkSubmission at h
  split_ifs at h
  all_goals cases h
  · exact .inl rfl
  · exact .inl rfl
  · exact .inl rfl
  · exact .inr rfl

theorem staged (build : RClient → Except RClientError RClientReq) (c : RClient)
    (args : SubmitArgs) (io : SubmitIo) :
    Staged build c args io (stageSubmission build c args io) := by
  unfold stageSubmission
  cases hcheck : checkSubmission c args with
  | refused rc => exact .refused rc hcheck (checkSubmission_refused hcheck)
  | empty => exact .empty hcheck
  | passed =>
    simp only
    by_cases hservers : (c.refreshed false io.refresh).membership.servers.length = 0
    · rw [if_pos hservers]
      exact .unserved hcheck hservers
    · rw [if_neg hservers]
      cases hbuild : build (c.refreshed false io.refresh) with
      | error rc => exact .unbuilt rc hcheck hservers hbuild
      | ok req => exact .built req hcheck hservers hbuild

theorem launchRequest_steady (c : RClient) (req : RClientReq) (io : SubmitIo) :
    Steady c (launchRequest c req io).client := by
  have hstart := Steady.of_count (rStartRound_client c req 0 io.roundMs io.udpSend)
  unfold launchRequest
  simp only
  split
  · exact hstart.trans (⟨rfl, rfl⟩)
  · exact hstart

theorem rClientCheckRateLimitAsyncImpl_keeps (gcm : Gcm) (c : RClient) (h : Handle)
    (args : SubmitArgs) (io : SubmitIo) :
    Keeps c (rClientCheckRateLimitAsyncImpl gcm c h args io).client := by
  have hrefresh := Keeps.refresh c false io.refresh
  have hstaged := staged (buildRequest gcm · h args io) c args io
  unfold rClientCheckRateLimitAsyncImpl
  generalize stageSubmission (buildRequest gcm · h args io) c args io = stage at hstaged ⊢
  cases hstaged with
  | refused rc => exact .same rfl rfl
  | empty => exact .same rfl rfl
  | unserved => exact hrefresh.trans (Keeps.refresh _ true io.forcedRefresh)
  | unbuilt rc => exact hrefresh
  | built req => exact hrefresh.trans (launchRequest_steady _ _ io).keeps

theorem sendReport_client (c : RClient) (packet : Bytes) (io : ReportIo) :
    ∃ n, (sendReport c packet io).client = { c with sendFailureCount := n } := by
  unfold sendReport
  simp only
  split
  · exact ⟨c.sendFailureCount, rfl⟩
  · split
    · exact rRecordSendFailures_eq c _
    · exact ⟨c.sendFailureCount, rfl⟩

theorem sendReport_effects (c : RClient) (packet : Bytes) (io : ReportIo) :
    (sendReport c packet io).effects = c.membership.servers.zipIdx.map fun server =>
      Effect.udpSend none .report io.stampMs server.2 server.1.addr packet
        (io.udpSend server.2) := by
  unfold sendReport
  simp only
  split
  · rfl
  split
  · rfl
  · rfl

theorem rClientReportLatency_keeps (gcm : Gcm) (c : RClient)
    (reports : CArray RServiceLatencyReport) (io : ReportIo) :
    Keeps c (rClientReportLatency gcm c reports io).client := by
  unfold rClientReportLatency
  iterate 2
    split
    · exact .same rfl rfl
  simp only
  split
  · exact (Keeps.refresh c false io.refresh).trans (Keeps.refresh _ true io.forcedRefresh)
  · split
    · exact Keeps.refresh c false io.refresh
    · exact (Keeps.refresh c false io.refresh).trans
        (Steady.of_count (sendReport_client _ _ io)).keeps

theorem rClientOnDatagram_steady (gcm : Gcm) (c : RClient) (buf : Bytes) (sender : RAddr)
    (io : DatagramIo) : Steady c (rClientOnDatagram gcm c buf sender io).client := by
  unfold rClientOnDatagram
  split
  · exact ⟨rfl, rfl⟩
  · unfold acceptResponse
    simp only
    split
    · exact ⟨rfl, rfl⟩
    · exact ⟨rfl, rfl⟩

theorem complete_steady (c : RClient) (req : RClientReq) (status : RClientError)
    (selected : Option RRateLimitResult) (io : CompleteIo) (before : List Effect) :
    Steady c (Reply.complete (c.putRequest req) req status selected io before).client :=
  ⟨rfl, rfl⟩

theorem replayRound_steady (c : RClient) (req : RClientReq) (io : TimeoutIo)
    (before : List Effect) : Steady c (replayRound c req io before).client := by
  have hstart := Steady.of_count (rStartRound_client c req (req.haRound + 1) io.roundMs io.udpSend)
  unfold replayRound
  simp only
  split
  · exact hstart.trans (⟨rfl, rfl⟩)
  · exact hstart.trans (complete_steady _ _ _ _ _ _)

theorem rClientOnTimeout_steady (c : RClient) (req : RClientReq) (nowMs : UInt64)
    (io : TimeoutIo) : Steady c (rClientOnTimeout c req nowMs io).client := by
  unfold rClientOnTimeout
  simp only
  split
  · exact ⟨rfl, rfl⟩
  unfold rRequestPolicyOnTimeout
  split
  · split
    · exact ⟨rfl, rfl⟩
    · exact ⟨rfl, rfl⟩
  · split
    · exact ⟨rfl, rfl⟩
    · split
      · split
        · exact replayRound_steady c req io _
        · split
          · exact ⟨rfl, rfl⟩
          · exact ⟨rfl, rfl⟩
      · exact ⟨rfl, rfl⟩

theorem rNotifySteeringWhenDrained_steady (c : RClient) :
    Steady c (rNotifySteeringWhenDrained c).1 := by
  unfold rNotifySteeringWhenDrained
  simp only
  split
  · exact ⟨rfl, rfl⟩
  · exact ⟨rfl, rfl⟩

theorem rClientCancelRequest_steady (c : RClient) (h : Handle) :
    Steady c (rClientCancelRequest c h).1 := by
  unfold rClientCancelRequest
  split
  · have hremove : Steady c (rRequestRemove c h) := ⟨rfl, rfl⟩
    exact hremove.trans (rNotifySteeringWhenDrained_steady _)
  · exact ⟨rfl, rfl⟩

theorem rCallbackReturned_steady (c : RClient) (frame : Frame) :
    Steady c (rCallbackReturned c frame).1 := by
  cases frame with
  | completing req => exact rNotifySteeringWhenDrained_steady c
  | emptyRequest => exact ⟨rfl, rfl⟩

/-! ### What a step is -/

/-- The step function read backwards: which entry point ran, and what it needed
    to be allowed to run. -/
inductive Stepped (gcm : Gcm) (m : Machine) : Call → Machine → List Effect → Prop
  | submit (args : SubmitArgs) (io : SubmitIo) :
      Stepped gcm m (.submit args io)
        { m.afterReply (rClientCheckRateLimitAsyncImpl gcm m.client m.nextHandle args io) with
          nextHandle := m.nextHandle + 1 }
        (rClientCheckRateLimitAsyncImpl gcm m.client m.nextHandle args io).effects
  | report (reports : CArray RServiceLatencyReport) (io : ReportIo) :
      Stepped gcm m (.report reports io)
        (m.afterReply (rClientReportLatency gcm m.client reports io))
        (rClientReportLatency gcm m.client reports io).effects
  | datagram (buf : Bytes) (sender : RAddr) (io : DatagramIo) (hframes : m.frames = []) :
      Stepped gcm m (.datagram buf sender io)
        (m.afterReply (rClientOnDatagram gcm m.client buf sender io))
        (rClientOnDatagram gcm m.client buf sender io).effects
  | timeout (h : Handle) (nowMs : UInt64) (io : TimeoutIo) (req : RClientReq)
      (hframes : m.frames = []) (hreq : m.client.inflight.find? (·.handle == h) = some req) :
      Stepped gcm m (.timeout h nowMs io)
        (m.afterReply (rClientOnTimeout m.client req nowMs io))
        (rClientOnTimeout m.client req nowMs io).effects
  | cancel (h : Handle) :
      Stepped gcm m (.cancel h) { m with client := (rClientCancelRequest m.client h).1 }
        (rClientCancelRequest m.client h).2
  | callbackReturn (frame : Frame) (frames : List Frame) (hframes : m.frames = frame :: frames) :
      Stepped gcm m .callbackReturn
        { m with client := (rCallbackReturned m.client frame).1, frames := frames }
        (rCallbackReturned m.client frame).2
  | refreshFinish (discovery : Discovery) (nowMs : UInt64) :
      Stepped gcm m (.refreshFinish discovery nowMs)
        { m with client :=
          { m.client with membership := rDnsRefreshFinish m.client.membership discovery nowMs } }
        []

theorem stepped_of_step {gcm : Gcm} {m m' : Machine} {call : Call} {effects : List Effect}
    (hstep : step gcm m call = some (m', effects)) : Stepped gcm m call m' effects := by
  cases call with
  | submit args io =>
    obtain ⟨rfl, rfl⟩ := Prod.mk.inj (Option.some.inj hstep)
    exact .submit args io
  | report reports io =>
    obtain ⟨rfl, rfl⟩ := Prod.mk.inj (Option.some.inj hstep)
    exact .report reports io
  | datagram buf sender io =>
    simp only [step] at hstep
    split at hstep
    · rename_i hframes
      obtain ⟨rfl, rfl⟩ := Prod.mk.inj (Option.some.inj hstep)
      exact .datagram buf sender io (List.isEmpty_iff.mp hframes)
    · exact absurd hstep (by simp)
  | timeout h nowMs io =>
    simp only [step] at hstep
    split at hstep
    · rename_i hframes
      split at hstep
      · exact absurd hstep (by simp)
      · rename_i req hreq
        obtain ⟨rfl, rfl⟩ := Prod.mk.inj (Option.some.inj hstep)
        exact .timeout h nowMs io req (List.isEmpty_iff.mp hframes) hreq
    · exact absurd hstep (by simp)
  | cancel h =>
    obtain ⟨rfl, rfl⟩ := Prod.mk.inj (Option.some.inj hstep)
    exact .cancel h
  | callbackReturn =>
    simp only [step] at hstep
    split at hstep
    · exact absurd hstep (by simp)
    · rename_i frame frames hframes
      obtain ⟨rfl, rfl⟩ := Prod.mk.inj (Option.some.inj hstep)
      exact .callbackReturn frame frames hframes
  | refreshFinish discovery nowMs =>
    simp only [step] at hstep
    split at hstep
    · obtain ⟨rfl, rfl⟩ := Prod.mk.inj (Option.some.inj hstep)
      exact .refreshFinish discovery nowMs
    · exact absurd hstep (by simp)

theorem step_keeps {gcm : Gcm} {m m' : Machine} {call : Call} {effects : List Effect}
    (hstep : step gcm m call = some (m', effects)) : Keeps m.client m'.client := by
  cases stepped_of_step hstep with
  | submit args io => exact rClientCheckRateLimitAsyncImpl_keeps gcm m.client m.nextHandle args io
  | report reports io => exact rClientReportLatency_keeps gcm m.client reports io
  | datagram buf sender io => exact (rClientOnDatagram_steady gcm m.client buf sender io).keeps
  | timeout h nowMs io req => exact (rClientOnTimeout_steady m.client req nowMs io).keeps
  | cancel h => exact (rClientCancelRequest_steady m.client h).keeps
  | callbackReturn frame frames => exact (rCallbackReturned_steady m.client frame).keeps
  | refreshFinish discovery nowMs =>
    exact ⟨rfl, fun h => rDnsRefreshFinish_identified h discovery nowMs⟩

end RlClient
