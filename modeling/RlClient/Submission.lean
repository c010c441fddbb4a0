import RlClient.ClientFrame

/-!
# What a submission can do

`r_client_check_rate_limit_async_impl` read backwards: it is refused, it
completes an empty request on the spot, or it builds a request, starts its round
zero and links it. `Built` says what a built request looks like; later proofs
use it in place of the code that builds the request.
-/

namespace RlClient

/-! ### Failures carry an error -/

theorem rAppendMetricsLabelTlv_error {len cap : Nat} {label : Bytes} {rc : RClientError}
    (h : rAppendMetricsLabelTlv len cap label = .error rc) : rc = .errProtocol := by
  simp only [rAppendMetricsLabelTlv] at h
  iterate 3
    split at h
    · exact (Except.error.inj h).symm
  exact absurd h (by simp)

theorem rBuildRateRequestBody_error {resources : List RResourceRequest}
    {guards : List RLatencyGuard} {label : Option Bytes} {cap : Nat} {rc : RClientError}
    (h : rBuildRateRequestBody resources guards label cap = .error rc) : rc = .errProtocol := by
  unfold rBuildRateRequestBody at h
  split at h
  · exact (Except.error.inj h).symm
  split at h
  · exact (Except.error.inj h).symm
  simp only at h
  split at h
  · exact absurd h (by simp)
  split at h
  · exact absurd h (by simp)
  split at h
  · rename_i rc' htlv
    obtain rfl := Except.error.inj h
    exact rAppendMetricsLabelTlv_error htlv
  · exact absurd h (by simp)

theorem buildPdu_error {pduType : UInt16} {word : UInt32} {body : Bytes} {cap : Nat}
    {rc : RClientError} (h : buildPdu pduType word body cap = .error rc) : rc = .errProtocol := by
  simp only [buildPdu] at h
  split at h
  · exact (Except.error.inj h).symm
  · exact absurd h (by simp)

theorem rateRequestPdu_error {rq : RateRequest} {rc : RClientError}
    (h : rateRequestPdu rq = .error rc) : rc = .errProtocol := by
  unfold rateRequestPdu at h
  split at h
  · rename_i rc' hbody
    obtain rfl := Except.error.inj h
    exact rBuildRateRequestBody_error hbody
  · exact buildPdu_error h

/-- An error of the code in front of a send: it is not the one that a send returns. -/
abbrev RClientError.Refuses (rc : RClientError) : Prop := rc ≠ .ok ∧ rc ≠ .errIo

theorem framePdu_error {gcm : Gcm} {cred : RCredential} {tenant : RTenantHeader} {pdu : Bytes}
    {cap : Nat} {io : EncryptIo} {rc : RClientError}
    (h : framePdu gcm cred tenant pdu cap io = .error rc) : rc.Refuses := by
  have hrefuses : ∀ rc' : RClientError, rc'.Refuses → Except.error (α := Bytes) rc' = .error rc →
      rc.Refuses := fun rc' hrc heq => Except.error.inj heq ▸ hrc
  unfold framePdu at h
  split at h
  · exact hrefuses _ (by decide) h
  simp only at h
  split at h
  · iterate 3
      split at h
      · exact hrefuses _ (by decide) h
    cases h
  · iterate 2
      split at h
      · exact hrefuses _ (by decide) h
    split at h
    · exact hrefuses _ (by decide) h
    · iterate 2
        split at h
        · exact hrefuses _ (by decide) h
      cases h
  · exact hrefuses _ (by decide) h

theorem rBuildRateRequestPacket_error {gcm : Gcm} {cred : RCredential} {rq : RateRequest}
    {stampMs : UInt64} {io : EncryptIo} {rc : RClientError}
    (h : rBuildRateRequestPacket gcm cred rq stampMs io = .error rc) : rc.Refuses := by
  unfold rBuildRateRequestPacket at h
  split at h
  · rename_i rc' hpdu
    obtain rfl := Except.error.inj h
    rw [rateRequestPdu_error hpdu]
    decide
  · exact framePdu_error h

theorem rGenerateRequestId_error {rand : Option (FixedBytes 16)} {rc : RClientError}
    (h : rGenerateRequestId rand = .error rc) : rc = .errAuth := by
  unfold rGenerateRequestId at h
  split at h
  · exact (Except.error.inj h).symm
  · cases h

theorem rHaScheduleUnits_error {schedule : RHaSchedule} {round : UInt32} {allowZero : Bool}
    {rc : RClientError} (h : rHaScheduleUnits schedule round allowZero = .error rc) :
    rc = .errConfig := by
  unfold rHaScheduleUnits at h
  split at h
  · exact (Except.error.inj h).symm
  split at h
  · exact absurd h (by simp)
  · simp only at h
    split at h
    · exact (Except.error.inj h).symm
    · split at h
      · exact absurd h (by simp)
      · exact absurd h (by simp)
  · simp only at h
    split at h
    · exact (Except.error.inj h).symm
    · exact absurd h (by simp)
  · exact (Except.error.inj h).symm

theorem ttlRounds_error {policy : RRequestPolicy} {limit : UInt64} {remaining : Nat}
    {round : UInt32} {total : UInt64} {rc : RClientError}
    (h : ttlRounds policy limit remaining round total = .error rc) : rc = .errConfig := by
  induction remaining generalizing round total with
  | zero => exact absurd h (by simp [ttlRounds])
  | succ remaining ih =>
    unfold ttlRounds at h
    split at h
    · exact (Except.error.inj h).symm
    · simp only at h
      iterate 2
        split at h
        · exact (Except.error.inj h).symm
      exact ih h

theorem rRequestPolicyTtlMs_error {policy : RRequestPolicy} {hasQuotas : Bool}
    {quotas : RBech32Quotas} {rc : RClientError}
    (h : rRequestPolicyTtlMs policy hasQuotas quotas = .error rc) : rc = .errConfig := by
  unfold rRequestPolicyTtlMs at h
  split at h
  · exact (Except.error.inj h).symm
  simp only at h
  split at h
  · exact (Except.error.inj h).symm
  split at h
  · rename_i rc' hrounds
    obtain rfl := Except.error.inj h
    exact ttlRounds_error hrounds
  · iterate 2
      split at h
      · exact (Except.error.inj h).symm
    exact absurd h (by simp)

theorem rRequestSnapshotTargets_error {servers : List RServerEndpoint} {alloc : SnapshotAlloc}
    {rc : RClientError} (h : rRequestSnapshotTargets servers alloc = .error rc) :
    rc.Refuses := by
  unfold rRequestSnapshotTargets at h
  split at h
  · obtain rfl := Except.error.inj h
    decide
  split at h
  · obtain rfl := Except.error.inj h
    decide
  split at h
  · cases h
  split at h
  · obtain rfl := Except.error.inj h
    decide
  · cases h

theorem copyInputs_error {args : SubmitArgs} {io : SubmitIo} (h : copyInputs args io ≠ .ok) :
    copyInputs args io = .errNomem := by
  revert h
  unfold copyInputs
  split
  · exact fun h => absurd rfl h
  iterate 3
    split
    · exact fun _ => rfl
  exact fun h => absurd rfl h

/-! ### Building a request -/

/-- What a request looks like when it comes to its first round: a TTL the policy
    allows, a deadline that does not wrap, the packet of the request and the
    membership, in which every server has an id. -/
structure Built (gcm : Gcm) (c : RClient) (h : Handle) (args : SubmitArgs) (io : SubmitIo)
    (req : RClientReq) where
  requestId : FixedBytes 16
  ttlMs : UInt32
  packet : Bytes
  servers : List RServerEndpoint
  ttl : rRequestPolicyTtlMs c.policy c.hasQuotas c.quotas = .ok ttlMs
  ttlPos : ttlMs ≠ 0
  fits : io.startMs ≤ UINT64_MAX - ttlMs.toUInt64
  framed : rBuildRateRequestPacket gcm c.credential
    (submittedRequest args requestId io.startMs ttlMs) io.stampMs io.encrypt = .ok packet
  nonempty : servers ≠ []
  identified : ∀ server ∈ servers, server.hasServerId = true
  eq : req = newRequest h (submittedRequest args requestId io.startMs ttlMs) packet
    (servers, snapshotIds servers)

theorem rRequestSnapshotTargets_ok {servers : List RServerEndpoint} {alloc : SnapshotAlloc}
    {snapshot : List RServerEndpoint × List UInt64}
    (hidentified : ∀ server ∈ servers, server.hasServerId = true)
    (h : rRequestSnapshotTargets servers alloc = .ok snapshot) :
    servers ≠ [] ∧ snapshot = (servers, snapshotIds servers) := by
  have hall : servers.any (fun server => !server.hasServerId) = false := by
    simpa using hidentified
  unfold rRequestSnapshotTargets at h
  split at h
  · exact absurd h (by simp)
  rename_i hlength
  split at h
  · exact absurd h (by simp)
  rw [hall] at h
  split at h
  · exact absurd ‹false = true› (by simp)
  split at h
  · exact absurd h (by simp)
  · refine ⟨?_, (Except.ok.inj h).symm⟩
    rintro rfl
    exact hlength rfl

theorem buildRequest_cases (gcm : Gcm) {c : RClient} (h : Handle) (args : SubmitArgs)
    (io : SubmitIo) (hidentified : c.membership.Identified) :
    (∃ rc, buildRequest gcm c h args io = .error rc ∧ rc.Refuses) ∨
      ∃ req, buildRequest gcm c h args io = .ok req ∧ Nonempty (Built gcm c h args io req) ∧
        req.targets = c.membership.servers := by
  unfold buildRequest buildRequestOf
  split
  · exact .inl ⟨_, rfl, by decide⟩
  split
  · rename_i hcopy
    exact .inl ⟨_, rfl, by rw [copyInputs_error hcopy]; decide⟩
  cases hrand : rGenerateRequestId io.randRequestId with
  | error rc => exact .inl ⟨rc, rfl, by rw [rGenerateRequestId_error hrand]; decide⟩
  | ok requestId =>
    cases httl : rRequestPolicyTtlMs c.policy c.hasQuotas c.quotas with
    | error rc => exact .inl ⟨rc, rfl, by rw [rRequestPolicyTtlMs_error httl]; decide⟩
    | ok ttlMs =>
      simp only
      split
      · exact .inl ⟨_, rfl, by decide⟩
      rename_i hpos
      split
      · exact .inl ⟨_, rfl, by decide⟩
      rename_i hfits
      cases hpacket : rBuildRateRequestPacket gcm c.credential
          (submittedRequest args requestId io.startMs ttlMs) io.stampMs io.encrypt with
      | error rc => exact .inl ⟨rc, rfl, rBuildRateRequestPacket_error hpacket⟩
      | ok packet =>
        cases hsnapshot : rRequestSnapshotTargets c.membership.servers io.allocSnapshot with
        | error rc => exact .inl ⟨rc, rfl, rRequestSnapshotTargets_error hsnapshot⟩
        | ok snapshot =>
          obtain ⟨hne, rfl⟩ := rRequestSnapshotTargets_ok hidentified hsnapshot
          exact .inr ⟨_, rfl, ⟨requestId, ttlMs, packet, c.membership.servers, httl, hpos,
            UInt64.not_lt.mp hfits, hpacket, hne, hidentified, rfl⟩, rfl⟩

/-- `Built` depends on the configuration of the client only. -/
def Built.ofStatic {gcm : Gcm} {c c' : RClient} {h : Handle} {args : SubmitArgs} {io : SubmitIo}
    {req : RClientReq} (hstatic : c'.static = c.static) (built : Built gcm c' h args io req) :
    Built gcm c h args io req where
  requestId := built.requestId
  ttlMs := built.ttlMs
  packet := built.packet
  servers := built.servers
  ttl := by
    rw [← policy_of_static hstatic, ← (quotas_of_static hstatic).1, ← (quotas_of_static hstatic).2]
    exact built.ttl
  ttlPos := built.ttlPos
  fits := built.fits
  framed := by
    rw [← credential_of_static hstatic]
    exact built.framed
  nonempty := built.nonempty
  identified := built.identified
  eq := built.eq

/-! ### The outcomes -/

abbrev firstRound (c : RClient) (req : RClientReq) (gapUnits : UInt32) : RClientReq :=
  enterRound c.policy req 0 gapUnits

abbrev firstSends (c : RClient) (req : RClientReq) (gapUnits : UInt32) (io : SubmitIo) :
    List Effect :=
  sendEffects (firstRound c req gapUnits) false (.round 0) io.roundMs io.udpSend

/-- Everything a submission can do. -/
inductive SubmitOutcome (gcm : Gcm) (c : RClient) (h : Handle) (args : SubmitArgs)
    (io : SubmitIo) : Reply → Prop
  | rejected (status : RClientError) (c' : RClient) (hstatus : status ≠ .ok)
      (hinflight : c'.inflight = c.inflight)
      (hpending : c'.steeringRebindPending = c.steeringRebindPending) :
      SubmitOutcome gcm c h args io (.done status c' [.submitFailed h status])
  | emptied : SubmitOutcome gcm c h args io (completeEmpty c)
  | sendFailed (req : RClientReq) (gapUnits : UInt32) (status : RClientError)
      (sends : List Effect) (c' : RClient) (built : Built gcm c h args io req)
      (hstatus : status ≠ .ok) (hsends : sends = [] ∨ sends = firstSends c req gapUnits io)
      (hinflight : c'.inflight = c.inflight)
      (hpending : c'.steeringRebindPending = c.steeringRebindPending) :
      SubmitOutcome gcm c h args io (.done status c' (sends ++ [.submitFailed h status]))
  | launched (req : RClientReq) (gapUnits : UInt32) (c' : RClient)
      (built : Built gcm c h args io req)
      (hgap : rHaScheduleUnits c.policy.replayGap 0 false = .ok gapUnits)
      (hintime : io.roundMs < req.dedupDeadlineMs) (hpacket : req.packet ≠ [])
      (hudp : c.udpSend = true)
      (hinflight : c'.inflight = firstRound c req gapUnits :: c.inflight)
      (hpending : c'.steeringRebindPending = c.steeringRebindPending)
      (hsnapshot : req.targets = c'.membership.servers) :
      SubmitOutcome gcm c h args io
        (.done .ok c' (firstSends c req gapUnits io ++
          [.submitted h (firstRound c req gapUnits)]))

theorem launchRequest_outcome {gcm : Gcm} {c c' : RClient} {h : Handle} {args : SubmitArgs}
    {io : SubmitIo} {req : RClientReq} (hstatic : c'.static = c.static)
    (hinflight : c'.inflight = c.inflight)
    (hpending : c'.steeringRebindPending = c.steeringRebindPending)
    (built : Built gcm c h args io req) (hsnapshot : req.targets = c'.membership.servers) :
    SubmitOutcome gcm c h args io (launchRequest c' req io) := by
  have hhandle : req.handle = h := by
    rw [built.eq]
    rfl
  unfold launchRequest
  rcases rStartRound_cases c' req 0 io.roundMs io.udpSend with
    ⟨heq, -⟩ | ⟨rc, heq, hgap⟩ | ⟨gapUnits, hgap, -, hintime, heq⟩
  · -- too late for round zero
    rw [heq, hhandle]
    exact .rejected .errTimeout c' (by decide) hinflight hpending
  · obtain rfl := rHaScheduleUnits_error hgap
    rw [heq, hhandle]
    exact .rejected .errConfig c' (by decide) hinflight hpending
  · rw [heq, hhandle, policy_of_static hstatic]
    rw [policy_of_static hstatic] at hgap
    obtain ⟨n, hclient⟩ := rSendRateRequest_client c' (firstRound c req gapUnits) false false
      (.round 0) io.roundMs io.udpSend
    rcases rSendRateRequest_effects c' (firstRound c req gapUnits) false false
        (.round 0) io.roundMs io.udpSend with ⟨hnone, hwhy⟩ | ⟨hsends, hpacket, hudp, hstatus⟩
    · have hfail : (rSendRateRequest c' (firstRound c req gapUnits) false false (.round 0)
          io.roundMs io.udpSend).status ≠ .ok := by
        rcases hwhy with ⟨-, hstatus⟩ | ⟨-, hstatus⟩
        · rw [hstatus]
          decide
        · rw [hstatus]
          decide
      rw [show decide ((0 : UInt32) > 0) = false from rfl]
      simp only
      rw [if_neg hfail, hnone]
      exact .sendFailed req gapUnits _ [] _ built hfail (.inl rfl)
        (by rw [hclient]; exact hinflight) (by rw [hclient]; exact hpending)
    · rw [show decide ((0 : UInt32) > 0) = false from rfl]
      simp only
      rw [hsends]
      rcases hstatus with hok | hio
      · rw [if_pos hok]
        exact .launched req gapUnits _ built hgap hintime hpacket
          ((udpSend_of_static hstatic).symm.trans hudp)
          (by rw [hclient]; exact congrArg _ hinflight) (by rw [hclient]; exact hpending)
          (by rw [hclient]; exact hsnapshot)
      · have hfail : (rSendRateRequest c' (firstRound c req gapUnits) false false (.round 0)
            io.roundMs io.udpSend).status ≠ .ok := by
          rw [hio]
          decide
        rw [if_neg hfail]
        exact .sendFailed req gapUnits _ _ _ built hfail (.inr rfl)
          (by rw [hclient]; exact hinflight) (by rw [hclient]; exact hpending)

/-- **A submission does one of these.** -/
theorem rClientCheckRateLimitAsyncImpl_outcome (gcm : Gcm) (c : RClient) (h : Handle)
    (args : SubmitArgs) (io : SubmitIo) (hidentified : c.membership.Identified) :
    SubmitOutcome gcm c h args io (rClientCheckRateLimitAsyncImpl gcm c h args io) := by
  have hrefresh := Keeps.refresh c false io.refresh
  have hstaged := staged (buildRequest gcm · h args io) c args io
  unfold rClientCheckRateLimitAsyncImpl
  generalize stageSubmission (buildRequest gcm · h args io) c args io = stage at hstaged ⊢
  cases hstaged with
  | refused rc _ hrc =>
    refine .rejected rc c ?_ rfl rfl
    rcases hrc with rfl | rfl
    · decide
    · decide
  | empty => exact .emptied
  | unserved => exact .rejected .errDns _ (by decide) rfl rfl
  | unbuilt rc _ _ hbuild =>
    rcases buildRequest_cases gcm h args io (hrefresh.identified hidentified) with
      ⟨rc', heq, hrc⟩ | ⟨req, heq, -⟩
    · obtain rfl := Except.error.inj (hbuild.symm.trans heq)
      exact .rejected rc _ hrc.1 rfl rfl
    · cases hbuild.symm.trans heq
  | built req _ _ hbuild =>
    rcases buildRequest_cases gcm h args io (hrefresh.identified hidentified) with
      ⟨rc, heq, -⟩ | ⟨req', heq, ⟨built⟩, hsnapshot⟩
    · cases hbuild.symm.trans heq
    · obtain rfl := Except.ok.inj (hbuild.symm.trans heq)
      exact launchRequest_outcome hrefresh.static rfl rfl (built.ofStatic hrefresh.static) hsnapshot

end RlClient
