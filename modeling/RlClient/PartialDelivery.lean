import Mathlib.Data.Bool.Count
import RlClient.Attempts
import RlClient.Steering

/-!
# The counter of partial deliveries

A send that reaches some of its endpoints succeeds, and what it did not reach is only
seen in `send_failure_count`. The accounting is written twice in the source, for rate
requests and for latency reports; both are the same function of the outcomes of
`udp_send`. The counter of a run is the saturated sum over the sends of its calls.
-/

namespace RlClient

/-- `r_client_send_failure_count` for a client that is not null. -/
def rClientSendFailureCount (c : RClient) : UInt64 := c.sendFailureCount

/-! ### The outcomes of a send -/

/-- The outcome of a `udp_send` that counts: one of a round or of a report. -/
def Effect.outcome? : Effect → Option Bool
  | .udpSend _ .delivery _ _ _ _ _ => none
  | .udpSend _ _ _ _ _ _ ok => some ok
  | _ => none

def outcomes (effects : List Effect) : List Bool := effects.filterMap Effect.outcome?

/-- The endpoints that a send has missed, if it is to be counted. -/
def lost (outcomes : List Bool) : Nat := if true ∈ outcomes then outcomes.count false else 0

def AllFailed (outcomes : List Bool) : Prop := outcomes ≠ [] ∧ true ∉ outcomes

/-- The outcomes of a call are those of one pass over endpoints: one owner, one packet
    and each position at most once. -/
def OneSend (effects : List Effect) : Prop :=
  ∃ (owner : Option Handle) (pass : SendPass) (startedMs : UInt64) (packet : Bytes)
    (endpoints : List (Nat × RAddr × Bool)),
    effects.filter (fun e => e.outcome?.isSome) = endpoints.map (fun endpoint =>
      .udpSend owner pass startedMs endpoint.1 endpoint.2.1 packet endpoint.2.2) ∧
    (endpoints.map (·.1)).Pairwise (· < ·)

theorem outcomes_append (a b : List Effect) : outcomes (a ++ b) = outcomes a ++ outcomes b :=
  List.filterMap_append

theorem outcomes_quiet {effects : List Effect} (h : ∀ e ∈ effects, e.outcome? = none) :
    outcomes effects = [] := List.filterMap_eq_nil_iff.mpr h

theorem filter_quiet {effects : List Effect} (h : ∀ e ∈ effects, e.outcome? = none) :
    effects.filter (fun e => e.outcome?.isSome) = [] := by
  rw [List.filter_eq_nil_iff]
  intro e he
  rw [h e he]
  exact Bool.false_ne_true

theorem outcomes_around {before after : List Effect} (sends : List Effect)
    (hbefore : ∀ e ∈ before, e.outcome? = none) (hafter : ∀ e ∈ after, e.outcome? = none) :
    outcomes (before ++ sends ++ after) = outcomes sends := by
  rw [outcomes_append, outcomes_append, outcomes_quiet hbefore, outcomes_quiet hafter,
    List.nil_append, List.append_nil]

/-! ### What a call does to the counter -/

/-- From `c` to `c'` with these effects, the counter has grown by what was lost. A count of
    endpoints is a `size_t`. -/
structure Tallied (c c' : RClient) (effects : List Effect) : Prop where
  one : OneSend effects
  grows : c.sendFailureCount ≤ c'.sendFailureCount
  tally : (outcomes effects).length < 2 ^ 64 → c'.sendFailureCount.toNat =
    min (2 ^ 64 - 1) (c.sendFailureCount.toNat + lost (outcomes effects))

/-- The status of a call that sends is that of the send. -/
structure Told (status : RClientError) (effects : List Effect) : Prop where
  io_iff : status = .errIo ↔ AllFailed (outcomes effects)
  sent : outcomes effects ≠ [] → status = .ok ∨ status = .errIo

variable {c c' c'' : RClient} {effects : List Effect} {status : RClientError}

theorem not_allFailed_nil : ¬ AllFailed [] := fun h => h.1 rfl

theorem Told.quiet (hstatus : status ≠ .errIo) (hquiet : ∀ e ∈ effects, e.outcome? = none) :
    Told status effects := by
  have hnone := outcomes_quiet hquiet
  refine ⟨⟨fun hio => absurd hio hstatus, ?_⟩, fun hne => absurd hnone hne⟩
  rw [hnone]
  exact fun hfailed => absurd hfailed not_allFailed_nil

theorem Told.around {before after : List Effect} (h : Told status effects)
    (hbefore : ∀ e ∈ before, e.outcome? = none) (hafter : ∀ e ∈ after, e.outcome? = none) :
    Told status (before ++ effects ++ after) := by
  obtain ⟨hio, hsent⟩ := h
  rw [← outcomes_around effects hbefore hafter] at hio hsent
  exact ⟨hio, hsent⟩

theorem Tallied.quiet (hcount : c'.sendFailureCount = c.sendFailureCount)
    (hquiet : ∀ e ∈ effects, e.outcome? = none) : Tallied c c' effects := by
  refine ⟨⟨none, .report, 0, [], [], filter_quiet hquiet, List.Pairwise.nil⟩, ?_, ?_⟩
  · rw [hcount]
    exact UInt64.le_refl _
  · intro _
    have hlt := c.sendFailureCount.toNat_lt
    rw [outcomes_quiet hquiet, hcount]
    change _ = min (2 ^ 64 - 1) (c.sendFailureCount.toNat + 0)
    omega

theorem Tallied.around {before after : List Effect} (h : Tallied c c' effects)
    (hcount : c''.sendFailureCount = c'.sendFailureCount)
    (hbefore : ∀ e ∈ before, e.outcome? = none) (hafter : ∀ e ∈ after, e.outcome? = none) :
    Tallied c c'' (before ++ effects ++ after) := by
  obtain ⟨⟨owner, pass, startedMs, packet, endpoints, hfilter, hincreasing⟩, hgrows, htally⟩ := h
  refine ⟨⟨owner, pass, startedMs, packet, endpoints, ?_, hincreasing⟩, ?_, ?_⟩
  · rw [List.filter_append, List.filter_append, filter_quiet hbefore, filter_quiet hafter, hfilter,
      List.nil_append, List.append_nil]
  · rw [hcount]
    exact hgrows
  · rw [outcomes_around effects hbefore hafter, hcount]
    exact htally

/-- The counter before the call may be read from any client that has the same. -/
theorem Tallied.from (h : Tallied c c' effects)
    (hcount : c.sendFailureCount = c''.sendFailureCount) : Tallied c'' c' effects := by
  obtain ⟨hone, hgrows, htally⟩ := h
  rw [hcount] at hgrows htally
  exact ⟨hone, hgrows, htally⟩

/-- What a reply says of the sends of its call, in its counter and in its status. -/
structure Accounted (c : RClient) (reply : Reply) : Prop where
  tallied : Tallied c reply.client reply.effects
  told : Told reply.status reply.effects

theorem quiet_nil : ∀ e ∈ ([] : List Effect), e.outcome? = none :=
  fun _ he => absurd he List.not_mem_nil

theorem quiet_singleton {e : Effect} (he : e.outcome? = none) : ∀ e' ∈ [e], e'.outcome? = none := by
  intro e' hmem
  rw [List.mem_singleton.mp hmem]
  exact he

theorem Accounted.quiet (hcount : c'.sendFailureCount = c.sendFailureCount)
    (hstatus : status ≠ .errIo) (hquiet : ∀ e ∈ effects, e.outcome? = none) :
    Accounted c (.done status c' effects) :=
  ⟨Tallied.quiet hcount hquiet, Told.quiet hstatus hquiet⟩

/-- A call that returns with one more effect behind its send. -/
theorem Accounted.followed {reply : Reply} (h : Accounted c reply)
    (hcount : c'.sendFailureCount = reply.client.sendFailureCount) (e : Effect)
    (he : e.outcome? = none) : Accounted c (.done reply.status c' (reply.effects ++ [e])) :=
  ⟨h.tallied.around hcount quiet_nil (quiet_singleton he),
    h.told.around quiet_nil (quiet_singleton he)⟩

theorem Accounted.from {reply : Reply} (h : Accounted c reply)
    (hcount : c.sendFailureCount = c''.sendFailureCount) : Accounted c'' reply :=
  ⟨h.tallied.from hcount, h.told⟩

/-! ### The accounting -/

theorem toNat_rRecordSendFailures (c : RClient) (failures : UInt64) :
    (rRecordSendFailures c failures).sendFailureCount.toNat =
      min (2 ^ 64 - 1) (c.sendFailureCount.toNat + failures.toNat) := by
  have hcount := c.sendFailureCount.toNat_lt
  have hfailures := failures.toNat_lt
  have hmax : (UINT64_MAX - failures).toNat = 2 ^ 64 - 1 - failures.toNat :=
    UInt64.toNat_sub_of_le _ _ (UInt64.le_iff_toNat_le.mpr (Nat.le_of_lt_succ hfailures))
  unfold rRecordSendFailures
  split
  · rename_i hzero
    rw [hzero, UInt64.toNat_zero]
    omega
  · split
    · rename_i hfull
      have hlt := UInt64.lt_iff_toNat_lt.mp hfull
      rw [hmax] at hlt
      change 2 ^ 64 - 1 = _
      omega
    · rename_i hroom
      have hle := UInt64.le_iff_toNat_le.mp (UInt64.not_lt.mp hroom)
      rw [hmax] at hle
      change (c.sendFailureCount + failures).toNat = _
      rw [UInt64.toNat_add]
      omega

/-- The end of both send loops. -/
def accountSends (c : RClient) (attempted delivered : Nat) (effects : List Effect) : Reply :=
  if attempted > 0 && delivered = 0 then .done .errIo c effects
  else if delivered > 0 && delivered < attempted then
    .done .ok (rRecordSendFailures c (UInt64.ofNat (attempted - delivered))) effects
  else .done .ok c effects

theorem accountSends_spec (c : RClient) (effects : List Effect) (hone : OneSend effects) :
    Accounted c (accountSends c (outcomes effects).length ((outcomes effects).count true)
      effects) := by
  let results := outcomes effects
  have hlength : results.count true + results.count false = results.length :=
    List.count_true_add_count_false results
  have hmem : true ∈ results ↔ 0 < results.count true := List.count_pos_iff.symm
  have hnil : results ≠ [] ↔ 0 < results.length := List.length_pos_iff.symm
  have hfailed : AllFailed results ↔ 0 < results.length ∧ results.count true = 0 := by
    unfold AllFailed
    rw [hmem, hnil]
    omega
  have hlost : lost results = if 0 < results.count true then results.count false else 0 := by
    unfold lost
    rw [if_congr hmem rfl rfl]
  have hbound := c.sendFailureCount.toNat_lt
  change Accounted c (accountSends c results.length (results.count true) effects)
  unfold accountSends
  by_cases hnone : 0 < results.length ∧ results.count true = 0
  · rw [if_pos (by simpa using hnone)]
    refine ⟨⟨hone, UInt64.le_refl _, fun _ => ?_⟩, ⟨⟨fun _ => hfailed.mpr hnone, fun _ => rfl⟩,
      fun _ => .inr rfl⟩⟩
    change c.sendFailureCount.toNat = min _ (_ + lost results)
    rw [hlost, if_neg (by omega)]
    omega
  rw [if_neg (by simpa using hnone)]
  have htold : Told .ok effects := by
    refine ⟨⟨fun hio => absurd hio (by decide), fun hall => ?_⟩, fun _ => .inl rfl⟩
    exact absurd (hfailed.mp hall) hnone
  by_cases hpart : 0 < results.count true ∧ results.count true < results.length
  · rw [if_pos (by simpa using hpart)]
    have hmiss : results.length - results.count true = results.count false := by omega
    have hcount := toNat_rRecordSendFailures c (UInt64.ofNat (results.length - results.count true))
    refine ⟨⟨hone, ?_, fun hsize => ?_⟩, htold⟩
    · change c.sendFailureCount ≤ (rRecordSendFailures c _).sendFailureCount
      rw [UInt64.le_iff_toNat_le, hcount]
      omega
    · change (rRecordSendFailures c _).sendFailureCount.toNat = min _ (_ + lost results)
      have hfits : results.count false < 2 ^ 64 := by
        change results.length < 2 ^ 64 at hsize
        omega
      rw [hcount, hlost, if_pos hpart.1, hmiss, UInt64.toNat_ofNat_of_lt' hfits]
  · rw [if_neg (by simpa using hpart)]
    refine ⟨⟨hone, UInt64.le_refl _, fun _ => ?_⟩, htold⟩
    change c.sendFailureCount.toNat = min _ (_ + lost results)
    rw [hlost]
    split
    · omega
    · omega

/-! ### The two send loops -/

theorem outcome_of_pass {pass : SendPass} (hpass : pass ≠ .delivery) (owner : Option Handle)
    (startedMs : UInt64) (i : Nat) (addr : RAddr) (packet : Bytes) (ok : Bool) :
    (Effect.udpSend owner pass startedMs i addr packet ok).outcome? = some ok := by
  cases pass with
  | delivery => exact absurd rfl hpass
  | round round => rfl
  | report => rfl

section Loop

variable {targets : List (RServerEndpoint × Nat)} {pass : SendPass}

def sendLoop (targets : List (RServerEndpoint × Nat)) (owner : Option Handle) (pass : SendPass)
    (startedMs : UInt64) (packet : Bytes) (udpSend : Nat → Bool) : List Effect :=
  targets.map fun target =>
    .udpSend owner pass startedMs target.2 target.1.addr packet (udpSend target.2)

theorem outcomes_sendLoop (hpass : pass ≠ .delivery) (owner : Option Handle) (startedMs : UInt64)
    (packet : Bytes) (udpSend : Nat → Bool) :
    outcomes (sendLoop targets owner pass startedMs packet udpSend) =
      targets.map fun target => udpSend target.2 := by
  unfold outcomes sendLoop
  rw [List.filterMap_map, ← List.filterMap_eq_map]
  apply List.filterMap_congr
  intro target _
  exact outcome_of_pass hpass _ _ _ _ _ _

theorem oneSend_sendLoop (hpass : pass ≠ .delivery)
    (hincreasing : (targets.map (·.2)).Pairwise (· < ·)) (owner : Option Handle)
    (startedMs : UInt64) (packet : Bytes) (udpSend : Nat → Bool) :
    OneSend (sendLoop targets owner pass startedMs packet udpSend) := by
  refine ⟨owner, pass, startedMs, packet,
    targets.map fun target => (target.2, target.1.addr, udpSend target.2), ?_, ?_⟩
  · rw [List.map_map]
    apply List.filter_eq_self.mpr
    intro e he
    obtain ⟨target, -, rfl⟩ := List.mem_map.mp he
    rw [outcome_of_pass hpass]
    rfl
  · rw [List.map_map]
    exact hincreasing

theorem accountSends_sendLoop (hpass : pass ≠ .delivery)
    (hincreasing : (targets.map (·.2)).Pairwise (· < ·)) (c : RClient) (owner : Option Handle)
    (startedMs : UInt64) (packet : Bytes) (udpSend : Nat → Bool) :
    Accounted c (accountSends c targets.length (targets.countP fun target => udpSend target.2)
      (sendLoop targets owner pass startedMs packet udpSend)) := by
  have hspec := accountSends_spec c _
    (oneSend_sendLoop hpass hincreasing owner startedMs packet udpSend)
  have hcount : (targets.map fun target => udpSend target.2).count true =
      targets.countP fun target => udpSend target.2 := by
    rw [List.count, List.countP_map]
    apply List.countP_congr
    intro target _
    simp
  rw [outcomes_sendLoop hpass, List.length_map, hcount] at hspec
  exact hspec

end Loop

theorem zipIdx_increasing {α : Type} (l : List α) :
    (l.zipIdx.map (·.2)).Pairwise (· < ·) := by
  rw [List.zipIdx_map_snd, ← List.range_eq_range']
  exact List.pairwise_lt_range

theorem attemptedTargets_increasing (req : RClientReq) (missingOnly : Bool) :
    ((attemptedTargets req missingOnly).map (·.2)).Pairwise (· < ·) :=
  (zipIdx_increasing req.targets).sublist (List.filter_sublist.map _)

theorem rSendRateRequest_accounted (hudp : c.udpSend = true) (req : RClientReq)
    (missingOnly : Bool) (round : UInt32) (startedMs : UInt64) (udpSend : Nat → Bool) :
    Accounted c
      (rSendRateRequest c req missingOnly false (.round round) startedMs udpSend) := by
  unfold rSendRateRequest
  split
  · exact .quiet rfl (by decide) quiet_nil
  · rw [hudp]
    exact accountSends_sendLoop (by simp) (attemptedTargets_increasing req missingOnly) c
      (some req.handle) startedMs req.packet udpSend

theorem sendReport_accounted (c : RClient) (packet : Bytes) (io : ReportIo) :
    Accounted c (sendReport c packet io) :=
  accountSends_sendLoop (by simp) (zipIdx_increasing c.membership.servers) c none io.stampMs packet
    io.udpSend

theorem rStartRound_accounted (hudp : c.udpSend = true) (req : RClientReq) (round : UInt32)
    (nowMs : UInt64) (udpSend : Nat → Bool) :
    Accounted c (rStartRound c req round nowMs udpSend).2 := by
  rcases rStartRound_cases c req round nowMs udpSend with
    ⟨heq, -⟩ | ⟨rc, heq, hgap⟩ | ⟨gapUnits, -, -, -, heq⟩
  · rw [heq]
    exact .quiet rfl (by decide) quiet_nil
  · rw [heq, rHaScheduleUnits_error hgap]
    exact .quiet rfl (by decide) quiet_nil
  · rw [heq]
    exact rSendRateRequest_accounted hudp _ _ _ _ _

/-! ### The entry points -/

theorem launchRequest_accounted (hudp : c.udpSend = true) (req : RClientReq) (io : SubmitIo) :
    Accounted c (launchRequest c req io) := by
  have hstarted := rStartRound_accounted hudp req 0 io.roundMs io.udpSend
  unfold launchRequest
  simp only
  split
  · rename_i hok
    rw [← hok]
    apply hstarted.followed
    · rfl
    · rfl
  · apply hstarted.followed
    · rfl
    · rfl

theorem completeEmpty_quiet (c : RClient) : ∀ e ∈ (completeEmpty c).effects, e.outcome? = none := by
  intro e he
  unfold completeEmpty at he
  simp only at he
  rcases List.mem_append.mp he with he | he
  · split at he
    · rw [List.mem_singleton.mp he]
      rfl
    · cases he
  · rw [List.mem_singleton.mp he]
    rfl

theorem rClientCheckRateLimitAsyncImpl_accounted (hudp : c.udpSend = true)
    (hidentified : c.membership.Identified) (gcm : Gcm) (h : Handle) (args : SubmitArgs)
    (io : SubmitIo) : Accounted c (rClientCheckRateLimitAsyncImpl gcm c h args io) := by
  have hidentified' := (Keeps.refresh c false io.refresh).identified hidentified
  have hstaged := staged (buildRequest gcm · h args io) c args io
  unfold rClientCheckRateLimitAsyncImpl
  generalize stageSubmission (buildRequest gcm · h args io) c args io = stage at hstaged ⊢
  cases hstaged with
  | refused rc _ hrc =>
    refine .quiet rfl ?_ (quiet_singleton rfl)
    rcases hrc with rfl | rfl
    · decide
    · decide
  | empty =>
    exact ⟨Tallied.quiet rfl (completeEmpty_quiet c),
      Told.quiet (RClientError.noConfusion) (completeEmpty_quiet c)⟩
  | unserved => exact .quiet rfl (by decide) (quiet_singleton rfl)
  | unbuilt rc _ _ hbuild =>
    rcases buildRequest_cases gcm h args io hidentified' with ⟨rc', heq, hrc⟩ | ⟨req, heq, -⟩
    · obtain rfl := Except.error.inj (hbuild.symm.trans heq)
      exact .quiet rfl hrc.2 (quiet_singleton rfl)
    · cases hbuild.symm.trans heq
  | built req =>
    exact (launchRequest_accounted (c := c.refreshed false io.refresh) hudp req io).from rfl

theorem latencyReportPdu_error {reports : List RServiceLatencyReport} {rc : RClientError}
    (h : latencyReportPdu reports = .error rc) : rc = .errProtocol := by
  unfold latencyReportPdu rBuildLatencyReportBody at h
  split at h
  · rename_i rc' hbody
    obtain rfl := Except.error.inj h
    split at hbody
    · exact (Except.error.inj hbody).symm
    split at hbody
    · exact (Except.error.inj hbody).symm
    · cases hbody
  · exact buildPdu_error h

theorem reportPacket_error {gcm : Gcm} {reports : List RServiceLatencyReport} {io : ReportIo}
    {rc : RClientError} (h : reportPacket gcm c reports io = .error rc) : rc.Refuses := by
  unfold reportPacket at h
  split at h
  · rename_i hpdu
    obtain rfl := Except.error.inj h
    rw [latencyReportPdu_error hpdu]
    decide
  · split at h
    · rename_i hid
      obtain rfl := Except.error.inj h
      rw [rGenerateRequestId_error hid]
      decide
    · exact framePdu_error h

theorem rClientReportLatency_accounted (hudp : c.udpSend = true) (gcm : Gcm)
    (reports : CArray RServiceLatencyReport) (io : ReportIo) :
    Accounted c (rClientReportLatency gcm c reports io) := by
  unfold rClientReportLatency
  split
  · exact .quiet rfl (by decide) quiet_nil
  rw [hudp]
  simp only [Bool.not_true, Bool.false_eq_true, if_false]
  split
  · exact .quiet rfl (by decide) quiet_nil
  split
  · rename_i rc hpacket
    exact .quiet rfl (reportPacket_error hpacket).2 quiet_nil
  · exact (sendReport_accounted _ _ io).from rfl

/-! ### Completion, datagrams and timers -/

theorem rCompletionDelivery_quiet (c : RClient) (req : RClientReq) (io : CompleteIo) :
    ∀ e ∈ rCompletionDelivery c req io, e.outcome? = none := by
  intro e he
  rcases rCompletionDelivery_cases c req io with hnone | ⟨-, -, hsends⟩
  · rw [hnone] at he
    cases he
  · rw [hsends] at he
    obtain ⟨target, -, rfl⟩ := List.mem_map.mp he
    rfl

section Complete

variable (req : RClientReq) (selected : Option RRateLimitResult) (io : CompleteIo)
  {before : List Effect}

/-- What a completion adds behind the effects of its call: nothing that counts, and one
    callback. -/
theorem complete_tail (c : RClient) (status : RClientError) (before : List Effect) :
    ∃ tail : List Effect, (Reply.complete c req status selected io before).effects =
        before ++ tail ∧ (∀ e ∈ tail, e.outcome? = none) ∧
      ∀ owner status' result, .callback owner status' result ∈ tail ↔
        owner = some req.handle ∧ status' = status ∧ result = selected := by
  obtain ⟨observed, hobserved, heq⟩ := complete_effects c req status selected io before
  have hdelivery : ∀ e ∈ (if status = .ok && selected.isSome then rCompletionDelivery c req io
      else []), e.outcome? = none ∧ e.isSend = true := by
    intro e he
    split at he
    · exact ⟨rCompletionDelivery_quiet c req io e he, rCompletionDelivery_isSend e he⟩
    · cases he
  refine ⟨_, heq, ?_, ?_⟩
  · intro e he
    rcases List.mem_append.mp he with he | he
    · rcases List.mem_append.mp he with he | he
      · obtain ⟨p, rfl⟩ := hobserved e he
        rfl
      · exact (hdelivery e he).1
    · rw [List.mem_singleton.mp he]
      rfl
  · intro owner status' result
    constructor
    · intro he
      rcases List.mem_append.mp he with he | he
      · rcases List.mem_append.mp he with he | he
        · obtain ⟨p, hp⟩ := hobserved _ he
          cases hp
        · cases (hdelivery _ he).2
      · obtain ⟨rfl, rfl, rfl⟩ := Effect.callback.inj (List.mem_singleton.mp he)
        exact ⟨rfl, rfl, rfl⟩
    · rintro ⟨rfl, rfl, rfl⟩
      exact List.mem_append_right _ (List.mem_singleton.mpr rfl)

theorem Tallied.complete (h : Tallied c c' before)
    (hcount : c''.sendFailureCount = c'.sendFailureCount) (status : RClientError) :
    Tallied c (Reply.complete c'' req status selected io before).client
      (Reply.complete c'' req status selected io before).effects := by
  obtain ⟨tail, heq, hquiet, -⟩ := complete_tail req selected io c'' status before
  rw [heq]
  refine h.around ?_ quiet_nil hquiet
  exact hcount

end Complete

theorem acceptResponse_tallied (c : RClient) (req : RClientReq) (response : RResponse)
    (sender : RAddr) (io : DatagramIo) :
    Tallied c (acceptResponse c req response sender io).client
      (acceptResponse c req response sender io).effects := by
  have hquiet : ∀ e ∈ [Effect.accepted req.handle response], e.outcome? = none :=
    quiet_singleton rfl
  unfold acceptResponse
  simp only
  split
  · have hbase : Tallied c c [Effect.accepted req.handle response] := Tallied.quiet rfl hquiet
    refine hbase.complete _ _ _ ?_ _
    rfl
  · exact Tallied.quiet rfl hquiet

theorem rClientOnDatagram_tallied (gcm : Gcm) (c : RClient) (buf : Bytes) (sender : RAddr)
    (io : DatagramIo) :
    Tallied c (rClientOnDatagram gcm c buf sender io).client
      (rClientOnDatagram gcm c buf sender io).effects := by
  unfold rClientOnDatagram
  split
  · exact Tallied.quiet rfl quiet_nil
  · exact acceptResponse_tallied c _ _ sender io

/-- How a timer tells of a replay: by the status of the callback it ends in, if any. -/
structure CalledBack (h : Handle) (effects : List Effect) : Prop where
  io_iff : (∃ result, .callback (some h) .errIo result ∈ effects) ↔ AllFailed (outcomes effects)
  sent : outcomes effects ≠ [] → ¬ AllFailed (outcomes effects) →
    ∀ owner status result, .callback owner status result ∉ effects

theorem CalledBack.none {h : Handle}
    (hcalls : ∀ owner status result, .callback owner status result ∉ effects)
    (hfailed : ¬ AllFailed (outcomes effects)) : CalledBack h effects :=
  ⟨⟨fun ⟨result, hmem⟩ => absurd hmem (hcalls _ _ result), fun hall => absurd hall hfailed⟩,
    fun _ _ => hcalls⟩

/-- A call that ends in a callback with the status of its send, or without a send. -/
theorem CalledBack.complete {req : RClientReq} {before : List Effect}
    (hbefore : ∀ owner status result, .callback owner status result ∉ before)
    (hstatus : status = .errIo ↔ AllFailed (outcomes before))
    (hsent : outcomes before ≠ [] → AllFailed (outcomes before)) (c : RClient)
    (selected : Option RRateLimitResult) (io : CompleteIo) :
    CalledBack req.handle (Reply.complete c req status selected io before).effects := by
  obtain ⟨tail, heq, hquiet, hcalls⟩ := complete_tail req selected io c status before
  have houtcomes : outcomes (before ++ tail) = outcomes before := by
    rw [outcomes_append, outcomes_quiet hquiet, List.append_nil]
  rw [heq]
  refine ⟨?_, ?_⟩
  · rw [houtcomes, ← hstatus]
    constructor
    · rintro ⟨result, hmem⟩
      rcases List.mem_append.mp hmem with hmem | hmem
      · exact absurd hmem (hbefore _ _ result)
      · exact ((hcalls _ _ result).mp hmem).2.1.symm
    · intro hio
      exact ⟨selected, List.mem_append_right _ ((hcalls _ _ _).mpr ⟨rfl, hio.symm, rfl⟩)⟩
  · rw [houtcomes]
    exact fun hne hnot => absurd (hsent hne) hnot

theorem rStartRound_isSend (c : RClient) (req : RClientReq) (round : UInt32) (nowMs : UInt64)
    (udpSend : Nat → Bool) :
    ∀ e ∈ (rStartRound c req round nowMs udpSend).2.effects, e.isSend = true := by
  intro e he
  rcases rStartRound_cases c req round nowMs udpSend with
    ⟨heq, -⟩ | ⟨rc, heq, -⟩ | ⟨gapUnits, -, -, -, heq⟩
  · rw [heq] at he
    cases he
  · rw [heq] at he
    cases he
  · rw [heq] at he
    rcases rSendRateRequest_effects c (enterRound c.policy req round gapUnits) (round > 0) false
        (.round round) nowMs udpSend with ⟨hnone, -⟩ | ⟨hsends, -⟩
    · rw [hnone] at he
      cases he
    · rw [hsends] at he
      exact sendEffects_isSend e he

theorem replayRound_accounted (hudp : c.udpSend = true) (req : RClientReq) (io : TimeoutIo)
    {before : List Effect} (hquiet : ∀ e ∈ before, e.outcome? = none)
    (hcalls : ∀ owner status result, .callback owner status result ∉ before) :
    Tallied c (replayRound c req io before).client (replayRound c req io before).effects ∧
      CalledBack req.handle (replayRound c req io before).effects := by
  have hround := rStartRound_accounted hudp req (req.haRound + 1) io.roundMs io.udpSend
  have hsends := rStartRound_isSend c req (req.haRound + 1) io.roundMs io.udpSend
  have hhandle := rStartRound_handle c req (req.haRound + 1) io.roundMs io.udpSend
  unfold replayRound
  simp only
  generalize rStartRound c req (req.haRound + 1) io.roundMs io.udpSend = started at *
  have houtcomes : outcomes (before ++ started.2.effects) = outcomes started.2.effects := by
    rw [outcomes_append, outcomes_quiet hquiet, List.nil_append]
  have hnone : ∀ owner status result,
      .callback owner status result ∉ before ++ started.2.effects := by
    intro owner status result hmem
    rcases List.mem_append.mp hmem with hmem | hmem
    · exact hcalls _ _ _ hmem
    · cases hsends _ hmem
  have htallied : Tallied c started.2.client (before ++ started.2.effects) := by
    have haround := hround.tallied.around rfl hquiet quiet_nil
    rw [List.append_nil] at haround
    exact haround
  obtain ⟨hio, hsent⟩ := hround.told
  rw [← houtcomes] at hio hsent
  split
  · rename_i hok
    refine ⟨⟨htallied.one, htallied.grows, htallied.tally⟩, .none hnone ?_⟩
    intro hall
    exact absurd (hok.symm.trans (hio.mpr hall)) (by decide)
  · rename_i hfail
    refine ⟨htallied.complete _ _ _ ?_ _, ?_⟩
    · rfl
    rw [← hhandle]
    refine .complete hnone hio (fun hne => ?_) _ _ _
    rcases hsent hne with hok | hio'
    · exact absurd hok hfail
    · exact hio.mp hio'

theorem rClientOnTimeout_accounted (hudp : c.udpSend = true) (req : RClientReq) (nowMs : UInt64)
    (io : TimeoutIo) :
    Tallied c (rClientOnTimeout c req nowMs io).client (rClientOnTimeout c req nowMs io).effects ∧
      CalledBack req.handle (rClientOnTimeout c req nowMs io).effects := by
  let called := [Effect.timer req.handle nowMs req.attemptDeadlineMs]
  have hquiet : ∀ e ∈ called, e.outcome? = none := quiet_singleton rfl
  have houtcomes : outcomes called = [] := outcomes_quiet hquiet
  have hcalls : ∀ owner status result, Effect.callback owner status result ∉ called := by
    intro owner status result hmem
    cases List.mem_singleton.mp hmem
  -- the timer only re-arms
  have hdone : ∀ (status : RClientError) (c' : RClient), c'.sendFailureCount = c.sendFailureCount →
      Tallied c (Reply.done status c' called).client (Reply.done status c' called).effects ∧
        CalledBack req.handle (Reply.done status c' called).effects := by
    intro status c' hcount
    refine ⟨Tallied.quiet hcount hquiet, .none hcalls ?_⟩
    change ¬ AllFailed (outcomes called)
    rw [houtcomes]
    exact not_allFailed_nil
  -- the timer ends the request without a send
  have hcomplete : ∀ (status : RClientError) (selected : Option RRateLimitResult),
      status ≠ .errIo →
      Tallied c (Reply.complete c req status selected io.complete called).client
          (Reply.complete c req status selected io.complete called).effects ∧
        CalledBack req.handle
          (Reply.complete c req status selected io.complete called).effects := by
    intro status selected hstatus
    refine ⟨(Tallied.quiet rfl hquiet).complete _ _ _ rfl _, .complete hcalls ?_ ?_ _ _ _⟩
    · rw [houtcomes]
      exact ⟨fun hio => absurd hio hstatus, fun hall => absurd hall not_allFailed_nil⟩
    · exact fun hne => absurd houtcomes hne
  unfold rClientOnTimeout
  simp only
  split
  · exact hdone _ _ rfl
  unfold rRequestPolicyOnTimeout
  split
  · split
    · exact hcomplete _ _ (by decide)
    · exact hdone _ _ rfl
  · split
    · exact hdone _ _ rfl
    split
    · split
      · exact replayRound_accounted hudp req io hquiet hcalls
      · split
        · rename_i rc hfinal
          exact hcomplete rc _ (by rw [(rEnterFinal_error hfinal).1]; decide)
        · exact hdone _ _ rfl
    · exact hcomplete _ _ (by decide)

/-! ### Whole runs -/

theorem rNotifySteeringWhenDrained_tallied (c : RClient) :
    Tallied c (rNotifySteeringWhenDrained c).1 (rNotifySteeringWhenDrained c).2 := by
  rcases rNotifySteeringWhenDrained_cases c with
    ⟨-, heq⟩ | ⟨-, -, -, heq⟩ | ⟨-, -, heq⟩
  · rw [heq]
    exact Tallied.quiet rfl quiet_nil
  · rw [heq]
    refine Tallied.quiet rfl ?_
    intro e he
    rcases List.mem_cons.mp he with rfl | he
    · rfl
    · exact quiet_singleton rfl e he
  · rw [heq]
    exact Tallied.quiet rfl (quiet_singleton rfl)

theorem rClientCancelRequest_tallied (c : RClient) (h : Handle) :
    Tallied c (rClientCancelRequest c h).1 (rClientCancelRequest c h).2 := by
  unfold rClientCancelRequest
  split
  · have hnotified := rNotifySteeringWhenDrained_tallied (rRequestRemove c h)
    have haround := hnotified.around rfl (quiet_singleton (e := .cancelled h) rfl) quiet_nil
    rw [List.append_nil] at haround
    exact haround.from rfl
  · exact Tallied.quiet rfl quiet_nil

theorem step_tallied {gcm : Gcm} {m m' : Machine} {call : Call} {out : List Effect}
    (hwf : m.Wf c) (hudp : c.udpSend = true) (hstep : step gcm m call = some (m', out)) :
    Tallied m.client m'.client out := by
  have hudp : m.client.udpSend = true := (udpSend_of_static hwf.static).trans hudp
  cases stepped_of_step hstep with
  | submit args io =>
    exact (rClientCheckRateLimitAsyncImpl_accounted hudp hwf.identified gcm _ args io).tallied
  | report reports io => exact (rClientReportLatency_accounted hudp gcm reports io).tallied
  | datagram buf sender io => exact rClientOnDatagram_tallied gcm m.client buf sender io
  | timeout h nowMs io req => exact (rClientOnTimeout_accounted hudp req nowMs io).1
  | cancel h => exact rClientCancelRequest_tallied m.client h
  | callbackReturn frame =>
    cases frame with
    | completing req => exact rNotifySteeringWhenDrained_tallied m.client
    | emptyRequest => exact Tallied.quiet rfl quiet_nil
  | refreshFinish => exact Tallied.quiet rfl quiet_nil

theorem rClientCreate_count {args : CreateArgs} (hcreate : rClientCreate args = .ok c) :
    c.sendFailureCount = 0 ∧ c.udpSend = args.udpSend := by
  unfold rClientCreate at hcreate
  split at hcreate
  · cases hcreate
  · obtain rfl := Except.ok.inj hcreate
    exact ⟨rfl, rfl⟩

theorem run_tallied {gcm : Gcm} {args : CreateArgs} (hcreate : rClientCreate args = .ok c)
    (hudp : args.udpSend = true) {calls : List Call} {m : Machine} {outs : List (List Effect)}
    (hrun : Run.exec (Run.whole (step gcm)) (.init c) calls = some (m, outs)) :
    (m.Wf c ∧ ∀ out ∈ outs, OneSend out) ∧
      ((∀ out ∈ outs, (outcomes out).length < 2 ^ 64) → m.client.sendFailureCount.toNat =
        min (2 ^ 64 - 1) (outs.map fun out => lost (outcomes out)).sum) := by
  obtain ⟨hzero, hsame⟩ := rClientCreate_count hcreate
  refine Run.exec_induction (P := fun _ m outs => (m.Wf c ∧ ∀ out ∈ outs, OneSend out) ∧
    ((∀ out ∈ outs, (outcomes out).length < 2 ^ 64) → m.client.sendFailureCount.toNat =
      min (2 ^ 64 - 1) (outs.map fun out => lost (outcomes out)).sum)) ?_ ?_ hrun
  · refine ⟨⟨init_wf hcreate, by simp⟩, fun _ => ?_⟩
    change c.sendFailureCount.toNat = _
    rw [hzero]
    rfl
  · intro _ m outs call m' next _ ⟨⟨hwf, hone⟩, hcount⟩ hwhole
    obtain ⟨out, hstep, rfl⟩ := Run.whole_eq_some.mp hwhole
    have htallied := step_tallied hwf (hsame.trans hudp) hstep
    refine ⟨⟨(step_wf_life hwf hstep).1, ?_⟩, ?_⟩
    · intro out' hmem
      rcases List.mem_append.mp hmem with hmem | hmem
      · exact hone out' hmem
      · rw [List.mem_singleton.mp hmem]
        exact htallied.one
    · intro hsize
      have hbefore := hcount fun out' hmem => hsize out' (List.mem_append_left _ hmem)
      have hlast := hsize out (List.mem_append_right _ (List.mem_singleton_self _))
      have hafter := htallied.tally hlast
      rw [List.map_append, List.sum_append, List.map_singleton, List.sum_singleton, hafter, hbefore]
      omega

/-- **The counter is what partial sends have missed.** Let `outs` be the effects of a run, call by
    call. For a client with a transport, however its calls and its sends turn out, every call makes
    at most one send that counts. `send_failure_count` is the sum over the calls of what a send
    with some success has missed, up to the largest number it can hold, and no step lowers it. A
    submission or a report returns `RCLIENT_ERR_IO`, and a timer calls back with it, exactly when
    endpoints were attempted and all failed; a send with some success returns no error. The array
    of endpoints of a send has fewer than `2 ^ 64` of them, since its length is a `size_t`. -/
theorem partial_delivery_counted {gcm : Gcm} {args : CreateArgs} {c : RClient}
    (hcreate : rClientCreate args = .ok c) (hudp : args.udpSend = true) {calls : List Call}
    {m : Machine} {outs : List (List Effect)}
    (hrun : Run.exec (Run.whole (step gcm)) (.init c) calls = some (m, outs))
    (hsize : ∀ out ∈ outs, (outcomes out).length < 2 ^ 64) :
    run gcm c calls = some (m, outs.flatten) ∧
    (rClientSendFailureCount m.client).toNat =
      min (2 ^ 64 - 1) (outs.map fun out => lost (outcomes out)).sum ∧
    (∀ out ∈ outs, OneSend out) ∧
    (∀ call m' out, step gcm m call = some (m', out) →
      rClientSendFailureCount m.client ≤ rClientSendFailureCount m'.client) ∧
    (∀ args io, Told (rClientCheckRateLimitAsyncImpl gcm m.client m.nextHandle args io).status
      (rClientCheckRateLimitAsyncImpl gcm m.client m.nextHandle args io).effects) ∧
    (∀ reports io, Told (rClientReportLatency gcm m.client reports io).status
      (rClientReportLatency gcm m.client reports io).effects) ∧
    ∀ h nowMs io m' out, step gcm m (.timeout h nowMs io) = some (m', out) → CalledBack h out := by
  obtain ⟨⟨hwf, hone⟩, hcount⟩ := run_tallied hcreate hudp hrun
  have hudp : c.udpSend = true := (rClientCreate_count hcreate).2.trans hudp
  have hclient : m.client.udpSend = true := (udpSend_of_static hwf.static).trans hudp
  refine ⟨Run.exec_of_whole hrun, hcount hsize, hone, ?_, ?_, ?_, ?_⟩
  · exact fun call m' out hstep => (step_tallied hwf hudp hstep).grows
  · exact fun args io =>
      (rClientCheckRateLimitAsyncImpl_accounted hclient hwf.identified gcm _ args io).told
  · exact fun reports io => (rClientReportLatency_accounted hclient gcm reports io).told
  · intro h nowMs io m' out hstep
    cases stepped_of_step hstep with
    | timeout _ _ _ req _ hreq =>
      have hhandle : req.handle = h := by
        have hfound := List.find?_some hreq
        exact beq_iff_eq.mp hfound
      rw [← hhandle]
      exact (rClientOnTimeout_accounted hclient req nowMs io).2

def Call.withSends (udpSend : Nat → Bool) : Call → Call
  | .submit args io => .submit args { io with udpSend := udpSend }
  | .timeout h nowMs io => .timeout h nowMs { io with udpSend := udpSend }
  | call => call

def partialCalls : List Call :=
  [(sampleSubmit 1 100).withSends (· == 0), (sampleTimeout 0 120).withSends fun _ => false]

theorem partial_delivery_counted_replay :
    ∃ m outs, Run.exec (Run.whole (step noGcm)) (.init sampleClient) partialCalls = some (m, outs) ∧
      outs.map outcomes = [[true, false], [false, false]] ∧
      (rClientSendFailureCount m.client).toNat = min (2 ^ 64 - 1) (1 + 0) := by
  have hcheck : (Run.exec (Run.whole (step noGcm)) (.init sampleClient) partialCalls).map
      (fun result => result.2.map outcomes) = some [[true, false], [false, false]] := by
    decide +kernel
  obtain ⟨⟨m, outs⟩, hrun, houtcomes⟩ := Option.map_eq_some_iff.mp hcheck
  have hsize : ∀ out ∈ outs, (outcomes out).length < 2 ^ 64 := by
    have hshort : ∀ results ∈ outs.map outcomes, results.length < 2 ^ 64 := by
      rw [houtcomes]
      decide
    exact fun out hmem => hshort _ (List.mem_map_of_mem hmem)
  have hcount := (partial_delivery_counted sampleClient_created rfl hrun hsize).2.1
  have hsum : (outs.map fun out => lost (outcomes out)) = [1, 0] := by
    rw [show (fun out => lost (outcomes out)) = lost ∘ outcomes from rfl, ← List.map_map, houtcomes]
    decide
  rw [hsum] at hcount
  exact ⟨m, outs, hrun, houtcomes, hcount⟩

end RlClient
