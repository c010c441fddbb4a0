import RlClient.Completion

/-!
# Failed calls leave no trace

A submission or a latency report that does not return `RCLIENT_OK` is as if it had
not been made, but for a refresh of the membership it may have started. The one
function that both sends and fails is `r_send_packet_to_targets`, and it fails only
when no endpoint accepted the packet.
-/

namespace RlClient

/-- The effect is a `udp_send` that returned success. -/
def Effect.gotOut : Effect → Bool
  | .udpSend _ _ _ _ _ _ ok => ok
  | _ => false

/-- What a failed call leaves behind: the client up to its membership, no callback,
    and nothing on the wire. -/
structure NoTrace (c : RClient) (reply : Reply) : Prop where
  client : reply.client = { c with membership := reply.client.membership }
  frame : reply.frame = none
  silent : ∀ e ∈ reply.effects, e.fires = false
  unsent : ∀ e ∈ reply.effects, e.gotOut = false

/-- The refresh at the beginning of a call is all that may remain of it. -/
theorem NoTrace.of_refreshed {c : RClient} {membership : RMembership} {reply : Reply}
    (h : NoTrace { c with membership := membership } reply) : NoTrace c reply :=
  ⟨h.client, h.frame, h.silent, h.unsent⟩

theorem NoTrace.refused {c c' : RClient} (status : RClientError)
    (hclient : c' = { c with membership := c'.membership }) (h : Handle) :
    NoTrace c (.done status c' [.submitFailed h status]) := by
  refine ⟨hclient, rfl, ?_, ?_⟩
  · intro e he
    rw [List.mem_singleton.mp he]
    rfl
  · intro e he
    rw [List.mem_singleton.mp he]
    rfl

theorem NoTrace.early {c c' : RClient} (status : RClientError)
    (hclient : c' = { c with membership := c'.membership }) : NoTrace c (.done status c' []) :=
  ⟨hclient, rfl, fun _ he => absurd he List.not_mem_nil, fun _ he => absurd he List.not_mem_nil⟩

theorem NoTrace.unaccepted {c : RClient} (status : RClientError) {α : Type} {targets : List α}
    {send : α → Effect} {accepted : α → Bool} (hdelivered : targets.countP accepted = 0)
    (hsend : ∀ target, (send target).fires = false ∧ (send target).gotOut = accepted target) :
    NoTrace c (.done status c (targets.map send)) := by
  refine ⟨rfl, rfl, ?_, ?_⟩
  · intro e he
    obtain ⟨target, -, rfl⟩ := List.mem_map.mp he
    exact (hsend target).1
  · intro e he
    obtain ⟨target, hmem, rfl⟩ := List.mem_map.mp he
    rw [(hsend target).2]
    exact Bool.eq_false_iff.mpr (List.countP_eq_zero.mp hdelivered target hmem)

theorem rSendRateRequest_noTrace {c : RClient} {req : RClientReq} {missingOnly bestEffort : Bool}
    {pass : SendPass} {startedMs : UInt64} {udpSend : Nat → Bool}
    (hfail : (rSendRateRequest c req missingOnly bestEffort pass startedMs udpSend).status ≠ .ok) :
    NoTrace c (rSendRateRequest c req missingOnly bestEffort pass startedMs udpSend) := by
  unfold rSendRateRequest at hfail ⊢
  split at hfail
  · rw [if_pos ‹_›]
    exact .early .errProtocol rfl
  rw [if_neg ‹_›]
  split at hfail
  · rw [if_pos ‹_›]
    exact .early .errIo rfl
  rw [if_neg ‹_›]
  simp only at hfail ⊢
  split at hfail
  · rename_i hnone
    rw [if_pos hnone]
    simp only [Bool.and_eq_true, decide_eq_true_eq] at hnone
    exact .unaccepted .errIo hnone.2 fun _ => ⟨rfl, rfl⟩
  · split at hfail
    · exact absurd rfl hfail
    · exact absurd rfl hfail

theorem rStartRound_noTrace {c : RClient} {req : RClientReq} {round : UInt32} {nowMs : UInt64}
    {udpSend : Nat → Bool} (hfail : (rStartRound c req round nowMs udpSend).2.status ≠ .ok) :
    NoTrace c (rStartRound c req round nowMs udpSend).2 := by
  rcases rStartRound_cases c req round nowMs udpSend with
    ⟨heq, -⟩ | ⟨rc, heq, -⟩ | ⟨gapUnits, -, -, -, heq⟩
  · rw [heq]
    exact .early .errTimeout rfl
  · rw [heq]
    exact .early rc rfl
  · rw [heq] at hfail ⊢
    exact rSendRateRequest_noTrace hfail

theorem launchRequest_noTrace {c : RClient} {req : RClientReq} {io : SubmitIo}
    (hfail : (launchRequest c req io).status ≠ .ok) : NoTrace c (launchRequest c req io) := by
  unfold launchRequest at hfail ⊢
  simp only at hfail ⊢
  split at hfail
  · exact absurd rfl hfail
  · rename_i hround
    rw [if_neg hround]
    have hnone := rStartRound_noTrace hround
    refine ⟨hnone.client, rfl, ?_, ?_⟩
    · intro e he
      rcases List.mem_append.mp he with he | he
      · exact hnone.silent e he
      · rw [List.mem_singleton.mp he]
        rfl
    · intro e he
      rcases List.mem_append.mp he with he | he
      · exact hnone.unsent e he
      · rw [List.mem_singleton.mp he]
        rfl

theorem rClientCheckRateLimitAsyncImpl_noTrace {gcm : Gcm} {c : RClient} {h : Handle}
    {args : SubmitArgs} {io : SubmitIo}
    (hfail : (rClientCheckRateLimitAsyncImpl gcm c h args io).status ≠ .ok) :
    NoTrace c (rClientCheckRateLimitAsyncImpl gcm c h args io) := by
  have hstaged := staged (buildRequest gcm · h args io) c args io
  unfold rClientCheckRateLimitAsyncImpl at hfail ⊢
  generalize stageSubmission (buildRequest gcm · h args io) c args io = stage at hstaged hfail ⊢
  cases hstaged with
  | refused rc => exact .refused rc rfl h
  | empty => exact absurd rfl hfail
  | unserved => exact .refused .errDns rfl h
  | unbuilt rc => exact .refused rc rfl h
  | built req => exact .of_refreshed (launchRequest_noTrace hfail)

theorem rClientReportLatency_noTrace {gcm : Gcm} {c : RClient}
    {reports : CArray RServiceLatencyReport} {io : ReportIo}
    (hfail : (rClientReportLatency gcm c reports io).status ≠ .ok) :
    NoTrace c (rClientReportLatency gcm c reports io) := by
  unfold rClientReportLatency at hfail ⊢
  split
  · exact .early .errConfig rfl
  rw [if_neg ‹_›] at hfail
  split
  · exact .early .errIo rfl
  rw [if_neg ‹_›] at hfail
  simp only at hfail ⊢
  split
  · exact .early .errDns rfl
  rw [if_neg ‹_›] at hfail
  split
  · exact .early _ rfl
  · rename_i packet hpacket
    rw [hpacket] at hfail
    apply NoTrace.of_refreshed
    unfold sendReport at hfail ⊢
    simp only at hfail ⊢
    split
    · rename_i hnone
      simp only [Bool.and_eq_true, decide_eq_true_eq] at hnone
      exact .unaccepted .errIo hnone.2 fun _ => ⟨rfl, rfl⟩
    · rw [if_neg ‹_›] at hfail
      split at hfail
      · exact absurd rfl hfail
      · exact absurd rfl hfail

/-! ### The handle cell -/

/-- `if (out_req) *out_req = req`; a caller that passes no cell has `none`. -/
def storeOutReq (outReq : Option (Option Handle)) (req : Option Handle) : Option (Option Handle) :=
  outReq.map fun _ => req

/-- The cell `out_req` after a submission that has come this far: cleared by an empty
    request and set once a request is linked. -/
def Submission.outReq (h : Handle) (io : SubmitIo) (outReq : Option (Option Handle)) :
    Submission → Option (Option Handle)
  | .refused _ _ => outReq
  | .empty => storeOutReq outReq none
  | .built c req =>
      if (rStartRound c req 0 io.roundMs io.udpSend).2.status = .ok then
        storeOutReq outReq (some h)
      else outReq

/-- The cell `out_req` after `r_client_check_rate_limit_async_impl`. -/
def outReqAfter (gcm : Gcm) (c : RClient) (h : Handle) (args : SubmitArgs) (io : SubmitIo)
    (outReq : Option (Option Handle)) : Option (Option Handle) :=
  (stageSubmission (buildRequest gcm · h args io) c args io).outReq h io outReq

theorem outReqAfter_failed {gcm : Gcm} {c : RClient} {h : Handle} {args : SubmitArgs}
    {io : SubmitIo} (outReq : Option (Option Handle))
    (hfail : (rClientCheckRateLimitAsyncImpl gcm c h args io).status ≠ .ok) :
    outReqAfter gcm c h args io outReq = outReq := by
  unfold outReqAfter
  unfold rClientCheckRateLimitAsyncImpl at hfail
  cases hstage : stageSubmission (buildRequest gcm · h args io) c args io with
  | refused rc c' => rfl
  | empty =>
    rw [hstage] at hfail
    exact absurd rfl hfail
  | built c' req =>
    rw [hstage] at hfail
    simp only [Submission.reply, launchRequest] at hfail
    refine if_neg fun hround => ?_
    rw [if_pos hround] at hfail
    exact absurd rfl hfail

/-! ### The theorem -/

/-- **Failed calls leave no trace.** From any state of the client, a submission in
    either form that does not return `RCLIENT_OK` leaves the client as it was up to
    its membership, the caller's cell as it was, starts no callback and has sent
    nothing that got out; so does a latency report. Along a run, the callback of a
    failed submission never fires. -/
theorem failed_calls_leave_no_trace (gcm : Gcm) (c : RClient) :
    (∀ (h : Handle) (args : SubmitArgs) (io : SubmitIo) (outReq : Option (Option Handle)),
      let reply := rClientCheckRateLimitAsyncImpl gcm c h args io
      reply.status ≠ .ok →
        reply.client = { c with membership := reply.client.membership } ∧
        outReqAfter gcm c h args io outReq = outReq ∧
        reply.frame = none ∧
        (∀ req status result, Effect.callback req status result ∉ reply.effects) ∧
        ∀ req pass ms i addr packet ok,
          Effect.udpSend req pass ms i addr packet ok ∈ reply.effects → ok = false) ∧
    (∀ (reports : CArray RServiceLatencyReport) (io : ReportIo),
      let reply := rClientReportLatency gcm c reports io
      reply.status ≠ .ok →
        reply.client = { c with membership := reply.client.membership } ∧
        ∀ req pass ms i addr packet ok,
          Effect.udpSend req pass ms i addr packet ok ∈ reply.effects → ok = false) ∧
    ∀ (args : CreateArgs) (calls : List Call) (m : Machine) (trace : List Effect) (h : Handle)
      (failure : RClientError), rClientCreate args = .ok c →
      run gcm c calls = some (m, trace) → Effect.submitFailed h failure ∈ trace →
        ∀ status result, Effect.callback (some h) status result ∉ trace := by
  refine ⟨?_, ?_, ?_⟩
  · intro h args io outReq reply hfail
    have hnone : NoTrace c reply := rClientCheckRateLimitAsyncImpl_noTrace hfail
    refine ⟨hnone.client, outReqAfter_failed outReq hfail, hnone.frame, ?_, ?_⟩
    · intro req status result hmem
      exact Bool.noConfusion (hnone.silent _ hmem)
    · intro req pass ms i addr packet ok hmem
      exact hnone.unsent _ hmem
  · intro reports io reply hfail
    have hnone : NoTrace c reply := rClientReportLatency_noTrace hfail
    refine ⟨hnone.client, ?_⟩
    intro req pass ms i addr packet ok hmem
    exact hnone.unsent _ hmem
  · intro args calls m trace h failure hcreate hrun hfailed
    exact refused_never_fires hcreate hrun h ⟨failure, hfailed⟩

def sampleArguments (borrowed : Bool) : SubmitArgs where
  hasCb := true
  resources := .array
    [{ bucketId := .replicate 16 9, windowSizeMs := 1000, rateLimit := 5, tokensRequested := 1 }]
  guards := .array []
  metricsLabel := none
  metricsLabelLen := 0
  borrowed := borrowed

/-- A host whose `udp_send` accepts what `udpSend` says. -/
def sampleHost (udpSend : Nat → Bool) : SubmitIo where
  refresh := { nowMs := 100, jitterDraw := none, progress := .pending }
  forcedRefresh := { nowMs := 100, jitterDraw := none, progress := .pending }
  allocReq := true
  allocResources := true
  allocGuards := true
  allocLabel := true
  randRequestId := some (.replicate 16 1)
  startMs := 100
  stampMs := 100
  encrypt := { randNonce := none, evpOk := true }
  allocSnapshot := { targets := true, allowedIds := true }
  roundMs := 100
  udpSend := udpSend

/-- Both endpoints refuse the packet: two sends were tried, and the cell still holds
    what it held. -/
theorem failed_calls_leave_no_trace_refused :
    let reply := rClientCheckRateLimitAsyncImpl noGcm sampleClient 4 (sampleArguments true)
      (sampleHost fun _ => false)
    reply.status = .errIo ∧ reply.effects.length = 3 ∧ reply.client.inflight = [] ∧
      reply.client.sendFailureCount = 0 ∧
      outReqAfter noGcm sampleClient 4 (sampleArguments true) (sampleHost fun _ => false)
        (some (some 17)) = some (some 17) := by
  intro reply
  have hstatus : reply.status = .errIo := by decide +kernel
  have hnone := (failed_calls_leave_no_trace noGcm sampleClient).1 4 (sampleArguments true)
    (sampleHost fun _ => false) (some (some 17)) (by rw [hstatus]; decide)
  refine ⟨hstatus, by decide +kernel, ?_, ?_, hnone.2.1⟩
  · exact (congrArg RClient.inflight hnone.1).trans rfl
  · exact (congrArg RClient.sendFailureCount hnone.1).trans rfl

end RlClient
