import RlClient.Dns

/-!
# The client

`struct r_client` and the entry points of `src/r_client.c`. Each function takes
the client and, in a record named after it, what it reads from its host: clock
readings in the order in which they are made, allocation results, random bytes
and the outcome of each `udp_send`. It returns the new client and the list of
its effects on the host.

A completion callback may call back into the client, so a function that invokes
one ends there: it returns the frame left on the C stack, and the code behind
the callback is a function of its own.
-/

namespace RlClient

/-- `struct r_client`. The host's `udp_send`, `on_steering_feedback` and profile
    observer are represented by whether they are set. -/
structure RClient where
  credential : RCredential
  hasQuotas : Bool
  quotas : RBech32Quotas
  policy : RRequestPolicy
  dnsRefresh : RDnsRefreshPolicy
  dnsName : Bytes
  requestProfileCb : Bool
  udpSend : Bool
  onSteeringFeedback : Bool
  membership : RMembership
  sendFailureCount : UInt64
  inflight : List RClientReq
  steeringRebindPending : Bool
deriving DecidableEq

/-- `r_request_completion_phase_t` and the rest of `r_request_profile_t`. -/
structure RRequestProfile where
  waitMs : UInt64
  round : UInt32
  phase : RRequestPhase
  status : RClientError
  responseSelected : Bool
deriving DecidableEq

/-- Why a packet is sent. -/
inductive SendPass where
  | round (k : UInt32)   -- round `k` of a request
  | delivery             -- completion delivery
  | report               -- a latency report
deriving DecidableEq

/-- What the client does to its host, in program order. The entries without a
    counterpart in the host interface mark points of the code: `accepted` where a
    datagram has passed every check, `timer` at the entry of
    `r_client_on_timeout` with the deadline found there, `drained` where
    `r_notify_steering_when_drained` finds the in-flight list empty. -/
inductive Effect where
  | submitted (h : Handle) (req : RClientReq)
  | submitFailed (h : Handle) (status : RClientError)
  | udpSend (h : Option Handle) (pass : SendPass) (startedMs : UInt64) (index : Nat)
      (addr : RAddr) (packet : Bytes) (ok : Bool)
  | profile (p : RRequestProfile)
  | accepted (h : Handle) (response : RResponse)
  | timer (h : Handle) (nowMs deadlineMs : UInt64)
  | callback (h : Option Handle) (status : RClientError) (result : Option RRateLimitResult)
  | cancelled (h : Handle)
  | drained
  | steering (keepPort : Bool)
deriving DecidableEq

/-- A callback that has not returned yet: the completion of a request, or the
    synchronous completion of an empty one. -/
inductive Frame where
  | completing (req : RClientReq)
  | emptyRequest
deriving DecidableEq

/-- What an entry point returns: its status, the client, the effects so far and
    the frame of the callback it stopped in, if it invoked one. -/
structure Reply where
  status : RClientError
  client : RClient
  effects : List Effect
  frame : Option Frame

/-- Return without calling back. -/
def Reply.done (status : RClientError) (client : RClient) (effects : List Effect) : Reply :=
  { status := status, client := client, effects := effects, frame := none }

def RClient.putRequest (c : RClient) (req : RClientReq) : RClient :=
  { c with inflight := c.inflight.map fun r => if r.handle = req.handle then req else r }

/-- `r_request_remove`. -/
def rRequestRemove (c : RClient) (h : Handle) : RClient :=
  { c with inflight := c.inflight.eraseP (·.handle == h) }

/-! ### Sending -/

/-- `r_record_send_failures`: a saturating counter. -/
def rRecordSendFailures (c : RClient) (failures : UInt64) : RClient :=
  if failures = 0 then c
  else if c.sendFailureCount > UINT64_MAX - failures then { c with sendFailureCount := UINT64_MAX }
  else { c with sendFailureCount := c.sendFailureCount + failures }

/-- The endpoints one pass attempts, with their position in the snapshot. -/
def attemptedTargets (req : RClientReq) (missingOnly : Bool) : List (RServerEndpoint × Nat) :=
  req.targets.zipIdx.filter fun target => !(missingOnly && rRequestTargetResponded req target.1)

/-- One `udp_send` per attempted endpoint. -/
def sendEffects (req : RClientReq) (missingOnly : Bool) (pass : SendPass) (startedMs : UInt64)
    (udpSend : Nat → Bool) : List Effect :=
  (attemptedTargets req missingOnly).map fun target =>
    .udpSend (some req.handle) pass startedMs target.2 target.1.addr req.packet
      (udpSend target.2)

def deliveredCount (req : RClientReq) (missingOnly : Bool) (udpSend : Nat → Bool) : Nat :=
  (attemptedTargets req missingOnly).countP fun target => udpSend target.2

/-- `r_send_rate_request` and `r_send_packet_to_targets`. -/
def rSendRateRequest (c : RClient) (req : RClientReq) (missingOnly bestEffort : Bool)
    (pass : SendPass) (startedMs : UInt64) (udpSend : Nat → Bool) : Reply :=
  if req.packet.length = 0 then .done .errProtocol c []
  else if !c.udpSend then .done .errIo c []
  else
    let attempted := (attemptedTargets req missingOnly).length
    let delivered := deliveredCount req missingOnly udpSend
    let effects := sendEffects req missingOnly pass startedMs udpSend
    if !bestEffort && attempted > 0 && delivered = 0 then .done .errIo c effects
    else if !bestEffort && delivered > 0 && delivered < attempted then
      .done .ok (rRecordSendFailures c (UInt64.ofNat (attempted - delivered))) effects
    else .done .ok c effects

/-! ### Rounds -/

/-- The fields `r_start_round` sets before it sends. -/
def enterRound (policy : RRequestPolicy) (req : RClientReq) (round gapUnits : UInt32) :
    RClientReq :=
  let startMs := if round = 0 then req.startMs else req.haRoundDeadlineMs
  let deadlineMs := startMs + policy.unitMs * gapUnits.toUInt64
  { req with
    phase := .round
    haRound := round
    haRoundStartMs := startMs
    haRoundDeadlineMs := deadlineMs
    haPreferenceDeadlineMs := if round = 0 then deadlineMs else startMs
    attemptDeadlineMs := deadlineMs }

/-- `r_start_round`: the request as it is left, with the reply of the send. -/
def rStartRound (c : RClient) (req : RClientReq) (round : UInt32) (nowMs : UInt64)
    (udpSend : Nat → Bool) : RClientReq × Reply :=
  if round > c.policy.replayCount || nowMs ≥ req.dedupDeadlineMs then
    (req, .done .errTimeout c [])
  else
    match rHaScheduleUnits c.policy.replayGap round false with
    | .error rc => (req, .done rc c [])
    | .ok gapUnits =>
        let started := enterRound c.policy req round gapUnits
        (started, rSendRateRequest c started (round > 0) false (.round round) nowMs udpSend)

/-- `r_enter_final`. -/
def rEnterFinal (policy : RRequestPolicy) (req : RClientReq) : Except RClientError RClientReq :=
  if policy.finalReceiveUnits = 0 then .error .errTimeout
  else
    let startMs := req.haRoundDeadlineMs
    let deadlineMs := startMs + policy.unitMs * policy.finalReceiveUnits.toUInt64
    .ok { req with
      phase := .final
      haRoundStartMs := startMs
      haPreferenceDeadlineMs := startMs
      haRoundDeadlineMs := deadlineMs
      attemptDeadlineMs := deadlineMs }

/-! ### Completion -/

/-- What `r_request_complete` reads from the host before it calls back. -/
structure CompleteIo where
  profileMs : UInt64
  deliveryMs : UInt64
  udpSend : Nat → Bool

/-- The observer record of `r_request_complete`. -/
def completionProfile (req : RClientReq) (status : RClientError)
    (selected : Option RRateLimitResult) (completedMs : UInt64) : RRequestProfile where
  waitMs := if completedMs ≥ req.startMs then completedMs - req.startMs else 0
  round := req.haRound
  phase := req.phase
  status := status
  responseSelected := selected.isSome

/-- `r_completion_delivery`: best effort, to the endpoints without an accepted
    response. -/
def rCompletionDelivery (c : RClient) (req : RClientReq) (io : CompleteIo) : List Effect :=
  if !c.policy.completionDelivery || io.deliveryMs ≥ req.dedupDeadlineMs then []
  else (rSendRateRequest c req true true .delivery io.deliveryMs io.udpSend).effects

/-- `r_request_complete` up to the invocation of `req->cb`. A best-effort send
    does not change the client. -/
def rRequestComplete (c : RClient) (req : RClientReq) (status : RClientError)
    (selected : Option RRateLimitResult) (io : CompleteIo) : RClient × List Effect :=
  let observed :=
    if c.requestProfileCb then
      [Effect.profile (completionProfile req status selected io.profileMs)]
    else []
  let delivered :=
    if status = .ok && selected.isSome then rCompletionDelivery c req io else []
  let removed := rRequestRemove c req.handle
  ({ removed with
      steeringRebindPending := removed.steeringRebindPending || req.steeringRebind },
    observed ++ delivered ++ [.callback (some req.handle) status selected])

/-- `r_notify_steering_when_drained`. -/
def rNotifySteeringWhenDrained (c : RClient) : RClient × List Effect :=
  let drained := if c.inflight.isEmpty then [Effect.drained] else []
  if c.steeringRebindPending && c.inflight.isEmpty && c.onSteeringFeedback then
    ({ c with steeringRebindPending := false }, drained ++ [.steering false])
  else (c, drained)

/-- The reply of an entry point that ends in `r_request_complete`. -/
def Reply.complete (c : RClient) (req : RClientReq) (status : RClientError)
    (selected : Option RRateLimitResult) (io : CompleteIo) (before : List Effect) : Reply :=
  let completed := rRequestComplete c req status selected io
  { status := .ok
    client := completed.1
    effects := before ++ completed.2
    frame := some (.completing req) }

/-! ### Submission -/

/-- The arguments of `r_client_check_rate_limit_async` and of its borrowed form.
    `metricsLabel` is the memory behind the label pointer, `metricsLabelLen` the
    length passed with it, zero for a NUL-terminated label. -/
structure SubmitArgs where
  hasCb : Bool
  resources : CArray RResourceRequest
  guards : CArray RLatencyGuard
  metricsLabel : Option Bytes
  metricsLabelLen : Nat
  borrowed : Bool

/-- What `r_client_check_rate_limit_async_impl` reads from the host. -/
structure SubmitIo where
  refresh : RefreshIo
  forcedRefresh : RefreshIo
  allocReq : Bool
  allocResources : Bool
  allocGuards : Bool
  allocLabel : Bool
  randRequestId : Option (FixedBytes 16)
  startMs : UInt64
  stampMs : UInt64
  encrypt : EncryptIo
  allocSnapshot : SnapshotAlloc
  roundMs : UInt64
  udpSend : Nat → Bool

/-- `r_validate_resource_windows`. -/
def rValidateResourceWindows (c : RClient) (resources : List RResourceRequest) : RClientError :=
  if c.hasQuotas && resources.any (·.windowSizeMs > c.quotas.rateWindowSizeMsMax) then .errProtocol
  else .ok

/-- `r_generate_request_id`: random bytes with the version and variant bits. -/
def rGenerateRequestId (rand : Option (FixedBytes 16)) : Except RClientError (FixedBytes 16) :=
  match rand with
  | none => .error .errAuth
  | some bytes =>
      .ok ⟨(bytes.val.set 6 ((bytes.val.getD 6 0 &&& 0x0F) ||| 0x40)).set 8
        ((bytes.val.getD 8 0 &&& 0x3F) ||| 0x80), by simp⟩

/-- The label a request carries: none when the pointer is null or the first byte
    is NUL, otherwise as many bytes as the explicit or implicit length says. -/
def submittedLabel (metricsLabel : Option Bytes) (metricsLabelLen : Nat) : Option Bytes :=
  match metricsLabel with
  | none => none
  | some memory =>
      if memory.getD 0 0 = 0 then none
      else
        let labelLen :=
          if metricsLabelLen = 0 then (memory.takeWhile (· != 0)).length else metricsLabelLen
        some ((List.range labelLen).map fun i => memory.getD i 0)

/-- The allocations of the copying form; the borrowed form keeps the pointers. -/
def copyInputs (args : SubmitArgs) (io : SubmitIo) : RClientError :=
  if args.borrowed then .ok
  else if args.resources.count > 0 && !io.allocResources then .errNomem
  else if args.guards.count > 0 && !io.allocGuards then .errNomem
  else if (submittedLabel args.metricsLabel args.metricsLabelLen).isSome && !io.allocLabel then
    .errNomem
  else .ok

def submittedRequest (args : SubmitArgs) (requestId : FixedBytes 16) (startMs : UInt64)
    (dedupTtlMs : UInt32) : RateRequest where
  resources := args.resources.elems
  guards := args.guards.elems
  metricsLabel := submittedLabel args.metricsLabel args.metricsLabelLen
  dedupTtlMs := dedupTtlMs
  requestId := requestId
  startMs := startMs

/-- The request `r_client_check_rate_limit_async_impl` has built when it comes to
    `r_start_round`; every field not set by then is zero from `calloc`. -/
def newRequest (h : Handle) (rq : RateRequest) (packet : Bytes)
    (snapshot : List RServerEndpoint × List UInt64) : RClientReq where
  handle := h
  requestId := rq.requestId
  resources := rq.resources
  guards := rq.guards
  metricsLabel := rq.metricsLabel
  targets := snapshot.1
  allowedIds := snapshot.2
  startMs := rq.startMs
  attemptDeadlineMs := 0
  dedupDeadlineMs := rq.startMs + rq.dedupTtlMs.toUInt64
  dedupTtlMs := rq.dedupTtlMs
  phase := .round
  haRound := 0
  haRoundStartMs := 0
  haPreferenceDeadlineMs := 0
  haRoundDeadlineMs := 0
  seenAddrs := []
  seenAddrCap := 0
  seenServerIds := []
  seenServerIdCap := 0
  steeringRebind := false
  packet := packet
  best := none

/-- The middle of `r_client_check_rate_limit_async_impl`: from the allocation of
    the request to its membership snapshot. `inputs` are the packet inputs, which are
    read when the packet is built. -/
def buildRequestOf (inputs : FixedBytes 16 → UInt64 → UInt32 → RateRequest) (gcm : Gcm)
    (c : RClient) (h : Handle) (args : SubmitArgs) (io : SubmitIo) :
    Except RClientError RClientReq :=
  if !io.allocReq then .error .errNomem
  else if copyInputs args io ≠ .ok then .error (copyInputs args io)
  else
    match rGenerateRequestId io.randRequestId with
    | .error rc => .error rc
    | .ok requestId =>
        match rRequestPolicyTtlMs c.policy c.hasQuotas c.quotas with
        | .error rc => .error rc
        | .ok dedupTtlMs =>
            if dedupTtlMs = 0 then .error .errConfig
            else if io.startMs > UINT64_MAX - dedupTtlMs.toUInt64 then .error .errConfig
            else
              let rq := inputs requestId io.startMs dedupTtlMs
              match rBuildRateRequestPacket gcm c.credential rq io.stampMs io.encrypt with
              | .error rc => .error rc
              | .ok packet =>
                  match rRequestSnapshotTargets c.membership.servers io.allocSnapshot with
                  | .error rc => .error rc
                  | .ok snapshot => .ok (newRequest h rq packet snapshot)

/-- The request of a submission whose inputs are the values it was given. -/
def buildRequest (gcm : Gcm) (c : RClient) (h : Handle) (args : SubmitArgs) (io : SubmitIo) :
    Except RClientError RClientReq :=
  buildRequestOf (submittedRequest args) gcm c h args io

/-- The result delivered for a request without guards and resources. -/
def emptyResult : RRateLimitResult where
  success := true
  serverId := 0
  steeringFeedback := false
  guards := []
  resources := []

def completeEmpty (c : RClient) : Reply :=
  let observed :=
    if c.requestProfileCb then
      [Effect.profile
        { waitMs := 0, round := 0, phase := .round, status := .ok, responseSelected := false }]
    else []
  { status := .ok
    client := c
    effects := observed ++ [.callback none .ok (some emptyResult)]
    frame := some .emptyRequest }

/-- The end of `r_client_check_rate_limit_async_impl`: start round zero and link
    the request. -/
def launchRequest (c : RClient) (req : RClientReq) (io : SubmitIo) : Reply :=
  let started := rStartRound c req 0 io.roundMs io.udpSend
  let reply := started.2
  if reply.status = .ok then
    .done .ok { reply.client with inflight := started.1 :: reply.client.inflight }
      (reply.effects ++ [.submitted req.handle started.1])
  else .done reply.status reply.client (reply.effects ++ [.submitFailed req.handle reply.status])

/-- What the checks at the beginning of `r_client_check_rate_limit_async_impl` come to. -/
inductive SubmitCheck where
  | refused (rc : RClientError)
  | empty
  | passed

def checkSubmission (c : RClient) (args : SubmitArgs) : SubmitCheck :=
  if !args.hasCb then .refused .errConfig
  else if args.resources.count > 0 && args.resources.isNull then .refused .errConfig
  else if args.guards.count > 0 && args.guards.isNull then .refused .errConfig
  else if args.resources.count = 0 && args.guards.count = 0 then .empty
  else if rValidateResourceWindows c args.resources.elems ≠ .ok then .refused .errProtocol
  else .passed

/-- The client behind a call of `r_dns_maybe_refresh`. -/
abbrev RClient.refreshed (c : RClient) (force : Bool) (io : RefreshIo) : RClient :=
  { c with membership := rDnsMaybeRefresh c.membership c.dnsRefresh c.dnsName force io }

/-- How far `r_client_check_rate_limit_async_impl` comes before it starts round zero. -/
inductive Submission where
  | refused (rc : RClientError) (c : RClient)
  | empty
  | built (c : RClient) (req : RClientReq)

/-- `r_client_check_rate_limit_async_impl` up to the call of `r_start_round`. -/
def stageSubmission (build : RClient → Except RClientError RClientReq) (c : RClient)
    (args : SubmitArgs) (io : SubmitIo) : Submission :=
  match checkSubmission c args with
  | .refused rc => .refused rc c
  | .empty => .empty
  | .passed =>
      let refreshed := c.refreshed false io.refresh
      if refreshed.membership.servers.length = 0 then
        .refused .errDns (refreshed.refreshed true io.forcedRefresh)
      else
        match build refreshed with
        | .error rc => .refused rc refreshed
        | .ok req => .built refreshed req

/-- What a submission returns once it has come this far. -/
def Submission.reply (c : RClient) (h : Handle) (io : SubmitIo) : Submission → Reply
  | .refused rc c' => .done rc c' [.submitFailed h rc]
  | .empty => completeEmpty c
  | .built c' req => launchRequest c' req io

/-- `r_client_check_rate_limit_async_impl` for a client and a callback that are
    not null; `h` is the address the allocator would return. -/
def rClientCheckRateLimitAsyncImpl (gcm : Gcm) (c : RClient) (h : Handle) (args : SubmitArgs)
    (io : SubmitIo) : Reply :=
  (stageSubmission (buildRequest gcm · h args io) c args io).reply c h io

/-! ### Latency reports -/

/-- What `r_client_report_latency` reads from the host. -/
structure ReportIo where
  refresh : RefreshIo
  forcedRefresh : RefreshIo
  randRequestId : Option (FixedBytes 16)
  stampMs : UInt64
  encrypt : EncryptIo
  udpSend : Nat → Bool

def reportPacket (gcm : Gcm) (c : RClient) (reports : List RServiceLatencyReport) (io : ReportIo) :
    Except RClientError Bytes :=
  match latencyReportPdu reports with
  | .error rc => .error rc
  | .ok pdu =>
      match rGenerateRequestId io.randRequestId with
      | .error rc => .error rc
      | .ok requestId =>
          framePdu gcm c.credential (requestHeader c.credential.keyId requestId io.stampMs) pdu
            R_MAX_PACKET_SIZE io.encrypt

/-- The send loop of `r_client_report_latency` over the current servers. -/
def sendReport (c : RClient) (packet : Bytes) (io : ReportIo) : Reply :=
  let servers := c.membership.servers.zipIdx
  let effects := servers.map fun server =>
    Effect.udpSend none .report io.stampMs server.2 server.1.addr packet (io.udpSend server.2)
  let delivered := servers.countP fun server => io.udpSend server.2
  if servers.length > 0 && delivered = 0 then .done .errIo c effects
  else if delivered > 0 && delivered < servers.length then
    .done .ok (rRecordSendFailures c (UInt64.ofNat (servers.length - delivered))) effects
  else .done .ok c effects

/-- `r_client_report_latency`. -/
def rClientReportLatency (gcm : Gcm) (c : RClient) (reports : CArray RServiceLatencyReport)
    (io : ReportIo) : Reply :=
  if reports.isNull || reports.count = 0 then .done .errConfig c []
  else if !c.udpSend then .done .errIo c []
  else
    let refreshed :=
      { c with membership := rDnsMaybeRefresh c.membership c.dnsRefresh c.dnsName false io.refresh }
    if refreshed.membership.servers.length = 0 then
      .done .errDns
        { refreshed with
          membership := rDnsMaybeRefresh refreshed.membership c.dnsRefresh c.dnsName true
            io.forcedRefresh } []
    else
      match reportPacket gcm refreshed reports.elems io with
      | .error rc => .done rc refreshed []
      | .ok packet => sendReport refreshed packet io

/-! ### Datagrams -/

/-- What `r_client_on_datagram` reads from the host: two clock readings, the
    outcomes of decryption support and allocation, and what completion reads. -/
structure DatagramIo where
  gateMs : UInt64
  evpOk : Bool
  allocResponse : ResponseAlloc
  nowMs : UInt64
  allocSeen : SeenAlloc
  complete : CompleteIo

/-- `r_client_on_datagram` up to the first change of state: the request a
    datagram is for and the response it carries. A datagram that is dropped
    without an error gives status `ok` as the error. -/
def onDatagramGate (gcm : Gcm) (c : RClient) (buf : Bytes) (io : DatagramIo) :
    Except RClientError (RClientReq × RResponse) :=
  if buf.length = 0 then .error .errProtocol
  else
    match rParseTenantHeader buf with
    | .error rc => .error rc
    | .ok (tenant, pos) =>
        match c.inflight.find? (fun req => req.requestId == tenant.uniqueId) with
        | none => .error .ok
        | some req =>
            if io.gateMs > req.dedupDeadlineMs then .error .ok
            else if !rAllowedServerId req tenant.keyId then .error .ok
            else
              match rExtractPduData gcm c.credential buf pos R_MAX_PACKET_SIZE io.evpOk with
              | .error rc => .error rc
              | .ok pdu =>
                  match rParseRateResponseAlloc pdu io.allocResponse with
                  | .error rc => .error rc
                  | .ok parsed =>
                      .ok (req,
                        { serverId := tenant.keyId
                          steeringByte := tenant.steeringFeedback
                          success := parsed.success
                          guards := parsed.guards
                          resources := parsed.resources })

/-- The candidate that ends the request at `nowMs`, if it does: it comes from the
    oldest server of the snapshot, or the preference deadline has passed. -/
def selectBest (req : RClientReq) (nowMs : UInt64) : Option RRateLimitResult :=
  match req.best with
  | none => none
  | some best =>
      if rIsOldestKnownServer req.allowedIds best.serverId
          || nowMs ≥ req.haPreferenceDeadlineMs then some best
      else none

/-- A request that keeps its candidate waits no longer than the preference
    deadline. -/
def holdCandidate (req : RClientReq) : RClientReq :=
  if req.best.isSome && req.haPreferenceDeadlineMs < req.attemptDeadlineMs then
    { req with attemptDeadlineMs := req.haPreferenceDeadlineMs }
  else req

/-- `r_client_on_datagram` from the first change of state on. -/
def acceptResponse (c : RClient) (req : RClientReq) (response : RResponse) (sender : RAddr)
    (io : DatagramIo) : Reply :=
  let recorded := recordResponse req response sender io.allocSeen
  let effects := [Effect.accepted req.handle response]
  match selectBest recorded io.nowMs with
  | some best => .complete (c.putRequest recorded) recorded .ok (some best) io.complete effects
  | none => .done .ok (c.putRequest (holdCandidate recorded)) effects

/-- `r_client_on_datagram`. -/
def rClientOnDatagram (gcm : Gcm) (c : RClient) (buf : Bytes) (sender : RAddr)
    (io : DatagramIo) : Reply :=
  match onDatagramGate gcm c buf io with
  | .error rc => .done rc c []
  | .ok (req, response) => acceptResponse c req response sender io

/-! ### Timers and cancellation -/

/-- `r_client_request_deadline_ms`. -/
def rClientRequestDeadlineMs (req : RClientReq) : UInt64 := req.attemptDeadlineMs

/-- What `r_client_on_timeout` reads from the host beside its argument. -/
structure TimeoutIo where
  roundMs : UInt64
  udpSend : Nat → Bool
  complete : CompleteIo

/-- The replay branch of `r_request_policy_on_timeout`. -/
def replayRound (c : RClient) (req : RClientReq) (io : TimeoutIo) (before : List Effect) : Reply :=
  let started := rStartRound c req (req.haRound + 1) io.roundMs io.udpSend
  let reply := started.2
  let effects := before ++ reply.effects
  if reply.status = .ok then .done .ok (reply.client.putRequest started.1) effects
  else
    .complete (reply.client.putRequest started.1) started.1 reply.status none io.complete effects

/-- `r_request_policy_on_timeout`. -/
def rRequestPolicyOnTimeout (c : RClient) (req : RClientReq) (nowMs : UInt64) (io : TimeoutIo)
    (before : List Effect) : Reply :=
  match req.best with
  | some best =>
      if nowMs ≥ req.haPreferenceDeadlineMs then
        .complete c req .ok (some best) io.complete before
      else
        .done .ok (c.putRequest { req with attemptDeadlineMs := req.haPreferenceDeadlineMs }) before
  | none =>
      if nowMs < req.haRoundDeadlineMs then
        .done .ok (c.putRequest { req with attemptDeadlineMs := req.haRoundDeadlineMs }) before
      else
        match req.phase with
        | .round =>
            if req.haRound < c.policy.replayCount then replayRound c req io before
            else
              match rEnterFinal c.policy req with
              | .error rc => .complete c req rc none io.complete before
              | .ok entered => .done .ok (c.putRequest entered) before
        | .final => .complete c req .errTimeout none io.complete before

/-- `r_client_on_timeout` for a live request. -/
def rClientOnTimeout (c : RClient) (req : RClientReq) (nowMs : UInt64) (io : TimeoutIo) : Reply :=
  let called := [Effect.timer req.handle nowMs req.attemptDeadlineMs]
  if nowMs < req.attemptDeadlineMs then .done .ok c called
  else rRequestPolicyOnTimeout c req nowMs io called

/-- `r_client_cancel_request`: a handle that is not in the list is ignored. -/
def rClientCancelRequest (c : RClient) (h : Handle) : RClient × List Effect :=
  if c.inflight.any (·.handle == h) then
    let notified := rNotifySteeringWhenDrained (rRequestRemove c h)
    (notified.1, .cancelled h :: notified.2)
  else (c, [])

end RlClient
