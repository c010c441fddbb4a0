import RlClient.Bech32
import RlClient.Packet

/-!
# The test responder

Mirror of `tools/r_test_responder_protocol.c`, the server side of the protocol as
the repository has it: it authenticates a datagram, parses the request or report
in it, and answers a rate request as its scenario says. A pointer into the PDU is
the suffix of the PDU that starts there. The caller's state is updated on failing
calls too, so a call returns the state it leaves beside its return code.
-/

namespace RlClient

def R_TEST_RESPONDER_LABEL_CAP : Nat := 256
def R_TEST_RESPONDER_QUOTA_CAP : Nat := 256

/-- `r_test_scenario_t`. -/
inductive RTestScenario where
  | allow
  | deny
  | guardPass
  | guardDeny
  | quota
  | drop
  | malformedAuth
  | malformedTruncated
  | malformedRequestId
  | countEmpty
  | countShort
  | countExtra
deriving DecidableEq

/-- `r_test_scenario_name`. -/
def rTestScenarioName : RTestScenario → String
  | .allow => "allow"
  | .deny => "deny"
  | .guardPass => "guard-pass"
  | .guardDeny => "guard-deny"
  | .quota => "quota"
  | .drop => "drop"
  | .malformedAuth => "malformed-auth"
  | .malformedTruncated => "malformed-truncated"
  | .malformedRequestId => "malformed-request-id"
  | .countEmpty => "count-empty"
  | .countShort => "count-short"
  | .countExtra => "count-extra"

/-- `r_test_event_kind_t`. -/
inductive RTestEventKind where
  | inputRejected
  | rateRequest
  | latencyReport
deriving DecidableEq

/-- `r_test_tracker_observation_t`. -/
structure RTestTrackerObservation where
  present : Bool
  latencyTrackerId : FixedBytes 16
  ttlMs : UInt32
  maxSamples : UInt32
  minSampleThreshold : UInt32
deriving DecidableEq

/-- `r_test_event_t`. -/
structure RTestEvent where
  kind : RTestEventKind
  sequence : UInt64
  guardCount : Nat
  resourceCount : Nat
  reportCount : Nat
  tracker : RTestTrackerObservation
  trackerMatchesGuard : Bool
  guardThresholdMs : UInt32
  observedLatencyMs : UInt32
  label : FixedBytes 257
  disposition : String

/-- `r_test_quota_entry_t`. -/
structure RTestQuotaEntry where
  bucketId : FixedBytes 16
  requests : UInt64
deriving DecidableEq

/-- `r_test_responder_state_t`; `quota` holds the `quota_count` entries in use. -/
structure RTestResponderState where
  scenario : RTestScenario
  authType : RAuthType
  tenantKeyId : UInt64
  secret : FixedBytes 32
  serverId : UInt64
  steeringKeepPort : Bool
  allowCount : UInt64
  sequence : UInt64
  lastGuardLatencyTrackerId : FixedBytes 16
  hasLastGuardLatencyTrackerId : Bool
  quota : List RTestQuotaEntry

/-- `r_test_responder_init`: nothing is kept of the decoded credential but the type, the id
    and the secret, and everything that is counted starts at zero. -/
def rTestResponderInit (alloc : DecodeAlloc) (scenario : RTestScenario) (authKey : Option Bytes)
    (serverId : UInt64) (steeringKeepPort : Bool) (allowCount : UInt64) :
    Except RClientError RTestResponderState :=
  if authKey.isNone || serverId = 0 then .error .errConfig
  else
    let (rc, info) := rClientParseAuthKey alloc authKey .zero
    if rc ≠ .ok || info.secretLen ≠ 32 then .error .errConfig
    else
      .ok
        { scenario := scenario
          authType := info.authType
          tenantKeyId := info.keyId
          secret := info.secret
          serverId := serverId
          steeringKeepPort := steeringKeepPort
          allowCount := allowCount
          sequence := 0
          lastGuardLatencyTrackerId := FixedBytes.replicate 16 0
          hasLastGuardLatencyTrackerId := false
          quota := [] }

/-- `r_test_parsed_request_t`. -/
structure RTestParsedRequest where
  tenant : RTenantHeader
  pduType : UInt16
  body : Bytes
  guardCount : UInt16
  resourceCount : UInt16
  reportCount : UInt16
  guards : Bytes
  resources : Bytes
  reports : Bytes
  label : FixedBytes 257

/-- The parsed request before `parse_request_pdu` fills it. -/
def RTestParsedRequest.cleared (tenant : RTenantHeader) : RTestParsedRequest where
  tenant := tenant
  pduType := 0
  body := []
  guardCount := 0
  resourceCount := 0
  reportCount := 0
  guards := []
  resources := []
  reports := []
  label := FixedBytes.replicate 257 0

/-! ### Requests -/

/-- `extract_authenticated_pdu`. -/
def extractAuthenticatedPdu (gcm : Gcm) (state : RTestResponderState) (input : Bytes)
    (evpOk : Bool) : Except RClientError (RTenantHeader × Bytes) :=
  match rParseTenantHeader input with
  | .error _ => .error .errAuth
  | .ok (tenant, pos) =>
      if tenant.keyId ≠ state.tenantKeyId then .error .errAuth
      else
        match rParseAuthTlvHeader input pos with
        | .error rc => .error rc
        | .ok tlv =>
            match state.authType with
            | .cookie =>
                if tlv.type ≠ R_TLV_AUTH_COOKIE || tlv.size ≠ 36 || tlv.bodyLen ≠ 32 then
                  .error .errAuth
                else if FixedBytes.ofSlice 32 input tlv.bodyPos ≠ state.secret then
                  .error .errAuth
                else .ok (tenant, input.drop tlv.pduPos)
            | .aesGcm =>
                if tlv.type ≠ R_TLV_AUTH_AES || tlv.size ≠ 32 || tlv.bodyLen ≠ 28
                    || input.length ≤ tlv.pduPos then
                  .error .errAuth
                else
                  match rDecryptPduAesGcm gcm (input.drop tlv.pduPos) state.secret
                      (FixedBytes.ofSlice 12 input tlv.bodyPos)
                      (FixedBytes.ofSlice 16 input (tlv.bodyPos + 12))
                      (input.take (pos + 4 + 12)) R_MAX_PACKET_SIZE evpOk with
                  | none => .error .errAuth
                  | some pdu => .ok (tenant, pdu)
            | .derive => .error .errAuth

/-- `parse_metrics_label`, into a label buffer that holds zeros. -/
def parseMetricsLabel (body : Bytes) (pos : Nat) : Except RClientError (FixedBytes 257) :=
  if pos = body.length then .ok (FixedBytes.replicate 257 0)
  else if body.length - pos < 6 || rLe16 body pos ≠ R_TLV_METRICS_LABEL then .error .errProtocol
  else
    let tlvSize := (rLe16 body (pos + 2)).toNat
    let labelLen := (rLe16 body (pos + 4)).toNat
    if tlvSize < 6 || tlvSize > body.length - pos || pos + tlvSize ≠ body.length
        || labelLen > tlvSize - 6 || labelLen > R_TEST_RESPONDER_LABEL_CAP then
      .error .errProtocol
    else .ok (FixedBytes.ofSlice 257 ((body.drop (pos + 6)).take labelLen) 0)

/-- `parse_request_pdu`. -/
def parseRequestPdu (pdu : Bytes) (request : RTestParsedRequest) :
    Except RClientError RTestParsedRequest :=
  if pdu.length < R_PDU_HEADER_LEN then .error .errProtocol
  else
    let declaredLen := (rLe16 pdu 2).toNat
    if declaredLen ≠ pdu.length || declaredLen < R_PDU_HEADER_LEN then .error .errProtocol
    else
      let pduType := rLe16 pdu 0
      let body := pdu.drop R_PDU_HEADER_LEN
      if body.length < 4 then .error .errProtocol
      else if pduType = R_PDU_RATE_REQUEST then
        let guardCount := rLe16 body 0
        let resourceCount := rLe16 body 2
        let guardBytes := guardCount.toNat * R_GUARD_BLOCK_WIRE_LEN
        let resourceBytes := resourceCount.toNat * R_RESOURCE_BLOCK_WIRE_LEN
        if guardBytes > body.length - 4 || resourceBytes > body.length - 4 - guardBytes then
          .error .errProtocol
        else
          match parseMetricsLabel body (4 + guardBytes + resourceBytes) with
          | .error rc => .error rc
          | .ok label =>
              .ok { request with
                    pduType := pduType
                    body := body
                    guardCount := guardCount
                    resourceCount := resourceCount
                    guards := body.drop 4
                    resources := body.drop (4 + guardBytes)
                    label := label }
      else if pduType = R_PDU_LATENCY_REPORT then
        let reportCount := rLe16 body 0
        if reportCount.toNat * R_SERVICE_LATENCY_BLOCK_WIRE_LEN ≠ body.length - 4 then
          .error .errProtocol
        else
          .ok { request with
                pduType := pduType
                body := body
                reportCount := reportCount
                reports := body.drop 4 }
      else .error .errProtocol

/-- `observe_tracker` at the front of a block. -/
def observeTracker (block : Bytes) : RTestTrackerObservation where
  present := true
  latencyTrackerId := FixedBytes.ofSlice 16 block 0
  ttlMs := rLe32 block 16
  maxSamples := rLe32 block 20
  minSampleThreshold := rLe32 block 24

/-! ### Responses -/

/-- Writes `bytes` over a buffer at `off`. -/
def patch (buf : Bytes) (off : Nat) (bytes : Bytes) : Bytes :=
  buf.take off ++ (bytes ++ buf.drop (off + bytes.length))

/-- The search of `quota_allows` through the entries in use. -/
def quotaCount (allowCount : UInt64) (bucketId : FixedBytes 16) :
    List RTestQuotaEntry → Option (Bool × List RTestQuotaEntry)
  | [] => none
  | entry :: rest =>
      if entry.bucketId = bucketId then
        some (decide (entry.requests < allowCount),
          { entry with requests := entry.requests + 1 } :: rest)
      else
        match quotaCount allowCount bucketId rest with
        | none => none
        | some (allowed, rest') => some (allowed, entry :: rest')

/-- `quota_allows`; `none` is its -1. -/
def quotaAllows (state : RTestResponderState) (bucketId : FixedBytes 16) :
    Option (Bool × RTestResponderState) :=
  match quotaCount state.allowCount bucketId state.quota with
  | some (allowed, quota) => some (allowed, { state with quota := quota })
  | none =>
      if state.quota.length ≥ R_TEST_RESPONDER_QUOTA_CAP then none
      else
        some (decide (state.allowCount > 0),
          { state with quota := state.quota ++ [{ bucketId := bucketId, requests := 1 }] })

/-- The counts of the response; the `count` scenarios disagree with the request. -/
def responseCounts (scenario : RTestScenario) (guardCount resourceCount : UInt16) :
    Option (UInt16 × UInt16) :=
  match scenario with
  | .countEmpty => some (0, 0)
  | .countShort =>
      if resourceCount > 0 then some (guardCount, resourceCount - 1)
      else if guardCount > 0 then some (guardCount - 1, resourceCount)
      else some (guardCount, resourceCount)
  | .countExtra =>
      if resourceCount < 0xffff then some (guardCount, resourceCount + 1)
      else if guardCount < 0xffff then some (guardCount + 1, resourceCount)
      else none
  | _ => some (guardCount, resourceCount)

/-- Guard block `i` of the response: the block of the request, or one with
    threshold 1, with the current latency written into it. -/
def responseGuardBlock (scenario : RTestScenario) (request : RTestParsedRequest) (i : Nat) :
    Bytes :=
  let block :=
    if i < request.guardCount.toNat then
      (FixedBytes.ofSlice 36 request.guards (i * R_GUARD_BLOCK_WIRE_LEN)).val
    else patch (List.replicate 36 0) 28 (rWriteLe32 1)
  let threshold := rLe32 block 28
  let current := if threshold > 0 then threshold - 1 else 0
  patch block 32 (rWriteLe32 (if scenario = .guardDeny then threshold else current))

/-- The end of the resource loop's body: the deficit and the padding behind it. -/
def writeDeficit (block : Bytes) (deficit : UInt16) : Bytes :=
  patch (patch block 24 (rWriteLe16 deficit)) 26 (rWriteLe16 0)

/-- The deficit of a denied resource: the tokens asked for, at least one. -/
def deniedDeficit (source : Bytes) : UInt16 :=
  if rLe16 source 24 = 0 then 1 else rLe16 source 24

/-- Resource block `i` of the response. -/
def responseResourceBlock (request : RTestParsedRequest) (i : Nat) (state : RTestResponderState) :
    RTestResponderState × Except RClientError Bytes :=
  if i < request.resourceCount.toNat then
    let source := (FixedBytes.ofSlice 28 request.resources (i * R_RESOURCE_BLOCK_WIRE_LEN)).val
    match state.scenario with
    | .deny => (state, .ok (writeDeficit source (deniedDeficit source)))
    | .quota =>
        match quotaAllows state (FixedBytes.ofSlice 16 source 0) with
        | none => (state, .error .errNomem)
        | some (allowed, state') =>
            (state', .ok (writeDeficit source (if allowed then 0 else deniedDeficit source)))
    | _ => (state, .ok (writeDeficit source 0))
  else (state, .ok (writeDeficit (List.replicate 28 0) 1))

/-- The resource loop of `build_response_pdu`: `count` blocks from block `i` on. -/
def responseResourceBlocks (request : RTestParsedRequest) :
    (count i : Nat) → (state : RTestResponderState) →
      RTestResponderState × Except RClientError Bytes
  | 0, _, state => (state, .ok [])
  | count + 1, i, state =>
      match responseResourceBlock request i state with
      | (state', .error rc) => (state', .error rc)
      | (state', .ok block) =>
          match responseResourceBlocks request count (i + 1) state' with
          | (state'', .error rc) => (state'', .error rc)
          | (state'', .ok blocks) => (state'', .ok (block ++ blocks))

/-- `build_response_pdu`. -/
def buildResponsePdu (state : RTestResponderState) (request : RTestParsedRequest) (outCap : Nat) :
    RTestResponderState × Except RClientError Bytes :=
  match responseCounts state.scenario request.guardCount request.resourceCount with
  | none => (state, .error .errProtocol)
  | some (guardCount, resourceCount) =>
      let bodyLen := 4 + guardCount.toNat * R_GUARD_BLOCK_WIRE_LEN
        + resourceCount.toNat * R_RESOURCE_BLOCK_WIRE_LEN
      if bodyLen > R_MAX_PACKET_SIZE || bodyLen + R_PDU_HEADER_LEN > outCap then
        (state, .error .errProtocol)
      else
        let guards := (List.range guardCount.toNat).flatMap
          (responseGuardBlock state.scenario request)
        match responseResourceBlocks request resourceCount.toNat 0 state with
        | (state', .error rc) => (state', .error rc)
        | (state', .ok resources) =>
            let body := rWriteLe16 guardCount ++ (rWriteLe16 resourceCount ++
              (guards ++ resources))
            (state', rBuildPdu R_PDU_RATE_RESPONSE body outCap)

def responseHeader (state : RTestResponderState) (requestTenant : RTenantHeader)
    (wrongRequestId : Bool) : RTenantHeader where
  tlvType := R_TLV_TENANT
  tlvSize := UInt16.ofNat R_TENANT_TLV_LEN
  keyId := state.serverId
  uniqueId :=
    if wrongRequestId then
      FixedBytes.ofSlice 16
        (patch requestTenant.uniqueId.val 0 [requestTenant.uniqueId.val.getD 0 0 ^^^ 0x80]) 0
    else requestTenant.uniqueId
  timeStamp := requestTenant.timeStamp
  steeringFeedback := if state.steeringKeepPort then 1 else 0
  tenantMgmtFlag := 0
  padding0 := 0
  padding1 := 0

/-- `build_authenticated_response`. -/
def buildAuthenticatedResponse (gcm : Gcm) (state : RTestResponderState)
    (requestTenant : RTenantHeader) (pdu : Bytes) (wrongRequestId : Bool) (outCap : Nat)
    (io : EncryptIo) : Except RClientError Bytes :=
  if outCap < R_TENANT_TLV_LEN then .error .errProtocol
  else
    let header := rTenantHeaderWrite (responseHeader state requestTenant wrongRequestId)
    let pos := R_TENANT_TLV_LEN
    match state.authType with
    | .cookie =>
        if pos + 36 + pdu.length > outCap then .error .errProtocol
        else
          .ok (header ++ (rWriteLe16 R_TLV_AUTH_COOKIE ++ rWriteLe16 36
            ++ (state.secret.val ++ pdu)))
    | .aesGcm =>
        if pos + 32 + pdu.length > outCap then .error .errProtocol
        else
          let aad := header ++ (rWriteLe16 R_TLV_AUTH_AES ++ rWriteLe16 32)
          match rEncryptPduAesGcm gcm pdu state.secret aad R_MAX_PACKET_SIZE io with
          | none => .error .errAuth
          | some (cipher, nonce, tag) => .ok (aad ++ (nonce.val ++ (tag.val ++ cipher)))
    | .derive => .error .errProtocol

/-! ### One datagram -/

/-- What a call takes from OpenSSL. -/
structure RTestResponderIo where
  decryptOk : Bool
  encrypt : EncryptIo

/-- What a call leaves: the state, the return code and the outputs. `output` is
    the first `output_len` bytes of the buffer. -/
structure RTestOutcome where
  state : RTestResponderState
  rc : RClientError
  output : Bytes
  sendResponse : Bool
  event : RTestEvent

def rejectedEvent (sequence : UInt64) : RTestEvent where
  kind := .inputRejected
  sequence := sequence
  guardCount := 0
  resourceCount := 0
  reportCount := 0
  tracker :=
    { present := false
      latencyTrackerId := FixedBytes.replicate 16 0
      ttlMs := 0
      maxSamples := 0
      minSampleThreshold := 0 }
  trackerMatchesGuard := false
  guardThresholdMs := 0
  observedLatencyMs := 0
  label := FixedBytes.replicate 257 0
  disposition := "rejected"

/-- The latency-report branch of `r_test_responder_process`. -/
def observeReport (state : RTestResponderState) (request : RTestParsedRequest)
    (event : RTestEvent) : RTestOutcome :=
  let event := { event with
    kind := .latencyReport, reportCount := request.reportCount.toNat, disposition := "observed" }
  let event :=
    if request.reportCount > 0 then
      { event with
        tracker := observeTracker request.reports
        observedLatencyMs := rLe32 request.reports 28
        trackerMatchesGuard := state.hasLastGuardLatencyTrackerId &&
          decide (FixedBytes.ofSlice 16 request.reports 0 = state.lastGuardLatencyTrackerId) }
    else event
  { state := state, rc := .ok, output := [], sendResponse := false, event := event }

def requestEvent (request : RTestParsedRequest) (event : RTestEvent) : RTestEvent :=
  let event := { event with
    kind := .rateRequest
    guardCount := request.guardCount.toNat
    resourceCount := request.resourceCount.toNat
    label := request.label }
  if request.guardCount > 0 then
    { event with
      tracker := observeTracker request.guards
      guardThresholdMs := rLe32 request.guards 28 }
  else event

/-- The state remembers the first tracker of the last rate request. -/
def rememberGuard (state : RTestResponderState) (request : RTestParsedRequest) :
    RTestResponderState :=
  if request.guardCount > 0 then
    { state with
      lastGuardLatencyTrackerId := FixedBytes.ofSlice 16 request.guards 0
      hasLastGuardLatencyTrackerId := true }
  else { state with hasLastGuardLatencyTrackerId := false }

/-- The last part of `r_test_responder_process`: the output is damaged as the
    scenario asks for. -/
def sendScenario (state : RTestResponderState) (output : Bytes) (event : RTestEvent) :
    RTestOutcome :=
  match state.scenario with
  | .malformedAuth =>
      let authOffset := R_TENANT_TLV_LEN + 4
      let corruptOffset := if state.authType = .aesGcm then authOffset + 12 else authOffset
      if corruptOffset ≥ output.length then
        { state := state, rc := .errProtocol, output := output, sendResponse := false
          event := event }
      else
        { state := state
          rc := .ok
          output := patch output corruptOffset [output.getD corruptOffset 0 ^^^ 0x01]
          sendResponse := true
          event := { event with disposition := "malformed-auth" } }
  | .malformedTruncated =>
      if output.length = 0 then
        { state := state, rc := .errProtocol, output := output, sendResponse := false
          event := event }
      else
        { state := state
          rc := .ok
          output := output.take (output.length - 1)
          sendResponse := true
          event := { event with disposition := "malformed-truncated" } }
  | .malformedRequestId =>
      { state := state, rc := .ok, output := output, sendResponse := true
        event := { event with disposition := "malformed-request-id" } }
  | scenario =>
      { state := state, rc := .ok, output := output, sendResponse := true
        event := { event with disposition := rTestScenarioName scenario } }

/-- The rate-request branch of `r_test_responder_process`. -/
def answerRequest (gcm : Gcm) (state : RTestResponderState) (request : RTestParsedRequest)
    (outputCap : Nat) (io : EncryptIo) (event : RTestEvent) : RTestOutcome :=
  let event := requestEvent request event
  let state := rememberGuard state request
  if state.scenario = .drop then
    { state := state, rc := .ok, output := [], sendResponse := false
      event := { event with disposition := "dropped" } }
  else
    match buildResponsePdu state request R_MAX_PACKET_SIZE with
    | (state', .error rc) =>
        { state := state', rc := rc, output := [], sendResponse := false, event := event }
    | (state', .ok responsePdu) =>
        match buildAuthenticatedResponse gcm state' request.tenant responsePdu
            (decide (state'.scenario = .malformedRequestId)) outputCap io with
        | .error rc =>
            { state := state', rc := rc, output := [], sendResponse := false, event := event }
        | .ok output => sendScenario state' output event

/-- `r_test_responder_process`; an empty input is refused before anything is
    written. -/
def rTestResponderProcess (gcm : Gcm) (state : RTestResponderState) (input : Bytes)
    (outputCap : Nat) (io : RTestResponderIo) : Except RClientError RTestOutcome :=
  if input.length = 0 then .error .errConfig
  else
    let state := { state with sequence := state.sequence + 1 }
    let event := rejectedEvent state.sequence
    let reject := fun rc =>
      { state := state, rc := rc, output := [], sendResponse := false, event := event :
        RTestOutcome }
    match extractAuthenticatedPdu gcm state input io.decryptOk with
    | .error rc => .ok (reject rc)
    | .ok (tenant, pdu) =>
        match parseRequestPdu pdu (RTestParsedRequest.cleared tenant) with
        | .error rc => .ok (reject rc)
        | .ok request =>
            if request.pduType = R_PDU_LATENCY_REPORT then
              .ok (observeReport state request event)
            else .ok (answerRequest gcm state request outputCap io.encrypt event)

end RlClient
