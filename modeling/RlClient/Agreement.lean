import RlClient.Network

/-!
# Every result is the answer to its request

Across any interleaving of any number of clients and responders, with a network that
reorders, repeats, drops, reflects and makes up packets: a request that completes
successfully has been handed to a responder, and what its callback is given is what that
responder answered to that very request.
-/

namespace RlClient

variable {gcm : Gcm} {ι κ : Type}

/-! ### Packets by their PDU -/

/-- A packet that is sent for no request carries a latency report. -/
theorem run_reported {args : CreateArgs} {c : RClient} (hcreate : rClientCreate args = .ok c)
    {calls : List Call} {m : Machine} {trace : List Effect}
    (hrun : run gcm c calls = some (m, trace)) {pass : SendPass} {startedMs : UInt64} {i : Nat}
    {addr : RAddr} {packet : Bytes} {ok : Bool}
    (hsent : Effect.udpSend none pass startedMs i addr packet ok ∈ trace) :
    ∃ body pdu requestId timeStamp io, Framed R_PDU_LATENCY_REPORT 0 body pdu ∧
      framePdu gcm c.credential (requestHeader c.credential.keyId requestId timeStamp) pdu
        R_MAX_PACKET_SIZE io = .ok packet := by
  obtain ⟨before, after, rfl⟩ := List.append_of_mem hsent
  obtain ⟨calls₁, call, calls₂, m₁, trace₁, m₂, left, right, -, hfirst, hstep, -⟩ :=
    Run.exec_locate hrun
  have hwf := run_wf hcreate hfirst
  have hmem : Effect.udpSend none pass startedMs i addr packet ok ∈
      left ++ Effect.udpSend none pass startedMs i addr packet ok :: right :=
    List.mem_append_right _ List.mem_cons_self
  rcases step_report_sends hwf hstep with hrequests | ⟨reports, io, -, heffects⟩
  · exact absurd rfl (hrequests _ hmem rfl)
  · rw [heffects] at hmem
    obtain ⟨pdu, requestId, hpdu, hframed⟩ := rClientReportLatency_framed hmem
    rw [credential_of_static hwf.static] at hframed
    unfold latencyReportPdu at hpdu
    split at hpdu
    · cases hpdu
    · exact ⟨_, pdu, requestId, io.stampMs, io.encrypt, buildPdu_framed hpdu, hframed⟩

theorem buildResponsePdu_framed {state state' : RTestResponderState}
    {request : RTestParsedRequest} {outCap : Nat} {pdu : Bytes}
    (h : buildResponsePdu state request outCap = (state', .ok pdu)) :
    ∃ body, Framed R_PDU_RATE_RESPONSE 0 body pdu := by
  unfold buildResponsePdu at h
  split at h
  · cases h
  simp only at h
  split at h
  · cases h
  split at h
  · cases h
  · exact ⟨_, buildPdu_framed (Prod.mk.inj h).2⟩

/-- The request that a client has built for a handle, as a responder opens it. -/
structure Asked (gcm : Gcm) (cred : RCredential) (guards : List RLatencyGuard)
    (resources : List RResourceRequest) (requestId : FixedBytes 16) (packet : Bytes) : Prop where
  opened : ∃ tenant pos pdu label ttl bodyCap body,
    Opened gcm cred packet true tenant pos pdu ∧ tenant.uniqueId = requestId ∧
    rBuildRateRequestBody resources guards label bodyCap = .ok body ∧
    Framed R_PDU_RATE_REQUEST ttl body pdu

theorem rBuildRateRequestPacket_asked {cred receiver : RCredential}
    (hshares : SharesSecret cred receiver)
    (hinverts : cred.authType = .aesGcm → Invertible gcm cred.aesKey) {rq : RateRequest}
    {stampMs : UInt64} {io : EncryptIo} {packet : Bytes}
    (h : rBuildRateRequestPacket gcm cred rq stampMs io = .ok packet) :
    Asked gcm receiver rq.guards rq.resources rq.requestId packet := by
  unfold rBuildRateRequestPacket at h
  split at h
  · cases h
  rename_i pdu hpdu
  simp only at h
  obtain ⟨body, hbody, hframed⟩ := encodeRequest_ok
    (show encodeRequest rq.guards rq.resources rq.metricsLabel rq.dedupTtlMs R_MAX_PACKET_SIZE
      R_MAX_PACKET_SIZE = .ok pdu from hpdu)
  have hopened := framePdu_opens hshares rfl rfl (by rw [hframed.size]; omega) hinverts
    (fun _ => rfl) h
  exact ⟨_, _, pdu, _, _, _, body, hopened, rfl, hbody, hframed⟩

theorem Opened.unique {cred : RCredential} {packet : Bytes} {evpOk : Bool}
    {tenant tenant' : RTenantHeader} {pos pos' : Nat} {pdu pdu' : Bytes}
    (h : Opened gcm cred packet evpOk tenant pos pdu)
    (h' : Opened gcm cred packet evpOk tenant' pos' pdu') : tenant = tenant' ∧ pdu = pdu' := by
  obtain ⟨htenant, rfl⟩ := Prod.mk.inj (Except.ok.inj (h.parsed.symm.trans h'.parsed))
  exact ⟨htenant, Except.ok.inj (h.extracted.symm.trans h'.extracted)⟩

/-! ### The key of a deployment -/

theorem Deployment.inverts {d : Deployment ι κ}
    (hinverts : d.key.authType = .aesGcm → Invertible gcm d.key.secret) (i : ι) :
    (d.client i).credential.authType = .aesGcm →
      Invertible gcm (d.client i).credential.aesKey := by
  intro haes
  have hauth := (d.configured i).authType.symm.trans haes
  rw [((d.configured i).aes hauth).2]
  exact hinverts hauth

theorem Deployment.kept_credential (d : Deployment ι κ) {n : Nat} {j : κ}
    {state : RTestResponderState} (hkept : Kept n (d.responder j) state) :
    state.credential = d.key.credential :=
  hkept.credential.trans (d.responder_credential j)

theorem Deployment.kept_inverts {d : Deployment ι κ}
    (hinverts : d.key.authType = .aesGcm → Invertible gcm d.key.secret) {n : Nat} {j : κ}
    {state : RTestResponderState} (hkept : Kept n (d.responder j) state) :
    state.authType = .aesGcm → Invertible gcm state.secret := by
  intro haes
  have hcredential := d.kept_credential hkept
  have hsecret : state.secret = d.key.secret := congrArg RCredential.aesKey hcredential
  rw [hsecret]
  exact hinverts ((congrArg RCredential.authType hcredential).symm.trans haes)

theorem ApiKey.shares_self (key : ApiKey) : SharesSecret key.credential key.credential :=
  ⟨rfl, fun _ => ⟨rfl, rfl⟩, fun _ => ⟨rfl, rfl⟩⟩

/-- An answer opens under the key of the deployment, as the response that was framed. -/
theorem Answered.output_opened {d : Deployment ι κ}
    (hinverts : d.key.authType = .aesGcm → Invertible gcm d.key.secret) {n : Nat} {j : κ}
    {state : RTestResponderState} (hkept : Kept n (d.responder j) state) {input : Bytes}
    {outcome : RTestOutcome} {tenant : RTenantHeader} {requestPdu : Bytes}
    {request : RTestParsedRequest} {pdu : Bytes}
    (h : Answered gcm state input outcome tenant requestPdu request pdu) :
    Opened gcm d.key.credential outcome.output true (responseHeader state tenant false)
        R_TENANT_TLV_LEN pdu ∧ rLe16 pdu 0 = R_PDU_RATE_RESPONSE := by
  obtain ⟨body, hframed⟩ := buildResponsePdu_framed h.built
  obtain ⟨encrypt, hpacket⟩ := h.framed
  rw [d.kept_credential hkept] at hpacket
  exact ⟨framePdu_opens d.key.shares_self rfl rfl (by rw [hframed.size]; omega) hinverts
    (fun _ => rfl) hpacket, hframed.type⟩

/-! ### Answers -/

theorem Answered.content {state : RTestResponderState} {input : Bytes} {outcome : RTestOutcome}
    {tenant : RTenantHeader} {requestPdu : Bytes} {request : RTestParsedRequest} {pdu : Bytes}
    (h : Answered gcm state input outcome tenant requestPdu request pdu)
    (htruthful : state.scenario.truthful = true) {guards : List RLatencyGuard}
    {resources : List RResourceRequest} {requestId : FixedBytes 16}
    (hasked : Asked gcm state.credential guards resources requestId input) :
    ∃ answers, List.Forall₂ (ResourceAnswer state.scenario) resources answers ∧
      (responseAt pdu).guards = guards.map (fun guard =>
        guardResultOf (guard, currentLatencyOf state.scenario guard)) ∧
      (responseAt pdu).resources = answers.map resourceResultOf ∧
      (state.scenario = .quota →
        Grants state.allowCount state.quota outcome.state.quota answers) := by
  obtain ⟨tenant', pos, built, label, ttl, bodyCap, body, hbuilt, -, hbody, hframed⟩ :=
    hasked.opened
  obtain ⟨pos', hopened⟩ := h.opened
  obtain ⟨rfl, rfl⟩ := hopened.unique hbuilt
  have hcarries := Carries.of_parsed hbody hframed h.parsed h.rate
  have hremembered := rememberGuard_kept { state with sequence := state.sequence + 1 } request
  have hscenario : (rememberGuard { state with sequence := state.sequence + 1 } request).scenario =
      state.scenario := hremembered.scenario
  have hallow : (rememberGuard { state with sequence := state.sequence + 1 } request).allowCount =
      state.allowCount := hremembered.allowCount
  have hquota : (rememberGuard { state with sequence := state.sequence + 1 } request).quota =
      state.quota := by
    obtain ⟨id, has, heq⟩ :=
      rememberGuard_eq { state with sequence := state.sequence + 1 } request
    rw [heq]
  obtain ⟨answers, hresponse, hall, hgrants⟩ := hcarries.responsePdu_ok
    (by rw [hscenario]; exact htruthful) h.built
  rw [hscenario] at hresponse hall hgrants
  rw [hallow, hquota] at hgrants
  obtain ⟨-, hguards, hresources⟩ := responseBody_read
    (by rw [List.length_map]; exact hcarries.guardBound)
    (by rw [← hall.length_eq]; exact hcarries.resourceBound) hresponse
  rw [List.map_map] at hguards
  exact ⟨answers, hall, hguards, hresources, hgrants⟩

/-! ### Ids -/

/-- The request that a packet was sent for, and the id in the packet's header. -/
def Occurrence.sentId? : Occurrence ι κ → Option ((ι × Handle) × FixedBytes 16)
  | .client i (.udpSend (some h) _ _ _ _ packet _) =>
      match rParseTenantHeader packet with
      | .ok (tenant, _) => some ((i, h), tenant.uniqueId)
      | .error _ => none
  | _ => none

/-- No two requests, of whichever clients, drew the same id. -/
def UniqueIds (trace : List (Occurrence ι κ)) : Prop :=
  ∀ p ∈ trace.filterMap Occurrence.sentId?, ∀ q ∈ trace.filterMap Occurrence.sentId?,
    p.2 = q.2 → p.1 = q.1

theorem mem_sentIds {trace : List (Occurrence ι κ)} {i : ι} {h : Handle} {pass : SendPass}
    {startedMs : UInt64} {index : Nat} {addr : RAddr} {packet : Bytes} {ok : Bool}
    (hmem : .client i (.udpSend (some h) pass startedMs index addr packet ok) ∈ trace)
    {tenant : RTenantHeader} {pos : Nat} (hparsed : rParseTenantHeader packet = .ok (tenant, pos)) :
    ((i, h), tenant.uniqueId) ∈ trace.filterMap Occurrence.sentId? :=
  List.mem_filterMap.mpr ⟨_, hmem, by simp only [Occurrence.sentId?, hparsed]⟩

theorem UniqueIds.mono {trace trace' : List (Occurrence ι κ)}
    (hsub : ∀ o ∈ trace', o ∈ trace) (h : UniqueIds trace) : UniqueIds trace' := by
  have hids : ∀ p ∈ trace'.filterMap Occurrence.sentId?,
      p ∈ trace.filterMap Occurrence.sentId? := by
    intro p hp
    obtain ⟨o, ho, hid⟩ := List.mem_filterMap.mp hp
    exact List.mem_filterMap.mpr ⟨o, hsub o ho, hid⟩
  exact fun p hp q hq => h p (hids p hp) q (hids q hq)

/-! ### Requests on the wire -/

variable [DecidableEq ι] [DecidableEq κ]

section

variable {d : Deployment ι κ} {events : List (NetworkEvent ι κ)} {net : Network ι κ}
  {trace : List (Occurrence ι κ)}

theorem Deployment.sent_asked
    (hinverts : d.key.authType = .aesGcm → Invertible gcm d.key.secret)
    (hrun : Run.exec (Network.step gcm d.key.credential) d.start events = some (net, trace))
    {i : ι} {h : Handle} {pass : SendPass} {startedMs : UInt64} {index : Nat} {addr : RAddr}
    {packet : Bytes} {ok : Bool}
    (hsent : .client i (.udpSend (some h) pass startedMs index addr packet ok) ∈ trace) :
    ∃ guards resources requestId,
      Asked gcm d.key.credential guards resources requestId packet := by
  obtain ⟨calls, hclient⟩ := client_run hrun i
  have hown := mem_effects hsent
  rcases run_bound (d.created i) hclient h with ⟨-, hnone⟩ | ⟨sent, hpromised, hsends, -⟩
  · exact (hnone pass startedMs index addr packet ok (mem_about.mpr ⟨hown, rfl⟩)).elim
  · rw [hsends pass startedMs index addr packet ok (mem_about.mpr ⟨hown, rfl⟩)]
    obtain ⟨submit, io, req, ⟨built⟩, -, rfl⟩ := hpromised
    have hpacket : req.packet = built.packet := congrArg RClientReq.packet built.eq
    rw [hpacket]
    exact ⟨_, _, _, rBuildRateRequestPacket_asked (d.configured i).outward (inverts hinverts i)
      built.framed⟩

/-- A request that a responder opens was sent by a client. -/
theorem Deployment.request_origin
    (htruthful : ∀ j, (d.responder j).scenario.truthful = true)
    (hinverts : d.key.authType = .aesGcm → Invertible gcm d.key.secret)
    (hrun : Run.exec (Network.step gcm d.key.credential) d.start events = some (net, trace))
    {pre : List (Occurrence ι κ)} (hpre : ∀ o ∈ pre, o ∈ trace) {packet : Bytes}
    (horigin : Origin pre packet) {tenant : RTenantHeader} {pos : Nat} {pdu : Bytes}
    (hopened : Opened gcm d.key.credential packet true tenant pos pdu)
    (htype : rLe16 pdu 0 = R_PDU_RATE_REQUEST) :
    ∃ i h pass startedMs index addr ok,
      .client i (.udpSend (some h) pass startedMs index addr packet ok) ∈ pre := by
  cases horigin with
  | sent i h pass startedMs index addr ok hmem =>
    cases h with
    | some h => exact ⟨i, h, pass, startedMs, index, addr, ok, hmem⟩
    | none =>
      obtain ⟨calls, hclient⟩ := client_run hrun i
      obtain ⟨body, reported, requestId, timeStamp, io, hframed, hpacket⟩ :=
        run_reported (d.created i) hclient (mem_effects (hpre _ hmem))
      have hreport := framePdu_opens (d.configured i).outward rfl rfl
        (by rw [hframed.size]; omega) (inverts hinverts i) (fun _ => rfl) hpacket
      rw [(hopened.unique hreport).2, hframed.type] at htype
      exact absurd htype (by decide)
  | answered j state input outcome hmem hsent houtput =>
    obtain ⟨before, after, rfl⟩ := List.append_of_mem (hpre _ hmem)
    obtain ⟨hkept, -, io, hprocess⟩ := served hrun
    obtain ⟨tenant', requestPdu, request, answer, hanswered⟩ := rTestResponderProcess_answered
      (by rw [hkept.scenario]; exact htruthful j) (kept_inverts hinverts hkept) hprocess hsent
    obtain ⟨hresponse, hother⟩ := hanswered.output_opened hinverts hkept
    rw [houtput] at hresponse
    rw [(hopened.unique hresponse).2, hother] at htype
    exact absurd htype (by decide)
  | made hmem =>
    have hforeign := injected_foreign hrun (hpre _ hmem)
    rw [hopened.opens] at hforeign
    cases hforeign

/-! ### Responses -/

/-- What a client reads from the PDU of a responder's answer. -/
def RTestResponderState.response (state : RTestResponderState) (pdu : Bytes) : RResponse where
  serverId := state.serverId
  steeringByte := if state.steeringKeepPort then 1 else 0
  success := (responseAt pdu).success
  guards := (responseAt pdu).guards
  resources := (responseAt pdu).resources

/-- A submitted request has been handed to the network at least once. -/
theorem submitted_sent {args : CreateArgs} {c : RClient} (hcreate : rClientCreate args = .ok c)
    {calls : List Call} {m : Machine} {effects : List Effect}
    (hclient : run gcm c calls = some (m, effects)) {h : Handle} {started : RClientReq}
    (hsubmitted : Effect.submitted h started ∈ effects) :
    ∃ pass startedMs index addr ok,
      Effect.udpSend (some h) pass startedMs index addr started.packet ok ∈ effects := by
  obtain ⟨⟨launch⟩, -⟩ := submitted_launch hcreate hclient hsubmitted
  obtain ⟨htransmitted, -⟩ := run_transmitted hcreate hclient hsubmitted
  have hzero : 0 ∈ attempts h (.round 0) effects := by
    rw [htransmitted.first, List.mem_range, launch.fields.2.1]
    exact List.length_pos_iff.mpr launch.built.nonempty
  obtain ⟨effect, hmem, hattempt⟩ := List.mem_filterMap.mp hzero
  cases effect with
  | udpSend k pass startedMs index addr packet ok =>
    simp only [Effect.attempt?] at hattempt
    split at hattempt
    · rename_i hown
      rw [hown.1] at hmem
      obtain ⟨⟨rfl, -⟩, -⟩ := htransmitted.owned _ _ _ _ _ _ hmem
      exact ⟨pass, startedMs, index, addr, ok, hmem⟩
    · cases hattempt
  | _ => cases hattempt

/-- An accepted response is an answer that a responder has sent. -/
theorem Deployment.accepted_answered
    (htruthful : ∀ j, (d.responder j).scenario.truthful = true)
    (hinverts : d.key.authType = .aesGcm → Invertible gcm d.key.secret)
    {pre post : List (Occurrence ι κ)} {i : ι} {h : Handle} {response : RResponse}
    (hrun : Run.exec (Network.step gcm d.key.credential) d.start events =
      some (net, pre ++ .client i (.accepted h response) :: post)) :
    ∃ calls m effects req j state input outcome tenant requestPdu request pdu,
      run gcm (d.client i) calls = some (m, effects) ∧
      (∀ effect ∈ effects, .client i effect ∈ pre) ∧ req ∈ m.client.inflight ∧ req.handle = h ∧
      req.requestId = tenant.uniqueId ∧ .served j state input outcome ∈ pre ∧
      Origin pre input ∧ Kept (0xffff * (events.length - 1)) (d.responder j) state ∧
      Answered gcm state input outcome tenant requestPdu request pdu ∧
      outcome.sendResponse = true ∧
      (∃ alloc, Reads gcm d.key.credential outcome.output true alloc req.requestId response) ∧
      response = state.response pdu := by
  obtain ⟨packet, io, calls, m, effects, req, hclient, heffects, horigin, hgate, hhandle⟩ :=
    accepted hrun
  have hwf := run_wf (d.created i) hclient
  have hstatic : m.client.credential = (d.client i).credential := credential_of_static hwf.static
  obtain ⟨tenant, pos, pdu, parsed, hparsed, hfind, -, -, hextract, hresponse, heq⟩ :=
    onDatagramGate_ok_iff.mp hgate
  have hopened : Opened gcm d.key.credential packet true tenant pos pdu := by
    rw [hstatic] at hextract
    exact (Opened.mk hparsed hextract).ready.shared (d.configured i).outward
  cases horigin with
  | sent k sender pass startedMs index addr ok hmem =>
    -- a client's own packets are no responses
    obtain ⟨before, after, rfl⟩ := List.append_of_mem hmem
    obtain ⟨calls', hsender⟩ := client_run hrun k
    have hshares : SharesSecret (d.client k).credential m.client.credential := by
      rw [hstatic]
      exact (d.configured k).shares (d.configured i)
    obtain ⟨status, hrefused⟩ := (run_emitted (d.created k) hsender
      (mem_effects (List.mem_append_left _ hmem))).refused hshares (inverts hinverts k) io
    rw [hrefused] at hgate
    cases hgate
  | made hmem =>
    have hforeign := injected_foreign hrun (List.mem_append_left _ hmem)
    rw [hopened.opens] at hforeign
    cases hforeign
  | answered j state input outcome hmem hsent houtput =>
    obtain ⟨before, after, rfl⟩ := List.append_of_mem hmem
    obtain ⟨hkept, hinput, rio, hprocess⟩ := served (by
      rw [List.append_assoc, List.cons_append] at hrun
      exact hrun)
    obtain ⟨asked, requestPdu, request, answer, hanswered⟩ := rTestResponderProcess_answered
      (by rw [hkept.scenario]; exact htruthful j) (kept_inverts hinverts hkept) hprocess hsent
    obtain ⟨hanswer, -⟩ := hanswered.output_opened hinverts hkept
    rw [houtput] at hanswer
    obtain ⟨rfl, rfl⟩ := hopened.unique hanswer
    have hid := List.find?_some hfind
    rw [beq_iff_eq] at hid
    refine ⟨calls, m, effects, req, j, state, input, outcome, asked, requestPdu, request, pdu,
      hclient, heffects, List.mem_of_find?_eq_some hfind, hhandle, hid, hmem,
      hinput.mono fun o ho => List.mem_append_left _ ho, hkept, hanswered, hsent,
      ⟨io.allocResponse, _, pos, pdu, parsed, houtput.symm ▸ hopened, hid.symm, hresponse, heq⟩, ?_⟩
    rw [heq, (rParseRateResponseAlloc_ok hresponse).2]
    rfl

/-- **An accepted response answers its own request.** With distinct ids, the packet that the
    responder was given is the packet of the request that accepts the response. -/
theorem Deployment.accepted_served
    (htruthful : ∀ j, (d.responder j).scenario.truthful = true)
    (hinverts : d.key.authType = .aesGcm → Invertible gcm d.key.secret)
    {pre post : List (Occurrence ι κ)} {i : ι} {h : Handle} {response : RResponse}
    (hrun : Run.exec (Network.step gcm d.key.credential) d.start events =
      some (net, pre ++ .client i (.accepted h response) :: post)) (hdistinct : UniqueIds pre) :
    ∃ started j state outcome tenant requestPdu request pdu,
      .client i (.submitted h started) ∈ pre ∧ .served j state started.packet outcome ∈ pre ∧
      Kept (0xffff * (events.length - 1)) (d.responder j) state ∧
      Answered gcm state started.packet outcome tenant requestPdu request pdu ∧
      Asked gcm state.credential started.guards started.resources started.requestId
        started.packet ∧
      outcome.sendResponse = true ∧
      (∃ alloc, Reads gcm d.key.credential outcome.output true alloc started.requestId response) ∧
      response = state.response pdu := by
  obtain ⟨calls, m, effects, req, j, state, input, outcome, tenant, requestPdu, request, pdu,
    hclient, heffects, hmem, hhandle, hid, hserved, horigin, hkept, hanswered, hanswers, hreads,
    hresponse⟩ := accepted_answered htruthful hinverts hrun
  -- some client has sent what the responder was given
  obtain ⟨pos, hopened⟩ := hanswered.opened
  rw [d.kept_credential hkept] at hopened
  obtain ⟨k, h', pass', startedMs', index', addr', ok', hsender⟩ :=
    request_origin htruthful hinverts hrun (fun o ho => List.mem_append_left _ ho) horigin hopened
      (parseRequestPdu_rate hanswered.parsed hanswered.rate).1
  -- the request that accepts has the same id, and has sent a packet too
  have hlive : m.view h = .live req :=
    hhandle ▸ view_of_mem (run_wf (d.created i) hclient) hmem
  obtain ⟨started, ⟨launch⟩, hsame, hmarks⟩ := run_live (d.created i) hclient hlive
  have hsubmitted : Effect.submitted h started ∈ effects := by
    rw [submitted_mem, hmarks]
    exact List.mem_cons_self
  obtain ⟨pass, startedMs, index, addr, ok, hsent⟩ :=
    submitted_sent (d.created i) hclient hsubmitted
  obtain ⟨rq, stampMs, io, hbuilt, hguards, hresources, hrequestId, -⟩ := launch.packet_built
  have hasked := rBuildRateRequestPacket_asked (d.configured i).outward (inverts hinverts i) hbuilt
  rw [hguards, hresources, hrequestId] at hasked
  obtain ⟨tenant', pos', pdu', -, -, -, -, hopened', hid', -⟩ := hasked.opened
  have hrequest := hdistinct _ (mem_sentIds hsender hopened.parsed) _
    (mem_sentIds (heffects _ hsent) hopened'.parsed) (by rw [hid', ← hsame.requestId, hid])
  obtain ⟨rfl, rfl⟩ := Prod.mk.inj hrequest
  -- so the two packets are one
  obtain ⟨calls', hclient'⟩ := client_run hrun k
  obtain ⟨htransmitted, -⟩ := run_transmitted (d.created k) hclient'
    (mem_effects (List.mem_append_left _ (heffects _ hsubmitted)))
  obtain ⟨⟨rfl, -⟩, -⟩ := htransmitted.owned _ _ _ _ _ _
    (mem_effects (List.mem_append_left _ hsender))
  rw [← d.kept_credential hkept] at hasked
  rw [hsame.requestId] at hreads
  exact ⟨started, j, state, outcome, tenant, requestPdu, request, pdu, heffects _ hsubmitted,
    hserved, hkept, hanswered, hasked, hanswers, hreads, hresponse⟩

/-! ### Results -/

theorem callback_accepted {args : CreateArgs} {c : RClient} (hcreate : rClientCreate args = .ok c)
    {calls : List Call} {m : Machine} {pre post : List Effect} {h : Handle}
    {result : RRateLimitResult}
    (hrun : run gcm c calls = some (m, pre ++ .callback (some h) .ok (some result) :: post)) :
    ∃ response, Effect.accepted h response ∈ pre ∧ result = response.result := by
  obtain ⟨last, -, -, hknows, -, -, -, hended⟩ := callback_knows hcreate hrun
  obtain ⟨best, hbest, hlast⟩ : ∃ best, some result = some best ∧ last.best = some best := by
    rcases hended with ⟨-, hok⟩ | ⟨hbad, -⟩
    · exact hok
    · exact absurd rfl hbad
  obtain rfl := Option.some.inj hbest
  have hcandidate := hknows.candidate
  rw [hlast] at hcandidate
  obtain ⟨response, ⟨before, after, hresponses, -⟩, hresult⟩ := hcandidate.firstOldest
  refine ⟨response, mem_acceptedBy.mp ?_, hresult⟩
  rw [hresponses]
  exact List.mem_append_right _ List.mem_cons_self

/-- The whole way of a result: the request was submitted and served, and what the callback is
    given is read from the answer. -/
theorem Deployment.completed
    (htruthful : ∀ j, (d.responder j).scenario.truthful = true)
    (hinverts : d.key.authType = .aesGcm → Invertible gcm d.key.secret)
    {pre post : List (Occurrence ι κ)} {i : ι} {h : Handle} {result : RRateLimitResult}
    (hrun : Run.exec (Network.step gcm d.key.credential) d.start events =
      some (net, pre ++ .client i (.callback (some h) .ok (some result)) :: post))
    (hdistinct : UniqueIds pre) :
    ∃ started j state outcome answers, .client i (.submitted h started) ∈ pre ∧
      .served j state started.packet outcome ∈ pre ∧ outcome.sendResponse = true ∧
      (∃ alloc response, result = response.result ∧
        Reads gcm d.key.credential outcome.output true alloc started.requestId response) ∧
      Kept (0xffff * (events.length - 1)) (d.responder j) state ∧
      result.serverId = state.serverId ∧ result.steeringFeedback = state.steeringKeepPort ∧
      result.guards = started.guards.map (fun guard =>
        guardResultOf (guard, currentLatencyOf state.scenario guard)) ∧
      List.Forall₂ (ResourceAnswer state.scenario) started.resources answers ∧
      result.resources = answers.map resourceResultOf ∧
      (result.success = true ↔ (∀ guard ∈ result.guards, guard.passed = true) ∧
        ∀ resource ∈ result.resources, resource.tokensDeficit = 0) ∧
      (state.scenario = .quota →
        Grants state.allowCount state.quota outcome.state.quota answers) := by
  obtain ⟨calls, hclient⟩ := client_run hrun i
  rw [filterMap_effect_split] at hclient
  obtain ⟨response, haccepted, hresult⟩ := callback_accepted (d.created i) hclient
  obtain ⟨front, back, rfl⟩ := List.append_of_mem (mem_of_effects haccepted)
  rw [List.append_assoc, List.cons_append] at hrun
  obtain ⟨started, j, state, outcome, tenant, requestPdu, request, pdu, hsubmitted, hserved,
    hkept, hanswered, hasked, hanswers, ⟨alloc, hreads⟩, hresponse⟩ :=
    accepted_served htruthful hinverts hrun (hdistinct.mono fun o ho => List.mem_append_left _ ho)
  obtain ⟨answers, hall, hguards, hresources, hgrants⟩ :=
    hanswered.content (by rw [hkept.scenario]; exact htruthful j) hasked
  refine ⟨started, j, state, outcome, answers, List.mem_append_left _ hsubmitted,
    List.mem_append_left _ hserved, hanswers, ⟨alloc, response, hresult, hreads⟩, hkept, ?_⟩
  rw [hresponse] at hresult
  refine ⟨?_, ?_, ?_, hall, ?_, ?_, hgrants⟩
  · rw [hresult]
    rfl
  · rw [hresult]
    cases hflag : state.steeringKeepPort <;>
      simp [RTestResponderState.response, RResponse.result, hflag]
  · rw [hresult]
    exact hguards
  · rw [hresult]
    exact hresources
  · rw [hresult]
    show (responseAt pdu).success = true ↔ _
    simp [responseAt, RTestResponderState.response, RResponse.result]

end

def sharedResponder : RTestResponderState := meteredKey.responder .quota 3 true 1

theorem meteredKey_configured :
    some meteredKey.decoded = configuredKey .granted meteredKey.encode :=
  (meteredKey.configuredKey_of_open (meteredKey.open_iff.mpr (.inl rfl))).symm

theorem meteredClient_created :
    rClientCreate { sampleArgs with decoded := some meteredKey.decoded } = .ok meteredClient := rfl

theorem sharedResponder_initialised :
    rTestResponderInit .granted .quota (some meteredKey.encode) 3 true 1 = .ok sharedResponder :=
  rTestResponderInit_spelled (.inl rfl) .quota (by decide) true 1

def sharedDeployment : Deployment Bool Unit where
  key := meteredKey
  args _ := { sampleArgs with decoded := some meteredKey.decoded }
  client _ := meteredClient
  responder _ := sharedResponder
  keyed _ := ⟨meteredKey.encode, .inl rfl, meteredKey_configured⟩
  created _ := meteredClient_created
  initialised _ := ⟨meteredKey.encode, .quota, 3, true, 1, .inl rfl, sharedResponder_initialised⟩

def sharedPacket (id : UInt8) : Bytes :=
  ((run noGcm meteredClient [sampleSubmit id 100]).bind firstPacket).getD []

def sharedAnswer (state : RTestResponderState) (id : UInt8) : RTestResponderState × Bytes :=
  match rTestResponderProcess noGcm state (sharedPacket id) R_MAX_PACKET_SIZE sampleResponderIo with
  | .ok outcome => (outcome.state, outcome.output)
  | .error _ => (state, [])

/-- Both requests are sent before one of them is served. The second client gets its answer
    first, and the first client also gets that answer, which is not for it. -/
def sharedEvents : List (NetworkEvent Bool Unit) :=
  let first := sharedAnswer sharedResponder 1
  let second := sharedAnswer first.1 2
  [.host true (sampleSubmit 1 100), .host false (sampleSubmit 2 100), .inject [1, 2, 3],
    .serve () (sharedPacket 1) sampleResponderIo, .serve () (sharedPacket 2) sampleResponderIo,
    .deliver true second.2 { sa := [], len := 0 } sampleDatagramIo,
    .deliver false second.2 { sa := [], len := 0 } sampleDatagramIo,
    .deliver true first.2 { sa := [], len := 0 } sampleDatagramIo]

def uniqueIds (trace : List (Occurrence Bool Unit)) : Bool :=
  let ids := trace.filterMap Occurrence.sentId?
  ids.all fun p => ids.all fun q => decide (p.2 = q.2 → p.1 = q.1)

theorem uniqueIds_sound {trace : List (Occurrence Bool Unit)} (h : uniqueIds trace = true) :
    UniqueIds trace := by
  intro p hp q hq
  exact of_decide_eq_true (List.all_eq_true.mp (List.all_eq_true.mp h p hp) q hq)

def Occurrence.asks (i : Bool) : Occurrence Bool Unit → Bool
  | .client k (.submitted 0 started) =>
      decide (k = i ∧ started.resources.map (·.bucketId) = [.replicate 16 9])
  | _ => false

def Occurrence.completes (i success : Bool) : Occurrence Bool Unit → Bool
  | .client k (.callback (some 0) .ok (some result)) => decide (k = i ∧ result.success = success)
  | _ => false

theorem completes_of_any {i success : Bool} {trace : List (Occurrence Bool Unit)}
    (h : trace.any (Occurrence.completes i success) = true) :
    ∃ result, .client i (.callback (some 0) .ok (some result)) ∈ trace ∧
      result.success = success := by
  obtain ⟨o, hmem, ho⟩ := List.any_eq_true.mp h
  unfold Occurrence.completes at ho
  split at ho
  · obtain ⟨rfl, hsuccess⟩ := of_decide_eq_true ho
    exact ⟨_, hmem, hsuccess⟩
  · cases ho

/-- Both requests completed, the first with a grant and the second without, under different
    ids. -/
theorem sharedRun :
    ∃ net trace started first second, Run.exec (Network.step noGcm meteredKey.credential)
        sharedDeployment.start sharedEvents = some (net, trace) ∧ UniqueIds trace ∧
      .client true (.submitted 0 started) ∈ trace ∧
      started.resources.map (·.bucketId) = [.replicate 16 9] ∧
      .client true (.callback (some 0) .ok (some first)) ∈ trace ∧ first.success = true ∧
      .client false (.callback (some 0) .ok (some second)) ∈ trace ∧ second.success = false := by
  obtain ⟨⟨net, trace⟩, hrun, hchecked⟩ := Option.map_eq_some_iff.mp
    (show (Run.exec (Network.step noGcm meteredKey.credential) sharedDeployment.start
      sharedEvents).map (fun last => (uniqueIds last.2, last.2.any (Occurrence.asks true),
        last.2.any (Occurrence.completes true true),
        last.2.any (Occurrence.completes false false))) = some (true, true, true, true) by
      decide +kernel)
  simp only [Prod.mk.injEq] at hchecked
  obtain ⟨hdistinct, hasks, hfirst, hsecond⟩ := hchecked
  obtain ⟨first, hgranted⟩ := completes_of_any hfirst
  obtain ⟨second, hdenied⟩ := completes_of_any hsecond
  obtain ⟨o, hmem, ho⟩ := List.any_eq_true.mp hasks
  unfold Occurrence.asks at ho
  split at ho
  · obtain ⟨rfl, hbuckets⟩ := of_decide_eq_true ho
    exact ⟨net, trace, _, first, second, hrun, uniqueIds_sound hdistinct, hmem, hbuckets,
      hgranted.1, hgranted.2, hdenied⟩
  · cases ho

end RlClient
