import RlClient.Conformance

/-!
# Packets that come back

Requests and responses share their header, their authentication and their key, so that a
packet a client has sent is authentic to every client with the same credential. What keeps
it from being taken for an answer is the type of its PDU alone. Every packet of a run is
`Emitted`, and no client accepts an emitted packet.
-/

namespace RlClient

variable {gcm : Gcm}

/-- A packet as a client makes it: a PDU that is a rate request or a latency report, in the
    frame of its credential. -/
def Emitted (gcm : Gcm) (cred : RCredential) (packet : Bytes) : Prop :=
  ∃ pduType word body pdu requestId timeStamp io,
    (pduType = R_PDU_RATE_REQUEST ∨ pduType = R_PDU_LATENCY_REPORT) ∧
      Framed pduType word body pdu ∧
      framePdu gcm cred (requestHeader cred.keyId requestId timeStamp) pdu R_MAX_PACKET_SIZE io =
        .ok packet

theorem Built.emitted {c : RClient} {h : Handle} {args : SubmitArgs} {io : SubmitIo}
    {req : RClientReq} (built : Built gcm c h args io req) :
    Emitted gcm c.credential req.packet := by
  have hframed := built.framed
  have hpacket : req.packet = built.packet := congrArg RClientReq.packet built.eq
  unfold rBuildRateRequestPacket at hframed
  split at hframed
  · cases hframed
  rename_i pdu hpdu
  unfold rateRequestPdu at hpdu
  split at hpdu
  · cases hpdu
  rw [hpacket]
  exact ⟨_, _, _, pdu, _, _, io.encrypt, .inl rfl, buildPdu_framed hpdu, hframed⟩

theorem reportPacket_emitted {c : RClient} {reports : List RServiceLatencyReport} {io : ReportIo}
    {packet : Bytes} (h : reportPacket gcm c reports io = .ok packet) :
    Emitted gcm c.credential packet := by
  unfold reportPacket at h
  split at h
  · cases h
  rename_i pdu hpdu
  split at h
  · cases h
  unfold latencyReportPdu at hpdu
  split at hpdu
  · cases hpdu
  exact ⟨_, _, _, pdu, _, _, io.encrypt, .inr rfl, buildPdu_framed hpdu, h⟩

/-! ### Every packet of a run is emitted -/

/-- No packet is sent, or every packet that is sent is sent for a request. -/
def RequestSends (effects : List Effect) : Prop :=
  ∀ e ∈ effects, e.isSend = true → e.handle? ≠ none

theorem requestSends_nil : RequestSends [] := fun _ he => nomatch he

theorem RequestSends.append {l r : List Effect} (hl : RequestSends l) (hr : RequestSends r) :
    RequestSends (l ++ r) := by
  intro e he
  rcases List.mem_append.mp he with he | he
  · exact hl e he
  · exact hr e he

theorem requestSends_quiet {e : Effect} (he : e.isSend = false) : RequestSends [e] := by
  intro e' he' hsend
  rw [List.mem_singleton.mp he', he] at hsend
  cases hsend

theorem requestSends_sendEffects (req : RClientReq) (missingOnly : Bool) (pass : SendPass)
    (startedMs : UInt64) (udpSend : Nat → Bool) :
    RequestSends (sendEffects req missingOnly pass startedMs udpSend) := by
  intro e he _
  rw [sendEffects_handle he]
  exact Option.some_ne_none _

theorem requestSends_rSendRateRequest (c : RClient) (req : RClientReq)
    (missingOnly bestEffort : Bool) (pass : SendPass) (startedMs : UInt64)
    (udpSend : Nat → Bool) :
    RequestSends
      (rSendRateRequest c req missingOnly bestEffort pass startedMs udpSend).effects := by
  rcases rSendRateRequest_effects c req missingOnly bestEffort pass startedMs udpSend with
    ⟨hnone, -⟩ | ⟨hsends, -⟩
  · rw [hnone]
    exact requestSends_nil
  · rw [hsends]
    exact requestSends_sendEffects req missingOnly pass startedMs udpSend

theorem requestSends_rStartRound (c : RClient) (req : RClientReq) (round : UInt32)
    (nowMs : UInt64) (udpSend : Nat → Bool) :
    RequestSends (rStartRound c req round nowMs udpSend).2.effects := by
  rcases rStartRound_cases c req round nowMs udpSend with
    ⟨heq, -⟩ | ⟨rc, heq, -⟩ | ⟨gapUnits, -, -, -, heq⟩
  · rw [heq]
    exact requestSends_nil
  · rw [heq]
    exact requestSends_nil
  · rw [heq]
    exact requestSends_rSendRateRequest c _ _ _ _ _ _

theorem requestSends_complete (c : RClient) (req : RClientReq) (status : RClientError)
    (selected : Option RRateLimitResult) (io : CompleteIo) {before : List Effect}
    (hbefore : RequestSends before) :
    RequestSends (Reply.complete c req status selected io before).effects := by
  obtain ⟨observed, hobserved, heq⟩ := complete_effects c req status selected io before
  rw [heq]
  refine hbefore.append (RequestSends.append (RequestSends.append ?_ ?_) (requestSends_quiet rfl))
  · intro e he hsend
    obtain ⟨p, rfl⟩ := hobserved e he
    cases hsend
  · split
    · intro e he _
      rw [rCompletionDelivery_handle he]
      exact Option.some_ne_none _
    · exact requestSends_nil

theorem requestSends_rClientOnDatagram (gcm : Gcm) (c : RClient) (buf : Bytes) (sender : RAddr)
    (io : DatagramIo) : RequestSends (rClientOnDatagram gcm c buf sender io).effects := by
  unfold rClientOnDatagram
  split
  · exact requestSends_nil
  · simp only [acceptResponse]
    split
    · exact requestSends_complete _ _ _ _ _ (requestSends_quiet rfl)
    · exact requestSends_quiet rfl

theorem requestSends_rClientOnTimeout (c : RClient) (req : RClientReq) (nowMs : UInt64)
    (io : TimeoutIo) : RequestSends (rClientOnTimeout c req nowMs io).effects := by
  have htimer : RequestSends [Effect.timer req.handle nowMs req.attemptDeadlineMs] :=
    requestSends_quiet rfl
  unfold rClientOnTimeout
  simp only
  split
  · exact htimer
  unfold rRequestPolicyOnTimeout
  split
  · split
    · exact requestSends_complete _ _ _ _ _ htimer
    · exact htimer
  split
  · exact htimer
  split
  · split
    · have hstart := htimer.append
        (requestSends_rStartRound c req (req.haRound + 1) io.roundMs io.udpSend)
      unfold replayRound
      simp only
      split
      · exact hstart
      · exact requestSends_complete _ _ _ _ _ hstart
    · split
      · exact requestSends_complete _ _ _ _ _ htimer
      · exact htimer
  · exact requestSends_complete _ _ _ _ _ htimer

theorem SubmitOutcome.requestSends {c : RClient} {h : Handle} {args : SubmitArgs}
    {io : SubmitIo} {reply : Reply} (houtcome : SubmitOutcome gcm c h args io reply) :
    RequestSends reply.effects := by
  cases houtcome with
  | rejected status c' => exact requestSends_quiet rfl
  | emptied =>
    refine RequestSends.append ?_ (requestSends_quiet rfl)
    split
    · exact requestSends_quiet rfl
    · exact requestSends_nil
  | sendFailed req gapUnits status sends c' built hstatus hsends =>
    refine RequestSends.append ?_ (requestSends_quiet rfl)
    rcases hsends with rfl | rfl
    · exact requestSends_nil
    · exact requestSends_sendEffects _ _ _ _ _
  | launched => exact (requestSends_sendEffects _ _ _ _ _).append (requestSends_quiet rfl)

theorem requestSends_rNotifySteeringWhenDrained (c : RClient) :
    RequestSends (rNotifySteeringWhenDrained c).2 := by
  have hdrained : RequestSends (if c.inflight.isEmpty then [Effect.drained] else []) := by
    split
    · exact requestSends_quiet rfl
    · exact requestSends_nil
  simp only [rNotifySteeringWhenDrained]
  split
  · exact hdrained.append (requestSends_quiet rfl)
  · exact hdrained

/-- A packet that is not sent for a request is that of a latency report. -/
theorem step_report_sends {c : RClient} {m m' : Machine} {call : Call} {effects : List Effect}
    (hwf : m.Wf c) (hstep : step gcm m call = some (m', effects)) :
    RequestSends effects ∨ ∃ reports io, call = .report reports io ∧
      effects = (rClientReportLatency gcm m.client reports io).effects := by
  cases stepped_of_step hstep with
  | submit args io =>
    exact .inl (rClientCheckRateLimitAsyncImpl_outcome gcm m.client m.nextHandle args io
      hwf.identified).requestSends
  | report reports io => exact .inr ⟨reports, io, rfl, rfl⟩
  | datagram buf sender io => exact .inl (requestSends_rClientOnDatagram gcm m.client buf sender io)
  | timeout h nowMs io req => exact .inl (requestSends_rClientOnTimeout m.client req nowMs io)
  | cancel h =>
    left
    unfold rClientCancelRequest
    split
    · exact (requestSends_quiet rfl).append (requestSends_rNotifySteeringWhenDrained _)
    · exact requestSends_nil
  | callbackReturn frame frames =>
    left
    cases frame with
    | completing req => exact requestSends_rNotifySteeringWhenDrained m.client
    | emptyRequest => exact requestSends_nil
  | refreshFinish => exact .inl requestSends_nil

theorem rClientReportLatency_emitted {c : RClient} {reports : CArray RServiceLatencyReport}
    {io : ReportIo} {h : Option Handle} {pass : SendPass} {startedMs : UInt64} {i : Nat}
    {addr : RAddr} {packet : Bytes} {ok : Bool}
    (hsent : Effect.udpSend h pass startedMs i addr packet ok ∈
      (rClientReportLatency gcm c reports io).effects) : Emitted gcm c.credential packet := by
  unfold rClientReportLatency at hsent
  split at hsent
  · cases hsent
  split at hsent
  · cases hsent
  simp only at hsent
  split at hsent
  · cases hsent
  split at hsent
  · cases hsent
  · rename_i reported hreported
    rw [sendReport_effects] at hsent
    obtain ⟨server, -, heq⟩ := List.mem_map.mp hsent
    obtain ⟨-, -, -, -, -, rfl, -⟩ := Effect.udpSend.inj heq
    exact reportPacket_emitted hreported

/-- **Every packet of a run was made by its client.** -/
theorem run_emitted {args : CreateArgs} {c : RClient} (hcreate : rClientCreate args = .ok c)
    {calls : List Call} {m : Machine} {trace : List Effect}
    (hrun : run gcm c calls = some (m, trace)) {h : Option Handle} {pass : SendPass}
    {startedMs : UInt64} {i : Nat} {addr : RAddr} {packet : Bytes} {ok : Bool}
    (hsent : Effect.udpSend h pass startedMs i addr packet ok ∈ trace) :
    Emitted gcm c.credential packet := by
  cases h with
  | some h =>
    rcases run_bound hcreate hrun h with ⟨-, hnone⟩ | ⟨sent, hpromised, hsends, -⟩
    · exact (hnone pass startedMs i addr packet ok (mem_about.mpr ⟨hsent, rfl⟩)).elim
    · rw [hsends pass startedMs i addr packet ok (mem_about.mpr ⟨hsent, rfl⟩)]
      obtain ⟨submit, io, req, ⟨built⟩, -, rfl⟩ := hpromised
      exact built.emitted
  | none =>
    obtain ⟨before, after, rfl⟩ := List.append_of_mem hsent
    obtain ⟨calls₁, call, calls₂, m₁, trace₁, m₂, left, right, -, hfirst, hstep, -⟩ :=
      Run.exec_locate hrun
    have hwf := run_wf hcreate hfirst
    have hmem : Effect.udpSend none pass startedMs i addr packet ok ∈
        left ++ Effect.udpSend none pass startedMs i addr packet ok :: right :=
      List.mem_append_right _ List.mem_cons_self
    rcases step_report_sends hwf hstep with hrequests | ⟨reports, io, -, heffects⟩
    · exact absurd rfl (hrequests _ hmem rfl)
    · rw [heffects] at hmem
      have hemitted := rClientReportLatency_emitted hmem
      rwa [credential_of_static hwf.static] at hemitted

/-! ### No client accepts an emitted packet -/

/-- An emitted packet is authentic to a client with the credential, but it is no response. -/
theorem Emitted.refused {cred : RCredential} {packet : Bytes} (hemitted : Emitted gcm cred packet)
    {c : RClient} (hshares : SharesSecret cred c.credential)
    (hinverts : cred.authType = .aesGcm → Invertible gcm cred.aesKey) (io : DatagramIo) :
    ∃ status, onDatagramGate gcm c packet io = .error status := by
  cases hgate : onDatagramGate gcm c packet io with
  | error status => exact ⟨status, rfl⟩
  | ok accepted =>
    obtain ⟨req, response⟩ := accepted
    obtain ⟨tenant, pos, opened, parsed, hparsed, -, -, -, hextract, hresponse, -⟩ :=
      onDatagramGate_ok_iff.mp hgate
    obtain ⟨pduType, word, body, pdu, requestId, timeStamp, encrypt, hown, hframed, hpacket⟩ :=
      hemitted
    -- in AES mode nothing is decrypted without the cipher
    have hevp : cred.authType = .aesGcm → io.evpOk = true := by
      intro hauth
      cases rExtractPduData_ok_iff.mp hextract with
      | cookie hcookie => exact absurd (hcookie.symm.trans (hshares.authType.trans hauth)) (by simp)
      | aes _ _ _ _ _ _ hevp => exact hevp
    have hpos : 0 < pdu.length := by
      rw [hframed.size]
      omega
    have hopened := framePdu_opens hshares rfl rfl hpos hinverts hevp hpacket
    obtain ⟨rfl, rfl⟩ := Prod.mk.inj (Except.ok.inj (hopened.parsed.symm.trans hparsed))
    obtain rfl := Except.ok.inj (hopened.extracted.symm.trans hextract)
    have htype := hframed.type.symm.trans (rParseRateResponseAlloc_ok hresponse).1.2.1
    rcases hown with rfl | rfl
    · exact absurd htype (by decide)
    · exact absurd htype (by decide)

theorem Configured.shares {key : DecodedKey} {c c' : RClient} (h : Configured key c)
    (h' : Configured key c') : SharesSecret c.credential c'.credential := by
  refine ⟨h'.authType.trans h.authType.symm, fun hauth => ?_, fun hauth => ?_⟩
  · have htype := h.authType.symm.trans hauth
    exact ⟨(h'.cookie htype).1, (h'.cookie htype).2.trans (h.cookie htype).2.symm⟩
  · have htype := h.authType.symm.trans hauth
    exact ⟨(h'.aes htype).1, (h'.aes htype).2.trans (h.aes htype).2.symm⟩

/-- **Reflection is harmless.** Whatever a client has passed to `udp_send` in a run, for a
    request or a report: when it is delivered to a client with the same credential, in any
    state that one reaches, the client is left as it is, nothing is completed and nothing is
    sent. In AES mode the cipher is assumed to open what it sealed. -/
theorem reflection_harmless {key : DecodedKey}
    (hinverts : key.authType = .aesGcm → Invertible gcm key.secret) {args args' : CreateArgs}
    (hkey : args.decoded = some key) (hkey' : args'.decoded = some key) {c c' : RClient}
    (hcreate : rClientCreate args = .ok c) (hcreate' : rClientCreate args' = .ok c')
    {calls calls' : List Call} {m m' : Machine} {trace trace' : List Effect}
    (hrun : run gcm c calls = some (m, trace)) (hrun' : run gcm c' calls' = some (m', trace'))
    {h : Option Handle} {pass : SendPass} {startedMs : UInt64} {i : Nat} {addr : RAddr}
    {packet : Bytes} {ok : Bool}
    (hsent : Effect.udpSend h pass startedMs i addr packet ok ∈ trace) (sender : RAddr)
    (io : DatagramIo) :
    (∃ status, rClientOnDatagram gcm m'.client packet sender io = .done status m'.client []) ∧
      (m'.frames = [] → step gcm m' (.datagram packet sender io) = some (m', [])) := by
  obtain ⟨key₁, hsome, hconfigured⟩ := rClientCreate_configured hcreate
  obtain rfl := Option.some.inj (hkey.symm.trans hsome)
  obtain ⟨key₂, hsome', hconfigured'⟩ := rClientCreate_configured hcreate'
  obtain rfl := Option.some.inj (hkey'.symm.trans hsome')
  have hshares : SharesSecret c.credential m'.client.credential := by
    rw [credential_of_static (run_wf hcreate' hrun').static]
    exact hconfigured.shares hconfigured'
  have hopens : c.credential.authType = .aesGcm → Invertible gcm c.credential.aesKey := by
    intro hauth
    have htype := hconfigured.authType.symm.trans hauth
    rw [(hconfigured.aes htype).2]
    exact hinverts htype
  obtain ⟨status, hgate⟩ := (run_emitted hcreate hrun hsent).refused hshares hopens io
  have hignored : rClientOnDatagram gcm m'.client packet sender io = .done status m'.client [] := by
    rw [rClientOnDatagram, hgate]
  refine ⟨⟨status, hignored⟩, fun hframes => ?_⟩
  simp only [step, hframes, List.isEmpty_nil, if_true, hignored]
  rfl

/-- The first packet that was sent, if its request is in flight. -/
def firstPacket (s : Machine × List Effect) : Option Bytes :=
  if s.1.client.inflight.isEmpty then none
  else
    s.2.findSome? fun
      | .udpSend _ _ _ _ _ packet _ => some packet
      | _ => none

/-- A request that is in flight is not answered by its own packet. -/
def UnansweredInFlight (aes : Bool) : Prop :=
  ∃ m trace packet, run (sampleGcm true) (sampleClientFor aes) [sampleSubmit 1 100] =
      some (m, trace) ∧
    m.client.inflight ≠ [] ∧ firstPacket (m, trace) = some packet ∧
    ∀ sender io, ∃ status,
      rClientOnDatagram (sampleGcm true) m.client packet sender io = .done status m.client []

/-- Under either kind of credential. -/
theorem reflection_harmless_in_flight : UnansweredInFlight false ∧ UnansweredInFlight true := by
  have hunanswered : ∀ aes, UnansweredInFlight aes := by
    intro aes
    have hsome : ((run (sampleGcm true) (sampleClientFor aes) [sampleSubmit 1 100]).bind
        firstPacket).isSome = true := by
      cases aes <;> decide +kernel
    obtain ⟨packet, hpacket⟩ := Option.isSome_iff_exists.mp hsome
    obtain ⟨⟨m, trace⟩, hrun, hfirst⟩ := Option.bind_eq_some_iff.mp hpacket
    have hfound := hfirst
    unfold firstPacket at hfound
    split at hfound
    · cases hfound
    rename_i hflight
    obtain ⟨e, hmem, he⟩ := List.exists_of_findSome?_eq_some hfound
    refine ⟨m, trace, packet, hrun, by simpa using hflight, hfirst, fun sender io => ?_⟩
    cases e with
    | udpSend h pass startedMs i addr sent ok =>
      obtain rfl := Option.some.inj he
      exact (reflection_harmless (fun _ => sampleGcm_invertible) rfl rfl
        (sampleClientFor_created aes) (sampleClientFor_created aes) hrun hrun hmem sender io).1
    | _ => cases he
  exact ⟨hunanswered false, hunanswered true⟩

end RlClient
