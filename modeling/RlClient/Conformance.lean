import RlClient.Exchange
import RlClient.Horizon
import RlClient.Delivery
import RlClient.Pacing

/-!
# Every rate request keeps to the credential

The quotas of a credential are checked when a request is submitted, but its packet
is sent later as well: in replay rounds and on completion. All sends of one request
have the packet that was built on submission, and what was built is read back from
the packet: the key id, the request id, the TTL and the resources.
-/

namespace RlClient

/-! ### The fields of a request PDU -/

def pduDedupTtlMs (pdu : Bytes) : UInt32 := rLe32 pdu 4

def pduResourceCount (pdu : Bytes) : Nat := (rLe16 pdu 10).toNat

def pduResource (pdu : Bytes) (i : Nat) : RResourceRequest :=
  readResource (pdu.drop (12 + R_GUARD_BLOCK_WIRE_LEN * (rLe16 pdu 8).toNat +
    R_RESOURCE_BLOCK_WIRE_LEN * i))

theorem Framed.readWord {pduType : UInt16} {word : UInt32} {body pdu : Bytes}
    (h : Framed pduType word body pdu) : rLe32 pdu 4 = word := by
  have hsplit : pdu.drop 4 = rWriteLe32 word ++ (pdu.drop 4).drop 4 := by
    rw [← h.word, List.take_append_drop]
  have hread := rLe32_drop pdu 4 0
  rw [hsplit, rLe32_write] at hread
  exact hread.symm

theorem rateRequestPdu_read {rq : RateRequest} {pdu : Bytes} (h : rateRequestPdu rq = .ok pdu) :
    pduDedupTtlMs pdu = rq.dedupTtlMs ∧ pduResourceCount pdu = rq.resources.length ∧
      ∀ i (hi : i < rq.resources.length), pduResource pdu i = rq.resources[i] := by
  unfold rateRequestPdu at h
  split at h
  · cases h
  rename_i body hbody
  have hframed := buildPdu_framed h
  obtain ⟨hguards, hresources, hbytes⟩ := rBuildRateRequestBody_ok hbody
  have hfirst : rLe16 pdu 8 = UInt16.ofNat rq.guards.length := by
    have hread := rLe16_drop pdu 8 0
    rw [hframed.body, hbytes, rLe16_write] at hread
    exact hread.symm
  have hsecond : rLe16 pdu 10 = UInt16.ofNat rq.resources.length := by
    have hread := rLe16_drop pdu 8 2
    rw [hframed.body, hbytes, rLe16_second] at hread
    exact hread.symm
  refine ⟨hframed.readWord, ?_, ?_⟩
  · rw [pduResourceCount, hsecond, ofNat_toNat hresources]
  · intro i hi
    have hblocks : pdu.drop (12 + 36 * rq.guards.length) =
        resourceCodec.encodeAll rq.resources ++ labelTlv rq.metricsLabel := by
      rw [show 12 + 36 * rq.guards.length = 8 + (4 + 36 * rq.guards.length) by omega,
        ← List.drop_drop, hframed.body, hbytes, ← List.drop_drop, drop_words,
        guardCodec.drop_encodeAll _ _ (Nat.le_refl _)]
      simp
    have hblock := resourceCodec.decode_drop rq.resources (labelTlv rq.metricsLabel) hi
    rw [← hblocks, List.drop_drop] at hblock
    rw [pduResource, hfirst, ofNat_toNat hguards]
    exact hblock

/-! ### The packet that all sends of a request have -/

/-- `packet` was built for handle `h` by a submission that passed the window check. -/
def Promised (gcm : Gcm) (c : RClient) (h : Handle) (packet : Bytes) : Prop :=
  ∃ args io req, Nonempty (Built gcm c h args io req) ∧
    rValidateResourceWindows c args.resources.elems = .ok ∧ packet = req.packet

/-- Either nothing has been sent for `h` and nothing will be, or all that was sent and
    the request itself have one promised packet. -/
def Bound (gcm : Gcm) (c : RClient) (h : Handle) (view : View) (trace : List Effect) : Prop :=
  (view.request? = none ∧ EverySend h (fun _ _ _ _ _ => False) trace) ∨
    ∃ packet, Promised gcm c h packet ∧ EverySend h (fun _ _ _ _ sent => sent = packet) trace ∧
      ∀ req, view.request? = some req → req.packet = packet

theorem rValidateResourceWindows_of_static {c c' : RClient} (hstatic : c'.static = c.static)
    (resources : List RResourceRequest) :
    rValidateResourceWindows c' resources = rValidateResourceWindows c resources := by
  obtain ⟨hhas, hquotas⟩ := quotas_of_static hstatic
  rw [rValidateResourceWindows, rValidateResourceWindows, hhas, hquotas]

/-- A request with a window over the quota: it is refused before anything else
    happens, for its windows or, before that, for a pointer that is missing. -/
theorem submit_over_quota (gcm : Gcm) (c : RClient) (h : Handle) {args : SubmitArgs} (io : SubmitIo)
    (hover : rValidateResourceWindows c args.resources.elems ≠ .ok) :
    submitEvents c args io = [] ∧ rClientCheckRateLimitAsyncImpl gcm c h args io =
      if !args.hasCb || (args.guards.count > 0 && args.guards.isNull) then
        .done .errConfig c [.submitFailed h .errConfig]
      else .done .errProtocol c [.submitFailed h .errProtocol] := by
  have hpresent : args.resources.isNull = false ∧ 0 < args.resources.count := by
    cases hresources : args.resources with
    | null n =>
      rw [hresources] at hover
      exact absurd (by simp [rValidateResourceWindows, CArray.elems]) hover
    | array elems =>
      refine ⟨rfl, List.length_pos_iff.mpr ?_⟩
      rintro rfl
      rw [hresources] at hover
      exact absurd (by simp [rValidateResourceWindows, CArray.elems]) hover
  unfold submitEvents rClientCheckRateLimitAsyncImpl stageSubmission checkSubmission
  cases hcb : args.hasCb with
  | false => simp [Submission.reply]
  | true =>
    cases hnull : decide (args.guards.count > 0) && args.guards.isNull with
    | true => simp [hpresent.1, Submission.reply]
    | false => simp [hpresent.1, hover, Nat.pos_iff_ne_zero.mp hpresent.2, Submission.reply]

/-- A submission that sends anything, or links its request, has passed the check. -/
theorem submit_within_quota {gcm : Gcm} {c : RClient} {h : Handle} {args : SubmitArgs}
    {io : SubmitIo} {e : Effect} (he : e ∈ (rClientCheckRateLimitAsyncImpl gcm c h args io).effects)
    (hsent : ∀ status, e ≠ .submitFailed h status) :
    rValidateResourceWindows c args.resources.elems = .ok := by
  by_contra hover
  rw [(submit_over_quota gcm c h io hover).2] at he
  split at he
  · exact hsent _ (List.mem_singleton.mp he)
  · exact hsent _ (List.mem_singleton.mp he)

theorem everySend_nil (h : Handle) (P : SendPass → UInt64 → Nat → RAddr → Bytes → Prop) :
    EverySend h P [] := by
  intro pass startedMs i addr packet ok hmem
  exact absurd hmem List.not_mem_nil

theorem everySend_quiet {h : Handle} {P : SendPass → UInt64 → Nat → RAddr → Bytes → Prop}
    {e : Effect} (he : e.isSend = false) : EverySend h P [e] := by
  intro pass startedMs i addr packet ok hmem
  rw [← List.mem_singleton.mp hmem] at he
  exact absurd he (by simp [Effect.isSend])

theorem firstSends_packet (c : RClient) (req : RClientReq) (gapUnits : UInt32) (io : SubmitIo)
    (h : Handle) : EverySend h (fun _ _ _ _ sent => sent = req.packet)
      (firstSends c req gapUnits io) := by
  refine (everySend_sendEffects _ false (.round 0) io.roundMs io.udpSend h).imp ?_
  rintro _ _ i addr packet ⟨-, -, howns⟩
  exact howns.1

theorem ReqStep.sends_packet {c : RClient} {h : Handle} {req : RClientReq} {call : Call}
    {effects : List Effect} {view : View} (hstep : ReqStep c h req call effects view) (k : Handle) :
    EverySend k (fun _ _ _ _ sent => sent = req.packet) effects := by
  apply everySend_sendsIn
  have hpass : ∀ req' pass startedMs udpSend, SameRequest req req' →
      EverySend k (fun _ _ _ _ sent => sent = req.packet)
        (sendEffects req' true pass startedMs udpSend) := by
    intro req' pass startedMs udpSend hsame
    refine (everySend_sendEffects req' true pass startedMs udpSend k).imp ?_
    rintro _ _ i addr packet ⟨-, -, howns⟩
    exact howns.1.trans hsame.packet
  have hsent := hstep.sentBy
  generalize sendsIn effects = sends at hsent
  cases hsent with
  | quiet => exact everySend_nil k _
  | replay view req' startedMs udpSend hview hsame => exact hpass req' _ _ _ hsame
  | delivery req' io hsame => exact hpass req' _ _ _ hsame

theorem Bound.life {gcm : Gcm} {c : RClient} {h : Handle} {call : Call} {view view' : View}
    {trace effects : List Effect} (hbound : Bound gcm c h view trace)
    (hunborn : view = .unborn → trace = []) (hlife : Life gcm c h call view effects view')
    (hwindows : ∀ args io e, call = .submit args io → e ∈ effects →
      (∀ status, e ≠ .submitFailed h status) →
        rValidateResourceWindows c args.resources.elems = .ok) :
    Bound gcm c h view' (trace ++ effects) := by
  have hquiet : ∀ e : Effect, e.isSend = false → effects = [e] → view'.request? = none →
      Bound gcm c h view' (trace ++ effects) := by
    rintro e he rfl hgone
    rcases hbound with ⟨-, hnone⟩ | ⟨packet, hpromised, hsends, -⟩
    · exact .inl ⟨hgone, hnone.append (everySend_quiet he)⟩
    · refine .inr ⟨packet, hpromised, hsends.append (everySend_quiet he), ?_⟩
      intro req hreq
      exact absurd (hgone.symm.trans hreq) (by simp)
  cases hlife with
  | idle =>
    rw [List.append_nil]
    exact hbound
  | launched args io req gapUnits built =>
    rw [hunborn rfl, List.nil_append]
    have hwindow := hwindows args io _ rfl (List.mem_append_right _ List.mem_cons_self) (by simp)
    refine .inr ⟨req.packet, ⟨args, io, req, ⟨built⟩, hwindow, rfl⟩,
      (firstSends_packet c req gapUnits io h).append (everySend_quiet rfl), ?_⟩
    intro req' hreq'
    rw [← Option.some.inj hreq']
    rfl
  | sendFailed args io req gapUnits status sends built hstatus hsends =>
    rw [hunborn rfl, List.nil_append]
    cases sends with
    | nil => exact .inl ⟨rfl, (everySend_nil h _).append (everySend_quiet rfl)⟩
    | cons first rest =>
      -- something was sent, so the windows were within the quota
      have hall : first :: rest = firstSends c req gapUnits io := by
        rcases hsends with hnil | hall
        · exact absurd hnil (by simp)
        · exact hall
      have hfirst : first.isSend = true :=
        sendEffects_isSend first (hall ▸ List.mem_cons_self)
      have hwindow := hwindows args io first rfl List.mem_cons_self (by
        rintro status' rfl
        exact absurd hfirst (by simp [Effect.isSend]))
      rw [hall]
      exact .inr ⟨req.packet, ⟨args, io, req, ⟨built⟩, hwindow, rfl⟩,
        (firstSends_packet c req gapUnits io h).append (everySend_quiet rfl),
        fun _ hnone => absurd hnone (by simp [View.request?])⟩
  | rejected args io status => exact hquiet _ rfl rfl rfl
  | emptied args io =>
    rw [hunborn rfl]
    exact .inl ⟨rfl, everySend_nil h _⟩
  | treated req _ _ _ hstep =>
    rcases hbound with ⟨hnone, -⟩ | ⟨packet, hpromised, hsends, hpacket⟩
    · exact absurd hnone (by simp [View.request?])
    · have hreq := hpacket req rfl
      refine .inr ⟨packet, hpromised, hsends.append ?_, ?_⟩
      · refine (hstep.sends_packet h).imp ?_
        intro _ _ _ _ sent hsent
        exact hsent.trans hreq
      · intro req' hview
        exact (hstep.same hview).packet.trans hreq
  | cancelled req => exact hquiet _ rfl rfl rfl
  | returned req =>
    rw [List.append_nil]
    rcases hbound with ⟨hnone, -⟩ | ⟨packet, hpromised, hsends, -⟩
    · exact absurd hnone (by simp [View.request?])
    · exact .inr ⟨packet, hpromised, hsends, fun _ hnone => absurd hnone (by simp [View.request?])⟩

/-- **One packet for each request**, in every run. -/
theorem run_bound {gcm : Gcm} {args : CreateArgs} {c : RClient}
    (hcreate : rClientCreate args = .ok c) {calls : List Call} {m : Machine}
    {trace : List Effect} (hrun : run gcm c calls = some (m, trace)) (h : Handle) :
    Bound gcm c h (m.view h) (about h trace) := by
  refine Run.exec_induction (P := fun _ m trace => Bound gcm c h (m.view h) (about h trace))
    ?_ ?_ hrun
  · rw [init_view hcreate]
    exact .inl ⟨rfl, everySend_nil h _⟩
  · intro calls m trace call m' effects hrun' hbound hstep
    have hwf := run_wf hcreate hrun'
    rw [about_append]
    refine hbound.life (run_unborn hcreate hrun') ((step_wf_life hwf hstep).2 h) ?_
    rintro args io e rfl he hsent
    rw [← rValidateResourceWindows_of_static hwf.static]
    obtain ⟨-, rfl⟩ := Prod.mk.inj (Option.some.inj hstep)
    obtain ⟨hmem, hhandle⟩ := mem_about.mp he
    refine submit_within_quota hmem ?_
    rintro status rfl
    obtain rfl := Option.some.inj hhandle
    exact hsent status rfl

/-! ### What the credential asks of a packet -/

theorem configuredKey_quotas {alloc : DecodeAlloc} {authSecret : Bytes} {key : DecodedKey}
    (h : configuredKey alloc authSecret = some key) :
    ∃ word, rDecodeQuotaWord word = some key.quotas := by
  rw [configuredKey] at h
  simp only at h
  split at h
  · cases h
  rename_i hgood
  rw [not_or, not_not] at hgood
  obtain rfl := Option.some.inj h
  revert hgood
  unfold rDecodeApiKeyBech32WithQuotas
  split
  · simp
  split
  · simp
  split
  · simp
  split
  · simp
  split
  · simp
  simp only
  split
  · simp
  split
  · simp
  rename_i quotas hquotas
  exact fun _ => ⟨_, hquotas⟩

/-- What the credential `key` and the policy of `c` ask of a packet of the request
    `requestId`: the ids in its header, the TTL and the windows in its PDU. -/
structure Conforms (gcm : Gcm) (c : RClient) (key : DecodedKey) (requestId : FixedBytes 16)
    (packet : Bytes) (tenant : RTenantHeader) (pdu : Bytes) : Prop where
  header : rParseTenantHeader packet = .ok (tenant, R_TENANT_TLV_LEN)
  keyId : tenant.keyId = key.keyId
  requestId : tenant.uniqueId = requestId
  /-- Whoever shares the secret finds the PDU in the packet. -/
  opens : ∀ receiver, SharesSecret c.credential receiver →
    (c.credential.authType = .aesGcm → Invertible gcm c.credential.aesKey) →
      Opened gcm receiver packet true tenant R_TENANT_TLV_LEN pdu
  horizon : (pduDedupTtlMs pdu).toNat = c.policy.horizonMs
  positive : 1 ≤ (pduDedupTtlMs pdu).toNat
  withinQuota : pduDedupTtlMs pdu ≤ key.quotas.dedupTtlMsMax
  limit : key.quotas.dedupTtlMsMax.toNat ≤ 2000
  windows : ∀ i < pduResourceCount pdu,
    (pduResource pdu i).windowSizeMs ≤ key.quotas.rateWindowSizeMsMax

theorem framePdu_header {gcm : Gcm} {cred : RCredential} {tenant : RTenantHeader} {pdu : Bytes}
    {outCap : Nat} {io : EncryptIo} {packet : Bytes} (htype : tenant.tlvType = R_TLV_TENANT)
    (hsize : tenant.tlvSize.toNat = R_TENANT_TLV_LEN)
    (h : framePdu gcm cred tenant pdu outCap io = .ok packet) :
    rParseTenantHeader packet = .ok (tenant, R_TENANT_TLV_LEN) := by
  suffices hrest : ∃ rest, packet = rTenantHeaderWrite tenant ++ rest by
    obtain ⟨rest, rfl⟩ := hrest
    exact rParseTenantHeader_framed htype hsize rest
  cases hauth : cred.authType with
  | derive => exact absurd hauth (framePdu_fits h).1
  | aesGcm =>
    obtain ⟨sealing, -, haad, rfl, -⟩ := framePdu_sealing hauth rfl h
    have hbegins : rTenantHeaderWrite tenant <+: sealing.datagram := by
      rw [Sealing.datagram, Sealing.aad, haad, framePrefix, List.append_assoc, List.append_assoc]
      exact List.prefix_append _ _
    exact hbegins.imp fun _ => Eq.symm
  | cookie =>
    unfold framePdu at h
    simp only [hauth] at h
    split at h
    · cases h
    split at h
    · cases h
    split at h
    · cases h
    split at h
    · cases h
    exact ⟨_, (Except.ok.inj h).symm⟩

theorem rValidateResourceWindows_ok_iff {c : RClient} (hquotas : c.hasQuotas = true)
    {resources : List RResourceRequest} :
    rValidateResourceWindows c resources = .ok ↔
      ∀ resource ∈ resources, resource.windowSizeMs ≤ c.quotas.rateWindowSizeMsMax := by
  simp [rValidateResourceWindows, hquotas]

/-- What was built and passed the check conforms. -/
theorem Promised.conforms {gcm : Gcm} {c : RClient} {h : Handle} {packet : Bytes}
    (hpromised : Promised gcm c h packet) {key : DecodedKey} (hconfigured : Configured key c)
    {word : UInt32} (hword : rDecodeQuotaWord word = some key.quotas) :
    ∃ requestId tenant pdu, Conforms gcm c key requestId packet tenant pdu := by
  obtain ⟨args, io, req, ⟨built⟩, hwindows, rfl⟩ := hpromised
  have hframed := built.framed
  unfold rBuildRateRequestPacket at hframed
  split at hframed
  · cases hframed
  rename_i pdu hpdu
  obtain ⟨httl, hcount, hresource⟩ := rateRequestPdu_read hpdu
  obtain ⟨hpos, hlimit⟩ := decoded_dedup_pos hword
  obtain ⟨-, hwithin, hhorizon⟩ := rRequestPolicyTtlMs_eq_ok_iff.mp built.ttl
  rw [hconfigured.hasQuotas, hconfigured.quotas, maxTtlMs_of_quota hpos] at hwithin
  have hpacket : req.packet = built.packet := congrArg RClientReq.packet built.eq
  rw [hpacket]
  refine ⟨built.requestId, _, pdu, framePdu_header rfl rfl hframed, hconfigured.keyId, rfl, ?_, ?_,
    ?_, ?_, hlimit, ?_⟩
  · intro receiver hshares hinverts
    exact framePdu_opens hshares rfl rfl (rateRequestPdu_pos hpdu) hinverts (fun _ => rfl) hframed
  · rw [httl]
    exact hhorizon
  · rw [httl]
    exact Nat.pos_of_ne_zero fun hzero => built.ttlPos (UInt32.toNat_inj.mp hzero)
  · rw [httl, UInt32.le_iff_toNat_le]
    exact hhorizon.trans_le hwithin
  · intro i hi
    rw [hcount] at hi
    rw [hresource i hi, ← hconfigured.quotas]
    exact (rValidateResourceWindows_ok_iff hconfigured.hasQuotas).mp hwindows _
      (List.getElem_mem hi)

/-! ### The theorem -/

/-- **Every rate request conforms to its credential.** For a client created from a
    credential that was accepted, and every run: all packets of a request are one packet,
    with one request id, and it conforms; and from every state that is reached, a request
    with a window over the quota looks nothing up, sends nothing and is refused, with
    `errProtocol` once the call has its callback and its guards. -/
theorem requests_conform {gcm : Gcm} {alloc : DecodeAlloc} {authSecret : Bytes} {key : DecodedKey}
    (hkey : configuredKey alloc authSecret = some key) {args : CreateArgs}
    (hdecoded : args.decoded = some key) {c : RClient} (hcreate : rClientCreate args = .ok c)
    {calls : List Call} {m : Machine} {trace : List Effect}
    (hrun : run gcm c calls = some (m, trace)) :
    (∀ h, ∃ requestId, EverySend h
      (fun _ _ _ _ packet => ∃ tenant pdu, Conforms gcm c key requestId packet tenant pdu) trace) ∧
    ∀ (submit : SubmitArgs) (io : SubmitIo),
      (∃ resource ∈ submit.resources.elems,
        key.quotas.rateWindowSizeMsMax < resource.windowSizeMs) →
      submitEvents m.client submit io = [] ∧
      rClientCheckRateLimitAsyncImpl gcm m.client m.nextHandle submit io =
        if !submit.hasCb || (submit.guards.count > 0 && submit.guards.isNull) then
          .done .errConfig m.client [.submitFailed m.nextHandle .errConfig]
        else .done .errProtocol m.client [.submitFailed m.nextHandle .errProtocol] := by
  obtain ⟨word, hword⟩ := configuredKey_quotas hkey
  obtain ⟨key', hsome, hconfigured⟩ := rClientCreate_configured hcreate
  obtain rfl := Option.some.inj (hdecoded.symm.trans hsome)
  constructor
  · intro h
    have hlift : ∀ {P : SendPass → UInt64 → Nat → RAddr → Bytes → Prop},
        EverySend h P (about h trace) → EverySend h P trace := by
      intro P hall pass startedMs i addr packet ok hmem
      exact hall pass startedMs i addr packet ok (mem_about.mpr ⟨hmem, rfl⟩)
    rcases run_bound hcreate hrun h with ⟨-, hnone⟩ | ⟨packet, hpromised, hsends, -⟩
    · exact ⟨.replicate 16 0, (hlift hnone).imp fun _ _ _ _ _ hfalse => hfalse.elim⟩
    · obtain ⟨requestId, tenant, pdu, hconforms⟩ := hpromised.conforms hconfigured hword
      refine ⟨requestId, (hlift hsends).imp ?_⟩
      rintro _ _ _ _ sent rfl
      exact ⟨tenant, pdu, hconforms⟩
  · rintro submit io ⟨resource, hmem, hover⟩
    apply submit_over_quota
    rw [rValidateResourceWindows_of_static (run_wf hcreate hrun).static, ne_eq,
      rValidateResourceWindows_ok_iff hconfigured.hasQuotas, hconfigured.quotas]
    intro hall
    exact UInt32.not_lt.mpr (hall resource hmem) hover

theorem cookie_ne_derive : RAuthType.cookie ≠ .derive := by decide

theorem meteredWord_valid : ValidQuotaWord 1394606080 := by decide

/-- Quotas of 1000 ms for the TTL and of 1024 ms for a window. -/
def meteredKey : ApiKey where
  authType := .cookie
  keyId := 7
  secret := .replicate 32 1
  word := 1394606080
  typed := cookie_ne_derive
  inRange := meteredWord_valid

def meteredClient : RClient := { sampleClient with quotas := quotasOf meteredKey.word }

def wideArguments : SubmitArgs where
  hasCb := true
  resources := .array
    [{ bucketId := .replicate 16 9, windowSizeMs := 1025, rateLimit := 5, tokensRequested := 1 }]
  guards := .array []
  metricsLabel := none
  metricsLabelLen := 0
  borrowed := false

def sentTwice (s : Machine × List Effect) : Bool :=
  s.2.any fun
    | .udpSend (some 0) (.round 1) _ _ _ _ _ => true
    | _ => false

theorem requests_conform_metered :
    ∃ m trace, run noGcm meteredClient [sampleSubmit 1 100, sampleTimeout 0 120] =
        some (m, trace) ∧ sentTwice (m, trace) = true ∧
      (∃ requestId, EverySend 0 (fun _ _ _ _ packet => ∃ tenant pdu,
        Conforms noGcm meteredClient meteredKey.decoded requestId packet tenant pdu) trace) ∧
      ∀ io, rClientCheckRateLimitAsyncImpl noGcm m.client m.nextHandle wideArguments io =
        .done .errProtocol m.client [.submitFailed m.nextHandle .errProtocol] := by
  obtain ⟨⟨m, trace⟩, hrun, hsent⟩ := Option.map_eq_some_iff.mp
    (show (run noGcm meteredClient [sampleSubmit 1 100, sampleTimeout 0 120]).map sentTwice =
      some true by decide +kernel)
  have hkey : configuredKey .granted meteredKey.encode = some meteredKey.decoded :=
    meteredKey.configuredKey_of_open (meteredKey.open_iff.mpr (.inl rfl))
  have hcreate : rClientCreate { sampleArgs with decoded := some meteredKey.decoded } =
      .ok meteredClient := rfl
  obtain ⟨hconform, hover⟩ := requests_conform hkey rfl hcreate hrun
  refine ⟨m, trace, hrun, hsent, hconform 0, fun io => ?_⟩
  exact (hover wideArguments io ⟨_, List.mem_cons_self, by decide⟩).2

end RlClient
