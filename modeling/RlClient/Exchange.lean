import RlClient.ArrivalOrder
import RlClient.RequestCodec
import RlClient.ResponseGrammar
import RlClient.Sealing

/-!
# Client and responder agree

Two halves that were written independently meet here: what the client frames is
what `extract_authenticated_pdu` and `parse_request_pdu` take apart, and what the
responder frames is what `r_client_on_datagram` accepts. A request that goes once
around comes back with its own identifiers and thresholds and with the answer
that the responder's scenario gives.
-/

namespace RlClient

variable {gcm : Gcm}

/-! ### Framing in both modes -/

/-- A receiver that can open what `cred` frames. -/
structure SharesSecret (cred receiver : RCredential) : Prop where
  authType : receiver.authType = cred.authType
  cookie : cred.authType = .cookie → receiver.hasCookie = true ∧ receiver.cookie = cred.cookie
  aes : cred.authType = .aesGcm → receiver.hasAesKey = true ∧ receiver.aesKey = cred.aesKey

def frameLen : RAuthType → Nat
  | .cookie => 76
  | .aesGcm => 72
  | .derive => 0

/-- What AES mode needs from its environment; cookie mode needs nothing. -/
structure CipherReady (gcm : Gcm) (cred : RCredential) (io : EncryptIo) : Prop where
  inverts : cred.authType = .aesGcm → Invertible gcm cred.aesKey
  random : cred.authType = .aesGcm → io.randNonce ≠ none
  evp : cred.authType = .aesGcm → io.evpOk = true

theorem framePdu_fits {cred : RCredential} {tenant : RTenantHeader} {pdu : Bytes} {outCap : Nat}
    {io : EncryptIo} {packet : Bytes} (h : framePdu gcm cred tenant pdu outCap io = .ok packet) :
    cred.authType ≠ .derive ∧ frameLen cred.authType + pdu.length ≤ outCap := by
  unfold framePdu at h
  split at h
  · cases h
  cases hauth : cred.authType with
  | derive =>
    simp only [hauth] at h
    cases h
  | cookie =>
    simp only [hauth] at h
    split at h
    · cases h
    split at h
    · cases h
    rename_i hfit
    simp only [R_TENANT_TLV_LEN] at hfit
    exact ⟨RAuthType.noConfusion, by simp only [frameLen]; omega⟩
  | aesGcm =>
    simp only [hauth] at h
    split at h
    · cases h
    split at h
    · cases h
    rename_i hfit
    simp only [R_TENANT_TLV_LEN] at hfit
    exact ⟨RAuthType.noConfusion, by simp only [frameLen]; omega⟩

theorem cookieFrame_opened {receiver : RCredential} (hauth : receiver.authType = .cookie)
    (hset : receiver.hasCookie = true) {tenant : RTenantHeader}
    (htype : tenant.tlvType = R_TLV_TENANT) (hsize : tenant.tlvSize.toNat = R_TENANT_TLV_LEN)
    (pdu : Bytes) (evpOk : Bool) :
    Opened gcm receiver (rTenantHeaderWrite tenant ++ (rWriteLe16 R_TLV_AUTH_COOKIE ++
      rWriteLe16 36 ++ (receiver.cookie.val ++ pdu))) evpOk tenant R_TENANT_TLV_LEN pdu := by
  constructor
  · exact rParseTenantHeader_framed htype hsize _
  apply rExtractPduData_ok_iff.mpr
  generalize hpacket : rTenantHeaderWrite tenant ++ (rWriteLe16 R_TLV_AUTH_COOKIE ++
    rWriteLe16 36 ++ (receiver.cookie.val ++ pdu)) = packet
  rw [List.append_assoc] at hpacket
  have hat : ∀ k, rLe16 packet (R_TENANT_TLV_LEN + k) =
      rLe16 (rWriteLe16 R_TLV_AUTH_COOKIE ++ (rWriteLe16 36 ++ (receiver.cookie.val ++ pdu)))
        k := by
    intro k
    rw [← hpacket, rLe16_append (by simp), length_rTenantHeaderWrite, Nat.add_sub_cancel_left]
  have htlv : rLe16 packet R_TENANT_TLV_LEN = R_TLV_AUTH_COOKIE := by
    rw [← Nat.add_zero R_TENANT_TLV_LEN, hat, rLe16_write]
  have hlen : (rLe16 packet (R_TENANT_TLV_LEN + 2)).toNat = 36 := by
    rw [hat, rLe16_second]
    rfl
  have hcookie : FixedBytes.ofSlice 32 packet (R_TENANT_TLV_LEN + 4) = receiver.cookie := by
    rw [← FixedBytes.ofSlice_drop, ← FixedBytes.ofSlice_val_append receiver.cookie pdu, ← hpacket,
      List.drop_left' (length_rTenantHeaderWrite tenant)]
    rw [← Nat.add_zero 4, ← FixedBytes.ofSlice_drop, drop_words]
  have hpdu : packet.drop (R_TENANT_TLV_LEN + 36) = pdu := by
    rw [← hpacket, ← List.append_assoc, ← List.append_assoc, ← List.append_assoc]
    exact List.drop_left' (by simp [R_TENANT_TLV_LEN])
  have hlength : R_TENANT_TLV_LEN + 36 ≤ packet.length := by
    rw [← hpacket]
    simp [R_TENANT_TLV_LEN]
    omega
  have hauthentic : Authentic gcm receiver packet R_TENANT_TLV_LEN evpOk
      (packet.drop (R_TENANT_TLV_LEN + 36)) := .cookie hauth hset htlv hlen hlength hcookie
  rwa [hpdu] at hauthentic

/-- Whoever shares the secret takes a framed packet apart into its header and its
    PDU. -/
theorem framePdu_opens {cred receiver : RCredential} (hshares : SharesSecret cred receiver)
    {tenant : RTenantHeader} (htype : tenant.tlvType = R_TLV_TENANT)
    (hsize : tenant.tlvSize.toNat = R_TENANT_TLV_LEN) {pdu : Bytes} (hpdu : 0 < pdu.length)
    (hinverts : cred.authType = .aesGcm → Invertible gcm cred.aesKey) {evpOk : Bool}
    (hevp : cred.authType = .aesGcm → evpOk = true) {outCap : Nat} {io : EncryptIo}
    {packet : Bytes} (h : framePdu gcm cred tenant pdu outCap io = .ok packet) :
    Opened gcm receiver packet evpOk tenant R_TENANT_TLV_LEN pdu := by
  cases hauth : cred.authType with
  | derive => exact absurd hauth (framePdu_fits h).1
  | aesGcm =>
    obtain ⟨hset, hkey⟩ := hshares.aes hauth
    rw [hevp hauth]
    exact framePdu_opened (hinverts hauth) hauth rfl (hshares.authType.trans hauth) hset hkey
      htype hsize hpdu h
  | cookie =>
    obtain ⟨hset, hcookie⟩ := hshares.cookie hauth
    unfold framePdu at h
    simp only [hauth] at h
    split at h
    · cases h
    split at h
    · cases h
    split at h
    · cases h
    split at h
    · cases h
    obtain rfl := Except.ok.inj h
    rw [← hcookie]
    exact cookieFrame_opened (hshares.authType.trans hauth) hset htype hsize pdu evpOk

/-! ### The responder's framing -/

/-- The responder's credential in the form in which the client holds its own. -/
def RTestResponderState.credential (state : RTestResponderState) : RCredential where
  keyId := state.tenantKeyId
  authType := state.authType
  cookie := state.secret
  hasCookie := true
  aesKey := state.secret
  hasAesKey := true

/-- The responder accepts every packet that opens under its credential. -/
theorem extractAuthenticatedPdu_opened {state : RTestResponderState} {input : Bytes}
    {evpOk : Bool} {tenant : RTenantHeader} {pos : Nat} {pdu : Bytes}
    (hopened : Opened gcm state.credential input evpOk tenant pos pdu)
    (hkey : tenant.keyId = state.tenantKeyId) :
    extractAuthenticatedPdu gcm state input evpOk = .ok (tenant, pdu) := by
  unfold extractAuthenticatedPdu
  simp only [hopened.parsed, hkey]
  rw [if_neg (by simp)]
  have htlv := rParseAuthTlvHeader_cases input pos
  cases rExtractPduData_ok_iff.mp hopened.extracted with
  | cookie hauth _ htype hsize hlength hcookie =>
    have hauth : state.authType = .cookie := hauth
    have hcookie : FixedBytes.ofSlice 32 input (pos + 4) = state.secret := hcookie
    rcases htlv with ⟨-, -, htlv⟩ | ⟨hover, -⟩
    · simp [htlv, hauth, authTlvAt, htype, hsize, hcookie]
    · exact absurd ⟨by omega, by omega⟩ hover
  | aes hauth _ htype hsize hlength hcap hevp _ hopen =>
    have hauth : state.authType = .aesGcm := hauth
    have hopen : gcm.decrypt state.secret (FixedBytes.ofSlice 12 input (pos + 4))
      (FixedBytes.ofSlice 16 input (pos + 16)) (input.take (pos + 16)) (input.drop (pos + 32)) =
        some pdu := hopen
    rcases htlv with ⟨-, -, htlv⟩ | ⟨hover, -⟩
    · have hnot : ¬ R_MAX_PACKET_SIZE < input.length - (pos + 32) := by omega
      simp [htlv, hauth, authTlvAt, htype, hsize, hevp, Nat.not_le.mpr hlength, rDecryptPduAesGcm,
        hnot, hopen]
    · exact absurd ⟨by omega, by omega⟩ hover

/-- With a ready cipher, sealing succeeds and keeps the length. -/
theorem CipherReady.sealing {cred : RCredential} {io : EncryptIo}
    (hready : CipherReady gcm cred io) (hauth : cred.authType = .aesGcm) (aadPrefix : Bytes)
    (pdu : Bytes) (hfit : pdu.length ≤ R_MAX_PACKET_SIZE) :
    ∃ cipher nonce tag, rEncryptPduAesGcm gcm pdu cred.aesKey aadPrefix R_MAX_PACKET_SIZE io =
      some (cipher, nonce, tag) ∧ cipher.length = pdu.length := by
  obtain ⟨nonce, hnonce⟩ := Option.ne_none_iff_exists'.mp (hready.random hauth)
  have hproduced : ∃ cipher tag, rEncryptPduAesGcm gcm pdu cred.aesKey aadPrefix
      R_MAX_PACKET_SIZE io = some (cipher, nonce, tag) := by
    simp only [rEncryptPduAesGcm, hnonce, hready.evp hauth]
    rw [if_neg (Nat.not_lt.mpr hfit)]
    exact ⟨_, _, rfl⟩
  obtain ⟨cipher, tag, hproduced⟩ := hproduced
  exact ⟨cipher, nonce, tag, hproduced, (hready.inverts hauth).length_cipher
    ⟨aadPrefix, pdu, R_MAX_PACKET_SIZE, io, cipher, nonce, tag, hproduced⟩⟩

/-- The responder frames a response as the client frames a request. -/
theorem buildAuthenticatedResponse_framed (state : RTestResponderState)
    (hauth : state.authType ≠ .derive) {io : EncryptIo}
    (hready : CipherReady gcm state.credential io) (requestTenant : RTenantHeader)
    (wrongRequestId : Bool) (pdu : Bytes)
    (hfit : frameLen state.authType + pdu.length ≤ R_MAX_PACKET_SIZE) {outCap : Nat}
    (hcap : R_MAX_PACKET_SIZE ≤ outCap) :
    ∃ output, buildAuthenticatedResponse gcm state requestTenant pdu wrongRequestId outCap io =
        .ok output ∧
      framePdu gcm state.credential (responseHeader state requestTenant wrongRequestId) pdu
        R_MAX_PACKET_SIZE io = .ok output ∧
      output.length = frameLen state.authType + pdu.length := by
  have htenant : R_TENANT_TLV_LEN = 40 := rfl
  have hmax : R_MAX_PACKET_SIZE = 1200 := rfl
  unfold buildAuthenticatedResponse framePdu
  rw [if_neg (by omega), if_neg (by omega)]
  cases hmode : state.authType with
  | derive => exact absurd hmode hauth
  | cookie =>
    rw [hmode] at hfit
    simp only [frameLen] at hfit ⊢
    have hmode' : state.credential.authType = .cookie := hmode
    have hlength : (rTenantHeaderWrite (responseHeader state requestTenant wrongRequestId) ++
        (rWriteLe16 R_TLV_AUTH_COOKIE ++ rWriteLe16 36 ++ (state.secret.val ++ pdu))).length =
          76 + pdu.length := by
      simp [htenant]
      omega
    refine ⟨_, if_neg (by omega), ?_, hlength⟩
    simp only [hmode']
    rw [if_neg (by simp [RTestResponderState.credential]), if_neg (by omega)]
    exact if_neg (by rw [show state.credential.cookie = state.secret from rfl, hlength]; omega)
  | aesGcm =>
    rw [hmode] at hfit
    simp only [frameLen] at hfit ⊢
    have hmode' : state.credential.authType = .aesGcm := hmode
    obtain ⟨cipher, nonce, tag, hsealed, hcipher⟩ := hready.sealing hmode'
      (framePrefix (responseHeader state requestTenant wrongRequestId)) pdu (by omega)
    have hsealed' : rEncryptPduAesGcm gcm pdu state.secret
        (rTenantHeaderWrite (responseHeader state requestTenant wrongRequestId) ++
          (rWriteLe16 R_TLV_AUTH_AES ++ rWriteLe16 32)) R_MAX_PACKET_SIZE io =
          some (cipher, nonce, tag) := hsealed
    have hlength : ((rTenantHeaderWrite (responseHeader state requestTenant wrongRequestId) ++
        (rWriteLe16 R_TLV_AUTH_AES ++ rWriteLe16 32)) ++
          (nonce.val ++ (tag.val ++ cipher))).length = 72 + pdu.length := by
      simp [htenant, hcipher]
      omega
    refine ⟨_, ?_, ?_, hlength⟩
    · rw [if_neg (by omega), hsealed']
    · simp only [hmode']
      rw [if_neg (by simp [RTestResponderState.credential]), if_neg (by omega),
        show state.credential.aesKey = state.secret from rfl, hsealed']
      simp only
      rw [if_neg (by omega), if_neg (by rw [hlength]; omega)]

/-! ### The response PDU -/

/-- What the responder sends back for a guard: the guard and a current latency. -/
abbrev GuardAnswer := RLatencyGuard × UInt32

def guardAnswerBlock (answer : GuardAnswer) : Bytes :=
  answer.1.latencyTrackerId.val ++ (rWriteLe32 answer.1.ttlMs ++ (rWriteLe32 answer.1.maxSamples ++
    (rWriteLe32 answer.1.minSampleThreshold ++ (rWriteLe32 answer.1.thresholdMs ++
      rWriteLe32 answer.2))))

theorem patch_middle (front : Bytes) {old new : Bytes} (rest : Bytes)
    (hlen : new.length = old.length) :
    patch (front ++ (old ++ rest)) front.length new = front ++ (new ++ rest) := by
  unfold patch
  rw [List.take_left, ← List.drop_drop, List.drop_left, hlen, List.drop_left]

/-- The current latency replaces the zero that the client sent. -/
theorem patch_guardBlock (guard : RLatencyGuard) (current : UInt32) :
    patch (guardBlock guard) 32 (rWriteLe32 current) = guardAnswerBlock (guard, current) := by
  have hlen : (rWriteLe32 current).length = (rWriteLe32 0).length := by simp
  have hpatch := patch_middle
    (guard.latencyTrackerId.val ++ rWriteLe32 guard.ttlMs ++ rWriteLe32 guard.maxSamples ++
      rWriteLe32 guard.minSampleThreshold ++ rWriteLe32 guard.thresholdMs) [] hlen
  rw [List.append_nil, List.append_nil] at hpatch
  simpa [guardBlock, guardAnswerBlock] using hpatch

/-- The deficit stands where the client sent the tokens. -/
theorem writeDeficit_resourceBlock (resource : RResourceRequest) (deficit : UInt16) :
    writeDeficit (resourceBlock resource) deficit =
      resourceBlock { resource with tokensRequested := deficit } := by
  have hlen : ∀ v w : UInt16, (rWriteLe16 v).length = (rWriteLe16 w).length := by simp
  have htokens := patch_middle
    (resource.bucketId.val ++ rWriteLe32 resource.windowSizeMs ++ rWriteLe32 resource.rateLimit)
    (rWriteLe16 0) (hlen deficit resource.tokensRequested)
  have hpadding := patch_middle
    (resource.bucketId.val ++ rWriteLe32 resource.windowSizeMs ++ rWriteLe32 resource.rateLimit ++
      rWriteLe16 deficit) [] (hlen 0 0)
  have hfront : (resource.bucketId.val ++ rWriteLe32 resource.windowSizeMs ++
      rWriteLe32 resource.rateLimit).length = 24 := by simp
  have hfront' : (resource.bucketId.val ++ rWriteLe32 resource.windowSizeMs ++
      rWriteLe32 resource.rateLimit ++ rWriteLe16 deficit).length = 26 := by simp
  rw [hfront] at htokens
  rw [hfront', List.append_nil] at hpadding
  unfold writeDeficit
  simp only [resourceBlock]
  rw [List.append_assoc _ (rWriteLe16 resource.tokensRequested), htokens, ← List.append_assoc,
    hpadding]

theorem readGuard_answer (answer : GuardAnswer) (rest : Bytes) :
    (readGuard (guardAnswerBlock answer ++ rest), rLe32 (guardAnswerBlock answer ++ rest) 32) =
      answer := by
  obtain ⟨guard, current⟩ := answer
  have hword : ∀ k, rLe32 (guardAnswerBlock (guard, current) ++ rest) (16 + k) =
      rLe32 (rWriteLe32 guard.ttlMs ++ (rWriteLe32 guard.maxSamples ++
        (rWriteLe32 guard.minSampleThreshold ++ (rWriteLe32 guard.thresholdMs ++
          (rWriteLe32 current ++ rest))))) k := by
    intro k
    simp only [guardAnswerBlock, List.append_assoc]
    exact rLe32_behind_id _ _ k
  have hid : FixedBytes.ofSlice 16 (guardAnswerBlock (guard, current) ++ rest) 0 =
      guard.latencyTrackerId := by
    simp only [guardAnswerBlock, List.append_assoc]
    exact FixedBytes.ofSlice_val_append _ _
  have httl := hword 0
  have hsamples := hword (4 + 0)
  have hminimum := hword (4 + (4 + 0))
  have hthreshold := hword (4 + (4 + (4 + 0)))
  have hcurrent := hword (4 + (4 + (4 + (4 + 0))))
  simp only [rLe32_behind_word, rLe32_write] at httl hsamples hminimum hthreshold hcurrent
  simp only [readGuard, hid, httl, hsamples, hminimum, hthreshold, hcurrent]

def guardAnswerCodec : BlockCodec UInt8 GuardAnswer 36 where
  encode := guardAnswerBlock
  decode block := (readGuard block, rLe32 block 32)
  length_encode := by simp [guardAnswerBlock]
  decode_encode := readGuard_answer

def guardResultOf (answer : GuardAnswer) : RGuardResult where
  latencyTrackerId := answer.1.latencyTrackerId
  thresholdMs := answer.1.thresholdMs
  currentLatencyMs := answer.2
  passed := decide (answer.2 < answer.1.thresholdMs)

def resourceResultOf (answer : RResourceRequest) : RResourceResult where
  bucketId := answer.bucketId
  tokensDeficit := answer.tokensRequested
  actualRate := answer.rateLimit

theorem guardResultAt_decode (pdu : Bytes) (i : Nat) :
    guardResultAt pdu i =
      guardResultOf (guardAnswerCodec.decode ((pdu.drop 12).drop (36 * i))) := by
  simp only [guardResultAt, guardResultOf, guardAnswerCodec, readGuard, rLe32_drop,
    FixedBytes.ofSlice_drop, Nat.add_zero, ← Nat.add_assoc]

theorem resourceResultAt_decode (pdu : Bytes) (g i : Nat) :
    resourceResultAt pdu g i =
      resourceResultOf (resourceCodec.decode ((pdu.drop (12 + 36 * g)).drop (28 * i))) := by
  simp only [resourceResultAt, resourceResultOf, resourceCodec, readResource, rLe32_drop,
    rLe16_drop, FixedBytes.ofSlice_drop, Nat.add_zero, ← Nat.add_assoc]

def responseBody (guards : List GuardAnswer) (resources : List RResourceRequest) : Bytes :=
  rWriteLe16 (UInt16.ofNat guards.length) ++ (rWriteLe16 (UInt16.ofNat resources.length) ++
    (guardAnswerCodec.encodeAll guards ++ resourceCodec.encodeAll resources))

theorem responseBody_read {guards : List GuardAnswer} {resources : List RResourceRequest}
    (hguards : guards.length ≤ 0xffff) (hresources : resources.length ≤ 0xffff) {pdu : Bytes}
    (hpdu : Framed R_PDU_RATE_RESPONSE 0 (responseBody guards resources) pdu) :
    ResponseGrammar pdu ∧ (responseAt pdu).guards = guards.map guardResultOf ∧
      (responseAt pdu).resources = resources.map resourceResultOf := by
  obtain ⟨hsize, htype, hdeclared, -, hbody⟩ := hpdu
  have hcount : (rLe16 pdu 8).toNat = guards.length := by
    rw [← Nat.add_zero 8, ← rLe16_drop, hbody, responseBody, rLe16_write, ofNat_toNat hguards]
  have hcount' : (rLe16 pdu 10).toNat = resources.length := by
    rw [show (10 : Nat) = 8 + 2 from rfl, ← rLe16_drop, hbody, responseBody, rLe16_second,
      ofNat_toNat hresources]
  have hblocks : pdu.drop 12 =
      guardAnswerCodec.encodeAll guards ++ resourceCodec.encodeAll resources := by
    rw [show (12 : Nat) = 8 + 4 from rfl, ← List.drop_drop, hbody, responseBody, drop_words]
  have hresourcesAt : pdu.drop (12 + 36 * guards.length) =
      resourceCodec.encodeAll resources ++ [] := by
    rw [← List.drop_drop, hblocks, guardAnswerCodec.drop_encodeAll guards _ (Nat.le_refl _),
      List.drop_length, BlockCodec.encodeAll_nil, List.nil_append, List.append_nil]
  have hlength : (responseBody guards resources).length =
      4 + 36 * guards.length + 28 * resources.length := by
    simp only [responseBody, List.length_append, length_rWriteLe16, BlockCodec.length_encodeAll]
    omega
  refine ⟨⟨by omega, htype, by omega, by omega, by omega⟩, ?_, ?_⟩
  · simp only [responseAt, hcount]
    apply List.ext_getElem (by simp)
    intro i hleft hright
    have hi : i < guards.length := by simpa using hright
    simp only [List.getElem_map, List.getElem_range, guardResultAt_decode, hblocks]
    rw [guardAnswerCodec.decode_drop guards _ hi]
  · simp only [responseAt, hcount, hcount']
    apply List.ext_getElem (by simp)
    intro i hleft hright
    have hi : i < resources.length := by simpa using hright
    simp only [List.getElem_map, List.getElem_range, resourceResultAt_decode, hresourcesAt]
    rw [resourceCodec.decode_drop resources _ hi]

/-! ### The responder's answers -/

/-- The scenarios that answer every request as it was asked; a quota needs room in
    its table for the buckets of the request. -/
def Answering (state : RTestResponderState) (resourceCount : Nat) : Prop :=
  state.scenario = .allow ∨ state.scenario = .deny ∨ state.scenario = .guardPass ∨
    state.scenario = .guardDeny ∨
    (state.scenario = .quota ∧ state.quota.length + resourceCount ≤ R_TEST_RESPONDER_QUOTA_CAP)

def currentLatencyOf (scenario : RTestScenario) (guard : RLatencyGuard) : UInt32 :=
  if scenario = .guardDeny then guard.thresholdMs
  else if guard.thresholdMs > 0 then guard.thresholdMs - 1 else 0

/-- What the responder may send back for a resource. -/
structure ResourceAnswer (scenario : RTestScenario) (asked answer : RResourceRequest) : Prop where
  same : answer = { asked with tokensRequested := answer.tokensRequested }
  denied : scenario = .deny → answer.tokensRequested ≠ 0
  granted : scenario = .allow ∨ scenario = .guardPass ∨ scenario = .guardDeny →
    answer.tokensRequested = 0

/-- A parsed request whose block pointers see the given guards and resources. -/
structure Carries (guards : List RLatencyGuard) (resources : List RResourceRequest)
    (request : RTestParsedRequest) : Prop where
  guardCount : request.guardCount = UInt16.ofNat guards.length
  resourceCount : request.resourceCount = UInt16.ofNat resources.length
  guardBound : guards.length ≤ 0xffff
  resourceBound : resources.length ≤ 0xffff
  guards : ∃ rest, request.guards = guardCodec.encodeAll guards ++ rest
  resources : ∃ rest, request.resources = resourceCodec.encodeAll resources ++ rest

section

variable {guards : List RLatencyGuard} {resources : List RResourceRequest}
  {request : RTestParsedRequest} (hcarries : Carries guards resources request)
include hcarries

theorem Carries.guardBlock {i : Nat} (hi : i < guards.length) (scenario : RTestScenario) :
    responseGuardBlock scenario request i =
      guardAnswerBlock (guards[i], currentLatencyOf scenario guards[i]) := by
  obtain ⟨rest, hbytes⟩ := hcarries.guards
  have hblock : (FixedBytes.ofSlice 36 request.guards (i * R_GUARD_BLOCK_WIRE_LEN)).val =
      RlClient.guardBlock guards[i] := by
    have hfit : i * R_GUARD_BLOCK_WIRE_LEN + 36 ≤ request.guards.length := by
      rw [hbytes, List.length_append, guardCodec.length_encodeAll, R_GUARD_BLOCK_WIRE_LEN]
      omega
    rw [FixedBytes.val_ofSlice hfit, hbytes, R_GUARD_BLOCK_WIRE_LEN, Nat.mul_comm]
    exact guardCodec.take_drop guards rest hi
  have hthreshold : rLe32 (RlClient.guardBlock guards[i]) 28 = guards[i].thresholdMs := by
    have hread := congrArg RLatencyGuard.thresholdMs (readGuard_block guards[i] [])
    rwa [List.append_nil] at hread
  unfold responseGuardBlock
  rw [hcarries.guardCount, ofNat_toNat hcarries.guardBound]
  simp only [hi, if_true, hblock, hthreshold, patch_guardBlock]
  rfl

theorem Carries.guardBlocks (scenario : RTestScenario) :
    (List.range guards.length).flatMap (responseGuardBlock scenario request) =
      guardAnswerCodec.encodeAll
        (guards.map fun guard => (guard, currentLatencyOf scenario guard)) := by
  rw [← guardAnswerCodec.flatMap_range, List.length_map]
  intro i hi
  rw [List.getElem_map]
  exact hcarries.guardBlock (by simpa using hi) scenario

end

theorem length_quotaCount {allowCount : UInt64} {bucketId : FixedBytes 16}
    {quota quota' : List RTestQuotaEntry} {allowed : Bool}
    (h : quotaCount allowCount bucketId quota = some (allowed, quota')) :
    quota'.length = quota.length := by
  induction quota generalizing quota' allowed with
  | nil => cases h
  | cons entry quota ih =>
    rw [quotaCount] at h
    split at h
    · obtain ⟨-, rfl⟩ := Prod.mk.inj (Option.some.inj h)
      rfl
    · split at h
      · cases h
      · rename_i rest hrest
        obtain ⟨-, rfl⟩ := Prod.mk.inj (Option.some.inj h)
        rw [List.length_cons, List.length_cons, ih hrest]

/-- With room for one bucket the quota answers, and takes at most one entry. -/
theorem quotaAllows_some {state : RTestResponderState}
    (hroom : state.quota.length < R_TEST_RESPONDER_QUOTA_CAP) (bucketId : FixedBytes 16) :
    ∃ allowed quota, quotaAllows state bucketId = some (allowed, { state with quota := quota }) ∧
      quota.length ≤ state.quota.length + 1 := by
  unfold quotaAllows
  split
  · rename_i allowed quota hcount
    exact ⟨allowed, quota, rfl, by rw [length_quotaCount hcount]; omega⟩
  · rw [if_neg (Nat.not_le.mpr hroom)]
    exact ⟨_, _, rfl, by simp⟩

/-- The block of the request that resource `i` is answered with. -/
abbrev requestedBlock (request : RTestParsedRequest) (i : Nat) : Bytes :=
  (FixedBytes.ofSlice 28 request.resources (i * R_RESOURCE_BLOCK_WIRE_LEN)).val

theorem responseResourceBlock_granted {request : RTestParsedRequest} {i : Nat}
    (hin : i < request.resourceCount.toNat) {state : RTestResponderState}
    (hscenario : state.scenario = .allow ∨ state.scenario = .guardPass ∨
      state.scenario = .guardDeny) :
    responseResourceBlock request i state =
      (state, .ok (writeDeficit (requestedBlock request i) 0)) := by
  unfold responseResourceBlock
  rw [if_pos hin]
  rcases hscenario with hscenario | hscenario | hscenario
  · simp only [hscenario]
  · simp only [hscenario]
  · simp only [hscenario]

theorem responseResourceBlock_denied {request : RTestParsedRequest} {i : Nat}
    (hin : i < request.resourceCount.toNat) {state : RTestResponderState}
    (hscenario : state.scenario = .deny) :
    responseResourceBlock request i state =
      (state, .ok (writeDeficit (requestedBlock request i)
        (deniedDeficit (requestedBlock request i)))) := by
  unfold responseResourceBlock
  rw [if_pos hin]
  simp only [hscenario]

theorem responseResourceBlock_quota {request : RTestParsedRequest} {i : Nat}
    (hin : i < request.resourceCount.toNat) {state state' : RTestResponderState}
    (hscenario : state.scenario = .quota) {allowed : Bool}
    (hallows : quotaAllows state (FixedBytes.ofSlice 16 (requestedBlock request i) 0) =
      some (allowed, state')) :
    responseResourceBlock request i state =
      (state', .ok (writeDeficit (requestedBlock request i)
        (if allowed then 0 else deniedDeficit (requestedBlock request i)))) := by
  unfold responseResourceBlock
  rw [if_pos hin]
  simp only [hscenario, hallows]

theorem deniedDeficit_ne_zero (source : Bytes) : deniedDeficit source ≠ 0 := by
  unfold deniedDeficit
  split
  · decide
  · assumption

section

variable {guards : List RLatencyGuard} {resources : List RResourceRequest}
  {request : RTestParsedRequest} (hcarries : Carries guards resources request)
include hcarries

theorem Carries.resourceBlock {i : Nat} (hi : i < resources.length) {state : RTestResponderState}
    {count : Nat} (hanswers : Answering state (count + 1)) :
    ∃ quota answer, responseResourceBlock request i state =
        ({ state with quota := quota }, .ok (RlClient.resourceBlock answer)) ∧
      ResourceAnswer state.scenario resources[i] answer ∧
      Answering { state with quota := quota } count := by
  obtain ⟨rest, hbytes⟩ := hcarries.resources
  have hblock : requestedBlock request i = RlClient.resourceBlock resources[i] := by
    have hfit : i * R_RESOURCE_BLOCK_WIRE_LEN + 28 ≤ request.resources.length := by
      rw [hbytes, List.length_append, resourceCodec.length_encodeAll, R_RESOURCE_BLOCK_WIRE_LEN]
      omega
    rw [requestedBlock, FixedBytes.val_ofSlice hfit, hbytes, R_RESOURCE_BLOCK_WIRE_LEN,
      Nat.mul_comm]
    exact resourceCodec.take_drop resources rest hi
  have hin : i < request.resourceCount.toNat := by
    rw [hcarries.resourceCount, ofNat_toNat hcarries.resourceBound]
    exact hi
  have hgranted : state.scenario = .allow ∨ state.scenario = .guardPass ∨
      state.scenario = .guardDeny →
      ∃ quota answer, responseResourceBlock request i state =
          ({ state with quota := quota }, .ok (RlClient.resourceBlock answer)) ∧
        ResourceAnswer state.scenario resources[i] answer ∧
        Answering { state with quota := quota } count := by
    intro hscenario
    refine ⟨state.quota, { resources[i] with tokensRequested := 0 }, ?_,
      ⟨rfl, ?_, fun _ => rfl⟩, ?_⟩
    · rw [responseResourceBlock_granted hin hscenario, hblock, writeDeficit_resourceBlock]
    · intro hdeny
      rw [hdeny] at hscenario
      simp at hscenario
    · rcases hscenario with hscenario | hscenario | hscenario
      · exact .inl hscenario
      · exact .inr (.inr (.inl hscenario))
      · exact .inr (.inr (.inr (.inl hscenario)))
  rcases hanswers with hscenario | hscenario | hscenario | hscenario | ⟨hscenario, hroom⟩
  · exact hgranted (.inl hscenario)
  · refine ⟨state.quota, { resources[i] with
      tokensRequested := deniedDeficit (RlClient.resourceBlock resources[i]) }, ?_,
      ⟨rfl, fun _ => deniedDeficit_ne_zero _, ?_⟩, .inr (.inl hscenario)⟩
    · rw [responseResourceBlock_denied hin hscenario, hblock, writeDeficit_resourceBlock]
    · rw [hscenario]
      intro hother
      simp at hother
  · exact hgranted (.inr (.inl hscenario))
  · exact hgranted (.inr (.inr hscenario))
  · obtain ⟨allowed, quota, hallows, hgrows⟩ :=
      quotaAllows_some (show state.quota.length < R_TEST_RESPONDER_QUOTA_CAP by omega)
        (FixedBytes.ofSlice 16 (requestedBlock request i) 0)
    refine ⟨quota, { resources[i] with tokensRequested :=
      if allowed then 0 else deniedDeficit (RlClient.resourceBlock resources[i]) }, ?_,
      ⟨rfl, ?_, ?_⟩, .inr (.inr (.inr (.inr ⟨hscenario, ?_⟩)))⟩
    · rw [responseResourceBlock_quota hin hscenario hallows, hblock, writeDeficit_resourceBlock]
    · rw [hscenario]
      intro hother
      cases hother
    · rw [hscenario]
      intro hother
      simp at hother
    · show quota.length + count ≤ _
      omega

theorem Carries.resourceBlocks {count i : Nat} (hi : i + count = resources.length)
    {state : RTestResponderState} (hanswers : Answering state count) :
    ∃ quota answers, responseResourceBlocks request count i state =
        ({ state with quota := quota }, .ok (resourceCodec.encodeAll answers)) ∧
      List.Forall₂ (ResourceAnswer state.scenario) (resources.drop i) answers := by
  induction count generalizing i state with
  | zero =>
    rw [List.drop_eq_nil_of_le (by omega)]
    exact ⟨state.quota, [], rfl, .nil⟩
  | succ count ih =>
    have hlt : i < resources.length := by omega
    obtain ⟨quota, answer, hblock, hanswer, hrest⟩ := hcarries.resourceBlock hlt hanswers
    obtain ⟨quota', answers, hblocks, hall⟩ :=
      ih (show i + 1 + count = resources.length by omega) hrest
    refine ⟨quota', answer :: answers, ?_, ?_⟩
    · rw [responseResourceBlocks, hblock]
      simp only [hblocks]
      rfl
    · rw [List.drop_eq_getElem_cons hlt]
      exact .cons hanswer hall

theorem Carries.responsePdu (state : RTestResponderState)
    (hanswers : Answering state resources.length)
    (hfit : 12 + 36 * guards.length + 28 * resources.length ≤ R_MAX_PACKET_SIZE) :
    ∃ quota answers pdu, buildResponsePdu state request R_MAX_PACKET_SIZE =
        ({ state with quota := quota }, .ok pdu) ∧
      List.Forall₂ (ResourceAnswer state.scenario) resources answers ∧
      Framed R_PDU_RATE_RESPONSE 0 (responseBody
        (guards.map fun guard => (guard, currentLatencyOf state.scenario guard)) answers) pdu := by
  have hmax : R_MAX_PACKET_SIZE = 1200 := rfl
  have hheader : R_PDU_HEADER_LEN = 8 := rfl
  have hguardLen : R_GUARD_BLOCK_WIRE_LEN = 36 := rfl
  have hresourceLen : R_RESOURCE_BLOCK_WIRE_LEN = 28 := rfl
  have hcounts : responseCounts state.scenario request.guardCount request.resourceCount =
      some (request.guardCount, request.resourceCount) := by
    rcases hanswers with hscenario | hscenario | hscenario | hscenario | ⟨hscenario, -⟩ <;>
      rw [hscenario] <;> rfl
  obtain ⟨quota, answers, hblocks, hall⟩ :=
    hcarries.resourceBlocks (Nat.zero_add _) hanswers
  have hlen : answers.length = resources.length := by
    rw [List.drop_zero] at hall
    exact hall.length_eq.symm
  have hbody : (responseBody
      (guards.map fun guard => (guard, currentLatencyOf state.scenario guard)) answers).length =
      4 + 36 * guards.length + 28 * resources.length := by
    simp only [responseBody, List.length_append, length_rWriteLe16, BlockCodec.length_encodeAll,
      List.length_map, hlen]
    omega
  have hbuilt : ∃ pdu, rBuildPdu R_PDU_RATE_RESPONSE (responseBody
      (guards.map fun guard => (guard, currentLatencyOf state.scenario guard)) answers)
      R_MAX_PACKET_SIZE = .ok pdu := by
    unfold rBuildPdu buildPdu
    rw [if_neg (by simp only [hbody, Bool.or_eq_true, decide_eq_true_eq]; omega)]
    exact ⟨_, rfl⟩
  obtain ⟨pdu, hpdu⟩ := hbuilt
  refine ⟨quota, answers, pdu, ?_, hall, buildPdu_framed hpdu⟩
  unfold buildResponsePdu
  rw [hcounts]
  simp only [hcarries.guardCount, hcarries.resourceCount, ofNat_toNat hcarries.guardBound,
    ofNat_toNat hcarries.resourceBound]
  rw [if_neg (by
    simp only [Bool.or_eq_true, decide_eq_true_eq, hguardLen, hresourceLen]
    omega), hblocks]
  simp only [hcarries.guardBlocks]
  rw [← hpdu, responseBody, List.length_map, hlen]

end

/-! ### One request at the responder -/

theorem rememberGuard_eq (state : RTestResponderState) (request : RTestParsedRequest) :
    ∃ id has, rememberGuard state request =
      { state with lastGuardLatencyTrackerId := id, hasLastGuardLatencyTrackerId := has } := by
  unfold rememberGuard
  split
  · exact ⟨_, _, rfl⟩
  · exact ⟨_, _, rfl⟩

/-- An answering scenario sends what was built. -/
theorem sendScenario_answering {state : RTestResponderState} {count : Nat}
    (hanswers : Answering state count) (sent : RTestResponderState)
    (hscenario : sent.scenario = state.scenario)
    (output : Bytes) (event : RTestEvent) :
    (sendScenario sent output event).rc = .ok ∧
      (sendScenario sent output event).sendResponse = true ∧
      (sendScenario sent output event).output = output := by
  unfold sendScenario
  rw [hscenario]
  rcases hanswers with hscenario | hscenario | hscenario | hscenario | ⟨hscenario, -⟩ <;>
    simp only [hscenario, and_self]

/-- The rate-request branch, for a request that was built by the client. -/
theorem answerRequest_answering {guards : List RLatencyGuard} {resources : List RResourceRequest}
    {request : RTestParsedRequest} (hcarries : Carries guards resources request)
    (state : RTestResponderState) (hanswers : Answering state resources.length)
    (hauth : state.authType ≠ .derive) {io : EncryptIo}
    (hready : CipherReady gcm state.credential io)
    (hfit : frameLen state.authType + (12 + 36 * guards.length + 28 * resources.length) ≤
      R_MAX_PACKET_SIZE) {outputCap : Nat} (hcap : R_MAX_PACKET_SIZE ≤ outputCap)
    (event : RTestEvent) :
    ∃ answers pdu, List.Forall₂ (ResourceAnswer state.scenario) resources answers ∧
      Framed R_PDU_RATE_RESPONSE 0 (responseBody
        (guards.map fun guard => (guard, currentLatencyOf state.scenario guard)) answers) pdu ∧
      (answerRequest gcm state request outputCap io event).rc = .ok ∧
      (answerRequest gcm state request outputCap io event).sendResponse = true ∧
      (answerRequest gcm state request outputCap io event).output.length ≤ R_MAX_PACKET_SIZE ∧
      framePdu gcm state.credential (responseHeader state request.tenant false) pdu
        R_MAX_PACKET_SIZE io = .ok (answerRequest gcm state request outputCap io event).output := by
  obtain ⟨id, has, hremembered⟩ := rememberGuard_eq state request
  obtain ⟨quota, answers, pdu, hpdu, hall, hframed⟩ := hcarries.responsePdu
    { state with lastGuardLatencyTrackerId := id, hasLastGuardLatencyTrackerId := has }
    hanswers (by omega)
  have hlen : pdu.length = 12 + 36 * guards.length + 28 * resources.length := by
    rw [hframed.size]
    simp only [responseBody, List.length_append, length_rWriteLe16, BlockCodec.length_encodeAll,
      List.length_map, ← hall.length_eq]
    omega
  -- the state differs from the first one only where framing does not look
  obtain ⟨output, houtput, hsame, hlength⟩ := buildAuthenticatedResponse_framed
    { state with
      lastGuardLatencyTrackerId := id, hasLastGuardLatencyTrackerId := has, quota := quota }
    hauth hready request.tenant false pdu (by rw [hlen]; exact hfit) hcap
  have hscenario : state.scenario ≠ .drop ∧ state.scenario ≠ .malformedRequestId := by
    rcases hanswers with hscenario | hscenario | hscenario | hscenario | ⟨hscenario, -⟩ <;>
      rw [hscenario] <;> decide
  have hanswer : answerRequest gcm state request outputCap io event =
      sendScenario { state with
        lastGuardLatencyTrackerId := id, hasLastGuardLatencyTrackerId := has, quota := quota }
        output (requestEvent request event) := by
    unfold answerRequest
    simp only [hremembered]
    rw [if_neg hscenario.1, hpdu]
    simp only [decide_eq_false hscenario.2, houtput]
  obtain ⟨hrc, hsend, hbytes⟩ := sendScenario_answering hanswers
    { state with
      lastGuardLatencyTrackerId := id, hasLastGuardLatencyTrackerId := has, quota := quota }
    rfl output (requestEvent request event)
  rw [← hanswer] at hrc hsend hbytes
  refine ⟨answers, pdu, hall, hframed, hrc, hsend, ?_, ?_⟩
  · rw [hbytes, hlength, hlen]
    exact hfit
  · rw [hbytes]
    exact hsame

/-- A built request is parsed into its guards and resources. -/
theorem parseRequestPdu_carries {resources : List RResourceRequest} {guards : List RLatencyGuard}
    {label : Option Bytes} {ttl : UInt32} {bodyCap : Nat} {body pdu : Bytes}
    (hvalid : ValidLabel label)
    (hbody : rBuildRateRequestBody resources guards label bodyCap = .ok body)
    (hpdu : Framed R_PDU_RATE_REQUEST ttl body pdu) (tenant : RTenantHeader) :
    ∃ request, parseRequestPdu pdu (.cleared tenant) = .ok request ∧ request.tenant = tenant ∧
      request.pduType = R_PDU_RATE_REQUEST ∧ Carries guards resources request := by
  obtain ⟨hguards, hresources, -⟩ := rBuildRateRequestBody_ok hbody
  exact ⟨_, parseRequestPdu_request hvalid hbody hpdu _, rfl, rfl,
    ⟨rfl, rfl, hguards, hresources, ⟨_, rfl⟩, ⟨_, rfl⟩⟩⟩

/-- **A packet of the client at a responder that shares its credential** is
    answered, and whoever shares the credential can open the answer. -/
theorem responder_answers {cred : RCredential} {rq : RateRequest} {stampMs : UInt64}
    {io : EncryptIo} {packet : Bytes}
    (hbuilt : rBuildRateRequestPacket gcm cred rq stampMs io = .ok packet)
    (hlabel : ValidLabel rq.metricsLabel) {state : RTestResponderState}
    (hshares : SharesSecret cred state.credential) (hkey : state.tenantKeyId = cred.keyId)
    (hanswers : Answering state rq.resources.length) {rio : RTestResponderIo}
    (hready : CipherReady gcm state.credential rio.encrypt)
    (hdecrypt : cred.authType = .aesGcm → rio.decryptOk = true) {outputCap : Nat}
    (hcap : R_MAX_PACKET_SIZE ≤ outputCap) :
    ∃ outcome answers pdu tenant,
      rTestResponderProcess gcm state packet outputCap rio = .ok outcome ∧ outcome.rc = .ok ∧
      outcome.sendResponse = true ∧ outcome.output.length ≤ R_MAX_PACKET_SIZE ∧
      List.Forall₂ (ResourceAnswer state.scenario) rq.resources answers ∧
      rq.guards.length ≤ 0xffff ∧ rq.resources.length ≤ 0xffff ∧
      Framed R_PDU_RATE_RESPONSE 0 (responseBody
        (rq.guards.map fun guard => (guard, currentLatencyOf state.scenario guard)) answers) pdu ∧
      tenant.keyId = state.serverId ∧ tenant.uniqueId = rq.requestId ∧
      tenant.steeringFeedback = (if state.steeringKeepPort then 1 else 0) ∧
      ∀ receiver evpOk, SharesSecret state.credential receiver →
        (cred.authType = .aesGcm → evpOk = true) →
        Opened gcm receiver outcome.output evpOk tenant R_TENANT_TLV_LEN pdu := by
  -- the request that was framed, and that it opens at the responder
  unfold rBuildRateRequestPacket at hbuilt
  split at hbuilt
  · cases hbuilt
  rename_i requestPdu hrequestPdu
  simp only at hbuilt
  generalize (if rq.startMs ≠ 0 then rq.startMs else stampMs) = timeStamp at hbuilt
  obtain ⟨hauth, hpacket⟩ := framePdu_fits hbuilt
  obtain ⟨body, hbody, hframed⟩ := encodeRequest_ok
    (show encodeRequest rq.guards rq.resources rq.metricsLabel rq.dedupTtlMs R_MAX_PACKET_SIZE
      R_MAX_PACKET_SIZE = .ok requestPdu from hrequestPdu)
  have hauth' : state.authType = cred.authType := hshares.authType
  have hinverts : cred.authType = .aesGcm → Invertible gcm cred.aesKey := by
    intro haes
    obtain ⟨-, hsecret⟩ := hshares.aes haes
    rw [← hsecret]
    exact hready.inverts (hauth'.trans haes)
  have hopened := framePdu_opens hshares rfl rfl (by rw [hframed.size]; omega) hinverts hdecrypt
    hbuilt
  have hextracted := extractAuthenticatedPdu_opened hopened hkey.symm
  obtain ⟨request, hparsed, htenant, htype, hcarries⟩ := parseRequestPdu_carries hlabel hbody
    hframed (requestHeader cred.keyId rq.requestId timeStamp)
  have hfit : frameLen state.authType + (12 + 36 * rq.guards.length + 28 * rq.resources.length) ≤
      R_MAX_PACKET_SIZE := by
    have hlen : 4 + 36 * rq.guards.length + 28 * rq.resources.length ≤ body.length := by
      rw [(rBuildRateRequestBody_ok hbody).2.2]
      simp only [List.length_append, length_rWriteLe16, BlockCodec.length_encodeAll]
      omega
    have hsize := hframed.size
    rw [hauth']
    omega
  obtain ⟨answers, pdu, hall, hresponse, hrc, hsend, hlength, houtput⟩ :=
    answerRequest_answering hcarries { state with sequence := state.sequence + 1 } hanswers
      (by rw [hauth']; exact hauth) hready hfit hcap (rejectedEvent (state.sequence + 1))
  have hprocess : rTestResponderProcess gcm state packet outputCap rio =
      .ok (answerRequest gcm { state with sequence := state.sequence + 1 } request outputCap
        rio.encrypt (rejectedEvent (state.sequence + 1))) := by
    have hnonempty : ¬ packet.length = 0 := by
      have hlow : R_TENANT_TLV_LEN = 40 := rfl
      rcases rParseTenantHeader_cases packet with ⟨-, hleft, hright, -⟩ | ⟨-, herror⟩
      · omega
      · exact absurd (herror.symm.trans hopened.parsed) (by simp)
    unfold rTestResponderProcess
    rw [if_neg hnonempty]
    simp only
    rw [show extractAuthenticatedPdu gcm { state with sequence := state.sequence + 1 } packet
      rio.decryptOk = .ok (requestHeader cred.keyId rq.requestId timeStamp, requestPdu) from
        hextracted]
    simp only [hparsed]
    rw [if_neg (by rw [htype]; decide)]
  rw [htenant] at houtput
  refine ⟨_, answers, pdu, _, hprocess, hrc, hsend, hlength, hall,
    hcarries.guardBound, hcarries.resourceBound, hresponse,
    ?_, ?_, ?_, fun receiver evpOk hreceiver hevp =>
      framePdu_opens hreceiver ?_ ?_ (by rw [hresponse.size]; omega) hready.inverts
        (fun haes => hevp (hauth'.symm.trans haes)) houtput⟩
  · rfl
  · rfl
  · rfl
  · rfl
  · rfl

/-! ### The answer at the client -/

/-- The responder was given the client's credential. -/
structure SharesCredential (state : RTestResponderState) (cred : RCredential) : Prop where
  keyId : state.tenantKeyId = cred.keyId
  authType : state.authType = cred.authType
  cookie : cred.authType = .cookie → state.secret = cred.cookie
  aes : cred.authType = .aesGcm → state.secret = cred.aesKey

theorem SharesCredential.outward {state : RTestResponderState} {cred : RCredential}
    (h : SharesCredential state cred) : SharesSecret cred state.credential :=
  ⟨h.authType, fun hcookie => ⟨rfl, h.cookie hcookie⟩, fun haes => ⟨rfl, h.aes haes⟩⟩

theorem SharesCredential.inward {args : CreateArgs} {c : RClient}
    (hcreate : rClientCreate args = .ok c) {state : RTestResponderState}
    (h : SharesCredential state c.credential) : SharesSecret state.credential c.credential := by
  obtain ⟨key, -, hconfigured⟩ := rClientCreate_configured hcreate
  refine ⟨h.authType.symm, ?_, ?_⟩
  · intro hcookie
    have hmode : c.credential.authType = .cookie := h.authType.symm.trans hcookie
    exact ⟨(hconfigured.cookie (hconfigured.authType.symm.trans hmode)).1, (h.cookie hmode).symm⟩
  · intro haes
    have hmode : c.credential.authType = .aesGcm := h.authType.symm.trans haes
    exact ⟨(hconfigured.aes (hconfigured.authType.symm.trans hmode)).1, (h.aes hmode).symm⟩

/-- A label that a submission carries starts with a byte that is not NUL. -/
theorem submittedLabel_valid {metricsLabel : Option Bytes} {metricsLabelLen : Nat}
    (hlen : ∀ label, submittedLabel metricsLabel metricsLabelLen = some label →
      label.length ≤ 256) : ValidLabel (submittedLabel metricsLabel metricsLabelLen) := by
  unfold submittedLabel at hlen ⊢
  cases metricsLabel with
  | none => trivial
  | some memory =>
    simp only at hlen ⊢
    by_cases hfirst : memory.getD 0 0 = 0
    · rw [if_pos hfirst]
      trivial
    rw [if_neg hfirst] at hlen ⊢
    generalize hcount : (if metricsLabelLen = 0 then (memory.takeWhile (· != 0)).length
      else metricsLabelLen) = labelLen at hlen ⊢
    -- the first byte of the memory is part of the label
    have hpos : 1 ≤ labelLen := by
      rw [← hcount]
      split
      · cases memory with
        | nil => exact absurd rfl hfirst
        | cons b rest =>
          have hb : (b != 0) = true := by simpa using hfirst
          simp [hb]
      · omega
    have hhigh := hlen _ rfl
    refine ⟨by simpa using hpos, hhigh, ?_⟩
    have hhead : ((List.range labelLen).map fun i => memory.getD i 0).getD 0 0 =
        memory.getD 0 0 := by
      simp [List.getD, Nat.lt_of_lt_of_le Nat.zero_lt_one hpos]
    rw [hhead]
    exact hfirst

theorem Launch.packet_built {c : RClient} {h : Handle} {calls : List Call} {started : RClientReq}
    (launch : Launch gcm c h calls started) :
    ∃ rq stampMs io, rBuildRateRequestPacket gcm c.credential rq stampMs io = .ok started.packet ∧
      rq.guards = started.guards ∧ rq.resources = started.resources ∧
      rq.requestId = started.requestId ∧ rq.metricsLabel = started.metricsLabel ∧
      ∃ label len, started.metricsLabel = submittedLabel label len := by
  have heq := launch.eq.trans (congrArg (firstRound c · launch.gapUnits) launch.built.eq)
  refine ⟨_, launch.io.stampMs, launch.io.encrypt, ?_, (congrArg RClientReq.guards heq).symm,
    (congrArg RClientReq.resources heq).symm, (congrArg RClientReq.requestId heq).symm,
    (congrArg RClientReq.metricsLabel heq).symm, _, _, congrArg RClientReq.metricsLabel heq⟩
  rw [congrArg RClientReq.packet heq]
  exact launch.built.framed

/-- Round zero ends before the deduplication deadline. -/
theorem Launch.first_le_dedup {c : RClient} {h : Handle} {calls : List Call}
    {started : RClientReq} (launch : Launch gcm c h calls started) :
    c.policy.firstDeadline started.startMs ≤ started.dedupDeadlineMs.toNat := by
  obtain ⟨-, -, -, hstart, -, hdedup, -⟩ := launch.fields
  obtain ⟨hhorizon, -⟩ := rRequestPolicyTtlMs_toNat launch.built.ttl
  have hunits := unitsThrough_le_horizon c.policy (Nat.zero_le c.policy.replayCount.toNat)
  rw [hdedup, toNat_add_of_le_max launch.built.fits, RRequestPolicy.firstDeadline, hstart]
  omega

/-- The response of the oldest server completes the request, whatever candidate it
    holds. -/
theorem acceptResponse_oldest {req : RClientReq} (hopen : Undecided req) {response : RResponse}
    (holdest : rIsOldestKnownServer req.allowedIds response.serverId = true) (c : RClient)
    (sender : RAddr) (io : DatagramIo) :
    acceptResponse c req response sender io =
      .complete (c.putRequest (recordResponse req response sender io.allocSeen))
        (recordResponse req response sender io.allocSeen) .ok (some response.result) io.complete
        [.accepted req.handle response] := by
  obtain ⟨addrs, addrCap, heq⟩ := recordResponse_eq req response sender io.allocSeen
  have hselect : selectBest (recordResponse req response sender io.allocSeen) io.nowMs =
      some response.result := by
    have hbest : rCandidateTryUpdateBest req.best response.result = some response.result :=
      rCandidateTryUpdateBest_oldest hopen holdest
    have holdest' : rIsOldestKnownServer req.allowedIds response.result.serverId = true := holdest
    rw [heq]
    simp [selectBest, hbest, holdest']
  unfold acceptResponse
  simp only [hselect]

/-! ### What comes back -/

theorem answered_guards (scenario : RTestScenario) (guards : List RLatencyGuard) :
    let results := guards.map fun guard =>
      guardResultOf (guard, currentLatencyOf scenario guard)
    results.map (fun guard => (guard.latencyTrackerId, guard.thresholdMs)) =
        guards.map (fun guard => (guard.latencyTrackerId, guard.thresholdMs)) ∧
      (scenario ≠ .guardDeny → ∀ guard ∈ results, guard.passed = true ↔ 0 < guard.thresholdMs) ∧
      (scenario = .guardDeny → ∀ guard ∈ results, guard.passed = false) := by
  refine ⟨?_, ?_, ?_⟩
  · rw [List.map_map]
    rfl
  · intro hscenario result hresult
    obtain ⟨guard, -, rfl⟩ := List.mem_map.mp hresult
    simp only [guardResultOf, currentLatencyOf, if_neg hscenario, decide_eq_true_eq]
    constructor
    · intro hpassed
      exact UInt32.lt_of_le_of_lt UInt32.zero_le hpassed
    · intro hpositive
      rw [if_pos hpositive, UInt32.lt_iff_toNat_lt]
      have hone : (1 : UInt32) ≤ guard.thresholdMs := by
        rw [UInt32.le_iff_toNat_le]
        exact UInt32.lt_iff_toNat_lt.mp hpositive
      have hpos := UInt32.lt_iff_toNat_lt.mp hpositive
      rw [UInt32.toNat_sub_of_le _ _ hone]
      exact Nat.sub_lt hpos Nat.zero_lt_one
  · intro hscenario result hresult
    obtain ⟨guard, -, rfl⟩ := List.mem_map.mp hresult
    simp [guardResultOf, currentLatencyOf, hscenario]

theorem answered_resources {scenario : RTestScenario} {resources answers : List RResourceRequest}
    (hall : List.Forall₂ (ResourceAnswer scenario) resources answers) :
    (answers.map resourceResultOf).map (·.bucketId) = resources.map (·.bucketId) ∧
      (scenario = .deny → ∀ resource ∈ answers.map resourceResultOf, resource.tokensDeficit ≠ 0) ∧
      (scenario = .allow ∨ scenario = .guardPass ∨ scenario = .guardDeny →
        ∀ resource ∈ answers.map resourceResultOf, resource.tokensDeficit = 0) := by
  induction hall with
  | nil => exact ⟨rfl, by simp, by simp⟩
  | cons hanswer _ ih =>
    obtain ⟨hids, hdenied, hgranted⟩ := ih
    refine ⟨?_, ?_, ?_⟩
    · rw [List.map_cons, List.map_cons, List.map_cons, hids]
      congr 1
      rw [resourceResultOf, hanswer.same]
    · intro hdeny resource hresource
      rcases List.mem_cons.mp hresource with rfl | hrest
      · exact hanswer.denied hdeny
      · exact hdenied hdeny resource hrest
    · intro hallow resource hresource
      rcases List.mem_cons.mp hresource with rfl | hrest
      · exact hanswer.granted hallow
      · exact hgranted hallow resource hrest

/-- **Client and responder agree end to end.** Any packet of a request, handed to a
    responder with the client's credential and the oldest server id of the snapshot,
    is answered in at most 1200 bytes, and the answer completes the request with
    the responder's server id and steering flag, the guards and resources in the
    order in which they were asked, and the verdict of the scenario. The request is
    any one in flight that its id finds, in round zero or behind events of any kind;
    `Invertible` is asked of the cipher in AES mode only. -/
theorem client_responder_agree {args : CreateArgs} {c : RClient}
    (hcreate : rClientCreate args = .ok c) {calls : List Call} {m : Machine}
    {trace : List Effect} (hrun : run gcm c calls = some (m, trace)) {h : Handle}
    {started req : RClientReq} (hsubmitted : Effect.submitted h started ∈ trace)
    (hfind : m.client.inflight.find? (fun r => r.requestId == started.requestId) = some req)
    (hhandle : req.handle = h)
    (hlabel : ∀ label, started.metricsLabel = some label → label.length ≤ 256)
    {pass : SendPass} {sentMs : UInt64} {index : Nat} {addr : RAddr} {packet : Bytes} {sent : Bool}
    (hemitted : Effect.udpSend (some h) pass sentMs index addr packet sent ∈ trace)
    {state : RTestResponderState} (hcredential : SharesCredential state c.credential)
    (holdest : OldestOf (started.targets.map (·.serverId)) state.serverId)
    (hanswers : Answering state started.resources.length) {rio : RTestResponderIo}
    (hready : CipherReady gcm state.credential rio.encrypt)
    (hdecrypt : c.credential.authType = .aesGcm → rio.decryptOk = true) {outputCap : Nat}
    (hcap : R_MAX_PACKET_SIZE ≤ outputCap) (sender : RAddr) {io : DatagramIo}
    (hintime : io.gateMs.toNat < c.policy.firstDeadline started.startMs)
    (hevp : c.credential.authType = .aesGcm → io.evpOk = true)
    (hguards : io.allocResponse.guards = true) (hresources : io.allocResponse.resources = true) :
    ∃ outcome result, rTestResponderProcess gcm state packet outputCap rio = .ok outcome ∧
      outcome.rc = .ok ∧ outcome.sendResponse = true ∧
      outcome.output.length ≤ R_MAX_PACKET_SIZE ∧
      (rClientOnDatagram gcm m.client outcome.output sender io).status = .ok ∧
      Effect.callback (some h) .ok (some result) ∈
        (rClientOnDatagram gcm m.client outcome.output sender io).effects ∧
      (∀ r ∈ (rClientOnDatagram gcm m.client outcome.output sender io).client.inflight,
        r.handle ≠ h) ∧
      result.serverId = state.serverId ∧ result.steeringFeedback = state.steeringKeepPort ∧
      result.guards.map (fun guard => (guard.latencyTrackerId, guard.thresholdMs)) =
        started.guards.map (fun guard => (guard.latencyTrackerId, guard.thresholdMs)) ∧
      result.resources.map (·.bucketId) = started.resources.map (·.bucketId) ∧
      (state.scenario = .allow ∨ state.scenario = .guardPass →
        (∀ resource ∈ result.resources, resource.tokensDeficit = 0) ∧
        ∀ guard ∈ result.guards, guard.passed = true ↔ 0 < guard.thresholdMs) ∧
      (state.scenario = .deny → ∀ resource ∈ result.resources, resource.tokensDeficit ≠ 0) ∧
      (state.scenario = .guardDeny → ∀ guard ∈ result.guards, guard.passed = false) ∧
      (result.success = true ↔ (∀ guard ∈ result.guards, guard.passed = true) ∧
        ∀ resource ∈ result.resources, resource.tokensDeficit = 0) := by
  have hwf := run_wf hcreate hrun
  have hmem : req ∈ m.client.inflight := List.mem_of_find?_eq_some hfind
  have hlive : m.view h = .live req := hhandle ▸ view_of_mem hwf hmem
  obtain ⟨⟨launch⟩, -⟩ := submitted_launch hcreate hrun hsubmitted
  have hsame := submitted_same hcreate hrun hsubmitted hlive
  -- the packet that was sent is the one that was built
  obtain ⟨htransmitted, -⟩ := run_transmitted hcreate hrun hsubmitted
  obtain ⟨⟨hpacket, -⟩, -⟩ := htransmitted.owned _ _ _ _ _ _ hemitted
  obtain ⟨rq, stampMs, buildIo, hbuilt, hrqGuards, hrqResources, hrqId, hrqLabel, bytes, len,
    hsubmittedLabel⟩ := launch.packet_built
  have hvalid : ValidLabel rq.metricsLabel := by
    rw [hrqLabel, hsubmittedLabel]
    apply submittedLabel_valid
    rwa [← hsubmittedLabel]
  obtain ⟨outcome, answers, pdu, tenant, hprocess, hrc, hsend, hlength, hall, hguardBound,
    hresourceBound, hframed, hserver, hid, hflag, hopens⟩ :=
    responder_answers hbuilt hvalid hcredential.outward hcredential.keyId
      (by rw [hrqResources]; exact hanswers) hready hdecrypt hcap
  rw [← hpacket] at hprocess
  -- the client opens the answer and reads it
  have hstatic : m.client.credential = c.credential := credential_of_static hwf.static
  have hopened := hopens m.client.credential io.evpOk
    (by rw [hstatic]; exact hcredential.inward hcreate) hevp
  obtain ⟨hgrammar, hguardResults, hresourceResults⟩ :=
    responseBody_read (by rw [List.length_map]; exact hguardBound)
      (by rw [← hall.length_eq]; exact hresourceBound) hframed
  rw [List.map_map] at hguardResults
  have hparsed : rParseRateResponseAlloc pdu io.allocResponse = .ok (responseAt pdu) := by
    rcases rParseRateResponseAlloc_exact pdu hguards hresources with ⟨-, hok⟩ | ⟨hill, -⟩
    · exact hok
    · exact absurd hgrammar hill
  have hallowed : rAllowedServerId req tenant.keyId = true := by
    rw [hserver]
    exact (launch.allowed_iff hsame _).mpr holdest.1
  obtain ⟨response, hresponse⟩ : ∃ response : RResponse, response =
      { serverId := tenant.keyId
        steeringByte := tenant.steeringFeedback
        success := (responseAt pdu).success
        guards := (responseAt pdu).guards
        resources := (responseAt pdu).resources } := ⟨_, rfl⟩
  have hgate : onDatagramGate gcm m.client outcome.output io = .ok (req, response) := by
    refine onDatagramGate_ok_iff.mpr ⟨tenant, R_TENANT_TLV_LEN, pdu, responseAt pdu,
      hopened.parsed, ?_, ?_, hallowed, hopened.extracted, hparsed, hresponse⟩
    · rw [hid, hrqId]
      exact hfind
    · rw [UInt64.le_iff_toNat_le, hsame.dedupDeadlineMs]
      exact Nat.le_of_lt (Nat.lt_of_lt_of_le hintime launch.first_le_dedup)
  have hdecisive : rIsOldestKnownServer req.allowedIds response.serverId = true := by
    rw [hresponse, launch.oldest_iff hsame hallowed, hserver, hsame.targets]
    exact holdest
  have hreply : rClientOnDatagram gcm m.client outcome.output sender io =
      .complete (m.client.putRequest (recordResponse req response sender io.allocSeen))
        (recordResponse req response sender io.allocSeen) .ok (some response.result) io.complete
        [.accepted req.handle response] := by
    unfold rClientOnDatagram
    rw [hgate]
    exact acceptResponse_oldest (run_undecided hcreate hrun hlive) hdecisive m.client sender io
  have hrecorded : (recordResponse req response sender io.allocSeen).handle = h :=
    (recordResponse_handle req response sender io.allocSeen).trans hhandle
  obtain ⟨hids, hpasses, hfails⟩ := answered_guards state.scenario rq.guards
  obtain ⟨hbuckets, hdenied, hgranted⟩ := answered_resources hall
  have hresult : response.result.guards = rq.guards.map (fun guard =>
      guardResultOf (guard, currentLatencyOf state.scenario guard)) ∧
      response.result.resources = answers.map resourceResultOf := by
    rw [hresponse]
    exact ⟨hguardResults, hresourceResults⟩
  rw [← hresult.1] at hids hpasses hfails
  rw [← hresult.2] at hbuckets hdenied hgranted
  refine ⟨outcome, response.result, hprocess, hrc, hsend, hlength, by rw [hreply]; rfl, ?_, ?_, ?_,
    ?_, ?_, ?_, ?_, hdenied, hfails, ?_⟩
  · rw [hreply]
    simp only [Reply.complete, rRequestComplete, hrecorded]
    exact List.mem_append_right _ (List.mem_append_right _ List.mem_cons_self)
  · rw [hreply]
    intro r hr
    rw [← hrecorded]
    exact complete_removes hwf.nodup.of_append_left _ .ok (some response.result) io.complete
      [.accepted req.handle response] r hr
  · rw [hresponse]
    exact hserver
  · rw [hresponse]
    show (tenant.steeringFeedback != 0) = state.steeringKeepPort
    rw [hflag]
    cases state.steeringKeepPort
    · rfl
    · rfl
  · exact hids.trans (by rw [hrqGuards])
  · exact hbuckets.trans (by rw [hrqResources])
  · intro hscenario
    refine ⟨hgranted (hscenario.imp_right .inl), hpasses ?_⟩
    rcases hscenario with hscenario | hscenario
    · rw [hscenario]
      decide
    · rw [hscenario]
      decide
  · rw [hresponse]
    show (responseAt pdu).success = true ↔ _
    simp [responseAt, RResponse.result]

/-! ### One exchange to evaluate -/

def sampleExchange : Call :=
  .submit
    { hasCb := true
      resources := .array [sampleResource]
      guards := .array [sampleGuard]
      metricsLabel := some [0x61, 0x70, 0x69, 0]
      metricsLabelLen := 0
      borrowed := false }
    { refresh := { nowMs := 100, jitterDraw := none, progress := .pending }
      forcedRefresh := { nowMs := 100, jitterDraw := none, progress := .pending }
      allocReq := true
      allocResources := true
      allocGuards := true
      allocLabel := true
      randRequestId := some (.replicate 16 1)
      startMs := 100
      stampMs := 100
      encrypt := sampleEncrypt
      allocSnapshot := { targets := true, allowedIds := true }
      roundMs := 100
      udpSend := fun _ => true }

def sampleResponder (aes : Bool) : RTestResponderState where
  scenario := .guardDeny
  authType := if aes then .aesGcm else .cookie
  tenantKeyId := 7
  secret := sampleKey
  serverId := 3
  steeringKeepPort := true
  allowCount := 1
  sequence := 0
  lastGuardLatencyTrackerId := .replicate 16 0
  hasLastGuardLatencyTrackerId := false
  quota := []

/-- The sample was sent to server 5 and server 3 and is in flight. -/
def sampleExchanged (s : Machine × List Effect) : Bool :=
  match s.1.client.inflight, s.2 with
  | [req], [.udpSend (some 0) _ _ _ _ _ _, .udpSend _ _ _ _ _ _ _, .submitted 0 started] =>
      decide (req.handle = 0) && decide (req.requestId = started.requestId)
        && decide (started.targets.map (·.serverId) = [5, 3])
        && decide (started.resources.length = 1)
        && decide (started.metricsLabel = some [0x61, 0x70, 0x69])
        && decide (started.startMs = 100)
  | _, _ => false

def sampleResponderIo : RTestResponderIo where
  decryptOk := true
  encrypt := sampleEncrypt

def sampleDatagramIo : DatagramIo where
  gateMs := 110
  evpOk := true
  allocResponse := { guards := true, resources := true }
  nowMs := 110
  allocSeen := { addrs := true, serverIds := true }
  complete := sampleComplete 110

/-- The sample goes around once, to a responder that fails its guard. -/
def SampleAgreed (aes : Bool) : Prop :=
  ∃ m trace packet outcome result,
    run (sampleGcm true) (sampleClientFor aes) [sampleExchange] = some (m, trace) ∧
    (∃ pass ms index addr ok, Effect.udpSend (some 0) pass ms index addr packet ok ∈ trace) ∧
    rTestResponderProcess (sampleGcm true) (sampleResponder aes) packet 1200 sampleResponderIo =
      .ok outcome ∧
    outcome.sendResponse = true ∧
    Effect.callback (some 0) .ok (some result) ∈
      (rClientOnDatagram (sampleGcm true) m.client outcome.output { sa := [], len := 0 }
        sampleDatagramIo).effects ∧
    result.serverId = 3 ∧ result.steeringFeedback = true ∧
    ∀ guard ∈ result.guards, guard.passed = false

/-- Under either kind of credential. -/
theorem client_responder_agree_sample : SampleAgreed false ∧ SampleAgreed true := by
  have hagreed : ∀ aes, SampleAgreed aes := by
    intro aes
    obtain ⟨⟨m, trace⟩, hrun, hcheck⟩ := Option.map_eq_some_iff.mp
      (show (run (sampleGcm true) (sampleClientFor aes) [sampleExchange]).map sampleExchanged =
        some true by cases aes <;> decide +kernel)
    unfold sampleExchanged at hcheck
    split at hcheck
    · rename_i req pass ms index addr packet ok _ _ _ _ _ _ _ started hinflight htrace
      simp only [Bool.and_eq_true, decide_eq_true_eq] at hcheck hinflight htrace
      obtain ⟨⟨⟨⟨⟨hhandle, hid⟩, htargets⟩, hcount⟩, hlabel⟩, hstart⟩ := hcheck
      have hsent : Effect.udpSend (some 0) pass ms index addr packet ok ∈ trace := by
        rw [htrace]
        exact List.mem_cons_self
      have hsubmitted : Effect.submitted 0 started ∈ trace := by
        rw [htrace]
        simp
      have hfind : m.client.inflight.find? (fun r => r.requestId == started.requestId) =
          some req := by
        rw [hinflight, ← hid]
        simp
      have hshort : ∀ label, started.metricsLabel = some label → label.length ≤ 256 := by
        intro label hsome
        rw [← Option.some.inj (hlabel.symm.trans hsome)]
        decide
      have hcredential :
          SharesCredential (sampleResponder aes) (sampleClientFor aes).credential := by
        cases aes
        · exact ⟨rfl, rfl, fun _ => rfl, fun haes => (by cases haes)⟩
        · exact ⟨rfl, rfl, fun hcookie => (by cases hcookie), fun _ => rfl⟩
      have holdest :
          OldestOf (started.targets.map (·.serverId)) (sampleResponder aes).serverId := by
        rw [htargets]
        simp [OldestOf, older_iff_lt, sampleResponder]
      have hready : CipherReady (sampleGcm true) (sampleResponder aes).credential
          sampleResponderIo.encrypt :=
        ⟨fun _ => sampleGcm_invertible, fun _ => by simp [sampleResponderIo, sampleEncrypt],
          fun _ => rfl⟩
      have hintime : sampleDatagramIo.gateMs.toNat <
          (sampleClientFor aes).policy.firstDeadline started.startMs := by
        rw [hstart]
        cases aes <;> decide +kernel
      obtain ⟨outcome, result, hprocess, -, hsend, -, -, hcallback, -, hserver, hsteering, -, -, -,
        -, hfails, -⟩ :=
        client_responder_agree (sampleClientFor_created aes) hrun hsubmitted hfind hhandle hshort
          hsent hcredential holdest (.inr (.inr (.inr (.inl rfl)))) hready (fun _ => rfl)
          (Nat.le_refl 1200) { sa := [], len := 0 } hintime (fun _ => rfl) rfl rfl
      exact ⟨m, trace, packet, outcome, result, hrun, ⟨_, _, _, _, _, hsent⟩, hprocess, hsend,
        hcallback, hserver, hsteering, hfails rfl⟩
    · cases hcheck
  exact ⟨hagreed false, hagreed true⟩

end RlClient
