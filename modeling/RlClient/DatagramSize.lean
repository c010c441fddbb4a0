import RlClient.Exchange
import RlClient.Recorded

/-!
# The size of a datagram

A request passes three buffers of `R_MAX_PACKET_SIZE` bytes: its body, its PDU and the
packet. Each builder has a limit of its own, and together they amount to one condition on
the length of the packet. The builders are run once more with a log of the sizes they
compute and of the bytes they write: no size leaves its word, no write leaves its buffer.
-/

namespace RlClient

variable {gcm : Gcm}

/-! ### Exact sizes -/

/-- The builder succeeds with exactly `size` bytes when they fit into a packet, and fails
    with a protocol error when they do not. -/
structure SizeExact (outcome : Except RClientError Bytes) (size : Nat) : Prop where
  fits : size ≤ R_MAX_PACKET_SIZE → ∃ bytes, outcome = .ok bytes ∧ bytes.length = size
  refused : R_MAX_PACKET_SIZE < size → outcome = .error .errProtocol

/-- The bytes that a label of `n` bytes adds: its TLV with the padding to a multiple of
    four; a label of no bytes adds none. -/
def labelSize (n : Nat) : Nat := if n = 0 then 0 else 4 + (2 + n + 3) / 4 * 4

/-- No label, or one whose first byte is not NUL. -/
def LabelGiven : Option Bytes → Prop
  | none => True
  | some label => label.getD 0 0 ≠ 0

theorem labelSize_eq {n : Nat} (hn : 0 < n) :
    labelSize n = 4 + (2 + n) + (4 - (2 + n) % 4) % 4 := by
  rw [labelSize, if_neg (by omega)]
  omega

theorem length_labelTlv {label : Option Bytes} (hgiven : LabelGiven label) :
    (labelTlv label).length = labelSize (labelBytes label).length := by
  cases label with
  | none => rfl
  | some label =>
    have hpos : 0 < label.length := by
      apply List.length_pos_iff.mpr
      rintro rfl
      exact hgiven rfl
    rw [labelTlv, if_neg hgiven, length_metricsLabelTlv]
    exact (labelSize_eq hpos).symm

/-- The label TLV has one condition: it fits behind what is already written. -/
theorem rAppendMetricsLabelTlv_isOk_iff {n : Nat} {label : Bytes} (hpos : 0 < label.length) :
    (∃ tlv, rAppendMetricsLabelTlv n R_MAX_PACKET_SIZE label = .ok tlv) ↔
      n + labelSize label.length ≤ R_MAX_PACKET_SIZE := by
  have hmax : R_MAX_PACKET_SIZE = 1200 := rfl
  rw [labelSize_eq hpos]
  unfold rAppendMetricsLabelTlv
  simp only
  split
  · simp only [reduceCtorEq, exists_false, false_iff]
    omega
  split
  · simp only [reduceCtorEq, exists_false, false_iff]
    omega
  split
  · simp only [reduceCtorEq, exists_false, false_iff]
    omega
  · simp only [Except.ok.injEq, exists_eq', true_iff]
    omega

theorem length_guardBlocks (guards : List RLatencyGuard) :
    (guards.flatMap guardBlock).length = 36 * guards.length :=
  guardCodec.length_encodeAll guards

theorem length_resourceBlocks (resources : List RResourceRequest) :
    (resources.flatMap resourceBlock).length = 28 * resources.length :=
  resourceCodec.length_encodeAll resources

/-- A builder whose only error is a protocol error is exact once its success is. -/
theorem SizeExact.intro {outcome : Except RClientError Bytes} {size : Nat}
    (herror : ∀ rc, outcome = .error rc → rc = .errProtocol)
    (hok : (∃ bytes, outcome = .ok bytes) ↔ size ≤ R_MAX_PACKET_SIZE)
    (hlength : ∀ bytes, outcome = .ok bytes → bytes.length = size) : SizeExact outcome size := by
  constructor
  · intro hfits
    obtain ⟨bytes, hbytes⟩ := hok.mpr hfits
    exact ⟨bytes, hbytes, hlength bytes hbytes⟩
  · intro hlarge
    cases houtcome : outcome with
    | error rc => rw [herror rc houtcome]
    | ok bytes => exact absurd (hok.mp ⟨bytes, houtcome⟩) (Nat.not_le.mpr hlarge)

theorem rBuildRateRequestBody_exact (resources : List RResourceRequest)
    (guards : List RLatencyGuard) {label : Option Bytes} (hgiven : LabelGiven label) :
    SizeExact (rBuildRateRequestBody resources guards label R_MAX_PACKET_SIZE)
      (4 + 36 * guards.length + 28 * resources.length + labelSize (labelBytes label).length) := by
  have hmax : R_MAX_PACKET_SIZE = 1200 := rfl
  apply SizeExact.intro
  · intro rc
    exact rBuildRateRequestBody_error
  · have hfixed : (rWriteLe16 (UInt16.ofNat guards.length) ++
        rWriteLe16 (UInt16.ofNat resources.length) ++ guards.flatMap guardBlock ++
        resources.flatMap resourceBlock).length =
      4 + 36 * guards.length + 28 * resources.length := by
      simp only [List.length_append, length_rWriteLe16, length_guardBlocks, length_resourceBlocks]
    unfold rBuildRateRequestBody
    split
    · rename_i hcounts
      rw [Bool.or_eq_true, decide_eq_true_eq, decide_eq_true_eq] at hcounts
      simp only [reduceCtorEq, exists_false, false_iff]
      omega
    split
    · rename_i hneeded
      simp only [R_GUARD_BLOCK_WIRE_LEN, R_RESOURCE_BLOCK_WIRE_LEN] at hneeded
      simp only [reduceCtorEq, exists_false, false_iff]
      omega
    rename_i hneeded
    simp only [R_GUARD_BLOCK_WIRE_LEN, R_RESOURCE_BLOCK_WIRE_LEN] at hneeded
    cases label with
    | none =>
      simp only [Except.ok.injEq, exists_eq', true_iff, labelBytes, Option.getD_none,
        List.length_nil, labelSize, if_true]
      omega
    | some label =>
      have hpos : 0 < label.length := by
        apply List.length_pos_iff.mpr
        rintro rfl
        exact hgiven rfl
      have htlv := rAppendMetricsLabelTlv_isOk_iff (n := 4 + 36 * guards.length +
        28 * resources.length) hpos
      rw [← hfixed] at htlv ⊢
      rw [show labelBytes (some label) = label from rfl, ← htlv]
      simp only
      rw [if_neg hgiven]
      cases rAppendMetricsLabelTlv _ R_MAX_PACKET_SIZE label with
      | error rc => simp
      | ok tlv => simp
  · intro body hbody
    obtain ⟨-, -, rfl⟩ := rBuildRateRequestBody_ok hbody
    simp only [List.length_append, length_rWriteLe16, BlockCodec.length_encodeAll,
      length_labelTlv hgiven]
    omega

/-- A builder on top of another that adds `extra` bytes to what the first one built. -/
theorem SizeExact.andThen {outcome outcome' : Except RClientError Bytes} {size extra : Nat}
    (h : SizeExact outcome size)
    (herror : outcome = .error .errProtocol → outcome' = .error .errProtocol)
    (hok : ∀ bytes, outcome = .ok bytes → bytes.length = size → SizeExact outcome' (extra + size)) :
    SizeExact outcome' (extra + size) := by
  rcases Nat.lt_or_ge R_MAX_PACKET_SIZE size with hlarge | hfits
  · exact ⟨fun hle => by omega, fun _ => herror (h.refused hlarge)⟩
  · obtain ⟨bytes, hbytes, hlength⟩ := h.fits hfits
    exact hok bytes hbytes hlength

theorem buildPdu_exact (pduType : UInt16) (word : UInt32) (body : Bytes) :
    SizeExact (buildPdu pduType word body R_MAX_PACKET_SIZE) (8 + body.length) := by
  have hmax : R_MAX_PACKET_SIZE = 1200 := rfl
  have hheader : R_PDU_HEADER_LEN = 8 := rfl
  apply SizeExact.intro
  · intro rc
    exact buildPdu_error
  · unfold buildPdu
    simp only
    split
    · rename_i hsize
      rw [Bool.or_eq_true, decide_eq_true_eq, decide_eq_true_eq] at hsize
      simp only [reduceCtorEq, exists_false, false_iff]
      omega
    · rename_i hsize
      rw [Bool.or_eq_true, decide_eq_true_eq, decide_eq_true_eq] at hsize
      simp only [Except.ok.injEq, exists_eq', true_iff]
      omega
  · intro pdu hpdu
    exact (buildPdu_framed hpdu).size

theorem rateRequestPdu_exact (rq : RateRequest) (hgiven : LabelGiven rq.metricsLabel) :
    SizeExact (rateRequestPdu rq) (8 + (4 + 36 * rq.guards.length + 28 * rq.resources.length +
      labelSize (labelBytes rq.metricsLabel).length)) := by
  apply (rBuildRateRequestBody_exact rq.resources rq.guards hgiven).andThen
  · intro herror
    rw [rateRequestPdu, herror]
  · intro body hbody hlength
    rw [rateRequestPdu, hbody, ← hlength]
    exact buildPdu_exact _ _ body

theorem rBuildLatencyReportBody_exact (reports : List RServiceLatencyReport) :
    SizeExact (rBuildLatencyReportBody reports R_MAX_PACKET_SIZE) (4 + 32 * reports.length) := by
  have hmax : R_MAX_PACKET_SIZE = 1200 := rfl
  have hblock : reports.length * R_SERVICE_LATENCY_BLOCK_WIRE_LEN = 32 * reports.length :=
    Nat.mul_comm _ _
  have herror : ∀ rc, rBuildLatencyReportBody reports R_MAX_PACKET_SIZE = .error rc →
      rc = .errProtocol := by
    intro rc h
    unfold rBuildLatencyReportBody at h
    split at h
    · exact (Except.error.inj h).symm
    split at h
    · exact (Except.error.inj h).symm
    · cases h
  apply SizeExact.intro herror
  · unfold rBuildLatencyReportBody
    split
    · simp only [reduceCtorEq, exists_false, false_iff]
      omega
    split
    · simp only [reduceCtorEq, exists_false, false_iff]
      omega
    · simp only [Except.ok.injEq, exists_eq', true_iff]
      omega
  · intro body hbody
    obtain ⟨-, rfl⟩ := rBuildLatencyReportBody_ok hbody
    simp only [List.length_append, length_rWriteLe16, BlockCodec.length_encodeAll]
    omega

theorem latencyReportPdu_exact (reports : List RServiceLatencyReport) :
    SizeExact (latencyReportPdu reports) (8 + (4 + 32 * reports.length)) := by
  apply (rBuildLatencyReportBody_exact reports).andThen
  · intro herror
    rw [latencyReportPdu, herror]
  · intro body hbody hlength
    rw [latencyReportPdu, hbody, ← hlength]
    exact buildPdu_exact _ _ body

/-! ### Framing -/

/-- AES-GCM is a stream cipher: the ciphertext is as long as the plaintext. -/
def KeepsLength (gcm : Gcm) (key : FixedBytes 32) : Prop :=
  ∀ nonce aad plain, (gcm.encrypt key nonce aad plain).1.length = plain.length

/-- The random generator and the cipher library do not fail where they are used. -/
structure CryptoSucceeds (cred : RCredential) (io : EncryptIo) : Prop where
  random : cred.authType = .aesGcm → io.randNonce ≠ none
  evp : cred.authType = .aesGcm → io.evpOk = true

/-- The credential has the secret of its type. -/
structure RCredential.Ready (cred : RCredential) : Prop where
  typed : cred.authType ≠ .derive
  cookie : cred.authType = .cookie → cred.hasCookie = true
  aes : cred.authType = .aesGcm → cred.hasAesKey = true

theorem Configured.ready {key : DecodedKey} {c : RClient} (h : Configured key c) :
    c.credential.Ready where
  typed := by rw [h.authType]; exact h.usable
  cookie hauth := (h.cookie (h.authType.symm.trans hauth)).1
  aes hauth := (h.aes (h.authType.symm.trans hauth)).1

theorem rEncryptPduAesGcm_of_ready {key : FixedBytes 32} (hlength : KeepsLength gcm key)
    {io : EncryptIo} (hrandom : io.randNonce ≠ none) (hevp : io.evpOk = true) (aadPrefix : Bytes)
    {pdu : Bytes} {cipherCap : Nat} (hcap : pdu.length ≤ cipherCap) :
    ∃ cipher nonce tag, rEncryptPduAesGcm gcm pdu key aadPrefix cipherCap io =
      some (cipher, nonce, tag) ∧ cipher.length = pdu.length := by
  obtain ⟨nonce, hnonce⟩ := Option.ne_none_iff_exists'.mp hrandom
  rw [rEncryptPduAesGcm, if_neg (Nat.not_lt.mpr hcap), hnonce]
  simp only [hevp, if_true]
  exact ⟨_, nonce, _, rfl, hlength nonce (aadPrefix ++ nonce.val) pdu⟩

theorem framePdu_exact {cred : RCredential} (hready : cred.Ready)
    (hlength : cred.authType = .aesGcm → KeepsLength gcm cred.aesKey) {io : EncryptIo}
    (hcrypto : CryptoSucceeds cred io) (tenant : RTenantHeader) (pdu : Bytes) :
    SizeExact (framePdu gcm cred tenant pdu R_MAX_PACKET_SIZE io)
      (frameLen cred.authType + pdu.length) := by
  have hmax : R_MAX_PACKET_SIZE = 1200 := rfl
  have htenant : R_TENANT_TLV_LEN = 40 := rfl
  unfold framePdu
  rw [if_neg (by decide)]
  cases hauth : cred.authType with
  | derive => exact absurd hauth hready.typed
  | cookie =>
    simp only [hready.cookie hauth, Bool.not_true, Bool.false_eq_true, if_false, frameLen]
    have hpacket : ∀ tail : Bytes, (rTenantHeaderWrite tenant ++ (rWriteLe16 R_TLV_AUTH_COOKIE ++
        rWriteLe16 36 ++ (cred.cookie.val ++ tail))).length = 76 + tail.length := by
      intro tail
      simp only [List.length_append, length_rTenantHeaderWrite, length_rWriteLe16,
        FixedBytes.length_val]
      omega
    constructor
    · intro hfits
      rw [if_neg (by omega), if_neg (by rw [hpacket]; omega)]
      exact ⟨_, rfl, hpacket pdu⟩
    · intro hlarge
      rw [if_pos (by omega)]
  | aesGcm =>
    simp only [hready.aes hauth, Bool.not_true, Bool.false_eq_true, if_false, frameLen]
    constructor
    · intro hfits
      obtain ⟨cipher, nonce, tag, hsealed, hcipher⟩ := rEncryptPduAesGcm_of_ready (hlength hauth)
        (hcrypto.random hauth) (hcrypto.evp hauth)
        (rTenantHeaderWrite tenant ++ (rWriteLe16 R_TLV_AUTH_AES ++ rWriteLe16 32))
        (show pdu.length ≤ R_MAX_PACKET_SIZE by omega)
      have hpacket : (rTenantHeaderWrite tenant ++ (rWriteLe16 R_TLV_AUTH_AES ++ rWriteLe16 32) ++
          (nonce.val ++ (tag.val ++ cipher))).length = 72 + pdu.length := by
        simp only [List.length_append, length_rTenantHeaderWrite, length_rWriteLe16,
          FixedBytes.length_val]
        omega
      rw [if_neg (by omega), hsealed]
      simp only
      rw [if_neg (by omega), if_neg (by rw [hpacket]; omega)]
      exact ⟨_, rfl, hpacket⟩
    · intro hlarge
      rw [if_pos (by omega)]

/-- A request packet, with one condition on its size. -/
theorem rBuildRateRequestPacket_exact {cred : RCredential} (hready : cred.Ready)
    (hlength : cred.authType = .aesGcm → KeepsLength gcm cred.aesKey) {io : EncryptIo}
    (hcrypto : CryptoSucceeds cred io) (rq : RateRequest) (hgiven : LabelGiven rq.metricsLabel)
    (stampMs : UInt64) :
    SizeExact (rBuildRateRequestPacket gcm cred rq stampMs io) (frameLen cred.authType +
      (8 + (4 + 36 * rq.guards.length + 28 * rq.resources.length +
        labelSize (labelBytes rq.metricsLabel).length))) := by
  apply (rateRequestPdu_exact rq hgiven).andThen
  · intro herror
    rw [rBuildRateRequestPacket, herror]
  · intro pdu hpdu hsize
    rw [rBuildRateRequestPacket, hpdu, ← hsize]
    exact framePdu_exact hready hlength hcrypto _ pdu

/-- A report packet; its request id is drawn between the PDU and the frame. -/
theorem reportPacket_exact {c : RClient} (hready : c.credential.Ready)
    (hlength : c.credential.authType = .aesGcm → KeepsLength gcm c.credential.aesKey)
    {io : ReportIo} (hrandom : io.randRequestId ≠ none)
    (hcrypto : CryptoSucceeds c.credential io.encrypt) (reports : List RServiceLatencyReport) :
    SizeExact (reportPacket gcm c reports io)
      (frameLen c.credential.authType + (8 + (4 + 32 * reports.length))) := by
  obtain ⟨requestId, hid⟩ : ∃ requestId, rGenerateRequestId io.randRequestId = .ok requestId := by
    obtain ⟨random, hsome⟩ := Option.ne_none_iff_exists'.mp hrandom
    rw [hsome]
    exact ⟨_, rfl⟩
  apply (latencyReportPdu_exact reports).andThen
  · intro herror
    rw [reportPacket, herror]
  · intro pdu hpdu hsize
    simp only [reportPacket, hpdu, hid, ← hsize]
    exact framePdu_exact hready hlength hcrypto _ pdu

/-! ### The builders with a log -/

/-- What a builder does: it computes a `size_t`, or it writes `len` bytes at `offset` of
    one of the four buffers of `R_MAX_PACKET_SIZE` bytes (body, PDU, ciphertext, packet). -/
inductive BufferEvent where
  | size (n : Nat)
  | write (offset len : Nat)

/-- No size leaves even a word of 32 bits, and no write its buffer. -/
def BufferEvent.Safe : BufferEvent → Prop
  | .size n => n < 2 ^ 32
  | .write offset len => offset + len ≤ R_MAX_PACKET_SIZE

abbrev Filling := Logged BufferEvent RClientError

def sized (n : Nat) : Filling Nat := do
  Logged.note (.size n)
  pure n

/-- Writes the fields one behind the other from `pos` on; the new position. -/
def put (pos : Nat) : List Bytes → Filling Nat
  | [] => pure pos
  | field :: rest => do
      Logged.note (.write pos field.length)
      let next ← sized (pos + field.length)
      put next rest

def guardFields (guard : RLatencyGuard) : List Bytes :=
  [guard.latencyTrackerId.val, rWriteLe32 guard.ttlMs, rWriteLe32 guard.maxSamples,
    rWriteLe32 guard.minSampleThreshold, rWriteLe32 guard.thresholdMs, rWriteLe32 0]

def resourceFields (resource : RResourceRequest) : List Bytes :=
  [resource.bucketId.val, rWriteLe32 resource.windowSizeMs, rWriteLe32 resource.rateLimit,
    rWriteLe16 resource.tokensRequested, rWriteLe16 0]

def reportFields (report : RServiceLatencyReport) : List Bytes :=
  [report.latencyTrackerId.val, rWriteLe32 report.ttlMs, rWriteLe32 report.maxSamples,
    rWriteLe32 report.minSampleThreshold, rWriteLe32 report.observedLatency]

/-- `r_append_metrics_label_tlv` with its log. -/
def appendLabelFilling (len outCap : Nat) (label : Bytes) : Filling Bytes :=
  if label.length > 0xffff then Logged.fail .errProtocol
  else do
    let bodyLen ← sized (2 + label.length)
    let padding := (4 - bodyLen % 4) % 4
    let tlvSize ← sized (4 + bodyLen + padding)
    if tlvSize > 0xffff then Logged.fail .errProtocol
    else do
      let stop ← sized (len + tlvSize)
      if stop > outCap then Logged.fail .errProtocol
      else do
        let _ ← put len [rWriteLe16 R_TLV_METRICS_LABEL, rWriteLe16 (UInt16.ofNat tlvSize),
          rWriteLe16 (UInt16.ofNat label.length), label, List.replicate padding 0]
        pure (rWriteLe16 R_TLV_METRICS_LABEL ++ rWriteLe16 (UInt16.ofNat tlvSize)
          ++ rWriteLe16 (UInt16.ofNat label.length) ++ label ++ List.replicate padding 0)

/-- `r_build_rate_request_body` with its log. -/
def rateRequestBodyFilling (resources : List RResourceRequest) (guards : List RLatencyGuard)
    (metricsLabel : Option Bytes) (outCap : Nat) : Filling Bytes :=
  if resources.length > 0xffff || guards.length > 0xffff then Logged.fail .errProtocol
  else do
    let needed ← sized (4 + guards.length * R_GUARD_BLOCK_WIRE_LEN
      + resources.length * R_RESOURCE_BLOCK_WIRE_LEN)
    if needed > outCap then Logged.fail .errProtocol
    else do
      let pos ← put 0 [rWriteLe16 (UInt16.ofNat guards.length),
        rWriteLe16 (UInt16.ofNat resources.length)]
      let pos ← put pos (guards.flatMap guardFields)
      let pos ← put pos (resources.flatMap resourceFields)
      let fixed := rWriteLe16 (UInt16.ofNat guards.length)
        ++ rWriteLe16 (UInt16.ofNat resources.length)
        ++ guards.flatMap guardBlock ++ resources.flatMap resourceBlock
      match metricsLabel with
      | none => pure fixed
      | some label =>
          if label.getD 0 0 = 0 then pure fixed
          else do
            let tlv ← appendLabelFilling pos outCap label
            pure (fixed ++ tlv)

/-- `r_build_latency_report_body` with its log. -/
def latencyReportBodyFilling (reports : List RServiceLatencyReport) (outCap : Nat) :
    Filling Bytes :=
  if reports.length > 0xffff then Logged.fail .errProtocol
  else do
    let needed ← sized (4 + reports.length * R_SERVICE_LATENCY_BLOCK_WIRE_LEN)
    if needed > outCap then Logged.fail .errProtocol
    else do
      let pos ← put 0 [rWriteLe16 (UInt16.ofNat reports.length), rWriteLe16 0]
      let _ ← put pos (reports.flatMap reportFields)
      pure (rWriteLe16 (UInt16.ofNat reports.length) ++ rWriteLe16 0
        ++ reports.flatMap serviceLatencyBlock)

/-- `r_build_pdu` and `r_build_rate_request_pdu` with their log. -/
def pduFilling (pduType : UInt16) (word : UInt32) (body : Bytes) (outCap : Nat) :
    Filling Bytes := do
  let pduSize ← sized (R_PDU_HEADER_LEN + body.length)
  if pduSize > 0xffff || pduSize > outCap then Logged.fail .errProtocol
  else do
    let _ ← put 0 [rWriteLe16 pduType, rWriteLe16 (UInt16.ofNat pduSize), rWriteLe32 word, body]
    pure (rWriteLe16 pduType ++ rWriteLe16 (UInt16.ofNat pduSize) ++ rWriteLe32 word ++ body)

/-- `r_encrypt_pdu_aes_gcm` with its log: the cipher writes as much as it is given. -/
def encryptFilling (gcm : Gcm) (pdu : Bytes) (key : FixedBytes 32) (aadPrefix : Bytes)
    (cipherCap : Nat) (io : EncryptIo) : Filling (Bytes × FixedBytes 12 × FixedBytes 16) :=
  if cipherCap < pdu.length then Logged.fail .errAuth
  else
    match io.randNonce with
    | none => Logged.fail .errAuth
    | some nonce =>
        if io.evpOk then do
          let (cipher, tag) := gcm.encrypt key nonce (aadPrefix ++ nonce.val) pdu
          Logged.note (.write 0 cipher.length)
          pure (cipher, nonce, tag)
        else do
          Logged.note (.write 0 pdu.length)
          Logged.fail .errAuth

def frameFilling (gcm : Gcm) (cred : RCredential) (tenant : RTenantHeader) (pdu : Bytes)
    (outCap : Nat) (io : EncryptIo) : Filling Bytes :=
  if outCap < R_TENANT_TLV_LEN then Logged.fail .errProtocol
  else do
    let header := rTenantHeaderWrite tenant
    let pos ← put 0 [header]
    match cred.authType with
    | .cookie =>
        if !cred.hasCookie then Logged.fail .errAuth
        else do
          let needed ← sized (pos + 4 + 32 + pdu.length)
          if needed > outCap then Logged.fail .errProtocol
          else do
            let pos ← put pos [rWriteLe16 R_TLV_AUTH_COOKIE, rWriteLe16 36, cred.cookie.val, pdu]
            if pos > R_MAX_PACKET_SIZE then Logged.fail .errProtocol
            else pure (header ++ (rWriteLe16 R_TLV_AUTH_COOKIE ++ rWriteLe16 36
              ++ (cred.cookie.val ++ pdu)))
    | .aesGcm =>
        if !cred.hasAesKey then Logged.fail .errAuth
        else do
          let needed ← sized (pos + 4 + 12 + 16 + pdu.length)
          if needed > outCap then Logged.fail .errProtocol
          else do
            let pos ← put pos [rWriteLe16 R_TLV_AUTH_AES, rWriteLe16 32]
            let aadPrefix := header ++ (rWriteLe16 R_TLV_AUTH_AES ++ rWriteLe16 32)
            let (cipher, nonce, tag) ←
              encryptFilling gcm pdu cred.aesKey aadPrefix R_MAX_PACKET_SIZE io
            let needed ← sized (pos + 12 + 16 + cipher.length)
            if needed > outCap then Logged.fail .errProtocol
            else do
              let pos ← put pos [nonce.val, tag.val, cipher]
              if pos > R_MAX_PACKET_SIZE then Logged.fail .errProtocol
              else pure (aadPrefix ++ (nonce.val ++ (tag.val ++ cipher)))
    | .derive => Logged.fail .errConfig

/-- `r_build_rate_request_packet` with its log. -/
def rateRequestPacketFilling (gcm : Gcm) (cred : RCredential) (rq : RateRequest)
    (stampMs : UInt64) (io : EncryptIo) : Filling Bytes := do
  let body ← rateRequestBodyFilling rq.resources rq.guards rq.metricsLabel R_MAX_PACKET_SIZE
  let pdu ← pduFilling R_PDU_RATE_REQUEST rq.dedupTtlMs body R_MAX_PACKET_SIZE
  let timeStamp := if rq.startMs ≠ 0 then rq.startMs else stampMs
  frameFilling gcm cred (requestHeader cred.keyId rq.requestId timeStamp) pdu R_MAX_PACKET_SIZE io

/-- The packet of `r_client_report_latency` with its log. -/
def reportPacketFilling (gcm : Gcm) (c : RClient) (reports : List RServiceLatencyReport)
    (io : ReportIo) : Filling Bytes := do
  let body ← latencyReportBodyFilling reports R_MAX_PACKET_SIZE
  let pdu ← pduFilling R_PDU_LATENCY_REPORT 0 body R_MAX_PACKET_SIZE
  match rGenerateRequestId io.randRequestId with
  | .error rc => Logged.fail rc
  | .ok requestId =>
      frameFilling gcm c.credential (requestHeader c.credential.keyId requestId io.stampMs) pdu
        R_MAX_PACKET_SIZE io.encrypt

/-! ### The log leaves the results as they are -/

theorem result_sized (n : Nat) : (sized n).result = .ok n := rfl

theorem result_put (pos : Nat) (fields : List Bytes) :
    (put pos fields).result = .ok (pos + fields.flatten.length) := by
  induction fields generalizing pos with
  | nil => rfl
  | cons field rest ih =>
    rw [put, Logged.result_bind_ok (Logged.result_note _), Logged.result_bind_ok (result_sized _),
      ih, List.flatten_cons, List.length_append, Nat.add_assoc]

theorem result_appendLabelFilling (len outCap : Nat) (label : Bytes) :
    (appendLabelFilling len outCap label).result = rAppendMetricsLabelTlv len outCap label := by
  unfold appendLabelFilling rAppendMetricsLabelTlv
  simp only
  split
  · rfl
  rw [Logged.result_bind_ok (result_sized _), Logged.result_bind_ok (result_sized _)]
  split
  · rfl
  rw [Logged.result_bind_ok (result_sized _)]
  split
  · rfl
  rw [Logged.result_bind_ok (result_put _ _)]
  rfl

theorem flatten_guardFields (guards : List RLatencyGuard) :
    (guards.flatMap guardFields).flatten = guards.flatMap guardBlock := by
  induction guards with
  | nil => rfl
  | cons guard rest ih =>
    rw [List.flatMap_cons, List.flatten_append, ih, List.flatMap_cons]
    simp [guardFields, guardBlock]

theorem flatten_resourceFields (resources : List RResourceRequest) :
    (resources.flatMap resourceFields).flatten = resources.flatMap resourceBlock := by
  induction resources with
  | nil => rfl
  | cons resource rest ih =>
    rw [List.flatMap_cons, List.flatten_append, ih, List.flatMap_cons]
    simp [resourceFields, resourceBlock]

theorem flatten_reportFields (reports : List RServiceLatencyReport) :
    (reports.flatMap reportFields).flatten = reports.flatMap serviceLatencyBlock := by
  induction reports with
  | nil => rfl
  | cons report rest ih =>
    rw [List.flatMap_cons, List.flatten_append, ih, List.flatMap_cons]
    simp [reportFields, serviceLatencyBlock]

theorem result_rateRequestBodyFilling (resources : List RResourceRequest)
    (guards : List RLatencyGuard) (label : Option Bytes) (outCap : Nat) :
    (rateRequestBodyFilling resources guards label outCap).result =
      rBuildRateRequestBody resources guards label outCap := by
  unfold rateRequestBodyFilling rBuildRateRequestBody
  split
  · rfl
  rw [Logged.result_bind_ok (result_sized _)]
  split
  · rfl
  rw [Logged.result_bind_ok (result_put _ _), Logged.result_bind_ok (result_put _ _),
    Logged.result_bind_ok (result_put _ _), flatten_guardFields, flatten_resourceFields]
  cases label with
  | none => rfl
  | some label =>
    have hpos : 0 + [rWriteLe16 (UInt16.ofNat guards.length),
        rWriteLe16 (UInt16.ofNat resources.length)].flatten.length +
        (guards.flatMap guardBlock).length + (resources.flatMap resourceBlock).length =
        (rWriteLe16 (UInt16.ofNat guards.length) ++ rWriteLe16 (UInt16.ofNat resources.length) ++
          guards.flatMap guardBlock ++ resources.flatMap resourceBlock).length := by
      simp only [List.flatten_cons, List.flatten_nil, List.length_append, List.length_nil]
      omega
    rw [hpos]
    simp only
    split
    · rfl
    · cases htlv : rAppendMetricsLabelTlv _ outCap label with
      | error rc => rw [Logged.result_bind_error ((result_appendLabelFilling ..).trans htlv)]
      | ok tlv =>
        rw [Logged.result_bind_ok ((result_appendLabelFilling ..).trans htlv)]
        rfl

theorem result_latencyReportBodyFilling (reports : List RServiceLatencyReport) (outCap : Nat) :
    (latencyReportBodyFilling reports outCap).result = rBuildLatencyReportBody reports outCap := by
  unfold latencyReportBodyFilling rBuildLatencyReportBody
  split
  · rfl
  rw [Logged.result_bind_ok (result_sized _)]
  split
  · rfl
  rw [Logged.result_bind_ok (result_put _ _), Logged.result_bind_ok (result_put _ _)]
  rfl

theorem result_pduFilling (pduType : UInt16) (word : UInt32) (body : Bytes) (outCap : Nat) :
    (pduFilling pduType word body outCap).result = buildPdu pduType word body outCap := by
  unfold pduFilling buildPdu
  rw [Logged.result_bind_ok (result_sized _)]
  simp only
  split
  · rfl
  rw [Logged.result_bind_ok (result_put _ _)]
  rfl

/-- The cipher gives what it gave, or the error that its caller reports. -/
theorem result_encryptFilling (gcm : Gcm) (pdu : Bytes) (key : FixedBytes 32) (aadPrefix : Bytes)
    (cipherCap : Nat) (io : EncryptIo) :
    (encryptFilling gcm pdu key aadPrefix cipherCap io).result =
      match rEncryptPduAesGcm gcm pdu key aadPrefix cipherCap io with
      | none => .error .errAuth
      | some sealed => .ok sealed := by
  unfold encryptFilling rEncryptPduAesGcm
  split
  · rfl
  cases io.randNonce with
  | none => rfl
  | some nonce =>
    simp only
    split
    · rfl
    · rfl

theorem result_frameFilling (gcm : Gcm) (cred : RCredential) (tenant : RTenantHeader)
    (pdu : Bytes) (outCap : Nat) (io : EncryptIo) :
    (frameFilling gcm cred tenant pdu outCap io).result =
      framePdu gcm cred tenant pdu outCap io := by
  have hheader : 0 + [rTenantHeaderWrite tenant].flatten.length = R_TENANT_TLV_LEN := by simp
  unfold frameFilling framePdu
  split
  · rfl
  simp only
  rw [Logged.result_bind_ok (result_put _ _), hheader]
  cases cred.authType with
  | derive => rfl
  | cookie =>
    simp only
    split
    · rfl
    rw [Logged.result_bind_ok (result_sized _)]
    split
    · rfl
    rw [Logged.result_bind_ok (result_put _ _)]
    have hlength : R_TENANT_TLV_LEN + [rWriteLe16 R_TLV_AUTH_COOKIE, rWriteLe16 36,
        cred.cookie.val, pdu].flatten.length = (rTenantHeaderWrite tenant ++
          (rWriteLe16 R_TLV_AUTH_COOKIE ++ rWriteLe16 36 ++ (cred.cookie.val ++ pdu))).length := by
      simp
    rw [hlength]
    split
    · rfl
    · rfl
  | aesGcm =>
    simp only
    split
    · rfl
    rw [Logged.result_bind_ok (result_sized _)]
    split
    · rfl
    rw [Logged.result_bind_ok (result_put _ _)]
    cases hsealed : rEncryptPduAesGcm gcm pdu cred.aesKey
      (rTenantHeaderWrite tenant ++ (rWriteLe16 R_TLV_AUTH_AES ++ rWriteLe16 32))
      R_MAX_PACKET_SIZE io with
    | none =>
      rw [Logged.result_bind_error (by rw [result_encryptFilling, hsealed])]
    | some sealed =>
      obtain ⟨cipher, nonce, tag⟩ := sealed
      rw [Logged.result_bind_ok (a := (cipher, nonce, tag))
        (by rw [result_encryptFilling, hsealed])]
      have hpos : R_TENANT_TLV_LEN + [rWriteLe16 R_TLV_AUTH_AES, rWriteLe16 32].flatten.length =
          R_TENANT_TLV_LEN + 4 := by
        simp
      simp only [hpos]
      rw [Logged.result_bind_ok (result_sized _)]
      split
      · rfl
      rw [Logged.result_bind_ok (result_put _ _)]
      have hlength : R_TENANT_TLV_LEN + 4 + [nonce.val, tag.val, cipher].flatten.length =
          (rTenantHeaderWrite tenant ++ (rWriteLe16 R_TLV_AUTH_AES ++ rWriteLe16 32) ++
            (nonce.val ++ (tag.val ++ cipher))).length := by
        simp only [List.flatten_cons, List.flatten_nil, List.length_append, List.length_nil,
          length_rTenantHeaderWrite, length_rWriteLe16]
        omega
      rw [hlength]
      split
      · rfl
      · rfl

theorem result_rateRequestPacketFilling (gcm : Gcm) (cred : RCredential) (rq : RateRequest)
    (stampMs : UInt64) (io : EncryptIo) :
    (rateRequestPacketFilling gcm cred rq stampMs io).result =
      rBuildRateRequestPacket gcm cred rq stampMs io := by
  unfold rateRequestPacketFilling rBuildRateRequestPacket rateRequestPdu rBuildRateRequestPdu
  cases hbody : rBuildRateRequestBody rq.resources rq.guards rq.metricsLabel R_MAX_PACKET_SIZE with
  | error rc => rw [Logged.result_bind_error ((result_rateRequestBodyFilling ..).trans hbody)]
  | ok body =>
    rw [Logged.result_bind_ok ((result_rateRequestBodyFilling ..).trans hbody)]
    simp only
    cases hpdu : buildPdu R_PDU_RATE_REQUEST rq.dedupTtlMs body R_MAX_PACKET_SIZE with
    | error rc => rw [Logged.result_bind_error ((result_pduFilling ..).trans hpdu)]
    | ok pdu =>
      rw [Logged.result_bind_ok ((result_pduFilling ..).trans hpdu)]
      exact result_frameFilling ..

theorem result_reportPacketFilling (gcm : Gcm) (c : RClient) (reports : List RServiceLatencyReport)
    (io : ReportIo) :
    (reportPacketFilling gcm c reports io).result = reportPacket gcm c reports io := by
  unfold reportPacketFilling reportPacket latencyReportPdu rBuildPdu
  cases hbody : rBuildLatencyReportBody reports R_MAX_PACKET_SIZE with
  | error rc => rw [Logged.result_bind_error ((result_latencyReportBodyFilling ..).trans hbody)]
  | ok body =>
    rw [Logged.result_bind_ok ((result_latencyReportBodyFilling ..).trans hbody)]
    simp only
    cases hpdu : buildPdu R_PDU_LATENCY_REPORT 0 body R_MAX_PACKET_SIZE with
    | error rc => rw [Logged.result_bind_error ((result_pduFilling ..).trans hpdu)]
    | ok pdu =>
      rw [Logged.result_bind_ok ((result_pduFilling ..).trans hpdu)]
      simp only
      cases rGenerateRequestId io.randRequestId with
      | error rc => rfl
      | ok requestId => exact result_frameFilling ..

/-! ### The log is safe -/

theorem within_sized {n : Nat} (h : n < 2 ^ 32) : Logged.Within BufferEvent.Safe (sized n) :=
  (Logged.within_note (e := BufferEvent.size n) h).bind fun _ _ => Logged.within_pure n

theorem within_put {pos : Nat} {fields : List Bytes}
    (h : pos + fields.flatten.length ≤ R_MAX_PACKET_SIZE) :
    Logged.Within BufferEvent.Safe (put pos fields) := by
  have hmax : R_MAX_PACKET_SIZE = 1200 := rfl
  induction fields generalizing pos with
  | nil => exact Logged.within_pure pos
  | cons field rest ih =>
    rw [List.flatten_cons, List.length_append] at h
    have hsafe : (BufferEvent.write pos field.length).Safe := by
      simp only [BufferEvent.Safe]
      omega
    refine (Logged.within_note hsafe).bind fun _ _ => ?_
    refine (within_sized (by omega)).bind ?_
    intro next hnext
    rw [result_sized] at hnext
    obtain rfl := Except.ok.inj hnext
    exact ih (by omega)

theorem within_sized_bind {n : Nat} {next : Nat → Filling α} (h : n < 2 ^ 32)
    (hnext : Logged.Within BufferEvent.Safe (next n)) :
    Logged.Within BufferEvent.Safe (sized n >>= next) := by
  refine (within_sized h).bind fun m hm => ?_
  rw [result_sized] at hm
  rwa [← Except.ok.inj hm]

theorem within_put_bind {pos : Nat} {fields : List Bytes} {next : Nat → Filling α}
    (h : pos + fields.flatten.length ≤ R_MAX_PACKET_SIZE)
    (hnext : Logged.Within BufferEvent.Safe (next (pos + fields.flatten.length))) :
    Logged.Within BufferEvent.Safe (put pos fields >>= next) := by
  refine (within_put h).bind fun m hm => ?_
  rw [result_put] at hm
  rwa [← Except.ok.inj hm]

theorem within_appendLabelFilling {len : Nat} (hlen : len ≤ R_MAX_PACKET_SIZE) (label : Bytes) :
    Logged.Within BufferEvent.Safe (appendLabelFilling len R_MAX_PACKET_SIZE label) := by
  have hmax : R_MAX_PACKET_SIZE = 1200 := rfl
  unfold appendLabelFilling
  split
  · exact Logged.within_fail _
  apply within_sized_bind (by omega)
  apply within_sized_bind (by omega)
  split
  · exact Logged.within_fail _
  apply within_sized_bind (by omega)
  split
  · exact Logged.within_fail _
  refine within_put_bind ?_ (Logged.within_pure _)
  simp only [List.flatten_cons, List.flatten_nil, List.length_append, List.length_nil,
    length_rWriteLe16, List.length_replicate]
  omega

theorem within_rateRequestBodyFilling (resources : List RResourceRequest)
    (guards : List RLatencyGuard) (label : Option Bytes) :
    Logged.Within BufferEvent.Safe
      (rateRequestBodyFilling resources guards label R_MAX_PACKET_SIZE) := by
  have hmax : R_MAX_PACKET_SIZE = 1200 := rfl
  have hguard : R_GUARD_BLOCK_WIRE_LEN = 36 := rfl
  have hresource : R_RESOURCE_BLOCK_WIRE_LEN = 28 := rfl
  unfold rateRequestBodyFilling
  split
  · exact Logged.within_fail _
  rename_i hcounts
  rw [Bool.or_eq_true, decide_eq_true_eq, decide_eq_true_eq] at hcounts
  apply within_sized_bind (by rw [hguard, hresource]; omega)
  split
  · exact Logged.within_fail _
  rename_i hneeded
  rw [hguard, hresource] at hneeded
  have hcount : [rWriteLe16 (UInt16.ofNat guards.length),
      rWriteLe16 (UInt16.ofNat resources.length)].flatten.length = 4 := by simp
  apply within_put_bind (by omega)
  apply within_put_bind (by rw [flatten_guardFields, length_guardBlocks]; omega)
  rw [hcount, flatten_guardFields, length_guardBlocks]
  apply within_put_bind (by rw [flatten_resourceFields, length_resourceBlocks]; omega)
  rw [flatten_resourceFields, length_resourceBlocks]
  cases label with
  | none => exact Logged.within_pure _
  | some label =>
    simp only
    split
    · exact Logged.within_pure _
    · exact (within_appendLabelFilling (by omega) label).bind fun _ _ => Logged.within_pure _

theorem within_latencyReportBodyFilling (reports : List RServiceLatencyReport) :
    Logged.Within BufferEvent.Safe (latencyReportBodyFilling reports R_MAX_PACKET_SIZE) := by
  have hmax : R_MAX_PACKET_SIZE = 1200 := rfl
  have hblock : R_SERVICE_LATENCY_BLOCK_WIRE_LEN = 32 := rfl
  have hblocks : (reports.flatMap serviceLatencyBlock).length = 32 * reports.length :=
    reportCodec.length_encodeAll reports
  unfold latencyReportBodyFilling
  split
  · exact Logged.within_fail _
  apply within_sized_bind (by rw [hblock]; omega)
  split
  · exact Logged.within_fail _
  rename_i hneeded
  rw [hblock] at hneeded
  have hcount : [rWriteLe16 (UInt16.ofNat reports.length), rWriteLe16 0].flatten.length = 4 := by
    simp
  apply within_put_bind (by omega)
  refine within_put_bind ?_ (Logged.within_pure _)
  rw [hcount, flatten_reportFields, hblocks]
  omega

theorem within_pduFilling (pduType : UInt16) (word : UInt32) {body : Bytes}
    (hbody : body.length ≤ R_MAX_PACKET_SIZE) :
    Logged.Within BufferEvent.Safe (pduFilling pduType word body R_MAX_PACKET_SIZE) := by
  have hmax : R_MAX_PACKET_SIZE = 1200 := rfl
  have hheader : R_PDU_HEADER_LEN = 8 := rfl
  unfold pduFilling
  apply within_sized_bind (by omega)
  split
  · exact Logged.within_fail _
  rename_i hsize
  rw [Bool.or_eq_true, decide_eq_true_eq, decide_eq_true_eq] at hsize
  refine within_put_bind ?_ (Logged.within_pure _)
  simp only [List.flatten_cons, List.flatten_nil, List.length_append, List.length_nil,
    length_rWriteLe16, length_rWriteLe32]
  omega

theorem within_encryptFilling {key : FixedBytes 32} (hlength : KeepsLength gcm key) (pdu : Bytes)
    (aadPrefix : Bytes) (io : EncryptIo) :
    Logged.Within BufferEvent.Safe (encryptFilling gcm pdu key aadPrefix R_MAX_PACKET_SIZE io) := by
  unfold encryptFilling
  split
  · exact Logged.within_fail _
  rename_i hcap
  cases io.randNonce with
  | none => exact Logged.within_fail _
  | some nonce =>
    simp only
    split
    · have hsafe : (BufferEvent.write 0
          (gcm.encrypt key nonce (aadPrefix ++ nonce.val) pdu).1.length).Safe := by
        rw [hlength, BufferEvent.Safe]
        omega
      exact (Logged.within_note hsafe).bind fun _ _ => Logged.within_pure _
    · have hsafe : (BufferEvent.write 0 pdu.length).Safe := by
        rw [BufferEvent.Safe]
        omega
      exact (Logged.within_note hsafe).bind fun _ _ => Logged.within_fail _

theorem length_encryptFilling {key : FixedBytes 32} (hlength : KeepsLength gcm key)
    {pdu aadPrefix : Bytes} {cipherCap : Nat} {io : EncryptIo} {cipher : Bytes}
    {nonce : FixedBytes 12} {tag : FixedBytes 16}
    (h : (encryptFilling gcm pdu key aadPrefix cipherCap io).result = .ok (cipher, nonce, tag)) :
    cipher.length = pdu.length := by
  unfold encryptFilling at h
  split at h
  · cases h
  cases hnonce : io.randNonce with
  | none =>
    simp only [hnonce] at h
    cases h
  | some nonce' =>
    simp only [hnonce] at h
    split at h
    · obtain ⟨rfl, -⟩ := Prod.mk.inj (Except.ok.inj h)
      exact hlength nonce' (aadPrefix ++ nonce'.val) pdu
    · cases h

theorem within_frameFilling {cred : RCredential}
    (hlength : cred.authType = .aesGcm → KeepsLength gcm cred.aesKey) (tenant : RTenantHeader)
    {pdu : Bytes} (hpdu : pdu.length ≤ R_MAX_PACKET_SIZE) (io : EncryptIo) :
    Logged.Within BufferEvent.Safe (frameFilling gcm cred tenant pdu R_MAX_PACKET_SIZE io) := by
  have hmax : R_MAX_PACKET_SIZE = 1200 := rfl
  have hheader : 0 + [rTenantHeaderWrite tenant].flatten.length = 40 := by
    simp [R_TENANT_TLV_LEN]
  unfold frameFilling
  rw [if_neg (by decide)]
  apply within_put_bind (by omega)
  rw [hheader]
  cases hauth : cred.authType with
  | derive => exact Logged.within_fail _
  | cookie =>
    simp only
    split
    · exact Logged.within_fail _
    apply within_sized_bind (by omega)
    split
    · exact Logged.within_fail _
    have hfields : [rWriteLe16 R_TLV_AUTH_COOKIE, rWriteLe16 36, cred.cookie.val,
        pdu].flatten.length = 36 + pdu.length := by
      simp only [List.flatten_cons, List.flatten_nil, List.length_append, List.length_nil,
        length_rWriteLe16, FixedBytes.length_val]
      omega
    apply within_put_bind (by omega)
    split
    · exact Logged.within_fail _
    · exact Logged.within_pure _
  | aesGcm =>
    simp only
    split
    · exact Logged.within_fail _
    apply within_sized_bind (by omega)
    split
    · exact Logged.within_fail _
    have htlv : [rWriteLe16 R_TLV_AUTH_AES, rWriteLe16 32].flatten.length = 4 := by simp
    apply within_put_bind (by omega)
    rw [htlv]
    apply (within_encryptFilling (hlength hauth) pdu _ io).bind
    rintro ⟨cipher, nonce, tag⟩ hsealed
    have hcipher := length_encryptFilling (hlength hauth) hsealed
    dsimp only
    apply within_sized_bind (by omega)
    split
    · exact Logged.within_fail _
    have hfields : [nonce.val, tag.val, cipher].flatten.length = 28 + cipher.length := by
      simp only [List.flatten_cons, List.flatten_nil, List.length_append, List.length_nil,
        FixedBytes.length_val]
      omega
    apply within_put_bind (by omega)
    split
    · exact Logged.within_fail _
    · exact Logged.within_pure _

/-! ### The theorem -/

theorem SizeExact.length_le {outcome : Except RClientError Bytes} {size : Nat} {bytes : Bytes}
    (h : SizeExact outcome size) (hok : outcome = .ok bytes) :
    bytes.length = size ∧ size ≤ R_MAX_PACKET_SIZE := by
  rcases Nat.lt_or_ge R_MAX_PACKET_SIZE size with hlarge | hfits
  · exact absurd (hok.symm.trans (h.refused hlarge)) (by simp)
  · obtain ⟨bytes', hbytes, hlength⟩ := h.fits hfits
    obtain rfl := Except.ok.inj (hok.symm.trans hbytes)
    exact ⟨hlength, hfits⟩

/-- A label that begins with NUL is no label. -/
theorem rBuildRateRequestBody_length_le {resources : List RResourceRequest}
    {guards : List RLatencyGuard} {label : Option Bytes} {body : Bytes}
    (h : rBuildRateRequestBody resources guards label R_MAX_PACKET_SIZE = .ok body) :
    body.length ≤ R_MAX_PACKET_SIZE := by
  by_cases hgiven : LabelGiven label
  · obtain ⟨hlength, hfits⟩ := (rBuildRateRequestBody_exact resources guards hgiven).length_le h
    omega
  · cases label with
    | none => exact absurd trivial hgiven
    | some label =>
      have hempty : label.getD 0 0 = 0 := not_not.mp hgiven
      have hnone : rBuildRateRequestBody resources guards (some label) R_MAX_PACKET_SIZE =
          rBuildRateRequestBody resources guards none R_MAX_PACKET_SIZE := by
        unfold rBuildRateRequestBody
        simp only [hempty, if_true]
      have hexact : SizeExact (rBuildRateRequestBody resources guards none R_MAX_PACKET_SIZE) _ :=
        rBuildRateRequestBody_exact resources guards trivial
      obtain ⟨hlength, hfits⟩ := hexact.length_le (hnone.symm.trans h)
      omega

theorem within_rateRequestPacketFilling {cred : RCredential}
    (hlength : cred.authType = .aesGcm → KeepsLength gcm cred.aesKey) (rq : RateRequest)
    (stampMs : UInt64) (io : EncryptIo) :
    Logged.Within BufferEvent.Safe (rateRequestPacketFilling gcm cred rq stampMs io) := by
  apply (within_rateRequestBodyFilling rq.resources rq.guards rq.metricsLabel).bind
  intro body hbody
  rw [result_rateRequestBodyFilling] at hbody
  apply (within_pduFilling _ _ (rBuildRateRequestBody_length_le hbody)).bind
  intro pdu hpdu
  rw [result_pduFilling] at hpdu
  obtain ⟨hsize, hfits⟩ := (buildPdu_exact _ _ body).length_le hpdu
  exact within_frameFilling hlength _ (hsize.trans_le hfits) io

theorem within_reportPacketFilling {c : RClient}
    (hlength : c.credential.authType = .aesGcm → KeepsLength gcm c.credential.aesKey)
    (reports : List RServiceLatencyReport) (io : ReportIo) :
    Logged.Within BufferEvent.Safe (reportPacketFilling gcm c reports io) := by
  apply (within_latencyReportBodyFilling reports).bind
  intro body hbody
  rw [result_latencyReportBodyFilling] at hbody
  obtain ⟨hbodySize, hbodyFits⟩ := (rBuildLatencyReportBody_exact reports).length_le hbody
  apply (within_pduFilling _ _ (hbodySize.trans_le hbodyFits)).bind
  intro pdu hpdu
  rw [result_pduFilling] at hpdu
  obtain ⟨hsize, hfits⟩ := (buildPdu_exact _ _ body).length_le hpdu
  split
  · exact Logged.within_fail _
  · exact within_frameFilling hlength _ (hsize.trans_le hfits) io.encrypt

/-- What a report that passes its first checks comes to: it is built for the client
    whose membership was looked at again. -/
theorem rClientReportLatency_built (gcm : Gcm) {c : RClient} (hudp : c.udpSend = true)
    {reports : List RServiceLatencyReport} (hne : reports ≠ []) {io : ReportIo}
    {membership : RMembership}
    (hrefresh : rDnsMaybeRefresh c.membership c.dnsRefresh c.dnsName false io.refresh = membership)
    (hservers : membership.servers ≠ []) :
    rClientReportLatency gcm c (.array reports) io =
      match reportPacket gcm c reports io with
      | .error rc => .done rc { c with membership := membership } []
      | .ok packet => sendReport { c with membership := membership } packet io := by
  unfold rClientReportLatency
  have hcount : ¬ ((CArray.array reports).isNull || (CArray.array reports).count = 0) = true := by
    simpa [CArray.isNull, CArray.count] using hne
  have hsome : ¬ membership.servers.length = 0 := by
    simpa using hservers
  rw [if_neg hcount, if_neg (by simp [hudp])]
  simp only [hrefresh]
  rw [if_neg hsome]
  rfl

/-- **The size limit of a datagram is exact.** For every client with a decoded credential:
    a request packet and a report packet are built exactly when their bytes fit into 1200,
    with exactly that length, and otherwise the error is a protocol error; a report that
    fits goes to every server in one packet of that length, and one that does not sends
    nothing. For any counts and any label, also where the cipher fails, no size that is
    computed on the way wraps and no write leaves its buffer. -/
theorem datagram_size_exact {key : DecodedKey} {c : RClient} (hconfigured : Configured key c)
    (hlength : key.authType = .aesGcm → KeepsLength gcm c.credential.aesKey) :
    (∀ (rq : RateRequest) (stampMs : UInt64) (io : EncryptIo),
      LabelGiven rq.metricsLabel → CryptoSucceeds c.credential io →
      SizeExact (rBuildRateRequestPacket gcm c.credential rq stampMs io)
        (frameLen key.authType + 12 + 36 * rq.guards.length + 28 * rq.resources.length +
          labelSize (labelBytes rq.metricsLabel).length)) ∧
    (∀ (reports : List RServiceLatencyReport) (io : ReportIo) (membership : RMembership),
      reports ≠ [] → c.udpSend = true → io.randRequestId ≠ none →
      CryptoSucceeds c.credential io.encrypt →
      rDnsMaybeRefresh c.membership c.dnsRefresh c.dnsName false io.refresh = membership →
      membership.servers ≠ [] →
      (frameLen key.authType + 12 + 32 * reports.length ≤ R_MAX_PACKET_SIZE → ∃ packet,
        packet.length = frameLen key.authType + 12 + 32 * reports.length ∧
        (rClientReportLatency gcm c (.array reports) io).effects =
          membership.servers.zipIdx.map fun server => Effect.udpSend none .report io.stampMs
            server.2 server.1.addr packet (io.udpSend server.2)) ∧
      (R_MAX_PACKET_SIZE < frameLen key.authType + 12 + 32 * reports.length →
        rClientReportLatency gcm c (.array reports) io =
          .done .errProtocol { c with membership := membership } [])) ∧
    (∀ (rq : RateRequest) (stampMs : UInt64) (io : EncryptIo),
      (rateRequestPacketFilling gcm c.credential rq stampMs io).result =
        rBuildRateRequestPacket gcm c.credential rq stampMs io ∧
      Logged.Within BufferEvent.Safe (rateRequestPacketFilling gcm c.credential rq stampMs io)) ∧
    ∀ (reports : List RServiceLatencyReport) (io : ReportIo),
      (reportPacketFilling gcm c reports io).result = reportPacket gcm c reports io ∧
      Logged.Within BufferEvent.Safe (reportPacketFilling gcm c reports io) := by
  rw [← hconfigured.authType] at hlength ⊢
  refine ⟨?_, ?_, ?_, ?_⟩
  · intro rq stampMs io hgiven hcrypto
    have hexact := rBuildRateRequestPacket_exact hconfigured.ready hlength hcrypto rq hgiven stampMs
    simpa only [← Nat.add_assoc] using hexact
  · intro reports io membership hne hudp hrandom hcrypto hrefresh hservers
    have hexact := reportPacket_exact hconfigured.ready hlength hrandom hcrypto reports
    rw [← Nat.add_assoc, ← Nat.add_assoc] at hexact
    rw [rClientReportLatency_built gcm hudp hne hrefresh hservers]
    constructor
    · intro hfits
      obtain ⟨packet, hpacket, hsize⟩ := hexact.fits hfits
      rw [hpacket]
      exact ⟨packet, hsize, sendReport_effects _ packet io⟩
    · intro hlarge
      rw [hexact.refused hlarge]
  · intro rq stampMs io
    exact ⟨result_rateRequestPacketFilling gcm c.credential rq stampMs io,
      within_rateRequestPacketFilling hlength rq stampMs io⟩
  · intro reports io
    exact ⟨result_reportPacketFilling gcm c reports io,
      within_reportPacketFilling hlength reports io⟩

def reportHost : ReportIo where
  refresh := { nowMs := 60, jitterDraw := none, progress := .pending }
  forcedRefresh := { nowMs := 60, jitterDraw := none, progress := .pending }
  randRequestId := some (.replicate 16 1)
  stampMs := 60
  encrypt := { randNonce := none, evpOk := true }
  udpSend := fun _ => true

/-- The largest batch of a cookie client and the next one. -/
theorem datagram_size_exact_batches :
    (∃ packet : Bytes, packet.length = 1176 ∧
      (rClientReportLatency noGcm sampleClient (.array (List.replicate 34 sampleReport))
        reportHost).effects = sampleClient.membership.servers.zipIdx.map fun server =>
          Effect.udpSend none .report 60 server.2 server.1.addr packet true) ∧
    rClientReportLatency noGcm sampleClient (.array (List.replicate 35 sampleReport)) reportHost =
      .done .errProtocol sampleClient [] := by
  have hconfigured : Configured ⟨.cookie, 7, .replicate 32 1, sampleQuotas⟩ sampleClient :=
    ⟨rfl, rfl, by decide, fun _ => ⟨rfl, rfl⟩, by simp, rfl, rfl⟩
  have hcrypto : CryptoSucceeds sampleClient.credential reportHost.encrypt :=
    ⟨fun hauth => absurd hauth (by decide), fun hauth => absurd hauth (by decide)⟩
  have hrefresh : rDnsMaybeRefresh sampleClient.membership sampleClient.dnsRefresh
      sampleClient.dnsName false reportHost.refresh = sampleClient.membership := by decide +kernel
  have hservers : sampleClient.membership.servers ≠ [] := by decide +kernel
  have hlength : RAuthType.cookie = .aesGcm → KeepsLength noGcm sampleClient.credential.aesKey :=
    fun hauth => absurd hauth (by decide)
  obtain ⟨-, hreport, -⟩ := datagram_size_exact hconfigured hlength
  constructor
  · obtain ⟨packet, hsize, hsent⟩ := (hreport (List.replicate 34 sampleReport) reportHost _
      (by simp) rfl (by simp [reportHost]) hcrypto hrefresh hservers).1 (by decide)
    exact ⟨packet, hsize, hsent⟩
  · exact (hreport (List.replicate 35 sampleReport) reportHost _ (by simp) rfl
      (by simp [reportHost]) hcrypto hrefresh hservers).2 (by decide)

end RlClient
