import RlClient.Types

/-!
# The wire protocol

Mirror of `src/r_protocol.c`: the tenant header, the authentication TLV header,
the request, report and PDU builders, and the response parser. A builder that
fills a caller's buffer returns the bytes it wrote; `outCap` is the capacity it
checks against. A parser takes the whole received buffer and offsets into it,
as the source does.
-/

namespace RlClient

def R_TENANT_TLV_LEN : Nat := 40
def R_PDU_HEADER_LEN : Nat := 8
def R_MAX_PACKET_SIZE : Nat := 1200
def R_GUARD_BLOCK_WIRE_LEN : Nat := 36
def R_RESOURCE_BLOCK_WIRE_LEN : Nat := 28
def R_SERVICE_LATENCY_BLOCK_WIRE_LEN : Nat := 32

def R_TLV_TENANT : UInt16 := 0x4C52
def R_TLV_AUTH_COOKIE : UInt16 := 0x4143
def R_TLV_AUTH_AES : UInt16 := 0x4541
def R_TLV_METRICS_LABEL : UInt16 := 0x4C4D

def R_PDU_RATE_REQUEST : UInt16 := 0x5452
def R_PDU_RATE_RESPONSE : UInt16 := 0x5252
def R_PDU_LATENCY_REPORT : UInt16 := 0x524C

/-! ### Words -/

def rLe16 (buf : Bytes) (off : Nat) : UInt16 := UInt16.ofNat (leWordAt 2 buf off)
def rLe32 (buf : Bytes) (off : Nat) : UInt32 := UInt32.ofNat (leWordAt 4 buf off)
def rLe64 (buf : Bytes) (off : Nat) : UInt64 := UInt64.ofNat (leWordAt 8 buf off)

def rWriteLe16 (v : UInt16) : Bytes := leBytes 2 v.toNat
def rWriteLe32 (v : UInt32) : Bytes := leBytes 4 v.toNat
def rWriteLe64 (v : UInt64) : Bytes := leBytes 8 v.toNat

@[simp] theorem length_rWriteLe16 (v : UInt16) : (rWriteLe16 v).length = 2 := by
  simp [rWriteLe16]

@[simp] theorem length_rWriteLe32 (v : UInt32) : (rWriteLe32 v).length = 4 := by
  simp [rWriteLe32]

@[simp] theorem length_rWriteLe64 (v : UInt64) : (rWriteLe64 v).length = 8 := by
  simp [rWriteLe64]

theorem rLe16_write (v : UInt16) (rest : Bytes) : rLe16 (rWriteLe16 v ++ rest) 0 = v := by
  have hfit : v.toNat % 256 ^ 2 = v.toNat := Nat.mod_eq_of_lt v.toNat_lt
  rw [rLe16, rWriteLe16, leWordAt_leBytes_append, hfit]
  simp

theorem rLe32_write (v : UInt32) (rest : Bytes) : rLe32 (rWriteLe32 v ++ rest) 0 = v := by
  have hfit : v.toNat % 256 ^ 4 = v.toNat := Nat.mod_eq_of_lt v.toNat_lt
  rw [rLe32, rWriteLe32, leWordAt_leBytes_append, hfit]
  simp

theorem rLe64_write (v : UInt64) (rest : Bytes) : rLe64 (rWriteLe64 v ++ rest) 0 = v := by
  have hfit : v.toNat % 256 ^ 8 = v.toNat := Nat.mod_eq_of_lt v.toNat_lt
  rw [rLe64, rWriteLe64, leWordAt_leBytes_append, hfit]
  simp

theorem rLe16_append {a b : Bytes} {off : Nat} (h : a.length ≤ off) :
    rLe16 (a ++ b) off = rLe16 b (off - a.length) := by
  rw [rLe16, leWordAt_append_right h, rLe16]

theorem rLe32_append {a b : Bytes} {off : Nat} (h : a.length ≤ off) :
    rLe32 (a ++ b) off = rLe32 b (off - a.length) := by
  rw [rLe32, leWordAt_append_right h, rLe32]

theorem rLe64_append {a b : Bytes} {off : Nat} (h : a.length ≤ off) :
    rLe64 (a ++ b) off = rLe64 b (off - a.length) := by
  rw [rLe64, leWordAt_append_right h, rLe64]

theorem rLe16_drop (buf : Bytes) (skip off : Nat) :
    rLe16 (buf.drop skip) off = rLe16 buf (skip + off) := by
  rw [rLe16, leWordAt_drop, rLe16]

theorem rLe32_drop (buf : Bytes) (skip off : Nat) :
    rLe32 (buf.drop skip) off = rLe32 buf (skip + off) := by
  rw [rLe32, leWordAt_drop, rLe32]

/-! ### The tenant header -/

/-- `r_tenant_header_t`. -/
structure RTenantHeader where
  tlvType : UInt16
  tlvSize : UInt16
  keyId : UInt64
  uniqueId : FixedBytes 16
  timeStamp : UInt64
  steeringFeedback : UInt8
  tenantMgmtFlag : UInt8
  padding0 : UInt8
  padding1 : UInt8
deriving DecidableEq

/-- `r_tenant_header_write`: the `R_TENANT_TLV_LEN` bytes of the header. -/
def rTenantHeaderWrite (header : RTenantHeader) : Bytes :=
  rWriteLe16 header.tlvType ++ (rWriteLe16 header.tlvSize ++ (rWriteLe64 header.keyId ++
    (header.uniqueId.val ++ (rWriteLe64 header.timeStamp ++
      [header.steeringFeedback, header.tenantMgmtFlag, header.padding0, header.padding1]))))

/-- `r_tenant_header_read` on a buffer long enough for the fixed fields. -/
def rTenantHeaderRead (buf : Bytes) : RTenantHeader where
  tlvType := rLe16 buf 0
  tlvSize := rLe16 buf 2
  keyId := rLe64 buf 4
  uniqueId := FixedBytes.ofSlice 16 buf 12
  timeStamp := rLe64 buf 28
  steeringFeedback := buf.getD 36 0
  tenantMgmtFlag := buf.getD 37 0
  padding0 := buf.getD 38 0
  padding1 := buf.getD 39 0

/-- `r_parse_tenant_header`: the header and the position behind its TLV, whose
    declared size may exceed the fixed fields. -/
def rParseTenantHeader (buf : Bytes) : Except RClientError (RTenantHeader × Nat) :=
  if buf.length < 4 then .error .errProtocol
  else if rLe16 buf 0 ≠ R_TLV_TENANT then .error .errProtocol
  else
    let tlvSize := (rLe16 buf 2).toNat
    if tlvSize < R_TENANT_TLV_LEN || buf.length < tlvSize then .error .errProtocol
    else .ok (rTenantHeaderRead buf, tlvSize)

@[simp] theorem length_rTenantHeaderWrite (tenant : RTenantHeader) :
    (rTenantHeaderWrite tenant).length = R_TENANT_TLV_LEN := by
  simp [rTenantHeaderWrite, R_TENANT_TLV_LEN]

theorem rTenantHeaderRead_append {a : Bytes} (b : Bytes) (h : R_TENANT_TLV_LEN ≤ a.length) :
    rTenantHeaderRead (a ++ b) = rTenantHeaderRead a := by
  have hlen : 40 ≤ a.length := h
  have hbyte : ∀ i, i < 40 → (a ++ b).getD i 0 = a.getD i 0 := by
    intro i hi
    simp only [List.getD, List.getElem?_append_left (show i < a.length by omega)]
  unfold rTenantHeaderRead rLe16 rLe64
  rw [leWordAt_append_left (by omega), leWordAt_append_left (by omega),
    leWordAt_append_left (by omega), leWordAt_append_left (by omega),
    FixedBytes.ofSlice_append_left (by omega), hbyte 36 (by omega), hbyte 37 (by omega),
    hbyte 38 (by omega), hbyte 39 (by omega)]

theorem rTenantHeaderRead_write (tenant : RTenantHeader) :
    rTenantHeaderRead (rTenantHeaderWrite tenant) = tenant := by
  have hsize : rLe16 (rTenantHeaderWrite tenant) 2 = tenant.tlvSize := by
    rw [rTenantHeaderWrite, rLe16_append (by simp), length_rWriteLe16, rLe16_write]
  have hkeyId : rLe64 (rTenantHeaderWrite tenant) 4 = tenant.keyId := by
    rw [rTenantHeaderWrite, rLe64_append (by simp), rLe64_append (by simp), length_rWriteLe16,
      length_rWriteLe16, rLe64_write]
  have huniqueId : FixedBytes.ofSlice 16 (rTenantHeaderWrite tenant) 12 = tenant.uniqueId := by
    rw [rTenantHeaderWrite, FixedBytes.ofSlice_append_right (by simp),
      FixedBytes.ofSlice_append_right (by simp), FixedBytes.ofSlice_append_right (by simp),
      length_rWriteLe16, length_rWriteLe16, length_rWriteLe64, FixedBytes.ofSlice_val_append]
  have htimeStamp : rLe64 (rTenantHeaderWrite tenant) 28 = tenant.timeStamp := by
    rw [rTenantHeaderWrite, rLe64_append (by simp), rLe64_append (by simp),
      rLe64_append (by simp), rLe64_append (by simp), length_rWriteLe16, length_rWriteLe16,
      length_rWriteLe64, FixedBytes.length_val, rLe64_write]
  have hbyte : ∀ i, i < 4 → (rTenantHeaderWrite tenant).getD (36 + i) 0 =
      [tenant.steeringFeedback, tenant.tenantMgmtFlag, tenant.padding0,
        tenant.padding1].getD i 0 := by
    intro i _
    simp only [rTenantHeaderWrite, List.getD, ← List.append_assoc]
    rw [List.getElem?_append_right (by simp)]
    simp
  unfold rTenantHeaderRead
  rw [hsize, hkeyId, huniqueId, htimeStamp, hbyte 0 (by omega), hbyte 1 (by omega),
    hbyte 2 (by omega), hbyte 3 (by omega), rTenantHeaderWrite, rLe16_write]
  rfl

/-- A header is accepted when its TLV has the tenant type, holds the fixed fields
    and lies inside the buffer. -/
theorem rParseTenantHeader_cases (buf : Bytes) :
    (rLe16 buf 0 = R_TLV_TENANT ∧ R_TENANT_TLV_LEN ≤ (rLe16 buf 2).toNat ∧
      (rLe16 buf 2).toNat ≤ buf.length ∧
      rParseTenantHeader buf = .ok (rTenantHeaderRead buf, (rLe16 buf 2).toNat)) ∨
    (¬ (rLe16 buf 0 = R_TLV_TENANT ∧ R_TENANT_TLV_LEN ≤ (rLe16 buf 2).toNat ∧
      (rLe16 buf 2).toNat ≤ buf.length) ∧ rParseTenantHeader buf = .error .errProtocol) := by
  have hlen : R_TENANT_TLV_LEN = 40 := rfl
  unfold rParseTenantHeader
  by_cases hshort : buf.length < 4
  · right
    exact ⟨by omega, if_pos hshort⟩
  by_cases htype : rLe16 buf 0 = R_TLV_TENANT
  · by_cases hsize : R_TENANT_TLV_LEN ≤ (rLe16 buf 2).toNat ∧ (rLe16 buf 2).toNat ≤ buf.length
    · left
      refine ⟨htype, hsize.1, hsize.2, ?_⟩
      simp [hshort, htype, Nat.not_lt.mpr hsize.1, Nat.not_lt.mpr hsize.2]
    · right
      refine ⟨fun h => hsize h.2, ?_⟩
      have hout : (rLe16 buf 2).toNat < R_TENANT_TLV_LEN ∨ buf.length < (rLe16 buf 2).toNat := by
        omega
      simp [hshort, htype, hout]
  · right
    exact ⟨fun h => htype h.1, by simp [hshort, htype]⟩

/-- What `r_parse_auth_tlv_header` reports. -/
structure RAuthTlv where
  type : UInt16
  size : Nat
  bodyPos : Nat
  bodyLen : Nat
  pduPos : Nat
deriving DecidableEq

/-- `r_parse_auth_tlv_header`. -/
def rParseAuthTlvHeader (buf : Bytes) (pos : Nat) : Except RClientError RAuthTlv :=
  if buf.length < pos + 4 then .error .errProtocol
  else
    let tlvSize := (rLe16 buf (pos + 2)).toNat
    if tlvSize < 4 || buf.length < pos + tlvSize then .error .errProtocol
    else
      .ok { type := rLe16 buf pos
            size := tlvSize
            bodyPos := pos + 4
            bodyLen := tlvSize - 4
            pduPos := pos + tlvSize }

/-! ### Builders -/

/-- `r_append_metrics_label_tlv` for a label given by its bytes: the TLV that is
    appended behind `len` bytes already written. -/
def rAppendMetricsLabelTlv (len outCap : Nat) (label : Bytes) : Except RClientError Bytes :=
  if label.length > 0xffff then .error .errProtocol
  else
    let bodyLen := 2 + label.length
    let padding := (4 - bodyLen % 4) % 4
    let tlvSize := 4 + bodyLen + padding
    if tlvSize > 0xffff then .error .errProtocol
    else if len + tlvSize > outCap then .error .errProtocol
    else
      .ok (rWriteLe16 R_TLV_METRICS_LABEL ++ rWriteLe16 (UInt16.ofNat tlvSize)
        ++ rWriteLe16 (UInt16.ofNat label.length) ++ label ++ List.replicate padding 0)

/-- One `r_guard_block_t` on the wire; `current_latency` is sent as zero. -/
def guardBlock (guard : RLatencyGuard) : Bytes :=
  guard.latencyTrackerId.val ++ rWriteLe32 guard.ttlMs ++ rWriteLe32 guard.maxSamples
    ++ rWriteLe32 guard.minSampleThreshold ++ rWriteLe32 guard.thresholdMs ++ rWriteLe32 0

/-- One `r_resource_block_t` on the wire. -/
def resourceBlock (resource : RResourceRequest) : Bytes :=
  resource.bucketId.val ++ rWriteLe32 resource.windowSizeMs ++ rWriteLe32 resource.rateLimit
    ++ rWriteLe16 resource.tokensRequested ++ rWriteLe16 0

/-- One `r_service_latency_block_t` on the wire. -/
def serviceLatencyBlock (report : RServiceLatencyReport) : Bytes :=
  report.latencyTrackerId.val ++ rWriteLe32 report.ttlMs ++ rWriteLe32 report.maxSamples
    ++ rWriteLe32 report.minSampleThreshold ++ rWriteLe32 report.observedLatency

/-- `r_build_rate_request_body`. The label is present when its pointer is not
    null and its first byte is not NUL. -/
def rBuildRateRequestBody (resources : List RResourceRequest) (guards : List RLatencyGuard)
    (metricsLabel : Option Bytes) (outCap : Nat) : Except RClientError Bytes :=
  if resources.length > 0xffff || guards.length > 0xffff then .error .errProtocol
  else if 4 + guards.length * R_GUARD_BLOCK_WIRE_LEN
      + resources.length * R_RESOURCE_BLOCK_WIRE_LEN > outCap then .error .errProtocol
  else
    let fixed := rWriteLe16 (UInt16.ofNat guards.length)
      ++ rWriteLe16 (UInt16.ofNat resources.length)
      ++ guards.flatMap guardBlock ++ resources.flatMap resourceBlock
    match metricsLabel with
    | none => .ok fixed
    | some label =>
        if label.getD 0 0 = 0 then .ok fixed
        else
          match rAppendMetricsLabelTlv fixed.length outCap label with
          | .error rc => .error rc
          | .ok tlv => .ok (fixed ++ tlv)

/-- `r_build_latency_report_body`. -/
def rBuildLatencyReportBody (reports : List RServiceLatencyReport) (outCap : Nat) :
    Except RClientError Bytes :=
  if reports.length > 0xffff then .error .errProtocol
  else if 4 + reports.length * R_SERVICE_LATENCY_BLOCK_WIRE_LEN > outCap then .error .errProtocol
  else
    .ok (rWriteLe16 (UInt16.ofNat reports.length) ++ rWriteLe16 0
      ++ reports.flatMap serviceLatencyBlock)

/-- The common part of `r_build_pdu` and `r_build_rate_request_pdu`: type, size
    and the four bytes in which the two differ, then the body. -/
def buildPdu (pduType : UInt16) (word : UInt32) (body : Bytes) (outCap : Nat) :
    Except RClientError Bytes :=
  let pduSize := R_PDU_HEADER_LEN + body.length
  if pduSize > 0xffff || pduSize > outCap then .error .errProtocol
  else .ok (rWriteLe16 pduType ++ rWriteLe16 (UInt16.ofNat pduSize) ++ rWriteLe32 word ++ body)

/-- `r_build_pdu`: both 16-bit words behind the size are zero. -/
def rBuildPdu (pduType : UInt16) (body : Bytes) (outCap : Nat) : Except RClientError Bytes :=
  buildPdu pduType 0 body outCap

/-- `r_build_rate_request_pdu`: the word behind the size is the dedup TTL. -/
def rBuildRateRequestPdu (dedupTtlMs : UInt32) (body : Bytes) (outCap : Nat) :
    Except RClientError Bytes :=
  buildPdu R_PDU_RATE_REQUEST dedupTtlMs body outCap

/-! ### The response parser -/

def readGuardResult (body : Bytes) (pos : Nat) : RGuardResult :=
  let latencyThreshold := rLe32 body (pos + 28)
  let currentLatency := rLe32 body (pos + 32)
  { latencyTrackerId := FixedBytes.ofSlice 16 body pos
    thresholdMs := latencyThreshold
    currentLatencyMs := currentLatency
    passed := decide (currentLatency < latencyThreshold) }

def readResourceResult (body : Bytes) (pos : Nat) : RResourceResult where
  bucketId := FixedBytes.ofSlice 16 body pos
  tokensDeficit := rLe16 body (pos + 24)
  actualRate := rLe32 body (pos + 20)

/-- The guard loop of `r_parse_rate_response_pdu`: `count` blocks from `pos` on,
    with the `success` flag carried through. -/
def parseGuardBlocks (body : Bytes) (bodyLen : Nat) :
    (count pos : Nat) → (success : Bool) →
      Except RClientError (List RGuardResult × Nat × Bool)
  | 0, pos, success => .ok ([], pos, success)
  | count + 1, pos, success =>
      if bodyLen < pos + R_GUARD_BLOCK_WIRE_LEN then .error .errProtocol
      else
        let guard := readGuardResult body pos
        match parseGuardBlocks body bodyLen count (pos + R_GUARD_BLOCK_WIRE_LEN)
            (if guard.passed then success else false) with
        | .error rc => .error rc
        | .ok (guards, pos', success') => .ok (guard :: guards, pos', success')

/-- The resource loop of `r_parse_rate_response_pdu`. -/
def parseResourceBlocks (body : Bytes) (bodyLen : Nat) :
    (count pos : Nat) → (success : Bool) → Except RClientError (List RResourceResult × Bool)
  | 0, _, success => .ok ([], success)
  | count + 1, pos, success =>
      if bodyLen < pos + R_RESOURCE_BLOCK_WIRE_LEN then .error .errProtocol
      else
        let resource := readResourceResult body pos
        match parseResourceBlocks body bodyLen count (pos + R_RESOURCE_BLOCK_WIRE_LEN)
            (if resource.tokensDeficit ≠ 0 then false else success) with
        | .error rc => .error rc
        | .ok (resources, success') => .ok (resource :: resources, success')

/-- What the response parser returns. -/
structure RRateResponse where
  guards : List RGuardResult
  resources : List RResourceResult
  success : Bool
deriving DecidableEq

/-- `r_parse_rate_response_pdu` with result arrays of the given capacities. -/
def rParseRateResponsePdu (pdu : Bytes) (pduLen guardCap resCap : Nat) :
    Except RClientError RRateResponse :=
  if pduLen < R_PDU_HEADER_LEN then .error .errProtocol
  else if rLe16 pdu 0 ≠ R_PDU_RATE_RESPONSE then .error .errProtocol
  else
    let pduSize := (rLe16 pdu 2).toNat
    if pduSize < R_PDU_HEADER_LEN || pduLen < pduSize then .error .errProtocol
    else
      let body := pdu.drop R_PDU_HEADER_LEN
      let bodyLen := pduSize - R_PDU_HEADER_LEN
      if bodyLen < 4 then .error .errProtocol
      else
        let guardCount := (rLe16 body 0).toNat
        let resourceCount := (rLe16 body 2).toNat
        if guardCount > guardCap || resourceCount > resCap then .error .errProtocol
        else
          match parseGuardBlocks body bodyLen guardCount 4 true with
          | .error rc => .error rc
          | .ok (guards, pos, success) =>
              match parseResourceBlocks body bodyLen resourceCount pos success with
              | .error rc => .error rc
              | .ok (resources, success') =>
                  .ok { guards := guards, resources := resources, success := success' }

end RlClient
