import RlClient.Protocol

/-!
# Framing packets and taking datagrams apart

The part of `src/r_client.c` between a PDU and a datagram: the authentication
TLV that `r_build_rate_request_packet` and `r_client_report_latency` put in front
of a PDU, `r_extract_pdu_data`, which removes it again, and
`r_parse_rate_response_alloc`. Under them are `r_encrypt_pdu_aes_gcm` and
`r_decrypt_pdu_aes_gcm` of `src/r_crypto.c`. The cipher itself is OpenSSL's and is a
parameter of the model; what is modelled is how the client assembles the associated data,
the nonce, the tag and the ciphertext around it.
-/

namespace RlClient

/-! ### Sealing and opening PDUs -/

/-- AES-256-GCM as OpenSSL provides it. The associated data of several
    `EVP_EncryptUpdate` calls is their concatenation. -/
structure Gcm where
  encrypt : (key : FixedBytes 32) → (nonce : FixedBytes 12) → (aad plain : Bytes) →
    Bytes × FixedBytes 16
  decrypt : (key : FixedBytes 32) → (nonce : FixedBytes 12) → (tag : FixedBytes 16) →
    (aad cipher : Bytes) → Option Bytes

/-- What the encryption takes from its environment: `RAND_bytes` for the nonce,
    and whether the OpenSSL calls succeed. -/
structure EncryptIo where
  randNonce : Option (FixedBytes 12)
  evpOk : Bool

/-- `r_encrypt_pdu_aes_gcm`: the nonce is authenticated behind the prefix. -/
def rEncryptPduAesGcm (gcm : Gcm) (pdu : Bytes) (key : FixedBytes 32) (aadPrefix : Bytes)
    (cipherCap : Nat) (io : EncryptIo) : Option (Bytes × FixedBytes 12 × FixedBytes 16) :=
  if cipherCap < pdu.length then none
  else
    match io.randNonce with
    | none => none
    | some nonce =>
        if io.evpOk then
          let (cipher, tag) := gcm.encrypt key nonce (aadPrefix ++ nonce.val) pdu
          some (cipher, nonce, tag)
        else none

/-- `r_decrypt_pdu_aes_gcm`. -/
def rDecryptPduAesGcm (gcm : Gcm) (cipher : Bytes) (key : FixedBytes 32) (nonce : FixedBytes 12)
    (tag : FixedBytes 16) (aad : Bytes) (outCap : Nat) (evpOk : Bool) : Option Bytes :=
  if outCap < cipher.length then none
  else if evpOk then gcm.decrypt key nonce tag aad cipher
  else none

/-! ### The frame around a PDU -/

/-- The credential fields of `struct r_client` and of its tenant configuration. -/
structure RCredential where
  keyId : UInt64
  authType : RAuthType
  cookie : FixedBytes 32
  hasCookie : Bool
  aesKey : FixedBytes 32
  hasAesKey : Bool
deriving DecidableEq

def requestHeader (keyId : UInt64) (requestId : FixedBytes 16) (timeStamp : UInt64) :
    RTenantHeader where
  tlvType := R_TLV_TENANT
  tlvSize := UInt16.ofNat R_TENANT_TLV_LEN
  keyId := keyId
  uniqueId := requestId
  timeStamp := timeStamp
  steeringFeedback := 0
  tenantMgmtFlag := 0
  padding0 := 0
  padding1 := 0

/-- The framing that `r_build_rate_request_packet` and `r_client_report_latency`
    share: header, authentication TLV, then the PDU in clear or sealed. -/
def framePdu (gcm : Gcm) (cred : RCredential) (tenant : RTenantHeader) (pdu : Bytes)
    (outCap : Nat) (io : EncryptIo) : Except RClientError Bytes :=
  if outCap < R_TENANT_TLV_LEN then .error .errProtocol
  else
    let header := rTenantHeaderWrite tenant
    let pos := R_TENANT_TLV_LEN
    match cred.authType with
    | .cookie =>
        if !cred.hasCookie then .error .errAuth
        else if pos + 4 + 32 + pdu.length > outCap then .error .errProtocol
        else
          let packet := header ++ (rWriteLe16 R_TLV_AUTH_COOKIE ++ rWriteLe16 36
            ++ (cred.cookie.val ++ pdu))
          if packet.length > R_MAX_PACKET_SIZE then .error .errProtocol else .ok packet
    | .aesGcm =>
        if !cred.hasAesKey then .error .errAuth
        else if pos + 4 + 12 + 16 + pdu.length > outCap then .error .errProtocol
        else
          let aadPrefix := header ++ (rWriteLe16 R_TLV_AUTH_AES ++ rWriteLe16 32)
          match rEncryptPduAesGcm gcm pdu cred.aesKey aadPrefix R_MAX_PACKET_SIZE io with
          | none => .error .errAuth
          | some (cipher, nonce, tag) =>
              if pos + 4 + 12 + 16 + cipher.length > outCap then .error .errProtocol
              else
                let packet := aadPrefix ++ (nonce.val ++ (tag.val ++ cipher))
                if packet.length > R_MAX_PACKET_SIZE then .error .errProtocol else .ok packet
    | .derive => .error .errConfig

/-- The inputs of `r_build_rate_request_packet` that come from the request. -/
structure RateRequest where
  resources : List RResourceRequest
  guards : List RLatencyGuard
  metricsLabel : Option Bytes
  dedupTtlMs : UInt32
  requestId : FixedBytes 16
  startMs : UInt64
deriving DecidableEq

/-- The PDU that `r_build_rate_request_packet` frames. -/
def rateRequestPdu (rq : RateRequest) : Except RClientError Bytes :=
  match rBuildRateRequestBody rq.resources rq.guards rq.metricsLabel R_MAX_PACKET_SIZE with
  | .error rc => .error rc
  | .ok body => rBuildRateRequestPdu rq.dedupTtlMs body R_MAX_PACKET_SIZE

/-- `r_build_rate_request_packet`. A zero start time is replaced by a second
    clock reading, `stampMs`. -/
def rBuildRateRequestPacket (gcm : Gcm) (cred : RCredential) (rq : RateRequest)
    (stampMs : UInt64) (io : EncryptIo) : Except RClientError Bytes :=
  match rateRequestPdu rq with
  | .error rc => .error rc
  | .ok pdu =>
      let timeStamp := if rq.startMs ≠ 0 then rq.startMs else stampMs
      framePdu gcm cred (requestHeader cred.keyId rq.requestId timeStamp) pdu
        R_MAX_PACKET_SIZE io

/-- The PDU that `r_client_report_latency` frames. -/
def latencyReportPdu (reports : List RServiceLatencyReport) : Except RClientError Bytes :=
  match rBuildLatencyReportBody reports R_MAX_PACKET_SIZE with
  | .error rc => .error rc
  | .ok body => rBuildPdu R_PDU_LATENCY_REPORT body R_MAX_PACKET_SIZE

/-! ### Ingress -/

/-- `expected_type` in `r_extract_pdu_data`. -/
def expectedAuthTlv : RAuthType → Option UInt16
  | .cookie => some R_TLV_AUTH_COOKIE
  | .aesGcm => some R_TLV_AUTH_AES
  | .derive => none

/-- The cookie branch of `r_extract_pdu_data`. -/
def extractCookiePdu (cred : RCredential) (buf : Bytes) (tlv : RAuthTlv) :
    Except RClientError Bytes :=
  if tlv.size ≠ 36 || tlv.bodyLen ≠ 32 then .error .errProtocol
  else if !cred.hasCookie || FixedBytes.ofSlice 32 buf tlv.bodyPos ≠ cred.cookie then
    .error .errAuth
  else .ok (buf.drop tlv.pduPos)

/-- The AES branch of `r_extract_pdu_data`: the associated data is the received
    buffer up to and including the nonce. -/
def extractAesPdu (gcm : Gcm) (cred : RCredential) (buf : Bytes) (pos : Nat) (tlv : RAuthTlv)
    (pduCap : Nat) (evpOk : Bool) : Except RClientError Bytes :=
  if tlv.size ≠ 32 || tlv.bodyLen ≠ 28 then .error .errProtocol
  else if !cred.hasAesKey then .error .errAuth
  else if pduCap = 0 then .error .errProtocol
  else
    let nonce := FixedBytes.ofSlice 12 buf tlv.bodyPos
    let tag := FixedBytes.ofSlice 16 buf (tlv.bodyPos + 12)
    let cipher := buf.drop tlv.pduPos
    if cipher.length = 0 then .error .errProtocol
    else
      match rDecryptPduAesGcm gcm cipher cred.aesKey nonce tag (buf.take (pos + 4 + 12))
          pduCap evpOk with
      | none => .error .errProtocol
      | some pdu => .ok pdu

/-- `r_extract_pdu_data`: authenticate the datagram and return its PDU. -/
def rExtractPduData (gcm : Gcm) (cred : RCredential) (buf : Bytes) (pos pduCap : Nat)
    (evpOk : Bool) : Except RClientError Bytes :=
  match rParseAuthTlvHeader buf pos with
  | .error rc => .error rc
  | .ok tlv =>
      match expectedAuthTlv cred.authType with
      | none => .error .errConfig
      | some expectedType =>
          if tlv.type ≠ expectedType then .error .errAuth
          else if tlv.type = R_TLV_AUTH_COOKIE then extractCookiePdu cred buf tlv
          else if tlv.type = R_TLV_AUTH_AES then extractAesPdu gcm cred buf pos tlv pduCap evpOk
          else .error .errProtocol

/-- Whether the two `calloc` calls of `r_parse_rate_response_alloc` succeed. -/
structure ResponseAlloc where
  guards : Bool
  resources : Bool

/-- `r_parse_rate_response_alloc`: allocate for the declared counts, then parse
    the declared size. -/
def rParseRateResponseAlloc (pdu : Bytes) (alloc : ResponseAlloc) :
    Except RClientError RRateResponse :=
  if pdu.length < R_PDU_HEADER_LEN then .error .errProtocol
  else if rLe16 pdu 0 ≠ R_PDU_RATE_RESPONSE then .error .errProtocol
  else
    let pduSize := (rLe16 pdu 2).toNat
    if pduSize < R_PDU_HEADER_LEN || pdu.length < pduSize then .error .errProtocol
    else
      let body := pdu.drop R_PDU_HEADER_LEN
      let bodyLen := pduSize - R_PDU_HEADER_LEN
      if bodyLen < 4 then .error .errProtocol
      else
        let guardCount := (rLe16 body 0).toNat
        let resCount := (rLe16 body 2).toNat
        if guardCount > 0 && !alloc.guards then .error .errNomem
        else if resCount > 0 && !alloc.resources then .error .errNomem
        else rParseRateResponsePdu pdu pduSize guardCount resCount

end RlClient
