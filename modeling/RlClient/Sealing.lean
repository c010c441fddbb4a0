import RlClient.Ingress

/-!
# AES datagrams are bound as a whole

The sealing side authenticates a prefix and, behind it, the nonce; the opening
side authenticates a slice of the received buffer whose length follows from the
size that the tenant TLV declares. Here the two are put side by side: associated
data, tag and ciphertext tile a datagram without a gap for every declared size,
so that over an unforgeable cipher whatever opens was sealed byte for byte, and
what the client itself frames is taken apart into the PDU it was made of.
-/

namespace RlClient

/-! ### Sealings -/

/-- A call of `r_encrypt_pdu_aes_gcm` under `key` that succeeded: what it was
    given and what it produced. -/
structure Sealing (gcm : Gcm) (key : FixedBytes 32) where
  aadPrefix : Bytes
  pdu : Bytes
  cipherCap : Nat
  io : EncryptIo
  cipher : Bytes
  nonce : FixedBytes 12
  tag : FixedBytes 16
  produced : rEncryptPduAesGcm gcm pdu key aadPrefix cipherCap io = some (cipher, nonce, tag)

variable {gcm : Gcm} {key : FixedBytes 32}

/-- The associated data of a sealing: its prefix followed by the nonce. -/
def Sealing.aad (s : Sealing gcm key) : Bytes := s.aadPrefix ++ s.nonce.val

def Sealing.datagram (s : Sealing gcm key) : Bytes := s.aad ++ (s.tag.val ++ s.cipher)

@[simp] theorem Sealing.length_aad (s : Sealing gcm key) :
    s.aad.length = s.aadPrefix.length + 12 := by
  simp [Sealing.aad]

/-- The ideal cipher: decryption under `key` succeeds only on what one of the
    sealings in `log` produced. -/
def Unforgeable (log : Set (Sealing gcm key)) : Prop :=
  ∀ nonce tag aad cipher plain, gcm.decrypt key nonce tag aad cipher = some plain →
    ∃ s ∈ log, s.nonce = nonce ∧ s.tag = tag ∧ s.cipher = cipher ∧
      aad = s.aadPrefix ++ nonce.val

/-- The cipher opens what it sealed, and it is a stream cipher: the ciphertext is
    as long as the plaintext. -/
structure Invertible (gcm : Gcm) (key : FixedBytes 32) : Prop where
  decrypt_sealed : ∀ s : Sealing gcm key,
    gcm.decrypt key s.nonce s.tag s.aad s.cipher = some s.pdu
  length_cipher : ∀ s : Sealing gcm key, s.cipher.length = s.pdu.length

/-- A datagram that `r_parse_tenant_header` and then `r_extract_pdu_data` accept,
    with the buffer that `r_client_on_datagram` hands to the latter. -/
structure Opened (gcm : Gcm) (cred : RCredential) (buf : Bytes) (evpOk : Bool)
    (tenant : RTenantHeader) (pos : Nat) (pdu : Bytes) : Prop where
  parsed : rParseTenantHeader buf = .ok (tenant, pos)
  extracted : rExtractPduData gcm cred buf pos R_MAX_PACKET_SIZE evpOk = .ok pdu

/-! ### What opens was sealed -/

/-- The ranges that the opening side reads tile the buffer. -/
theorem tile_aes {buf : Bytes} {pos : Nat} (hlength : pos + 32 ≤ buf.length) :
    buf = buf.take (pos + 16) ++
      ((FixedBytes.ofSlice 16 buf (pos + 16)).val ++ buf.drop (pos + 32)) := by
  have htag : (FixedBytes.ofSlice 16 buf (pos + 16)).val = (buf.drop (pos + 16)).take 16 :=
    FixedBytes.val_ofSlice (by omega)
  have hcipher : buf.drop (pos + 32) = (buf.drop (pos + 16)).drop 16 := by
    rw [List.drop_drop]
  rw [htag, hcipher, List.take_append_drop, List.take_append_drop]

theorem Opened.sealed {log : Set (Sealing gcm key)} (hideal : Unforgeable log)
    {cred : RCredential} (hauth : cred.authType = .aesGcm) (hkey : cred.aesKey = key)
    {buf : Bytes} {evpOk : Bool} {tenant : RTenantHeader} {pos : Nat} {pdu : Bytes}
    (hopened : Opened gcm cred buf evpOk tenant pos pdu) :
    ∃ s ∈ log, buf = s.datagram ∧ s.aadPrefix.length = pos + 4 ∧
      tenant = rTenantHeaderRead s.aadPrefix ∧
      gcm.decrypt key s.nonce s.tag s.aad s.cipher = some pdu := by
  cases rExtractPduData_ok_iff.mp hopened.extracted with
  | cookie hcookie =>
    rw [hauth] at hcookie
    exact absurd hcookie (by simp)
  | aes _ _ _ _ hlength _ _ _ hopen =>
    rw [hkey] at hopen
    obtain ⟨s, hs, hnonce, htag, hcipher, haad⟩ := hideal _ _ _ _ _ hopen
    rw [← hnonce] at haad
    have hbuf : buf = s.datagram := by
      rw [Sealing.datagram, Sealing.aad, ← haad, htag, hcipher]
      exact tile_aes (by omega)
    -- the declared size of the tenant TLV fixes where the prefix ends
    have hprefix : s.aadPrefix.length = pos + 4 := by
      have hlen := congrArg List.length haad
      simp only [List.length_take, List.length_append, FixedBytes.length_val] at hlen
      omega
    refine ⟨s, hs, hbuf, hprefix, ?_, ?_⟩
    · rcases rParseTenantHeader_cases buf with ⟨-, hlow, -, hok⟩ | ⟨-, herror⟩
      · obtain ⟨rfl, rfl⟩ := Prod.mk.inj (Except.ok.inj (hok.symm.trans hopened.parsed))
        rw [hbuf, Sealing.datagram, Sealing.aad, List.append_assoc]
        exact rTenantHeaderRead_append _ (by omega)
      · exact absurd (herror.symm.trans hopened.parsed) (by simp)
    · rw [hnonce, htag, hcipher, Sealing.aad, ← haad]
      exact hopen

/-! ### What the client frames opens -/

/-- The prefix that the client seals under: its tenant header and the header of
    the authentication TLV. -/
def framePrefix (tenant : RTenantHeader) : Bytes :=
  rTenantHeaderWrite tenant ++ (rWriteLe16 R_TLV_AUTH_AES ++ rWriteLe16 32)

@[simp] theorem length_framePrefix (tenant : RTenantHeader) :
    (framePrefix tenant).length = 44 := by
  simp [framePrefix, R_TENANT_TLV_LEN]

/-- In AES mode a framed packet is the datagram of one sealing. -/
theorem framePdu_sealing {cred : RCredential} (hauth : cred.authType = .aesGcm)
    (hkey : cred.aesKey = key) {tenant : RTenantHeader} {pdu : Bytes} {outCap : Nat}
    {io : EncryptIo} {packet : Bytes} (h : framePdu gcm cred tenant pdu outCap io = .ok packet) :
    ∃ s : Sealing gcm key, s.pdu = pdu ∧ s.aadPrefix = framePrefix tenant ∧
      packet = s.datagram ∧ packet.length ≤ R_MAX_PACKET_SIZE := by
  subst hkey
  unfold framePdu at h
  simp only [hauth] at h
  split at h
  · exact absurd h (by simp)
  split at h
  · exact absurd h (by simp)
  split at h
  · exact absurd h (by simp)
  split at h
  · exact absurd h (by simp)
  rename_i cipher nonce tag hproduced
  split at h
  · exact absurd h (by simp)
  split at h
  · exact absurd h (by simp)
  rename_i hsize
  obtain rfl := Except.ok.inj h
  refine ⟨⟨framePrefix tenant, pdu, R_MAX_PACKET_SIZE, io, cipher, nonce, tag, hproduced⟩, rfl, rfl,
    ?_, Nat.not_lt.mp hsize⟩
  simp [Sealing.datagram, Sealing.aad, framePrefix]

theorem rParseTenantHeader_framed {tenant : RTenantHeader} (htype : tenant.tlvType = R_TLV_TENANT)
    (hsize : tenant.tlvSize.toNat = R_TENANT_TLV_LEN) (rest : Bytes) :
    rParseTenantHeader (rTenantHeaderWrite tenant ++ rest) = .ok (tenant, R_TENANT_TLV_LEN) := by
  have hread : rTenantHeaderRead (rTenantHeaderWrite tenant ++ rest) = tenant := by
    rw [rTenantHeaderRead_append rest (by simp), rTenantHeaderRead_write]
  have htype' : rLe16 (rTenantHeaderWrite tenant ++ rest) 0 = R_TLV_TENANT :=
    (congrArg RTenantHeader.tlvType hread).trans htype
  have hsize' : (rLe16 (rTenantHeaderWrite tenant ++ rest) 2).toNat = R_TENANT_TLV_LEN :=
    (congrArg (fun header => header.tlvSize.toNat) hread).trans hsize
  rcases rParseTenantHeader_cases (rTenantHeaderWrite tenant ++ rest) with
    ⟨-, -, -, hok⟩ | ⟨hbad, -⟩
  · rw [hok, hread, hsize']
  · exact absurd ⟨htype', by omega, by simp [hsize']⟩ hbad

/-- A sealing under the client's own prefix is authentic to every holder of the
    key: each range is read from where it was written. -/
theorem Sealing.authentic (s : Sealing gcm key) {tenant : RTenantHeader}
    (haad : s.aadPrefix = framePrefix tenant) {receiver : RCredential}
    (hauth : receiver.authType = .aesGcm) (hset : receiver.hasAesKey = true)
    (hkey : receiver.aesKey = key) (hcipher : 0 < s.cipher.length)
    (hcap : s.datagram.length ≤ R_MAX_PACKET_SIZE) {pdu : Bytes}
    (hopen : gcm.decrypt key s.nonce s.tag s.aad s.cipher = some pdu) :
    Authentic gcm receiver s.datagram R_TENANT_TLV_LEN true pdu := by
  have hsplit : s.datagram = rTenantHeaderWrite tenant ++ (rWriteLe16 R_TLV_AUTH_AES ++
      (rWriteLe16 32 ++ (s.nonce.val ++ (s.tag.val ++ s.cipher)))) := by
    simp only [Sealing.datagram, Sealing.aad, haad, framePrefix, List.append_assoc]
  have hlenAad : s.aad.length = R_TENANT_TLV_LEN + 16 := by
    rw [s.length_aad, haad, length_framePrefix]
    rfl
  have hlength : s.datagram.length = R_TENANT_TLV_LEN + 32 + s.cipher.length := by
    simp only [Sealing.datagram, List.length_append, hlenAad, FixedBytes.length_val]
    omega
  have htype : rLe16 s.datagram R_TENANT_TLV_LEN = R_TLV_AUTH_AES := by
    rw [hsplit, rLe16_append (by simp), length_rTenantHeaderWrite, Nat.sub_self, rLe16_write]
  have hsize : rLe16 s.datagram (R_TENANT_TLV_LEN + 2) = 32 := by
    rw [hsplit, rLe16_append (by simp), length_rTenantHeaderWrite, Nat.add_sub_cancel_left,
      rLe16_append (by simp), length_rWriteLe16, Nat.sub_self, rLe16_write]
  have hnonce : FixedBytes.ofSlice 12 s.datagram (R_TENANT_TLV_LEN + 4) = s.nonce := by
    rw [hsplit, FixedBytes.ofSlice_append_right (by simp), length_rTenantHeaderWrite,
      Nat.add_sub_cancel_left, FixedBytes.ofSlice_append_right (by simp), length_rWriteLe16,
      FixedBytes.ofSlice_append_right (by simp), length_rWriteLe16,
      FixedBytes.ofSlice_val_append]
  have htag : FixedBytes.ofSlice 16 s.datagram (R_TENANT_TLV_LEN + 16) = s.tag := by
    rw [Sealing.datagram, FixedBytes.ofSlice_append_right (by omega), hlenAad, Nat.sub_self,
      FixedBytes.ofSlice_val_append]
  have htake : s.datagram.take (R_TENANT_TLV_LEN + 16) = s.aad :=
    List.take_left' hlenAad
  have hdrop : s.datagram.drop (R_TENANT_TLV_LEN + 32) = s.cipher := by
    rw [Sealing.datagram, ← List.append_assoc]
    exact List.drop_left' (by simp only [List.length_append, hlenAad, FixedBytes.length_val])
  refine .aes hauth hset htype (by rw [hsize]; rfl) (by omega) (by omega) rfl pdu ?_
  rw [hkey, hnonce, htag, htake, hdrop]
  exact hopen

/-- Every packet framed in AES mode around a PDU opens to that PDU. -/
theorem framePdu_opened (hinverts : Invertible gcm key) {cred : RCredential}
    (hauth : cred.authType = .aesGcm) (hkey : cred.aesKey = key) {receiver : RCredential}
    (hreceiver : receiver.authType = .aesGcm) (hset : receiver.hasAesKey = true)
    (hsame : receiver.aesKey = key) {tenant : RTenantHeader}
    (htype : tenant.tlvType = R_TLV_TENANT) (hsize : tenant.tlvSize.toNat = R_TENANT_TLV_LEN)
    {pdu : Bytes} (hpdu : 0 < pdu.length) {outCap : Nat} {io : EncryptIo} {packet : Bytes}
    (h : framePdu gcm cred tenant pdu outCap io = .ok packet) :
    Opened gcm receiver packet true tenant R_TENANT_TLV_LEN pdu := by
  obtain ⟨s, rfl, haad, rfl, hcap⟩ := framePdu_sealing hauth hkey h
  constructor
  · rw [Sealing.datagram, Sealing.aad, haad, framePrefix, List.append_assoc, List.append_assoc]
    exact rParseTenantHeader_framed htype hsize _
  · apply rExtractPduData_ok_iff.mpr
    apply s.authentic haad hreceiver hset hsame _ hcap (hinverts.decrypt_sealed s)
    rw [hinverts.length_cipher s]
    exact hpdu

theorem buildPdu_pos {pduType : UInt16} {word : UInt32} {body : Bytes} {outCap : Nat}
    {pdu : Bytes} (h : buildPdu pduType word body outCap = .ok pdu) : 0 < pdu.length := by
  unfold buildPdu at h
  simp only at h
  split at h
  · exact absurd h (by simp)
  · obtain rfl := Except.ok.inj h
    simp

theorem rateRequestPdu_pos {rq : RateRequest} {pdu : Bytes} (h : rateRequestPdu rq = .ok pdu) :
    0 < pdu.length := by
  unfold rateRequestPdu at h
  split at h
  · exact absurd h (by simp)
  · exact buildPdu_pos h

theorem latencyReportPdu_pos {reports : List RServiceLatencyReport} {pdu : Bytes}
    (h : latencyReportPdu reports = .ok pdu) : 0 < pdu.length := by
  unfold latencyReportPdu at h
  split at h
  · exact absurd h (by simp)
  · exact buildPdu_pos h

/-- What `r_client_report_latency` sends is the one packet it framed. -/
theorem rClientReportLatency_framed {c : RClient} {reports : CArray RServiceLatencyReport}
    {io : ReportIo} {h : Option Handle} {pass : SendPass} {startedMs : UInt64} {index : Nat}
    {addr : RAddr} {packet : Bytes} {ok : Bool}
    (hsent : Effect.udpSend h pass startedMs index addr packet ok ∈
      (rClientReportLatency gcm c reports io).effects) :
    ∃ pdu requestId, latencyReportPdu reports.elems = .ok pdu ∧
      framePdu gcm c.credential (requestHeader c.credential.keyId requestId io.stampMs) pdu
        R_MAX_PACKET_SIZE io.encrypt = .ok packet := by
  unfold rClientReportLatency at hsent
  simp only at hsent
  split at hsent
  · exact absurd hsent (by simp [Reply.done])
  split at hsent
  · exact absurd hsent (by simp [Reply.done])
  split at hsent
  · exact absurd hsent (by simp [Reply.done])
  split at hsent
  · exact absurd hsent (by simp [Reply.done])
  rename_i framed hframed
  have hpacket : framed = packet := by
    unfold sendReport at hsent
    simp only [Reply.done, apply_ite Reply.effects, ite_self, List.mem_map,
      Effect.udpSend.injEq] at hsent
    obtain ⟨_, _, -, -, -, -, -, hpacket, -⟩ := hsent
    exact hpacket
  subst hpacket
  unfold reportPacket at hframed
  split at hframed
  · exact absurd hframed (by simp)
  rename_i pdu hpdu
  split at hframed
  · exact absurd hframed (by simp)
  rename_i requestId _
  exact ⟨pdu, requestId, hpdu, hframed⟩

/-! ### The whole datagram is bound -/

/-- Whatever an AES client accepts is, byte for byte, the associated data, the
    tag and the ciphertext of a sealing, for every size that the tenant TLV may
    declare: the prefix of that sealing is the tenant TLV with any extension and
    the header of the authentication TLV, and the parsed header is read from it.
    A changed datagram is therefore accepted only if it is that of another
    sealing. And what a client frames, a holder of the same key takes apart into
    the PDU it was made of. -/
theorem aes_datagrams_bound (gcm : Gcm) (key : FixedBytes 32) :
    (∀ log : Set (Sealing gcm key), Unforgeable log →
      ∀ cred : RCredential, cred.authType = .aesGcm → cred.aesKey = key →
        (∀ buf evpOk tenant pos pdu, Opened gcm cred buf evpOk tenant pos pdu →
          ∃ s ∈ log, buf = s.datagram ∧ s.aadPrefix.length = pos + 4 ∧
            tenant = rTenantHeaderRead s.aadPrefix ∧
            gcm.decrypt key s.nonce s.tag s.aad s.cipher = some pdu) ∧
        ∀ s ∈ log, ∀ altered evpOk tenant pos pdu, altered ≠ s.datagram →
          Opened gcm cred altered evpOk tenant pos pdu →
            ∃ s' ∈ log, s' ≠ s ∧ altered = s'.datagram) ∧
    (Invertible gcm key →
      ∀ cred : RCredential, cred.authType = .aesGcm → cred.aesKey = key →
      ∀ receiver : RCredential, receiver.authType = .aesGcm → receiver.hasAesKey = true →
        receiver.aesKey = key →
        (∀ rq stampMs io packet, rBuildRateRequestPacket gcm cred rq stampMs io = .ok packet →
          ∃ timeStamp pdu, rateRequestPdu rq = .ok pdu ∧
            Opened gcm receiver packet true (requestHeader cred.keyId rq.requestId timeStamp)
              R_TENANT_TLV_LEN pdu) ∧
        ∀ (c : RClient) reports io h pass startedMs index addr packet ok, c.credential = cred →
          Effect.udpSend h pass startedMs index addr packet ok ∈
            (rClientReportLatency gcm c reports io).effects →
          ∃ requestId pdu, latencyReportPdu reports.elems = .ok pdu ∧
            Opened gcm receiver packet true (requestHeader cred.keyId requestId io.stampMs)
              R_TENANT_TLV_LEN pdu) := by
  constructor
  · intro log hideal cred hauth hkey
    constructor
    · intro buf evpOk tenant pos pdu hopened
      exact hopened.sealed hideal hauth hkey
    · intro s _ altered evpOk tenant pos pdu hne hopened
      obtain ⟨s', hs', hdatagram, -⟩ := hopened.sealed hideal hauth hkey
      refine ⟨s', hs', ?_, hdatagram⟩
      rintro rfl
      exact hne hdatagram
  · intro hinverts cred hauth hkey receiver hreceiver hset hsame
    constructor
    · intro rq stampMs io packet hbuilt
      unfold rBuildRateRequestPacket at hbuilt
      split at hbuilt
      · exact absurd hbuilt (by simp)
      · rename_i pdu hpdu
        exact ⟨_, pdu, hpdu, framePdu_opened hinverts hauth hkey hreceiver hset hsame rfl rfl
          (rateRequestPdu_pos hpdu) hbuilt⟩
    · rintro c reports io h pass startedMs index addr packet ok rfl hsent
      obtain ⟨pdu, requestId, hpdu, hframed⟩ := rClientReportLatency_framed hsent
      exact ⟨requestId, pdu, hpdu, framePdu_opened hinverts hauth hkey hreceiver hset hsame rfl rfl
        (latencyReportPdu_pos hpdu) hframed⟩

/-! ### One sealing to evaluate

The packet of a request for one resource, under a key of ones and a nonce of
twos, with the ciphertext and the tag that AES-256-GCM gives for them. -/

def sampleKey : FixedBytes 32 := .replicate 32 1

def sampleNonce : FixedBytes 12 := .replicate 12 2

def sampleCipher : Bytes :=
  [85, 130, 225, 73, 46, 87, 193, 253, 211, 204, 189, 200, 85, 174, 203, 187, 171, 188, 216, 230,
    226, 184, 132, 120, 212, 142, 233, 242, 144, 248, 116, 127, 114, 127, 30, 55, 108, 111, 163,
    239]

def sampleTag : FixedBytes 16 :=
  ⟨[16, 170, 236, 55, 76, 108, 180, 126, 145, 173, 116, 239, 111, 202, 55, 146], rfl⟩

def sampleRateRequest : RateRequest where
  resources :=
    [{ bucketId := .replicate 16 9, windowSizeMs := 1000, rateLimit := 5, tokensRequested := 1 }]
  guards := []
  metricsLabel := none
  dedupTtlMs := 100
  requestId := sampleRequestId 9
  startMs := 1000

def samplePdu : Bytes :=
  [82, 84, 40, 0, 100, 0, 0, 0, 0, 0, 1, 0, 9, 9, 9, 9, 9, 9, 9, 9, 9, 9, 9, 9, 9, 9, 9, 9, 232, 3,
    0, 0, 5, 0, 0, 0, 1, 0, 0, 0]

def samplePrefix : Bytes := framePrefix (requestHeader 7 (sampleRequestId 9) 1000)

/-- The inputs on which `sampleGcm` is the real cipher. -/
abbrev SampleInput (key : FixedBytes 32) (nonce : FixedBytes 12) (aad : Bytes) : Prop :=
  key = sampleKey ∧ nonce = sampleNonce ∧ aad = samplePrefix ++ sampleNonce.val

/-- AES-256-GCM on the sample request. Other plaintexts are left in clear under a
    zero tag, and open again if `others` is set. -/
def sampleGcm (others : Bool) : Gcm where
  encrypt key nonce aad plain :=
    if SampleInput key nonce aad ∧ plain = samplePdu then (sampleCipher, sampleTag)
    else (plain, .replicate 16 0)
  decrypt key nonce tag aad cipher :=
    if SampleInput key nonce aad ∧ cipher = sampleCipher ∧ tag = sampleTag then some samplePdu
    else if others = true ∧ tag = .replicate 16 0 then some cipher
    else none

def sampleEncrypt : EncryptIo := { randNonce := some sampleNonce, evpOk := true }

def sampleSealing (others : Bool) : Sealing (sampleGcm others) sampleKey where
  aadPrefix := samplePrefix
  pdu := samplePdu
  cipherCap := R_MAX_PACKET_SIZE
  io := sampleEncrypt
  cipher := sampleCipher
  nonce := sampleNonce
  tag := sampleTag
  produced := by
    cases others
    · decide +kernel
    · decide +kernel

def sampleAesCredential : RCredential where
  keyId := 7
  authType := .aesGcm
  cookie := .replicate 32 0
  hasCookie := false
  aesKey := sampleKey
  hasAesKey := true

/-- The sample client, with a credential of either kind. -/
def sampleArgsFor (aes : Bool) : CreateArgs :=
  { sampleArgs with
    decoded := some ⟨if aes then .aesGcm else .cookie, 7, sampleKey, sampleQuotas⟩ }

def sampleClientFor (aes : Bool) : RClient :=
  if aes then { sampleClient with credential := sampleAesCredential } else sampleClient

theorem sampleClientFor_created (aes : Bool) :
    rClientCreate (sampleArgsFor aes) = .ok (sampleClientFor aes) := by
  cases aes <;> rfl

theorem Sealing.encrypt_eq (s : Sealing gcm key) :
    gcm.encrypt key s.nonce s.aad s.pdu = (s.cipher, s.tag) := by
  have hproduced := s.produced
  unfold rEncryptPduAesGcm at hproduced
  split at hproduced
  · exact absurd hproduced (by simp)
  split at hproduced
  · exact absurd hproduced (by simp)
  split at hproduced
  · obtain ⟨hcipher, hrest⟩ := Prod.mk.inj (Option.some.inj hproduced)
    obtain ⟨hnonce, htag⟩ := Prod.mk.inj hrest
    rw [← hcipher, ← htag, Sealing.aad, ← hnonce]
  · exact absurd hproduced (by simp)

/-- Nothing but the sample opens when other plaintexts do not. -/
theorem sampleGcm_unforgeable : Unforgeable {sampleSealing false} := by
  intro nonce tag aad cipher plain hopen
  simp only [sampleGcm, Bool.false_eq_true, false_and, if_false] at hopen
  split at hopen
  · rename_i hsample
    obtain ⟨⟨-, rfl, rfl⟩, rfl, rfl⟩ := hsample
    exact ⟨sampleSealing false, rfl, rfl, rfl, rfl, rfl⟩
  · exact absurd hopen (by simp)

theorem sampleGcm_invertible : Invertible (sampleGcm true) sampleKey := by
  have hcases : ∀ s : Sealing (sampleGcm true) sampleKey,
      (SampleInput sampleKey s.nonce s.aad ∧ s.pdu = samplePdu ∧ s.cipher = sampleCipher ∧
        s.tag = sampleTag) ∨ (s.cipher = s.pdu ∧ s.tag = .replicate 16 0) := by
    intro s
    have hsealed := s.encrypt_eq
    simp only [sampleGcm] at hsealed
    split at hsealed
    · rename_i hsample
      obtain ⟨hcipher, htag⟩ := Prod.mk.inj hsealed
      exact .inl ⟨hsample.1, hsample.2, hcipher.symm, htag.symm⟩
    · obtain ⟨hcipher, htag⟩ := Prod.mk.inj hsealed
      exact .inr ⟨hcipher.symm, htag.symm⟩
  constructor
  · intro s
    rcases hcases s with ⟨hinput, hpdu, hcipher, htag⟩ | ⟨hcipher, htag⟩
    · simp only [sampleGcm]
      rw [if_pos ⟨hinput, hcipher, htag⟩, hpdu]
    · have hother : ¬ s.tag = sampleTag := by
        rw [htag]
        decide
      simp only [sampleGcm]
      rw [if_neg (fun h => hother h.2.2), if_pos ⟨trivial, htag⟩, hcipher]
  · intro s
    rcases hcases s with ⟨-, hpdu, hcipher, -⟩ | ⟨hcipher, -⟩
    · rw [hpdu, hcipher]
      rfl
    · rw [hcipher]

/-- The sample request is framed into the datagram of its sealing, which the
    same key opens to the PDU; no other byte string opens. -/
theorem aes_datagrams_bound_sample :
    (∃ timeStamp, Opened (sampleGcm true) sampleAesCredential (sampleSealing true).datagram true
      (requestHeader 7 (sampleRequestId 9) timeStamp) R_TENANT_TLV_LEN samplePdu) ∧
    Opened (sampleGcm false) sampleAesCredential (sampleSealing false).datagram true
      (requestHeader 7 (sampleRequestId 9) 1000) R_TENANT_TLV_LEN samplePdu ∧
    ∀ altered evpOk tenant pos pdu, altered ≠ (sampleSealing false).datagram →
      ¬ Opened (sampleGcm false) sampleAesCredential altered evpOk tenant pos pdu := by
  refine ⟨?_, ⟨by decide +kernel, by decide +kernel⟩, ?_⟩
  · obtain ⟨timeStamp, pdu, hpdu, hopened⟩ :=
      ((aes_datagrams_bound (sampleGcm true) sampleKey).2 sampleGcm_invertible sampleAesCredential
        rfl rfl sampleAesCredential rfl rfl rfl).1 sampleRateRequest 0 sampleEncrypt
        (sampleSealing true).datagram (by decide +kernel)
    have hsame : rateRequestPdu sampleRateRequest = .ok samplePdu := by decide +kernel
    obtain rfl := Except.ok.inj (hsame.symm.trans hpdu)
    exact ⟨timeStamp, hopened⟩
  · intro altered evpOk tenant pos pdu hne hopened
    obtain ⟨s', hs', hother, -⟩ :=
      ((aes_datagrams_bound (sampleGcm false) sampleKey).1 {sampleSealing false}
        sampleGcm_unforgeable sampleAesCredential rfl rfl).2 (sampleSealing false) rfl altered evpOk
        tenant pos pdu hne hopened
    exact hother hs'

end RlClient
