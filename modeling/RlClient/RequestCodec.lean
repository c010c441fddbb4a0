import RlClient.Codes
import RlClient.Responder

/-!
# Requests and reports survive the wire

The blocks of guards, resources and reports are fixed-size codecs. A request body
is the counts, the blocks and a padded label TLV whose end is the end of the PDU;
`parse_request_pdu` finds every part again. Since the PDU holds all lengths, it
determines the request and the report batch it was built from.
-/

namespace RlClient

/-! ### Blocks -/

def readGuard (block : Bytes) : RLatencyGuard where
  latencyTrackerId := FixedBytes.ofSlice 16 block 0
  thresholdMs := rLe32 block 28
  ttlMs := rLe32 block 16
  maxSamples := rLe32 block 20
  minSampleThreshold := rLe32 block 24

def readResource (block : Bytes) : RResourceRequest where
  bucketId := FixedBytes.ofSlice 16 block 0
  windowSizeMs := rLe32 block 16
  rateLimit := rLe32 block 20
  tokensRequested := rLe16 block 24

def readReport (block : Bytes) : RServiceLatencyReport where
  latencyTrackerId := FixedBytes.ofSlice 16 block 0
  observedLatency := rLe32 block 28
  ttlMs := rLe32 block 16
  maxSamples := rLe32 block 20
  minSampleThreshold := rLe32 block 24

/-- The word behind a 16-byte identifier and `k` further words. -/
theorem rLe32_behind_id (id : FixedBytes 16) (rest : Bytes) (k : Nat) :
    rLe32 (id.val ++ rest) (16 + k) = rLe32 rest k := by
  rw [rLe32_append (by simp), FixedBytes.length_val, Nat.add_sub_cancel_left]

theorem rLe32_behind_word (v : UInt32) (rest : Bytes) (k : Nat) :
    rLe32 (rWriteLe32 v ++ rest) (4 + k) = rLe32 rest k := by
  rw [rLe32_append (by simp), length_rWriteLe32, Nat.add_sub_cancel_left]

theorem readGuard_block (guard : RLatencyGuard) (rest : Bytes) :
    readGuard (guardBlock guard ++ rest) = guard := by
  have hword : ∀ k, rLe32 (guardBlock guard ++ rest) (16 + k) =
      rLe32 (rWriteLe32 guard.ttlMs ++ (rWriteLe32 guard.maxSamples ++
        (rWriteLe32 guard.minSampleThreshold ++ (rWriteLe32 guard.thresholdMs ++
          (rWriteLe32 0 ++ rest))))) k := by
    intro k
    simp only [guardBlock, List.append_assoc]
    exact rLe32_behind_id _ _ k
  have hid : FixedBytes.ofSlice 16 (guardBlock guard ++ rest) 0 = guard.latencyTrackerId := by
    simp only [guardBlock, List.append_assoc]
    exact FixedBytes.ofSlice_val_append _ _
  have httl : rLe32 (guardBlock guard ++ rest) 16 = guard.ttlMs := by
    rw [hword 0, rLe32_write]
  have hsamples : rLe32 (guardBlock guard ++ rest) 20 = guard.maxSamples := by
    rw [hword (4 + 0), rLe32_behind_word, rLe32_write]
  have hminimum : rLe32 (guardBlock guard ++ rest) 24 = guard.minSampleThreshold := by
    rw [hword (4 + (4 + 0)), rLe32_behind_word, rLe32_behind_word, rLe32_write]
  have hthreshold : rLe32 (guardBlock guard ++ rest) 28 = guard.thresholdMs := by
    rw [hword (4 + (4 + (4 + 0))), rLe32_behind_word, rLe32_behind_word, rLe32_behind_word,
      rLe32_write]
  simp only [readGuard, hid, httl, hsamples, hminimum, hthreshold]

theorem readResource_block (resource : RResourceRequest) (rest : Bytes) :
    readResource (resourceBlock resource ++ rest) = resource := by
  have hid : FixedBytes.ofSlice 16 (resourceBlock resource ++ rest) 0 = resource.bucketId := by
    simp only [resourceBlock, List.append_assoc]
    exact FixedBytes.ofSlice_val_append _ _
  have hwindow : rLe32 (resourceBlock resource ++ rest) (16 + 0) = resource.windowSizeMs := by
    simp only [resourceBlock, List.append_assoc]
    rw [rLe32_behind_id, rLe32_write]
  have hrate : rLe32 (resourceBlock resource ++ rest) (16 + (4 + 0)) = resource.rateLimit := by
    simp only [resourceBlock, List.append_assoc]
    rw [rLe32_behind_id, rLe32_behind_word, rLe32_write]
  have htokens : rLe16 (resourceBlock resource ++ rest) 24 = resource.tokensRequested := by
    simp only [resourceBlock, List.append_assoc]
    rw [rLe16_append (by simp), rLe16_append (by simp), rLe16_append (by simp),
      FixedBytes.length_val, length_rWriteLe32, length_rWriteLe32, rLe16_write]
  simp only [readResource, hid, htokens]
  rw [hwindow, hrate]

theorem readReport_block (report : RServiceLatencyReport) (rest : Bytes) :
    readReport (serviceLatencyBlock report ++ rest) = report := by
  have hword : ∀ k, rLe32 (serviceLatencyBlock report ++ rest) (16 + k) =
      rLe32 (rWriteLe32 report.ttlMs ++ (rWriteLe32 report.maxSamples ++
        (rWriteLe32 report.minSampleThreshold ++
          (rWriteLe32 report.observedLatency ++ rest)))) k := by
    intro k
    simp only [serviceLatencyBlock, List.append_assoc]
    exact rLe32_behind_id _ _ k
  have hid : FixedBytes.ofSlice 16 (serviceLatencyBlock report ++ rest) 0 =
      report.latencyTrackerId := by
    simp only [serviceLatencyBlock, List.append_assoc]
    exact FixedBytes.ofSlice_val_append _ _
  have httl : rLe32 (serviceLatencyBlock report ++ rest) 16 = report.ttlMs := by
    rw [hword 0, rLe32_write]
  have hsamples : rLe32 (serviceLatencyBlock report ++ rest) 20 = report.maxSamples := by
    rw [hword (4 + 0), rLe32_behind_word, rLe32_write]
  have hminimum : rLe32 (serviceLatencyBlock report ++ rest) 24 = report.minSampleThreshold := by
    rw [hword (4 + (4 + 0)), rLe32_behind_word, rLe32_behind_word, rLe32_write]
  have hobserved : rLe32 (serviceLatencyBlock report ++ rest) 28 = report.observedLatency := by
    rw [hword (4 + (4 + (4 + 0))), rLe32_behind_word, rLe32_behind_word, rLe32_behind_word,
      rLe32_write]
  simp only [readReport, hid, httl, hsamples, hminimum, hobserved]

def guardCodec : BlockCodec UInt8 RLatencyGuard 36 where
  encode := guardBlock
  decode := readGuard
  length_encode := by simp [guardBlock]
  decode_encode := readGuard_block

def resourceCodec : BlockCodec UInt8 RResourceRequest 28 where
  encode := resourceBlock
  decode := readResource
  length_encode := by simp [resourceBlock]
  decode_encode := readResource_block

def reportCodec : BlockCodec UInt8 RServiceLatencyReport 32 where
  encode := serviceLatencyBlock
  decode := readReport
  length_encode := by simp [serviceLatencyBlock]
  decode_encode := readReport_block

/-! ### PDUs and bodies -/

/-- The header of a built PDU and the body behind it. -/
structure Framed (pduType : UInt16) (word : UInt32) (body pdu : Bytes) : Prop where
  size : pdu.length = 8 + body.length
  type : rLe16 pdu 0 = pduType
  declared : (rLe16 pdu 2).toNat = pdu.length
  word : (pdu.drop 4).take 4 = rWriteLe32 word
  body : pdu.drop 8 = body

theorem buildPdu_framed {pduType : UInt16} {word : UInt32} {body pdu : Bytes} {outCap : Nat}
    (h : buildPdu pduType word body outCap = .ok pdu) : Framed pduType word body pdu := by
  unfold buildPdu at h
  simp only at h
  split at h
  · cases h
  rename_i hsize
  have hfit : 8 + body.length ≤ 0xffff := by
    have hheader : R_PDU_HEADER_LEN = 8 := rfl
    simp only [Bool.or_eq_true, decide_eq_true_eq, not_or] at hsize
    omega
  obtain rfl := Except.ok.inj h
  have hlen : (rWriteLe16 pduType ++ rWriteLe16 (UInt16.ofNat (R_PDU_HEADER_LEN + body.length)) ++
      rWriteLe32 word ++ body).length = 8 + body.length := by
    simp only [List.length_append, length_rWriteLe16, length_rWriteLe32]
  refine ⟨hlen, ?_, ?_, ?_, ?_⟩
  · rw [List.append_assoc, List.append_assoc, rLe16_write]
  · rw [hlen, List.append_assoc, List.append_assoc, rLe16_append (by simp), length_rWriteLe16,
      rLe16_write, UInt16.toNat_ofNat', R_PDU_HEADER_LEN]
    exact Nat.mod_eq_of_lt (by omega)
  · rw [List.append_assoc, List.drop_left' (by simp), List.take_left' (by simp)]
  · rw [List.drop_left' (by simp)]

theorem Framed.word_eq {pduType pduType' : UInt16} {word word' : UInt32} {body body' pdu : Bytes}
    (h : Framed pduType word body pdu) (h' : Framed pduType' word' body' pdu) : word = word' := by
  have hbytes : rWriteLe32 word ++ [] = rWriteLe32 word' ++ [] := by rw [← h.word, ← h'.word]
  rw [← rLe32_write word [], hbytes, rLe32_write]

def metricsLabelTlv (label : Bytes) : Bytes :=
  let padding := (4 - (2 + label.length) % 4) % 4
  rWriteLe16 R_TLV_METRICS_LABEL ++ (rWriteLe16 (UInt16.ofNat (4 + (2 + label.length) + padding))
    ++ (rWriteLe16 (UInt16.ofNat label.length) ++ (label ++ List.replicate padding 0)))

/-- What follows the blocks in a request body. -/
def labelTlv : Option Bytes → Bytes
  | none => []
  | some label => if label.getD 0 0 = 0 then [] else metricsLabelTlv label

theorem rAppendMetricsLabelTlv_ok {len outCap : Nat} {label tlv : Bytes}
    (h : rAppendMetricsLabelTlv len outCap label = .ok tlv) : tlv = metricsLabelTlv label := by
  unfold rAppendMetricsLabelTlv at h
  simp only at h
  split at h
  · cases h
  split at h
  · cases h
  split at h
  · cases h
  rw [← Except.ok.inj h, metricsLabelTlv]
  simp only [List.append_assoc]

/-- A built request body: the counts, the blocks and the label. -/
theorem rBuildRateRequestBody_ok {resources : List RResourceRequest} {guards : List RLatencyGuard}
    {label : Option Bytes} {outCap : Nat} {body : Bytes}
    (h : rBuildRateRequestBody resources guards label outCap = .ok body) :
    guards.length ≤ 0xffff ∧ resources.length ≤ 0xffff ∧
      body = rWriteLe16 (UInt16.ofNat guards.length) ++
        (rWriteLe16 (UInt16.ofNat resources.length) ++
          (guardCodec.encodeAll guards ++
            (resourceCodec.encodeAll resources ++ labelTlv label))) := by
  unfold rBuildRateRequestBody at h
  split at h
  · cases h
  rename_i hcounts
  simp only [Bool.or_eq_true, decide_eq_true_eq, not_or, Nat.not_lt] at hcounts
  refine ⟨hcounts.2, hcounts.1, ?_⟩
  split at h
  · cases h
  have hblocks : guards.flatMap guardBlock = guardCodec.encodeAll guards ∧
      resources.flatMap resourceBlock = resourceCodec.encodeAll resources := ⟨rfl, rfl⟩
  simp only [hblocks] at h
  cases label with
  | none =>
    rw [← Except.ok.inj h, labelTlv]
    simp only [List.append_assoc, List.append_nil]
  | some label =>
    simp only at h
    rw [labelTlv]
    split at h
    · rename_i hempty
      rw [if_pos hempty, ← Except.ok.inj h]
      simp only [List.append_assoc, List.append_nil]
    · rename_i hempty
      rw [if_neg hempty]
      split at h
      · cases h
      · rename_i tlv htlv
        rw [← Except.ok.inj h, rAppendMetricsLabelTlv_ok htlv]
        simp only [List.append_assoc]

theorem rBuildLatencyReportBody_ok {reports : List RServiceLatencyReport} {outCap : Nat}
    {body : Bytes} (h : rBuildLatencyReportBody reports outCap = .ok body) :
    reports.length ≤ 0xffff ∧
      body = rWriteLe16 (UInt16.ofNat reports.length) ++
        (rWriteLe16 0 ++ reportCodec.encodeAll reports) := by
  unfold rBuildLatencyReportBody at h
  split at h
  · cases h
  rename_i hcount
  refine ⟨by omega, ?_⟩
  split at h
  · cases h
  rw [← Except.ok.inj h, List.append_assoc]
  rfl

/-! ### Labels -/

/-- No label, or one of 1 to 256 bytes that the builder takes for present. -/
def ValidLabel : Option Bytes → Prop
  | none => True
  | some label => 1 ≤ label.length ∧ label.length ≤ 256 ∧ label.getD 0 0 ≠ 0

instance (label : Option Bytes) : Decidable (ValidLabel label) := by
  cases label <;> unfold ValidLabel <;> infer_instance

def labelBytes (label : Option Bytes) : Bytes := label.getD []

theorem ofNat_toNat {n : Nat} (h : n ≤ 0xffff) : (UInt16.ofNat n).toNat = n := by
  rw [UInt16.toNat_ofNat']
  exact Nat.mod_eq_of_lt (by omega)

theorem length_metricsLabelTlv (label : Bytes) :
    (metricsLabelTlv label).length = 4 + (2 + label.length) + (4 - (2 + label.length) % 4) % 4 := by
  simp only [metricsLabelTlv, List.length_append, length_rWriteLe16, List.length_replicate]
  omega

theorem metricsLabelTlv_fields (label : Bytes) (h : label.length ≤ 256) :
    rLe16 (metricsLabelTlv label) 0 = R_TLV_METRICS_LABEL ∧
      (rLe16 (metricsLabelTlv label) 2).toNat = (metricsLabelTlv label).length ∧
      (rLe16 (metricsLabelTlv label) 4).toNat = label.length ∧
      ((metricsLabelTlv label).drop 6).take label.length = label := by
  refine ⟨?_, ?_, ?_, ?_⟩
  · rw [metricsLabelTlv, rLe16_write]
  · rw [length_metricsLabelTlv, metricsLabelTlv, rLe16_append (by simp), length_rWriteLe16,
      rLe16_write]
    exact ofNat_toNat (by omega)
  · rw [metricsLabelTlv, rLe16_append (by simp), rLe16_append (by simp), length_rWriteLe16,
      length_rWriteLe16, rLe16_write]
    exact ofNat_toNat (by omega)
  · rw [metricsLabelTlv, ← List.append_assoc, ← List.append_assoc, List.drop_left' (by simp),
      List.take_left]

theorem val_labelBuffer {label : Bytes} (h : label.length ≤ 256) :
    (FixedBytes.ofSlice 257 label 0).val = label ++ List.replicate (257 - label.length) 0 := by
  apply List.ext_getElem
  · simp [FixedBytes.ofSlice]
    omega
  · intro i hleft hright
    by_cases hi : i < label.length
    · simp [FixedBytes.ofSlice, List.getD, hi]
    · simp [FixedBytes.ofSlice, List.getD, Nat.not_lt.mp hi, hi]

theorem parseMetricsLabel_labelTlv (front : Bytes) {label : Option Bytes}
    (hvalid : ValidLabel label) :
    parseMetricsLabel (front ++ labelTlv label) front.length =
      .ok (FixedBytes.ofSlice 257 (labelBytes label) 0) := by
  cases label with
  | none =>
    unfold parseMetricsLabel
    have hzeros : FixedBytes.ofSlice 257 (labelBytes none) 0 = FixedBytes.replicate 257 0 :=
      Subtype.ext (val_labelBuffer (Nat.zero_le 256))
    rw [if_pos (by simp [labelTlv]), hzeros]
  | some label =>
    obtain ⟨hlow, hhigh, hfirst⟩ := hvalid
    obtain ⟨htype, hsize, hlabel, hbytes⟩ := metricsLabelTlv_fields label hhigh
    have hlen := length_metricsLabelTlv label
    rw [labelTlv, if_neg hfirst]
    unfold parseMetricsLabel
    rw [if_neg (by rw [List.length_append]; omega)]
    have hread : ∀ k, rLe16 (front ++ metricsLabelTlv label) (front.length + k) =
        rLe16 (metricsLabelTlv label) k := by
      intro k
      rw [rLe16_append (by omega), Nat.add_sub_cancel_left]
    have hread0 := hread 0
    rw [Nat.add_zero] at hread0
    simp only [hread, hread0, htype, hsize, hlabel]
    rw [if_neg (by simp [List.length_append]; omega), if_neg (by
      simp [List.length_append, R_TEST_RESPONDER_LABEL_CAP]
      omega)]
    rw [List.drop_length_add_append, hbytes]
    rfl

/-! ### Parsing what was built -/

theorem drop_words (v w : UInt16) (rest : Bytes) :
    (rWriteLe16 v ++ (rWriteLe16 w ++ rest)).drop 4 = rest := by
  rw [← List.append_assoc, List.drop_left' (by simp)]

theorem rLe16_second (v w : UInt16) (rest : Bytes) :
    rLe16 (rWriteLe16 v ++ (rWriteLe16 w ++ rest)) 2 = w := by
  rw [rLe16_append (by simp), length_rWriteLe16, rLe16_write]

theorem parseRequestPdu_request {resources : List RResourceRequest} {guards : List RLatencyGuard}
    {label : Option Bytes} {ttl : UInt32} {bodyCap : Nat} {body pdu : Bytes}
    (hvalid : ValidLabel label)
    (hbody : rBuildRateRequestBody resources guards label bodyCap = .ok body)
    (hpdu : Framed R_PDU_RATE_REQUEST ttl body pdu) (request : RTestParsedRequest) :
    parseRequestPdu pdu request =
      .ok { request with
            pduType := R_PDU_RATE_REQUEST
            body := body
            guardCount := UInt16.ofNat guards.length
            resourceCount := UInt16.ofNat resources.length
            guards := guardCodec.encodeAll guards ++
              (resourceCodec.encodeAll resources ++ labelTlv label)
            resources := resourceCodec.encodeAll resources ++ labelTlv label
            label := FixedBytes.ofSlice 257 (labelBytes label) 0 } := by
  obtain ⟨hguards, hresources, rfl⟩ := rBuildRateRequestBody_ok hbody
  obtain ⟨hsize, htype, hdeclared, -, hdrop⟩ := hpdu
  have hcount : (UInt16.ofNat guards.length).toNat * R_GUARD_BLOCK_WIRE_LEN =
      (guardCodec.encodeAll guards).length := by
    rw [ofNat_toNat hguards, guardCodec.length_encodeAll, R_GUARD_BLOCK_WIRE_LEN, Nat.mul_comm]
  have hcount' : (UInt16.ofNat resources.length).toNat * R_RESOURCE_BLOCK_WIRE_LEN =
      (resourceCodec.encodeAll resources).length := by
    rw [ofNat_toNat hresources, resourceCodec.length_encodeAll, R_RESOURCE_BLOCK_WIRE_LEN,
      Nat.mul_comm]
  -- the label starts where the blocks end
  have hlabel : parseMetricsLabel
      (rWriteLe16 (UInt16.ofNat guards.length) ++ (rWriteLe16 (UInt16.ofNat resources.length) ++
        (guardCodec.encodeAll guards ++ (resourceCodec.encodeAll resources ++ labelTlv label))))
      (4 + (guardCodec.encodeAll guards).length + (resourceCodec.encodeAll resources).length) =
        .ok (FixedBytes.ofSlice 257 (labelBytes label) 0) := by
    have hfront := parseMetricsLabel_labelTlv
      (rWriteLe16 (UInt16.ofNat guards.length) ++ (rWriteLe16 (UInt16.ofNat resources.length) ++
        (guardCodec.encodeAll guards ++ resourceCodec.encodeAll resources))) hvalid
    rw [← hfront]
    congr 1
    · simp only [List.append_assoc]
    · simp only [List.length_append, length_rWriteLe16]
      omega
  have hresourcesAt : (rWriteLe16 (UInt16.ofNat guards.length) ++
      (rWriteLe16 (UInt16.ofNat resources.length) ++ (guardCodec.encodeAll guards ++
        (resourceCodec.encodeAll resources ++ labelTlv label)))).drop
          (4 + (guardCodec.encodeAll guards).length) =
      resourceCodec.encodeAll resources ++ labelTlv label := by
    rw [← List.drop_drop, drop_words, List.drop_left]
  have hheader : R_PDU_HEADER_LEN = 8 := rfl
  unfold parseRequestPdu
  rw [if_neg (by omega)]
  simp only [hheader, hdeclared, htype, hdrop]
  rw [if_neg (by simp; omega), if_neg (by simp [List.length_append]; omega), if_pos trivial]
  simp only [rLe16_write, rLe16_second, hcount, hcount']
  rw [if_neg (by simp [List.length_append]; omega), hlabel]
  simp only [drop_words, hresourcesAt]

theorem parseRequestPdu_report {reports : List RServiceLatencyReport} {bodyCap : Nat}
    {body pdu : Bytes} (hbody : rBuildLatencyReportBody reports bodyCap = .ok body)
    (hpdu : Framed R_PDU_LATENCY_REPORT 0 body pdu) (request : RTestParsedRequest) :
    parseRequestPdu pdu request =
      .ok { request with
            pduType := R_PDU_LATENCY_REPORT
            body := body
            reportCount := UInt16.ofNat reports.length
            reports := reportCodec.encodeAll reports } := by
  obtain ⟨hcount, rfl⟩ := rBuildLatencyReportBody_ok hbody
  obtain ⟨hsize, htype, hdeclared, -, hdrop⟩ := hpdu
  have hheader : R_PDU_HEADER_LEN = 8 := rfl
  unfold parseRequestPdu
  rw [if_neg (by omega)]
  simp only [hheader, hdeclared, htype, hdrop]
  rw [if_neg (by simp; omega), if_neg (by simp [List.length_append]; omega),
    if_neg (by decide), if_pos trivial]
  simp only [rLe16_write, drop_words]
  rw [if_neg (by
    simp [List.length_append, ofNat_toNat hcount, R_SERVICE_LATENCY_BLOCK_WIRE_LEN]
    omega)]

/-! ### The encodings are injective -/

theorem ofNat_inj {m n : Nat} (hm : m ≤ 0xffff) (hn : n ≤ 0xffff)
    (h : UInt16.ofNat m = UInt16.ofNat n) : m = n := by
  rw [← ofNat_toNat hm, ← ofNat_toNat hn, h]

theorem labelTlv_inj {label label' : Option Bytes} (hvalid : ValidLabel label)
    (hvalid' : ValidLabel label') (h : labelTlv label = labelTlv label') : label = label' := by
  have hnone : ∀ {bytes : Bytes}, ValidLabel (some bytes) → labelTlv (some bytes) ≠ [] := by
    intro bytes hbytes hempty
    have hlen := congrArg List.length hempty
    rw [labelTlv, if_neg hbytes.2.2, length_metricsLabelTlv] at hlen
    simp at hlen
  cases label with
  | none =>
    cases label' with
    | none => rfl
    | some bytes' => exact absurd h.symm (hnone hvalid')
  | some bytes =>
    cases label' with
    | none => exact absurd h (hnone hvalid)
    | some bytes' =>
      rw [labelTlv, labelTlv, if_neg hvalid.2.2, if_neg hvalid'.2.2] at h
      obtain ⟨-, -, hlen, hbytes⟩ := metricsLabelTlv_fields bytes hvalid.2.1
      obtain ⟨-, -, hlen', hbytes'⟩ := metricsLabelTlv_fields bytes' hvalid'.2.1
      rw [h, hlen'] at hlen
      rw [← hbytes, ← hbytes', h, hlen]

theorem rBuildRateRequestBody_inj {resources resources' : List RResourceRequest}
    {guards guards' : List RLatencyGuard} {label label' : Option Bytes} {outCap outCap' : Nat}
    {body : Bytes} (hvalid : ValidLabel label) (hvalid' : ValidLabel label')
    (h : rBuildRateRequestBody resources guards label outCap = .ok body)
    (h' : rBuildRateRequestBody resources' guards' label' outCap' = .ok body) :
    guards = guards' ∧ resources = resources' ∧ label = label' := by
  obtain ⟨hguards, hresources, hbody⟩ := rBuildRateRequestBody_ok h
  obtain ⟨hguards', hresources', hbody'⟩ := rBuildRateRequestBody_ok h'
  have hguardCount : guards.length = guards'.length := by
    apply ofNat_inj hguards hguards'
    rw [← rLe16_write (UInt16.ofNat guards.length), ← hbody, hbody', rLe16_write]
  have hresourceCount : resources.length = resources'.length := by
    apply ofNat_inj hresources hresources'
    rw [← rLe16_second _ (UInt16.ofNat resources.length), ← hbody, hbody', rLe16_second]
  have hblocks := congrArg (List.drop 4) (hbody.symm.trans hbody')
  rw [drop_words, drop_words] at hblocks
  obtain ⟨rfl, hrest⟩ := guardCodec.encodeAll_append_inj hguardCount hblocks
  obtain ⟨rfl, hlabel⟩ := resourceCodec.encodeAll_append_inj hresourceCount hrest
  exact ⟨rfl, rfl, labelTlv_inj hvalid hvalid' hlabel⟩

theorem rBuildLatencyReportBody_inj {reports reports' : List RServiceLatencyReport}
    {outCap outCap' : Nat} {body : Bytes} (h : rBuildLatencyReportBody reports outCap = .ok body)
    (h' : rBuildLatencyReportBody reports' outCap' = .ok body) : reports = reports' := by
  obtain ⟨hcount, hbody⟩ := rBuildLatencyReportBody_ok h
  obtain ⟨hcount', hbody'⟩ := rBuildLatencyReportBody_ok h'
  have hlen : reports.length = reports'.length := by
    apply ofNat_inj hcount hcount'
    rw [← rLe16_write (UInt16.ofNat reports.length), ← hbody, hbody', rLe16_write]
  have hblocks := congrArg (List.drop 4) (hbody.symm.trans hbody')
  rw [drop_words, drop_words, ← List.append_nil (reportCodec.encodeAll reports),
    ← List.append_nil (reportCodec.encodeAll reports')] at hblocks
  exact (reportCodec.encodeAll_append_inj hlen hblocks).1

/-! ### Lossless encodings -/

def encodeRequest (guards : List RLatencyGuard) (resources : List RResourceRequest)
    (label : Option Bytes) (dedupTtlMs : UInt32) (bodyCap pduCap : Nat) :
    Except RClientError Bytes :=
  match rBuildRateRequestBody resources guards label bodyCap with
  | .error rc => .error rc
  | .ok body => rBuildRateRequestPdu dedupTtlMs body pduCap

def encodeReports (reports : List RServiceLatencyReport) (bodyCap pduCap : Nat) :
    Except RClientError Bytes :=
  match rBuildLatencyReportBody reports bodyCap with
  | .error rc => .error rc
  | .ok body => rBuildPdu R_PDU_LATENCY_REPORT body pduCap

theorem encodeRequest_ok {guards : List RLatencyGuard} {resources : List RResourceRequest}
    {label : Option Bytes} {ttl : UInt32} {bodyCap pduCap : Nat} {pdu : Bytes}
    (h : encodeRequest guards resources label ttl bodyCap pduCap = .ok pdu) :
    ∃ body, rBuildRateRequestBody resources guards label bodyCap = .ok body ∧
      Framed R_PDU_RATE_REQUEST ttl body pdu := by
  unfold encodeRequest at h
  split at h
  · cases h
  · rename_i body hbody
    exact ⟨body, hbody, buildPdu_framed h⟩

theorem encodeReports_ok {reports : List RServiceLatencyReport} {bodyCap pduCap : Nat}
    {pdu : Bytes} (h : encodeReports reports bodyCap pduCap = .ok pdu) :
    ∃ body, rBuildLatencyReportBody reports bodyCap = .ok body ∧
      Framed R_PDU_LATENCY_REPORT 0 body pdu := by
  unfold encodeReports at h
  split at h
  · cases h
  · rename_i body hbody
    exact ⟨body, hbody, buildPdu_framed h⟩

/-- **Request and report encodings are lossless.** The responder accepts what the
    builders produce and recovers the counts, the blocks and the label; the label
    stands in its buffer with zeros behind it. Different requests and different
    report batches have different PDUs. -/
theorem encodings_lossless :
    (∀ guards resources label ttl bodyCap pduCap pdu request, ValidLabel label →
      encodeRequest guards resources label ttl bodyCap pduCap = .ok pdu →
      (pdu.drop 4).take 4 = rWriteLe32 ttl ∧ ∃ parsed, parseRequestPdu pdu request = .ok parsed ∧
        parsed.guardCount.toNat = guards.length ∧
        parsed.resourceCount.toNat = resources.length ∧
        parsed.label.val = labelBytes label ++ List.replicate (257 - (labelBytes label).length) 0 ∧
        (∀ i (hi : i < guards.length), readGuard (parsed.guards.drop (36 * i)) = guards[i]) ∧
        (∀ i (hi : i < resources.length),
          readResource (parsed.resources.drop (28 * i)) = resources[i])) ∧
    (∀ reports bodyCap pduCap pdu request, encodeReports reports bodyCap pduCap = .ok pdu →
      ∃ parsed, parseRequestPdu pdu request = .ok parsed ∧
        parsed.reportCount.toNat = reports.length ∧
        ∀ i (hi : i < reports.length), readReport (parsed.reports.drop (32 * i)) = reports[i]) ∧
    (∀ guards guards' resources resources' label label' ttl ttl' bodyCap bodyCap' pduCap pduCap'
        pdu, ValidLabel label → ValidLabel label' →
      encodeRequest guards resources label ttl bodyCap pduCap = .ok pdu →
      encodeRequest guards' resources' label' ttl' bodyCap' pduCap' = .ok pdu →
      guards = guards' ∧ resources = resources' ∧ label = label' ∧ ttl = ttl') ∧
    (∀ reports reports' bodyCap bodyCap' pduCap pduCap' pdu,
      encodeReports reports bodyCap pduCap = .ok pdu →
      encodeReports reports' bodyCap' pduCap' = .ok pdu → reports = reports') := by
  refine ⟨?_, ?_, ?_, ?_⟩
  · intro guards resources label ttl bodyCap pduCap pdu request hvalid hencode
    obtain ⟨body, hbody, hpdu⟩ := encodeRequest_ok hencode
    obtain ⟨hguards, hresources, -⟩ := rBuildRateRequestBody_ok hbody
    refine ⟨hpdu.word, _, parseRequestPdu_request hvalid hbody hpdu request, ofNat_toNat hguards,
      ofNat_toNat hresources, ?_, ?_, ?_⟩
    · apply val_labelBuffer
      cases label with
      | none => exact Nat.zero_le _
      | some bytes => exact hvalid.2.1
    · intro i hi
      exact guardCodec.decode_drop guards _ hi
    · intro i hi
      exact resourceCodec.decode_drop resources _ hi
  · intro reports bodyCap pduCap pdu request hencode
    obtain ⟨body, hbody, hpdu⟩ := encodeReports_ok hencode
    obtain ⟨hcount, -⟩ := rBuildLatencyReportBody_ok hbody
    refine ⟨_, parseRequestPdu_report hbody hpdu request, ofNat_toNat hcount, ?_⟩
    intro i hi
    have hblock := reportCodec.decode_drop reports [] hi
    rwa [List.append_nil] at hblock
  · intro guards guards' resources resources' label label' ttl ttl' bodyCap bodyCap' pduCap
      pduCap' pdu hvalid hvalid' hencode hencode'
    obtain ⟨body, hbody, hpdu⟩ := encodeRequest_ok hencode
    obtain ⟨body', hbody', hpdu'⟩ := encodeRequest_ok hencode'
    obtain rfl : body = body' := hpdu.body.symm.trans hpdu'.body
    obtain ⟨rfl, rfl, rfl⟩ := rBuildRateRequestBody_inj hvalid hvalid' hbody hbody'
    exact ⟨rfl, rfl, rfl, hpdu.word_eq hpdu'⟩
  · intro reports reports' bodyCap bodyCap' pduCap pduCap' pdu hencode hencode'
    obtain ⟨body, hbody, hpdu⟩ := encodeReports_ok hencode
    obtain ⟨body', hbody', hpdu'⟩ := encodeReports_ok hencode'
    obtain rfl : body = body' := hpdu.body.symm.trans hpdu'.body
    exact rBuildLatencyReportBody_inj hbody hbody'

def sampleGuard : RLatencyGuard where
  latencyTrackerId := FixedBytes.replicate 16 7
  thresholdMs := 250
  ttlMs := 60000
  maxSamples := 100
  minSampleThreshold := 5

def sampleResource : RResourceRequest where
  bucketId := FixedBytes.replicate 16 9
  windowSizeMs := 1000
  rateLimit := 300
  tokensRequested := 2

def sampleReport : RServiceLatencyReport where
  latencyTrackerId := FixedBytes.replicate 16 7
  observedLatency := 31
  ttlMs := 60000
  maxSamples := 100
  minSampleThreshold := 5

/-- A request whose label of three bytes, one of them NUL, takes three bytes of
    padding, and a batch of two reports. -/
theorem encodings_lossless_sample :
    ∃ pdu reportPdu parsed parsedReports,
      encodeRequest [sampleGuard] [sampleResource] (some [0x61, 0, 0x62]) 40 1200 1200 = .ok pdu ∧
      encodeReports [sampleReport, sampleReport] 1200 1200 = .ok reportPdu ∧
      parseRequestPdu pdu
        (RTestParsedRequest.cleared (requestHeader 1 (FixedBytes.replicate 16 0) 2))
        = .ok parsed ∧
      parseRequestPdu reportPdu
        (RTestParsedRequest.cleared (requestHeader 1 (FixedBytes.replicate 16 0) 2))
        = .ok parsedReports ∧
      readGuard parsed.guards = sampleGuard ∧ readResource parsed.resources = sampleResource ∧
      parsed.label.val.take 3 = [0x61, 0, 0x62] ∧
      readReport (parsedReports.reports.drop 32) = sampleReport := by
  obtain ⟨hrequests, hreports, -, -⟩ := encodings_lossless
  obtain ⟨pdu, hpdu⟩ : ∃ pdu, encodeRequest [sampleGuard] [sampleResource]
      (some [0x61, 0, 0x62]) 40 1200 1200 = .ok pdu := ⟨_, rfl⟩
  obtain ⟨reportPdu, hreportPdu⟩ : ∃ pdu, encodeReports [sampleReport, sampleReport] 1200 1200
      = .ok pdu := ⟨_, rfl⟩
  obtain ⟨-, parsed, hparsed, -, -, hlabel, hguard, hresource⟩ :=
    hrequests _ _ _ _ _ _ _
      (RTestParsedRequest.cleared (requestHeader 1 (FixedBytes.replicate 16 0) 2)) (by decide) hpdu
  obtain ⟨parsedReports, hparsedReports, -, hreport⟩ :=
    hreports _ _ _ _
      (RTestParsedRequest.cleared (requestHeader 1 (FixedBytes.replicate 16 0) 2)) hreportPdu
  refine ⟨pdu, reportPdu, parsed, parsedReports, hpdu, hreportPdu, hparsed, hparsedReports,
    hguard 0 (by decide), hresource 0 (by decide), ?_, hreport 1 (by decide)⟩
  rw [hlabel]
  rfl

end RlClient
