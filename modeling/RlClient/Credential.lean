import RlClient.Bech32Codec

/-!
# Credentials, written and read

A version-1 credential is the Bech32 string of a 45-byte payload: the version, the
key id, the secret and the quota word. The decoder accepts the string of every
credential whose quota word is in range, in lower case and in upper case, and
nothing else; what it returns determines the string up to its case.
-/

namespace RlClient

/-! ### Quota words -/

def rateExponent (word : UInt32) : Nat := word.toNat % 2 ^ 5
def latencyExponent (word : UInt32) : Nat := word.toNat / 2 ^ 5 % 2 ^ 5
def labelsExponent (word : UInt32) : Nat := word.toNat / 2 ^ 10 % 2 ^ 5
def bufferExponent (word : UInt32) : Nat := word.toNat / 2 ^ 15 % 2 ^ 4
def dedupUnits (word : UInt32) : Nat := word.toNat / 2 ^ 19 % 2 ^ 8
def windowExponent (word : UInt32) : Nat := word.toNat / 2 ^ 27 % 2 ^ 5

/-- The words that a credential may carry. -/
def ValidQuotaWord (word : UInt32) : Prop :=
  rateExponent word ≤ 24 ∧ latencyExponent word ≤ 24 ∧ 1 ≤ dedupUnits word ∧ dedupUnits word ≤ 200

instance : DecidablePred ValidQuotaWord := fun word =>
  inferInstanceAs (Decidable (rateExponent word ≤ 24 ∧ latencyExponent word ≤ 24 ∧
    1 ≤ dedupUnits word ∧ dedupUnits word ≤ 200))

/-- The quotas that a word denotes: powers of two, units of ten milliseconds, and a
    window exponent whose highest value means no bound. -/
def quotasOf (word : UInt32) : RBech32Quotas where
  formatVersion := 1
  rateBucketsMax := UInt32.ofNat (2 ^ rateExponent word)
  latencyServicesMax := UInt32.ofNat (2 ^ latencyExponent word)
  metricsLabelsMax := UInt32.ofNat (2 ^ labelsExponent word)
  latencyBufferSizeMax := UInt32.ofNat (2 ^ bufferExponent word)
  dedupTtlMsMax := UInt32.ofNat (10 * dedupUnits word)
  rateWindowSizeMsMax :=
    UInt32.ofNat (if windowExponent word = 31 then 2 ^ 32 - 1 else 2 ^ windowExponent word)

theorem toNat_bits (word : UInt32) (low width : Nat) (hlow : low < 32) (hwidth : width < 32) :
    ((word >>> UInt32.ofNat low) &&& UInt32.ofNat (2 ^ width - 1)).toNat =
      word.toNat / 2 ^ low % 2 ^ width := by
  have hmask : 2 ^ width - 1 < UInt32.size := by
    have hpow : 2 ^ width ≤ 2 ^ 31 := Nat.pow_le_pow_right (by decide) (by omega)
    simp only [UInt32.size]
    omega
  have hshift : (UInt32.ofNat low).toNat % 32 = low := by
    rw [UInt32.toNat_ofNat_of_lt' (by simp only [UInt32.size]; omega)]
    exact Nat.mod_eq_of_lt hlow
  rw [UInt32.toNat_and, UInt32.toNat_shiftRight, hshift, UInt32.toNat_ofNat_of_lt' hmask,
    Nat.shiftRight_eq_div_pow, Nat.and_two_pow_sub_one_eq_mod]

theorem one_shiftLeft {e : UInt32} (he : e.toNat < 32) : 1 <<< e = UInt32.ofNat (2 ^ e.toNat) := by
  apply UInt32.toNat_inj.mp
  rw [UInt32.toNat_shiftLeft, Nat.mod_eq_of_lt he, UInt32.toNat_ofNat]
  simp [Nat.shiftLeft_eq]

theorem rDecodeQuotaWord_eq (word : UInt32) :
    rDecodeQuotaWord word = if ValidQuotaWord word then some (quotasOf word) else none := by
  have hrate : (word &&& 0x1f).toNat = rateExponent word := by
    rw [UInt32.toNat_and]
    exact Nat.and_two_pow_sub_one_eq_mod word.toNat 5
  have hlatency : ((word >>> 5) &&& 0x1f).toNat = latencyExponent word :=
    toNat_bits word 5 5 (by decide) (by decide)
  have hlabels : ((word >>> 10) &&& 0x1f).toNat = labelsExponent word :=
    toNat_bits word 10 5 (by decide) (by decide)
  have hbuffer : ((word >>> 15) &&& 0x0f).toNat = bufferExponent word :=
    toNat_bits word 15 4 (by decide) (by decide)
  have hdedup : ((word >>> 19) &&& 0xff).toNat = dedupUnits word :=
    toNat_bits word 19 8 (by decide) (by decide)
  have hwindow : ((word >>> 27) &&& 0x1f).toNat = windowExponent word :=
    toNat_bits word 27 5 (by decide) (by decide)
  rw [rDecodeQuotaWord]
  generalize word &&& 0x1f = rate at hrate
  generalize (word >>> 5) &&& 0x1f = latency at hlatency
  generalize (word >>> 10) &&& 0x1f = labels at hlabels
  generalize (word >>> 15) &&& 0x0f = buffer at hbuffer
  generalize (word >>> 19) &&& 0xff = dedup at hdedup
  generalize (word >>> 27) &&& 0x1f = window at hwindow
  have hrange : (rate > 24 || latency > 24 || dedup < 1 || dedup > 200) = true ↔
      ¬ ValidQuotaWord word := by
    simp only [Bool.or_eq_true, decide_eq_true_eq, gt_iff_lt, UInt32.lt_iff_toNat_lt, hrate,
      hlatency, hdedup, ValidQuotaWord, UInt32.reduceToNat]
    omega
  by_cases hvalid : ValidQuotaWord word
  · have hcondition := mt hrange.mp (not_not_intro hvalid)
    have hlabelsLt : labelsExponent word < 2 ^ 5 := Nat.mod_lt _ (by decide)
    have hbufferLt : bufferExponent word < 2 ^ 4 := Nat.mod_lt _ (by decide)
    have hwindowLt : windowExponent word < 2 ^ 5 := Nat.mod_lt _ (by decide)
    have hunits : dedup * 10 = UInt32.ofNat (10 * dedupUnits word) := by
      have hdedupLt : dedupUnits word < 2 ^ 8 := Nat.mod_lt _ (by decide)
      apply UInt32.toNat_inj.mp
      rw [UInt32.toNat_mul, hdedup, UInt32.toNat_ofNat, Nat.mul_comm]
      rfl
    have hbound : (if window = 31 then (0xFFFFFFFF : UInt32) else 1 <<< window) =
        UInt32.ofNat
          (if windowExponent word = 31 then 2 ^ 32 - 1 else 2 ^ windowExponent word) := by
      have hmax : window = 31 ↔ windowExponent word = 31 := by
        rw [← UInt32.toNat_inj, hwindow]
        rfl
      by_cases htop : windowExponent word = 31
      · rw [if_pos (hmax.mpr htop), if_pos htop]
        rfl
      · rw [if_neg (mt hmax.mp htop), if_neg htop, one_shiftLeft (by omega), hwindow]
    have hrateLe := hvalid.1
    have hlatencyLe := hvalid.2.1
    rw [if_pos hvalid]
    simp only [hcondition, hunits, hbound, one_shiftLeft (show rate.toNat < 32 by omega),
      one_shiftLeft (show latency.toNat < 32 by omega),
      one_shiftLeft (show labels.toNat < 32 by omega),
      one_shiftLeft (show buffer.toNat < 32 by omega), hrate, hlatency, hlabels, hbuffer]
    rfl
  · simp only [hrange.mpr hvalid, if_true, hvalid, if_false]

theorem quotasOf_injective {word word' : UInt32} (h : quotasOf word = quotasOf word') :
    word = word' := by
  have hpow : ∀ m < 32, ∀ n < 32, UInt32.ofNat (2 ^ m) = UInt32.ofNat (2 ^ n) → m = n := by
    decide +kernel
  have hwindow : ∀ m < 32, ∀ n < 32, UInt32.ofNat (if m = 31 then 2 ^ 32 - 1 else 2 ^ m) =
      UInt32.ofNat (if n = 31 then 2 ^ 32 - 1 else 2 ^ n) → m = n := by
    decide +kernel
  have hsmall : ∀ (v low : Nat) {width : Nat}, width ≤ 5 → v / 2 ^ low % 2 ^ width < 32 := by
    intro v low width hwidth
    calc v / 2 ^ low % 2 ^ width
        < 2 ^ width := Nat.mod_lt _ (Nat.two_pow_pos _)
      _ ≤ 32 := Nat.pow_le_pow_right (by decide) hwidth
  have hrate : rateExponent word = rateExponent word' :=
    hpow _ (Nat.mod_lt _ (by decide)) _ (Nat.mod_lt _ (by decide))
      (congrArg RBech32Quotas.rateBucketsMax h)
  have hlatency : latencyExponent word = latencyExponent word' :=
    hpow _ (hsmall _ _ (by decide)) _ (hsmall _ _ (by decide))
      (congrArg RBech32Quotas.latencyServicesMax h)
  have hlabels : labelsExponent word = labelsExponent word' :=
    hpow _ (hsmall _ _ (by decide)) _ (hsmall _ _ (by decide))
      (congrArg RBech32Quotas.metricsLabelsMax h)
  have hbuffer : bufferExponent word = bufferExponent word' :=
    hpow _ (hsmall _ _ (by decide)) _ (hsmall _ _ (by decide))
      (congrArg RBech32Quotas.latencyBufferSizeMax h)
  have htop : windowExponent word = windowExponent word' :=
    hwindow _ (hsmall _ _ (by decide)) _ (hsmall _ _ (by decide))
      (congrArg RBech32Quotas.rateWindowSizeMsMax h)
  have hdedup : dedupUnits word = dedupUnits word' := by
    have hunits : (UInt32.ofNat (10 * dedupUnits word)).toNat =
        (UInt32.ofNat (10 * dedupUnits word')).toNat :=
      congrArg UInt32.toNat (congrArg RBech32Quotas.dedupTtlMsMax h)
    have hlt : dedupUnits word < 2 ^ 8 := Nat.mod_lt _ (by decide)
    have hlt' : dedupUnits word' < 2 ^ 8 := Nat.mod_lt _ (by decide)
    rw [UInt32.toNat_ofNat_of_lt' (by simp only [UInt32.size]; omega),
      UInt32.toNat_ofNat_of_lt' (by simp only [UInt32.size]; omega)] at hunits
    omega
  apply UInt32.toNat_inj.mp
  have hword := word.toNat_lt
  have hword' := word'.toNat_lt
  unfold rateExponent latencyExponent labelsExponent bufferExponent dedupUnits windowExponent at *
  omega

/-! ### The payload -/

def credentialPayload (keyId : UInt64) (secret : FixedBytes 32) (word : UInt32) : Bytes :=
  1 :: (rWriteLe64 keyId ++ (secret.val ++ rWriteLe32 word))

theorem length_credentialPayload (keyId : UInt64) (secret : FixedBytes 32) (word : UInt32) :
    (credentialPayload keyId secret word).length = 45 := by
  simp [credentialPayload]

theorem keyId_credentialPayload (keyId : UInt64) (secret : FixedBytes 32) (word : UInt32) :
    rLe64 (credentialPayload keyId secret word) 1 = keyId := by
  have hskip : credentialPayload keyId secret word =
      [1] ++ (rWriteLe64 keyId ++ (secret.val ++ rWriteLe32 word)) := rfl
  rw [hskip, rLe64_append (by simp)]
  exact rLe64_write keyId _

theorem secret_credentialPayload (keyId : UInt64) (secret : FixedBytes 32) (word : UInt32) :
    FixedBytes.ofSlice 32 (credentialPayload keyId secret word) 9 = secret := by
  have hskip : credentialPayload keyId secret word =
      (1 :: rWriteLe64 keyId) ++ (secret.val ++ rWriteLe32 word) := rfl
  rw [hskip, FixedBytes.ofSlice_append_right (by simp)]
  simp only [List.length_cons, length_rWriteLe64, Nat.sub_self]
  exact FixedBytes.ofSlice_val_append secret _

theorem word_credentialPayload (keyId : UInt64) (secret : FixedBytes 32) (word : UInt32) :
    rLe32 (credentialPayload keyId secret word) 41 = word := by
  have hskip : credentialPayload keyId secret word =
      (1 :: (rWriteLe64 keyId ++ secret.val)) ++ (rWriteLe32 word ++ []) := by
    simp [credentialPayload]
  rw [hskip, rLe32_append (by simp)]
  simp only [List.length_cons, List.length_append, length_rWriteLe64, FixedBytes.length_val,
    Nat.reduceAdd, Nat.sub_self]
  exact rLe32_write word []

theorem leBytes_leWordAt {n off : Nat} {buf : Bytes} (h : off + n ≤ buf.length) :
    leBytes n (leWordAt n buf off) = (buf.drop off).take n := by
  have hwritten := leBytes_leNat (FixedBytes.ofSlice n buf off).val
  rw [FixedBytes.length_val] at hwritten
  rw [leWordAt, hwritten, FixedBytes.val_ofSlice h]

/-- Every 45 bytes of version 1 are the payload of what is read from them. -/
theorem credentialPayload_read {payload : Bytes} (hlength : payload.length = 45)
    (hversion : payload.getD 0 0 = 1) :
    credentialPayload (rLe64 payload 1) (.ofSlice 32 payload 9) (rLe32 payload 41) = payload := by
  have hkey : rWriteLe64 (rLe64 payload 1) = (payload.drop 1).take 8 := by
    rw [rWriteLe64, rLe64, UInt64.toNat_ofNat_of_lt' (leWordAt_lt 8 payload 1)]
    exact leBytes_leWordAt (by omega)
  have hword : rWriteLe32 (rLe32 payload 41) = (payload.drop 41).take 4 := by
    rw [rWriteLe32, rLe32, UInt32.toNat_ofNat_of_lt' (leWordAt_lt 4 payload 41)]
    exact leBytes_leWordAt (by omega)
  have hsecret : (FixedBytes.ofSlice 32 payload 9).val = (payload.drop 9).take 32 :=
    FixedBytes.val_ofSlice (by omega)
  cases payload with
  | nil => cases hlength
  | cons version rest =>
    rw [List.getD_cons_zero] at hversion
    rw [List.length_cons] at hlength
    rw [credentialPayload, hkey, hword, hsecret, hversion, List.drop_succ_cons,
      List.drop_succ_cons, List.drop_succ_cons, List.drop_zero,
      List.take_of_length_le (l := rest.drop 40) (by rw [List.length_drop]; omega),
      show 40 = 8 + 32 by rfl, ← List.drop_drop, List.take_append_drop, List.take_append_drop]

/-! ### Credentials -/

/-- The prefix of a credential type; no credential is of the zero type. -/
def authPrefix : RAuthType → Bytes
  | .derive => []
  | .cookie => asciiBytes "rl-cookie"
  | .aesGcm => asciiBytes "rl-aes"

def encodeApiKey (authType : RAuthType) (keyId : UInt64) (secret : FixedBytes 32)
    (word : UInt32) : Bytes :=
  bech32Encode (authPrefix authType) (credentialPayload keyId secret word)

/-- A version-1 credential: one of the two types and a quota word in range. -/
structure ApiKey where
  authType : RAuthType
  keyId : UInt64
  secret : FixedBytes 32
  word : UInt32
  typed : authType ≠ .derive
  inRange : ValidQuotaWord word

namespace ApiKey

def encode (key : ApiKey) : Bytes := encodeApiKey key.authType key.keyId key.secret key.word

def store (key : ApiKey) (out : DecodeOut cap) : DecodeOut cap where
  authType := key.authType
  keyId := key.keyId
  secret := storeSecret key.secret out.secret
  secretLen := 32
  quotas := out.quotas.map fun _ => quotasOf key.word

end ApiKey

theorem hrpAuthType_eq_some_iff {hrp : Bytes} {authType : RAuthType} :
    hrpAuthType hrp = some authType ↔ authType ≠ .derive ∧ hrp = authPrefix authType := by
  have hdiffer : asciiBytes "rl-aes" ≠ asciiBytes "rl-cookie" := by decide
  rw [hrpAuthType]
  constructor
  · intro h
    split at h
    · obtain rfl := Option.some.inj h
      exact ⟨by decide, ‹_›⟩
    · split at h
      · obtain rfl := Option.some.inj h
        exact ⟨by decide, ‹_›⟩
      · cases h
  · rintro ⟨htyped, rfl⟩
    cases authType with
    | derive => exact absurd rfl htyped
    | cookie => exact if_pos rfl
    | aesGcm => rw [authPrefix, if_neg hdiffer, if_pos rfl]

/-- What the decoder has written when it comes to the quota word. -/
def storedOutputs (authType : RAuthType) (keyId : UInt64) (secret : FixedBytes 32)
    (out : DecodeOut cap) : DecodeOut cap where
  authType := authType
  keyId := keyId
  secret := storeSecret secret out.secret
  secretLen := 32
  quotas := out.quotas

/-- A payload behind its string is decoded, or rejected for its quota word. -/
theorem rDecodeApiKeyBech32WithQuotas_of_payload {alloc : DecodeAlloc} {cap : Nat} {s : Bytes}
    {authType : RAuthType} {keyId : UInt64} {secret : FixedBytes 32} {word : UInt32}
    (htyped : authType ≠ .derive)
    (hopen : rBech32Open alloc s = some (authPrefix authType, credentialPayload keyId secret word))
    (hcap : 32 ≤ cap) (out : DecodeOut cap) :
    rDecodeApiKeyBech32WithQuotas alloc s out =
      if ValidQuotaWord word then
        (0, { storedOutputs authType keyId secret out with
          quotas := out.quotas.map fun _ => quotasOf word })
      else (-1, storedOutputs authType keyId secret out) := by
  have htype := hrpAuthType_eq_some_iff.mpr ⟨htyped, rfl⟩
  have hlength := length_credentialPayload keyId secret word
  have hkeyId := keyId_credentialPayload keyId secret word
  have hsecret := secret_credentialPayload keyId secret word
  have hword := word_credentialPayload keyId secret word
  have hexact : ¬ (credentialPayload keyId secret word).length ≠ R_CREDENTIAL_PAYLOAD_LEN :=
    not_not_intro hlength
  have hversion : ¬ (credentialPayload keyId secret word).getD 0 0 ≠ R_CREDENTIAL_FORMAT_VERSION :=
    not_not_intro rfl
  have hroom : ¬ R_CREDENTIAL_SECRET_LEN > cap := Nat.not_lt.mpr hcap
  have hwhole : ¬ (credentialPayload keyId secret word).length <
      R_CREDENTIAL_QUOTA_OFFSET + R_CREDENTIAL_QUOTA_LEN := by
    rw [hlength]
    decide
  generalize credentialPayload keyId secret word = payload at *
  rw [rDecodeApiKeyBech32WithQuotas, hopen]
  simp only [htype]
  rw [if_neg hexact, if_neg hversion, if_neg hroom, if_neg hwhole]
  have hread : rDecodeQuotaWord (rLe32 payload R_CREDENTIAL_QUOTA_OFFSET) =
      if ValidQuotaWord word then some (quotasOf word) else none := by
    rw [← rDecodeQuotaWord_eq, ← hword]
    rfl
  rw [hread]
  simp only [R_CREDENTIAL_KEY_ID_OFFSET, R_CREDENTIAL_SECRET_OFFSET, R_CREDENTIAL_VERSION_LEN,
    R_CREDENTIAL_KEY_ID_LEN, R_CREDENTIAL_SECRET_LEN, Nat.reduceAdd, hkeyId, hsecret]
  by_cases hvalid : ValidQuotaWord word
  · rw [if_pos hvalid, if_pos hvalid]
    rfl
  · rw [if_neg hvalid, if_neg hvalid]
    rfl

/-- A string is rejected with nothing written, or it carries a payload. -/
theorem rDecodeApiKeyBech32WithQuotas_cases (alloc : DecodeAlloc) (cap : Nat) (s : Bytes) :
    (∀ out : DecodeOut cap, rDecodeApiKeyBech32WithQuotas alloc s out = (-1, out)) ∨
      (32 ≤ cap ∧ ∃ authType keyId secret word, authType ≠ .derive ∧
        rBech32Open alloc s = some (authPrefix authType, credentialPayload keyId secret word)) := by
  unfold rDecodeApiKeyBech32WithQuotas
  split
  · exact .inl fun _ => rfl
  rename_i hrp payload hopen
  split
  · exact .inl fun _ => rfl
  rename_i authType htype
  split
  · exact .inl fun _ => rfl
  rename_i hlength
  split
  · exact .inl fun _ => rfl
  rename_i hversion
  split
  · exact .inl fun _ => rfl
  rename_i hroom
  obtain ⟨htyped, rfl⟩ := hrpAuthType_eq_some_iff.mp htype
  have hpayload := credentialPayload_read (not_not.mp hlength) (not_not.mp hversion)
  refine .inr ⟨Nat.not_lt.mp hroom, authType, rLe64 payload 1, .ofSlice 32 payload 9,
    rLe32 payload 41, htyped, ?_⟩
  rw [hpayload]
  exact hopen

/-- A credential behind its string is decoded. -/
theorem rDecodeApiKeyBech32WithQuotas_of_open {cap : Nat} {s : Bytes} (key : ApiKey)
    (hopen : rBech32Open .granted s =
      some (authPrefix key.authType, credentialPayload key.keyId key.secret key.word))
    (hcap : 32 ≤ cap) (out : DecodeOut cap) :
    rDecodeApiKeyBech32WithQuotas .granted s out = (0, key.store out) := by
  rw [rDecodeApiKeyBech32WithQuotas_of_payload key.typed hopen hcap, if_pos key.inRange]
  rfl

/-- Whatever the decoder accepts is the string of a credential. -/
theorem open_of_rDecodeApiKeyBech32WithQuotas {cap : Nat} {s : Bytes} {out : DecodeOut cap}
    (hdecode : (rDecodeApiKeyBech32WithQuotas .granted s out).1 = 0) :
    32 ≤ cap ∧ ∃ key : ApiKey, rBech32Open .granted s =
      some (authPrefix key.authType, credentialPayload key.keyId key.secret key.word) := by
  rcases rDecodeApiKeyBech32WithQuotas_cases .granted cap s with
    hearly | ⟨hcap, authType, keyId, secret, word, htyped, hopen⟩
  · rw [hearly] at hdecode
    cases hdecode
  · rw [rDecodeApiKeyBech32WithQuotas_of_payload htyped hopen hcap] at hdecode
    split at hdecode
    · rename_i hinRange
      exact ⟨hcap, ⟨authType, keyId, secret, word, htyped, hinRange⟩, hopen⟩
    · cases hdecode

/-! ### Upper and lower case -/

theorem toLower_of_not_upper {c : UInt8} (h : isUpper c = false) : toLower c = c := by
  simp [toLower, h]

theorem caseFold_byte : ∀ c : UInt8, (isLower c = false → toUpper (toLower c) = c) ∧
    (isUpper c = false → toLower (toUpper c) = c) ∧ (Printable c → Printable (toUpper c)) ∧
    isLower (toUpper c) = false :=
  forall_byte (by decide +kernel)

theorem toUpper_toLower (c : UInt8) : isLower c = false → toUpper (toLower c) = c :=
  (caseFold_byte c).1

theorem toLower_toUpper (c : UInt8) : isUpper c = false → toLower (toUpper c) = c :=
  (caseFold_byte c).2.1

theorem printable_toUpper (c : UInt8) : Printable c → Printable (toUpper c) :=
  (caseFold_byte c).2.2.1

theorem isLower_toUpper (c : UInt8) : isLower (toUpper c) = false := (caseFold_byte c).2.2.2

theorem map_congr_id {s : Bytes} {f : UInt8 → UInt8} (h : ∀ c ∈ s, f c = c) : s.map f = s := by
  conv_rhs => rw [← List.map_id s]
  exact List.map_congr_left h

/-- The strings of one case that fold to a lower case text are the text itself and
    its upper case form. -/
theorem oneCase_folded_iff {s text : Bytes}
    (htext : ∀ c ∈ text, Printable c ∧ isUpper c = false) :
    OneCase s ∧ s.map toLower = text ↔ s = text ∨ s = text.map toUpper := by
  constructor
  · rintro ⟨hcase, rfl⟩
    rcases hcase.oneCase with hlower | hupper
    · right
      rw [List.map_map]
      exact (map_congr_id (fun c hc => toUpper_toLower c (hlower c hc))).symm
    · left
      exact (map_congr_id (fun c hc => toLower_of_not_upper (hupper c hc))).symm
  · rintro (rfl | rfl)
    · exact ⟨⟨fun c hc => (htext c hc).1, .inr fun c hc => (htext c hc).2⟩,
        map_congr_id (fun c hc => toLower_of_not_upper (htext c hc).2)⟩
    · refine ⟨⟨?_, .inl ?_⟩, ?_⟩
      · intro c hc
        obtain ⟨b, hb, rfl⟩ := List.mem_map.mp hc
        exact printable_toUpper b (htext b hb).1
      · intro c hc
        obtain ⟨b, hb, rfl⟩ := List.mem_map.mp hc
        exact isLower_toUpper b
      · rw [List.map_map]
        exact map_congr_id (fun c hc => toLower_toUpper c (htext c hc).2)

theorem bech32Char_text {symbol : UInt8} (hsymbol : symbol.toNat < 32) :
    Printable (bech32Char symbol) ∧ isUpper (bech32Char symbol) = false := by
  have hall : ∀ n < 32, Printable (bech32Char (UInt8.ofNat n)) ∧
      isUpper (bech32Char (UInt8.ofNat n)) = false := by
    decide
  have hthis := hall symbol.toNat hsymbol
  rwa [UInt8.ofNat_toNat] at hthis

theorem authPrefix_text (authType : RAuthType) :
    ∀ c ∈ authPrefix authType, Printable c ∧ isUpper c = false := by
  cases authType <;> decide +kernel

theorem encodeApiKey_text (authType : RAuthType) (keyId : UInt64) (secret : FixedBytes 32)
    (word : UInt32) :
    ∀ c ∈ encodeApiKey authType keyId secret word, Printable c ∧ isUpper c = false := by
  intro c hc
  rcases List.mem_append.mp hc with hc | hc
  · exact authPrefix_text authType c hc
  rcases List.mem_cons.mp hc with rfl | hc
  · decide
  · obtain ⟨symbol, hsymbol, rfl⟩ := List.mem_map.mp hc
    exact bech32Char_text (encodedSymbols_lt _ _ symbol hsymbol)

theorem authPrefix_ne_nil {authType : RAuthType} (htyped : authType ≠ .derive) :
    authPrefix authType ≠ [] := by
  cases authType with
  | derive => exact absurd rfl htyped
  | cookie => decide
  | aesGcm => decide

/-- The strings that carry a payload are its lower and its upper case form, whatever its
    quota word. -/
theorem rBech32Open_encodeApiKey_iff {s : Bytes} {authType : RAuthType}
    (htyped : authType ≠ .derive) (keyId : UInt64) (secret : FixedBytes 32) (word : UInt32) :
    rBech32Open .granted s = some (authPrefix authType, credentialPayload keyId secret word) ↔
      s = encodeApiKey authType keyId secret word ∨
        s = (encodeApiKey authType keyId secret word).map toUpper := by
  rw [← oneCase_folded_iff (encodeApiKey_text authType keyId secret word)]
  constructor
  · intro hopen
    obtain ⟨hcase, -, hfolded⟩ := encode_of_rBech32Open hopen
    exact ⟨hcase, hfolded⟩
  · rintro ⟨hcase, hfolded⟩
    exact rBech32Open_of_encode hcase (authPrefix_ne_nil htyped) hfolded

theorem ApiKey.open_iff {s : Bytes} (key : ApiKey) :
    rBech32Open .granted s =
        some (authPrefix key.authType, credentialPayload key.keyId key.secret key.word) ↔
      s = key.encode ∨ s = key.encode.map toUpper :=
  rBech32Open_encodeApiKey_iff key.typed key.keyId key.secret key.word

theorem storeSecret_front {cap : Nat} (secret : FixedBytes 32) (hcap : 32 ≤ cap)
    (buffer : FixedBytes cap) :
    FixedBytes.ofSlice 32 (storeSecret secret buffer).val 0 = secret := by
  have hlength : (secret.val ++ buffer.val.drop R_CREDENTIAL_SECRET_LEN).length = cap := by
    rw [List.length_append, List.length_drop, FixedBytes.length_val, FixedBytes.length_val,
      R_CREDENTIAL_SECRET_LEN]
    omega
  have hval : (storeSecret secret buffer).val =
      secret.val ++ buffer.val.drop R_CREDENTIAL_SECRET_LEN := by
    unfold storeSecret
    rw [FixedBytes.val_ofSlice (by omega), List.drop_zero, List.take_of_length_le (by omega)]
  rw [hval]
  exact FixedBytes.ofSlice_val_append secret _

theorem storeSecret_whole (secret buffer : FixedBytes 32) : storeSecret secret buffer = secret :=
  FixedBytes.ofSlice_val_append secret _

/-! ### The callers -/

/-- `r_client_parse_auth_key` clears its output before it decodes and fills it only
    at the end. -/
theorem rClientParseAuthKey_cleared {alloc : DecodeAlloc} {s : Bytes} {info : RAuthKeyInfo}
    (h : (rClientParseAuthKey alloc (some s) info).1 ≠ .ok) :
    rClientParseAuthKey alloc (some s) info = (.errConfig, .zero) := by
  rw [rClientParseAuthKey] at h ⊢
  simp only at h ⊢
  split at h
  · rw [if_pos ‹_›]
  · rename_i hrc
    rw [if_neg hrc]
    split at h
    · rw [if_pos ‹_›]
    · exact absurd rfl h

theorem rClientParseAuthKey_rejected {alloc : DecodeAlloc} {s : Bytes} {info : RAuthKeyInfo}
    (h : (rDecodeApiKeyBech32WithQuotas alloc s (.cleared 32)).1 ≠ 0) :
    rClientParseAuthKey alloc (some s) info = (.errConfig, .zero) := by
  rw [rClientParseAuthKey]
  simp only
  rw [if_pos h]

def ApiKey.decoded (key : ApiKey) : DecodedKey :=
  ⟨key.authType, key.keyId, key.secret, quotasOf key.word⟩

/-- A client is configured with the key that its string opens to; the buffer for the
    secret is larger than the secret. -/
theorem ApiKey.configuredKey_of_open (key : ApiKey) {s : Bytes}
    (hopen : rBech32Open .granted s =
      some (authPrefix key.authType, credentialPayload key.keyId key.secret key.word)) :
    configuredKey .granted s = some key.decoded := by
  rw [configuredKey, rDecodeApiKeyBech32WithQuotas_of_open key hopen (by decide)]
  simp only [ApiKey.store, storeSecret_front key.secret (show 32 ≤ 64 by decide)]
  rfl

/-! ### The decoder is the exact inverse of the encoder -/

def ApiKey.returned (key : ApiKey) (out : DecodeOut 32) : DecodeOut 32 where
  authType := key.authType
  keyId := key.keyId
  secret := key.secret
  secretLen := 32
  quotas := out.quotas.map fun _ => quotasOf key.word

theorem ApiKey.decode {key : ApiKey} {s : Bytes} (hs : s = key.encode ∨ s = key.encode.map toUpper)
    (out : DecodeOut 32) :
    rDecodeApiKeyBech32WithQuotas .granted s out = (0, key.returned out) := by
  rw [rDecodeApiKeyBech32WithQuotas_of_open key (key.open_iff.mpr hs) (Nat.le_refl 32),
    ApiKey.store, storeSecret_whole]
  rfl

theorem accepted_iff {s : Bytes} {out : DecodeOut 32} :
    (rDecodeApiKeyBech32WithQuotas .granted s out).1 = 0 ↔
      ∃ key : ApiKey, s = key.encode ∨ s = key.encode.map toUpper := by
  constructor
  · intro hdecode
    obtain ⟨-, key, hopen⟩ := open_of_rDecodeApiKeyBech32WithQuotas hdecode
    exact ⟨key, key.open_iff.mp hopen⟩
  · rintro ⟨key, hs⟩
    rw [key.decode hs]

/-- What is returned determines the string of the credential. -/
theorem ApiKey.encode_of_returned {key key' : ApiKey} {out : DecodeOut 32}
    (hquotas : out.quotas.isSome = true) (h : key.returned out = key'.returned out) :
    key.encode = key'.encode := by
  obtain ⟨quotas, hsome⟩ := Option.isSome_iff_exists.mp hquotas
  have htype : key.authType = key'.authType := congrArg DecodeOut.authType h
  have hkeyId : key.keyId = key'.keyId := congrArg DecodeOut.keyId h
  have hsecret : key.secret = key'.secret := congrArg DecodeOut.secret h
  have hword : key.word = key'.word := by
    have hdenoted := congrArg DecodeOut.quotas h
    simp only [returned, hsome, Option.map_some, Option.some.injEq] at hdenoted
    exact quotasOf_injective hdenoted
  rw [encode, encode, htype, hkeyId, hsecret, hword]

theorem ApiKey.encode_folded {key : ApiKey} {s : Bytes}
    (hs : s = key.encode ∨ s = key.encode.map toUpper) : s.map toLower = key.encode :=
  ((oneCase_folded_iff (encodeApiKey_text key.authType key.keyId key.secret key.word)).mpr hs).2

/-- The decoder accepts exactly the lower and the upper case strings of the
    version-1 credentials and returns what they encode; the returned values
    determine the lower case string, and a rejected string leaves nothing in
    `r_auth_key_info_t`. -/
theorem credential_decoding_exact :
    (∀ (s : Bytes) (out : DecodeOut 32),
      (rDecodeApiKeyBech32WithQuotas .granted s out).1 = 0 ↔
        ∃ key : ApiKey, s = key.encode ∨ s = key.encode.map toUpper) ∧
    (∀ (key : ApiKey) (s : Bytes) (out : DecodeOut 32),
      s = key.encode ∨ s = key.encode.map toUpper →
        rDecodeApiKeyBech32WithQuotas .granted s out = (0, key.returned out)) ∧
    (∀ (key : ApiKey) (s : Bytes) (out : DecodeOut 32), out.quotas.isSome = true →
      rDecodeApiKeyBech32WithQuotas .granted s out = (0, key.returned out) →
        key.encode = s.map toLower) ∧
    (∀ (s t : Bytes) (out : DecodeOut 32), out.quotas.isSome = true →
      s.map toLower = s → t.map toLower = t →
      (rDecodeApiKeyBech32WithQuotas .granted s out).1 = 0 →
      rDecodeApiKeyBech32WithQuotas .granted s out =
        rDecodeApiKeyBech32WithQuotas .granted t out → s = t) ∧
    (∀ (s : Bytes) (out : DecodeOut 32) (info : RAuthKeyInfo),
      (rDecodeApiKeyBech32WithQuotas .granted s out).1 ≠ 0 →
        rClientParseAuthKey .granted (some s) info = (.errConfig, .zero)) ∧
    ∀ (alloc : DecodeAlloc) (s : Bytes) (info : RAuthKeyInfo),
      (rClientParseAuthKey alloc (some s) info).1 ≠ .ok →
        (rClientParseAuthKey alloc (some s) info).2 = .zero := by
  have hreencoded : ∀ (key : ApiKey) (s : Bytes) (out : DecodeOut 32),
      out.quotas.isSome = true →
      rDecodeApiKeyBech32WithQuotas .granted s out = (0, key.returned out) →
        key.encode = s.map toLower := by
    intro key s out hquotas hdecode
    obtain ⟨key', hs⟩ := accepted_iff.mp (congrArg Prod.fst hdecode)
    rw [key'.decode hs] at hdecode
    rw [ApiKey.encode_folded hs]
    exact ApiKey.encode_of_returned hquotas (Prod.mk.inj hdecode).2.symm
  refine ⟨fun s out => accepted_iff, fun key s out hs => key.decode hs out, hreencoded, ?_, ?_, ?_⟩
  · intro s t out hquotas hlower hlower' haccepted hsame
    obtain ⟨key, hs⟩ := accepted_iff.mp haccepted
    have hdecode := key.decode hs out
    rw [← hlower, ← hlower', ← hreencoded key s out hquotas hdecode,
      ← hreencoded key t out hquotas (hsame.symm.trans hdecode)]
  · intro s out info hrejected
    apply rClientParseAuthKey_rejected
    exact fun haccepted => hrejected (accepted_iff.mpr (accepted_iff.mp haccepted))
  · intro alloc s info hstatus
    rw [rClientParseAuthKey_cleared hstatus]

def sampleApiKey : ApiKey where
  authType := .cookie
  keyId := 1
  secret := .replicate 32 1
  word := 0x80000
  typed := by decide
  inRange := by decide

theorem credential_decoding_exact_sample :
    rDecodeApiKeyBech32WithQuotas .granted
      (asciiBytes
        "rl-cookie1qyqsqqqqqqqqqqqpqyqszqgpqyqszqgpqyqszqgpqyqszqgpqyqszqgpqyqszqgpqyqqqzqqfs0x84")
      (.cleared 32) =
      (0, ⟨.cookie, 1, .replicate 32 1, 32, some ⟨1, 1, 1, 1, 1, 10, 1⟩⟩) := by
  have hstring : asciiBytes
      "rl-cookie1qyqsqqqqqqqqqqqpqyqszqgpqyqszqgpqyqszqgpqyqszqgpqyqszqgpqyqszqgpqyqqqzqqfs0x84" =
      sampleApiKey.encode := by
    decide +kernel
  rw [credential_decoding_exact.2.1 sampleApiKey _ (.cleared 32) (.inl hstring)]
  rfl

end RlClient
