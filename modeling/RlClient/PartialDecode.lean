import RlClient.Credential

/-!
# What a rejected credential leaves behind

The decoder stores the secret, the type, the key id and the length before it looks at the
quota word, the last thing that can be wrong with a credential. A credential that is
rejected for its quota word alone has been handed out all the same; whatever is rejected
for another reason leaves the outputs as they were.
-/

namespace RlClient

/-- `r_decode_api_key_bech32`: there is no cell for the quotas. -/
def rDecodeApiKeyBech32 (alloc : DecodeAlloc) (encoded : Bytes) (out : DecodeOut cap) :
    Int × DecodeOut cap :=
  rDecodeApiKeyBech32WithQuotas alloc encoded { out with quotas := none }

/-- The string of a credential that is in order but for its quota word. -/
def Misquoted (encoded : Bytes) : Prop :=
  ∃ authType keyId secret word, authType ≠ .derive ∧ ¬ ValidQuotaWord word ∧
    (encoded = encodeApiKey authType keyId secret word ∨
      encoded = (encodeApiKey authType keyId secret word).map toUpper)

/-- Every one of the four buffers is needed to open a string. -/
theorem granted_of_rBech32Open {alloc : DecodeAlloc} {encoded : Bytes} {opened : Bytes × Bytes}
    (h : rBech32Open alloc encoded = some opened) : alloc = .granted := by
  obtain ⟨copy, data, values, payload⟩ := alloc
  unfold rBech32Open at h
  split at h
  · cases h
  split at h
  · cases h
  split at h
  · cases h
  split at h
  · cases h
  rename_i hcopy
  simp only at h
  split at h
  · cases h
  split at h
  · cases h
  split at h
  · cases h
  split at h
  · cases h
  rename_i hdata
  split at h
  · cases h
  split at h
  · cases h
  rename_i hchecksum
  split at h
  · cases h
  rename_i hpayload
  simp only [Bool.not_eq_true', Bool.not_eq_false, rBech32VerifyChecksum,
    Bool.and_eq_true] at hcopy hdata hchecksum hpayload
  rw [hcopy, hdata, hchecksum.1, hpayload]
  rfl

theorem Misquoted.stored {cap : Nat} {encoded : Bytes} (h : Misquoted encoded) (hcap : 32 ≤ cap) :
    ∃ authType keyId secret, ∀ out : DecodeOut cap,
      rDecodeApiKeyBech32WithQuotas .granted encoded out =
        (-1, storedOutputs authType keyId secret out) := by
  obtain ⟨authType, keyId, secret, word, htyped, hinvalid, hencoded⟩ := h
  have hopen := (rBech32Open_encodeApiKey_iff htyped keyId secret word).mpr hencoded
  refine ⟨authType, keyId, secret, fun out => ?_⟩
  rw [rDecodeApiKeyBech32WithQuotas_of_payload htyped hopen hcap, if_neg hinvalid]

/-- Whatever else is rejected leaves the outputs alone. -/
theorem unchanged_or_misquoted {alloc : DecodeAlloc} {cap : Nat} {encoded : Bytes}
    {out : DecodeOut cap} (hrejected : (rDecodeApiKeyBech32WithQuotas alloc encoded out).1 ≠ 0) :
    (rDecodeApiKeyBech32WithQuotas alloc encoded out).2 = out ∨
      (alloc = .granted ∧ 32 ≤ cap ∧ Misquoted encoded) := by
  rcases rDecodeApiKeyBech32WithQuotas_cases alloc cap encoded with
    hearly | ⟨hcap, authType, keyId, secret, word, htyped, hopen⟩
  · left
    rw [hearly]
  · right
    obtain rfl := granted_of_rBech32Open hopen
    refine ⟨rfl, hcap, authType, keyId, secret, word, htyped, ?_,
      (rBech32Open_encodeApiKey_iff htyped keyId secret word).mp hopen⟩
    intro hvalid
    rw [rDecodeApiKeyBech32WithQuotas_of_payload htyped hopen hcap, if_pos hvalid] at hrejected
    exact hrejected rfl

/-- **When decoding is all-or-nothing.** For every string, every outcome of the
    allocations and every capacity: a rejection leaves all outputs as they were, whatever
    they were, unless the string is that of a credential with a quota word out of range,
    every allocation succeeds and the buffer has room for the secret. This holds of both
    entry points. -/
theorem decoding_all_or_nothing (alloc : DecodeAlloc) (cap : Nat) (encoded : Bytes) :
    ((∀ out : DecodeOut cap, (rDecodeApiKeyBech32WithQuotas alloc encoded out).1 ≠ 0 →
        (rDecodeApiKeyBech32WithQuotas alloc encoded out).2 = out) ↔
      ¬ (alloc = .granted ∧ 32 ≤ cap ∧ Misquoted encoded)) ∧
    ((∀ out : DecodeOut cap, (rDecodeApiKeyBech32 alloc encoded out).1 ≠ 0 →
        (rDecodeApiKeyBech32 alloc encoded out).2 = { out with quotas := none }) ↔
      ¬ (alloc = .granted ∧ 32 ≤ cap ∧ Misquoted encoded)) := by
  have hwrites : alloc = .granted ∧ 32 ≤ cap ∧ Misquoted encoded → ∀ quotas,
      ∃ out : DecodeOut cap, out.quotas = quotas ∧
        (rDecodeApiKeyBech32WithQuotas alloc encoded out).1 ≠ 0 ∧
        (rDecodeApiKeyBech32WithQuotas alloc encoded out).2 ≠ out := by
    rintro ⟨rfl, hcap, hmisquoted⟩ quotas
    obtain ⟨authType, keyId, secret, hstored⟩ := hmisquoted.stored hcap
    -- the length that is written is 32, so outputs with length 0 are changed
    refine ⟨{ DecodeOut.cleared cap with quotas := quotas }, rfl, ?_⟩
    rw [hstored]
    refine ⟨by simp, fun hsame => ?_⟩
    exact absurd (congrArg DecodeOut.secretLen hsame) (by simp [storedOutputs, DecodeOut.cleared])
  refine ⟨⟨?_, ?_⟩, ⟨?_, ?_⟩⟩
  · intro hall hbad
    obtain ⟨out, -, hrejected, hchanged⟩ := hwrites hbad (some .zero)
    exact hchanged (hall out hrejected)
  · intro hgood out hrejected
    exact (unchanged_or_misquoted hrejected).resolve_right hgood
  · intro hall hbad
    obtain ⟨out, hnone, hrejected, hchanged⟩ := hwrites hbad none
    have hsame : { out with quotas := none } = out := by
      rw [← hnone]
    have hunchanged := hall out
    rw [rDecodeApiKeyBech32, hsame] at hunchanged
    exact hchanged (hunchanged hrejected)
  · intro hgood out hrejected
    exact (unchanged_or_misquoted hrejected).resolve_right hgood

/-- One of the published invalid vectors, the one with the dedup code 0. -/
def invalidDedupCode0 : Bytes :=
  asciiBytes "rl-aes1qyysqqqqqqqqqqqfpyysjzgfpyysjzgfpyysjzgfpyysjzgfpyysjzgfpyysjzgfpyqqqqqqurys6m"

/-- It is rejected, and its secret stands in the caller's buffer. -/
theorem decoding_leaves_secret :
    (rDecodeApiKeyBech32WithQuotas .granted invalidDedupCode0 (.cleared 32)).1 = -1 ∧
      (rDecodeApiKeyBech32WithQuotas .granted invalidDedupCode0 (.cleared 32)).2.secret =
        .replicate 32 9 ∧
      (DecodeOut.cleared 32).secret = .replicate 32 0 := by
  decide +kernel

end RlClient
