import RlClient.Horizon
import RlClient.ServerLabel
import RlClient.Workflow

/-!
# Numbers from the environment

`runtime_parse_u64` of `src/r_client_runtime.c` reads a decimal number that must not
exceed a limit. Its guard compares with the quotient and the remainder of the limit before
each step; it lets a digit pass exactly when the number with that digit is still within
the limit. The request policy that the environment describes is built from two such
numbers.
-/

namespace RlClient

/-- The loop of `runtime_parse_u64`. -/
def parseU64Loop (maximum : UInt64) : Bytes → UInt64 → Option UInt64
  | [], parsed => some parsed
  | c :: rest, parsed =>
      if c < 48 || c > 57 then none
      else
        let digit := (c - 48).toUInt64
        if parsed > maximum / 10 || (parsed == maximum / 10 && digit > maximum % 10) then none
        else parseU64Loop maximum rest (parsed * 10 + digit)

/-- `runtime_parse_u64`: the status and `*out_value`. The text is absent when its pointer
    is null. -/
def runtimeParseU64 (text : Option Bytes) (maximum outValue : UInt64) : RClientError × UInt64 :=
  match text with
  | none => (.errConfig, outValue)
  | some text =>
      if text = [] then (.errConfig, outValue)
      else
        match parseU64Loop maximum text 0 with
        | none => (.errConfig, outValue)
        | some parsed => (.ok, parsed)

/-- The part of `r_runtime_options_from_env` that builds the request policy, from the two
    texts as they stand in the environment; an empty text counts as absent. -/
def requestPolicyFromEnv (unitText replayText : Option Bytes) :
    Except RClientError (Option RRequestPolicy) :=
  if !nameGiven unitText && !nameGiven replayText then .ok none
  else
    let unit := runtimeParseU64 unitText UINT64_MAX 0
    let replay := runtimeParseU64 replayText R_CLIENT_HA_MAX_REPLAY_COUNT.toUInt64 0
    if nameGiven unitText && (unit.1 ≠ .ok || unit.2 = 0) then .error .errConfig
    else if nameGiven replayText && replay.1 ≠ .ok then .error .errConfig
    else
      .ok (some
        { rClientDefaultRequestPolicy with
          unitMs := if nameGiven unitText then unit.2 else rClientDefaultRequestPolicy.unitMs
          replayCount :=
            if nameGiven replayText then replay.2.toUInt32
            else rClientDefaultRequestPolicy.replayCount })

/-! ### The guard -/

def decimalValue (text : Bytes) : Nat := Radix.value 10 (text.map fun d => d.toNat - 48)

def IsDecimal (text : Bytes) : Prop := text ≠ [] ∧ ∀ d ∈ text, Digit d

instance : DecidablePred IsDecimal := fun text =>
  decidable_of_iff (text ≠ [] ∧ text.all (fun d => decide (Digit d)) = true)
    (and_congr_right fun _ => by simp only [List.all_eq_true, decide_eq_true_eq])

/-- A number only grows as digits follow. -/
theorem le_foldl_digits (digits : List Nat) (n : Nat) :
    n ≤ digits.foldl (fun n d => 10 * n + d) n := by
  induction digits generalizing n with
  | nil => exact Nat.le_refl n
  | cons d rest ih =>
    have hstep := ih (10 * n + d)
    rw [List.foldl_cons]
    omega

theorem guard_iff (maximum parsed digit : UInt64) (hdigit : digit.toNat ≤ 9) :
    (parsed > maximum / 10 || (parsed == maximum / 10 && digit > maximum % 10)) = true ↔
      maximum.toNat < 10 * parsed.toNat + digit.toNat := by
  have hquotient : (maximum / 10).toNat = maximum.toNat / 10 := UInt64.toNat_div _ _
  have hremainder : (maximum % 10).toNat = maximum.toNat % 10 := UInt64.toNat_mod _ _
  rw [Bool.or_eq_true, Bool.and_eq_true, decide_eq_true_eq, beq_iff_eq, decide_eq_true_eq,
    gt_iff_lt, gt_iff_lt, UInt64.lt_iff_toNat_lt, UInt64.lt_iff_toNat_lt, ← UInt64.toNat_inj,
    hquotient, hremainder]
  omega

theorem digit_toNat {c : UInt8} (hc : Digit c) :
    (c - 48).toUInt64.toNat = c.toNat - 48 ∧ (c - 48).toUInt64.toNat ≤ 9 := by
  have hsub : (c - 48).toNat = c.toNat - 48 := UInt8.toNat_sub_of_le _ _ hc.1
  have hhigh : c.toNat ≤ 57 := UInt8.le_iff_toNat_le.mp hc.2
  rw [UInt8.toNat_toUInt64, hsub]
  omega

theorem notDigit_iff (c : UInt8) : (c < 48 || c > 57) = true ↔ ¬ Digit c := by
  rw [Bool.or_eq_true, decide_eq_true_eq, decide_eq_true_eq, Digit, not_and_or, UInt8.not_le,
    UInt8.not_le]

/-- The sum that a digit that passes leads to, without a wrap. -/
theorem step_toNat {maximum parsed digit : UInt64}
    (hfits : 10 * parsed.toNat + digit.toNat ≤ maximum.toNat) :
    (parsed * 10 + digit).toNat = 10 * parsed.toNat + digit.toNat := by
  have hmax := maximum.toNat_lt
  rw [UInt64.toNat_add, UInt64.toNat_mul]
  simp only [UInt64.reduceToNat]
  omega

/-- The loop: all characters are digits and the number stays within the limit. -/
theorem parseU64Loop_eq_some_iff {maximum parsed v : UInt64} {text : Bytes}
    (hparsed : parsed ≤ maximum) :
    parseU64Loop maximum text parsed = some v ↔ (∀ d ∈ text, Digit d) ∧
      v ≤ maximum ∧
      v.toNat = (text.map fun d => d.toNat - 48).foldl (fun n d => 10 * n + d) parsed.toNat := by
  induction text generalizing parsed with
  | nil =>
    simp only [parseU64Loop, Option.some.injEq, List.not_mem_nil, false_implies, implies_true,
      true_and, List.map_nil, List.foldl_nil, UInt64.toNat_inj]
    constructor
    · rintro rfl
      exact ⟨hparsed, rfl⟩
    · rintro ⟨-, rfl⟩
      rfl
  | cons c rest ih =>
    rw [parseU64Loop, List.map_cons, List.foldl_cons, List.forall_mem_cons]
    split
    · rename_i hbad
      have hnot := (notDigit_iff c).mp hbad
      simp [hnot]
    · rename_i hgood
      have hdigit : Digit c := not_not.mp (mt (notDigit_iff c).mpr hgood)
      obtain ⟨htoNat, hnine⟩ := digit_toNat hdigit
      simp only
      split
      · rename_i hguard
        have hlarge := (guard_iff maximum parsed _ hnine).mp hguard
        rw [htoNat] at hlarge
        -- the number has left the range and will not come back
        have hgrows := le_foldl_digits (rest.map fun d => d.toNat - 48)
          (10 * parsed.toNat + (c.toNat - 48))
        constructor
        · intro h
          cases h
        · rintro ⟨-, hle, hvalue⟩
          have := UInt64.le_iff_toNat_le.mp hle
          omega
      · rename_i hguard
        have hfits := Nat.not_lt.mp (mt (guard_iff maximum parsed _ hnine).mpr hguard)
        have hstep := step_toNat hfits
        rw [ih (UInt64.le_iff_toNat_le.mpr (hstep.trans_le hfits)), hstep, htoNat]
        simp [hdigit]

/-! ### The loop without wrapping -/

/-- The loop on natural numbers, with every result checked against 64 bits. -/
def parseU64LoopExact (maximum : Nat) : Bytes → Nat → Option (Option Nat)
  | [], parsed => some (some parsed)
  | c :: rest, parsed =>
      if c < 48 || c > 57 then some none
      else do
        let digit ← Width.sub c.toNat 48
        let quotient ← Width.div maximum 10
        if parsed > quotient || (parsed == quotient && digit > maximum % 10) then some none
        else do
          let product ← Width.fit 64 (parsed * 10)
          let sum ← Width.fit 64 (product + digit)
          parseU64LoopExact maximum rest sum

theorem parseU64LoopExact_eq {maximum parsed : UInt64} (hparsed : parsed ≤ maximum)
    (text : Bytes) :
    parseU64LoopExact maximum.toNat text parsed.toNat =
      some ((parseU64Loop maximum text parsed).map UInt64.toNat) := by
  induction text generalizing parsed with
  | nil => rfl
  | cons c rest ih =>
    rw [parseU64LoopExact, parseU64Loop]
    split
    · rfl
    · rename_i hgood
      have hdigit : Digit c := not_not.mp (mt (notDigit_iff c).mpr hgood)
      obtain ⟨htoNat, hnine⟩ := digit_toNat hdigit
      have hlow : 48 ≤ c.toNat := UInt8.le_iff_toNat_le.mp hdigit.1
      have hiff := guard_iff maximum parsed _ hnine
      have hmax := maximum.toNat_lt
      rw [htoNat] at hiff
      simp only [Width.sub_of_le hlow, Width.div_of_pos (show 0 < 10 by decide),
        Option.bind_eq_bind,
        Option.bind_some]
      by_cases hlarge : maximum.toNat < 10 * parsed.toNat + (c.toNat - 48)
      · rw [if_pos (by simp; omega), if_pos (hiff.mpr hlarge)]
        rfl
      · have hfits : 10 * parsed.toNat + (c - 48).toUInt64.toNat ≤ maximum.toNat := by omega
        have hstep := step_toNat hfits
        rw [if_neg (by simp; omega), if_neg (mt hiff.mp hlarge),
          Width.fit_of_lt (show parsed.toNat * 10 < 2 ^ 64 by omega), Option.bind_some,
          Width.fit_of_lt (show parsed.toNat * 10 + (c.toNat - 48) < 2 ^ 64 by omega),
          Option.bind_some, ← ih (UInt64.le_iff_toNat_le.mpr (hstep.trans_le hfits)), hstep, htoNat,
          Nat.mul_comm parsed.toNat 10]

/-! ### The theorem -/

/-- **Bounded decimal parsing.** The parser accepts exactly the non-empty texts of digits
    whose number is at most the limit, whatever their length, and stores that number; on
    every other text it reports a configuration error and leaves the output as it was. None
    of its sums and products wraps. -/
theorem bounded_decimal_parsing (text : Bytes) (maximum outValue : UInt64) :
    runtimeParseU64 (some text) maximum outValue =
      (if IsDecimal text ∧ decimalValue text ≤ maximum.toNat then
        (.ok, UInt64.ofNat (decimalValue text))
      else (.errConfig, outValue)) ∧
    (decimalValue text ≤ maximum.toNat →
      (UInt64.ofNat (decimalValue text)).toNat = decimalValue text) ∧
    parseU64LoopExact maximum.toNat text 0 =
      some ((parseU64Loop maximum text 0).map UInt64.toNat) := by
  have hzero : (0 : UInt64) ≤ maximum := UInt64.le_iff_toNat_le.mpr (Nat.zero_le _)
  have hmax := maximum.toNat_lt
  have hfold := Radix.foldl_eq_value (b := 10) [] (text.map fun d => d.toNat - 48)
  rw [Radix.value_nil, List.nil_append, ← decimalValue] at hfold
  have hloop : ∀ v, parseU64Loop maximum text 0 = some v ↔
      (∀ d ∈ text, Digit d) ∧ v ≤ maximum ∧ v.toNat = decimalValue text := by
    intro v
    rw [parseU64Loop_eq_some_iff hzero, ← hfold]
    rfl
  have htoNat : decimalValue text ≤ maximum.toNat →
      (UInt64.ofNat (decimalValue text)).toNat = decimalValue text :=
    fun hle => UInt64.toNat_ofNat_of_lt' (Nat.lt_of_le_of_lt hle hmax)
  refine ⟨?_, htoNat, parseU64LoopExact_eq hzero text⟩
  rw [runtimeParseU64]
  by_cases hempty : text = []
  · rw [if_pos hempty, if_neg (fun h => h.1.1 hempty)]
  · rw [if_neg hempty]
    by_cases hdecimal : IsDecimal text ∧ decimalValue text ≤ maximum.toNat
    · obtain ⟨hdigits, hle⟩ := hdecimal
      have hsome : parseU64Loop maximum text 0 = some (UInt64.ofNat (decimalValue text)) :=
        (hloop _).mpr
          ⟨hdigits.2, UInt64.le_iff_toNat_le.mpr ((htoNat hle).trans_le hle), htoNat hle⟩
      rw [if_pos ⟨hdigits, hle⟩, hsome]
    · rw [if_neg hdecimal]
      cases hresult : parseU64Loop maximum text 0 with
      | none => rfl
      | some v =>
        obtain ⟨hdigits, hle, hvalue⟩ := (hloop v).mp hresult
        exact absurd ⟨⟨hempty, hdigits⟩, hvalue ▸ UInt64.le_iff_toNat_le.mp hle⟩ hdecimal

example : runtimeParseU64 (some (asciiBytes "0018446744073709551615")) UINT64_MAX 7 =
    (.ok, UINT64_MAX) := by decide

example : runtimeParseU64 (some (asciiBytes "18446744073709551616")) UINT64_MAX 7 =
    (.errConfig, 7) := by decide

/-! ### The policy from the environment -/

theorem runtimeParseU64_le {text : Option Bytes} {maximum outValue : UInt64}
    (h : (runtimeParseU64 text maximum outValue).1 = .ok) :
    (runtimeParseU64 text maximum outValue).2 ≤ maximum := by
  have hzero : (0 : UInt64) ≤ maximum := UInt64.le_iff_toNat_le.mpr (Nat.zero_le _)
  unfold runtimeParseU64 at h ⊢
  split
  · simp at h
  · simp only at h ⊢
    split
    · rename_i hempty
      simp [hempty] at h
    · rename_i hempty
      cases hresult : parseU64Loop maximum _ 0 with
      | none => simp [hempty, hresult] at h
      | some v => exact ((parseU64Loop_eq_some_iff hzero).mp hresult).2.1

/-- Every policy that the environment describes is one that the scheduler admits. -/
theorem requestPolicyFromEnv_admissible {unitText replayText : Option Bytes}
    {policy : RRequestPolicy} (h : requestPolicyFromEnv unitText replayText = .ok (some policy)) :
    policy.Admissible := by
  unfold requestPolicyFromEnv at h
  simp only at h
  split at h
  · cases h
  split at h
  · cases h
  rename_i hunit
  split at h
  · cases h
  rename_i hreplay
  obtain rfl := Option.some.inj (Except.ok.inj h)
  have hvalid : rClientDefaultRequestPolicy.replayGap.Valid := ⟨by decide, by decide, trivial⟩
  refine ⟨?_, ?_, hvalid⟩
  · simp only
    split
    · rename_i hgiven
      rw [hgiven, Bool.true_and, Bool.or_eq_true, not_or, decide_eq_true_eq, decide_eq_true_eq]
        at hunit
      exact Nat.pos_of_ne_zero fun hnone => hunit.2 (UInt64.toNat_inj.mp hnone)
    · decide
  · simp only
    split
    · rename_i hgiven
      rw [hgiven, Bool.true_and, decide_eq_true_eq, not_not] at hreplay
      have hle := UInt64.le_iff_toNat_le.mp (runtimeParseU64_le hreplay)
      have hlimit : R_CLIENT_HA_MAX_REPLAY_COUNT.toUInt64.toNat = 65535 := rfl
      rw [UInt64.toNat_toUInt32]
      omega
    · decide

end RlClient
