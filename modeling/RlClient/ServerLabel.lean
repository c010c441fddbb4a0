import RlClient.Dns
import RlClient.Bech32
import RlClient.Numerals

/-!
# The number in a server's name

A server's name begins with the label `s-<server_id>`. The parser accumulates the digits
in 64 bits and never looks for an overflow: it returns the number modulo `2 ^ 64`. It is
exact for the numbers that fit.
-/

namespace RlClient

def Digit (c : UInt8) : Prop := 48 ≤ c ∧ c ≤ 57

instance : DecidablePred Digit := fun c => inferInstanceAs (Decidable (48 ≤ c ∧ c ≤ 57))

def firstLabel (target : Bytes) : Bytes := target.takeWhile (· != 46)

/-- The label is `s-` and the decimal digits of `n`. -/
def Denotes (label : Bytes) (n : Nat) : Prop :=
  ∃ digits, label = asciiBytes "s-" ++ digits ∧ digits ≠ [] ∧ (∀ d ∈ digits, Digit d) ∧
    n = Radix.value 10 (digits.map fun d => d.toNat - 48)

theorem Denotes.unique {label : Bytes} {n n' : Nat} (h : Denotes label n) (h' : Denotes label n') :
    n = n' := by
  obtain ⟨digits, rfl, -, -, rfl⟩ := h
  obtain ⟨digits', hlabel, -, -, rfl⟩ := h'
  rw [List.append_cancel_left hlabel]

/-- The loop over the digits: it succeeds on digits only, with the number they extend
    the accumulator to, modulo the width. -/
theorem parseDecimal_eq_some_iff {digits : Bytes} {value id : UInt64} {n : Nat}
    (hvalue : value.toNat = n % 2 ^ 64) :
    parseDecimal digits value = some id ↔ (∀ d ∈ digits, Digit d) ∧
      id.toNat = (digits.map fun d => d.toNat - 48).foldl (fun n d => 10 * n + d) n % 2 ^ 64 := by
  induction digits generalizing value n with
  | nil =>
    simp only [parseDecimal, Option.some.injEq, List.map_nil, List.foldl_nil, List.not_mem_nil,
      false_implies, implies_true, true_and]
    rw [← hvalue, ← UInt64.toNat_inj]
    exact eq_comm
  | cons c rest ih =>
    rw [parseDecimal, List.map_cons, List.foldl_cons, List.forall_mem_cons]
    split
    · rename_i hbad
      have hnot : ¬ Digit c := by
        rintro ⟨hlow, hhigh⟩
        rw [Bool.or_eq_true, decide_eq_true_eq, decide_eq_true_eq] at hbad
        rcases hbad with hbad | hbad
        · exact UInt8.not_lt.mpr hlow hbad
        · exact UInt8.not_lt.mpr hhigh hbad
      simp [hnot]
    · rename_i hgood
      have hdigit : Digit c := by
        rw [Bool.or_eq_true, decide_eq_true_eq, decide_eq_true_eq, not_or] at hgood
        exact ⟨UInt8.not_lt.mp hgood.1, UInt8.not_lt.mp hgood.2⟩
      have hstep : (value * 10 + (c - 48).toUInt64).toNat = (10 * n + (c.toNat - 48)) % 2 ^ 64 := by
        have hsub : (c - 48).toNat = c.toNat - 48 := UInt8.toNat_sub_of_le _ _ hdigit.1
        rw [UInt64.toNat_add, UInt64.toNat_mul, UInt8.toNat_toUInt64, hsub, hvalue]
        simp only [UInt64.reduceToNat]
        omega
      rw [ih hstep]
      simp [hdigit]

/-- What the parser computes: the number modulo the width. -/
theorem rParseServerIdFromTarget_eq_some_iff {target : Bytes} {id : UInt64} :
    rParseServerIdFromTarget target = some id ↔
      ∃ n, Denotes (firstLabel target) n ∧ id.toNat = n % 2 ^ 64 := by
  have hdigits : ∀ digits, parseDecimal digits 0 = some id ↔ (∀ d ∈ digits, Digit d) ∧
      id.toNat = Radix.value 10 (digits.map fun d => d.toNat - 48) % 2 ^ 64 := by
    intro digits
    rw [parseDecimal_eq_some_iff (n := 0) rfl]
    have hfold := Radix.foldl_eq_value (b := 10) [] (digits.map fun d => d.toNat - 48)
    rw [Radix.value_nil, List.nil_append] at hfold
    rw [hfold]
  rw [rParseServerIdFromTarget, ← firstLabel]
  generalize firstLabel target = label
  constructor
  · intro h
    split at h
    · cases h
    rename_i hlength
    split at h
    · cases h
    rename_i hstart
    obtain ⟨hall, hid⟩ := (hdigits _).mp h
    refine ⟨_, ⟨label.drop 2, ?_, ?_, hall, rfl⟩, hid⟩
    · rcases label with - | ⟨s, - | ⟨dash, rest⟩⟩
      · exact absurd (by decide) hlength
      · exact absurd (by simp) hlength
      · simp only [List.getD_cons_zero, List.getD_cons_succ, Bool.or_eq_true, decide_eq_true_eq,
          not_or, not_not] at hstart
        rw [hstart.1, hstart.2]
        rfl
    · intro hnil
      exact hlength (by have := List.drop_eq_nil_iff.mp hnil; omega)
  · rintro ⟨n, ⟨digits, rfl, hne, hall, rfl⟩, hid⟩
    have hpos := List.length_pos_iff.mpr hne
    have hsplit : asciiBytes "s-" ++ digits = 115 :: 45 :: digits := rfl
    rw [hsplit]
    simp only [List.length_cons]
    rw [if_neg (by omega), if_neg (by simp)]
    exact (hdigits digits).mpr ⟨hall, hid⟩

/-- The number in the name's first label, if it has one, fits in 64 bits. -/
def NumberFits (target : Bytes) : Prop := ∀ n, Denotes (firstLabel target) n → n < 2 ^ 64

/-- **When the label grammar is met.** For every name: that it is accepted exactly when its
    first label is `s-` and the digits of a number below `2 ^ 64`, and that its id is then
    that number, holds if and only if the number in its first label, if there is one, fits;
    and names whose numbers fit and differ have different ids. -/
theorem server_id_exact (target : Bytes) :
    ((∀ id, rParseServerIdFromTarget target = some id ↔
        ∃ n, Denotes (firstLabel target) n ∧ n < 2 ^ 64 ∧ id.toNat = n) ↔ NumberFits target) ∧
    ∀ other n n' id, NumberFits target → NumberFits other → Denotes (firstLabel target) n →
      Denotes (firstLabel other) n' → rParseServerIdFromTarget target = some id →
        rParseServerIdFromTarget other = some id → n = n' := by
  have hexact : ∀ name, NumberFits name → ∀ id, rParseServerIdFromTarget name = some id ↔
      ∃ n, Denotes (firstLabel name) n ∧ n < 2 ^ 64 ∧ id.toNat = n := by
    intro name hname id
    rw [rParseServerIdFromTarget_eq_some_iff]
    constructor
    · rintro ⟨n, hdenotes, hid⟩
      have hlt := hname n hdenotes
      exact ⟨n, hdenotes, hlt, hid.trans (Nat.mod_eq_of_lt hlt)⟩
    · rintro ⟨n, hdenotes, hlt, hid⟩
      exact ⟨n, hdenotes, hid.trans (Nat.mod_eq_of_lt hlt).symm⟩
  refine ⟨⟨?_, hexact target⟩, ?_⟩
  · intro hgrammar n hdenotes
    -- the name is accepted with its number modulo the width, so the number is below it
    have haccepted := rParseServerIdFromTarget_eq_some_iff.mpr
      ⟨n, hdenotes, UInt64.toNat_ofNat (n := n)⟩
    obtain ⟨k, hk, hlt, -⟩ := (hgrammar _).mp haccepted
    rwa [hdenotes.unique hk]
  · intro other n n' id hfits hother hn hn' hid hid'
    obtain ⟨k, hk, -, rfl⟩ := (hexact target hfits id).mp hid
    obtain ⟨k', hk', -, hsame⟩ := (hexact other hother id).mp hid'
    rw [hn.unique hk, hn'.unique hk', hsame]

theorem denotes_of_all {label d : Bytes} (hlabel : label = asciiBytes "s-" ++ d)
    (hne : d ≠ []) (hall : d.all (fun c => decide (Digit c)) = true) :
    Denotes label (Radix.value 10 (d.map fun c => c.toNat - 48)) := by
  refine ⟨d, hlabel, hne, fun c hc => ?_, rfl⟩
  exact of_decide_eq_true (List.all_eq_true.mp hall c hc)

/-- The name of the largest id. -/
theorem server_id_exact_largest :
    rParseServerIdFromTarget (asciiBytes "s-18446744073709551615.example") =
      some 18446744073709551615 := by
  have hdenotes : Denotes (firstLabel (asciiBytes "s-18446744073709551615.example"))
      18446744073709551615 :=
    denotes_of_all (d := asciiBytes "18446744073709551615") (by decide) (by decide) (by decide)
  have hfits : NumberFits (asciiBytes "s-18446744073709551615.example") := by
    intro n hn
    rw [hn.unique hdenotes]
    decide
  exact ((server_id_exact _).1.mpr hfits _).mpr ⟨_, hdenotes, by decide, rfl⟩

/-- A number that does not fit is not skipped: the name of `2 ^ 64` is taken for a name
    of server 0. -/
theorem server_id_wraps :
    Denotes (firstLabel (asciiBytes "s-18446744073709551616.example")) (2 ^ 64) ∧
      Denotes (firstLabel (asciiBytes "s-0.example")) 0 ∧
      rParseServerIdFromTarget (asciiBytes "s-18446744073709551616.example") = some 0 ∧
      rParseServerIdFromTarget (asciiBytes "s-0.example") = some 0 := by
  have hlarge : Denotes (firstLabel (asciiBytes "s-18446744073709551616.example")) (2 ^ 64) :=
    denotes_of_all (d := asciiBytes "18446744073709551616") (by decide) (by decide) (by decide)
  have hzero : Denotes (firstLabel (asciiBytes "s-0.example")) 0 :=
    denotes_of_all (d := asciiBytes "0") (by decide) (by decide) (by decide)
  exact ⟨hlarge, hzero, rParseServerIdFromTarget_eq_some_iff.mpr ⟨_, hlarge, rfl⟩,
    rParseServerIdFromTarget_eq_some_iff.mpr ⟨_, hzero, rfl⟩⟩

end RlClient
