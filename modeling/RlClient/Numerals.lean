import Mathlib.Algebra.Group.Nat.Defs
import Mathlib.Data.Nat.Digits.Lemmas

/-!
# Words and digits

Natural numbers as a machine holds them: in words of a fixed width, and as digits of a
fixed number.
-/

/-!
## Arithmetic that must not wrap

A computation on machine words, run on natural numbers instead: every intermediate
result is passed through `fit`, which fails when the value does not fit its width,
and subtraction and division fail where the machine would wrap or trap. A program
written this way that always returns has no wrapping step.
-/

namespace Width

/-- The value, if it fits into `w` bits. -/
def fit (w n : Nat) : Option Nat := if n < 2 ^ w then some n else none

def sub (a b : Nat) : Option Nat := if b ≤ a then some (a - b) else none

def div (a b : Nat) : Option Nat := if b = 0 then none else some (a / b)

theorem fit_of_lt {w n : Nat} (h : n < 2 ^ w) : fit w n = some n := if_pos h

theorem sub_of_le {a b : Nat} (h : b ≤ a) : sub a b = some (a - b) := if_pos h

theorem div_of_pos {a b : Nat} (h : 0 < b) : div a b = some (a / b) := if_neg (by omega)

/-! A step that does not fail, followed by the rest of the program. -/

section Bind

variable {α : Type} (rest : Nat → Option α)

theorem fit_bind {w n : Nat} (h : n < 2 ^ w) : (fit w n).bind rest = rest n := by
  rw [fit_of_lt h, Option.bind_some]

theorem sub_bind {a b : Nat} (h : b ≤ a) : (sub a b).bind rest = rest (a - b) := by
  rw [sub_of_le h, Option.bind_some]

theorem div_bind {a b : Nat} (h : 0 < b) : (div a b).bind rest = rest (a / b) := by
  rw [div_of_pos h, Option.bind_some]

end Bind

end Width

/-!
## Positional notation of a fixed length

A list of digits to a base `b`, highest digit first, denotes a number below
`b ^ length`. With the length fixed the notation is a bijection: `digits` and
`value` are inverse to each other on digits below the base and numbers that fit.
-/

namespace Radix

variable {b : Nat}

/-- The number that digits to base `b` denote, highest digit first. -/
def value (b : Nat) (ds : List Nat) : Nat := Nat.ofDigits b ds.reverse

/-- The lowest `n` digits of a number to base `b`, highest digit first. -/
def digits (b : Nat) : Nat → Nat → List Nat
  | 0, _ => []
  | n + 1, v => digits b n (v / b) ++ [v % b]

@[simp] theorem value_nil : value b [] = 0 := rfl

theorem value_snoc (ds : List Nat) (d : Nat) : value b (ds ++ [d]) = b * value b ds + d := by
  rw [value, List.reverse_append, List.reverse_singleton, List.singleton_append, Nat.ofDigits_cons,
    Nat.add_comm]
  rfl

theorem value_lt (hb : 1 < b) {ds : List Nat} (hds : ∀ d ∈ ds, d < b) :
    value b ds < b ^ ds.length := by
  have hlt := Nat.ofDigits_lt_base_pow_length (l := ds.reverse) hb
    (fun d hd => hds d (List.mem_reverse.mp hd))
  rwa [List.length_reverse] at hlt

@[simp] theorem length_digits (n v : Nat) : (digits b n v).length = n := by
  induction n generalizing v with
  | zero => rfl
  | succ n ih => rw [digits, List.length_append, ih, List.length_singleton]

theorem digits_lt (hb : 0 < b) (n v : Nat) : ∀ d ∈ digits b n v, d < b := by
  induction n generalizing v with
  | zero =>
    intro d hd
    cases hd
  | succ n ih =>
    intro d hd
    rcases List.mem_append.mp hd with hd | hd
    · exact ih _ d hd
    · rw [List.mem_singleton.mp hd]
      exact Nat.mod_lt _ hb

theorem value_digits {n v : Nat} (hv : v < b ^ n) : value b (digits b n v) = v := by
  induction n generalizing v with
  | zero =>
    rw [Nat.pow_zero, Nat.lt_one_iff] at hv
    rw [hv]
    rfl
  | succ n ih =>
    have hdiv : v / b < b ^ n := Nat.div_lt_of_lt_mul (Nat.pow_succ' ▸ hv)
    rw [digits, value_snoc, ih hdiv]
    exact Nat.div_add_mod v b

theorem digits_value {ds : List Nat} (hds : ∀ d ∈ ds, d < b) :
    digits b ds.length (value b ds) = ds := by
  induction ds using List.reverseRecOn with
  | nil => rfl
  | append_singleton ds d ih =>
    have hd : d < b := hds d (List.mem_append_right _ List.mem_cons_self)
    have hb : 0 < b := Nat.zero_lt_of_lt hd
    rw [value_snoc, List.length_append, List.length_singleton, digits,
      Nat.mul_add_div hb, Nat.div_eq_of_lt hd, Nat.add_zero, Nat.mul_add_mod, Nat.mod_eq_of_lt hd,
      ih (fun e he => hds e (List.mem_append_left _ he))]

theorem value_inj {ds es : List Nat} (hds : ∀ d ∈ ds, d < b) (hes : ∀ e ∈ es, e < b)
    (hlength : ds.length = es.length) (hvalue : value b ds = value b es) : ds = es := by
  rw [← digits_value hds, hlength, hvalue, digits_value hes]

theorem value_append (ds es : List Nat) :
    value b (ds ++ es) = b ^ es.length * value b ds + value b es := by
  rw [value, List.reverse_append, Nat.ofDigits_append, List.length_reverse, Nat.add_comm]
  rfl

theorem value_replicate_zero (n : Nat) : value b (List.replicate n 0) = 0 := by
  induction n with
  | zero => rfl
  | succ n ih => rw [List.replicate_succ', value_snoc, ih, Nat.mul_zero]

/-- A digit to the base `b ^ k` is `k` digits to the base `b`. -/
theorem value_flatMap_digits {k : Nat} {ds : List Nat} (hds : ∀ d ∈ ds, d < b ^ k) :
    value b (ds.flatMap (digits b k)) = value (b ^ k) ds := by
  induction ds using List.reverseRecOn with
  | nil => rfl
  | append_singleton ds d ih =>
    have hd : d < b ^ k := hds d (List.mem_append_right _ List.mem_cons_self)
    rw [List.flatMap_append, List.flatMap_singleton, value_append, length_digits, value_digits hd,
      value_snoc, ih (fun e he => hds e (List.mem_append_left _ he))]

theorem foldl_eq_value (ds es : List Nat) :
    es.foldl (fun n d => b * n + d) (value b ds) = value b (ds ++ es) := by
  induction es generalizing ds with
  | nil => rw [List.append_nil]; rfl
  | cons e es ih =>
    rw [List.foldl_cons, ← value_snoc, ih, List.append_assoc, List.singleton_append]

end Radix
