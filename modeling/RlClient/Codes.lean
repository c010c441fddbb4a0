import Mathlib.Tactic.TypeStar
import Mathlib.Algebra.Notation.Defs

/-!
# Blocks and checksums

Two ways to lay out symbols so that a reader can rely on them: records in blocks of one
size, and a check over the symbols that the last of them settle.
-/

/-!
## Arrays of fixed-size blocks

A `BlockCodec` writes a record as a block of `n` symbols and reads it back from
the front of whatever follows. An array is the concatenation of its blocks: block
`i` is found by its offset alone, and the array is determined by the symbols once
its length is known.
-/

/-- An encoding of `α` in blocks of `n` symbols, with its inverse. -/
structure BlockCodec (β α : Type*) (n : Nat) where
  encode : α → List β
  decode : List β → α
  length_encode : ∀ a, (encode a).length = n
  decode_encode : ∀ a rest, decode (encode a ++ rest) = a

namespace BlockCodec

variable {β α : Type*} {n : Nat} (c : BlockCodec β α n)

def encodeAll (xs : List α) : List β := xs.flatMap c.encode

@[simp] theorem encodeAll_nil : c.encodeAll [] = [] := rfl

@[simp] theorem encodeAll_cons (x : α) (xs : List α) :
    c.encodeAll (x :: xs) = c.encode x ++ c.encodeAll xs := rfl

@[simp] theorem length_encodeAll (xs : List α) : (c.encodeAll xs).length = n * xs.length := by
  induction xs with
  | nil => rfl
  | cons x xs ih => simp [ih, c.length_encode, Nat.mul_add, Nat.add_comm]

/-- Skipping `i` blocks leaves the blocks of the rest. -/
theorem drop_encodeAll (xs : List α) (rest : List β) {i : Nat} (hi : i ≤ xs.length) :
    (c.encodeAll xs ++ rest).drop (n * i) = c.encodeAll (xs.drop i) ++ rest := by
  have hlen : n * i = (c.encodeAll (xs.take i)).length := by
    rw [length_encodeAll, List.length_take, Nat.min_eq_left hi]
  have hsplit : c.encodeAll xs = c.encodeAll (xs.take i) ++ c.encodeAll (xs.drop i) := by
    rw [encodeAll, encodeAll, encodeAll, ← List.flatMap_append, List.take_append_drop]
  rw [hsplit, List.append_assoc, hlen, List.drop_left]

/-- The block at offset `n * i` is the `i`-th record. -/
theorem decode_drop (xs : List α) (rest : List β) {i : Nat} (hi : i < xs.length) :
    c.decode ((c.encodeAll xs ++ rest).drop (n * i)) = xs[i] := by
  rw [drop_encodeAll c xs rest (Nat.le_of_lt hi), List.drop_eq_getElem_cons hi, encodeAll_cons,
    List.append_assoc, decode_encode]

/-- A block in the middle of an array, as the symbols at its offset. -/
theorem take_drop (xs : List α) (rest : List β) {i : Nat} (hi : i < xs.length) :
    ((c.encodeAll xs ++ rest).drop (n * i)).take n = c.encode xs[i] := by
  rw [drop_encodeAll c xs rest (Nat.le_of_lt hi), List.drop_eq_getElem_cons hi, encodeAll_cons,
    List.append_assoc]
  exact List.take_left' (c.length_encode _)

/-- A loop that writes block `i` for every index writes the array. -/
theorem flatMap_range (xs : List α) {f : Nat → List β}
    (hf : ∀ i (hi : i < xs.length), f i = c.encode xs[i]) :
    (List.range xs.length).flatMap f = c.encodeAll xs := by
  induction xs generalizing f with
  | nil => rfl
  | cons x xs ih =>
    have hrest : (List.range xs.length).flatMap (fun i => f (i + 1)) = c.encodeAll xs := by
      apply ih
      intro i hi
      exact hf (i + 1) (by simpa using hi)
    rw [List.length_cons, List.range_succ_eq_map, List.flatMap_cons, List.flatMap_map, hrest,
      encodeAll_cons, hf 0 (by simp)]
    rfl

/-- Arrays of one length with the same symbols are equal, and so is what follows. -/
theorem encodeAll_append_inj {xs ys : List α} {r r' : List β} (hlen : xs.length = ys.length)
    (heq : c.encodeAll xs ++ r = c.encodeAll ys ++ r') : xs = ys ∧ r = r' := by
  constructor
  · apply List.ext_getElem hlen
    intro i hleft hright
    rw [← c.decode_drop xs r hleft, ← c.decode_drop ys r' hright, heq]
  · have hdrop := congrArg (List.drop (n * xs.length)) heq
    rw [c.drop_encodeAll xs r (Nat.le_refl _), hlen, c.drop_encodeAll ys r' (Nat.le_refl _),
      ← hlen, List.drop_length, hlen, List.drop_length] at hdrop
    simpa using hdrop

end BlockCodec

/-!
## Linear checksum registers

A register that is stepped by one symbol at a time is linear when a step commutes
with exclusive or. What the last symbols of an input contribute can then be
separated from what came before: the register after the symbols is the register
after as many zero symbols, changed by what they leave in an empty register. Such
a check is met by exactly one value of the last symbols' contribution.
-/

namespace Register

variable {σ ν : Type*} [XorOp σ] [Zero σ] [XorOp ν] [Zero ν]

/-- A step commutes with exclusive or, whose unit is zero. -/
structure Linear (step : σ → ν → σ) : Prop where
  step_xor : ∀ s t u v, step (s ^^^ t) (u ^^^ v) = step s u ^^^ step t v
  xor_zero : ∀ s : σ, s ^^^ 0 = s
  zero_xor : ∀ v : ν, 0 ^^^ v = v

variable {step : σ → ν → σ}

theorem Linear.foldl_eq (hlinear : Linear step) (s t : σ) (vs : List ν) :
    vs.foldl step (s ^^^ t) =
      (List.replicate vs.length 0).foldl step s ^^^ vs.foldl step t := by
  induction vs generalizing s t with
  | nil => rfl
  | cons v vs ih =>
    have hstep : step (s ^^^ t) v = step s 0 ^^^ step t v := by
      rw [← hlinear.step_xor, hlinear.zero_xor]
    rw [List.foldl_cons, hstep, ih, List.length_cons, List.replicate_succ, List.foldl_cons,
      List.foldl_cons]

theorem Linear.foldl_split (hlinear : Linear step) (s : σ) (vs : List ν) :
    vs.foldl step s = (List.replicate vs.length 0).foldl step s ^^^ vs.foldl step 0 := by
  rw [← hlinear.foldl_eq, hlinear.xor_zero]

/-! ### Bursts

Two inputs that differ in a few adjacent symbols only leave the same register behind
only if they are equal: the register tells apart what a burst leaves in it, and no
symbol behind the burst lets it forget. -/

/-- A linear register that holds `k` symbols, with the states `I` and the symbols `V`. -/
structure Detects (step : σ → ν → σ) (I : σ → Prop) (V : ν → Prop) (k : Nat) : Prop
    extends Linear step where
  xor_cancel : ∀ a b c : σ, a ^^^ b = a ^^^ c → b = c
  keep : ∀ s v, I s → V v → I (step s v)
  forgetsNothing : ∀ s t v, I s → I t → V v → step s v = step t v → s = t
  hold : ∀ us vs : List ν, (∀ u ∈ us, V u) → (∀ v ∈ vs, V v) → us.length = vs.length →
    us.length ≤ k → us.foldl step 0 = vs.foldl step 0 → us = vs

variable {I : σ → Prop} {V : ν → Prop} {k : Nat}

theorem Detects.foldl_keep (h : Detects step I V k) {s : σ} (hs : I s) {vs : List ν}
    (hvs : ∀ v ∈ vs, V v) : I (vs.foldl step s) := by
  induction vs generalizing s with
  | nil => exact hs
  | cons v vs ih =>
    exact ih (h.keep s v hs (hvs v List.mem_cons_self)) fun w hw =>
      hvs w (List.mem_cons_of_mem _ hw)

theorem Detects.foldl_inj (h : Detects step I V k) {s t : σ} (hs : I s) (ht : I t) {vs : List ν}
    (hvs : ∀ v ∈ vs, V v) (heq : vs.foldl step s = vs.foldl step t) : s = t := by
  induction vs generalizing s t with
  | nil => exact heq
  | cons v vs ih =>
    have hv := hvs v List.mem_cons_self
    have hstep := ih (h.keep s v hs hv) (h.keep t v ht hv)
      (fun w hw => hvs w (List.mem_cons_of_mem _ hw)) heq
    exact h.forgetsNothing s t v hs ht hv hstep

/-- **A burst of up to `k` symbols is seen.** -/
theorem Detects.burst (h : Detects step I V k) {s : σ} (hs : I s) {front us vs back : List ν}
    (hfront : ∀ v ∈ front, V v) (hus : ∀ u ∈ us, V u) (hvs : ∀ v ∈ vs, V v)
    (hback : ∀ v ∈ back, V v) (hlength : us.length = vs.length) (hshort : us.length ≤ k)
    (heq : (front ++ (us ++ back)).foldl step s = (front ++ (vs ++ back)).foldl step s) :
    us = vs := by
  rw [List.foldl_append, List.foldl_append, List.foldl_append, List.foldl_append] at heq
  have hreached := h.foldl_keep hs hfront
  generalize front.foldl step s = reached at hreached heq
  have hleft := h.foldl_inj (h.foldl_keep hreached hus) (h.foldl_keep hreached hvs) hback heq
  rw [h.foldl_split reached us, h.foldl_split reached vs, hlength] at hleft
  exact h.hold us vs hus hvs hlength hshort (h.xor_cancel _ _ _ hleft)

end Register
