import RlClient.Bech32Codec

/-!
# Regrouping, bit by bit

A credential is written as 5-bit groups and read as bytes. `Regroups` says what this is on
the level of bits: the bits of the groups are the bits of the bytes and fewer than five zero
bits behind them. The loop keeps only twelve bits of what it has read; `convertUnmasked` is
the same loop with an accumulator that keeps them all.
-/

namespace RlClient

def bitsOf (width : Nat) (symbols : Bytes) : List Nat :=
  (symbols.map UInt8.toNat).flatMap (Radix.digits 2 width)

/-- The groups are the bits of the bytes in fives, the last group filled up with zeros. -/
def Regroups (groups bytes : Bytes) : Prop :=
  (∀ group ∈ groups, group.toNat < 32) ∧
    ∃ pad < 5, bitsOf 5 groups = bitsOf 8 bytes ++ List.replicate pad 0

/-! ### Bits and numbers -/

theorem length_bitsOf (width : Nat) (symbols : Bytes) :
    (bitsOf width symbols).length = width * symbols.length := by
  induction symbols with
  | nil => rfl
  | cons symbol symbols ih =>
    rw [bitsOf, List.map_cons, List.flatMap_cons, List.length_append, Radix.length_digits,
      List.length_cons, Nat.mul_succ, Nat.add_comm]
    exact congrArg (· + width) ih

theorem value_bitsOf {width : Nat} {symbols : Bytes} (h : ∀ d ∈ symbols, d.toNat < 2 ^ width) :
    Radix.value 2 (bitsOf width symbols) = symbolsValue (2 ^ width) symbols := by
  refine Radix.value_flatMap_digits fun d hd => ?_
  obtain ⟨symbol, hsymbol, rfl⟩ := List.mem_map.mp hd
  exact h symbol hsymbol

theorem bitsOf_lt (width : Nat) (symbols : Bytes) : ∀ bit ∈ bitsOf width symbols, bit < 2 := by
  intro bit hbit
  obtain ⟨symbol, -, hmem⟩ := List.mem_flatMap.mp hbit
  exact Radix.digits_lt (by decide) width symbol bit hmem

/-- The bits of the bytes with zeros behind them, as a number. -/
theorem value_bitsOf_append (bytes : Bytes) (pad : Nat) :
    Radix.value 2 (bitsOf 8 bytes ++ List.replicate pad 0) = symbolsValue 256 bytes * 2 ^ pad := by
  rw [Radix.value_append, List.length_replicate, Radix.value_replicate_zero, Nat.add_zero,
    value_bitsOf (byte_lt bytes), Nat.mul_comm]
  rfl

theorem regroups_iff {groups bytes : Bytes} : Regroups groups bytes ↔ groups = groups5 bytes := by
  constructor
  · rintro ⟨hgroups, pad, hpad, hbits⟩
    have hlength := congrArg List.length hbits
    rw [length_bitsOf, List.length_append, length_bitsOf, List.length_replicate] at hlength
    have hvalue := congrArg (Radix.value 2) hbits
    rw [value_bitsOf hgroups, value_bitsOf_append] at hvalue
    have hcount : (8 * bytes.length + 4) / 5 = groups.length := by omega
    have hrest : 5 * groups.length - 8 * bytes.length = pad := by omega
    show groups = symbolsOf 32 ((8 * bytes.length + 4) / 5)
      (symbolsValue 256 bytes * 2 ^ (5 * ((8 * bytes.length + 4) / 5) - 8 * bytes.length))
    rw [hcount, hrest, ← hvalue]
    exact (symbolsOf_symbolsValue hgroups).symm
  · rintro rfl
    have hgroups := groups5_lt bytes
    refine ⟨hgroups, 5 * ((8 * bytes.length + 4) / 5) - 8 * bytes.length, by omega, ?_⟩
    refine Radix.value_inj (bitsOf_lt 5 _) ?_ ?_ ?_
    · intro bit hbit
      rcases List.mem_append.mp hbit with hbyte | hzero
      · exact bitsOf_lt 8 bytes bit hbyte
      · rw [List.eq_of_mem_replicate hzero]
        decide
    · rw [length_bitsOf, List.length_append, length_bitsOf, List.length_replicate, length_groups5]
      omega
    · rw [value_bitsOf hgroups, value_bitsOf_append]
      exact symbolsValue_groups5 bytes

/-! ### The loop that keeps every bit -/

/-- The inner loop on an accumulator that is a number. -/
def drainUnmasked (acc outCap : Nat) : Nat → Bytes → Option (Nat × Bytes)
  | bits + 8, out =>
      if out.length ≥ outCap then none
      else drainUnmasked acc outCap bits (out ++ [UInt8.ofNat (acc / 2 ^ bits % 256)])
  | bits, out => some (bits, out)

/-- The outer loop; nothing that has been read is dropped. -/
def convertUnmaskedLoop (outCap : Nat) : Bytes → Nat → Nat → Bytes → Option (Nat × Nat × Bytes)
  | [], acc, bits, out => some (acc, bits, out)
  | value :: rest, acc, bits, out =>
      if 32 ≤ value.toNat then none
      else
        match drainUnmasked (32 * acc + value.toNat) outCap (bits + 5) out with
        | none => none
        | some (bits, out) => convertUnmaskedLoop outCap rest (32 * acc + value.toNat) bits out

def convertUnmasked (input : Bytes) (outCap : Nat) : Option Bytes :=
  match convertUnmaskedLoop outCap input 0 0 [] with
  | none => none
  | some (acc, bits, out) =>
      if 5 ≤ bits then none else if acc % 2 ^ bits ≠ 0 then none else some out

theorem drainUnmasked_short {acc cap bits : Nat} {out : Bytes} (hbits : bits < 8) :
    drainUnmasked acc cap bits out = some (bits, out) := by
  unfold drainUnmasked
  split
  · omega
  · rfl

/-- The two inner loops take the same bytes out, and leave less than a byte. -/
theorem drainBits_eq_unmasked {acc : UInt32} {v bits : Nat} (cap : Nat) (out : Bytes)
    (hacc : acc.toNat = v % 2 ^ 12) (hbits : bits ≤ 12) :
    drainBits acc cap bits out = drainUnmasked v cap bits out ∧
      ∀ bits' out', drainUnmasked v cap bits out = some (bits', out') → bits' < 8 := by
  by_cases hshort : bits < 8
  · rw [drainBits_short hshort, drainUnmasked_short hshort]
    refine ⟨rfl, fun bits' out' h => ?_⟩
    rw [← (Prod.mk.inj (Option.some.inj h)).1]
    exact hshort
  · obtain ⟨left, rfl⟩ : ∃ left, bits = left + 8 := ⟨bits - 8, by omega⟩
    rw [drainBits, drainUnmasked]
    by_cases hfull : out.length ≥ cap
    · rw [if_pos hfull, if_pos hfull]
      exact ⟨rfl, fun bits' out' h => absurd h (by simp)⟩
    · rw [if_neg hfull, if_neg hfull, drainBits_short (by omega), drainUnmasked_short (by omega),
        drained_byte (by omega) hacc]
      refine ⟨rfl, fun bits' out' h => ?_⟩
      rw [← (Prod.mk.inj (Option.some.inj h)).1]
      omega

/-- The two outer loops go on or give up together, and the accumulator of the one is the
    lowest twelve bits of the other's. -/
theorem convertBitsLoop_unmasked (cap : Nat) (rest : Bytes) {acc : UInt32} {v bits : Nat}
    (out : Bytes) (hacc : acc.toNat = v % 2 ^ 12) (hbits : bits < 8) :
    (convertBitsLoop cap rest acc bits out = none ∧
        convertUnmaskedLoop cap rest v bits out = none) ∨
      ∃ acc' v' bits' out', convertBitsLoop cap rest acc bits out = some (acc', bits', out') ∧
        convertUnmaskedLoop cap rest v bits out = some (v', bits', out') ∧
        acc'.toNat = v' % 2 ^ 12 := by
  induction rest generalizing acc v bits out with
  | nil => exact Or.inr ⟨acc, v, bits, out, rfl, rfl, hacc⟩
  | cons value rest ih =>
    rw [convertBitsLoop, convertUnmaskedLoop, notFiveBits]
    by_cases hfive : 32 ≤ value.toNat
    · rw [if_pos (decide_eq_true hfive), if_pos hfive]
      exact Or.inl ⟨rfl, rfl⟩
    rw [if_neg (by simpa using hfive), if_neg hfive]
    have hnext : (((acc <<< 5) ||| value.toUInt32) &&& 0x0FFF).toNat =
        (32 * v + value.toNat) % 2 ^ 12 := by
      have hkept : acc.toNat < 2 ^ 12 := by
        rw [hacc]
        exact Nat.mod_lt _ (by decide)
      rw [toNat_pushGroup hkept (Nat.not_le.mp hfive), hacc]
      omega
    obtain ⟨hdrain, hleft⟩ := drainBits_eq_unmasked cap out hnext (show bits + 5 ≤ 12 by omega)
    simp only [hdrain]
    cases hunmasked : drainUnmasked (32 * v + value.toNat) cap (bits + 5) out with
    | none => exact Or.inl ⟨rfl, rfl⟩
    | some taken =>
      obtain ⟨bits', out'⟩ := taken
      exact ih out' hnext (hleft bits' out' hunmasked)

/-- **The mask drops nothing.** -/
theorem rConvertBits5To8NoPad_eq_unmasked (input : Bytes) (cap : Nat) :
    rConvertBits5To8NoPad input cap = convertUnmasked input cap := by
  rw [rConvertBits5To8NoPad, convertUnmasked]
  have hstart : (0 : UInt32).toNat = 0 % 2 ^ 12 := rfl
  rcases convertBitsLoop_unmasked cap input [] hstart (show 0 < 8 by decide) with
    ⟨hnone, hnone'⟩ | ⟨acc, v, bits, out, hsome, hsome', hacc⟩
  · rw [hnone, hnone']
  · rw [hsome, hsome']
    by_cases hbits : 5 ≤ bits
    · simp only [ge_iff_le, hbits, if_true]
    · simp only [ge_iff_le, hbits, if_false, leftover_zero (Nat.not_le.mp hbits) hacc,
        decide_eq_true_eq]

/-- A loop that reaches its end has met groups of five bits only. -/
theorem fiveBits_of_convertUnmaskedLoop {cap : Nat} {rest : Bytes} {v bits : Nat} {out : Bytes}
    {result : Nat × Nat × Bytes} (h : convertUnmaskedLoop cap rest v bits out = some result) :
    ∀ group ∈ rest, group.toNat < 32 := by
  induction rest generalizing v bits out with
  | nil => exact fun group hgroup => nomatch hgroup
  | cons value rest ih =>
    rw [convertUnmaskedLoop] at h
    split at h
    · cases h
    rename_i hfive
    split at h
    · cases h
    · intro group hgroup
      rcases List.mem_cons.mp hgroup with rfl | hlater
      · exact Nat.not_le.mp hfive
      · exact ih h group hlater

/-- **Exact regrouping.** For every list of groups: with room for the whole bytes of its bits,
    and so with the room its caller makes, the regrouping succeeds exactly when every group
    has five bits and the groups are those of some byte string, and delivers that byte string,
    of which there is only one; every byte string has such groups; and with any room the
    result is that of the loop that keeps every bit. -/
theorem regrouping_exact (groups : Bytes) :
    (∀ cap bytes, 5 * groups.length / 8 ≤ cap →
      (rConvertBits5To8NoPad groups cap = some bytes ↔ Regroups groups bytes)) ∧
    (∀ bytes, rConvertBits5To8NoPad groups (groups.length * 5 / 8 + 2) = some bytes ↔
      Regroups groups bytes) ∧
    (∀ bytes bytes', Regroups groups bytes → Regroups groups bytes' → bytes = bytes') ∧
    (∀ bytes, ∃ written, Regroups written bytes) ∧
    ∀ cap, rConvertBits5To8NoPad groups cap = convertUnmasked groups cap := by
  have hexact : ∀ cap bytes, 5 * groups.length / 8 ≤ cap →
      (rConvertBits5To8NoPad groups cap = some bytes ↔ Regroups groups bytes) := by
    intro cap bytes hcap
    by_cases hgroups : ∀ group ∈ groups, group.toNat < 32
    · rw [regroups_iff]
      exact rConvertBits5To8NoPad_eq_some_iff hgroups hcap
    · refine iff_of_false (fun hsome => hgroups ?_) fun hregroups => hgroups hregroups.1
      rw [rConvertBits5To8NoPad_eq_unmasked, convertUnmasked] at hsome
      split at hsome
      · cases hsome
      · exact fiveBits_of_convertUnmaskedLoop ‹_›
  refine ⟨hexact, fun bytes => hexact _ bytes (by omega), ?_, ?_, ?_⟩
  · intro bytes bytes' h h'
    have hresult := (hexact _ bytes (Nat.le_refl _)).mpr h
    have hresult' := (hexact _ bytes' (Nat.le_refl _)).mpr h'
    exact Option.some.inj (hresult.symm.trans hresult')
  · intro bytes
    exact ⟨groups5 bytes, regroups_iff.mpr rfl⟩
  · exact rConvertBits5To8NoPad_eq_unmasked groups

end RlClient
