import Mathlib.Data.UInt
import RlClient.Bech32
import RlClient.Numerals
import RlClient.Codes

/-!
# Bech32 strings, written and read

`bech32Encode` writes a byte string behind a prefix: the bytes in 5-bit groups,
six check symbols and one character for each symbol. `rBech32Open` is its exact
inverse up to the case of the letters. The three steps are taken one by one: the
groups denote the same number as the bytes, the check symbols are the only ones
that bring the register to one, and the alphabet is a bijection.
-/

namespace RlClient

/-! ### Five-bit groups -/

def symbolsValue (base : Nat) (symbols : Bytes) : Nat :=
  Radix.value base (symbols.map UInt8.toNat)

def symbolsOf (base count v : Nat) : Bytes := (Radix.digits base count v).map UInt8.ofNat

/-- Bytes in 5-bit groups, the last group filled up with zero bits. -/
def groups5 (bytes : Bytes) : Bytes :=
  let count := (8 * bytes.length + 4) / 5
  symbolsOf 32 count (symbolsValue 256 bytes * 2 ^ (5 * count - 8 * bytes.length))

@[simp] theorem length_symbolsOf (base count v : Nat) :
    (symbolsOf base count v).length = count := by
  rw [symbolsOf, List.length_map, Radix.length_digits]

theorem map_toNat_symbolsOf {base : Nat} (hpos : 0 < base) (hbase : base ≤ 256) (count v : Nat) :
    (symbolsOf base count v).map UInt8.toNat = Radix.digits base count v := by
  rw [symbolsOf, List.map_map]
  conv_rhs => rw [← List.map_id (Radix.digits base count v)]
  apply List.map_congr_left
  intro d hd
  have hlt : d < base := Radix.digits_lt hpos count v d hd
  exact UInt8.toNat_ofNat_of_lt' (Nat.lt_of_lt_of_le hlt hbase)

theorem symbolsValue_symbolsOf {base count v : Nat} (hpos : 0 < base) (hbase : base ≤ 256)
    (hv : v < base ^ count) : symbolsValue base (symbolsOf base count v) = v := by
  rw [symbolsValue, map_toNat_symbolsOf hpos hbase, Radix.value_digits hv]

theorem symbolsOf_symbolsValue {base : Nat} {symbols : Bytes}
    (hsymbols : ∀ d ∈ symbols, d.toNat < base) :
    symbolsOf base symbols.length (symbolsValue base symbols) = symbols := by
  have hdigits : Radix.digits base symbols.length (symbolsValue base symbols) =
      symbols.map UInt8.toNat := by
    rw [symbolsValue, ← List.length_map UInt8.toNat]
    apply Radix.digits_value
    intro d hd
    obtain ⟨symbol, hmem, rfl⟩ := List.mem_map.mp hd
    exact hsymbols symbol hmem
  rw [symbolsOf, hdigits, List.map_map]
  conv_rhs => rw [← List.map_id symbols]
  apply List.map_congr_left
  intro d _
  exact UInt8.ofNat_toNat

theorem symbolsValue_lt {base : Nat} (hbase : 1 < base) {symbols : Bytes}
    (hsymbols : ∀ d ∈ symbols, d.toNat < base) :
    symbolsValue base symbols < base ^ symbols.length := by
  have hmapped : ∀ d ∈ symbols.map UInt8.toNat, d < base := by
    intro d hd
    obtain ⟨symbol, hmem, rfl⟩ := List.mem_map.mp hd
    exact hsymbols symbol hmem
  have hlt := Radix.value_lt hbase hmapped
  rwa [List.length_map] at hlt

theorem symbolsValue_snoc (base : Nat) (symbols : Bytes) (symbol : UInt8) :
    symbolsValue base (symbols ++ [symbol]) = base * symbolsValue base symbols + symbol.toNat := by
  rw [symbolsValue, List.map_append, List.map_singleton, Radix.value_snoc]
  rfl

theorem symbolsOf_lt {base : Nat} (hpos : 0 < base) (hbase : base ≤ 256) (count v : Nat) :
    ∀ d ∈ symbolsOf base count v, d.toNat < base := by
  intro d hd
  have hmem : d.toNat ∈ (symbolsOf base count v).map UInt8.toNat := List.mem_map_of_mem hd
  rw [map_toNat_symbolsOf hpos hbase] at hmem
  exact Radix.digits_lt hpos count v _ hmem

theorem byte_lt (bytes : Bytes) : ∀ d ∈ bytes, d.toNat < 256 := fun d _ => d.toNat_lt

/-- What the loop holds after some groups: the bytes and the bits that are left
    over are the number the groups denote, of which the accumulator keeps the
    lowest twelve bits. -/
structure Regrouped (groups : Bytes) (acc : UInt32) (bits : Nat) (out : Bytes) : Prop where
  length : 8 * out.length + bits = 5 * groups.length
  short : bits < 8
  acc : acc.toNat = symbolsValue 32 groups % 2 ^ 12
  out : out = symbolsOf 256 out.length (symbolsValue 32 groups / 2 ^ bits)

theorem toNat_shiftLeft_five {x : UInt32} (hx : x.toNat < 2 ^ 27) :
    (x <<< 5).toNat = 2 ^ 5 * x.toNat := by
  rw [UInt32.toNat_shiftLeft]
  simp only [UInt32.reduceToNat, Nat.shiftLeft_eq, Nat.reduceMod, Nat.reducePow]
  omega

theorem toNat_pushGroup {acc : UInt32} {value : UInt8} (hacc : acc.toNat < 2 ^ 12)
    (hvalue : value.toNat < 32) :
    (((acc <<< 5) ||| value.toUInt32) &&& 0x0FFF).toNat =
      (32 * acc.toNat + value.toNat) % 2 ^ 12 := by
  rw [UInt32.toNat_and, UInt32.toNat_or, toNat_shiftLeft_five (Nat.lt_trans hacc (by decide)),
    UInt8.toNat_toUInt32, ← Nat.two_pow_add_eq_or_of_lt hvalue]
  exact Nat.and_two_pow_sub_one_eq_mod _ 12

theorem drainBits_short {acc : UInt32} {cap bits : Nat} {out : Bytes} (hbits : bits < 8) :
    drainBits acc cap bits out = some (bits, out) := by
  unfold drainBits
  split
  · omega
  · rfl

theorem symbolsOf_succ (base count v : Nat) :
    symbolsOf base (count + 1) v = symbolsOf base count (v / base) ++ [UInt8.ofNat (v % base)] := by
  rw [symbolsOf, Radix.digits, List.map_append]
  rfl

/-- The byte that leaves the accumulator is the one the number has in its place. -/
theorem drained_byte {acc : UInt32} {bits v : Nat} (hbits : bits ≤ 4)
    (hacc : acc.toNat = v % 2 ^ 12) :
    ((acc >>> UInt32.ofNat bits) &&& 0xFF).toUInt8 = UInt8.ofNat (v / 2 ^ bits % 256) := by
  have hcount : (UInt32.ofNat bits).toNat % 32 = bits := by
    rw [UInt32.toNat_ofNat_of_lt' (by simp only [UInt32.size]; omega)]
    omega
  apply UInt8.toNat_inj.mp
  rw [UInt32.toNat_toUInt8, UInt32.toNat_and, UInt32.toNat_shiftRight, hcount, hacc,
    Nat.shiftRight_eq_div_pow]
  have hmask : (v % 2 ^ 12 / 2 ^ bits) &&& (255 : UInt32).toNat = v % 2 ^ 12 / 2 ^ bits % 2 ^ 8 :=
    Nat.and_two_pow_sub_one_eq_mod _ 8
  have hkept : v % 2 ^ 12 / 2 ^ bits % 2 ^ 8 = v / 2 ^ bits % 2 ^ 8 := by
    rw [show 12 = bits + (12 - bits) by omega, Nat.pow_add, Nat.mod_mul_right_div_self]
    exact Nat.mod_mod_of_dvd _ (Nat.pow_dvd_pow 2 (by omega))
  rw [hmask, hkept]
  simp

theorem Regrouped.step {groups : Bytes} {acc : UInt32} {bits : Nat} {out : Bytes} {cap : Nat}
    (h : Regrouped groups acc bits out) {value : UInt8} (hvalue : value.toNat < 32)
    (hcap : 5 * (groups.length + 1) / 8 ≤ cap) :
    ∃ bits' out',
      drainBits (((acc <<< 5) ||| value.toUInt32) &&& 0x0FFF) cap (bits + 5) out =
        some (bits', out') ∧
      Regrouped (groups ++ [value]) (((acc <<< 5) ||| value.toUInt32) &&& 0x0FFF) bits' out' := by
  have hbound : acc.toNat < 2 ^ 12 := by
    rw [h.acc]
    exact Nat.mod_lt _ (by decide)
  have hacc := toNat_pushGroup hbound hvalue
  generalize hnext : ((acc <<< 5) ||| value.toUInt32) &&& 0x0FFF = next at hacc
  have hvalueAll := symbolsValue_snoc 32 groups value
  have haccAll : next.toNat = symbolsValue 32 (groups ++ [value]) % 2 ^ 12 := by
    rw [hacc, hvalueAll, h.acc]
    omega
  have hlength := h.length
  have hshort := h.short
  have hdiv : symbolsValue 32 (groups ++ [value]) / 2 ^ (bits + 5) =
      symbolsValue 32 groups / 2 ^ bits := by
    rw [Nat.pow_add, Nat.mul_comm (2 ^ bits), ← Nat.div_div_eq_div_mul, hvalueAll]
    congr 1
    omega
  have hcount : (groups ++ [value]).length = groups.length + 1 := by simp
  by_cases hfull : bits + 5 < 8
  · refine ⟨bits + 5, out, drainBits_short hfull, ?_, hfull, haccAll, ?_⟩
    · omega
    · rw [hdiv]
      exact h.out
  · -- A whole byte is in the accumulator, with at most four bits behind it.
    obtain ⟨left, hleft⟩ : ∃ left, bits + 5 = left + 8 := ⟨bits - 3, by omega⟩
    have hroom : ¬ out.length ≥ cap := by omega
    refine ⟨left, out ++ [((next >>> UInt32.ofNat left) &&& 0xFF).toUInt8], ?_, ?_, ?_, haccAll, ?_⟩
    · rw [hleft, drainBits, if_neg hroom]
      exact drainBits_short (by omega)
    · rw [List.length_append, List.length_singleton]
      omega
    · omega
    · have hrest : symbolsValue 32 (groups ++ [value]) / 2 ^ left / 256 =
          symbolsValue 32 groups / 2 ^ bits := by
        rw [← hdiv, hleft, Nat.pow_add, Nat.div_div_eq_div_mul]
      rw [List.length_append, List.length_singleton, symbolsOf_succ,
        drained_byte (by omega) haccAll, hrest, ← h.out]

theorem notFiveBits {value : UInt8} : (value >>> 5 != 0) = decide (32 ≤ value.toNat) := by
  have hshift : (value >>> 5).toNat = value.toNat / 32 := by
    rw [UInt8.toNat_shiftRight]
    simp only [UInt8.reduceToNat, Nat.shiftRight_eq_div_pow]
  have hzero : value >>> 5 = 0 ↔ value.toNat < 32 := by
    rw [← UInt8.toNat_inj, hshift]
    simp only [UInt8.reduceToNat]
    omega
  by_cases hlt : value.toNat < 32
  · simp [hzero.mpr hlt, hlt]
  · have hne := mt hzero.mp hlt
    simp [hne, Nat.le_of_not_lt hlt]

theorem Regrouped.run {rest groups : Bytes} {acc : UInt32} {bits : Nat} {out : Bytes} {cap : Nat}
    (h : Regrouped groups acc bits out) (hrest : ∀ d ∈ rest, d.toNat < 32)
    (hcap : 5 * (groups.length + rest.length) / 8 ≤ cap) :
    ∃ acc' bits' out', convertBitsLoop cap rest acc bits out = some (acc', bits', out') ∧
      Regrouped (groups ++ rest) acc' bits' out' := by
  induction rest generalizing groups acc bits out with
  | nil =>
    rw [List.append_nil]
    exact ⟨acc, bits, out, rfl, h⟩
  | cons value rest ih =>
    have hvalue : value.toNat < 32 := hrest value List.mem_cons_self
    rw [List.length_cons] at hcap
    have hroom : 5 * (groups.length + 1) / 8 ≤ cap := by omega
    obtain ⟨bits', out', hdrain, hstep⟩ := h.step hvalue hroom
    obtain ⟨acc'', bits'', out'', hloop, hrun⟩ :=
      ih hstep (fun d hd => hrest d (List.mem_cons_of_mem _ hd))
        (by rw [List.length_append, List.length_singleton]; omega)
    have hfive : ¬ (value >>> 5 != 0) = true := by
      rw [notFiveBits, decide_eq_true_eq]
      omega
    refine ⟨acc'', bits'', out'', ?_, ?_⟩
    · rw [convertBitsLoop, if_neg hfive]
      simp only [hdrain]
      exact hloop
    · rw [List.append_assoc] at hrun
      exact hrun

theorem leftover_zero {acc : UInt32} {bits v : Nat} (hbits : bits < 5)
    (hacc : acc.toNat = v % 2 ^ 12) :
    (((acc <<< UInt32.ofNat (8 - bits)) &&& 0xFF) != 0) = decide (v % 2 ^ bits ≠ 0) := by
  have hcount : (UInt32.ofNat (8 - bits)).toNat % 32 = 8 - bits := by
    rw [UInt32.toNat_ofNat_of_lt' (by simp only [UInt32.size]; omega)]
    omega
  have hbound : acc.toNat * 2 ^ (8 - bits) < 2 ^ 32 := by
    have hlt : acc.toNat < 2 ^ 12 := by
      rw [hacc]
      exact Nat.mod_lt _ (by decide)
    calc acc.toNat * 2 ^ (8 - bits)
        < 2 ^ 12 * 2 ^ (8 - bits) := Nat.mul_lt_mul_of_pos_right hlt (Nat.two_pow_pos _)
      _ = 2 ^ (12 + (8 - bits)) := (Nat.pow_add 2 12 _).symm
      _ ≤ 2 ^ 32 := Nat.pow_le_pow_right (by decide) (by omega)
  have hsplit : 2 ^ 8 = 2 ^ bits * 2 ^ (8 - bits) := by
    rw [← Nat.pow_add]
    congr 1
    omega
  have hkept : v % 2 ^ 12 % 2 ^ bits = v % 2 ^ bits :=
    Nat.mod_mod_of_dvd _ (Nat.pow_dvd_pow 2 (by omega))
  have hmask : (acc.toNat * 2 ^ (8 - bits)) &&& (255 : UInt32).toNat =
      acc.toNat * 2 ^ (8 - bits) % 2 ^ 8 := Nat.and_two_pow_sub_one_eq_mod _ 8
  have hvalue : ((acc <<< UInt32.ofNat (8 - bits)) &&& 0xFF).toNat =
      v % 2 ^ bits * 2 ^ (8 - bits) := by
    rw [UInt32.toNat_and, UInt32.toNat_shiftLeft, hcount, Nat.shiftLeft_eq,
      Nat.mod_eq_of_lt hbound, hmask, hsplit, Nat.mul_mod_mul_right, hacc, hkept]
  have hzero : (acc <<< UInt32.ofNat (8 - bits)) &&& 0xFF = 0 ↔ v % 2 ^ bits = 0 := by
    rw [← UInt32.toNat_inj, hvalue]
    have hpos := Nat.two_pow_pos (8 - bits)
    constructor
    · intro hprod
      exact (Nat.mul_eq_zero.mp hprod).resolve_right (Nat.ne_of_gt hpos)
    · intro hmod
      rw [hmod, Nat.zero_mul]
      rfl
  by_cases hmod : v % 2 ^ bits = 0
  · simp [hzero.mpr hmod, hmod]
  · simp [mt hzero.mp hmod, hmod]

@[simp] theorem length_groups5 (bytes : Bytes) :
    (groups5 bytes).length = (8 * bytes.length + 4) / 5 := length_symbolsOf _ _ _

theorem groups5_lt (bytes : Bytes) : ∀ d ∈ groups5 bytes, d.toNat < 32 :=
  symbolsOf_lt (by decide) (by decide) _ _

/-- The groups of a byte string denote its number, moved up by the bits filled in. -/
theorem symbolsValue_groups5 (bytes : Bytes) :
    symbolsValue 32 (groups5 bytes) =
      symbolsValue 256 bytes * 2 ^ (5 * ((8 * bytes.length + 4) / 5) - 8 * bytes.length) := by
  have hlt : symbolsValue 256 bytes < 2 ^ (8 * bytes.length) := by
    rw [Nat.pow_mul]
    exact symbolsValue_lt (by decide) (byte_lt bytes)
  apply symbolsValue_symbolsOf (by decide) (by decide)
  calc symbolsValue 256 bytes * 2 ^ (5 * ((8 * bytes.length + 4) / 5) - 8 * bytes.length)
      < 2 ^ (8 * bytes.length) * 2 ^ (5 * ((8 * bytes.length + 4) / 5) - 8 * bytes.length) :=
        Nat.mul_lt_mul_of_pos_right hlt (Nat.two_pow_pos _)
    _ = (2 ^ 5) ^ ((8 * bytes.length + 4) / 5) := by
        rw [← Nat.pow_add, ← Nat.pow_mul]
        congr 1
        omega

/-- Regrouping undoes `groups5` and accepts nothing else. -/
theorem rConvertBits5To8NoPad_eq_some_iff {groups bytes : Bytes} {cap : Nat}
    (hgroups : ∀ d ∈ groups, d.toNat < 32) (hcap : 5 * groups.length / 8 ≤ cap) :
    rConvertBits5To8NoPad groups cap = some bytes ↔ groups = groups5 bytes := by
  have hstart : Regrouped [] 0 0 [] := ⟨rfl, by decide, rfl, rfl⟩
  have hroom : 5 * (([] : Bytes).length + groups.length) / 8 ≤ cap := by
    rwa [List.length_nil, Nat.zero_add]
  obtain ⟨acc, bits, out, hloop, hrun⟩ := hstart.run hgroups hroom
  rw [List.nil_append] at hrun
  have hlength := hrun.length
  have hshort := hrun.short
  have hquotient : symbolsValue 32 groups / 2 ^ bits < 256 ^ out.length := by
    apply Nat.div_lt_of_lt_mul
    rw [show 256 = 2 ^ 8 by rfl, ← Nat.pow_mul, ← Nat.pow_add, Nat.add_comm, hlength, Nat.pow_mul]
    exact symbolsValue_lt (by decide) hgroups
  have hout : symbolsValue 256 out = symbolsValue 32 groups / 2 ^ bits := by
    rw [hrun.out]
    exact symbolsValue_symbolsOf (by decide) (by decide) hquotient
  have hresult : rConvertBits5To8NoPad groups cap =
      if bits < 5 ∧ symbolsValue 32 groups % 2 ^ bits = 0 then some out else none := by
    rw [rConvertBits5To8NoPad, hloop]
    by_cases hbits : bits < 5
    · simp only [ge_iff_le, Nat.not_le.mpr hbits, if_false, leftover_zero hbits hrun.acc, hbits,
        true_and, decide_eq_true_eq, ite_not]
    · simp only [ge_iff_le, Nat.le_of_not_lt hbits, if_true, hbits, false_and, if_false]
  rw [hresult]
  constructor
  · intro hsome
    split at hsome
    · rename_i hgood
      obtain rfl := Option.some.inj hsome
      have hcount : (8 * out.length + 4) / 5 = groups.length := by omega
      have hbits : 5 * groups.length - 8 * out.length = bits := by omega
      have hvalue : symbolsValue 256 out * 2 ^ bits = symbolsValue 32 groups := by
        rw [hout]
        exact Nat.div_mul_cancel (Nat.dvd_of_mod_eq_zero hgood.2)
      show groups = symbolsOf 32 ((8 * out.length + 4) / 5)
        (symbolsValue 256 out * 2 ^ (5 * ((8 * out.length + 4) / 5) - 8 * out.length))
      rw [hcount, hbits, hvalue, symbolsOf_symbolsValue hgroups]
    · cases hsome
  · intro heq
    have hgroupsLength := congrArg List.length heq
    rw [length_groups5] at hgroupsLength
    have hvalue := symbolsValue_groups5 bytes
    rw [← heq] at hvalue
    -- Fewer than eight bits are left over, so there are as many bytes as were encoded.
    have hbytes : out.length = bytes.length := by omega
    have hbits : 5 * ((8 * bytes.length + 4) / 5) - 8 * bytes.length = bits := by omega
    rw [hbits] at hvalue
    have hzero : symbolsValue 32 groups % 2 ^ bits = 0 := by
      rw [hvalue]
      exact Nat.mul_mod_left _ _
    have hback : out = bytes := by
      rw [hrun.out, hvalue, Nat.mul_div_cancel _ (Nat.two_pow_pos _), hbytes]
      exact symbolsOf_symbolsValue (byte_lt bytes)
    rw [if_pos ⟨by omega, hzero⟩, hback]

/-! ### The register -/

theorem xor_and_right (a b c : UInt32) : (a ^^^ b) &&& c = (a &&& c) ^^^ (b &&& c) := by
  apply UInt32.toNat_inj.mp
  rw [UInt32.toNat_and, UInt32.toNat_xor, UInt32.toNat_xor, UInt32.toNat_and, UInt32.toNat_and,
    Nat.and_xor_distrib_right]

theorem lowBit_cases (x : UInt32) : x &&& 1 = 0 ∨ x &&& 1 = 1 := by
  have hmod : (x &&& 1).toNat = x.toNat % 2 := by
    rw [UInt32.toNat_and]
    exact Nat.and_one_is_mod x.toNat
  rcases Nat.mod_two_eq_zero_or_one x.toNat with hbit | hbit
  · exact .inl (UInt32.toNat_inj.mp (hmod.trans hbit))
  · exact .inr (UInt32.toNat_inj.mp (hmod.trans hbit))

/-- The test of the inner loop of `r_bech32_polymod` is linear. -/
theorem tapped_xor (b b' : UInt32) (j : Nat) :
    ((((b ^^^ b') >>> UInt32.ofNat j) &&& 1) != 0) =
      ((((b >>> UInt32.ofNat j) &&& 1) != 0) ^^ (((b' >>> UInt32.ofNat j) &&& 1) != 0)) := by
  rw [UInt32.shiftRight_xor, xor_and_right]
  rcases lowBit_cases (b >>> UInt32.ofNat j) with hb | hb <;>
    rcases lowBit_cases (b' >>> UInt32.ofNat j) with hb' | hb' <;> rw [hb, hb'] <;> rfl

/-- One round of the inner loop of `r_bech32_polymod`. -/
def applyTap (b chk : UInt32) (j : Nat) : UInt32 :=
  if ((b >>> UInt32.ofNat j) &&& 1) != 0 then chk ^^^ kBech32Gen.getD j 0 else chk

theorem polymodStep_eq (chk : UInt32) (value : UInt8) :
    polymodStep chk value =
      (List.range 5).foldl (applyTap (chk >>> 25))
        (((chk &&& 0x1FFFFFF) <<< 5) ^^^ value.toUInt32) := rfl

theorem applyTap_xor (b b' chk chk' : UInt32) (j : Nat) :
    applyTap (b ^^^ b') (chk ^^^ chk') j = applyTap b chk j ^^^ applyTap b' chk' j := by
  rw [applyTap, applyTap, applyTap, tapped_xor]
  generalize kBech32Gen.getD j 0 = g
  cases ((b >>> UInt32.ofNat j) &&& 1) != 0 <;> cases ((b' >>> UInt32.ofNat j) &&& 1) != 0
  · rfl
  · exact UInt32.xor_assoc chk chk' g
  · show chk ^^^ chk' ^^^ g = chk ^^^ g ^^^ chk'
    ac_rfl
  · show chk ^^^ chk' = chk ^^^ g ^^^ (chk' ^^^ g)
    have hcancel : chk ^^^ g ^^^ (chk' ^^^ g) = chk ^^^ chk' ^^^ (g ^^^ g) := by ac_rfl
    rw [hcancel, UInt32.xor_self, UInt32.xor_zero]

theorem foldl_applyTap_xor (b b' : UInt32) (js : List Nat) (chk chk' : UInt32) :
    js.foldl (applyTap (b ^^^ b')) (chk ^^^ chk') =
      js.foldl (applyTap b) chk ^^^ js.foldl (applyTap b') chk' := by
  induction js generalizing chk chk' with
  | nil => rfl
  | cons j js ih => rw [List.foldl_cons, List.foldl_cons, List.foldl_cons, applyTap_xor, ih]

theorem polymodStep_linear : Register.Linear polymodStep where
  step_xor s t u v := by
    rw [polymodStep_eq, polymodStep_eq, polymodStep_eq, ← foldl_applyTap_xor,
      ← UInt32.shiftRight_xor]
    congr 1
    rw [xor_and_right, UInt32.shiftLeft_xor, UInt8.toUInt32_xor]
    ac_rfl
  xor_zero s := UInt32.xor_zero
  zero_xor v := UInt8.zero_xor

theorem two_pow_mul_xor {i a b : Nat} (hb : b < 2 ^ i) : (2 ^ i * a) ^^^ b = 2 ^ i * a + b := by
  apply Nat.eq_of_testBit_eq
  intro j
  rw [Nat.testBit_xor, Nat.testBit_two_pow_mul, Nat.testBit_two_pow_mul_add a hb]
  by_cases hj : j < i
  · simp [hj, Nat.not_le.mpr hj]
  · have hhigh : b < 2 ^ j := Nat.lt_of_lt_of_le hb (Nat.pow_le_pow_right (by decide) (by omega))
    simp [hj, Nat.testBit_lt_two_pow hhigh, Nat.le_of_not_lt hj]

/-- Below twenty-five bits no tap is reached and the symbol moves in behind. -/
theorem polymodStep_small {chk : UInt32} {value : UInt8} (hchk : chk.toNat < 2 ^ 25)
    (hvalue : value.toNat < 32) :
    (polymodStep chk value).toNat = 32 * chk.toNat + value.toNat := by
  have htop : chk >>> 25 = 0 := by
    apply UInt32.toNat_inj.mp
    rw [UInt32.toNat_shiftRight]
    simp only [UInt32.reduceToNat, Nat.reduceMod, Nat.shiftRight_eq_div_pow]
    omega
  have hkept : chk &&& 0x1FFFFFF = chk := by
    apply UInt32.toNat_inj.mp
    rw [UInt32.toNat_and]
    exact (Nat.and_two_pow_sub_one_eq_mod chk.toNat 25).trans (Nat.mod_eq_of_lt hchk)
  have hnone : ∀ x : UInt32, (List.range 5).foldl (applyTap 0) x = x := fun _ => rfl
  rw [polymodStep_eq, htop, hnone, hkept, UInt32.toNat_xor,
    toNat_shiftLeft_five (Nat.lt_trans hchk (by decide)), UInt8.toNat_toUInt32]
  exact two_pow_mul_xor hvalue

/-- Up to six symbols fit into an empty register side by side. -/
theorem foldl_polymodStep_zero {symbols : Bytes} (hsymbols : ∀ d ∈ symbols, d.toNat < 32)
    (hlength : symbols.length ≤ 6) :
    (symbols.foldl polymodStep 0).toNat = symbolsValue 32 symbols := by
  induction symbols using List.reverseRecOn with
  | nil => rfl
  | append_singleton symbols symbol ih =>
    rw [List.length_append, List.length_singleton] at hlength
    have hinit : ∀ d ∈ symbols, d.toNat < 32 := fun d hd =>
      hsymbols d (List.mem_append_left _ hd)
    have hvalue := ih hinit (by omega)
    have hsmall : (symbols.foldl polymodStep 0).toNat < 2 ^ 25 := by
      rw [hvalue]
      calc symbolsValue 32 symbols
          < 32 ^ symbols.length := symbolsValue_lt (by decide) hinit
        _ ≤ 32 ^ 5 := Nat.pow_le_pow_right (by decide) (by omega)
    have hlast : symbol.toNat < 32 :=
      hsymbols symbol (List.mem_append_right _ List.mem_cons_self)
    rw [List.foldl_append, List.foldl_cons, List.foldl_nil, polymodStep_small hsmall hlast, hvalue,
      symbolsValue_snoc]

theorem kBech32Gen_lt (j : Nat) : (kBech32Gen.getD j 0).toNat < 2 ^ 30 := by
  have hall : kBech32Gen.all (fun g => decide (g.toNat < 2 ^ 30)) = true := by decide
  rw [List.getD_eq_getElem?_getD]
  cases hget : kBech32Gen[j]? with
  | none => decide
  | some g => exact of_decide_eq_true (List.all_eq_true.mp hall g (List.mem_of_getElem? hget))

theorem foldl_applyTap_lt (b : UInt32) (js : List Nat) {chk : UInt32} (hchk : chk.toNat < 2 ^ 30) :
    (js.foldl (applyTap b) chk).toNat < 2 ^ 30 := by
  induction js generalizing chk with
  | nil => exact hchk
  | cons j js ih =>
    apply ih
    rw [applyTap]
    split
    · rw [UInt32.toNat_xor]
      exact Nat.xor_lt_two_pow hchk (kBech32Gen_lt j)
    · exact hchk

theorem polymodStep_lt (chk : UInt32) {value : UInt8} (hvalue : value.toNat < 32) :
    (polymodStep chk value).toNat < 2 ^ 30 := by
  have hlow : (chk &&& 0x1FFFFFF).toNat < 2 ^ 25 := by
    rw [UInt32.toNat_and]
    exact Nat.lt_of_le_of_lt Nat.and_le_right (by decide)
  rw [polymodStep_eq]
  apply foldl_applyTap_lt
  rw [UInt32.toNat_xor, UInt8.toNat_toUInt32]
  apply Nat.xor_lt_two_pow
  · rw [toNat_shiftLeft_five (Nat.lt_trans hlow (by decide))]
    omega
  · exact Nat.lt_trans hvalue (by decide)

/-! ### The check symbols -/

def checkSymbols (hrp data : Bytes) : Bytes :=
  symbolsOf 32 6 (rBech32Polymod (hrpExpand hrp ++ data ++ List.replicate 6 0) ^^^ 1).toNat

@[simp] theorem length_checkSymbols (hrp data : Bytes) : (checkSymbols hrp data).length = 6 :=
  length_symbolsOf _ _ _

theorem checkSymbols_lt (hrp data : Bytes) : ∀ d ∈ checkSymbols hrp data, d.toNat < 32 :=
  symbolsOf_lt (by decide) (by decide) _ _

/-- Exactly one choice of the last six symbols passes the check. -/
theorem rBech32VerifyChecksum_iff {hrp data check : Bytes} (hcheck : ∀ d ∈ check, d.toNat < 32)
    (hlength : check.length = 6) :
    rBech32VerifyChecksum .granted hrp (data ++ check) = true ↔ check = checkSymbols hrp data := by
  have hzeros : rBech32Polymod (hrpExpand hrp ++ data ++ List.replicate 6 0) =
      (List.replicate check.length 0).foldl polymodStep
        (rBech32Polymod (hrpExpand hrp ++ data)) := by
    rw [hlength, rBech32Polymod, List.foldl_append]
    rfl
  have hbound : (rBech32Polymod (hrpExpand hrp ++ data ++ List.replicate 6 0) ^^^ 1).toNat <
      32 ^ 6 := by
    rw [UInt32.toNat_xor]
    apply Nat.xor_lt_two_pow (n := 30)
    · rw [rBech32Polymod, List.replicate_succ', ← List.append_assoc, List.foldl_append]
      exact polymodStep_lt _ (by decide)
    · decide
  have hpolymod : rBech32Polymod (hrpExpand hrp ++ (data ++ check)) =
      rBech32Polymod (hrpExpand hrp ++ data ++ List.replicate 6 0) ^^^
        check.foldl polymodStep 0 := by
    rw [hzeros, ← polymodStep_linear.foldl_split, ← List.append_assoc, rBech32Polymod,
      List.foldl_append]
    rfl
  rw [rBech32VerifyChecksum, hpolymod, checkSymbols]
  generalize rBech32Polymod (hrpExpand hrp ++ data ++ List.replicate 6 0) = reg at hbound
  have hfilled := foldl_polymodStep_zero hcheck (Nat.le_of_eq hlength)
  have hone : (reg ^^^ check.foldl polymodStep 0 = 1) ↔ check.foldl polymodStep 0 = reg ^^^ 1 := by
    constructor
    · intro heq
      rw [← heq, ← UInt32.xor_assoc, UInt32.xor_self, UInt32.zero_xor]
    · intro heq
      rw [heq, ← UInt32.xor_assoc, UInt32.xor_self, UInt32.zero_xor]
  simp only [DecodeAlloc.granted, Bool.true_and, beq_iff_eq]
  rw [hone]
  constructor
  · intro heq
    rw [← heq, hfilled, ← hlength, symbolsOf_symbolsValue hcheck]
  · intro heq
    apply UInt32.toNat_inj.mp
    rw [hfilled, heq]
    exact symbolsValue_symbolsOf (by decide) (by decide) hbound

/-! ### Characters -/

def bech32Char (symbol : UInt8) : UInt8 :=
  (asciiBytes "qpzry9x8gf2tvdw0s3jn54khce6mua7l").getD symbol.toNat 0

/-- `toupper` of the C locale. -/
def toUpper (c : UInt8) : UInt8 := if isLower c then c - 32 else c

theorem forall_byte {P : UInt8 → Prop} (h : ∀ n < 256, P (UInt8.ofNat n)) (c : UInt8) : P c := by
  have hc := h c.toNat c.toNat_lt
  rwa [UInt8.ofNat_toNat] at hc

theorem rBech32CharValue_bech32Char {symbol : UInt8} (hsymbol : symbol.toNat < 32) :
    rBech32CharValue (bech32Char symbol) = some symbol := by
  have hall : ∀ n < 32, rBech32CharValue (bech32Char (UInt8.ofNat n)) = some (UInt8.ofNat n) := by
    decide +kernel
  have hthis := hall symbol.toNat hsymbol
  rwa [UInt8.ofNat_toNat] at hthis

theorem bech32Char_of_rBech32CharValue {c symbol : UInt8} (h : rBech32CharValue c = some symbol) :
    symbol.toNat < 32 ∧ bech32Char symbol = c := by
  have hall : ∀ c, (rBech32CharValue c).all
      (fun symbol => decide (symbol.toNat < 32 ∧ bech32Char symbol = c)) = true :=
    forall_byte (by decide +kernel)
  have hthis := hall c
  rw [h] at hthis
  exact of_decide_eq_true hthis

theorem charValues_eq_some_iff {chars symbols : Bytes} :
    charValues chars = some symbols ↔
      chars = symbols.map bech32Char ∧ ∀ d ∈ symbols, d.toNat < 32 := by
  induction chars generalizing symbols with
  | nil =>
    constructor
    · rintro h
      obtain rfl := Option.some.inj h
      exact ⟨rfl, fun d hd => absurd hd List.not_mem_nil⟩
    · rintro ⟨hchars, -⟩
      rw [List.map_eq_nil_iff.mp hchars.symm]
      rfl
  | cons c rest ih =>
    constructor
    · intro h
      rw [charValues] at h
      cases hvalue : rBech32CharValue c with
      | none => simp [hvalue] at h
      | some symbol =>
        simp only [hvalue, Option.map_eq_some_iff] at h
        obtain ⟨tail, htail, rfl⟩ := h
        obtain ⟨hlt, hchar⟩ := bech32Char_of_rBech32CharValue hvalue
        obtain ⟨hrest, hall⟩ := ih.mp htail
        refine ⟨by rw [List.map_cons, hchar, ← hrest], ?_⟩
        intro d hd
        rcases List.mem_cons.mp hd with rfl | hd
        · exact hlt
        · exact hall d hd
    · rintro ⟨hchars, hall⟩
      cases symbols with
      | nil => cases hchars
      | cons symbol tail =>
        obtain ⟨rfl, hrest⟩ := List.cons.inj hchars
        have hlt : symbol.toNat < 32 := hall symbol List.mem_cons_self
        have htail := ih.mpr ⟨hrest, fun d hd => hall d (List.mem_cons_of_mem _ hd)⟩
        rw [charValues, rBech32CharValue_bech32Char hlt]
        simp only [htail, Option.map_some]

/-- `c` can stand in a credential string. -/
def Printable (c : UInt8) : Prop := 33 ≤ c ∧ c ≤ 126

instance : DecidablePred Printable := fun c => inferInstanceAs (Decidable (33 ≤ c ∧ c ≤ 126))

/-- All characters are printable and the letters are of one case. -/
structure OneCase (s : Bytes) : Prop where
  printable : ∀ c ∈ s, Printable c
  oneCase : (∀ c ∈ s, isLower c = false) ∨ ∀ c ∈ s, isUpper c = false

theorem scanCase_eq_some_iff {s : Bytes} {lower upper lower' upper' : Bool} :
    scanCase s lower upper = some (lower', upper') ↔
      (∀ c ∈ s, Printable c) ∧ lower' = (lower || s.any isLower) ∧
        upper' = (upper || s.any isUpper) := by
  induction s generalizing lower upper with
  | nil => simp [scanCase, eq_comm]
  | cons c rest ih =>
    have hprintable : (c < 33 || c > 126) = true ↔ ¬ Printable c := by
      rw [Printable, Classical.not_and_iff_not_or_not, UInt8.not_le, UInt8.not_le, Bool.or_eq_true,
        decide_eq_true_eq, decide_eq_true_eq]
    rw [scanCase]
    by_cases hc : Printable c
    · rw [if_neg (fun h => hprintable.mp h hc), ih, List.forall_mem_cons, List.any_cons,
        List.any_cons, Bool.or_assoc, Bool.or_assoc]
      simp only [hc, true_and]
    · rw [if_pos (hprintable.mpr hc)]
      simp [hc]

theorem strrchr_eq_none {s : Bytes} {c : UInt8} (hs : c ∉ s) : strrchr s c = none := by
  induction s with
  | nil => rfl
  | cons b rest ih =>
    rw [List.mem_cons, not_or] at hs
    rw [strrchr, ih hs.2]
    exact if_neg (Ne.symm hs.1)

theorem strrchr_append {c : UInt8} (before after : Bytes) (hafter : c ∉ after) :
    strrchr (before ++ c :: after) c = some before.length := by
  induction before with
  | nil => simp [strrchr, strrchr_eq_none hafter]
  | cons b before ih => simp [strrchr, ih]

theorem strrchr_some {s : Bytes} {c : UInt8} {i : Nat} (h : strrchr s c = some i) :
    i < s.length ∧ s = s.take i ++ c :: s.drop (i + 1) := by
  induction s generalizing i with
  | nil => cases h
  | cons b rest ih =>
    rw [strrchr] at h
    cases htail : strrchr rest c with
    | some j =>
      simp only [htail] at h
      obtain rfl := Option.some.inj h
      obtain ⟨hlt, hsplit⟩ := ih htail
      refine ⟨Nat.succ_lt_succ hlt, ?_⟩
      rw [List.take_succ_cons, List.drop_succ_cons, List.cons_append, ← hsplit]
    | none =>
      simp only [htail] at h
      split at h
      · rename_i heq
        obtain rfl := Option.some.inj h
        exact ⟨Nat.zero_lt_succ _, by rw [heq]; rfl⟩
      · cases h

theorem oneCase_iff {s : Bytes} :
    OneCase s ↔ ∃ lower upper, scanCase s false false = some (lower, upper) ∧
      (lower && upper) = false := by
  constructor
  · intro h
    refine ⟨_, _, scanCase_eq_some_iff.mpr ⟨h.printable, rfl, rfl⟩, ?_⟩
    rw [Bool.false_or, Bool.false_or, Bool.and_eq_false_iff, List.any_eq_false, List.any_eq_false]
    exact h.oneCase.imp (fun hnone c hc => by simp [hnone c hc])
      (fun hnone c hc => by simp [hnone c hc])
  · rintro ⟨lower, upper, hscan, hboth⟩
    obtain ⟨hprintable, rfl, rfl⟩ := scanCase_eq_some_iff.mp hscan
    refine ⟨hprintable, ?_⟩
    rw [Bool.false_or, Bool.false_or] at hboth
    rcases Bool.and_eq_false_iff.mp hboth with hnone | hnone
    · exact .inl (fun c hc => by simpa using List.any_eq_false.mp hnone c hc)
    · exact .inr (fun c hc => by simpa using List.any_eq_false.mp hnone c hc)

/-! ### The strings that open -/

/-- The separator, the last `1` of the string. -/
def separator : UInt8 := 49

def bech32Encode (hrp payload : Bytes) : Bytes :=
  hrp ++ separator ::
    (groups5 payload ++ checkSymbols hrp (groups5 payload)).map bech32Char

theorem bech32Char_ne_separator {symbol : UInt8} (hsymbol : symbol.toNat < 32) :
    bech32Char symbol ≠ separator := by
  intro heq
  have hvalue := rBech32CharValue_bech32Char hsymbol
  rw [heq, show rBech32CharValue separator = none by decide] at hvalue
  cases hvalue

theorem encodedSymbols_lt (hrp payload : Bytes) :
    ∀ d ∈ groups5 payload ++ checkSymbols hrp (groups5 payload), d.toNat < 32 := by
  intro d hd
  rcases List.mem_append.mp hd with hd | hd
  · exact groups5_lt payload d hd
  · exact checkSymbols_lt hrp _ d hd

theorem strrchr_bech32Encode (hrp payload : Bytes) :
    strrchr (bech32Encode hrp payload) separator = some hrp.length := by
  apply strrchr_append
  intro hmem
  obtain ⟨symbol, hsymbol, hchar⟩ := List.mem_map.mp hmem
  exact bech32Char_ne_separator (encodedSymbols_lt hrp payload symbol hsymbol) hchar

theorem DecodeAlloc.granted_all : granted.copy = true ∧ granted.data = true ∧
    granted.values = true ∧ granted.payload = true := ⟨rfl, rfl, rfl, rfl⟩

theorem rBech32Open_of_encode {s hrp payload : Bytes} (hcase : OneCase s) (hrpNe : hrp ≠ [])
    (hlower : s.map toLower = bech32Encode hrp payload) :
    rBech32Open .granted s = some (hrp, payload) := by
  obtain ⟨lower, upper, hscan, hboth⟩ := oneCase_iff.mp hcase
  have hsymbols := encodedSymbols_lt hrp payload
  have hseparator : strrchr (s.map toLower) 49 = some hrp.length := by
    rw [hlower]
    exact strrchr_bech32Encode hrp payload
  have hlength : s.length = hrp.length + 1 + ((groups5 payload).length + 6) := by
    rw [← List.length_map toLower, hlower, bech32Encode]
    simp
    omega
  have htake : (s.map toLower).take hrp.length = hrp := by
    rw [hlower, bech32Encode, List.take_left]
  have hdrop : (s.map toLower).drop (hrp.length + 1) =
      (groups5 payload ++ checkSymbols hrp (groups5 payload)).map bech32Char := by
    rw [hlower, bech32Encode, ← List.drop_drop, List.drop_left]
    rfl
  have hvalues := charValues_eq_some_iff.mpr ⟨hdrop, hsymbols⟩
  have hverify : rBech32VerifyChecksum .granted hrp
      (groups5 payload ++ checkSymbols hrp (groups5 payload)) = true :=
    (rBech32VerifyChecksum_iff (checkSymbols_lt hrp _) (length_checkSymbols hrp _)).mpr rfl
  have hcount : s.length - hrp.length - 1 - 6 = (groups5 payload).length := by omega
  have hconvert : rConvertBits5To8NoPad (groups5 payload)
      ((groups5 payload).length * 5 / 8 + 2) = some payload :=
    (rConvertBits5To8NoPad_eq_some_iff (groups5_lt payload) (by omega)).mpr rfl
  have hnonempty : ¬ hrp.length < 1 := by
    have := List.length_pos_iff.mpr hrpNe
    omega
  have hlong : ¬ s.length - hrp.length - 1 < 6 := by omega
  have hsome : ¬ s.length = 0 := by omega
  rw [rBech32Open, if_neg hsome, hscan]
  simp only [hboth, Bool.false_eq_true, if_false, hseparator, hnonempty, hlong, hvalues, htake,
    hverify, hcount, List.take_left, hconvert, DecodeAlloc.granted_all, Bool.not_true,
    Option.map_some]

theorem encode_of_rBech32Open {s hrp payload : Bytes}
    (hopen : rBech32Open .granted s = some (hrp, payload)) :
    OneCase s ∧ hrp ≠ [] ∧ s.map toLower = bech32Encode hrp payload := by
  rw [rBech32Open] at hopen
  split at hopen
  · cases hopen
  split at hopen
  · cases hopen
  rename_i lower upper hscan
  split at hopen
  · cases hopen
  rename_i hboth
  have hcase : OneCase s := oneCase_iff.mpr ⟨lower, upper, hscan, by simpa using hboth⟩
  split at hopen
  · cases hopen
  simp only at hopen
  split at hopen
  · cases hopen
  rename_i hrpLen hseparator
  obtain ⟨hlt, hsplit⟩ := strrchr_some hseparator
  rw [List.length_map] at hlt
  split at hopen
  · cases hopen
  rename_i hnonempty
  split at hopen
  · cases hopen
  rename_i hlong
  split at hopen
  · cases hopen
  split at hopen
  · cases hopen
  rename_i data hvalues
  obtain ⟨hchars, hsymbols⟩ := charValues_eq_some_iff.mp hvalues
  split at hopen
  · cases hopen
  rename_i hverify
  split at hopen
  · cases hopen
  obtain ⟨payload', hconvert, hpair⟩ := Option.map_eq_some_iff.mp hopen
  obtain ⟨rfl, rfl⟩ := Prod.mk.inj hpair
  have hlength : data.length = s.length - hrpLen - 1 := by
    have := congrArg List.length hchars
    rw [List.length_drop, List.length_map, List.length_map] at this
    omega
  have htakeLt : ∀ d ∈ data.take (s.length - hrpLen - 1 - 6), d.toNat < 32 :=
    fun d hd => hsymbols d (List.mem_of_mem_take hd)
  have hdropLt : ∀ d ∈ data.drop (s.length - hrpLen - 1 - 6), d.toNat < 32 :=
    fun d hd => hsymbols d (List.mem_of_mem_drop hd)
  have hgroups : data.take (s.length - hrpLen - 1 - 6) = groups5 payload' := by
    apply (rConvertBits5To8NoPad_eq_some_iff htakeLt _).mp hconvert
    rw [List.length_take]
    omega
  have hcheck : data.drop (s.length - hrpLen - 1 - 6) =
      checkSymbols ((s.map toLower).take hrpLen) (data.take (s.length - hrpLen - 1 - 6)) := by
    apply (rBech32VerifyChecksum_iff hdropLt _).mp
    · rw [List.take_append_drop]
      simpa using hverify
    · rw [List.length_drop]
      omega
  refine ⟨hcase, ?_, ?_⟩
  · intro hnil
    have := congrArg List.length hnil
    rw [List.length_take, List.length_map, List.length_nil] at this
    omega
  · have hdata : data = groups5 payload' ++
        checkSymbols ((s.map toLower).take hrpLen) (groups5 payload') := by
      rw [← hgroups, ← hcheck, List.take_append_drop]
    rw [bech32Encode, ← hdata, ← hchars]
    exact hsplit

end RlClient
