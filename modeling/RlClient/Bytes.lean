import Mathlib.Data.Nat.Log
import Mathlib.Tactic.Ring

/-!
# Byte strings and little-endian words

Buffers are lists of bytes. A read past the end of a buffer sees zeros, so the
reading functions are total; every caller checks the length first. The lemmas
below say how a read sees through a concatenation and that writing a word and
reading it back is the identity on words that fit.
-/

namespace RlClient

abbrev Bytes := List UInt8

/-- A byte array of a fixed size, such as an identifier, a key or a tag. -/
def FixedBytes (n : Nat) := { bytes : Bytes // bytes.length = n }
deriving DecidableEq

namespace FixedBytes

@[simp] theorem length_val (a : FixedBytes n) : a.val.length = n := a.property

/-- The `n` bytes of `buf` from `off` on, padded with zeros past its end. -/
def ofSlice (n : Nat) (buf : Bytes) (off : Nat) : FixedBytes n :=
  ⟨(List.range n).map fun i => buf.getD (off + i) 0, by simp⟩

def replicate (n : Nat) (b : UInt8) : FixedBytes n := ⟨List.replicate n b, by simp⟩

theorem val_ofSlice {n off : Nat} {buf : Bytes} (h : off + n ≤ buf.length) :
    (ofSlice n buf off).val = (buf.drop off).take n := by
  apply List.ext_getElem
  · simp [ofSlice]; omega
  · intro i hleft hright
    have hi : i < n := by simpa [ofSlice] using hleft
    have hin : off + i < buf.length := by omega
    simp [ofSlice, List.getD, hin]

theorem ofSlice_append_right {n off : Nat} {a b : Bytes} (h : a.length ≤ off) :
    ofSlice n (a ++ b) off = ofSlice n b (off - a.length) := by
  apply Subtype.ext
  apply List.map_congr_left
  intro i _
  simp only [List.getD, List.getElem?_append_right (show a.length ≤ off + i by omega)]
  rw [show off + i - a.length = off - a.length + i by omega]

theorem ofSlice_append_left {n off : Nat} {a b : Bytes} (h : off + n ≤ a.length) :
    ofSlice n (a ++ b) off = ofSlice n a off := by
  apply Subtype.ext
  apply List.map_congr_left
  intro i hi
  have hlt : i < n := List.mem_range.mp hi
  simp only [List.getD, List.getElem?_append_left (show off + i < a.length by omega)]

theorem ofSlice_drop (n : Nat) (buf : Bytes) (skip off : Nat) :
    ofSlice n (buf.drop skip) off = ofSlice n buf (skip + off) := by
  apply Subtype.ext
  apply List.map_congr_left
  intro i _
  simp only [List.getD, List.getElem?_drop, Nat.add_assoc]

theorem ofSlice_val_append (a : FixedBytes n) (rest : Bytes) :
    ofSlice n (a.val ++ rest) 0 = a := by
  have hlen : 0 + n ≤ (a.val ++ rest).length := by simp
  apply Subtype.ext
  rw [val_ofSlice hlen]
  simp

end FixedBytes

/-! ### Little-endian words -/

/-- The number a byte string denotes, lowest byte first. -/
def leNat : Bytes → Nat
  | [] => 0
  | b :: rest => b.toNat + 256 * leNat rest

def leBytes : Nat → Nat → Bytes
  | 0, _ => []
  | n + 1, v => UInt8.ofNat (v % 256) :: leBytes n (v / 256)

@[simp] theorem length_leBytes (n v : Nat) : (leBytes n v).length = n := by
  induction n generalizing v with
  | zero => rfl
  | succ n ih => simp [leBytes, ih]

theorem leNat_lt (bs : Bytes) : leNat bs < 256 ^ bs.length := by
  induction bs with
  | nil => simp [leNat]
  | cons b rest ih =>
    have hb : b.toNat < 256 := b.toNat_lt
    simp only [leNat, List.length_cons, Nat.pow_succ]
    omega

theorem leNat_leBytes (n v : Nat) : leNat (leBytes n v) = v % 256 ^ n := by
  induction n generalizing v with
  | zero => simp [leNat, leBytes, Nat.mod_one]
  | succ n ih =>
    have hbyte : (UInt8.ofNat (v % 256)).toNat = v % 256 := by simp
    rw [leBytes, leNat, hbyte, ih, Nat.pow_succ', Nat.mod_mul]

theorem leBytes_leNat (bs : Bytes) : leBytes bs.length (leNat bs) = bs := by
  induction bs with
  | nil => rfl
  | cons b rest ih =>
    have hb : b.toNat < 256 := b.toNat_lt
    have hlow : (b.toNat + 256 * leNat rest) % 256 = b.toNat := by omega
    have hhigh : (b.toNat + 256 * leNat rest) / 256 = leNat rest := by omega
    rw [List.length_cons, leNat, leBytes, hlow, hhigh, ih, UInt8.ofNat_toNat]

/-- The word of `n` bytes found at offset `off`. -/
def leWordAt (n : Nat) (buf : Bytes) (off : Nat) : Nat :=
  leNat (FixedBytes.ofSlice n buf off).val

theorem leWordAt_lt (n : Nat) (buf : Bytes) (off : Nat) : leWordAt n buf off < 256 ^ n := by
  have h := leNat_lt (FixedBytes.ofSlice n buf off).val
  simpa [leWordAt] using h

theorem leWordAt_append_right {n off : Nat} {a b : Bytes} (h : a.length ≤ off) :
    leWordAt n (a ++ b) off = leWordAt n b (off - a.length) := by
  rw [leWordAt, FixedBytes.ofSlice_append_right h, leWordAt]

theorem leWordAt_append_left {n off : Nat} {a b : Bytes} (h : off + n ≤ a.length) :
    leWordAt n (a ++ b) off = leWordAt n a off := by
  rw [leWordAt, FixedBytes.ofSlice_append_left h, leWordAt]

theorem leWordAt_drop (n : Nat) (buf : Bytes) (skip off : Nat) :
    leWordAt n (buf.drop skip) off = leWordAt n buf (skip + off) := by
  rw [leWordAt, FixedBytes.ofSlice_drop, leWordAt]

theorem leWordAt_leBytes_append (n v : Nat) (rest : Bytes) :
    leWordAt n (leBytes n v ++ rest) 0 = v % 256 ^ n := by
  have hslice := FixedBytes.ofSlice_val_append (n := n) ⟨leBytes n v, length_leBytes n v⟩ rest
  rw [leWordAt, hslice, leNat_leBytes]

end RlClient
