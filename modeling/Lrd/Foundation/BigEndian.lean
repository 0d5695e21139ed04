import Mathlib.Algebra.Order.Ring.Nat
import Mathlib.Data.List.Induction

/-!
# Big-endian integers

The bytes of a natural number in a fixed width, most significant first, and the
number that a string of bytes stands for. The two are inverse to each other for
numbers that fit.
-/

namespace Foundation

/-- The bytes of a number in the given width. Higher bits are dropped. -/
def bigEndian (width value : Nat) : List UInt8 :=
  (List.range width).map fun i => UInt8.ofNat (value >>> ((width - 1 - i) * 8))

/-- The number that bytes stand for. -/
def ofBigEndian (bytes : List UInt8) : Nat :=
  bytes.foldl (fun value byte => (value <<< 8) ||| byte.toNat) 0

@[simp] theorem length_bigEndian (width value : Nat) : (bigEndian width value).length = width := by
  rw [bigEndian, List.length_map, List.length_range]

/-- The last byte is the lowest. -/
theorem bigEndian_succ (width value : Nat) :
    bigEndian (width + 1) value = bigEndian width (value / 256) ++ [UInt8.ofNat value] := by
  rw [bigEndian, List.range_succ, List.map_append, bigEndian]
  refine congrArg₂ (· ++ ·) (List.map_congr_left fun i member => ?_) ?_
  · have below := List.mem_range.mp member
    have shift : (width + 1 - 1 - i) * 8 = 8 + (width - 1 - i) * 8 := by omega
    rw [shift, Nat.shiftRight_add, Nat.shiftRight_eq_div_pow value 8]
  · simp

/-- One more byte behind. -/
theorem ofBigEndian_append (bytes : List UInt8) (byte : UInt8) :
    ofBigEndian (bytes ++ [byte]) = ofBigEndian bytes * 256 + byte.toNat := by
  rw [ofBigEndian, List.foldl_append]
  change (ofBigEndian bytes <<< 8) ||| byte.toNat = _
  rw [← Nat.shiftLeft_add_eq_or_of_lt byte.toNat_lt, Nat.shiftLeft_eq]

/-- So many bytes spell a number below 256 to their power. -/
theorem ofBigEndian_lt (bytes : List UInt8) : ofBigEndian bytes < 256 ^ bytes.length := by
  induction bytes using List.reverseRecOn with
  | nil => exact Nat.one_pos
  | append_singleton bytes byte ih =>
      have small := byte.toNat_lt
      rw [ofBigEndian_append, List.length_append, List.length_singleton, pow_succ]
      omega

/-- A number that fits is read back. -/
theorem ofBigEndian_bigEndian {width value : Nat} (fits : value < 256 ^ width) :
    ofBigEndian (bigEndian width value) = value := by
  induction width generalizing value with
  | zero =>
      rw [pow_zero] at fits
      change 0 = value
      omega
  | succ width ih =>
      have quotient : value / 256 < 256 ^ width := by
        rw [Nat.div_lt_iff_lt_mul (by omega), ← pow_succ]
        exact fits
      rw [bigEndian_succ, ofBigEndian_append, ih quotient, UInt8.toNat_ofNat']
      omega

/-- Bytes are printed back. -/
theorem bigEndian_ofBigEndian (bytes : List UInt8) :
    bigEndian bytes.length (ofBigEndian bytes) = bytes := by
  induction bytes using List.reverseRecOn with
  | nil => rfl
  | append_singleton bytes byte ih =>
      have small := byte.toNat_lt
      have quotient : (ofBigEndian bytes * 256 + byte.toNat) / 256 = ofBigEndian bytes := by omega
      have low : UInt8.ofNat (ofBigEndian bytes * 256 + byte.toNat) = byte := by
        apply UInt8.toNat.inj
        rw [UInt8.toNat_ofNat']
        omega
      rw [List.length_append, List.length_singleton, bigEndian_succ, ofBigEndian_append, quotient,
        ih, low]

/-- One more byte, in a word of any width. -/
theorem ofNat_ofBigEndian_append (width : Nat) (bytes : List UInt8) (byte : UInt8) :
    BitVec.ofNat width (ofBigEndian (bytes ++ [byte])) =
      (BitVec.ofNat width (ofBigEndian bytes) <<< 8) ||| byte.toBitVec.setWidth width := by
  have shifted : BitVec.ofNat width (ofBigEndian bytes <<< 8) =
      BitVec.ofNat width (ofBigEndian bytes) <<< 8 := by
    apply BitVec.eq_of_toNat_eq
    rw [BitVec.toNat_shiftLeft, BitVec.toNat_ofNat, BitVec.toNat_ofNat, Nat.shiftLeft_eq,
      Nat.shiftLeft_eq, Nat.mod_mul_mod]
  have widened : BitVec.ofNat width byte.toNat = byte.toBitVec.setWidth width := by
    apply BitVec.eq_of_toNat_eq
    rw [BitVec.toNat_ofNat, BitVec.toNat_setWidth]
    rfl
  rw [ofBigEndian, List.foldl_append]
  change BitVec.ofNat width ((ofBigEndian bytes <<< 8) ||| byte.toNat) = _
  rw [BitVec.ofNat_or, shifted, widened]

end Foundation
