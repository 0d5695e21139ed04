import Mathlib.Algebra.Order.Ring.Nat
import Mathlib.SetTheory.Cardinal.Finite

/-!
# Words of a fixed width

Operations on words that lose nothing. A word may be combined with a part of itself, shifted to
the right: the highest bits stay as they are, and the others can be recovered from them one
shift after the other (`xorShift_injective`). The low bits of the words of a width take every
value equally often (`card_lowBits`).
-/

namespace Foundation

variable {width : Nat}

/-- Only zero is left as it is by a shift to the right. -/
theorem eq_zero_of_shiftRight_eq {shift : Nat} (positive : 0 < shift) {word : BitVec width}
    (same : word >>> shift = word) : word = 0 := by
  apply BitVec.eq_of_toNat_eq
  have quotient : word.toNat / 2 ^ shift = word.toNat := by
    rw [← Nat.shiftRight_eq_div_pow, ← BitVec.toNat_ushiftRight, same]
  by_contra nonzero
  have less := Nat.div_lt_self (Nat.pos_of_ne_zero nonzero) (Nat.one_lt_two_pow positive.ne')
  omega

/-- Shifting and xoring loses nothing. -/
theorem xorShift_injective {shift : Nat} (positive : 0 < shift) :
    Function.Injective fun word : BitVec width => word ^^^ (word >>> shift) := by
  intro first second same
  simp only at same
  -- The difference of the two words is left as it is by the shift.
  have difference : (first ^^^ second) >>> shift = first ^^^ second :=
    calc (first ^^^ second) >>> shift
        = first ^^^ (first ^^^ first >>> shift) ^^^ second >>> shift := by
          rw [BitVec.ushiftRight_xor_distrib, ← BitVec.xor_assoc, BitVec.xor_self, BitVec.zero_xor]
      _ = first ^^^ (second ^^^ second >>> shift) ^^^ second >>> shift := by rw [same]
      _ = first ^^^ second := by
          rw [BitVec.xor_assoc, BitVec.xor_assoc, BitVec.xor_self, BitVec.xor_zero]
  exact BitVec.xor_eq_zero_iff.mp (eq_zero_of_shiftRight_eq positive difference)

/-- The words with the given low bits are as many as there are high bits. -/
theorem card_lowBits {bits : Nat} (within : bits ≤ width) {low : Nat} (below : low < 2 ^ bits) :
    Nat.card { word : BitVec width // word.toNat % 2 ^ bits = low } = 2 ^ (width - bits) := by
  have split : 2 ^ width = 2 ^ (width - bits) * 2 ^ bits := by
    rw [← pow_add, Nat.sub_add_cancel within]
  let high (word : { word : BitVec width // word.toNat % 2 ^ bits = low }) :
      Fin (2 ^ (width - bits)) :=
    ⟨word.1.toNat / 2 ^ bits, Nat.div_lt_of_lt_mul (by
      rw [Nat.mul_comm, ← split]
      exact word.1.isLt)⟩
  have bijective : Function.Bijective high := by
    refine ⟨?_, ?_⟩
    · intro first second same
      apply Subtype.ext
      apply BitVec.eq_of_toNat_eq
      rw [← Nat.div_add_mod first.1.toNat (2 ^ bits), ← Nat.div_add_mod second.1.toNat (2 ^ bits),
        first.2, second.2, Fin.mk.inj same]
    · intro quotient
      have bound : low + 2 ^ bits * quotient.val < 2 ^ width := by
        calc low + 2 ^ bits * quotient.val
            < 2 ^ bits * (quotient.val + 1) := by
              rw [Nat.mul_succ]
              omega
          _ ≤ 2 ^ bits * 2 ^ (width - bits) := Nat.mul_le_mul_left _ quotient.isLt
          _ = 2 ^ width := by rw [split, Nat.mul_comm]
      have value := BitVec.toNat_ofNatLT _ bound
      refine ⟨⟨BitVec.ofNatLT _ bound, ?_⟩, ?_⟩
      · rw [value, Nat.add_mul_mod_self_left, Nat.mod_eq_of_lt below]
      · apply Fin.ext
        change (BitVec.ofNatLT _ bound).toNat / 2 ^ bits = _
        rw [value, Nat.add_mul_div_left _ _ (Nat.two_pow_pos bits), Nat.div_eq_of_lt below,
          Nat.zero_add]
  rw [Nat.card_eq_of_bijective high bijective, Nat.card_fin]

end Foundation
