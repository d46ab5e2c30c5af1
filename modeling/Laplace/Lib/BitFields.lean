import Mathlib.Data.Nat.Bitwise
import Mathlib.Tactic

/-!
# Fields of a word

Shifts, masks and alternatives of 64-bit words as quotients, remainders and sums of numbers, in the
two shapes that packing code has: a field is shifted down and masked, and fields that do not
overlap are shifted up and joined.
-/

namespace Laplace.BitFields

variable {word low high mask shift : UInt64} {width : ℕ}

theorem toNat_masked (h : mask.toNat = 2 ^ width - 1) : (word &&& mask).toNat = word.toNat % 2 ^ width := by
  rw [UInt64.toNat_and, h, Nat.and_two_pow_sub_one_eq_mod]

theorem and_not_eq_zero : word &&& ~~~mask = 0 ↔ word &&& mask = word := by
  rw [← UInt64.toBitVec_inj, ← UInt64.toBitVec_inj, UInt64.toBitVec_and, UInt64.toBitVec_and,
    UInt64.toBitVec_not, show (0 : UInt64).toBitVec = 0#64 from rfl]
  generalize word.toBitVec = w
  generalize mask.toBitVec = m
  constructor
  · intro h
    refine BitVec.eq_of_getElem_eq fun i hi => ?_
    have hbit : (w &&& ~~~m)[i] = false := by
      rw [h]
      exact BitVec.getElem_zero hi
    rw [BitVec.getElem_and, BitVec.getElem_not] at hbit
    rw [BitVec.getElem_and]
    cases hw : w[i] <;> cases hm : m[i] <;> simp_all
  · intro h
    rw [← h, BitVec.and_assoc, BitVec.and_not_self]
    exact BitVec.and_zero

theorem toNat_shifted (position : ℕ) (h : shift.toNat = position) (hlt : position < 64) :
    (word >>> shift).toNat = word.toNat / 2 ^ position := by
  rw [UInt64.toNat_shiftRight, h, Nat.mod_eq_of_lt hlt, Nat.shiftRight_eq_div_pow]

theorem toNat_field (position : ℕ) (hmask : mask.toNat = 2 ^ width - 1) (hshift : shift.toNat = position)
    (hlt : position < 64) : ((word >>> shift) &&& mask).toNat = word.toNat / 2 ^ position % 2 ^ width := by
  rw [toNat_masked hmask, toNat_shifted position hshift hlt]

theorem toNat_placed (position : ℕ) (hshift : shift.toNat = position) (hlt : position < 64)
    (hhigh : word.toNat * 2 ^ position < 2 ^ 64) : (word <<< shift).toNat = word.toNat * 2 ^ position := by
  rw [UInt64.toNat_shiftLeft, hshift, Nat.mod_eq_of_lt hlt, Nat.shiftLeft_eq, Nat.mod_eq_of_lt hhigh]

theorem toNat_joined (position : ℕ) (hshift : shift.toNat = position) (hlt : position < 64)
    (hlow : low.toNat < 2 ^ position) (hhigh : high.toNat * 2 ^ position < 2 ^ 64) :
    (low ||| (high <<< shift)).toNat = low.toNat + high.toNat * 2 ^ position := by
  have hplaced := toNat_placed position hshift hlt hhigh
  rw [UInt64.toNat_or, hplaced, ← Nat.shiftLeft_eq, Nat.or_comm,
    ← Nat.shiftLeft_add_eq_or_of_lt hlow, Nat.add_comm]

end Laplace.BitFields
