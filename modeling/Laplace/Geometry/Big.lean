import Laplace.Lib.Limbs

/-!
# `laplace_biguint` (geometry.c:7-161)

The C functions write through a pointer and return whether the number fitted; here the result is an
`Option`, since no caller reads what a failed call has written.
-/

namespace Laplace.Geometry

open Limbs

/-- `LAPLACE_GEOMETRY_ACCUMULATOR_LIMBS` -/
def accumulatorLimbs : ℕ := 36

/-- The first number that has no `laplace_biguint`. -/
def bigLimit : ℕ := 2 ^ (32 * accumulatorLimbs)

theorem pow_le_bigLimit {k : ℕ} (h : k ≤ 1152) : 2 ^ k ≤ bigLimit :=
  Nat.pow_le_pow_right (by decide) h

structure Biguint where
  limb : List UInt32
  length_limb : limb.length = accumulatorLimbs
deriving DecidableEq

namespace Biguint

def value (big : Biguint) : ℕ := Limbs.value big.limb

theorem value_inj {left right : Biguint} : left.value = right.value ↔ left = right := by
  refine ⟨fun h => ?_, fun h => by rw [h]⟩
  obtain ⟨left, hl⟩ := left
  obtain ⟨right, hr⟩ := right
  simpa using Limbs.value_inj (hl.trans hr.symm) h

theorem value_lt (big : Biguint) : big.value < bigLimit := by
  have h := Limbs.value_lt big.limb
  rwa [big.length_limb] at h

def zero : Biguint := ⟨List.replicate accumulatorLimbs 0, List.length_replicate⟩

@[simp] theorem value_zero : zero.value = 0 := Limbs.value_replicate_zero _

end Biguint

/-- What a function that can run out of limbs returns for the number `v`. -/
def Holds (v : ℕ) (o : Option Biguint) : Prop :=
  match o with
  | some big => big.value = v
  | none => bigLimit ≤ v

theorem Holds.eq_some {v : ℕ} {o : Option Biguint} (h : Holds v o) (hfit : v < bigLimit) :
    ∃ big, o = some big ∧ big.value = v := by
  cases o with
  | some big => exact ⟨big, rfl, h⟩
  | none => exact absurd hfit (Nat.not_lt.2 h)

/-! ## Reading -/

def bigIsZero (value : Biguint) : Bool := value.limb.all (· == 0)

@[simp] theorem bigIsZero_iff {big : Biguint} : bigIsZero big = true ↔ big.value = 0 := by
  rw [bigIsZero, Biguint.value, Limbs.value_eq_zero_iff]
  simp

/-- `-1`, `1` and `0` of the source are `lt`, `gt` and `eq`. -/
def bigCompare (left right : Biguint) : Ordering :=
  compareDown left.limb.reverse right.limb.reverse

theorem bigCompare_eq (left right : Biguint) : bigCompare left right = compare left.value right.value := by
  rw [bigCompare, compareDown_eq _ _ (by simp [Biguint.length_limb]), List.reverse_reverse,
    List.reverse_reverse]
  rfl

def bigHighBit (value : Biguint) : ℤ := highBitDown value.limb.reverse

theorem bigHighBit_eq {big : Biguint} (h : big.value ≠ 0) : bigHighBit big = (Nat.log2 big.value : ℤ) := by
  rw [bigHighBit, highBitDown_eq, List.reverse_reverse]
  exact if_neg h

/-! ## Arithmetic -/

def bigAdd (target addend : Biguint) : Option Biguint :=
  let sum := addCarry target.limb addend.limb 0
  if sum.2 = 0 then
    some ⟨sum.1, (addCarry_length _ _ _ (target.length_limb.trans addend.length_limb.symm)).trans
      target.length_limb⟩
  else none

theorem bigAdd_holds (target addend : Biguint) :
    Holds (target.value + addend.value) (bigAdd target addend) := by
  have h := addCarry_value target.limb addend.limb 0
    (target.length_limb.trans addend.length_limb.symm) (by decide)
  rw [target.length_limb, ← bigLimit] at h
  unfold bigAdd
  set sum := addCarry target.limb addend.limb 0
  rw [UInt64.toNat_zero, Nat.add_zero] at h
  by_cases hcarry : sum.2 = 0
  · rw [if_pos hcarry]
    rw [hcarry, UInt64.toNat_zero, Nat.mul_zero, Nat.add_zero] at h
    exact h
  · have hpos : sum.2.toNat ≠ 0 := fun h0 => hcarry (UInt64.toNat_inj.1 (by simpa using h0))
    rw [if_neg hcarry]
    have := Nat.le_mul_of_pos_right bigLimit (Nat.pos_of_ne_zero hpos)
    change bigLimit ≤ Limbs.value target.limb + Limbs.value addend.limb
    omega

def bigSubtract (target subtrahend : Biguint) : Biguint :=
  ⟨(subBorrow target.limb subtrahend.limb 0).1,
    (subBorrow_length _ _ _ (target.length_limb.trans subtrahend.length_limb.symm)).trans
      target.length_limb⟩

theorem bigSubtract_value {target subtrahend : Biguint} (hle : subtrahend.value ≤ target.value) :
    (bigSubtract target subtrahend).value = target.value - subtrahend.value := by
  have h := subBorrow_value target.limb subtrahend.limb 0
    (target.length_limb.trans subtrahend.length_limb.symm) (by decide)
  have hlt := (bigSubtract target subtrahend).value_lt
  rw [target.length_limb, ← bigLimit, UInt64.toNat_zero, Nat.add_zero] at h
  change (bigSubtract target subtrahend).value + subtrahend.value = target.value + _ at h
  have hborrow : (subBorrow target.limb subtrahend.limb 0).2.toNat = 0 := by
    by_contra hne
    have := Nat.le_mul_of_pos_right bigLimit (Nat.pos_of_ne_zero hne)
    omega
  rw [hborrow] at h
  omega

def bigShiftLeftOne (source : Biguint) : Option Biguint :=
  let shifted := shiftLeftOne source.limb 0
  if shifted.2 = 0 then
    some ⟨shifted.1, (shiftLeftOne_length _ _).trans source.length_limb⟩
  else none

theorem bigShiftLeftOne_holds (source : Biguint) : Holds (2 * source.value) (bigShiftLeftOne source) := by
  have h := shiftLeftOne_value source.limb 0 (by decide)
  rw [source.length_limb, ← bigLimit] at h
  unfold bigShiftLeftOne
  set shifted := shiftLeftOne source.limb 0
  rw [UInt32.toNat_zero, Nat.add_zero] at h
  by_cases hcarry : shifted.2 = 0
  · rw [if_pos hcarry]
    rw [hcarry, UInt32.toNat_zero, Nat.mul_zero, Nat.add_zero] at h
    exact h
  · have hpos : shifted.2.toNat ≠ 0 := fun h0 => hcarry (UInt32.toNat_inj.1 (by simpa using h0))
    rw [if_neg hcarry]
    have := Nat.le_mul_of_pos_right bigLimit (Nat.pos_of_ne_zero hpos)
    change bigLimit ≤ 2 * Limbs.value source.limb
    omega

/-- The two words of a 64-bit factor. -/
def parts (x : UInt64) : List UInt32 := [x.toUInt32, (x >>> 32).toUInt32]

theorem value_parts (x : UInt64) : Limbs.value (parts x) = x.toNat := by
  have hsplit := word_split x
  have hhigh := high_lt x
  simp only [parts, value_cons, value_nil, UInt64.toNat_toUInt32 (x >>> 32),
    Nat.mod_eq_of_lt hhigh]
  omega

/-- The body of `big_multiply_shift`: the product of five words, then its words shifted into place. -/
def multiplyShiftLimbs (left right : UInt64) (shift : UInt32) : Option (List UInt32) := do
  let product ← mulInto (parts left) (parts right) (List.replicate 5 0)
  shiftInto (shift % 32).toUInt64 product (shift / 32).toNat 0
    (List.replicate accumulatorLimbs 0)

theorem multiplyShiftLimbs_encodes (left right : UInt64) (shift : UInt32) :
    Encodes accumulatorLimbs (left.toNat * right.toNat * 2 ^ shift.toNat)
      (multiplyShiftLimbs left right shift) := by
  have hprod : left.toNat * right.toNat < 2 ^ (32 * 5) := by
    have := Nat.mul_lt_mul'' left.toNat_lt right.toNat_lt
    omega
  have hmul := mulInto_encodes (parts left) (parts right) (List.replicate 5 0)
    (by simp [parts]) (by simp [parts])
  rw [value_parts, value_parts, Limbs.value_replicate_zero, Nat.add_zero] at hmul
  obtain ⟨product, hproduct, -, hval⟩ := hmul.eq_some hprod
  have hbits : (shift % 32).toUInt64.toNat = shift.toNat % 32 := by simp
  have hindex : (shift / 32).toNat = shift.toNat / 32 := by simp
  have h := @shiftInto_encodes ((shift % 32).toUInt64) (by omega) product
    (shift / 32).toNat 0 (List.replicate accumulatorLimbs 0) (by simp) (by simp)
  rw [Limbs.value_replicate_zero, List.length_replicate, hval, hbits] at h
  have hpow : 2 ^ shift.toNat = 2 ^ (32 * (shift.toNat / 32)) * 2 ^ (shift.toNat % 32) := by
    rw [← Nat.pow_add, Nat.div_add_mod]
  rw [multiplyShiftLimbs, hproduct, Option.bind_eq_bind, Option.bind_some]
  convert h using 1
  rw [hpow, hindex, UInt64.toNat_zero]
  ring

def bigMultiplyShift (left right : UInt64) (shift : UInt32) : Option Biguint :=
  (multiplyShiftLimbs left right shift).pmap Biguint.mk fun limbs h => by
    have := multiplyShiftLimbs_encodes left right shift
    rw [h] at this
    exact this.1

/-- **The product with a shift** is exact, and the call fails only when it does not fit. -/
theorem bigMultiplyShift_holds (left right : UInt64) (shift : UInt32) :
    Holds (left.toNat * right.toNat * 2 ^ shift.toNat) (bigMultiplyShift left right shift) := by
  have h := multiplyShiftLimbs_encodes left right shift
  unfold bigMultiplyShift
  generalize_proofs hlen
  generalize multiplyShiftLimbs left right shift = o at h hlen ⊢
  cases o with
  | some limbs => exact h.2
  | none => exact h

end Laplace.Geometry
