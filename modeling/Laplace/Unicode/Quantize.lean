import Laplace.Lib.Binary64
import Laplace.Lib.Guarded
import Laplace.Lib.Rounding

/-!
# Quantized components (unicode_root.c:2307-2388)

A `double` is its 64-bit pattern. The product of a significand and `2^32 - 1` is kept in 96 bits;
a shift or a product that lost bits would trap. The one shift to the left that drops bits on
purpose is the middle of the long product, whose upper half is `high`.
-/

namespace Laplace.Unicode

open Guarded Binary64

/-! ## Source -/

inductive QuantizeStatus
  | numericOutOfRange
deriving DecidableEq, Repr

/-- `laplace_u96` -/
structure U96 where
  low : UInt64
  high : UInt32
deriving DecidableEq, Repr

def multiplyU53U32 (left : UInt64) (right : UInt32) : Guarded QuantizeStatus U96 := do
  let lowProduct ← mul (left &&& 0xffffffff) right.toUInt64
  let highProduct ← mul (left >>> 32) right.toUInt64
  let shifted := highProduct <<< 32
  let low := lowProduct + shifted
  let upper ← narrow (highProduct >>> 32)
  let high ← add32 upper (if low < lowProduct then 1 else 0)
  return ⟨low, high⟩

def u96ShiftRight (value : U96) (shift : UInt32) : Guarded QuantizeStatus UInt32 := do
  if shift < 64 then
    let low ← shiftRight value.low shift
    let high ← shiftLeft value.high.toUInt64 (64 - shift)
    narrow (low ||| high)
  else shiftRight32 value.high (shift - 64)

def u96RemainderZero (value : U96) (shift : UInt32) : Guarded QuantizeStatus Bool := do
  if shift < 64 then
    let unit ← shiftLeft 1 shift
    return decide (value.low &&& (unit - 1) = 0)
  else if value.low ≠ 0 then return false
  else
    let unit ← shiftLeft32 1 (shift - 64)
    return decide (value.high &&& (unit - 1) = 0)

/-- `base` for a negative component. -/
def baseBelow (quotient : UInt32) (remainderZero : Bool) : UInt32 :=
  let base := 2147483647 - quotient
  if remainderZero ∧ base &&& 1 ≠ 0 then base + 1 else base

/-- `base` for a positive component. -/
def baseAbove (quotient : UInt32) (remainderZero : Bool) : UInt32 :=
  let base := 2147483647 + quotient
  if ¬ remainderZero ∨ base &&& 1 ≠ 0 then base + 1 else base

/-- `laplace_unicode_quantize_component_u32` -/
def quantizeComponentU32 (bits : UInt64) : Guarded QuantizeStatus UInt32 := do
  let negative := negative bits
  let fraction := bits &&& 0x000fffffffffffff
  let exponent := ((bits >>> 52) &&& 0x7ff).toUInt32
  require (¬ (exponent = 0x7ff ∨ value bits < -1 ∨ 1 < value bits))
    .numericOutOfRange
  if bits &&& 0x7fffffffffffffff = 0 then return 2147483648
  let significand := if exponent = 0 then fraction else 0x0010000000000000 ||| fraction
  let denominatorShift := if exponent = 0 then 1075 else 1076 - exponent
  if 86 ≤ denominatorShift then return if negative then 2147483647 else 2147483648
  let product ← multiplyU53U32 significand 4294967295
  let quotient ← u96ShiftRight product denominatorShift
  let remainderZero ← u96RemainderZero product denominatorShift
  return if negative then baseBelow quotient remainderZero else baseAbove quotient remainderZero

/-! ## The 96-bit product -/

def U96.toNat (value : U96) : ℕ := value.low.toNat + 2 ^ 64 * value.high.toNat

theorem multiplyU53U32_ok (left : UInt64) (h : left.toNat < 2 ^ 53) (right : UInt32) :
    ∃ product, multiplyU53U32 left right = .ok product ∧ product.toNat = left.toNat * right.toNat := by
  have hright := right.toNat_lt
  have hlow : (left &&& 0xffffffff).toNat = left.toNat % 2 ^ 32 := by
    rw [UInt64.toNat_and]
    exact Nat.and_two_pow_sub_one_eq_mod left.toNat 32
  have hhigh : (left >>> 32).toNat = left.toNat / 2 ^ 32 := by
    rw [UInt64.toNat_shiftRight, Nat.shiftRight_eq_div_pow]
    rfl
  have hlowFits : (left &&& 0xffffffff).toNat * right.toUInt64.toNat < 2 ^ 64 := by
    rw [hlow, UInt32.toNat_toUInt64]
    calc left.toNat % 2 ^ 32 * right.toNat ≤ (2 ^ 32 - 1) * (2 ^ 32 - 1) :=
          Nat.mul_le_mul (by omega) (by omega)
      _ < 2 ^ 64 := by norm_num
  have hhighFits : (left >>> 32).toNat * right.toUInt64.toNat < 2 ^ 53 := by
    rw [hhigh, UInt32.toNat_toUInt64]
    calc left.toNat / 2 ^ 32 * right.toNat ≤ 2 ^ 21 * (2 ^ 32 - 1) :=
          Nat.mul_le_mul (by omega) (by omega)
      _ < 2 ^ 53 := by norm_num
  have hsplit : left.toNat * right.toNat =
      (left &&& 0xffffffff).toNat * right.toUInt64.toNat +
        2 ^ 32 * ((left >>> 32).toNat * right.toUInt64.toNat) := by
    rw [hlow, hhigh, UInt32.toNat_toUInt64, ← Nat.mul_assoc, ← Nat.add_mul]
    congr 1
    omega
  have hlowProduct := toNat_mul_of_lt hlowFits
  have hhighProduct := toNat_mul_of_lt (hhighFits.trans (by norm_num))
  rw [multiplyU53U32, mul_ok hlowFits, ok_bind, mul_ok (hhighFits.trans (by norm_num)), ok_bind]
  rw [← hlowProduct, ← hhighProduct] at hsplit
  rw [← hhighProduct] at hhighFits
  generalize (left &&& 0xffffffff) * right.toUInt64 = lowProduct at hsplit ⊢
  generalize (left >>> 32) * right.toUInt64 = highProduct at hsplit hhighFits ⊢
  have hupper : (highProduct >>> 32).toNat = highProduct.toNat / 2 ^ 32 := by
    rw [UInt64.toNat_shiftRight, Nat.shiftRight_eq_div_pow]
    rfl
  have hshifted : (highProduct <<< 32).toNat = highProduct.toNat * 2 ^ 32 % 2 ^ 64 := by
    rw [UInt64.toNat_shiftLeft, Nat.shiftLeft_eq]
    rfl
  have hsum := UInt64.toNat_add lowProduct (highProduct <<< 32)
  have hltLow := lowProduct.toNat_lt
  have hnarrow : (highProduct >>> 32).toUInt32.toNat = highProduct.toNat / 2 ^ 32 := by
    rw [UInt64.toNat_toUInt32, hupper]
    omega
  rw [hshifted] at hsum
  dsimp only
  generalize lowProduct + highProduct <<< 32 = low at hsum ⊢
  -- the sum wrapped around where it is below one of its terms
  have hcarry : (if low < lowProduct then 1 else 0 : UInt32).toNat =
      if low.toNat < lowProduct.toNat then 1 else 0 := by
    by_cases hlt : low < lowProduct
    · rw [if_pos hlt, if_pos (UInt64.lt_iff_toNat_lt.1 hlt)]
      rfl
    · rw [if_neg hlt, if_neg (mt UInt64.lt_iff_toNat_lt.2 hlt)]
      rfl
  have hfits : (highProduct >>> 32).toUInt32.toNat +
      (if low < lowProduct then 1 else 0 : UInt32).toNat < 2 ^ 32 := by
    rw [hnarrow, hcarry]
    split <;> omega
  rw [narrow_ok (by omega), ok_bind, add32_ok hfits, ok_bind]
  refine ⟨_, rfl, ?_⟩
  have hhigh : ((highProduct >>> 32).toUInt32 + if low < lowProduct then 1 else 0).toNat =
      highProduct.toNat / 2 ^ 32 + if low.toNat < lowProduct.toNat then 1 else 0 := by
    rw [UInt32.toNat_add, Nat.mod_eq_of_lt hfits, hnarrow, hcarry]
  rw [U96.toNat, hsplit]
  dsimp only
  rw [hhigh]
  split <;> omega

theorem shift_lt_iff {shift : UInt32} : shift < 64 ↔ shift.toNat < 64 := UInt32.lt_iff_toNat_lt

theorem u96ShiftRight_ok {value : U96} (hvalue : value.toNat < 2 ^ 85) (shift : UInt32)
    (hlow : 53 ≤ shift.toNat) (hhigh : shift.toNat < 86) : ∃ quotient,
      u96ShiftRight value shift = .ok quotient ∧ quotient.toNat = value.toNat / 2 ^ shift.toNat := by
  have hwords := value.low.toNat_lt
  rw [U96.toNat] at hvalue ⊢
  rw [u96ShiftRight]
  by_cases hshort : shift < 64
  · rw [shift_lt_iff] at hshort
    have hrest : ((64 : UInt32) - shift).toNat = 64 - shift.toNat :=
      UInt32.toNat_sub_of_le _ _ (UInt32.le_iff_toNat_le.2 hshort.le)
    have hplaces : 2 ^ 64 = 2 ^ shift.toNat * 2 ^ (64 - shift.toNat) := by
      rw [← Nat.pow_add]
      congr 1
      omega
    have hsmall : 2 ^ (64 - shift.toNat) ≤ 2 ^ 11 :=
      Nat.pow_le_pow_right (by decide) (by omega)
    obtain ⟨low, hlowEq, hlowNat⟩ := @shiftRight_ok QuantizeStatus value.low shift hshort
    have hlowLt : low.toNat < 2 ^ (64 - shift.toNat) := by
      rw [hlowNat]
      exact Nat.div_lt_of_lt_mul (hplaces ▸ hwords)
    have hhighLt : value.high.toUInt64.toNat * 2 ^ (64 - shift.toNat) < 2 ^ 32 := by
      rw [UInt32.toNat_toUInt64]
      calc value.high.toNat * 2 ^ (64 - shift.toNat) ≤ (2 ^ 21 - 1) * 2 ^ 11 :=
            Nat.mul_le_mul (by omega) hsmall
        _ < 2 ^ 32 := by norm_num
    obtain ⟨high, hhighEq, hhighNat⟩ := @shiftLeft_ok QuantizeStatus value.high.toUInt64 (64 - shift)
      (by omega) (by rw [hrest]; omega)
    rw [hrest, UInt32.toNat_toUInt64] at hhighNat
    have hor : (low ||| high).toNat =
        (value.low.toNat + 2 ^ 64 * value.high.toNat) / 2 ^ shift.toNat := by
      rw [UInt64.toNat_or, Nat.or_comm, hhighNat, Nat.mul_comm,
        ← Nat.two_pow_add_eq_or_of_lt hlowLt, hlowNat, hplaces, Nat.mul_assoc,
        Nat.add_mul_div_left _ _ (Nat.two_pow_pos _), Nat.add_comm]
    have hfits : (low ||| high).toNat < 2 ^ 32 := by
      rw [hor]
      refine Nat.div_lt_of_lt_mul (hvalue.trans_le ?_)
      rw [← Nat.pow_add]
      exact Nat.pow_le_pow_right (by decide) (by omega)
    rw [if_pos (shift_lt_iff.2 hshort), hlowEq, ok_bind, hhighEq, ok_bind, narrow_ok hfits]
    refine ⟨_, rfl, ?_⟩
    rw [UInt64.toNat_toUInt32, Nat.mod_eq_of_lt hfits, hor]
  · have hlong : 64 ≤ shift.toNat := Nat.le_of_not_lt (mt shift_lt_iff.2 hshort)
    have hrest : (shift - 64).toNat = shift.toNat - 64 :=
      UInt32.toNat_sub_of_le _ _ (UInt32.le_iff_toNat_le.2 hlong)
    obtain ⟨quotient, heq, hnat⟩ := @shiftRight32_ok QuantizeStatus value.high (shift - 64) (by omega)
    rw [if_neg hshort]
    refine ⟨quotient, heq, ?_⟩
    have hplaces : 2 ^ shift.toNat = 2 ^ 64 * 2 ^ (shift.toNat - 64) := by
      rw [← Nat.pow_add]
      congr 1
      omega
    rw [hnat, hrest, hplaces, ← Nat.div_div_eq_div_mul]
    congr 1
    omega

theorem u96RemainderZero_ok (value : U96) {shift : UInt32} (hshift : shift.toNat < 86) :
    u96RemainderZero value shift = .ok (decide (value.toNat % 2 ^ shift.toNat = 0)) := by
  have hwords := value.low.toNat_lt
  rw [u96RemainderZero]
  by_cases hshort : shift < 64
  · rw [if_pos hshort]
    rw [shift_lt_iff] at hshort
    obtain ⟨unit, hunitEq, hunit⟩ := @shiftLeft_ok QuantizeStatus 1 shift hshort (by
      rw [UInt64.toNat_one, Nat.one_mul]
      exact Nat.pow_lt_pow_right (by decide) hshort)
    rw [UInt64.toNat_one, Nat.one_mul] at hunit
    have hone : (1 : UInt64) ≤ unit := by
      rw [UInt64.le_iff_toNat_le, hunit]
      exact Nat.one_le_two_pow
    have hmask : (value.low &&& (unit - 1)).toNat = value.low.toNat % 2 ^ shift.toNat := by
      rw [UInt64.toNat_and, UInt64.toNat_sub_of_le _ _ hone, hunit]
      exact Nat.and_two_pow_sub_one_eq_mod _ _
    have hdvd : 2 ^ shift.toNat ∣ 2 ^ 64 := Nat.pow_dvd_pow 2 hshort.le
    have hmod : value.toNat % 2 ^ shift.toNat = value.low.toNat % 2 ^ shift.toNat := by
      obtain ⟨k, hk⟩ := hdvd
      rw [U96.toNat, hk, Nat.mul_assoc, Nat.add_mul_mod_self_left]
    rw [hunitEq, ok_bind, hmod, ← hmask]
    refine congrArg Except.ok (decide_eq_decide.2 ?_)
    rw [← UInt64.toNat_inj]
    rfl
  · have hlong : 64 ≤ shift.toNat := Nat.le_of_not_lt (mt shift_lt_iff.2 hshort)
    have hrest : (shift - 64).toNat = shift.toNat - 64 :=
      UInt32.toNat_sub_of_le _ _ (UInt32.le_iff_toNat_le.2 hlong)
    have hplaces : 2 ^ shift.toNat = 2 ^ 64 * 2 ^ (shift.toNat - 64) := by
      rw [← Nat.pow_add]
      congr 1
      omega
    rw [if_neg hshort]
    have hmod : value.toNat % 2 ^ shift.toNat =
        value.low.toNat + 2 ^ 64 * (value.high.toNat % 2 ^ (shift.toNat - 64)) := by
      rw [U96.toNat, hplaces, Nat.mod_mul, Nat.add_mul_mod_self_left, Nat.mod_eq_of_lt hwords,
        Nat.add_mul_div_left _ _ (by norm_num), Nat.div_eq_of_lt hwords, Nat.zero_add]
    rw [hmod]
    by_cases hlow : value.low = 0
    · obtain ⟨unit, hunitEq, hunit⟩ := @shiftLeft32_ok QuantizeStatus 1 (shift - 64) (by omega) (by
        rw [UInt32.toNat_one, Nat.one_mul, hrest]
        exact Nat.pow_lt_pow_right (by decide) (by omega))
      rw [UInt32.toNat_one, Nat.one_mul, hrest] at hunit
      have hone : (1 : UInt32) ≤ unit := by
        rw [UInt32.le_iff_toNat_le, hunit]
        exact Nat.one_le_two_pow
      have hmask : (value.high &&& (unit - 1)).toNat =
          value.high.toNat % 2 ^ (shift.toNat - 64) := by
        rw [UInt32.toNat_and, UInt32.toNat_sub_of_le _ _ hone, hunit]
        exact Nat.and_two_pow_sub_one_eq_mod _ _
      rw [if_neg (not_not.2 hlow), hunitEq, ok_bind, ← hmask, hlow]
      refine congrArg Except.ok (decide_eq_decide.2 ?_)
      rw [← UInt32.toNat_inj, UInt64.toNat_zero]
      simp
    · have hne : value.low.toNat ≠ 0 := fun h => hlow (UInt64.toNat_inj.1 h)
      rw [if_pos hlow, decide_eq_false (by omega)]
      rfl

/-! ## The nearest integer -/

/-- The exact number that is rounded. -/
def scaledComponent (x : ℚ) : ℚ := (x + 1) * (2 ^ 32 - 1) / 2

variable {quotient : UInt32}

theorem baseBelow_toNat (h : quotient.toNat ≤ 2147483647) (zero : Bool) :
    (baseBelow quotient zero).toNat = if zero ∧ (2147483647 - quotient.toNat) % 2 = 1
      then 2147483648 - quotient.toNat else 2147483647 - quotient.toNat := by
  have hbase : ((2147483647 : UInt32) - quotient).toNat = 2147483647 - quotient.toNat :=
    UInt32.toNat_sub_of_le _ _ (UInt32.le_iff_toNat_le.2 h)
  have hodd : ((2147483647 : UInt32) - quotient) &&& 1 ≠ 0 ↔
      (2147483647 - quotient.toNat) % 2 = 1 := by
    rw [Ne, ← UInt32.toNat_inj, UInt32.toNat_and, hbase, UInt32.toNat_one, Nat.and_one_is_mod,
      UInt32.toNat_zero]
    omega
  rw [baseBelow]
  by_cases hcond : zero ∧ (2147483647 - quotient.toNat) % 2 = 1
  · rw [if_pos hcond, if_pos ⟨hcond.1, hodd.2 hcond.2⟩, UInt32.toNat_add, hbase, UInt32.toNat_one]
    omega
  · rw [if_neg hcond, if_neg fun h => hcond ⟨h.1, hodd.1 h.2⟩, hbase]

theorem baseAbove_toNat (h : quotient.toNat ≤ 2147483647) (zero : Bool) :
    (baseAbove quotient zero).toNat = if zero ∧ (2147483647 + quotient.toNat) % 2 = 0
      then 2147483647 + quotient.toNat else 2147483648 + quotient.toNat := by
  have hbase : ((2147483647 : UInt32) + quotient).toNat = 2147483647 + quotient.toNat := by
    rw [UInt32.toNat_add]
    exact Nat.mod_eq_of_lt (by simp; omega)
  have hodd : ((2147483647 : UInt32) + quotient) &&& 1 ≠ 0 ↔
      (2147483647 + quotient.toNat) % 2 = 1 := by
    rw [Ne, ← UInt32.toNat_inj, UInt32.toNat_and, hbase, UInt32.toNat_one, Nat.and_one_is_mod,
      UInt32.toNat_zero]
    omega
  rw [baseAbove]
  by_cases hcond : zero ∧ (2147483647 + quotient.toNat) % 2 = 0
  · rw [if_pos hcond, if_neg, hbase]
    rw [hodd, hcond.1]
    simp
    omega
  · rw [if_neg hcond, if_pos, UInt32.toNat_add, hbase, UInt32.toNat_one]
    · omega
    · rw [hodd]
      cases zero
      · exact .inl (by simp)
      · exact .inr (by simp at hcond; omega)

/-- The fields of a component, put together: its significand and the shift of the denominator. -/
def significandOf (bits : UInt64) : ℕ :=
  if Binary64.exponent bits = 0 then fraction bits else 2 ^ 52 + fraction bits

def denominatorShiftOf (bits : UInt64) : ℕ :=
  if Binary64.exponent bits = 0 then 1075 else 1076 - Binary64.exponent bits

theorem significandOf_lt (bits : UInt64) : significandOf bits < 2 ^ 53 := by
  have hlt : fraction bits < 2 ^ 52 := Nat.mod_lt _ (by decide)
  rw [significandOf]
  split <;> omega

variable {bits : UInt64}

theorem magnitude_mul_two_pow (h : Binary64.exponent bits ≤ 1023) :
    magnitude bits * 2 ^ denominatorShiftOf bits = significandOf bits * (2 * 2 ^ 1074) := by
  rw [magnitude, denominatorShiftOf, significandOf, ← Nat.pow_succ']
  by_cases hzero : Binary64.exponent bits = 0
  · rw [if_pos hzero, if_pos hzero, if_pos hzero]
  · rw [if_neg hzero, if_neg hzero, if_neg hzero, Nat.mul_assoc, ← Nat.pow_add]
    congr 2
    omega

/-- Half of the product of the magnitude and `2^32 - 1`. -/
def halfProduct (bits : UInt64) : ℚ := |value bits| * (2 ^ 32 - 1) / 2

theorem abs_value (bits : UInt64) :
    |value bits| = magnitude bits / 2 ^ 1074 := by
  rw [value, abs_div, abs_of_pos (by positivity : (0 : ℚ) < 2 ^ 1074), ← Int.cast_abs,
    Int.abs_eq_natAbs, natAbs_units, Int.cast_natCast]

theorem scaledComponent_value (bits : UInt64) : scaledComponent (value bits) =
    (2147483647 : ℤ) + 1 / 2 + if negative bits then -halfProduct bits else halfProduct bits := by
  have hvalue : value bits =
      if negative bits then -|value bits| else |value bits| := by
    rw [abs_value, value, units]
    split
    · rw [Int.cast_neg, Int.cast_natCast, neg_div]
    · rw [Int.cast_natCast]
  rw [scaledComponent, halfProduct]
  by_cases hneg : negative bits = true
  · rw [if_pos hneg] at hvalue ⊢
    rw [hvalue, abs_neg, abs_abs]
    push_cast
    ring
  · rw [if_neg hneg] at hvalue ⊢
    rw [hvalue, abs_abs]
    push_cast
    ring

variable {places : ℕ}

theorem half_quotient {magnitude significand : ℕ} {unit : ℚ} (hunit : 0 < unit)
    (hplaces : 0 < places) (h : (magnitude : ℚ) * places = significand * (2 * unit)) :
    magnitude / unit * (2 ^ 32 - 1) / 2 = (significand * (2 ^ 32 - 1) : ℕ) / (places : ℚ) := by
  have hplaces' : (0 : ℚ) < places := Nat.cast_pos.2 hplaces
  rw [div_mul_eq_mul_div, div_div, div_eq_div_iff (by positivity) (by positivity)]
  push_cast
  linear_combination (2 ^ 32 - 1 : ℚ) * h

theorem halfProduct_eq (h : Binary64.exponent bits ≤ 1023) : halfProduct bits =
      (significandOf bits * (2 ^ 32 - 1) : ℕ) / (2 ^ denominatorShiftOf bits : ℕ) := by
  have hscale := congrArg (Nat.cast : ℕ → ℚ) (magnitude_mul_two_pow h)
  rw [Nat.cast_mul, Nat.cast_mul, Nat.cast_mul, Nat.cast_pow 2 1074, Nat.cast_two] at hscale
  rw [halfProduct, abs_value]
  exact half_quotient (by positivity) (Nat.two_pow_pos _) hscale

/-! ## Correct rounding -/

theorem magnitude_eq_zero_iff (bits : UInt64) :
    magnitude bits = 0 ↔ bits &&& 0x7fffffffffffffff = 0 := by
  have hmask : (bits &&& 0x7fffffffffffffff).toNat = bits.toNat % 2 ^ 63 := by
    rw [UInt64.toNat_and]
    exact Nat.and_two_pow_sub_one_eq_mod bits.toNat 63
  rw [← UInt64.toNat_inj, hmask, magnitude_eq, UInt64.toNat_zero]
  constructor
  · intro h
    exact ladder_strictMono.injective (h.trans rfl)
  · intro h
    rw [h]
    rfl

/-- A component that the code rounds. -/
def Component (bits : UInt64) : Prop := Binary64.Finite bits ∧ |value bits| ≤ 1

theorem Component.exponent_le (h : Component bits) : Binary64.exponent bits ≤ 1023 := by
  have := magnitude_le_iff.1 (abs_value_le_one.1 h.2)
  omega

theorem Component.halfProduct_le (h : Component bits) : halfProduct bits ≤ (2 ^ 32 - 1) / 2 := by
  have := h.2
  rw [halfProduct]
  linarith

theorem halfProduct_split (h : Component bits) {product : ℕ}
    (hproduct : product = significandOf bits * (2 ^ 32 - 1))
    (hplaces : places = 2 ^ denominatorShiftOf bits) :
    ∃ f : ℚ, 0 ≤ f ∧ f < 1 ∧ (f = 0 ↔ product % places = 0) ∧
      halfProduct bits = (product / places : ℕ) + f ∧ product / places ≤ 2147483647 := by
  have hpos : 0 < places := hplaces ▸ Nat.two_pow_pos _
  have hpos' : (0 : ℚ) < places := Nat.cast_pos.2 hpos
  have hhalf : halfProduct bits = (product : ℚ) / places := by
    rw [halfProduct_eq h.exponent_le, hproduct, hplaces]
  have hdiv : (product : ℚ) / places =
      (product / places : ℕ) + ((product % places : ℕ) : ℚ) / places := by
    have hsplit : (product : ℚ) = (product % places : ℕ) + places * (product / places : ℕ) := by
      exact_mod_cast (Nat.mod_add_div product places).symm
    rw [div_eq_iff hpos'.ne', add_mul, div_mul_cancel₀ _ hpos'.ne', mul_comm, add_comm]
    exact hsplit
  have hlt : ((product % places : ℕ) : ℚ) / places < 1 := by
    rw [div_lt_one hpos', Nat.cast_lt]
    exact Nat.mod_lt _ hpos
  have hnonneg : 0 ≤ ((product % places : ℕ) : ℚ) / places := by positivity
  refine ⟨_, hnonneg, hlt, ?_, hhalf.trans hdiv, ?_⟩
  · rw [div_eq_zero_iff, or_iff_left hpos'.ne', Nat.cast_eq_zero]
  · have hle := h.halfProduct_le
    rw [hhalf, hdiv] at hle
    have hquotient : ((product / places : ℕ) : ℚ) < (2147483648 : ℕ) := by
      push_cast
      linarith
    exact Nat.lt_succ_iff.1 (Nat.cast_lt.1 hquotient)

theorem nearest_base (h : Component bits) {product : ℕ}
    (hproduct : product = significandOf bits * (2 ^ 32 - 1))
    (hplaces : places = 2 ^ denominatorShiftOf bits) (hquotient : quotient.toNat = product / places)
    {zero : Bool} (hzero : zero = decide (product % places = 0)) :
    NearestInteger (scaledComponent (value bits))
      (if negative bits then baseBelow quotient zero else baseAbove quotient zero).toNat := by
  obtain ⟨f, hnonneg, hlt, hremainder, hhalf, hle⟩ := halfProduct_split h hproduct hplaces
  rw [← hquotient] at hle hhalf
  have hzero' : zero = true ↔ f = 0 := by rw [hzero, decide_eq_true_iff, hremainder]
  rw [scaledComponent_value, hhalf]
  by_cases hneg : negative bits = true
  · have hround := NearestInteger.half_sub (2147483647 - quotient.toNat) hnonneg hlt
    rw [if_pos hneg, if_pos hneg, baseBelow_toNat hle]
    convert hround using 1
    · push_cast
      ring
    · by_cases hf : f = 0
      · simp only [hzero'.2 hf, hf, true_and]
        split <;> split <;> omega
      · simp only [Bool.eq_false_iff.2 (mt hzero'.1 hf), Bool.false_eq_true, hf, false_and, if_false]
        omega
  · have hround := NearestInteger.half_add (2147483647 + quotient.toNat) hnonneg hlt
    rw [if_neg hneg, if_neg hneg, baseAbove_toNat hle]
    convert hround using 1
    · push_cast
      ring
    · by_cases hf : f = 0
      · simp only [hzero'.2 hf, hf, true_and]
        split <;> split <;> omega
      · simp only [Bool.eq_false_iff.2 (mt hzero'.1 hf), Bool.false_eq_true, hf, false_and, if_false]
        omega

theorem halfProduct_pos (hne : magnitude bits ≠ 0) : 0 < halfProduct bits := by
  have hmagnitude : (0 : ℚ) < magnitude bits := Nat.cast_pos.2 (Nat.pos_of_ne_zero hne)
  have hunit : (0 : ℚ) < 2 ^ 1074 := by positivity
  rw [halfProduct, abs_value]
  exact div_pos (mul_pos (div_pos hmagnitude hunit) (by norm_num)) (by norm_num)

theorem halfProduct_lt_half (h : Component bits) (hcut : 86 ≤ denominatorShiftOf bits) :
    halfProduct bits < 1 / 2 := by
  have hplaces : (2 : ℚ) ^ 86 ≤ (2 ^ denominatorShiftOf bits : ℕ) := by
    rw [Nat.cast_pow]
    exact pow_le_pow_right₀ (by norm_num) hcut
  have hproduct : ((significandOf bits * (2 ^ 32 - 1) : ℕ) : ℚ) < 2 ^ 85 := by
    have hlt := significandOf_lt bits
    have hnat : significandOf bits * (2 ^ 32 - 1) < 2 ^ 85 := by omega
    exact_mod_cast hnat
  rw [halfProduct_eq h.exponent_le]
  generalize ((2 ^ denominatorShiftOf bits : ℕ) : ℚ) = places at hplaces ⊢
  generalize ((significandOf bits * (2 ^ 32 - 1) : ℕ) : ℚ) = product at hproduct ⊢
  rw [div_lt_iff₀ (by linarith)]
  linarith

theorem nearest_cutoff (h : Component bits) (hcut : 86 ≤ denominatorShiftOf bits)
    (hne : magnitude bits ≠ 0) : NearestInteger (scaledComponent (value bits))
      (if negative bits then 2147483647 else 2147483648) := by
  have hpos := halfProduct_pos hne
  have hsmall := halfProduct_lt_half h hcut
  rw [scaledComponent_value]
  split
  · refine .of_within ?_ ?_ fun htie => ?_
    · push_cast
      linarith
    · push_cast
      linarith
    · push_cast at htie
      rcases htie with htie | htie <;> linarith
  · refine .of_within ?_ ?_ fun htie => ?_
    · push_cast
      linarith
    · push_cast
      linarith
    · push_cast at htie
      rcases htie with htie | htie <;> linarith

theorem nearest_zero (h : magnitude bits = 0) :
    NearestInteger (scaledComponent (value bits)) 2147483648 := by
  have hvalue : value bits = 0 := by
    rw [← abs_eq_zero, abs_value, h, Nat.cast_zero, zero_div]
  rw [hvalue, scaledComponent]
  refine .of_within ?_ ?_ fun _ => ?_
  · norm_num
  · norm_num
  · decide

section Fields

variable {bits : UInt64} {exponent : UInt32} (hexp : exponent.toNat = Binary64.exponent bits)
include hexp

theorem exponent_eq_zero_iff : exponent = 0 ↔ Binary64.exponent bits = 0 := by
  rw [← hexp, ← UInt32.toNat_inj]
  rfl

theorem significand_toNat : (if exponent = 0 then bits &&& 0x000fffffffffffff
      else 0x0010000000000000 ||| (bits &&& 0x000fffffffffffff) : UInt64).toNat = significandOf bits := by
  rw [significandOf]
  by_cases hzero : exponent = 0
  · rw [if_pos hzero, if_pos ((exponent_eq_zero_iff hexp).1 hzero), fraction_toNat]
  · rw [if_neg hzero, if_neg (mt (exponent_eq_zero_iff hexp).2 hzero), Binary64.significand_toNat]

theorem denominatorShift_toNat (hle : Binary64.exponent bits ≤ 1023) :
    (if exponent = 0 then 1075 else 1076 - exponent : UInt32).toNat = denominatorShiftOf bits := by
  rw [denominatorShiftOf]
  by_cases hzero : exponent = 0
  · rw [if_pos hzero, if_pos ((exponent_eq_zero_iff hexp).1 hzero)]
    rfl
  · have hsub : exponent ≤ 1076 := by
      rw [UInt32.le_iff_toNat_le, hexp]
      exact hle.trans (by decide)
    rw [if_neg hzero, if_neg (mt (exponent_eq_zero_iff hexp).2 hzero),
      UInt32.toNat_sub_of_le _ _ hsub, hexp]
    rfl

end Fields

theorem component_iff (bits : UInt64) : Component bits ↔
    ¬ (((bits >>> 52) &&& 0x7ff).toUInt32 = 0x7ff ∨ value bits < -1 ∨
      1 < value bits) := by
  have hexp : ((bits >>> 52) &&& 0x7ff).toUInt32 = 0x7ff ↔ Binary64.exponent bits = 2047 := by
    rw [← exponent_toNat, ← UInt32.toNat_inj]
    rfl
  rw [Component, Binary64.Finite, hexp, abs_le, not_or, not_or, not_lt, not_lt]

theorem denominatorShiftOf_ge (h : Component bits) : 53 ≤ denominatorShiftOf bits := by
  have := h.exponent_le
  rw [denominatorShiftOf]
  split <;> omega

/-- **A component is rounded to the nearest integer**, and nothing overflows on the way. -/
theorem quantizeComponentU32_ok (h : Component bits) : ∃ quantized,
    quantizeComponentU32 bits = .ok quantized ∧
      NearestInteger (scaledComponent (value bits)) quantized.toNat := by
  have hexp := exponent_toNat bits
  have hsignificand := significand_toNat hexp
  have hshift := denominatorShift_toNat hexp h.exponent_le
  rw [quantizeComponentU32, require_ok ((component_iff bits).1 h), ok_bind]
  dsimp only
  generalize ((bits >>> 52) &&& 0x7ff).toUInt32 = exponent at hsignificand hshift ⊢
  generalize (if exponent = 0 then bits &&& 0x000fffffffffffff
    else 0x0010000000000000 ||| (bits &&& 0x000fffffffffffff)) = significand at hsignificand ⊢
  generalize (if exponent = 0 then 1075 else 1076 - exponent) = shift at hshift ⊢
  by_cases hzero : bits &&& 0x7fffffffffffffff = 0
  · rw [if_pos hzero]
    exact ⟨_, rfl, nearest_zero ((magnitude_eq_zero_iff bits).2 hzero)⟩
  rw [if_neg hzero]
  have hne := mt (magnitude_eq_zero_iff bits).1 hzero
  have hcutNat : (86 : UInt32) ≤ shift ↔ 86 ≤ denominatorShiftOf bits := by
    rw [UInt32.le_iff_toNat_le, hshift]
    rfl
  by_cases hcut : 86 ≤ shift
  · rw [if_pos hcut]
    refine ⟨_, rfl, ?_⟩
    have hnear := nearest_cutoff h (hcutNat.1 hcut) hne
    by_cases hneg : negative bits = true
    · rw [if_pos hneg] at hnear ⊢
      exact hnear
    · rw [if_neg hneg] at hnear ⊢
      exact hnear
  rw [if_neg hcut]
  have hlow := denominatorShiftOf_ge h
  have hhigh : denominatorShiftOf bits < 86 := Nat.lt_of_not_le (mt hcutNat.2 hcut)
  obtain ⟨product, hproductEq, hproduct⟩ := multiplyU53U32_ok significand
    (by rw [hsignificand]; exact significandOf_lt bits) 4294967295
  have hbound : product.toNat < 2 ^ 85 := by
    have hlt := significandOf_lt bits
    rw [hproduct, hsignificand]
    change significandOf bits * 4294967295 < 2 ^ 85
    omega
  obtain ⟨quotient, hquotientEq, hquotient⟩ :=
    u96ShiftRight_ok hbound shift (by omega) (by omega)
  rw [hproductEq, ok_bind, hquotientEq, ok_bind, u96RemainderZero_ok _ (by omega), ok_bind]
  refine ⟨_, rfl, nearest_base h ?_ (congrArg (2 ^ ·) hshift) hquotient rfl⟩
  rw [hproduct, hsignificand]
  rfl

theorem quantizeComponentU32_refuses (h : ¬ Component bits) :
    quantizeComponentU32 bits = .error (.fails .numericOutOfRange) := by
  rw [quantizeComponentU32, require_fails (mt (component_iff bits).2 h), error_bind]

/-! ## The rounding law -/

/-- Every component is rounded to the nearest integer, ties to the even one; the result grows with
the component and takes the ends of the range to the ends; no shift or product traps. -/
theorem quantizeComponentU32_nearest :
    (∀ bits, Binary64.Finite bits → -1 ≤ value bits → value bits ≤ 1 →
      ∃ quantized, quantizeComponentU32 bits = .ok quantized ∧ NearestInteger
        ((value bits + 1) * (2 ^ 32 - 1) / 2) quantized.toNat) ∧
    (∀ bits other quantized otherQuantized, quantizeComponentU32 bits = .ok quantized →
      quantizeComponentU32 other = .ok otherQuantized →
        value bits ≤ value other → quantized ≤ otherQuantized) ∧
    (∀ bits quantized, quantizeComponentU32 bits = .ok quantized →
      (value bits = -1 → quantized = 0) ∧
        (value bits = 1 → quantized.toNat = 2 ^ 32 - 1)) ∧
    ∀ bits, quantizeComponentU32 bits ≠ .error .trap := by
  have hround {bits quantized} (h : quantizeComponentU32 bits = .ok quantized) :
      NearestInteger (scaledComponent (value bits)) quantized.toNat := by
    by_cases hcomponent : Component bits
    · obtain ⟨found, hok, hnear⟩ := quantizeComponentU32_ok hcomponent
      rw [h, Except.ok.injEq] at hok
      rwa [hok]
    · rw [quantizeComponentU32_refuses hcomponent] at h
      cases h
  refine ⟨fun bits hfinite hlow hhigh => ?_, fun bits other quantized otherQuantized h h' hle => ?_,
    fun bits quantized h => ⟨fun hvalue => ?_, fun hvalue => ?_⟩, fun bits htrap => ?_⟩
  · exact quantizeComponentU32_ok ⟨hfinite, abs_le.2 ⟨hlow, hhigh⟩⟩
  · have hscaled : scaledComponent (value bits) ≤
        scaledComponent (value other) := by
      rw [scaledComponent, scaledComponent]
      linarith
    have hmono := (hround h).mono (hround h') hscaled
    rw [UInt32.le_iff_toNat_le]
    exact_mod_cast hmono
  · have hnear := hround h
    rw [hvalue, scaledComponent, neg_add_cancel, zero_mul, zero_div] at hnear
    have hzero := hnear.unique (NearestInteger.of_int 0)
    exact UInt32.toNat_inj.1 (by exact_mod_cast hzero)
  · have hnear := hround h
    have hend : scaledComponent 1 = (4294967295 : ℤ) := by
      rw [scaledComponent]
      norm_num
    rw [hvalue, hend] at hnear
    have htop := hnear.unique (NearestInteger.of_int _)
    exact_mod_cast htop
  · by_cases hcomponent : Component bits
    · obtain ⟨found, hok, -⟩ := quantizeComponentU32_ok hcomponent
      rw [hok] at htrap
      cases htrap
    · rw [quantizeComponentU32_refuses hcomponent] at htrap
      cases htrap

end Laplace.Unicode
