import Mathlib.Algebra.Order.Field.Rat
import Mathlib.Tactic

/-!
# Binary64 patterns as rational numbers

A finite pattern is an integer number of units of `2 ^ -1074`. The patterns without the sign bit
are ordered as the numbers they stand for, so rounding to the nearest one is a choice between a
pattern and its successor.
-/

namespace Laplace.Binary64

def fraction (bits : UInt64) : ℕ := bits.toNat % 2 ^ 52

def exponent (bits : UInt64) : ℕ := bits.toNat / 2 ^ 52 % 2 ^ 11

def negative (bits : UInt64) : Bool := bits.toNat / 2 ^ 63 = 1

/-- Neither an infinity nor a NaN. -/
def Finite (bits : UInt64) : Prop := exponent bits ≠ 2047

instance (bits : UInt64) : Decidable (Finite bits) := inferInstanceAs (Decidable (_ ≠ _))

/-- The magnitude in units of `2 ^ -1074`. -/
def magnitude (bits : UInt64) : ℕ :=
  if exponent bits = 0 then fraction bits
  else (2 ^ 52 + fraction bits) * 2 ^ (exponent bits - 1)

def units (bits : UInt64) : ℤ := if negative bits then -(magnitude bits : ℤ) else magnitude bits

def value (bits : UInt64) : ℚ := units bits / 2 ^ 1074

/-- The pattern nearest to `q`; of two that are equally near, the one with the even significand. -/
structure Nearest (q : ℚ) (bits : UInt64) : Prop where
  finite : Finite bits
  closest : ∀ other, Finite other → |value bits - q| ≤ |value other - q|
  tie : ∀ other, Finite other → |value other - q| = |value bits - q| → value other ≠ value bits →
    bits.toNat % 2 = 0

/-! ## The ladder of magnitudes -/

/-- The magnitude of the pattern with these low 63 bits. -/
def ladder (low : ℕ) : ℕ :=
  if low / 2 ^ 52 = 0 then low % 2 ^ 52 else (2 ^ 52 + low % 2 ^ 52) * 2 ^ (low / 2 ^ 52 - 1)

theorem magnitude_eq (bits : UInt64) : magnitude bits = ladder (bits.toNat % 2 ^ 63) := by
  have hfraction : bits.toNat % 2 ^ 63 % 2 ^ 52 = fraction bits := by
    rw [fraction]
    omega
  have hexponent : bits.toNat % 2 ^ 63 / 2 ^ 52 = exponent bits := by
    rw [exponent]
    omega
  rw [ladder, hfraction, hexponent, magnitude]

theorem ladder_succ (low : ℕ) : ladder (low + 1) = ladder low + 2 ^ (low / 2 ^ 52 - 1) := by
  by_cases hcarry : low % 2 ^ 52 = 2 ^ 52 - 1
  · have hq : (low + 1) / 2 ^ 52 = low / 2 ^ 52 + 1 := by omega
    have hr : (low + 1) % 2 ^ 52 = 0 := by omega
    rw [ladder, ladder, hq, hr, if_neg (by omega), hcarry]
    by_cases hsub : low / 2 ^ 52 = 0
    · rw [if_pos hsub, hsub]
      rfl
    · obtain ⟨e, he⟩ := Nat.exists_eq_succ_of_ne_zero hsub
      rw [if_neg hsub, he]
      simp only [Nat.succ_eq_add_one, Nat.add_sub_cancel, Nat.pow_succ 2 e]
      omega
  · have hq : (low + 1) / 2 ^ 52 = low / 2 ^ 52 := by omega
    have hr : (low + 1) % 2 ^ 52 = low % 2 ^ 52 + 1 := by omega
    rw [ladder, ladder, hq, hr]
    by_cases hsub : low / 2 ^ 52 = 0
    · rw [if_pos hsub, if_pos hsub, hsub]
      rfl
    · rw [if_neg hsub, if_neg hsub]
      ring

theorem ladder_binade (e : ℕ) : ladder ((e + 1) * 2 ^ 52) = 2 ^ (52 + e) := by
  rw [ladder, Nat.mul_mod_left, Nat.mul_div_cancel _ (by decide), if_neg (by omega), Nat.add_zero,
    Nat.add_sub_cancel, ← Nat.pow_add]

theorem ladder_strictMono : StrictMono ladder :=
  strictMono_nat_of_lt_succ fun low => by
    rw [ladder_succ]
    exact Nat.lt_add_of_pos_right (by positivity)

theorem units_le_or_ge (bits : UInt64) (low : ℕ) :
    units bits ≤ ladder low ∨ (ladder (low + 1) : ℤ) ≤ units bits := by
  rw [units, magnitude_eq]
  split
  · exact .inl (by omega)
  · rcases Nat.lt_or_ge low (bits.toNat % 2 ^ 63) with hlt | hge
    · exact .inr (by exact_mod_cast ladder_strictMono.monotone hlt)
    · exact .inl (by exact_mod_cast ladder_strictMono.monotone hge)

theorem units_of_lt {bits : UInt64} (h : bits.toNat < 2 ^ 63) :
    units bits = ladder bits.toNat := by
  have hneg : negative bits = false := by
    rw [negative, Nat.div_eq_of_lt h]
    rfl
  rw [units, hneg, magnitude_eq, Nat.mod_eq_of_lt h]
  rfl

/-- The rounding rule between `low` and its successor: `x` is a number of units. -/
def RoundsFrom (low : ℕ) (x : ℚ) (chosen : ℕ) : Prop :=
  (chosen = low ∧ (2 * x < ladder low + ladder (low + 1) ∨
    2 * x = ladder low + ladder (low + 1) ∧ low % 2 = 0)) ∨
  (chosen = low + 1 ∧ (ladder low + ladder (low + 1) < 2 * x ∨
    2 * x = ladder low + ladder (low + 1) ∧ low % 2 = 1))

theorem abs_value_sub (bits : UInt64) (x : ℚ) :
    |value bits - x / 2 ^ 1074| = |(units bits : ℚ) - x| / 2 ^ 1074 := by
  rw [value, ← sub_div, abs_div, abs_of_pos (by positivity : (0 : ℚ) < 2 ^ 1074)]

theorem nearest_iff (bits : UInt64) (x : ℚ) : Nearest (x / 2 ^ 1074) bits ↔
    Finite bits ∧ (∀ other, Finite other → |(units bits : ℚ) - x| ≤ |(units other : ℚ) - x|) ∧
      ∀ other, Finite other → |(units other : ℚ) - x| = |(units bits : ℚ) - x| →
        units other ≠ units bits → bits.toNat % 2 = 0 := by
  have hpos : (0 : ℚ) < 2 ^ 1074 := by positivity
  have hvalue : ∀ other, value other = value bits ↔ units other = units bits := by
    intro other
    rw [value, value, div_left_inj' hpos.ne', Int.cast_inj]
  constructor
  · intro h
    refine ⟨h.finite, fun other ho => ?_, fun other ho heq hne => h.tie other ho ?_ ?_⟩
    · have := h.closest other ho
      rwa [abs_value_sub, abs_value_sub, div_le_div_iff_of_pos_right hpos] at this
    · rw [abs_value_sub, abs_value_sub, heq]
    · exact (hvalue other).not.2 hne
  · intro ⟨hfin, hclosest, htie⟩
    refine ⟨hfin, fun other ho => ?_, fun other ho heq hne => htie other ho ?_ ?_⟩
    · rw [abs_value_sub, abs_value_sub, div_le_div_iff_of_pos_right hpos]
      exact hclosest other ho
    · rwa [abs_value_sub, abs_value_sub, div_left_inj' hpos.ne'] at heq
    · exact (hvalue other).not.1 hne

/-- **Rounding between neighbours is rounding to the nearest**: every other pattern lies on the far
side of one of the two. -/
theorem RoundsFrom.nearest {low : ℕ} {x : ℚ} {bits : UInt64} (h : RoundsFrom low x bits.toNat)
    (hlow : ladder low ≤ x) (hhigh : x ≤ ladder (low + 1)) (hfin : low + 1 < 2047 * 2 ^ 52) :
    Nearest (x / 2 ^ 1074) bits := by
  have hbits : bits.toNat < 2047 * 2 ^ 52 := by
    rcases h with ⟨hc, -⟩ | ⟨hc, -⟩ <;> omega
  have hunits : units bits = ladder bits.toNat := units_of_lt (by omega)
  have hfar : ∀ other, (units other : ℚ) ≤ ladder low ∨ (ladder (low + 1) : ℚ) ≤ units other := by
    intro other
    rcases units_le_or_ge other low with hle | hge
    · exact .inl (by exact_mod_cast hle)
    · exact .inr (by exact_mod_cast hge)
  refine (nearest_iff bits x).2 ⟨?_, fun other _ => ?_, fun other _ heq hne => ?_⟩
  · rw [Finite, exponent]
    omega
  · rw [hunits]
    rcases h with ⟨hc, hx⟩ | ⟨hc, hx⟩
    · rw [hc, Int.cast_natCast, abs_of_nonpos (by linarith)]
      rcases hfar other with hle | hge
      · rw [abs_of_nonpos (by linarith)]
        linarith
      · rw [abs_of_nonneg (by linarith)]
        rcases hx with hx | ⟨hx, -⟩ <;> linarith
    · rw [hc, Int.cast_natCast, abs_of_nonneg (by linarith)]
      rcases hfar other with hle | hge
      · rw [abs_of_nonpos (by linarith)]
        rcases hx with hx | ⟨hx, -⟩ <;> linarith
      · rw [abs_of_nonneg (by linarith)]
        linarith
  · rw [hunits] at heq hne
    have hne' : (units other : ℚ) ≠ ladder bits.toNat := by exact_mod_cast hne
    rcases h with ⟨hc, hx⟩ | ⟨hc, hx⟩
    · rw [hc] at heq hne' ⊢
      rw [Int.cast_natCast, abs_of_nonpos (by linarith : (ladder low : ℚ) - x ≤ 0)] at heq
      rcases hfar other with hle | hge
      · rw [abs_of_nonpos (by linarith)] at heq
        exact absurd (by linarith) hne'
      · rw [abs_of_nonneg (by linarith)] at heq
        rcases hx with hx | ⟨-, heven⟩
        · linarith
        · exact heven
    · rw [hc] at heq hne' ⊢
      rw [Int.cast_natCast, abs_of_nonneg (by linarith : 0 ≤ (ladder (low + 1) : ℚ) - x)] at heq
      rcases hfar other with hle | hge
      · rw [abs_of_nonpos (by linarith)] at heq
        rcases hx with hx | ⟨-, hodd⟩
        · linarith
        · omega
      · rw [abs_of_nonneg (by linarith)] at heq
        exact absurd (by linarith) hne'

theorem natAbs_units (bits : UInt64) : (units bits).natAbs = magnitude bits := by
  rw [units]
  split <;> simp

theorem abs_value_le_one {bits : UInt64} : |value bits| ≤ 1 ↔ magnitude bits ≤ 2 ^ 1074 := by
  rw [value, abs_div, abs_of_pos (by positivity : (0 : ℚ) < 2 ^ 1074),
    div_le_one (by positivity), ← Int.cast_abs, Int.abs_eq_natAbs, natAbs_units,
    Int.cast_natCast, ← Nat.cast_ofNat,
    ← Nat.cast_pow, Nat.cast_le]

theorem magnitude_le_iff {bits : UInt64} : magnitude bits ≤ 2 ^ 1074 ↔
    exponent bits < 1023 ∨ exponent bits = 1023 ∧ fraction bits = 0 := by
  have hone := ladder_binade 1022
  simp only [Nat.reduceAdd] at hone
  rw [magnitude_eq, ← hone, ladder_strictMono.le_iff_le, exponent, fraction]
  omega

theorem value_eq_zero {bits : UInt64} : value bits = 0 ↔ units bits = 0 := by
  rw [value, div_eq_zero_iff, or_iff_left (by positivity), Int.cast_eq_zero]

theorem nearest_zero : Nearest 0 0 := by
  have hvalue : value 0 = 0 := value_eq_zero.2 rfl
  refine ⟨by decide, fun other _ => ?_, fun _ _ _ _ => rfl⟩
  rw [hvalue, sub_zero, abs_zero]
  exact abs_nonneg _

theorem nearest_congr {q : ℚ} {left right : UInt64} (hunits : units left = units right)
    (hfin : Finite right) (heven : right.toNat % 2 = 0) (h : Nearest q left) : Nearest q right := by
  have hvalue : value left = value right := by rw [value, value, hunits]
  refine ⟨hfin, ?_, fun _ _ _ _ => heven⟩
  rw [← hvalue]
  exact h.closest

/-! ## The fields as code takes them out -/

section Fields

variable (bits : UInt64)

theorem fraction_toNat : (bits &&& 0x000fffffffffffff).toNat = fraction bits := by
  rw [UInt64.toNat_and]
  exact Nat.and_two_pow_sub_one_eq_mod bits.toNat 52

theorem exponent_toNat :
    ((bits >>> 52) &&& 0x7ff).toUInt32.toNat = exponent bits := by
  have hmask : ((bits >>> 52) &&& 0x7ff).toNat = bits.toNat / 2 ^ 52 % 2 ^ 11 := by
    rw [UInt64.toNat_and, UInt64.toNat_shiftRight, Nat.shiftRight_eq_div_pow]
    exact Nat.and_two_pow_sub_one_eq_mod (bits.toNat / 2 ^ 52) 11
  rw [UInt64.toNat_toUInt32, hmask, exponent]
  omega

theorem significand_toNat : (0x0010000000000000 ||| (bits &&& 0x000fffffffffffff)).toNat =
    2 ^ 52 + fraction bits := by
  rw [UInt64.toNat_or, fraction_toNat]
  have hlt : fraction bits < 2 ^ 52 := Nat.mod_lt _ (by decide)
  exact (Nat.two_pow_add_eq_or_of_lt hlt 1).symm

end Fields

/-! ## The sign bit -/

/-- The pattern of the opposite number: adding the sign bit to itself carries it out. -/
def opposite (bits : UInt64) : UInt64 := bits + 0x8000000000000000

theorem opposite_toNat (bits : UInt64) : (opposite bits).toNat = (bits.toNat + 2 ^ 63) % 2 ^ 64 :=
  UInt64.toNat_add bits _

theorem opposite_opposite (bits : UInt64) : opposite (opposite bits) = bits := by
  have hlt := bits.toNat_lt
  rw [← UInt64.toNat_inj, opposite_toNat, opposite_toNat]
  omega

theorem units_opposite (bits : UInt64) : units (opposite bits) = -units bits := by
  have hlt := bits.toNat_lt
  have hmod : (opposite bits).toNat % 2 ^ 63 = bits.toNat % 2 ^ 63 := by
    rw [opposite_toNat]
    omega
  have hneg : negative (opposite bits) = !negative bits := by
    rw [negative, negative, opposite_toNat, ← decide_not, decide_eq_decide]
    omega
  rw [units, units, hneg, magnitude_eq, magnitude_eq, hmod]
  cases negative bits <;> simp

theorem finite_opposite {bits : UInt64} : Finite (opposite bits) ↔ Finite bits := by
  have hlt := bits.toNat_lt
  have hexp : exponent (opposite bits) = exponent bits := by
    rw [exponent, exponent, opposite_toNat]
    omega
  rw [Finite, Finite, hexp]

theorem nearest_opposite {x : ℚ} {bits : UInt64} (h : Nearest (x / 2 ^ 1074) bits) :
    Nearest (-x / 2 ^ 1074) (opposite bits) := by
  obtain ⟨hfin, hclosest, htie⟩ := (nearest_iff bits x).1 h
  have hflip : ∀ other, |(units other : ℚ) - -x| = |(units (opposite other) : ℚ) - x| := by
    intro other
    rw [units_opposite, Int.cast_neg, ← abs_neg ((units other : ℚ) - -x)]
    congr 1
    ring
  refine (nearest_iff _ _).2 ⟨finite_opposite.2 hfin, fun other ho => ?_, fun other ho heq hne => ?_⟩
  · rw [hflip, hflip, opposite_opposite]
    exact hclosest _ (finite_opposite.2 ho)
  · rw [hflip, hflip, opposite_opposite] at heq
    have heven := htie _ (finite_opposite.2 ho) heq (by
      rw [units_opposite] at hne ⊢
      omega)
    rw [opposite_toNat]
    omega

end Laplace.Binary64
