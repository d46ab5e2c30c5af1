import Mathlib.Algebra.Order.Field.Rat
import Mathlib.Algebra.Ring.Parity
import Mathlib.Tactic

/-!
# Rounding to the nearest integer

Ties go to the even one. The integer is determined by the number, and grows with it.
-/

namespace Laplace

/-- The integer nearest to `q`; of two that are equally near, the even one. -/
structure NearestInteger (q : ℚ) (n : ℤ) : Prop where
  closest : ∀ m : ℤ, |(n : ℚ) - q| ≤ |(m : ℚ) - q|
  tie : ∀ m : ℤ, m ≠ n → |(m : ℚ) - q| = |(n : ℚ) - q| → Even n

namespace NearestInteger

theorem of_within {q : ℚ} {n : ℤ} (hlow : (n : ℚ) - 1 / 2 ≤ q) (hhigh : q ≤ n + 1 / 2)
    (htie : q = n - 1 / 2 ∨ q = n + 1 / 2 → Even n) : NearestInteger q n := by
  have hfar (m : ℤ) (hm : m ≠ n) : (m : ℚ) ≤ n - 1 ∨ (n : ℚ) + 1 ≤ m := by
    rcases lt_or_gt_of_ne hm with hlt | hgt
    · exact .inl (by exact_mod_cast Int.le_sub_one_of_lt hlt)
    · exact .inr (by exact_mod_cast hgt)
  have hnear : |(n : ℚ) - q| ≤ 1 / 2 := abs_le.2 ⟨by linarith, by linarith⟩
  refine ⟨fun m => ?_, fun m hm heq => htie ?_⟩
  · by_cases hm : m = n
    · rw [hm]
    · rcases hfar m hm with h | h
      · rw [abs_of_nonpos (by linarith : (m : ℚ) - q ≤ 0)]
        linarith
      · rw [abs_of_nonneg (by linarith : 0 ≤ (m : ℚ) - q)]
        linarith
  · rw [← heq] at hnear
    rcases hfar m hm with h | h
    · rw [abs_of_nonpos (by linarith : (m : ℚ) - q ≤ 0)] at hnear
      exact .inl (by linarith)
    · rw [abs_of_nonneg (by linarith : 0 ≤ (m : ℚ) - q)] at hnear
      exact .inr (by linarith)

theorem abs_sub_le_iff {q x y : ℚ} (h : x < y) : |y - q| ≤ |x - q| ↔ x + y ≤ 2 * q := by
  rcases le_total q x with hx | hx
  · rw [abs_of_nonneg (by linarith), abs_of_nonneg (by linarith)]
    constructor <;> intro <;> linarith
  · rw [abs_of_nonpos (by linarith : x - q ≤ 0), abs_le]
    constructor
    · intro ⟨_, _⟩
      linarith
    · intro _
      constructor <;> linarith

/-- **Rounding is monotone.** -/
theorem mono {p q : ℚ} {m n : ℤ} (hm : NearestInteger p m) (hn : NearestInteger q n)
    (h : p ≤ q) : m ≤ n := by
  by_contra hlt
  rw [not_le] at hlt
  have hlt' : (n : ℚ) < m := by exact_mod_cast hlt
  have hp := (abs_sub_le_iff hlt').1 (hm.closest n)
  have hq : 2 * q ≤ n + m := by
    by_contra hgt
    have := (abs_sub_le_iff (q := -q) (neg_lt_neg hlt')).1 (by
      have := hn.closest m
      rwa [← abs_neg, ← abs_neg ((m : ℚ) - q), neg_sub, neg_sub, sub_eq_neg_add, sub_eq_neg_add,
        ← sub_neg_eq_add, ← sub_neg_eq_add] at this)
    linarith
  -- both lie halfway between `n` and `m`, which are then both even, with a nearer number between
  have hpq : p = q := by linarith
  have hmid : 2 * q = n + m := by linarith
  have heq : |(n : ℚ) - q| = |(m : ℚ) - q| := by
    rw [abs_of_nonpos (by linarith : (n : ℚ) - q ≤ 0), abs_of_nonneg (by linarith)]
    linarith
  have hevenn := hn.tie m hlt.ne' heq.symm
  have hevenm := hm.tie n hlt.ne (by rw [hpq]; exact heq)
  have hgap : n + 2 ≤ m := by
    rcases hevenn with ⟨a, rfl⟩
    rcases hevenm with ⟨b, rfl⟩
    omega
  have hgap' : (n : ℚ) + 2 ≤ m := by exact_mod_cast hgap
  have hnearer := hn.closest (n + 1)
  rw [abs_of_nonpos (by linarith : (n : ℚ) - q ≤ 0), abs_of_nonpos (by push_cast; linarith)]
    at hnearer
  push_cast at hnearer
  linarith

theorem unique {q : ℚ} {m n : ℤ} (hm : NearestInteger q m) (hn : NearestInteger q n) : m = n :=
  le_antisymm (hm.mono hn le_rfl) (hn.mono hm le_rfl)

theorem half_sub (base : ℤ) {f : ℚ} (h0 : 0 ≤ f) (h1 : f < 1) :
    NearestInteger (base + 1 / 2 - f) (if f = 0 ∧ base % 2 = 1 then base + 1 else base) := by
  split
  · rename_i h
    rw [h.1]
    refine of_within (by push_cast; linarith) (by push_cast; linarith) fun _ => ?_
    exact Int.even_iff.2 (by omega)
  · rename_i h
    refine of_within (by linarith) (by linarith) fun htie => Int.even_iff.2 ?_
    have hzero : f = 0 := by rcases htie with h | h <;> linarith
    have hodd : ¬ base % 2 = 1 := fun hodd => h ⟨hzero, hodd⟩
    omega

theorem half_add (base : ℤ) {f : ℚ} (h0 : 0 ≤ f) (h1 : f < 1) :
    NearestInteger (base + 1 / 2 + f) (if f = 0 ∧ base % 2 = 0 then base else base + 1) := by
  split
  · rename_i h
    rw [h.1]
    exact of_within (by linarith) (by linarith) fun _ => Int.even_iff.2 h.2
  · rename_i h
    refine of_within (by push_cast; linarith) (by push_cast; linarith) fun htie =>
      Int.even_iff.2 ?_
    have hzero : f = 0 := by
      push_cast at htie
      rcases htie with h | h <;> linarith
    have heven : ¬ base % 2 = 0 := fun heven => h ⟨hzero, heven⟩
    omega

theorem of_int (n : ℤ) : NearestInteger n n :=
  of_within (by linarith) (by linarith) fun h => by
    rcases h with h | h <;> linarith

end NearestInteger

end Laplace
