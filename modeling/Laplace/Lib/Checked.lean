import Mathlib.Tactic

/-!
# Checked arithmetic on 64-bit words

`checkedAdd` and `checkedMul` are the C idioms `a > MAX - b` and `b > MAX / a`: they succeed
exactly when the mathematical result fits, and then they return it.
-/

namespace Laplace

/-- `SIZE_MAX`, and `UINT64_MAX` as a number. -/
def sizeMax : ℕ := 2 ^ 64 - 1

namespace Checked

def maxWord : UInt64 := 0xFFFFFFFFFFFFFFFF

def checkedAdd (left right : UInt64) : Option UInt64 :=
  if left > maxWord - right then none else some (left + right)

def checkedMul (left right : UInt64) : Option UInt64 :=
  if left ≠ 0 ∧ right > maxWord / left then none else some (left * right)

@[simp] theorem toNat_maxWord : maxWord.toNat = 2 ^ 64 - 1 := rfl

theorem toNat_ofNat {n : ℕ} (h : n < 2 ^ 64) : (UInt64.ofNat n).toNat = n :=
  UInt64.toNat_ofNat_of_lt' h

theorem le_maxWord (a : UInt64) : a ≤ maxWord := by
  rw [UInt64.le_iff_toNat_le, toNat_maxWord]
  have := a.toNat_lt
  omega

theorem checkedAdd_eq_some {a b c : UInt64} : checkedAdd a b = some c ↔ c.toNat = a.toNat + b.toNat := by
  have ha := a.toNat_lt
  have hb := b.toNat_lt
  have hc := c.toNat_lt
  have hsub : (maxWord - b).toNat = 2 ^ 64 - 1 - b.toNat := by
    rw [UInt64.toNat_sub_of_le _ _ (by rw [UInt64.le_iff_toNat_le, toNat_maxWord]; omega), toNat_maxWord]
  unfold checkedAdd
  split
  · rename_i h
    rw [gt_iff_lt, UInt64.lt_iff_toNat_lt, hsub] at h
    simp only [reduceCtorEq, false_iff]
    omega
  · rename_i h
    rw [gt_iff_lt, UInt64.lt_iff_toNat_lt, hsub] at h
    rw [Option.some.injEq, ← UInt64.toNat_inj, UInt64.toNat_add]
    omega

theorem checkedAdd_eq_none {a b : UInt64} : checkedAdd a b = none ↔ 2 ^ 64 ≤ a.toNat + b.toNat := by
  constructor
  · intro h
    by_contra hlt
    have := (checkedAdd_eq_some (a := a) (b := b) (c := UInt64.ofNat (a.toNat + b.toNat))).2
      (by rw [toNat_ofNat (by omega)])
    rw [h] at this
    cases this
  · intro h
    cases hc : checkedAdd a b with
    | none => rfl
    | some c =>
      have := checkedAdd_eq_some.1 hc
      have := c.toNat_lt
      omega

theorem checkedMul_eq_some {a b c : UInt64} : checkedMul a b = some c ↔ c.toNat = a.toNat * b.toNat := by
  have ha := a.toNat_lt
  have hb := b.toNat_lt
  have hc := c.toNat_lt
  have hfit : (a ≠ 0 ∧ b > maxWord / a) ↔ 2 ^ 64 ≤ a.toNat * b.toNat := by
    rw [ne_eq, ← UInt64.toNat_inj, gt_iff_lt, UInt64.lt_iff_toNat_lt, UInt64.toNat_div, toNat_maxWord]
    by_cases h0 : a.toNat = 0
    · simp [h0]
    · have hpos : 0 < a.toNat := by omega
      rw [Nat.div_lt_iff_lt_mul hpos, Nat.mul_comm b.toNat]
      simp only [UInt64.toNat_zero, h0, not_false_eq_true, true_and]
      omega
  unfold checkedMul
  split
  · rename_i h
    have := hfit.1 h
    simp only [reduceCtorEq, false_iff]
    omega
  · rename_i h
    have : ¬ 2 ^ 64 ≤ a.toNat * b.toNat := fun hge => h (hfit.2 hge)
    rw [Option.some.injEq, ← UInt64.toNat_inj, UInt64.toNat_mul, Nat.mod_eq_of_lt (by omega)]
    exact eq_comm

theorem toNat_sub_of_le {a b : UInt64} (h : b.toNat ≤ a.toNat) : (a - b).toNat = a.toNat - b.toNat :=
  UInt64.toNat_sub_of_le _ _ (UInt64.le_iff_toNat_le.2 h)

theorem toNat_add_of_lt {a b : UInt64} (h : a.toNat + b.toNat < 2 ^ 64) :
    (a + b).toNat = a.toNat + b.toNat := by
  rw [UInt64.toNat_add, Nat.mod_eq_of_lt h]

end Checked

end Laplace
