import Mathlib.Tactic

/-!
# Apportionment

A pool is split among weights: everyone gets the floor of the proportional share, and what the floors
leave is handed out one unit at a time to those with a weight, from the first on. There are never more
units left than weights that are not zero, so nothing remains.
-/

namespace Laplace.Apportionment

/-- What is handed out beyond the floors, for a list of weights. -/
def handOut : ℕ → List ℕ → List ℕ
  | _, [] => []
  | left, weight :: weights =>
    if left ≠ 0 ∧ weight ≠ 0 then 1 :: handOut (left - 1) weights else 0 :: handOut left weights

/-- The weights that are not zero. -/
def weighted (weights : List ℕ) : ℕ := weights.countP (· ≠ 0)

theorem length_handOut : ∀ (left : ℕ) (weights : List ℕ), (handOut left weights).length = weights.length
  | _, [] => rfl
  | left, weight :: weights => by
    unfold handOut
    split <;> rw [List.length_cons, List.length_cons, length_handOut]

theorem weighted_cons (weight : ℕ) (weights : List ℕ) :
    weighted (weight :: weights) = weighted weights + if weight ≠ 0 then 1 else 0 := by
  unfold weighted
  rw [List.countP_cons]
  simp

theorem sum_handOut : ∀ {left : ℕ} {weights : List ℕ}, left ≤ weighted weights →
    (handOut left weights).sum = left
  | left, [], h => (Nat.le_zero.1 h).symm
  | left, weight :: weights, h => by
    rw [weighted_cons] at h
    unfold handOut
    split
    · rename_i hhand
      rw [if_pos hhand.2] at h
      rw [List.sum_cons, sum_handOut (by omega)]
      omega
    · rename_i hskip
      rw [List.sum_cons, Nat.zero_add]
      by_cases hleft : left = 0
      · exact sum_handOut (hleft ▸ Nat.zero_le _)
      · have hweight : weight = 0 := by
          by_contra hne
          exact hskip ⟨hleft, hne⟩
        rw [hweight] at h
        exact sum_handOut h

theorem floors_room (pool total : ℕ) (htotal : 0 < total) : ∀ weights : List ℕ,
    total * (weights.map fun weight => pool * weight / total).sum ≤ pool * weights.sum ∧
    pool * weights.sum ≤ total * (weights.map fun weight => pool * weight / total).sum +
      weighted weights * (total - 1)
  | [] => ⟨by simp, by simp⟩
  | weight :: weights => by
    obtain ⟨hle, hroom⟩ := floors_room pool total htotal weights
    have hdivide := Nat.div_add_mod (pool * weight) total
    have hmod := Nat.mod_lt (pool * weight) htotal
    rw [weighted_cons, List.map_cons, List.sum_cons, List.sum_cons, Nat.mul_add, Nat.mul_add, Nat.add_mul]
    refine ⟨by omega, ?_⟩
    by_cases hweight : weight = 0
    · subst hweight
      simpa using hroom
    · rw [if_pos hweight, Nat.one_mul]
      omega

section Shares

variable {pool : ℕ} {weights : List ℕ} (hweights : 0 < weights.sum)
include hweights

theorem sum_floors_le : (weights.map fun weight => pool * weight / weights.sum).sum ≤ pool := by
  have hle := (floors_room pool weights.sum hweights weights).1
  rw [Nat.mul_comm] at hle
  exact Nat.le_of_mul_le_mul_right hle hweights

theorem left_le_weighted :
    pool - (weights.map fun weight => pool * weight / weights.sum).sum ≤ weighted weights := by
  have hroom := (floors_room pool weights.sum hweights weights).2
  have hmul : weighted weights * (weights.sum - 1) ≤ weighted weights * weights.sum :=
    Nat.mul_le_mul_left _ (Nat.sub_le _ _)
  refine Nat.sub_le_iff_le_add.2 (Nat.le_of_mul_le_mul_right ?_ hweights)
  rw [Nat.add_mul]
  rw [Nat.mul_comm weights.sum] at hroom
  omega

theorem sum_shares : (weights.map fun weight => pool * weight / weights.sum).sum +
    (handOut (pool - (weights.map fun weight => pool * weight / weights.sum).sum) weights).sum = pool := by
  rw [sum_handOut (left_le_weighted hweights)]
  exact Nat.add_sub_cancel' (sum_floors_le hweights)

end Shares

theorem floor_eq (pool weight : ℕ) {total : ℕ} (htotal : 0 < total) :
    pool / total * weight + pool % total * weight / total = pool * weight / total := by
  have hpool : pool * weight = total * (pool / total * weight) + pool % total * weight := by
    conv_lhs => rw [← Nat.div_add_mod pool total, Nat.add_mul, Nat.mul_assoc]
  rw [hpool, Nat.mul_add_div htotal]

/-! ## Splits above minimums -/

section Split

variable {ι : Type*} {minimum weight : ι → ℕ} {items : List ι}

/-- A total is split among items: completely, with each minimum kept, and with each amount within a unit
of its minimum and its part of the remainder. -/
structure Split (total : ℕ) (minimum weight : ι → ℕ) (items : List ι) (amounts : List ℕ) : Prop where
  complete : amounts.sum = total
  each : List.Forall₂ (fun item amount => minimum item ≤ amount ∧
    |(amount : ℚ) - (minimum item + ((total : ℚ) - (items.map minimum).sum) * weight item /
      (items.map weight).sum)| ≤ 1) items amounts

theorem forall₂_handOut (base : ι → ℕ) : ∀ (left : ℕ) (items : List ι),
    List.Forall₂ (fun item amount => base item ≤ amount ∧ amount ≤ base item + 1) items
      ((items.map base).zipWith (· + ·) (handOut left (items.map weight)))
  | _, [] => .nil
  | left, item :: items => by
    rw [List.map_cons, List.map_cons, handOut]
    split
    · exact .cons ⟨Nat.le_add_right _ _, Nat.le_refl _⟩ (forall₂_handOut base _ items)
    · exact .cons ⟨Nat.le_add_right _ _, Nat.le_succ _⟩ (forall₂_handOut base _ items)

theorem abs_sub_part_le {pool part total amount least : ℕ} (hle : least + pool * part / total ≤ amount)
    (hupper : amount ≤ least + pool * part / total + 1) :
    |(amount : ℚ) - (least + (pool : ℚ) * part / total)| ≤ 1 := by
  have hlower : ((pool * part / total : ℕ) : ℚ) ≤ (pool : ℚ) * part / total := by
    rw [← Nat.cast_mul]
    exact Nat.cast_div_le
  have habove : (pool : ℚ) * part / total ≤ ((pool * part / total : ℕ) : ℚ) + 1 := by
    rcases Nat.eq_zero_or_pos total with rfl | hpos
    · rw [Nat.cast_zero, div_zero]
      positivity
    · rw [div_le_iff₀ (by exact_mod_cast hpos), ← Nat.cast_mul, mul_comm _ (total : ℚ)]
      exact_mod_cast (Nat.lt_mul_div_succ (pool * part) hpos).le
  have hle' : (least : ℚ) + ((pool * part / total : ℕ) : ℚ) ≤ amount := by exact_mod_cast hle
  have hupper' : (amount : ℚ) ≤ least + ((pool * part / total : ℕ) : ℚ) + 1 := by exact_mod_cast hupper
  rw [abs_le]
  constructor <;> linarith

theorem split_shares {total : ℕ} (hminimum : (items.map minimum).sum ≤ total)
    (hweights : (items.map minimum).sum = total ∨ 0 < (items.map weight).sum) :
    Split total minimum weight items ((items.map fun item => minimum item +
          (total - (items.map minimum).sum) * weight item / (items.map weight).sum).zipWith (· + ·)
        (handOut (total - (items.map minimum).sum - (items.map fun item =>
          (total - (items.map minimum).sum) * weight item / (items.map weight).sum).sum)
          (items.map weight))) where
  complete := by
    rw [← List.sum_add_sum_eq_sum_zipWith_of_length_eq _ _ (by
      rw [List.length_map, length_handOut, List.length_map]), List.sum_map_add]
    rcases hweights with heq | hpos
    · rw [heq, Nat.sub_self]
      simp only [Nat.zero_mul, Nat.zero_div, List.map_const', List.sum_replicate, smul_zero]
      rw [Nat.sub_self, sum_handOut (Nat.zero_le _)]
      rfl
    · have hshares : ((items.map weight).map fun part =>
          (total - (items.map minimum).sum) * part / (items.map weight).sum).sum +
            (handOut (total - (items.map minimum).sum - ((items.map weight).map fun part =>
              (total - (items.map minimum).sum) * part / (items.map weight).sum).sum)
              (items.map weight)).sum = total - (items.map minimum).sum := sum_shares hpos
      rw [List.map_map] at hshares
      change _ + _ + _ = total
      rw [Nat.add_assoc]
      exact (congrArg _ hshares).trans (Nat.add_sub_cancel' hminimum)
  each := (forall₂_handOut (fun item => minimum item +
      (total - (items.map minimum).sum) * weight item / (items.map weight).sum) _ items).imp
    fun item amount ⟨hle, hupper⟩ => by
      refine ⟨(Nat.le_add_right _ _).trans hle, ?_⟩
      have hpart := abs_sub_part_le hle hupper
      rw [Nat.cast_sub hminimum] at hpart
      exact hpart

end Split

end Laplace.Apportionment
