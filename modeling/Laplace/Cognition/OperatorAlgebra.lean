import Laplace.Cognition.DependentEvidence
import Laplace.Lib.Binary64
import Laplace.Lib.LeastSquares

/-!
# The arithmetic of an operator (cognition_operator_part01.inc to cognition_operator_part04.inc)

Every double is read as the number it stands for and no operation rounds, so that the checks for
finite values never fail. A vector is a function of the index, of which the first `n` values count.
-/

namespace Laplace.CognitionOperator

open LeastSquares hiding gradient
open Cognition.Packet (OperatorProgram OperatorField OperatorConstraint)
open Binary64 (value)
open LeastSquares Finset

/-! ## The traversals -/

structure Coefficients where
  first : ℕ
  second : ℕ
  firstValue : ℚ
  secondValue : ℚ
  constant : ℚ

/-- `ConstraintCoefficients` -/
def constraintCoefficients (constraint : OperatorConstraint) : Coefficients :=
  let target := if constraint.flags &&& constraintHasTarget != 0 then value constraint.targetValue
    else 0
  let first := constraint.sourceFieldIndex.toNat
  let second := constraint.targetFieldIndex.toNat
  let constant := -(value constraint.transportOffset + target)
  if constraint.direction = directionTargetToSource then
    ⟨first, second, 1, -value constraint.transportScale, constant⟩
  else ⟨first, second, -value constraint.transportScale, 1, constant⟩

/-- `vector[index] += amount` -/
def addAt (vector : ℕ → ℚ) (index : ℕ) (amount : ℚ) : ℕ → ℚ :=
  Function.update vector index (vector index + amount)

/-- The two sums that both applications of an operator end with. -/
def addWeighted (output : ℕ → ℚ) (c : Coefficients) (weighted : ℚ) : ℕ → ℚ :=
  addAt (addAt output c.first (c.firstValue * weighted)) c.second (c.secondValue * weighted)

/-- The body of the loop of `ApplyInternal`. -/
def applyConstraint (input : ℕ → ℚ) (total : (ℕ → ℚ) × ℚ) (constraint : OperatorConstraint) :
    (ℕ → ℚ) × ℚ :=
  let c := constraintCoefficients constraint
  let residual := c.firstValue * input c.first + c.secondValue * input c.second + c.constant
  (addWeighted total.1 c (value constraint.precision * residual),
    total.2 + 1 / 2 * value constraint.precision * residual * residual)

/-- `ApplyInternal`: the output and the energy. -/
def applyInternal (operator : Operator) (input : ℕ → ℚ) : (ℕ → ℚ) × ℚ :=
  operator.constraints.foldl (applyConstraint input) (0, 0)

/-- `laplace_cognition_operator_energy` -/
def operatorEnergy (operator : Operator) (input : ℕ → ℚ) (inputCount : ℕ) :
    Except OperatorStatus ℚ :=
  if inputCount ≠ operator.fields.length then .error .range
  else .ok (applyInternal operator input).2

/-- `laplace_cognition_operator_apply`: the output and the energy of its receipt. -/
def operatorApply (operator : Operator) (input : ℕ → ℚ) (inputCount outputCount : ℕ) :
    Except OperatorStatus ((ℕ → ℚ) × ℚ) :=
  if inputCount ≠ operator.fields.length ∨ outputCount ≠ inputCount then .error .range
  else .ok (applyInternal operator input)

/-- The body of the loop of `laplace_cognition_operator_apply_linear`. -/
def applyLinearConstraint (input output : ℕ → ℚ) (constraint : OperatorConstraint) : ℕ → ℚ :=
  let c := constraintCoefficients constraint
  let homogeneous := c.firstValue * input c.first + c.secondValue * input c.second
  addWeighted output c (value constraint.precision * homogeneous)

/-- `laplace_cognition_operator_apply_linear` -/
def operatorApplyLinear (operator : Operator) (input : ℕ → ℚ) (inputCount outputCount : ℕ) :
    Except OperatorStatus (ℕ → ℚ) :=
  if inputCount ≠ operator.fields.length ∨ outputCount ≠ inputCount then .error .range
  else .ok (operator.constraints.foldl (applyLinearConstraint input) 0)

/-- The body of the loop of `laplace_cognition_operator_materialize_dense`. -/
def denseConstraint (n : ℕ) (dense : (ℕ → ℚ) × (ℕ → ℚ)) (constraint : OperatorConstraint) :
    (ℕ → ℚ) × (ℕ → ℚ) :=
  let c := constraintCoefficients constraint
  let w := value constraint.precision
  let a := c.firstValue
  let b := c.secondValue
  (addAt (addAt (addAt (addAt dense.1 (c.first * n + c.first) (w * a * a))
      (c.first * n + c.second) (w * a * b)) (c.second * n + c.first) (w * b * a))
      (c.second * n + c.second) (w * b * b),
    addAt (addAt dense.2 c.first (-w * c.constant * a)) c.second (-w * c.constant * b))

/-- `laplace_cognition_operator_materialize_dense`: the rows of the matrix one after the other, and
the right hand side. -/
def materializeDense (operator : Operator) (matrixCapacity rhsCapacity : ℕ) :
    Except OperatorStatus ((ℕ → ℚ) × (ℕ → ℚ)) :=
  let n := operator.fields.length
  if n ≠ 0 ∧ (2 ^ 64 - 1) / n < n then .error .range
  else if matrixCapacity < n * n ∨ rhsCapacity < n then .error .range
  else .ok (operator.constraints.foldl (denseConstraint n) (0, 0))

/-! ## An operator as a sum of squares -/

/-- The square a constraint adds to the energy. -/
def square (constraint : OperatorConstraint) : Square ℕ :=
  let c := constraintCoefficients constraint
  { weight := value constraint.precision
    coefficient := c.firstValue • Pi.single c.first 1 + c.secondValue • Pi.single c.second 1
    constant := c.constant }

/-- What building an operator guarantees for its arithmetic. -/
def WellFormed (n : ℕ) (constraint : OperatorConstraint) : Prop :=
  constraint.sourceFieldIndex.toNat < n ∧ constraint.targetFieldIndex.toNat < n ∧
    0 ≤ value constraint.precision

theorem value_nonneg {bits : UInt64} (h : Standing.doubleIsPositive bits = true) : 0 ≤ value bits := by
  have hsign : Binary64.negative bits = false := by
    simp only [Standing.doubleIsPositive, Bool.and_eq_true, beq_iff_eq] at h
    have hpow : (0x8000000000000000 : UInt64).toNat = 2 ^ 63 := rfl
    have hbit := congrArg (fun mask : UInt64 => mask.toNat.testBit 63) h.1
    simp only [UInt64.toNat_and, hpow, Nat.testBit_and, Nat.testBit_two_pow_self, Bool.and_true] at hbit
    have htest : bits.toNat.testBit 63 = false := hbit
    rw [Nat.testBit_eq_decide_div_mod_eq, decide_eq_false_iff_not] at htest
    have hlt := bits.toNat_lt
    rw [Binary64.negative, decide_eq_false_iff_not]
    omega
  rw [value, Binary64.units, hsign, if_neg Bool.false_ne_true]
  positivity

section Built

variable {blake3 : Blake3} {sort : Sorting constraintOrder}
  {program : OperatorProgram} {fields : List OperatorField}
  {constraints : List OperatorConstraint} {operator : Operator} {n : ℕ}

theorem wellFormed_of_valid {constraint : OperatorConstraint}
    (h : constraintValid blake3 n constraint = true) : WellFormed n constraint := by
  simp only [constraintValid, Bool.and_eq_true, decide_eq_true_eq] at h
  exact ⟨by tauto, by tauto, value_nonneg (by tauto)⟩

theorem wellFormed_of_built
    (h : (operatorCreate blake3 sort program fields constraints).2.2 = some operator) :
    ∀ constraint ∈ operator.constraints, WellFormed operator.fields.length constraint := by
  obtain ⟨s, hs, rfl⟩ := operatorCreate_some h
  intro constraint hconstraint
  have hselected := (sort.perm s.selected).mem_iff.1 hconstraint
  exact wellFormed_of_valid (hs.sound.valid constraint (hs.mem hselected).1)

end Built

section Traversals

variable {n : ℕ} {constraint : OperatorConstraint} {constraints : List OperatorConstraint}
  {operator : Operator} {x h : ℕ → ℚ}

theorem addAt_eq (vector : ℕ → ℚ) (index : ℕ) (amount : ℚ) :
    addAt vector index amount = vector + amount • Pi.single index 1 := by
  funext i
  by_cases hi : i = index
  · simp [addAt, hi]
  · simp [addAt, hi]

theorem addWeighted_eq (output : ℕ → ℚ) (weighted : ℚ) :
    addWeighted output (constraintCoefficients constraint) weighted =
      output + weighted • (square constraint).coefficient := by
  simp only [addWeighted, addAt_eq, square]
  module

theorem dot_single {i : ℕ} (hi : i < n) : dot (range n) (Pi.single i 1) x = x i := by
  simp [dot, Pi.single_apply, hi]

theorem constraintCoefficients_bounds (h : WellFormed n constraint) :
    (constraintCoefficients constraint).first < n ∧ (constraintCoefficients constraint).second < n := by
  by_cases hdirection : constraint.direction = directionTargetToSource
  · simpa [constraintCoefficients, hdirection] using ⟨h.1, h.2.1⟩
  · simpa [constraintCoefficients, hdirection] using ⟨h.1, h.2.1⟩

theorem dot_square (h : WellFormed n constraint) : dot (range n) (square constraint).coefficient x =
      (constraintCoefficients constraint).firstValue * x (constraintCoefficients constraint).first +
        (constraintCoefficients constraint).secondValue * x (constraintCoefficients constraint).second := by
  obtain ⟨hfirst, hsecond⟩ := constraintCoefficients_bounds h
  simp [square, dot_single hfirst, dot_single hsecond]

theorem foldl_applyConstraint (h : ∀ constraint ∈ constraints, WellFormed n constraint)
    (total : (ℕ → ℚ) × ℚ) : constraints.foldl (applyConstraint x) total =
      (total.1 + LeastSquares.gradient (range n) (constraints.map square) x,
        total.2 + energy (range n) (constraints.map square) x) := by
  induction constraints generalizing total with
  | nil => simp [LeastSquares.gradient, energy]
  | cons constraint constraints ih =>
    simp only [List.forall_mem_cons] at h
    have hresidual := dot_square (x := x) h.1
    rw [List.foldl_cons, ih h.2]
    simp only [applyConstraint, addWeighted_eq, LeastSquares.gradient, energy, Square.residual,
      List.map_cons, List.sum_cons, hresidual, add_assoc]
    rfl

theorem applyInternal_eq (h : ∀ constraint ∈ operator.constraints, WellFormed n constraint) :
    applyInternal operator x = (LeastSquares.gradient (range n) (operator.constraints.map square) x,
      energy (range n) (operator.constraints.map square) x) := by
  rw [applyInternal, foldl_applyConstraint h]
  simp

theorem foldl_applyLinearConstraint (h : ∀ constraint ∈ constraints, WellFormed n constraint)
    (output : ℕ → ℚ) : constraints.foldl (applyLinearConstraint x) output =
      output + linear (range n) (constraints.map square) x := by
  induction constraints generalizing output with
  | nil => simp [linear]
  | cons constraint constraints ih =>
    simp only [List.forall_mem_cons] at h
    rw [List.foldl_cons, ih h.2]
    simp only [applyLinearConstraint, addWeighted_eq, linear, List.map_cons, List.sum_cons,
      dot_square h.1, add_assoc]
    rfl

/-! ## The dense form -/

theorem entry_eq_iff {i j i' j' : ℕ} (hj : j < n) (hj' : j' < n) :
    i * n + j = i' * n + j' ↔ i = i' ∧ j = j' := by
  constructor
  · intro heq
    have hdiv := congrArg (· / n) heq
    have hmod := congrArg (· % n) heq
    have hn : 0 < n := by omega
    simp only [Nat.mul_comm _ n, Nat.mul_add_div hn, Nat.mul_add_mod, Nat.div_eq_of_lt hj,
      Nat.div_eq_of_lt hj', Nat.mod_eq_of_lt hj, Nat.mod_eq_of_lt hj', Nat.add_zero] at hdiv hmod
    exact ⟨hdiv, hmod⟩
  · rintro ⟨rfl, rfl⟩
    rfl

/-- The entry of the matrix of a sum of squares. -/
def entry (constraints : List OperatorConstraint) (i j : ℕ) : ℚ :=
  (constraints.map fun constraint => (square constraint).weight *
    (square constraint).coefficient i * (square constraint).coefficient j).sum

theorem entry_comm (i j : ℕ) : entry constraints i j = entry constraints j i := by
  simp [entry, mul_right_comm]

theorem linear_apply (i : ℕ) : linear (range n) (constraints.map square) x i =
    ∑ j ∈ range n, entry constraints i j * x j := by
  induction constraints with
  | nil => simp [linear, entry]
  | cons constraint constraints ih =>
    simp only [linear, entry, List.map_cons, List.sum_cons, Pi.add_apply, Pi.smul_apply,
      smul_eq_mul, add_mul, sum_add_distrib, dot, mul_sum, sum_mul] at ih ⊢
    rw [ih]
    congr 1
    exact sum_congr rfl fun j _ => by ring

theorem indicator_and (p q : Prop) [Decidable p] [Decidable q] :
    (if p ∧ q then (1 : ℚ) else 0) = (if p then 1 else 0) * if q then 1 else 0 := by
  by_cases p <;> by_cases q <;> simp [*]

theorem foldl_denseConstraint (h : ∀ constraint ∈ constraints, WellFormed n constraint)
    (dense : (ℕ → ℚ) × (ℕ → ℚ)) :
    (∀ i < n, ∀ j < n, (constraints.foldl (denseConstraint n) dense).1 (i * n + j) =
      dense.1 (i * n + j) + entry constraints i j) ∧ (constraints.foldl (denseConstraint n) dense).2 =
      dense.2 - LeastSquares.gradient (range n) (constraints.map square) 0 := by
  induction constraints generalizing dense with
  | nil => simp [entry, LeastSquares.gradient]
  | cons constraint constraints ih =>
    simp only [List.forall_mem_cons] at h
    obtain ⟨hfirst, hsecond⟩ := constraintCoefficients_bounds h.1
    obtain ⟨hmatrix, hrhs⟩ := ih h.2 (denseConstraint n dense constraint)
    constructor
    · intro i hi j hj
      rw [List.foldl_cons, hmatrix i hi j hj]
      simp only [denseConstraint, addAt_eq, Pi.add_apply, Pi.smul_apply, Pi.single_apply,
        entry_eq_iff hj hfirst, entry_eq_iff hj hsecond, indicator_and, smul_eq_mul, entry,
        List.map_cons, List.sum_cons, square]
      ring
    · rw [List.foldl_cons, hrhs]
      simp only [denseConstraint, addAt_eq, LeastSquares.gradient, Square.residual, square,
        List.map_cons, List.sum_cons, dot_comm (y := 0), zero_dot]
      module

end Traversals

/-- The product of a matrix in rows of `n` entries and a vector. -/
def mulVec (n : ℕ) (matrix x : ℕ → ℚ) (i : ℕ) : ℚ := ∑ j ∈ range n, matrix (i * n + j) * x j

/-- What the dense form of an operator on `n` fields has to satisfy. -/
structure DenseForm (operator : Operator) (n : ℕ) (matrix rhs : ℕ → ℚ) : Prop where
  apply : ∀ x, ∃ output energy, operatorApply operator x n n = .ok (output, energy) ∧
    operatorEnergy operator x n = .ok energy ∧ ∀ i < n, output i = mulVec n matrix x i - rhs i
  applyLinear : ∀ x, ∃ output, operatorApplyLinear operator x n n = .ok output ∧
    ∀ i < n, output i = mulVec n matrix x i
  symmetric : ∀ i < n, ∀ j < n, matrix (i * n + j) = matrix (j * n + i)
  semidefinite : ∀ x, 0 ≤ dot (range n) (mulVec n matrix x) x
  /-- The energy is quadratic, and what is linear in the step `h` is its product with `apply`. -/
  gradient : ∀ x h output energy energy', operatorApply operator x n n = .ok (output, energy) →
    operatorEnergy operator (x + h) n = .ok energy' →
    energy' = energy + dot (range n) output h + 1 / 2 * dot (range n) (mulVec n matrix h) h

variable {blake3 : Blake3} {sort : Sorting constraintOrder}
  {program : OperatorProgram} {fields : List OperatorField}
  {constraints : List OperatorConstraint} {operator : Operator}

/-- **The traversals of an operator agree**: the dense form is that of the sparse applications, and
these are the gradient of the energy. -/
theorem materializeDense_denseForm {matrix rhs : ℕ → ℚ} {matrixCapacity rhsCapacity : ℕ}
    (hbuilt : (operatorCreate blake3 sort program fields constraints).2.2 = some operator)
    (hdense : materializeDense operator matrixCapacity rhsCapacity = .ok (matrix, rhs)) :
    DenseForm operator operator.fields.length matrix rhs := by
  have hformed := wellFormed_of_built hbuilt
  generalize hn : operator.fields.length = n at hformed ⊢
  obtain ⟨hmatrix, hrhs⟩ := foldl_denseConstraint hformed (0, 0)
  unfold materializeDense at hdense
  simp only [hn] at hdense
  split_ifs at hdense
  rw [Except.ok.inj hdense] at hmatrix hrhs
  simp only [Pi.zero_apply, zero_add, zero_sub] at hmatrix hrhs
  have hlinear (x : ℕ → ℚ) (i : ℕ) (hi : i < n) :
      linear (range n) (operator.constraints.map square) x i = mulVec n matrix x i := by
    rw [linear_apply]
    exact sum_congr rfl fun j hj => by rw [hmatrix i hi j (mem_range.1 hj)]
  have hdot (x h : ℕ → ℚ) : dot (range n) (linear (range n) (operator.constraints.map square) x) h =
      dot (range n) (mulVec n matrix x) h :=
    sum_congr rfl fun i hi => by rw [hlinear x i (mem_range.1 hi)]
  constructor
  · refine fun x => ⟨(applyInternal operator x).1, (applyInternal operator x).2,
      by simp [operatorApply, hn], by simp [operatorEnergy, hn], fun i hi => ?_⟩
    have hadd : LeastSquares.gradient (range n) (operator.constraints.map square) (0 + x) = _ :=
      gradient_add
    rw [zero_add] at hadd
    rw [applyInternal_eq hformed, ← hlinear x i hi, hrhs, hadd]
    simp [add_comm]
  · refine fun x => ⟨_, by simp [operatorApplyLinear, hn]; rfl, fun i hi => ?_⟩
    rw [foldl_applyLinearConstraint hformed, zero_add, hlinear x i hi]
  · intro i hi j hj
    rw [hmatrix i hi j hj, hmatrix j hj i hi, entry_comm]
  · intro x
    rw [← hdot]
    refine linear_dot_nonneg ?_
    simp only [List.forall_mem_map]
    exact fun constraint hconstraint => (hformed constraint hconstraint).2.2
  · intro x h output energy energy' happly henergy
    simp only [operatorApply, operatorEnergy, hn, ne_eq, not_true_eq_false, or_self, if_false,
      Except.ok.injEq, applyInternal_eq hformed, Prod.mk.injEq] at happly henergy
    rw [← henergy, energy_add, happly.2, happly.1, hdot]

/-- The operator of one testimony between two fields. -/
def testimonyOperator : Operator :=
  (operatorCreate (fun _ => 1) (Sorting.stable _) oneFamily twoFields
    [between 1 1 sourceTestimony 5 one]).2.2.get rfl

theorem testimonyOperator_built : (operatorCreate (fun _ => 1) (Sorting.stable _) oneFamily twoFields
    [between 1 1 sourceTestimony 5 one]).2.2 = some testimonyOperator := rfl

theorem materializeDense_denseForm_testimony : ∃ dense,
    materializeDense testimonyOperator 4 2 = .ok dense ∧
      DenseForm testimonyOperator 2 dense.1 dense.2 := by
  obtain ⟨dense, hdense⟩ : ∃ dense, materializeDense testimonyOperator 4 2 = .ok dense := ⟨_, rfl⟩
  exact ⟨dense, hdense, materializeDense_denseForm testimonyOperator_built hdense⟩

end Laplace.CognitionOperator
