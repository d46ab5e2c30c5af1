import Laplace.Cognition.OperatorAlgebra

/-!
# The conjugate gradient solver (cognition_solver.cpp)

As in the arithmetic of operators nothing is rounded. Lengths are compared by their squares, which
is what becomes of `std::sqrt`, and a division by zero is a fault of its own.
-/

namespace Laplace.CognitionSolver

open LeastSquares hiding gradient
open Cognition.Packet (OperatorProgram OperatorField OperatorConstraint SolverProgram SolverBoundary)
open CognitionOperator Finset
open Binary64 (value)

/-- `laplace_cognition_solver_status`, as far as exact arithmetic and granted memory reach, and
divisions by zero. -/
inductive Fault
  | programInvalid | operatorMismatch | operatorFailure | range | boundaryInvalid
  | invalidArgument | divisionByZero
deriving DecidableEq, Repr

inductive Disposition
  | converged | initiallySatisfied | iterationLimit | singularDirection
deriving DecidableEq, Repr

/-! ## Validation -/

/-- `ProgramValid` -/
def programValid (program : SolverProgram) : Bool :=
  program.programId != 0 && program.operatorId != 0 && program.resultContractFingerprint != 0 &&
    program.maxIterations != 0 &&
    Standing.doubleIsFinite program.absoluteResidualTolerance &&
    Standing.doubleIsFinite program.relativeResidualTolerance &&
    Standing.doubleIsFinite program.regularization &&
    !decide (value program.absoluteResidualTolerance < 0) &&
    !decide (value program.relativeResidualTolerance < 0) &&
    !decide (value program.regularization < 0) &&
    !(decide (value program.absoluteResidualTolerance = 0) &&
      decide (value program.relativeResidualTolerance = 0)) &&
    program.method == 1 && program.flags &&& ~~~3 == 0 && program.version == 1 &&
    program.reserved == 0

/-- The checks of one boundary in `BoundariesValid`. -/
def boundaryValid (fieldCount : ℕ) (boundary : SolverBoundary) : Bool :=
  boundary.receiptId != 0 && decide (boundary.fieldIndex.toNat < fieldCount) &&
    Standing.doubleIsFinite boundary.targetValue && Standing.doubleIsFinite boundary.precision &&
    !decide (value boundary.precision ≤ 0) && (boundary.kind == 1 || boundary.kind == 2) &&
    boundary.flags == 0 && boundary.reserved == 0

/-- `BoundariesValid` -/
def boundariesValid (boundaries : List SolverBoundary) (fieldCount : ℕ) : Bool :=
  boundaries.all (boundaryValid fieldCount) &&
    decide (boundaries.map SolverBoundary.receiptId).Nodup

/-! ## The pieces of the equation -/

/-- The body of `ApplyBoundaryGradient`. -/
def applyBoundaryGradient (state gradient : ℕ → ℚ) (boundary : SolverBoundary) : ℕ → ℚ :=
  let field := boundary.fieldIndex.toNat
  addAt gradient field (value boundary.precision * (state field - value boundary.targetValue))

/-- The body of `ApplyBoundaryLinear`. -/
def applyBoundaryLinear (input output : ℕ → ℚ) (boundary : SolverBoundary) : ℕ → ℚ :=
  let field := boundary.fieldIndex.toNat
  addAt output field (value boundary.precision * input field)

/-- The body of `BoundaryEnergy`. -/
def boundaryEnergy (state : ℕ → ℚ) (total : ℚ) (boundary : SolverBoundary) : ℚ :=
  let residual := state boundary.fieldIndex.toNat - value boundary.targetValue
  total + 1 / 2 * value boundary.precision * residual * residual

section Solve

variable (operator : Operator) (program : SolverProgram) (boundaries : List SolverBoundary)

/-- The gradient `Execute` starts with. -/
def totalGradient (x : ℕ → ℚ) : Except Fault (ℕ → ℚ) :=
  let n := operator.fields.length
  match operatorApply operator x n n with
  | .error _ => .error .operatorFailure
  | .ok (gradient, _) => .ok
    (boundaries.foldl (applyBoundaryGradient x) gradient + value program.regularization • x)

/-- `ApplyLinearRegularized` -/
def applyLinearRegularized (input : ℕ → ℚ) : Except Fault (ℕ → ℚ) :=
  let n := operator.fields.length
  match operatorApplyLinear operator input n n with
  | .error _ => .error .operatorFailure
  | .ok output => .ok
    (boundaries.foldl (applyBoundaryLinear input) output + value program.regularization • input)

/-- The energy `Execute` ends with. -/
def totalEnergy (x : ℕ → ℚ) : Except Fault ℚ :=
  let n := operator.fields.length
  match operatorEnergy operator x n with
  | .error _ => .error .operatorFailure
  | .ok energy => .ok (energy + boundaries.foldl (boundaryEnergy x) 0 +
    1 / 2 * value program.regularization * dot (range n) x x)

/-! ## The loop -/

structure State where
  x : ℕ → ℚ
  residual : ℕ → ℚ
  direction : ℕ → ℚ
  residualSquared : ℚ
  iterationCount : ℕ := 0

def divide (dividend divisor : ℚ) : Except Fault ℚ :=
  if divisor = 0 then .error .divisionByZero else .ok (dividend / divisor)

/-- How an iteration ends: out of the loop, or with the state of the next one. -/
inductive Step
  | singular
  | converged (s : State)
  | next (s : State)

/-- The body of the loop of `Execute`. -/
def iteration (thresholdSquared : ℚ) (s : State) : Except Fault Step := do
  let n := operator.fields.length
  let product ← applyLinearRegularized operator program boundaries s.direction
  let denominator := dot (range n) s.direction product
  if denominator ≤ 0 then return .singular
  let alpha ← divide s.residualSquared denominator
  let x := s.x + alpha • s.direction
  let residual := s.residual - alpha • product
  let nextSquared := dot (range n) residual residual
  let iterationCount := s.iterationCount + 1
  if nextSquared ≤ thresholdSquared then
    return .converged ⟨x, residual, s.direction, nextSquared, iterationCount⟩
  let beta ← divide nextSquared s.residualSquared
  return .next ⟨x, residual, residual + beta • s.direction, nextSquared, iterationCount⟩

/-- The loop, with the iterations that are left. -/
def iterate (thresholdSquared : ℚ) : ℕ → State → Except Fault (Disposition × State)
  | 0, s => .ok (.iterationLimit, s)
  | left + 1, s => do
    match ← iteration operator program boundaries thresholdSquared s with
    | .singular => return (.singularDirection, s)
    | .converged s => return (.converged, s)
    | .next s => iterate thresholdSquared left s

structure Solution where
  disposition : Disposition
  state : State
  thresholdSquared : ℚ
  finalEnergy : ℚ

/-- The state before the loop. -/
def initialState (x : ℕ → ℚ) : Except Fault State := do
  let gradient ← totalGradient operator program boundaries x
  let residual := -gradient
  return ⟨x, residual, residual, dot (range operator.fields.length) residual residual, 0⟩

/-- The square of `threshold`, from that of `initial_l2`. -/
def threshold (initialSquared : ℚ) : ℚ :=
  max (value program.absoluteResidualTolerance ^ 2)
    (value program.relativeResidualTolerance ^ 2 * initialSquared)

/-- `Execute`, without the receipt's fingerprints. -/
def execute (x : ℕ → ℚ) (initialStateCount solutionCapacity : ℕ) : Except Fault Solution := do
  let n := operator.fields.length
  if initialStateCount = 0 then throw .invalidArgument
  if !programValid program then throw .programInvalid
  if n ≠ initialStateCount ∨ solutionCapacity < n then throw .range
  if !boundariesValid boundaries n then throw .boundaryInvalid
  if program.operatorId ≠ operator.receipt.operatorId then throw .operatorMismatch
  let s ← initialState operator program boundaries x
  let thresholdSquared := threshold program s.residualSquared
  let (disposition, s) ←
    if s.residualSquared ≤ thresholdSquared then pure (.initiallySatisfied, s)
    else iterate operator program boundaries thresholdSquared program.maxIterations.toNat s
  let finalEnergy ← totalEnergy operator program boundaries s.x
  return ⟨disposition, s, thresholdSquared, finalEnergy⟩

end Solve

/-! ## The equation as a quadratic energy -/

/-- The square a boundary adds to the energy. -/
def boundarySquare (boundary : SolverBoundary) : LeastSquares.Square ℕ where
  weight := value boundary.precision
  coefficient := Pi.single boundary.fieldIndex.toNat 1
  constant := -value boundary.targetValue

section Quadratic

variable {operator : Operator} {program : SolverProgram} {boundaries : List SolverBoundary}
  {n : ℕ} {x : ℕ → ℚ}

theorem foldl_applyBoundaryGradient (h : ∀ boundary ∈ boundaries, boundary.fieldIndex.toNat < n)
    (gradient : ℕ → ℚ) : boundaries.foldl (applyBoundaryGradient x) gradient =
      gradient + LeastSquares.gradient (range n) (boundaries.map boundarySquare) x := by
  induction boundaries generalizing gradient with
  | nil => simp [LeastSquares.gradient]
  | cons boundary boundaries ih =>
    simp only [List.forall_mem_cons] at h
    rw [List.foldl_cons, ih h.2]
    simp [applyBoundaryGradient, addAt_eq, LeastSquares.gradient, LeastSquares.Square.residual,
      boundarySquare, dot_single h.1, sub_eq_add_neg, add_assoc]

theorem foldl_applyBoundaryLinear (h : ∀ boundary ∈ boundaries, boundary.fieldIndex.toNat < n)
    (output : ℕ → ℚ) : boundaries.foldl (applyBoundaryLinear x) output =
      output + linear (range n) (boundaries.map boundarySquare) x := by
  induction boundaries generalizing output with
  | nil => simp [linear]
  | cons boundary boundaries ih =>
    simp only [List.forall_mem_cons] at h
    rw [List.foldl_cons, ih h.2]
    simp [applyBoundaryLinear, addAt_eq, linear, boundarySquare, dot_single h.1,
      add_assoc]

theorem foldl_boundaryEnergy (h : ∀ boundary ∈ boundaries, boundary.fieldIndex.toNat < n)
    (total : ℚ) : boundaries.foldl (boundaryEnergy x) total =
      total + energy (range n) (boundaries.map boundarySquare) x := by
  induction boundaries generalizing total with
  | nil => simp [energy]
  | cons boundary boundaries ih =>
    simp only [List.forall_mem_cons] at h
    rw [List.foldl_cons, ih h.2]
    simp [boundaryEnergy, energy, LeastSquares.Square.residual, boundarySquare,
      dot_single h.1, sub_eq_add_neg, add_assoc]

/-- The operator, the boundaries and the regularization have one energy, of which the code computes
the gradient and its linear part. -/
theorem exists_quadratic (program : SolverProgram)
    (hformed : ∀ constraint ∈ operator.constraints, WellFormed operator.fields.length constraint)
    (h : ∀ boundary ∈ boundaries, boundary.fieldIndex.toNat < operator.fields.length) :
    ∃ E G L, LeastSquares.Quadratic (range operator.fields.length) E G L ∧
      (∀ x, totalEnergy operator program boundaries x = .ok (E x)) ∧
      (∀ x, totalGradient operator program boundaries x = .ok (G x)) ∧
      ∀ x, applyLinearRegularized operator program boundaries x = .ok (L x) := by
  refine ⟨_, _, _, ((quadratic_terms _ (operator.constraints.map square)).add
    (quadratic_terms _ (boundaries.map boundarySquare))).add
      (quadratic_norm _ (value program.regularization)), fun x => ?_, fun x => ?_,
      fun x => ?_⟩
  · simp [totalEnergy, operatorEnergy, applyInternal_eq hformed, foldl_boundaryEnergy h]
  · simp [totalGradient, operatorApply, applyInternal_eq hformed, foldl_applyBoundaryGradient h]
  · simp [applyLinearRegularized, operatorApplyLinear, foldl_applyLinearConstraint hformed,
      foldl_applyBoundaryLinear h]

end Quadratic

/-! ## Runs -/

section Runs

variable {operator : Operator} {program : SolverProgram} {boundaries : List SolverBoundary}
  {E : (ℕ → ℚ) → ℚ} {G L : (ℕ → ℚ) → ℕ → ℚ} {thresholdSquared : ℚ} {s s' : State}

/-- An iteration is accepted: the point has moved from that of `s` to that of `s'`. -/
def Accepts (operator : Operator) (program : SolverProgram) (boundaries : List SolverBoundary)
    (thresholdSquared : ℚ) (s s' : State) : Prop :=
  iteration operator program boundaries thresholdSquared s = .ok (.next s') ∨
    iteration operator program boundaries thresholdSquared s = .ok (.converged s')

/-- The states before the iterations of a run. -/
inductive Reached (operator : Operator) (program : SolverProgram)
    (boundaries : List SolverBoundary) (x : ℕ → ℚ) : State → Prop
  | start {s : State} (hstart : initialState operator program boundaries x = .ok s)
    (hloop : ¬ s.residualSquared ≤ threshold program s.residualSquared) :
    Reached operator program boundaries x s
  | step {s s' first : State} (hreached : Reached operator program boundaries x s)
    (hstart : initialState operator program boundaries x = .ok first)
    (hnext : iteration operator program boundaries (threshold program first.residualSquared) s =
      .ok (.next s')) : Reached operator program boundaries x s'

/-- How a run of the loop ends, and in which state. -/
inductive Ended (operator : Operator) (program : SolverProgram) (boundaries : List SolverBoundary)
    (x : ℕ → ℚ) (thresholdSquared : ℚ) : Disposition → State → Prop
  | initiallySatisfied {first : State} (hstart : initialState operator program boundaries x = .ok first)
    (hle : first.residualSquared ≤ thresholdSquared) :
    Ended operator program boundaries x thresholdSquared .initiallySatisfied first
  | converged {s s' : State} (hreached : Reached operator program boundaries x s)
    (hlast : iteration operator program boundaries thresholdSquared s = .ok (.converged s')) :
    Ended operator program boundaries x thresholdSquared .converged s'
  | singularDirection {s : State} (hreached : Reached operator program boundaries x s)
    (hlast : iteration operator program boundaries thresholdSquared s = .ok .singular) :
    Ended operator program boundaries x thresholdSquared .singularDirection s
  | iterationLimit {s : State} (hreached : Reached operator program boundaries x s)
    (hcount : s.iterationCount = program.maxIterations.toNat) :
    Ended operator program boundaries x thresholdSquared .iterationLimit s

/-- What the solver hands back. -/
structure Solved (operator : Operator) (program : SolverProgram) (boundaries : List SolverBoundary)
    (x : ℕ → ℚ) (solution : Solution) : Prop where
  threshold : ∃ first, initialState operator program boundaries x = .ok first ∧
    solution.thresholdSquared = threshold program first.residualSquared
  ended : Ended operator program boundaries x solution.thresholdSquared solution.disposition
    solution.state
  energy : totalEnergy operator program boundaries solution.state.x = .ok solution.finalEnergy
  limit : solution.state.iterationCount ≤ program.maxIterations.toNat
  converged : solution.disposition = .converged → ∃ g,
    totalGradient operator program boundaries solution.state.x = .ok g ∧
      dot (range operator.fields.length) g g ≤ solution.thresholdSquared

/-- What holds of the state before an iteration. -/
abbrev Ready (operator : Operator) (G : (ℕ → ℚ) → ℕ → ℚ) (s : State) : Prop :=
  LeastSquares.Descent (range operator.fields.length) G s.x s.residual s.direction
    s.residualSquared

/-- What an accepted iteration does. -/
structure Moves (operator : Operator) (E : (ℕ → ℚ) → ℚ) (G : (ℕ → ℚ) → ℕ → ℚ) (s s' : State) :
    Prop where
  residual : s'.residual = -G s'.x
  norm : s'.residualSquared = dot (range operator.fields.length) s'.residual s'.residual
  energy : E s'.x < E s.x
  count : s'.iterationCount = s.iterationCount + 1

theorem iteration_cases (hq : LeastSquares.Quadratic (range operator.fields.length) E G L)
    (hlinear : ∀ x, applyLinearRegularized operator program boundaries x = .ok (L x))
    (hthreshold : 0 ≤ thresholdSquared) (hs : Ready operator G s) :
    iteration operator program boundaries thresholdSquared s = .ok .singular ∨
    (∃ s', iteration operator program boundaries thresholdSquared s = .ok (.converged s') ∧
      Moves operator E G s s' ∧ s'.residualSquared ≤ thresholdSquared) ∨
    ∃ s', iteration operator program boundaries thresholdSquared s = .ok (.next s') ∧
      Moves operator E G s s' ∧ Ready operator G s' := by
  unfold iteration
  simp only [hlinear, bind, Except.bind, pure, Except.pure]
  by_cases hden : dot (range operator.fields.length) s.direction (L s.direction) ≤ 0
  · exact .inl (by simp [hden])
  have hpos := not_le.1 hden
  refine .inr ?_
  simp only [hden, if_false, divide, hpos.ne', hs.pos.ne']
  by_cases hnext : dot (range operator.fields.length)
      (s.residual - (s.residualSquared / dot (range operator.fields.length) s.direction
        (L s.direction)) • L s.direction)
      (s.residual - (s.residualSquared / dot (range operator.fields.length) s.direction
        (L s.direction)) • L s.direction) ≤ thresholdSquared
  · exact .inl ⟨_, if_pos hnext, ⟨hs.residual_step hq, rfl, hs.energy_step hq hpos, rfl⟩, hnext⟩
  · exact .inr ⟨_, if_neg hnext, ⟨hs.residual_step hq, rfl, hs.energy_step hq hpos, rfl⟩,
      hs.next hq hpos rfl (hthreshold.trans_lt (not_le.1 hnext))⟩

theorem threshold_nonneg (program : SolverProgram) (initialSquared : ℚ) : 0 ≤ threshold program initialSquared :=
  le_max_of_le_left (sq_nonneg _)

variable {x : ℕ → ℚ}

theorem initialState_eq (hgradient : ∀ x, totalGradient operator program boundaries x = .ok (G x)) :
    initialState operator program boundaries x = .ok
      ⟨x, -G x, -G x, dot (range operator.fields.length) (-G x) (-G x), 0⟩ := by
  simp only [initialState, hgradient, bind, Except.bind, pure, Except.pure]

theorem ready_start (hgradient : ∀ x, totalGradient operator program boundaries x = .ok (G x))
    (hstart : initialState operator program boundaries x = .ok s)
    (hloop : ¬ s.residualSquared ≤ threshold program s.residualSquared) : Ready operator G s := by
  obtain rfl := Except.ok.inj ((initialState_eq hgradient).symm.trans hstart)
  exact ⟨rfl, rfl, rfl, (threshold_nonneg program _).trans_lt (not_le.1 hloop)⟩

theorem Reached.ready (hq : LeastSquares.Quadratic (range operator.fields.length) E G L)
    (hgradient : ∀ x, totalGradient operator program boundaries x = .ok (G x))
    (hlinear : ∀ x, applyLinearRegularized operator program boundaries x = .ok (L x))
    (h : Reached operator program boundaries x s) : Ready operator G s := by
  induction h with
  | start hstart hloop => exact ready_start hgradient hstart hloop
  | @step s s' first _ _ hnext ih =>
    rcases iteration_cases hq hlinear (threshold_nonneg program first.residualSquared) ih with
      h | ⟨_, h, -⟩ | ⟨_, h, -, hready⟩
    · simp [h] at hnext
    · simp [h] at hnext
    · simp only [h, Except.ok.injEq, Step.next.injEq] at hnext
      exact hnext ▸ hready

theorem iterate_spec (hq : LeastSquares.Quadratic (range operator.fields.length) E G L)
    (hlinear : ∀ x, applyLinearRegularized operator program boundaries x = .ok (L x)) {first : State}
    (hstart : initialState operator program boundaries x = .ok first) (left : ℕ)
    (hreached : Reached operator program boundaries x s) (hs : Ready operator G s)
    (hcount : s.iterationCount + left = program.maxIterations.toNat) :
    ∃ disposition s', iterate operator program boundaries (threshold program first.residualSquared)
        left s = .ok (disposition, s') ∧
      Ended operator program boundaries x (threshold program first.residualSquared) disposition s' ∧
      s'.iterationCount ≤ program.maxIterations.toNat ∧
      (disposition = .converged → s'.residual = -G s'.x ∧
        dot (range operator.fields.length) s'.residual s'.residual ≤
          threshold program first.residualSquared) := by
  induction left generalizing s with
  | zero => exact ⟨_, _, rfl, .iterationLimit hreached hcount, hcount.le, nofun⟩
  | succ left ih =>
    unfold iterate
    rcases iteration_cases hq hlinear (threshold_nonneg program first.residualSquared) hs with
      hrun | ⟨s', hrun, hmoves, hle⟩ | ⟨s', hrun, hmoves, hready⟩
    · exact ⟨.singularDirection, s, by simp [hrun, bind, Except.bind, pure, Except.pure],
        .singularDirection hreached hrun, by omega, nofun⟩
    · refine ⟨.converged, s', by simp [hrun, bind, Except.bind, pure, Except.pure],
        .converged hreached hrun, ?_, fun _ => ⟨hmoves.residual, hmoves.norm ▸ hle⟩⟩
      have hone := hmoves.count
      omega
    · obtain ⟨disposition, last, hlast, hspec⟩ := ih (.step hreached hstart hrun) hready (by
        have hone := hmoves.count
        omega)
      exact ⟨disposition, last, by simpa [hrun, bind, Except.bind] using hlast, hspec⟩

theorem boundary_bounds {n : ℕ} (h : boundariesValid boundaries n = true) :
    ∀ boundary ∈ boundaries, boundary.fieldIndex.toNat < n := by
  simp only [boundariesValid, boundaryValid, Bool.and_eq_true, List.all_eq_true, decide_eq_true_eq] at h
  exact fun boundary hboundary => by have := h.1 boundary hboundary; tauto

theorem execute_cases (program : SolverProgram) (boundaries : List SolverBoundary) (x : ℕ → ℚ)
    (initialStateCount solutionCapacity : ℕ)
    (hformed : ∀ constraint ∈ operator.constraints, WellFormed operator.fields.length constraint) :
    (∃ fault, execute operator program boundaries x initialStateCount solutionCapacity =
      .error fault ∧ fault ≠ .divisionByZero) ∨
    ∃ solution, execute operator program boundaries x initialStateCount solutionCapacity =
        .ok solution ∧ Solved operator program boundaries x solution := by
  by_cases hcount : initialStateCount = 0
  · exact .inl ⟨.invalidArgument, by simp [execute, hcount]; rfl, by decide⟩
  by_cases hprogram : programValid program = true
  swap
  · exact .inl ⟨.programInvalid, by simp [execute, hcount, hprogram]; rfl, by decide⟩
  by_cases hrange : operator.fields.length ≠ initialStateCount ∨
      solutionCapacity < operator.fields.length
  · exact .inl ⟨.range, by simp [execute, hcount, hprogram, hrange]; rfl, by decide⟩
  by_cases hvalid : boundariesValid boundaries operator.fields.length = true
  swap
  · exact .inl ⟨.boundaryInvalid, by simp [execute, hcount, hprogram, hrange, hvalid]; rfl,
      by decide⟩
  by_cases hid : program.operatorId = operator.receipt.operatorId
  swap
  · exact .inl ⟨.operatorMismatch, by simp [execute, hcount, hprogram, hrange, hvalid, hid]; rfl,
      by decide⟩
  obtain ⟨E, G, L, hq, henergy, hgradient, hlinear⟩ :=
    exists_quadratic program hformed (boundary_bounds hvalid)
  have hstart := initialState_eq (x := x) hgradient
  generalize hfirst : State.mk x (-G x) (-G x)
    (dot (range operator.fields.length) (-G x) (-G x)) 0 = first at hstart
  by_cases hloop : first.residualSquared ≤ threshold program first.residualSquared
  · refine .inr ⟨⟨.initiallySatisfied, first, threshold program first.residualSquared,
      E first.x⟩, ?_, ⟨first, hstart, rfl⟩, .initiallySatisfied hstart hloop, henergy _,
      by simp [← hfirst], nofun⟩
    simp [execute, hcount, hprogram, hrange, hvalid, hid, hstart, hloop, henergy, bind,
      Except.bind, pure, Except.pure]
  · obtain ⟨disposition, last, hrun, hended, hle, hconverged⟩ := iterate_spec hq hlinear hstart
      program.maxIterations.toNat (.start hstart hloop) (ready_start hgradient hstart hloop)
      (by simp [← hfirst])
    refine .inr ⟨⟨disposition, last, threshold program first.residualSquared, E last.x⟩, ?_,
      ⟨first, hstart, rfl⟩, hended, henergy _, hle, fun h => ⟨G last.x, hgradient _, ?_⟩⟩
    · simp [execute, hcount, hprogram, hrange, hvalid, hid, hstart, hloop, hrun, henergy, bind,
        Except.bind, pure, Except.pure]
    · obtain ⟨hresidual, hnorm⟩ := hconverged h
      simpa [hresidual, dot] using hnorm

end Runs

/-- **The recurrence of the solver is exact**: after each accepted iteration the residual that is
kept is the negative gradient and the energy has decreased, nothing is divided by zero, and what is
handed back is where these iterations end: the limit is kept, and where the solver reports
convergence the residual is as small as was asked. -/
theorem execute_conjugate {blake3 : Blake3} {sort : Sorting constraintOrder}
    {operatorProgram : OperatorProgram} {fields : List OperatorField}
    {constraints : List OperatorConstraint} {operator : Operator}
    (hbuilt : (operatorCreate blake3 sort operatorProgram fields constraints).2.2 = some operator)
    (program : SolverProgram) (boundaries : List SolverBoundary) (x : ℕ → ℚ)
    (initialStateCount solutionCapacity : ℕ) : (boundariesValid boundaries operator.fields.length = true →
      ∀ first s s', initialState operator program boundaries x = .ok first →
        Reached operator program boundaries x s →
        Accepts operator program boundaries (threshold program first.residualSquared) s s' →
        (∃ g, totalGradient operator program boundaries s'.x = .ok g ∧ s'.residual = -g) ∧
        ∃ e e', totalEnergy operator program boundaries s.x = .ok e ∧
          totalEnergy operator program boundaries s'.x = .ok e' ∧ e' < e) ∧
    execute operator program boundaries x initialStateCount solutionCapacity ≠ .error .divisionByZero ∧
    ∀ solution, execute operator program boundaries x initialStateCount solutionCapacity = .ok solution →
      Solved operator program boundaries x solution := by
  have hformed := wellFormed_of_built hbuilt
  refine ⟨fun hvalid first s s' hstart hreached haccepts => ?_, ?_, fun solution hsolution => ?_⟩
  · obtain ⟨E, G, L, hq, henergy, hgradient, hlinear⟩ :=
      exists_quadratic program hformed (boundary_bounds hvalid)
    have hmoves : Moves operator E G s s' := by
      rcases iteration_cases hq hlinear (threshold_nonneg program first.residualSquared)
        (hreached.ready hq hgradient hlinear) with h | ⟨_, h, hmoves, -⟩ | ⟨_, h, hmoves, -⟩ <;>
        simp [Accepts, h] at haccepts <;> exact haccepts ▸ hmoves
    exact ⟨⟨_, hgradient _, hmoves.residual⟩, _, _, henergy _, henergy _, hmoves.energy⟩
  · rcases execute_cases program boundaries x initialStateCount solutionCapacity hformed with
      ⟨fault, h, hne⟩ | ⟨solution, h, -⟩
    · rw [h]
      simpa using hne
    · simp [h]
  · rcases execute_cases program boundaries x initialStateCount solutionCapacity hformed with
      ⟨fault, h, -⟩ | ⟨solution', h, hspec⟩
    · simp [h] at hsolution
    · simp only [h, Except.ok.injEq] at hsolution
      exact hsolution ▸ hspec

def testimonyProgram : SolverProgram := ⟨1, 1, 1, 5, 0x3F50624DD2F1A9FC, 0, 0, 1, 0, 1, 0⟩

def testimonyBoundaries : List SolverBoundary := [⟨1, 0, one, one, 1, 0, 0⟩]

/-- With a boundary at the first field the solver converges from the origin in two iterations. -/
theorem execute_conjugate_testimony : ∃ solution,
    execute testimonyOperator testimonyProgram testimonyBoundaries 0 2 2 = .ok solution ∧
    solution.disposition = .converged ∧ solution.state.iterationCount = 2 ∧
    solution.state.x 0 = 1 ∧ solution.state.x 1 = 2 ∧
    Solved testimonyOperator testimonyProgram testimonyBoundaries 0 solution := by
  have hrun : (execute testimonyOperator testimonyProgram testimonyBoundaries 0 2 2).toOption.map
      (fun solution => (solution.disposition, solution.state.iterationCount, solution.state.x 0,
        solution.state.x 1)) = some (.converged, 2, 1, 2) := by decide +kernel
  cases hsolution : execute testimonyOperator testimonyProgram testimonyBoundaries 0 2 2 with
  | error fault =>
    rw [hsolution] at hrun
    cases hrun
  | ok solution =>
    simp only [hsolution, Except.toOption, Option.map_some, Option.some.injEq, Prod.mk.injEq] at hrun
    obtain ⟨hdisposition, hcount, hfirst, hsecond⟩ := hrun
    exact ⟨solution, rfl, hdisposition, hcount, hfirst, hsecond, (execute_conjugate
      testimonyOperator_built testimonyProgram testimonyBoundaries 0 2 2).2.2 solution hsolution⟩

end Laplace.CognitionSolver
