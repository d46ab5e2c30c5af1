import Mathlib.Algebra.BigOperators.Ring.Finset
import Mathlib.Algebra.Order.Field.Rat
import Mathlib.Tactic

/-!
# Sums of weighted squares

The energy of a list of squares of affine functions, its gradient and the linear part of that, and
what a step of the method of conjugate gradients does to a quadratic energy. Vectors are functions
on the indices, of which those in `s` count.
-/

namespace Laplace.LeastSquares

open Finset

variable {ι : Type*} (s : Finset ι)

def dot (x y : ι → ℚ) : ℚ := ∑ i ∈ s, x i * y i

variable {s} {x y h : ι → ℚ} {c : ℚ}

theorem dot_comm : dot s x y = dot s y x := by simp [dot, mul_comm]

@[simp] theorem dot_add : dot s x (y + h) = dot s x y + dot s x h := by
  simp [dot, mul_add, sum_add_distrib]

@[simp] theorem dot_sub : dot s x (y - h) = dot s x y - dot s x h := by
  simp [dot, mul_sub, sum_sub_distrib]

@[simp] theorem dot_smul : dot s x (c • y) = c * dot s x y := by
  simp [dot, mul_sum, mul_left_comm]

@[simp] theorem add_dot : dot s (x + y) h = dot s x h + dot s y h := by
  simp [dot, add_mul, sum_add_distrib]

@[simp] theorem smul_dot : dot s (c • x) h = c * dot s x h := by simp [dot, mul_sum, mul_assoc]

@[simp] theorem neg_dot : dot s (-x) h = -dot s x h := by simp [dot]

@[simp] theorem zero_dot : dot s 0 h = 0 := by simp [dot]

/-- `weight / 2` times the square of an affine function. -/
structure Square (ι : Type*) where
  weight : ℚ
  coefficient : ι → ℚ
  constant : ℚ

variable (s) (terms terms' : List (Square ι))

def Square.residual (term : Square ι) (x : ι → ℚ) : ℚ := dot s term.coefficient x + term.constant

def energy (x : ι → ℚ) : ℚ :=
  (terms.map fun term => 1 / 2 * term.weight * term.residual s x * term.residual s x).sum

def gradient (x : ι → ℚ) : ι → ℚ :=
  (terms.map fun term => (term.weight * term.residual s x) • term.coefficient).sum

/-- The gradient without the constants: the matrix of the energy, applied. -/
def linear (x : ι → ℚ) : ι → ℚ :=
  (terms.map fun term => (term.weight * dot s term.coefficient x) • term.coefficient).sum

variable {s terms terms'}

theorem gradient_add : gradient s terms (x + h) = gradient s terms x + linear s terms h := by
  induction terms with
  | nil => simp [gradient, linear]
  | cons term terms ih =>
    simp only [gradient, linear, Square.residual, List.map_cons, List.sum_cons, dot_add] at ih ⊢
    rw [ih]
    module

theorem energy_add : energy s terms (x + h) =
    energy s terms x + dot s (gradient s terms x) h + 1 / 2 * dot s (linear s terms h) h := by
  induction terms with
  | nil => simp [energy, gradient, linear]
  | cons term terms ih =>
    simp only [energy, gradient, linear, Square.residual, List.map_cons, List.sum_cons, dot_add, add_dot,
      smul_dot] at ih ⊢
    rw [ih]
    ring

theorem linear_smul : linear s terms (c • x) = c • linear s terms x := by
  induction terms with
  | nil => simp [linear]
  | cons term terms ih =>
    simp only [linear, List.map_cons, List.sum_cons, dot_smul] at ih ⊢
    rw [ih]
    module

theorem linear_dot_nonneg (hweight : ∀ term ∈ terms, 0 ≤ term.weight) : 0 ≤ dot s (linear s terms x) x := by
  induction terms with
  | nil => simp [linear]
  | cons term terms ih =>
    simp only [List.forall_mem_cons] at hweight
    have hrest := ih hweight.2
    simp only [linear, List.map_cons, List.sum_cons, add_dot, smul_dot] at hrest ⊢
    have hsquare := mul_nonneg hweight.1 (mul_self_nonneg (dot s term.coefficient x))
    linarith

/-! ## Conjugate gradients -/

/-- A quadratic energy `E` with the gradient `G`, whose linear part is `L`. -/
structure Quadratic (s : Finset ι) (E : (ι → ℚ) → ℚ) (G L : (ι → ℚ) → ι → ℚ) : Prop where
  gradient_add : ∀ x h, G (x + h) = G x + L h
  energy_add : ∀ x h, E (x + h) = E x + dot s (G x) h + 1 / 2 * dot s (L h) h
  smul : ∀ (c : ℚ) x, L (c • x) = c • L x

variable {E E' : (ι → ℚ) → ℚ} {G G' L L' : (ι → ℚ) → ι → ℚ}

theorem quadratic_terms (s : Finset ι) (terms : List (Square ι)) :
    Quadratic s (energy s terms) (gradient s terms) (linear s terms) :=
  ⟨fun _ _ => gradient_add, fun _ _ => energy_add, fun _ _ => linear_smul⟩

theorem quadratic_norm (s : Finset ι) (c : ℚ) :
    Quadratic s (fun x => 1 / 2 * c * dot s x x) (fun x => c • x) fun x => c • x where
  gradient_add x h := smul_add c x h
  energy_add x h := by
    simp only [dot_add, add_dot, smul_dot, dot_comm (x := h) (y := x)]
    ring
  smul a x := smul_comm c a x

theorem Quadratic.add (h : Quadratic s E G L) (h' : Quadratic s E' G' L') :
    Quadratic s (fun x => E x + E' x) (fun x => G x + G' x) fun x => L x + L' x where
  gradient_add x y := by
    rw [h.gradient_add, h'.gradient_add]
    abel
  energy_add x y := by
    rw [h.energy_add, h'.energy_add, add_dot, add_dot]
    ring
  smul a x := by rw [h.smul, h'.smul, smul_add]

/-- What holds before each step: `r` is the residual at `x`, and `d` the next direction. -/
structure Descent (s : Finset ι) (G : (ι → ℚ) → ι → ℚ) (x r d : ι → ℚ) (squared : ℚ) : Prop where
  residual : r = -G x
  norm : squared = dot s r r
  conjugate : dot s d r = squared
  pos : 0 < squared

namespace Descent

variable {r d : ι → ℚ} {squared : ℚ} (hq : Quadratic s E G L) (hd : Descent s G x r d squared)
  (hpos : 0 < dot s d (L d))
include hq hd hpos

omit hpos in
theorem residual_step : r - (squared / dot s d (L d)) • L d = -G (x + (squared / dot s d (L d)) • d) := by
  rw [hq.gradient_add, hq.smul, hd.residual]
  abel

theorem energy_step : E (x + (squared / dot s d (L d)) • d) < E x := by
  have hgradient : dot s (G x) d = -squared := by
    have hconjugate := hd.conjugate
    rw [hd.residual, dot_comm, neg_dot] at hconjugate
    linarith
  have halpha : 0 < squared / dot s d (L d) := div_pos hd.pos hpos
  have hcancel : squared / dot s d (L d) * dot s d (L d) = squared :=
    div_mul_cancel₀ _ hpos.ne'
  rw [hq.energy_add, hq.smul, dot_smul, dot_smul, smul_dot, hgradient, dot_comm (x := L d)]
  nlinarith [mul_pos halpha hd.pos]

theorem next {next : ℚ} (hnext : next = dot s (r - (squared / dot s d (L d)) • L d)
      (r - (squared / dot s d (L d)) • L d)) (hne : 0 < next) :
    Descent s G (x + (squared / dot s d (L d)) • d) (r - (squared / dot s d (L d)) • L d)
      (r - (squared / dot s d (L d)) • L d + (next / squared) • d) next where
  residual := hd.residual_step hq
  norm := hnext
  conjugate := by
    have horthogonal : dot s d (r - (squared / dot s d (L d)) • L d) = 0 := by
      rw [dot_sub, dot_smul, hd.conjugate, div_mul_cancel₀ _ hpos.ne', sub_self]
    rw [add_dot, smul_dot, horthogonal, ← hnext, mul_zero, add_zero]
  pos := hne

end Descent

end Laplace.LeastSquares
