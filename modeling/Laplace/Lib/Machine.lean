import Mathlib.Logic.Relation

/-!
# Deterministic machines

A machine is a partial step function on its states; `none` means that it has stopped.
`run` follows it for a bounded number of steps, `Reaches` for any number. The rules below are
the three that a development needs: an invariant holds at every point of a run, a decreasing
measure stops the machine, and a stopped run has one end.
-/

namespace Laplace.Machine

variable {α : Type*} (step : α → Option α)

/-- At most `n` steps from `a`. -/
def run : Nat → α → α
  | 0, a => a
  | n + 1, a => match step a with
    | none => a
    | some b => run n b

/-- `b` is a point of the run that starts in `a`. -/
def Reaches (a b : α) : Prop := Relation.ReflTransGen (fun x y => step x = some y) a b

variable {step} {a b c : α}

theorem Reaches.refl : Reaches step a a := Relation.ReflTransGen.refl

theorem Reaches.tail (h : Reaches step a b) (hs : step b = some c) : Reaches step a c :=
  Relation.ReflTransGen.tail h hs

theorem Reaches.head (hs : step a = some b) (h : Reaches step b c) : Reaches step a c :=
  Relation.ReflTransGen.head hs h

theorem reaches_run : ∀ (n : Nat) (a : α), Reaches step a (run step n a)
  | 0, _ => .refl
  | n + 1, a => by
    unfold run
    split
    · exact .refl
    · rename_i b hb
      exact .head hb (reaches_run n b)

theorem Reaches.of_halted (h : Reaches step a b) (hc : Reaches step a c) (hn : step c = none) :
    Reaches step b c := by
  induction h using Relation.ReflTransGen.head_induction_on with
  | refl => exact hc
  | head hxy _ ih =>
    refine ih ?_
    cases hc using Relation.ReflTransGen.head_induction_on with
    | refl =>
      rw [hn] at hxy
      cases hxy
    | head hxz hz =>
      rw [hxy] at hxz
      injection hxz with hxz
      rw [hxz]
      exact hz

theorem Reaches.end_unique (h : Reaches step a b) (hb : step b = none) (hc : Reaches step a c)
    (hn : step c = none) : b = c := by
  have hbc := h.of_halted hc hn
  cases hbc using Relation.ReflTransGen.head_induction_on with
  | refl => rfl
  | head hs =>
    rw [hb] at hs
    cases hs

/-- **Invariant rule.** What holds at the start and is kept by every step holds at every point. -/
theorem Reaches.invariant {P : α → Prop} (h : Reaches step a b) (h0 : P a)
    (hs : ∀ x y, P x → step x = some y → P y) : P b := by
  induction h with
  | refl => exact h0
  | tail _ hxy ih => exact hs _ _ ih hxy

/-- **Termination rule.** A measure that every step from an invariant state lowers bounds the
number of steps. -/
theorem run_halted {P : α → Prop} (μ : α → Nat) (hs : ∀ x y, P x → step x = some y → P y ∧ μ y < μ x) :
    ∀ (n : Nat) (a : α), P a → μ a < n → step (run step n a) = none
  | 0, _, _, h => by omega
  | n + 1, a, hP, h => by
    unfold run
    split
    · assumption
    · rename_i b hb
      obtain ⟨hPb, hlt⟩ := hs a b hP hb
      exact run_halted μ hs n b hPb (by omega)

/-- **Simulation rule.** Two machines that step alike from related states run alike. -/
theorem run_related {β : Type*} (step : α → Option α) (step' : β → Option β) {R : α → β → Prop}
    (h : ∀ a b, R a b → Option.Rel R (step a) (step' b)) :
    ∀ (n : Nat) {a : α} {b : β}, R a b → R (run step n a) (run step' n b)
  | 0, _, _, hab => hab
  | n + 1, a, b, hab => by
    have hstep := h a b hab
    unfold run
    rcases hleft : step a with _ | a' <;> rcases hright : step' b with _ | b'
    · exact hab
    · rw [hleft, hright] at hstep
      cases hstep
    · rw [hleft, hright] at hstep
      cases hstep
    · rw [hleft, hright] at hstep
      cases hstep with
      | some hnext => exact run_related step step' h n hnext

end Laplace.Machine
