import Laplace.Lib.Program

/-!
# Callbacks and loops

A callback that may call back any number of times, and look at each answer before it goes on, is a
tree: it is done, or it asks and goes on with the answer. Whatever it asks, it keeps what every
answer keeps. A loop runs its body until the body says stop; with a measure that every round
lowers, it ends, and more fuel than the measure changes nothing.
-/

namespace Laplace

/-- A callee that asks `ι`, gets answers `ο` and returns `α`. -/
inductive Interaction (ι ο α : Type)
  | done (result : α)
  | ask (question : ι) (next : ο → Interaction ι ο α)

namespace Program

variable {σ ε ε' ι ο α β : Type}

/-- Run a callee, answering by `respond`. -/
def serve (respond : ι → Program σ ε ο) : Interaction ι ο α → Program σ ε α
  | .done result => return result
  | .ask question next => do
    let answer ← respond question
    serve respond (next answer)

theorem Meets.serve {respond : ι → Program σ ε ο} {inv : σ → Prop} {exit : ε → σ → Prop}
    (h : ∀ question, Meets (respond question) inv (fun _ => inv) exit) :
    ∀ callee : Interaction ι ο α, Meets (Program.serve respond callee) inv (fun _ => inv) exit
  | .done _ => .pure fun _ hs => hs
  | .ask question next => .bind (h question) fun answer => Meets.serve h (next answer)

/-- Run a program to its end and go on from there, also when it leaves with an error. -/
def attempt (program : Program σ ε α) (next : Except ε α → Program σ ε' β) : Program σ ε' β :=
  ExceptT.mk (program.run >>= fun result => (next result).run)

theorem eval_attempt (program : Program σ ε α) (next : Except ε α → Program σ ε' β) (s : σ) :
    (attempt program next).eval s = (next (program.eval s).1).eval (program.eval s).2 := rfl

theorem Meets.attempt {program : Program σ ε α} {next : Except ε α → Program σ ε' β}
    {pre : σ → Prop} {Q : α → σ → Prop} {R : ε → σ → Prop} {post : β → σ → Prop}
    {exit : ε' → σ → Prop} (h : Meets program pre Q R) (hok : ∀ a, Meets (next (.ok a)) (Q a) post exit)
    (herror : ∀ e, Meets (next (.error e)) (R e) post exit) :
    Meets (Program.attempt program next) pre post exit := by
  intro s hs
  have hrun := h s hs
  rw [eval_attempt]
  rcases heq : program.eval s with ⟨e | a, s'⟩
  · rw [heq] at hrun
    exact herror e s' hrun
  · rw [heq] at hrun
    exact hok a s' hrun

/-- Run `body` until it returns `false`. -/
def loop (body : Program σ ε Bool) (outOfFuel : ε) : ℕ → Program σ ε Unit
  | 0 => throw outOfFuel
  | fuel + 1 => do
    let more ← body
    if more then loop body outOfFuel fuel else return

section

variable {body : Program σ ε Bool} {outOfFuel : ε} {inv post : σ → Prop} {measure : σ → ℕ}
  {exit : ε → σ → Prop}

/-- **Loop rule**: a round that goes on keeps the invariant and lowers the measure. -/
theorem Meets.loop (h : ∀ n, Meets body (fun s => inv s ∧ measure s = n)
      (fun more s => if more then inv s ∧ measure s < n else post s) exit) :
    ∀ fuel, Meets (loop body outOfFuel fuel) (fun s => inv s ∧ measure s < fuel) (fun _ => post) exit
  | 0 => fun s hs => absurd hs.2 (Nat.not_lt_zero _)
  | fuel + 1 => by
    intro s hs
    have hround := h (measure s) s ⟨hs.1, rfl⟩
    unfold Program.loop
    rw [eval_bind]
    rcases heq : body.eval s with ⟨e | more, s'⟩
    · rw [heq] at hround
      exact hround
    · rw [heq] at hround
      cases more with
      | false => exact hround
      | true => exact Meets.loop h fuel s' ⟨hround.1, hround.2.trans_le (Nat.le_of_lt_succ hs.2)⟩

variable (outOfFuel)

theorem loop_fuel (h : ∀ n, Meets body (fun s => inv s ∧ measure s = n)
      (fun more s => if more then inv s ∧ measure s < n else post s) exit) :
    ∀ {fuel fuel' : ℕ} {s : σ}, inv s → measure s < fuel → measure s < fuel' →
      (loop body outOfFuel fuel).eval s = (loop body outOfFuel fuel').eval s
  | 0, _, _, _, hfuel, _ => absurd hfuel (Nat.not_lt_zero _)
  | _, 0, _, _, _, hfuel => absurd hfuel (Nat.not_lt_zero _)
  | fuel + 1, fuel' + 1, s, hs, hfuel, hfuel' => by
    have hround := h (measure s) s ⟨hs, rfl⟩
    unfold Program.loop
    rw [eval_bind, eval_bind]
    rcases heq : body.eval s with ⟨e | more, s'⟩
    · rfl
    · rw [heq] at hround
      cases more with
      | false => rfl
      | true =>
        have hless : measure s' < measure s := hround.2
        exact loop_fuel h hround.1 (by omega) (by omega)

/-- **Termination**: with enough fuel the loop ends in one way. -/
theorem loop_terminates (h : ∀ n, Meets body (fun s => inv s ∧ measure s = n)
      (fun more s => if more then inv s ∧ measure s < n else post s) exit) {s : σ} (hs : inv s) :
    ∃ result last, (match result with
        | .ok () => post last
        | .error e => exit e last) ∧
      ∀ fuel, measure s < fuel → (loop body outOfFuel fuel).eval s = (result, last) := by
  have hloop : Meets (loop body outOfFuel (measure s + 1)) _ _ _ := Meets.loop h (measure s + 1)
  have hmeets := hloop s ⟨hs, Nat.lt_succ_self _⟩
  rcases hrun : (loop body outOfFuel (measure s + 1)).eval s with ⟨result, last⟩
  rw [hrun] at hmeets
  refine ⟨result, last, ?_, fun fuel hfuel => ?_⟩
  · cases result with
    | ok => exact hmeets
    | error => exact hmeets
  · exact (loop_fuel outOfFuel h hs hfuel (Nat.lt_succ_self _)).trans hrun

end

end Program

end Laplace
