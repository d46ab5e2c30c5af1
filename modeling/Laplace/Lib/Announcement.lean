import Laplace.Lib.Interaction
import Laplace.Lib.Success

/-!
# Callees that announce

A callee that looks at an answer only to leave at the first refusal asks the same questions whatever
the answers are: it is the list of its questions and the way in which it ends when none is refused.
-/

namespace Laplace

/-- The questions, and the end when none of them is refused. -/
def Announcer (ι ε α : Type) := List ι × Except ε α

namespace Announcer

variable {ι ο ε α β : Type}

instance : Monad (Announcer ι ε) where
  pure a := ([], .ok a)
  bind announcer next :=
    match announcer with
    | (questions, .error e) => (questions, .error e)
    | (questions, .ok a) => (questions ++ (next a).1, (next a).2)

/-- Ask one question. -/
def say (question : ι) : Announcer ι ε Unit := ([question], .ok ())

def stop (e : ε) : Announcer ι ε α := ([], .error e)

/-- Leave with `e` unless `condition` holds. -/
def require (condition : Prop) [Decidable condition] (e : ε) : Announcer ι ε Unit :=
  if condition then pure () else stop e

/-- What the callee does: it asks, and leaves with `refused` at the first answer that is not
accepted. -/
def callee (accepts : ο → Bool) (refused : β) (ended : Except ε α → β) (announcer : Announcer ι ε α) :
    Interaction ι ο β :=
  announcer.1.foldr
    (fun question rest => .ask question fun answer => if accepts answer then rest else .done refused)
    (.done (ended announcer.2))

/-! ## How announcers end -/

/-- No question is refused, and the announcer returns. -/
def Returns (announcer : Announcer ι ε α) (questions : List ι) (a : α) : Prop :=
  announcer = (questions, .ok a)

/-- No question is refused, and the announcer leaves with `e`. -/
def Fails (announcer : Announcer ι ε α) (e : ε) : Prop := announcer.2 = .error e

theorem returns_pure (a : α) : (pure a : Announcer ι ε α).Returns [] a := rfl

theorem returns_say (question : ι) : (say question : Announcer ι ε Unit).Returns [question] () := rfl

theorem fails_stop (e : ε) : (stop e : Announcer ι ε α).Fails e := rfl

theorem Returns.bind {announcer : Announcer ι ε α} {next : α → Announcer ι ε β}
    {questions questions' : List ι} {a : α} {b : β} (h : announcer.Returns questions a)
    (hnext : (next a).Returns questions' b) : (announcer >>= next).Returns (questions ++ questions') b := by
  cases h
  change (questions ++ (next a).1, (next a).2) = _
  rw [show next a = (questions', .ok b) from hnext]

theorem Returns.bind_fails {announcer : Announcer ι ε α} {next : α → Announcer ι ε β}
    {questions : List ι} {a : α} {e : ε} (h : announcer.Returns questions a) (hnext : (next a).Fails e) :
    (announcer >>= next).Fails e := by
  cases h
  exact hnext

theorem Fails.bind {announcer : Announcer ι ε α} {e : ε} (h : announcer.Fails e)
    (next : α → Announcer ι ε β) : (announcer >>= next).Fails e := by
  obtain ⟨questions, result⟩ := announcer
  cases h
  rfl

theorem require_pos {condition : Prop} [Decidable condition] (h : condition) (e : ε) :
    (require condition e : Announcer ι ε Unit) = pure () := if_pos h

theorem require_neg {condition : Prop} [Decidable condition] (h : ¬ condition) (e : ε) :
    (require condition e : Announcer ι ε Unit) = stop e := if_neg h

end Announcer

/-! ## What a callee asks -/

namespace Interaction

variable {ι ο α : Type}

/-- The questions of a callee that gets one answer to all of them, and what it returns. -/
def spoken (answer : ο) : Interaction ι ο α → List ι × α
  | .done result => ([], result)
  | .ask question next => (question :: (spoken answer (next answer)).1, (spoken answer (next answer)).2)

/-- Whether the callee can return `result` when the answers are any. -/
inductive MayReturn : Interaction ι ο α → α → Prop
  | done (result : α) : MayReturn (.done result) result
  | ask {question : ι} {next : ο → Interaction ι ο α} {result : α} (answer : ο) :
    MayReturn (next answer) result → MayReturn (.ask question next) result

end Interaction

namespace Announcer

variable {ι ο ε α β : Type} {accepts : ο → Bool} {refused : β} {ended : Except ε α → β}

theorem spoken_callee {answer : ο} (h : accepts answer = true) (announcer : Announcer ι ε α) :
    (announcer.callee accepts refused ended).spoken answer = (announcer.1, ended announcer.2) := by
  obtain ⟨questions, result⟩ := announcer
  unfold callee
  dsimp only
  induction questions with
  | nil => rfl
  | cons question questions ih =>
    rw [List.foldr_cons, Interaction.spoken]
    simp only [h, if_true]
    rw [ih]

/-- Whatever the answers are, a callee returns what it returns when none is refused, or that one
was. -/
theorem mayReturn_callee {announcer : Announcer ι ε α} {result : β}
    (h : (announcer.callee accepts refused ended).MayReturn result) :
    result = refused ∨ result = ended announcer.2 := by
  obtain ⟨questions, final⟩ := announcer
  induction questions with
  | nil =>
    cases h
    exact .inr rfl
  | cons question questions ih =>
    obtain ⟨answer, h⟩ : ∃ answer, (if accepts answer then
        callee accepts refused ended (questions, final) else .done refused).MayReturn result := by
      cases h with
      | ask answer h => exact ⟨answer, h⟩
    split at h
    · exact ih h
    · cases h
      exact .inl rfl

end Announcer

end Laplace
