import Mathlib.Tactic

/-!
# Programs with early exit, and their pre- and postconditions

A program changes a state and either returns a value or leaves with an error; the state at the
exit is kept. `Meets program pre post exit` says that from a state with `pre` the program returns
in a state with `post` or leaves in one with `exit`. There is one rule for every way to put a
program together.
-/

namespace Laplace

abbrev Program (σ ε : Type) := ExceptT ε (StateM σ)

namespace Program

variable {σ ε α β : Type}

/-- What a program does from a state. -/
def eval (program : Program σ ε α) (s : σ) : Except ε α × σ := program.run s

/-- Leave with `error` unless `condition` holds. -/
def require (condition : Prop) [Decidable condition] (error : ε) : Program σ ε Unit :=
  if condition then pure () else throw error

/-- Leave with `error` unless `condition` holds, and change the state by `note` before. -/
def demand (condition : Prop) [Decidable condition] (note : σ → σ) (error : ε) :
    Program σ ε Unit :=
  if condition then pure () else modify note >>= fun _ => throw error

@[simp] theorem eval_pure (a : α) (s : σ) : (pure a : Program σ ε α).eval s = (.ok a, s) := rfl

@[simp] theorem eval_throw (e : ε) (s : σ) : (throw e : Program σ ε α).eval s = (.error e, s) :=
  rfl

@[simp] theorem eval_modify (f : σ → σ) (s : σ) :
    (modify f : Program σ ε PUnit).eval s = (.ok ⟨⟩, f s) := rfl

@[simp] theorem eval_get (s : σ) : (get : Program σ ε σ).eval s = (.ok s, s) := rfl

theorem eval_bind (program : Program σ ε α) (next : α → Program σ ε β) (s : σ) :
    (program >>= next).eval s = match program.eval s with
      | (.ok a, s') => (next a).eval s'
      | (.error e, s') => (.error e, s') := by
  unfold eval ExceptT.run
  simp only [bind, ExceptT.bind, ExceptT.mk, StateT.bind, ExceptT.bindCont]
  rcases program s with ⟨e | a, s'⟩ <;> rfl

/-! ## Rules -/

/-- From `pre`, the program returns with `post` or leaves with `exit`. -/
def Meets (program : Program σ ε α) (pre : σ → Prop) (post : α → σ → Prop)
    (exit : ε → σ → Prop) : Prop :=
  ∀ s, pre s → match program.eval s with
    | (.ok a, s') => post a s'
    | (.error e, s') => exit e s'

variable {pre pre' : σ → Prop} {post post' : α → σ → Prop} {exit exit' : ε → σ → Prop}

theorem Meets.of_ok {program : Program σ ε α} (h : Meets program pre post exit) {s s' : σ} {a : α}
    (hs : pre s) (hrun : program.eval s = (.ok a, s')) : post a s' := by
  have := h s hs
  rwa [hrun] at this

theorem Meets.of_error {program : Program σ ε α} (h : Meets program pre post exit) {s s' : σ}
    {e : ε} (hs : pre s) (hrun : program.eval s = (.error e, s')) : exit e s' := by
  have := h s hs
  rwa [hrun] at this

/-- **Consequence rule.** -/
theorem Meets.mono {program : Program σ ε α} (h : Meets program pre post exit)
    (hpre : ∀ s, pre' s → pre s) (hpost : ∀ a s, post a s → post' a s)
    (hexit : ∀ e s, exit e s → exit' e s) : Meets program pre' post' exit' := by
  intro s hs
  have hrun := h s (hpre s hs)
  rcases heq : program.eval s with ⟨e | a, s'⟩
  · rw [heq] at hrun
    exact hexit e s' hrun
  · rw [heq] at hrun
    exact hpost a s' hrun

theorem Meets.of_pre {program : Program σ ε α} (h : Meets program pre post exit)
    (hpre : ∀ s, pre' s → pre s) : Meets program pre' post exit :=
  h.mono hpre (fun _ _ h => h) fun _ _ h => h

theorem Meets.of_exit {program : Program σ ε α} (h : Meets program pre post exit)
    (hexit : ∀ e s, exit e s → exit' e s) : Meets program pre post exit' :=
  h.mono (fun _ h => h) (fun _ _ h => h) hexit

/-- `P` holds before the program and however it ends. -/
abbrev Invariant (program : Program σ ε α) (P : σ → Prop) : Prop :=
  Meets program P (fun _ => P) fun _ => P

theorem Meets.pure {a : α} (h : ∀ s, pre s → post a s) :
    Meets (Pure.pure a : Program σ ε α) pre post exit := fun s hs => h s hs

theorem Meets.throw {e : ε} (h : ∀ s, pre s → exit e s) :
    Meets (MonadExcept.throw e : Program σ ε α) pre post exit := fun s hs => h s hs

theorem Meets.modify_then {f : σ → σ} {next : PUnit → Program σ ε β} {post' : β → σ → Prop}
    (mid : σ → Prop) (h : ∀ s, pre s → mid (f s)) (hnext : Meets (next ⟨⟩) mid post' exit) :
    Meets (modify f >>= next) pre post' exit := by
  intro s hs
  rw [eval_bind]
  exact hnext (f s) (h s hs)

theorem Meets.modify {f : σ → σ} {post : PUnit → σ → Prop} (h : ∀ s, pre s → post ⟨⟩ (f s)) :
    Meets (modify f : Program σ ε PUnit) pre post exit := fun s hs => h s hs

/-- **Sequence rule.** -/
theorem Meets.bind {program : Program σ ε α} {next : α → Program σ ε β}
    {Q : α → σ → Prop} {post' : β → σ → Prop} (h : Meets program pre Q exit)
    (hnext : ∀ a, Meets (next a) (Q a) post' exit) : Meets (program >>= next) pre post' exit := by
  intro s hs
  have hrun := h s hs
  rw [eval_bind]
  rcases heq : program.eval s with ⟨e | a, s'⟩
  · rw [heq] at hrun
    exact hrun
  · rw [heq] at hrun
    exact hnext a s' hrun

theorem Meets.ite {condition : Prop} [Decidable condition] {yes no : Program σ ε α}
    (hyes : condition → Meets yes pre post exit) (hno : ¬ condition → Meets no pre post exit) :
    Meets (if condition then yes else no) pre post exit := by
  by_cases h : condition
  · rw [if_pos h]
    exact hyes h
  · rw [if_neg h]
    exact hno h

/-! ### Rules for a program that goes on -/

theorem Meets.get_then {next : σ → Program σ ε β} {post' : β → σ → Prop}
    (h : ∀ s, Meets (next s) (fun s' => pre s' ∧ s' = s) post' exit) :
    Meets (MonadState.get >>= next) pre post' exit := by
  intro s hs
  rw [eval_bind]
  exact h s s ⟨hs, rfl⟩

theorem Meets.require_then {condition : Prop} [Decidable condition] {e : ε}
    {next : Unit → Program σ ε β} {post' : β → σ → Prop} (hno : ∀ s, pre s → ¬ condition → exit e s)
    (hnext : condition → Meets (next ()) pre post' exit) :
    Meets (Program.require condition e >>= next) pre post' exit :=
  .bind (Q := fun _ s => pre s ∧ condition) (.ite (fun h => .pure fun _ hs => ⟨hs, h⟩) fun h =>
    .throw fun s hs => hno s hs h) fun _ s hs => hnext hs.2 s hs.1

theorem Meets.demand {condition : Prop} [Decidable condition] {note : σ → σ} {e : ε}
    {post : Unit → σ → Prop} (hyes : ∀ s, pre s → condition → post () s)
    (hno : ∀ s, pre s → ¬ condition → exit e (note s)) :
    Meets (Program.demand condition note e) pre post exit :=
  .ite (fun h => .pure fun s hs => hyes s hs h) fun h => fun s hs => hno s hs h

theorem Meets.demand_then {condition : Prop} [Decidable condition] {note : σ → σ} {e : ε}
    {next : Unit → Program σ ε β} {post' : β → σ → Prop} (hno : ∀ s, pre s → ¬ condition → exit e (note s))
    (hnext : condition → Meets (next ()) pre post' exit) :
    Meets (Program.demand condition note e >>= next) pre post' exit :=
  .bind (Q := fun _ s => pre s ∧ condition) (.demand (fun _ hs h => ⟨hs, h⟩) hno) fun _ s hs =>
    hnext hs.2 s hs.1

theorem Meets.and {program : Program σ ε α} (h : Meets program pre post exit)
    (h' : Meets program pre' post' exit') :
    Meets program (fun s => pre s ∧ pre' s) (fun a s => post a s ∧ post' a s)
      fun e s => exit e s ∧ exit' e s := by
  intro s hs
  have hrun := h s hs.1
  have hrun' := h' s hs.2
  rcases heq : program.eval s with ⟨e | a, s'⟩
  · rw [heq] at hrun hrun'
    exact ⟨hrun, hrun'⟩
  · rw [heq] at hrun hrun'
    exact ⟨hrun, hrun'⟩

/-! ## One run

`Ends` is `Meets` from one state, for a specification that relates the states of a run. -/

def Ends (program : Program σ ε α) (s : σ) (post : α → σ → Prop) (exit : ε → σ → Prop) : Prop :=
  match program.eval s with
  | (.ok a, s') => post a s'
  | (.error e, s') => exit e s'

variable {s : σ}

theorem Ends.mono {program : Program σ ε α} (h : Ends program s post exit)
    (hpost : ∀ a s, post a s → post' a s) (hexit : ∀ e s, exit e s → exit' e s) :
    Ends program s post' exit' :=
  have hmeets : Meets program (· = s) post exit := by
    rintro _ rfl
    exact h
  (hmeets.mono (fun _ h => h) hpost hexit) s rfl

theorem Ends.and {program : Program σ ε α} (h : Ends program s post exit)
    (h' : Ends program s post' exit') :
    Ends program s (fun a s => post a s ∧ post' a s) fun e s => exit e s ∧ exit' e s :=
  have hmeets : Meets program (· = s) post exit := by
    rintro _ rfl
    exact h
  have hmeets' : Meets program (· = s) post' exit' := by
    rintro _ rfl
    exact h'
  hmeets.and hmeets' s ⟨rfl, rfl⟩

theorem Ends.bind {program : Program σ ε α} {next : α → Program σ ε β} {Q : α → σ → Prop}
    {post' : β → σ → Prop} (h : Ends program s Q exit)
    (hnext : ∀ a s', Q a s' → Ends (next a) s' post' exit) : Ends (program >>= next) s post' exit := by
  unfold Ends at h ⊢
  rw [eval_bind]
  rcases heq : program.eval s with ⟨e | a, s'⟩
  · rw [heq] at h
    exact h
  · rw [heq] at h
    exact hnext a s' h

@[simp] theorem ends_pure {a : α} : Ends (pure a : Program σ ε α) s post exit ↔ post a s := Iff.rfl

@[simp] theorem ends_modify {f : σ → σ} {post : PUnit → σ → Prop} :
    Ends (modify f : Program σ ε PUnit) s post exit ↔ post ⟨⟩ (f s) := Iff.rfl

@[simp] theorem ends_get_then {next : σ → Program σ ε β} {post : β → σ → Prop} :
    Ends (get >>= next) s post exit ↔ Ends (next s) s post exit := by
  unfold Ends
  rw [eval_bind]
  rfl

@[simp] theorem ends_modify_then {f : σ → σ} {next : PUnit → Program σ ε β} {post : β → σ → Prop} :
    Ends (modify f >>= next) s post exit ↔ Ends (next ⟨⟩) (f s) post exit := by
  unfold Ends
  rw [eval_bind]
  rfl

@[simp] theorem ends_require_then {condition : Prop} [Decidable condition] {e : ε}
    {next : Unit → Program σ ε β} {post : β → σ → Prop} : Ends (require condition e >>= next) s post exit ↔
      (condition → Ends (next ()) s post exit) ∧ (¬ condition → exit e s) := by
  by_cases h : condition
  · rw [require, if_pos h]
    exact ⟨fun hnext => ⟨fun _ => hnext, fun hno => absurd h hno⟩, fun hboth => hboth.1 h⟩
  · rw [require, if_neg h]
    exact ⟨fun hexit => ⟨fun hyes => absurd hyes h, fun _ => hexit⟩, fun hboth => hboth.2 h⟩

end Program

end Laplace
