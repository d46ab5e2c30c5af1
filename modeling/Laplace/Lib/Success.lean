import Laplace.Lib.Program

/-!
# Programs that succeed

`Succeeds program s post` says that from `s` the program returns, with `post`. Its rules are
equivalences: what a program succeeds under is calculated from what its steps succeed under.
-/

namespace Laplace.Program

variable {σ ε α β : Type} {s s' : σ} {post post' : α → σ → Prop}

/-- The program returns with `post`. -/
def Succeeds (program : Program σ ε α) (s : σ) (post : α → σ → Prop) : Prop :=
  Ends program s post fun _ _ => False

theorem succeeds_iff {program : Program σ ε α} :
    Succeeds program s post ↔ ∃ a s', program.eval s = (.ok a, s') ∧ post a s' := by
  unfold Succeeds Ends
  rcases program.eval s with ⟨e | a, t⟩
  · exact ⟨False.elim, fun ⟨_, _, heq, _⟩ => by cases heq⟩
  · exact ⟨fun h => ⟨a, t, rfl, h⟩, fun ⟨_, _, heq, h⟩ => by cases heq; exact h⟩

theorem Succeeds.mono {program : Program σ ε α} (h : Succeeds program s post)
    (himp : ∀ a t, post a t → post' a t) : Succeeds program s post' :=
  Ends.mono h himp fun _ _ h => h

theorem Succeeds.and {program : Program σ ε α} (h : Succeeds program s post)
    (h' : Succeeds program s post') : Succeeds program s fun a t => post a t ∧ post' a t :=
  (Ends.and h h').mono (fun _ _ h => h) fun _ _ h => h.1

theorem succeeds_bind {program : Program σ ε α} {next : α → Program σ ε β} {post : β → σ → Prop} :
    Succeeds (program >>= next) s post ↔ Succeeds program s fun a t => Succeeds (next a) t post := by
  unfold Succeeds Ends
  rw [eval_bind]
  rcases program.eval s with ⟨e | a, t⟩ <;> rfl

@[simp] theorem succeeds_pure {a : α} : Succeeds (pure a : Program σ ε α) s post ↔ post a s := Iff.rfl

@[simp] theorem succeeds_modify {f : σ → σ} {post : PUnit → σ → Prop} :
    Succeeds (modify f : Program σ ε PUnit) s post ↔ post ⟨⟩ (f s) := Iff.rfl

@[simp] theorem succeeds_modify_then {f : σ → σ} {next : PUnit → Program σ ε β} {post : β → σ → Prop} :
    Succeeds (modify f >>= next) s post ↔ Succeeds (next ⟨⟩) (f s) post := succeeds_bind

@[simp] theorem succeeds_get_then {next : σ → Program σ ε β} {post : β → σ → Prop} :
    Succeeds (get >>= next) s post ↔ Succeeds (next s) s post := succeeds_bind

@[simp] theorem succeeds_require {condition : Prop} [Decidable condition] {e : ε} {post : Unit → σ → Prop} :
    Succeeds (require condition e) s post ↔ condition ∧ post () s := by
  unfold require
  split
  · rename_i h
    exact ⟨fun hpost => ⟨h, hpost⟩, fun hboth => hboth.2⟩
  · rename_i h
    exact ⟨False.elim, fun hboth => h hboth.1⟩

@[simp] theorem succeeds_require_then {condition : Prop} [Decidable condition] {e : ε}
    {next : Unit → Program σ ε β} {post : β → σ → Prop} :
    Succeeds (require condition e >>= next) s post ↔ condition ∧ Succeeds (next ()) s post :=
  succeeds_bind.trans succeeds_require

@[simp] theorem succeeds_demand {condition : Prop} [Decidable condition] {note : σ → σ} {e : ε}
    {post : Unit → σ → Prop} : Succeeds (demand condition note e) s post ↔ condition ∧ post () s := by
  unfold demand
  split
  · rename_i h
    exact ⟨fun hpost => ⟨h, hpost⟩, fun hboth => hboth.2⟩
  · rename_i h
    exact ⟨False.elim, fun hboth => h hboth.1⟩

@[simp] theorem succeeds_demand_then {condition : Prop} [Decidable condition] {note : σ → σ} {e : ε}
    {next : Unit → Program σ ε β} {post : β → σ → Prop} :
    Succeeds (demand condition note e >>= next) s post ↔ condition ∧ Succeeds (next ()) s post :=
  succeeds_bind.trans succeeds_demand

@[simp] theorem succeeds_mk_then {calculation : Except ε α} {next : α → Program σ ε β}
    {post : β → σ → Prop} : Succeeds (ExceptT.mk (pure calculation) >>= next) s post ↔
      ∃ a, calculation = .ok a ∧ Succeeds (next a) s post := by
  rw [succeeds_bind]
  cases calculation with
  | ok a => exact ⟨fun h => ⟨a, rfl, h⟩, fun ⟨_, heq, h⟩ => by cases heq; exact h⟩
  | error e => exact ⟨False.elim, fun ⟨_, heq, _⟩ => by cases heq⟩

end Laplace.Program
