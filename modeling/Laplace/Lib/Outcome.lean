import Mathlib.Tactic

/-!
# Outcomes

What holds of the value of a calculation that may fail, and what of its error. A rule for each way
to build a calculation gives one statement for all ways it can go.
-/

namespace Laplace

variable {ε α β : Type}

/-- The calculation ends in a value with `holds` or in an error with `fails`. -/
def Outcome (calculation : Except ε α) (holds : α → Prop) (fails : ε → Prop) : Prop :=
  match calculation with
  | .ok value => holds value
  | .error error => fails error

namespace Outcome

variable {calculation : Except ε α} {holds holds' : α → Prop} {fails fails' : ε → Prop}

theorem of_ok (h : Outcome calculation holds fails) {value : α} (hok : calculation = .ok value) :
    holds value := by
  rw [hok] at h
  exact h

theorem of_error (h : Outcome calculation holds fails) {error : ε} (herror : calculation = .error error) :
    fails error := by
  rw [herror] at h
  exact h

theorem mono (h : Outcome calculation holds fails) (hholds : ∀ value, holds value → holds' value)
    (hfails : ∀ error, fails error → fails' error) : Outcome calculation holds' fails' := by
  cases calculation with
  | ok value => exact hholds value h
  | error error => exact hfails error h

theorem bind {next : α → Except ε β} {holds'' : β → Prop} (h : Outcome calculation holds fails)
    (hnext : ∀ value, holds value → Outcome (next value) holds'' fails) :
    Outcome (calculation >>= next) holds'' fails := by
  cases calculation with
  | ok value => exact hnext value h
  | error error => exact h

theorem pure {value : α} (h : holds value) : Outcome (pure value : Except ε α) holds fails := h

theorem ite {condition : Prop} [Decidable condition] {left right : Except ε α}
    (hleft : condition → Outcome left holds fails) (hright : ¬ condition → Outcome right holds fails) :
    Outcome (if condition then left else right) holds fails := by
  split
  · exact hleft ‹_›
  · exact hright ‹_›

theorem refuse {condition : Prop} [Decidable condition] {error : ε} (herror : fails error)
    (h : Outcome calculation holds fails) :
    Outcome (if condition then .error error else calculation) holds fails :=
  ite (fun _ => herror) fun _ => h

theorem foldlM {step : β → α → Except ε β} (h : ∀ state item, Outcome (step state item) (fun _ => True) fails) :
    ∀ (items : List α) (state : β), Outcome (items.foldlM step state) (fun _ => True) fails
  | [], _ => trivial
  | item :: items, state => by
    rw [List.foldlM_cons]
    exact (h state item).bind fun next _ => foldlM h items next

end Outcome

/-! ## The ways to a value -/

theorem bind_eq_ok {calculation : Except ε α} {next : α → Except ε β} {result : β} :
    calculation >>= next = .ok result ↔ ∃ value, calculation = .ok value ∧ next value = .ok result := by
  cases calculation with
  | error error => exact ⟨nofun, nofun⟩
  | ok value => exact ⟨fun h => ⟨value, rfl, h⟩, fun ⟨_, hok, h⟩ => Except.ok.inj hok ▸ h⟩

theorem map_eq_ok {calculation : Except ε α} {f : α → β} {result : β} :
    calculation.map f = .ok result ↔ ∃ value, calculation = .ok value ∧ f value = result := by
  cases calculation with
  | error error => exact ⟨nofun, nofun⟩
  | ok value => exact ⟨fun h => ⟨value, rfl, Except.ok.inj h⟩, fun ⟨_, hok, h⟩ => by cases hok; exact h ▸ rfl⟩

theorem pure_eq_ok {value result : α} : (pure value : Except ε α) = .ok result ↔ result = value := by
  rw [eq_comm]
  exact ⟨fun h => Except.ok.inj h, fun h => congrArg Except.ok h⟩

theorem refuse_eq_ok {condition : Prop} [Decidable condition] {error : ε} {calculation : Except ε α}
    {result : α} : (if condition then .error error else calculation) = .ok result ↔
      ¬ condition ∧ calculation = .ok result := by
  split
  · exact ⟨nofun, fun h => absurd ‹_› h.1⟩
  · exact (and_iff_right ‹_›).symm

end Laplace
