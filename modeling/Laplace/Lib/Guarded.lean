import Laplace.Lib.Checked

/-!
# Calculations that trap

A calculation with words that does not give the number it stands for, because it wraps around,
loses bits or divides by zero, ends in a trap, which is not an error that code could report. `Safe`
says that there is no trap, and what holds of the value where there is one.
-/

namespace Laplace

/-- Why there is no value. -/
inductive Stop (ε : Type)
  | fails (error : ε)
  | trap
deriving DecidableEq, Repr

abbrev Guarded (ε α : Type) := Except (Stop ε) α

namespace Guarded

open Checked (maxWord toNat_maxWord)

variable {ε α β : Type}

/-! ## Calculations -/

def add (left right : UInt64) : Guarded ε UInt64 :=
  if left.toNat + right.toNat < 2 ^ 64 then .ok (left + right) else .error .trap

def sub (left right : UInt64) : Guarded ε UInt64 :=
  if right.toNat ≤ left.toNat then .ok (left - right) else .error .trap

def mul (left right : UInt64) : Guarded ε UInt64 :=
  if left.toNat * right.toNat < 2 ^ 64 then .ok (left * right) else .error .trap

def div (left right : UInt64) : Guarded ε UInt64 :=
  if right = 0 then .error .trap else .ok (left / right)

def add32 (left right : UInt32) : Guarded ε UInt32 :=
  if left.toNat + right.toNat < 2 ^ 32 then .ok (left + right) else .error .trap

/-- The cast of a `uint64_t` to a `uint32_t`. -/
def narrow (value : UInt64) : Guarded ε UInt32 :=
  if value.toNat < 2 ^ 32 then .ok value.toUInt32 else .error .trap

/-- A shift by at least the width is undefined, and here one to the left keeps all bits. -/
def shiftLeft (value : UInt64) (count : UInt32) : Guarded ε UInt64 :=
  if count.toNat < 64 ∧ value.toNat * 2 ^ count.toNat < 2 ^ 64 then .ok (value <<< count.toUInt64)
  else .error .trap

def shiftRight (value : UInt64) (count : UInt32) : Guarded ε UInt64 :=
  if count.toNat < 64 then .ok (value >>> count.toUInt64) else .error .trap

def shiftLeft32 (value count : UInt32) : Guarded ε UInt32 :=
  if count.toNat < 32 ∧ value.toNat * 2 ^ count.toNat < 2 ^ 32 then .ok (value <<< count)
  else .error .trap

def shiftRight32 (value count : UInt32) : Guarded ε UInt32 :=
  if count.toNat < 32 then .ok (value >>> count) else .error .trap

/-- Leave with `error` unless `condition` holds. -/
def require (condition : Prop) [Decidable condition] (error : ε) : Guarded ε Unit :=
  if condition then .ok () else .error (.fails error)

/-- A loop that stops at the first element whose check is false. -/
def all (check : α → Guarded ε Bool) : List α → Guarded ε Bool
  | [] => return true
  | value :: values => do
    let holds ← check value
    if holds then all check values else return false

/-! ## Safety -/

def Safe (calculation : Guarded ε α) (holds : α → Prop) : Prop :=
  match calculation with
  | .ok value => holds value
  | .error (.fails _) => True
  | .error .trap => False

variable {holds holds' : α → Prop} {calculation : Guarded ε α}

theorem Safe.of_ok (h : Safe calculation holds) {value : α} (hok : calculation = .ok value) :
    holds value := by
  rw [hok] at h
  exact h

theorem Safe.ne_trap (h : Safe calculation holds) : calculation ≠ .error .trap := by
  rintro rfl
  exact h

theorem Safe.self (h : Safe calculation holds) :
    Safe calculation fun value => calculation = .ok value ∧ holds value := by
  cases calculation with
  | ok value => exact ⟨rfl, h⟩
  | error stop => cases stop with
    | fails error => trivial
    | trap => exact h

theorem safe_pure {value : α} (h : holds value) : Safe (pure value : Guarded ε α) holds := h

/-- **Sequence rule.** -/
theorem Safe.bind {next : α → Guarded ε β} {holds' : β → Prop} (h : Safe calculation holds)
    (hnext : ∀ value, holds value → Safe (next value) holds') : Safe (calculation >>= next) holds' := by
  cases calculation with
  | ok value => exact hnext value h
  | error stop => cases stop with
    | fails error => trivial
    | trap => exact h

theorem safe_require_then {condition : Prop} [Decidable condition] {error : ε}
    {next : Unit → Guarded ε α} (h : condition → Safe (next ()) holds) :
    Safe (require condition error >>= next) holds := by
  unfold require
  split
  · rename_i hcondition
    exact h hcondition
  · trivial

theorem safe_require (condition : Prop) [Decidable condition] (error : ε) :
    Safe (require condition error) fun _ => condition := by
  unfold require
  split
  · rename_i hcondition
    exact hcondition
  · trivial

theorem safe_all {check : α → Guarded ε Bool} : ∀ {values : List α},
    (∀ value ∈ values, Safe (check value) fun _ => True) → Safe (all check values) fun _ => True
  | [], _ => trivial
  | value :: values, h => by
    rw [List.forall_mem_cons] at h
    refine h.1.bind fun result _ => ?_
    cases result with
    | true => exact safe_all h.2
    | false => trivial

theorem all_congr {check check' : α → Guarded ε Bool} : ∀ {values : List α},
    (∀ value ∈ values, check value = check' value) → all check values = all check' values
  | [], _ => rfl
  | value :: values, h => by
    rw [List.forall_mem_cons] at h
    rw [all, all, h.1, all_congr h.2]

/-! ## Calculations that give their number -/

theorem toNat_mul_of_lt {left right : UInt64} (h : left.toNat * right.toNat < 2 ^ 64) :
    (left * right).toNat = left.toNat * right.toNat := by
  rw [UInt64.toNat_mul, Nat.mod_eq_of_lt h]

theorem add_ok {left right : UInt64} (h : left.toNat + right.toNat < 2 ^ 64) :
    (add left right : Guarded ε UInt64) = .ok (left + right) := if_pos h

theorem sub_ok {left right : UInt64} (h : right.toNat ≤ left.toNat) :
    (sub left right : Guarded ε UInt64) = .ok (left - right) := if_pos h

theorem mul_ok {left right : UInt64} (h : left.toNat * right.toNat < 2 ^ 64) :
    (mul left right : Guarded ε UInt64) = .ok (left * right) := if_pos h

theorem div_ok {left right : UInt64} (h : right ≠ 0) :
    (div left right : Guarded ε UInt64) = .ok (left / right) := if_neg h

theorem add32_ok {left right : UInt32} (h : left.toNat + right.toNat < 2 ^ 32) :
    (add32 left right : Guarded ε UInt32) = .ok (left + right) := if_pos h

theorem shiftLeft_ok {value : UInt64} {count : UInt32} (hcount : count.toNat < 64)
    (h : value.toNat * 2 ^ count.toNat < 2 ^ 64) : ∃ shifted,
      (shiftLeft value count : Guarded ε UInt64) = .ok shifted ∧
        shifted.toNat = value.toNat * 2 ^ count.toNat := by
  refine ⟨_, if_pos ⟨hcount, h⟩, ?_⟩
  rw [UInt64.toNat_shiftLeft, UInt32.toNat_toUInt64, Nat.mod_eq_of_lt hcount, Nat.shiftLeft_eq,
    Nat.mod_eq_of_lt h]

theorem shiftRight_ok {value : UInt64} {count : UInt32} (hcount : count.toNat < 64) : ∃ shifted,
    (shiftRight value count : Guarded ε UInt64) = .ok shifted ∧
      shifted.toNat = value.toNat / 2 ^ count.toNat := by
  refine ⟨_, if_pos hcount, ?_⟩
  rw [UInt64.toNat_shiftRight, UInt32.toNat_toUInt64, Nat.mod_eq_of_lt hcount, Nat.shiftRight_eq_div_pow]

theorem shiftLeft32_ok {value count : UInt32} (hcount : count.toNat < 32)
    (h : value.toNat * 2 ^ count.toNat < 2 ^ 32) : ∃ shifted,
      (shiftLeft32 value count : Guarded ε UInt32) = .ok shifted ∧
        shifted.toNat = value.toNat * 2 ^ count.toNat := by
  refine ⟨_, if_pos ⟨hcount, h⟩, ?_⟩
  rw [UInt32.toNat_shiftLeft, Nat.mod_eq_of_lt hcount, Nat.shiftLeft_eq, Nat.mod_eq_of_lt h]

theorem shiftRight32_ok {value count : UInt32} (hcount : count.toNat < 32) : ∃ shifted,
    (shiftRight32 value count : Guarded ε UInt32) = .ok shifted ∧
      shifted.toNat = value.toNat / 2 ^ count.toNat := by
  refine ⟨_, if_pos hcount, ?_⟩
  rw [UInt32.toNat_shiftRight, Nat.mod_eq_of_lt hcount, Nat.shiftRight_eq_div_pow]

theorem narrow_ok {value : UInt64} (h : value.toNat < 2 ^ 32) :
    (narrow value : Guarded ε UInt32) = .ok value.toUInt32 := if_pos h

theorem require_ok {condition : Prop} [Decidable condition] {error : ε} (h : condition) :
    require condition error = .ok () := if_pos h

theorem require_fails {condition : Prop} [Decidable condition] {error : ε} (h : ¬ condition) :
    require condition error = .error (.fails error) := if_neg h

theorem error_bind (stop : Stop ε) (next : α → Guarded ε β) :
    ((.error stop : Guarded ε α) >>= next) = .error stop := rfl

theorem ok_bind (value : α) (next : α → Guarded ε β) :
    ((.ok value : Guarded ε α) >>= next) = next value := rfl

theorem of_require {condition : Prop} [Decidable condition] {error : ε}
    (h : require condition error = .ok ()) : condition := by
  by_contra hnot
  rw [require_fails hnot] at h
  cases h

/-! ## Comparisons before a calculation -/

theorem toNat_maxWord_sub (value : UInt64) : (maxWord - value).toNat = 2 ^ 64 - 1 - value.toNat := by
  have hvalue := value.toNat_lt
  rw [UInt64.toNat_sub_of_le _ _ (by rw [UInt64.le_iff_toNat_le, toNat_maxWord]; omega), toNat_maxWord]

/-- `right > MAX - left` says that the sum does not fit. -/
theorem le_maxWord_sub {left right : UInt64} :
    right ≤ maxWord - left ↔ left.toNat + right.toNat < 2 ^ 64 := by
  have hleft := left.toNat_lt
  rw [UInt64.le_iff_toNat_le, toNat_maxWord_sub]
  omega

/-- `left > MAX / right` says that the product does not fit. -/
theorem le_maxWord_div {left right : UInt64} (h : right ≠ 0) :
    left ≤ maxWord / right ↔ left.toNat * right.toNat < 2 ^ 64 := by
  have hright : 0 < right.toNat := by
    rw [Nat.pos_iff_ne_zero]
    exact fun hzero => h (UInt64.toNat_inj.1 hzero)
  rw [UInt64.le_iff_toNat_le, UInt64.toNat_div, toNat_maxWord, Nat.le_div_iff_mul_le hright]
  omega

theorem grow_eq (size value : UInt64) (error : ε) (next : UInt64 → Guarded ε α) :
    (sub maxWord size >>= fun left => require (value ≤ left) error >>= fun _ =>
      add size value >>= next) =
      if size.toNat + value.toNat < 2 ^ 64 then next (UInt64.ofNat (size.toNat + value.toNat))
      else .error (.fails error) := by
  have hsize := size.toNat_lt
  rw [sub_ok (by rw [toNat_maxWord]; omega), ok_bind]
  split
  · rename_i h
    have hsum : size + value = UInt64.ofNat (size.toNat + value.toNat) := by
      rw [← UInt64.toNat_inj, Checked.toNat_add_of_lt h, Checked.toNat_ofNat h]
    rw [require_ok (le_maxWord_sub.2 h), ok_bind, add_ok h, ok_bind, hsum]
  · rename_i h
    rw [require_fails (mt le_maxWord_sub.1 h), error_bind]

theorem scale_eq {left right : UInt64} (hright : right ≠ 0) (error : ε) (next : UInt64 → Guarded ε α) :
    (div maxWord right >>= fun limit => require (left ≤ limit) error >>= fun _ =>
      mul left right >>= next) =
      if left.toNat * right.toNat < 2 ^ 64 then next (UInt64.ofNat (left.toNat * right.toNat))
      else .error (.fails error) := by
  rw [div_ok hright, ok_bind]
  split
  · rename_i h
    have hproduct : left * right = UInt64.ofNat (left.toNat * right.toNat) := by
      rw [← UInt64.toNat_inj, toNat_mul_of_lt h, Checked.toNat_ofNat h]
    rw [require_ok ((le_maxWord_div hright).2 h), ok_bind, mul_ok h, ok_bind, hproduct]
  · rename_i h
    rw [require_fails (mt (le_maxWord_div hright).1 h), error_bind]

end Guarded

end Laplace
