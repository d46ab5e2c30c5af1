import Mathlib.Tactic

/-!
# Codes that keep the order

Values are written as lists one behind another. Where every code decides the comparison of what it
begins, unless the values are the same, the lists compare as the values do, first by first.
-/

namespace Laplace

variable {α β : Type*} [Ord α] [Ord β]

/-- Whatever follows two codes matters only where the values are equal. -/
def OrderedCode (encode : α → List β) (valid : α → Prop) : Prop :=
  ∀ ⦃left right⦄, valid left → valid right → ∀ rest rest',
    compare (encode left ++ rest) (encode right ++ rest') =
      (compare left right).then (compare rest rest')

section Lists

variable {encode : α → List β} {valid : α → Prop}

theorem compare_append_left [Std.ReflOrd β] : ∀ (front rest rest' : List β),
    compare (front ++ rest) (front ++ rest') = compare rest rest'
  | [], _, _ => rfl
  | element :: front, rest, rest' => by
    rw [List.cons_append, List.cons_append, List.compare_cons_cons, Std.ReflOrd.compare_self,
      Ordering.eq_then, compare_append_left front]

theorem OrderedCode.terminated [Std.ReflOrd β] (h : OrderedCode encode valid) {stop : List β}
    (hlt : ∀ value, valid value → ∀ rest rest', compare (stop ++ rest) (encode value ++ rest') = .lt)
    (hgt : ∀ value, valid value → ∀ rest rest', compare (encode value ++ rest) (stop ++ rest') = .gt) :
    OrderedCode (fun values : List α => values.flatMap encode ++ stop)
      fun values => ∀ value ∈ values, valid value := by
  intro left
  induction left with
  | nil =>
    intro right _ hright rest rest'
    cases right with
    | nil => exact compare_append_left stop rest rest'
    | cons value right =>
      dsimp only
      rw [List.flatMap_nil, List.nil_append, List.flatMap_cons, List.append_assoc, List.append_assoc,
        hlt value (hright value List.mem_cons_self)]
      rfl
  | cons value left ih =>
    intro right hleft hright rest rest'
    cases right with
    | nil =>
      dsimp only
      rw [List.flatMap_nil, List.nil_append, List.flatMap_cons, List.append_assoc, List.append_assoc,
        hgt value (hleft value List.mem_cons_self)]
      rfl
    | cons value' right =>
      have hrest := ih (fun v hv => hleft v (List.mem_cons_of_mem _ hv))
        (fun v hv => hright v (List.mem_cons_of_mem _ hv)) rest rest'
      dsimp only at hrest ⊢
      rw [List.append_assoc, List.append_assoc] at hrest
      rw [List.flatMap_cons, List.flatMap_cons, List.append_assoc, List.append_assoc,
        List.append_assoc, List.append_assoc,
        h (hleft value List.mem_cons_self) (hright value' List.mem_cons_self), hrest,
        List.compare_cons_cons, Ordering.then_assoc]

theorem OrderedCode.compare_flatMap (h : OrderedCode encode valid)
    (hne : ∀ value, valid value → encode value ≠ []) : ∀ {left right : List α},
    (∀ value ∈ left, valid value) → (∀ value ∈ right, valid value) →
      compare (left.flatMap encode) (right.flatMap encode) = compare left right
  | [], [], _, _ => rfl
  | [], value :: right, _, hright => by
    obtain ⟨element, code, hcode⟩ :=
      List.exists_cons_of_ne_nil (hne value (hright value List.mem_cons_self))
    rw [List.flatMap_cons, hcode]
    rfl
  | value :: left, [], hleft, _ => by
    obtain ⟨element, code, hcode⟩ :=
      List.exists_cons_of_ne_nil (hne value (hleft value List.mem_cons_self))
    rw [List.flatMap_cons, hcode]
    rfl
  | value :: left, value' :: right, hleft, hright => by
    rw [List.flatMap_cons, List.flatMap_cons,
      h (hleft value List.mem_cons_self) (hright value' List.mem_cons_self),
      h.compare_flatMap hne (fun v hv => hleft v (List.mem_cons_of_mem _ hv))
        (fun v hv => hright v (List.mem_cons_of_mem _ hv)), List.compare_cons_cons]

end Lists

/-! ## Digits -/

theorem compare_toNat (left right : UInt8) : compare left right = compare left.toNat right.toNat := by
  show compareOfLessAndEq left right = compareOfLessAndEq left.toNat right.toNat
  unfold compareOfLessAndEq
  simp only [UInt8.lt_iff_toNat_lt, UInt8.toNat_inj]

theorem compare_ofNat {left right : ℕ} (hleft : left < 256) (hright : right < 256) :
    compare (UInt8.ofNat left) (UInt8.ofNat right) = compare left right := by
  rw [compare_toNat, UInt8.toNat_ofNat_of_lt' hleft, UInt8.toNat_ofNat_of_lt' hright]

theorem compare_add_left (offset left right : ℕ) :
    compare (offset + left) (offset + right) = compare left right := by
  simp only [Nat.compare_eq_ite_lt, Nat.add_lt_add_iff_left]

theorem compare_div_mod {base : ℕ} (hbase : 0 < base) (left right : ℕ) :
    (compare (left / base) (right / base)).then (compare (left % base) (right % base)) =
      compare left right := by
  have hleft := Nat.div_add_mod left base
  have hright := Nat.div_add_mod right base
  have hmod := Nat.mod_lt left hbase
  have hmod' := Nat.mod_lt right hbase
  rcases Nat.lt_trichotomy (left / base) (right / base) with h | h | h
  · have hmul := Nat.mul_le_mul_left base (Nat.succ_le_of_lt h)
    have hlt : left < right := by
      rw [Nat.mul_succ] at hmul
      omega
    rw [Nat.compare_eq_lt.2 h, Nat.compare_eq_lt.2 hlt]
    rfl
  · rw [h, Nat.compare_eq_eq.2 rfl, Ordering.eq_then, ← compare_add_left (base * (right / base))]
    rw [hright, ← h, hleft]
  · have hmul := Nat.mul_le_mul_left base (Nat.succ_le_of_lt h)
    have hlt : right < left := by
      rw [Nat.mul_succ] at hmul
      omega
    rw [Nat.compare_eq_gt.2 h, Nat.compare_eq_gt.2 hlt]
    rfl

end Laplace
