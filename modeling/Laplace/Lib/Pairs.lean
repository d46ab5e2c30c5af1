import Mathlib.Data.Sym.Sym2
import Mathlib.Order.Defs.LinearOrder

/-!
# Pairs in the order of their keys

A pair whose order says nothing is put in the order of its keys. What is got is a normal form of the
unordered pair where two elements with one key are the same, and only there.
-/

namespace Laplace.Pairs

variable {α κ : Type*} [LinearOrder κ] (key : α → κ) {left right left' right' : α}

/-- The pair in the order of the keys. -/
def inOrder (left right : α) : α × α := if key right < key left then (right, left) else (left, right)

theorem mk_inOrder (left right : α) :
    s((inOrder key left right).1, (inOrder key left right).2) = s(left, right) := by
  unfold inOrder
  split
  · exact Sym2.eq_swap
  · rfl

/-- **The order says nothing** where a tie is one element. -/
theorem inOrder_comm_iff :
    inOrder key right left = inOrder key left right ↔ (key left = key right → left = right) := by
  unfold inOrder
  rcases lt_trichotomy (key left) (key right) with hlt | heq | hgt
  · rw [if_pos hlt, if_neg hlt.asymm]
    exact iff_of_true rfl fun heq => absurd heq hlt.ne
  · rw [if_neg heq.not_lt, if_neg heq.not_gt, Prod.mk.injEq]
    exact ⟨fun h _ => h.2, fun h => ⟨(h heq).symm, h heq⟩⟩
  · rw [if_neg hgt.asymm, if_pos hgt]
    exact iff_of_true rfl fun heq => absurd heq.symm hgt.ne

/-- **A normal form** of the unordered pair. -/
theorem inOrder_eq_iff (htie : key left = key right → left = right) :
    inOrder key left right = inOrder key left' right' ↔ s(left, right) = s(left', right') := by
  constructor
  · intro h
    rw [← mk_inOrder key left right, ← mk_inOrder key left' right', h]
  · intro h
    rcases Sym2.eq_iff.1 h with ⟨rfl, rfl⟩ | ⟨rfl, rfl⟩
    · rfl
    · exact ((inOrder_comm_iff key).2 htie).symm

end Laplace.Pairs
