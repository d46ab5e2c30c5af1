import Laplace.Lib.Walks
import Mathlib.Data.Set.Finite.Basic
import Mathlib.Order.WellFoundedSet
import Mathlib.Tactic

/-!
# Peeling a graph

Peeling removes nodes that depend on nothing but what has been removed. A node can be removed where
every chain of dependencies from it ends, and what is left of a finite graph holds its cycles.
-/

open Relation (TransGen)

namespace Laplace

variable {α : Type*} {depends : α → α → Prop} {nodes gone : Set α} {a : α}

/-- Every chain of dependencies from the node ends. -/
def Grounded (depends : α → α → Prop) (a : α) : Prop := Acc (fun b a => depends a b) a

theorem Grounded.intro (h : ∀ b, depends a b → Grounded depends b) : Grounded depends a :=
  Acc.intro a h

theorem Grounded.not_cycle (h : Grounded depends a) : ¬ TransGen depends a a := fun hcycle =>
  not_self_of_acc (Acc.transGen h) (Relation.transGen_swap.2 hcycle)

theorem grounded_of_acyclic (hfinite : nodes.Finite) (hnodes : ∀ a b, depends a b → b ∈ nodes)
    (h : ∀ a, ¬ TransGen depends a a) (ha : a ∈ nodes) : Grounded depends a := by
  let below : α → α → Prop := TransGen fun b a => depends a b
  have : Std.Irrefl below := ⟨fun a hcycle => h a (Relation.transGen_swap.1 hcycle)⟩
  have : IsStrictOrder α below := { trans := fun _ _ _ => TransGen.trans }
  have hfounded := Set.wellFoundedOn_iff.1 (hfinite.wellFoundedOn (r := below))
  induction a using hfounded.induction with
  | _ a ih =>
    exact .intro fun b hab => ih b ⟨.single hab, hnodes a b hab, ha⟩ (hnodes a b hab)

/-- A peeling that cannot go on. -/
structure Peeled (depends : α → α → Prop) (nodes gone : Set α) : Prop where
  grounded : ∀ a ∈ gone, Grounded depends a
  closed : ∀ a ∈ nodes, (∀ b, depends a b → b ∈ gone) → a ∈ gone

/-- **What a peeling leaves holds the cycles.** -/
theorem Peeled.all_iff (h : Peeled depends nodes gone) (hfinite : nodes.Finite)
    (hnodes : ∀ a b, depends a b → a ∈ nodes ∧ b ∈ nodes) : nodes ⊆ gone ↔ ∀ a, ¬ TransGen depends a a := by
  constructor
  · intro hall a hcycle
    have ha : a ∈ nodes := by
      obtain ⟨b, hstep, -⟩ := TransGen.head'_iff.1 hcycle
      exact (hnodes a b hstep).1
    exact (h.grounded a (hall ha)).not_cycle hcycle
  · intro hacyclic a ha
    have hgrounded := grounded_of_acyclic hfinite (fun a b hab => (hnodes a b hab).2) hacyclic ha
    induction hgrounded with
    | intro a _ ih => exact h.closed a ha fun b hab => ih b hab (hnodes a b hab).2

end Laplace
