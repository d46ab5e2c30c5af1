import Mathlib.Data.Set.Basic
import Mathlib.Tactic

/-!
# Continuations in a weighted graph, and cuts

A search over a weighted graph keeps labels: a vertex with the cost and the number of edges it was
reached over. It may drop a label when another one of the same key is as good, provided that
vertices of one key have the same continuations (`Graph.Congruent`). Such a set of labels is a
`Cut` when every label that is neither open nor a goal has the targets of its edges covered.
`Cut.covers` is what a cut is for: whatever continues from a label is already settled by a goal
label, or still passes through an open one.
-/

namespace Laplace

structure Graph (V : Type*) where
  edge : V → Nat → V → Prop
  goal : V → Prop

/-- A vertex, what it cost to reach it, and over how many edges. -/
structure Label (V : Type*) where
  vertex : V
  cost : Nat
  depth : Nat

namespace Graph

variable {V K : Type*} (G : Graph V)

/-- From the vertex a goal is reached over `k` edges of total weight `w`. -/
inductive Continues : V → Nat → Nat → Prop
  | here {v : V} (h : G.goal v) : Continues v 0 0
  | step {v u : V} {c k w : Nat} (h : G.edge v c u) (hr : Continues u k w) :
    Continues v (k + 1) (c + w)

/-- The vertices that a search from `roots` can meet. -/
inductive Reachable (roots : V → Prop) : V → Prop
  | root {v : V} (h : roots v) : Reachable roots v
  | edge {v u : V} {c : Nat} (h : Reachable roots v) (he : G.edge v c u) : Reachable roots u

/-- Reachable vertices of one key have the same continuations at the same costs. -/
def Congruent (roots : V → Prop) (key : V → K) : Prop :=
  ∀ u v, G.Reachable roots u → G.Reachable roots v → key u = key v →
    ∀ k w, G.Continues u k w → G.Continues v k w

/-- Some label of the key costs at most `cost` at depth at most `depth`. -/
def CoveredBy (labels : Set (Label V)) (key : V → K) (k : K) (cost depth : Nat) : Prop :=
  ∃ m ∈ labels, key m.vertex = k ∧ m.cost ≤ cost ∧ m.depth ≤ depth

/-- The labels that a search keeps, up to depth `limit`, with some of them still open. -/
structure Cut (roots : V → Prop) (key : V → K) (limit : Nat) (labels : Set (Label V))
    (opened : Label V → Prop) : Prop where
  reachable : ∀ l ∈ labels, G.Reachable roots l.vertex
  covered : ∀ l ∈ labels, ¬ opened l → ¬ G.goal l.vertex → l.depth < limit →
    ∀ c u, G.edge l.vertex c u → CoveredBy labels key (key u) (l.cost + c) (l.depth + 1)

variable {G} {roots : V → Prop} {key : V → K} {limit : Nat} {labels : Set (Label V)}
  {opened : Label V → Prop}

theorem Reachable.inside {P : V → Prop} {v : V} (h : G.Reachable roots v) (hroot : ∀ v, roots v → P v)
    (hedge : ∀ v c u, P v → G.edge v c u → P u) : P v := by
  induction h with
  | root hr => exact hroot _ hr
  | edge _ he ih => exact hedge _ _ _ ih he

theorem Congruent.of_injective
    (h : ∀ u v, G.Reachable roots u → G.Reachable roots v → key u = key v → u = v) :
    G.Congruent roots key :=
  fun u v hu hv hk _ _ hc => h u v hu hv hk ▸ hc

/-- Every continuation of a label is settled by a goal label that is as good, or it continues from
an open label. The induction is on the continuation; a dropped target is replaced by the label that
covers it, which by congruence continues alike. -/
theorem Cut.covers (hc : G.Cut roots key limit labels opened) (hcong : G.Congruent roots key) :
    ∀ (k : Nat) (l : Label V), l ∈ labels → ∀ w, G.Continues l.vertex k w → l.depth + k ≤ limit →
      (∃ m ∈ labels, G.goal m.vertex ∧ m.cost ≤ l.cost + w ∧ m.depth ≤ l.depth + k) ∨
      ∃ m ∈ labels, opened m ∧ ∃ k' w', G.Continues m.vertex k' w' ∧ m.cost + w' ≤ l.cost + w ∧
        m.depth + k' ≤ l.depth + k := by
  intro k
  induction k with
  | zero =>
    intro l hl w hw _
    cases hw with
    | here hg => exact .inl ⟨l, hl, hg, Nat.le_refl _, Nat.le_refl _⟩
  | succ k ih =>
    intro l hl w hw hdepth
    by_cases ho : opened l
    · exact .inr ⟨l, hl, ho, k + 1, w, hw, Nat.le_refl _, Nat.le_refl _⟩
    by_cases hg : G.goal l.vertex
    · exact .inl ⟨l, hl, hg, Nat.le_add_right _ _, Nat.le_add_right _ _⟩
    cases hw with
    | @step _ u c _ w he hr =>
      obtain ⟨m, hm, hkey, hcost, hmd⟩ := hc.covered l hl ho hg (by omega) c u he
      have hreach : G.Reachable roots u := .edge (hc.reachable l hl) he
      have hcont := hcong u m.vertex hreach (hc.reachable m hm) hkey.symm k w hr
      rcases ih m hm w hcont (by omega) with ⟨n, hn, hng, h1, h2⟩ | ⟨n, hn, hno, k', w', hnc, h1, h2⟩
      · exact .inl ⟨n, hn, hng, by omega, by omega⟩
      · exact .inr ⟨n, hn, hno, k', w', hnc, by omega, by omega⟩

theorem Cut.covers_root (hc : G.Cut roots key limit labels opened) (hcong : G.Congruent roots key)
    {v : V} {cost depth k w : Nat} (hr : G.Reachable roots v)
    (hv : CoveredBy labels key (key v) cost depth) (hw : G.Continues v k w) (hd : depth + k ≤ limit) :
    (∃ m ∈ labels, G.goal m.vertex ∧ m.cost ≤ cost + w ∧ m.depth ≤ depth + k) ∨
      ∃ m ∈ labels, opened m ∧ ∃ k' w', G.Continues m.vertex k' w' ∧ m.cost + w' ≤ cost + w ∧
        m.depth + k' ≤ depth + k := by
  obtain ⟨l, hl, hkey, hcost, hdepth⟩ := hv
  have hcont := hcong v l.vertex hr (hc.reachable l hl) hkey.symm k w hw
  rcases hc.covers hcong k l hl w hcont (by omega) with
    ⟨m, hm, hg, h1, h2⟩ | ⟨m, hm, ho, k', w', hm', h1, h2⟩
  · exact .inl ⟨m, hm, hg, by omega, by omega⟩
  · exact .inr ⟨m, hm, ho, k', w', hm', by omega, by omega⟩

/-! ## Forgetting the weights -/

variable (G) in
/-- The same graph with every edge for free. -/
def unweighted : Graph V where
  edge v c u := c = 0 ∧ ∃ w, G.edge v w u
  goal := G.goal

theorem reachable_unweighted {v : V} : G.unweighted.Reachable roots v ↔ G.Reachable roots v := by
  constructor
  · intro h
    induction h with
    | root hr => exact .root hr
    | edge _ he ih =>
      obtain ⟨-, w, he⟩ := he
      exact .edge ih he
  · intro h
    induction h with
    | root hr => exact .root hr
    | edge _ he ih => exact .edge ih ⟨rfl, _, he⟩

theorem Continues.unweighted {v : V} {k w : Nat} (h : G.Continues v k w) :
    G.unweighted.Continues v k 0 := by
  induction h with
  | here hg => exact .here hg
  | step he _ ih => exact Continues.step (G := G.unweighted) (c := 0) (w := 0) ⟨rfl, _, he⟩ ih

theorem Cut.unweighted (hc : G.Cut roots key limit labels opened) :
    G.unweighted.Cut roots key limit { l | l.cost = 0 ∧ ∃ c, ⟨l.vertex, c, l.depth⟩ ∈ labels }
      fun l => ∃ c, opened ⟨l.vertex, c, l.depth⟩ where
  reachable := by
    rintro l ⟨-, c, hl⟩
    exact reachable_unweighted.2 (hc.reachable ⟨l.vertex, c, l.depth⟩ hl)
  covered := by
    rintro l ⟨hl0, c, hl⟩ hopen hgoal hdepth _ u ⟨rfl, w, he⟩
    obtain ⟨m, hm, hkey, -, hmd⟩ :=
      hc.covered _ hl (fun ho => hopen ⟨c, ho⟩) hgoal hdepth w u he
    exact ⟨⟨m.vertex, 0, m.depth⟩, ⟨rfl, m.cost, hm⟩, hkey, Nat.zero_le _, hmd⟩

end Graph

end Laplace
