import Laplace.QuerySearch.Coverage

/-!
# The harvested nodes, and the bound that the queue gives

The returned paths are those of the closed terminal nodes, in the order in which they were closed
(`HarvestOk`). With an admissible heuristic no open label continues to a terminal state at less
than the priority on top of the queue (`priority_le`); hence the costs of the paths do not fall.
-/

namespace Laplace.QuerySearch

open Laplace.Checked Search

variable {blake3 : Blake3} {program : Program} {initials : List State}
  {emit : State → List Transition} {s t : Search}

/-! ## The harvested nodes -/

/-- The paths are those of the closed terminal nodes, in the order of `harvest`. -/
structure HarvestOk (s : Search) (harvest : List Nat) : Prop where
  nodup : harvest.Nodup
  mem : ∀ i, i ∈ harvest ↔
    i < s.nodes.length ∧ (s.node i).closed = true ∧ (s.node i).state.terminal = true
  costs : s.paths.map (·.summary.totalCost) = harvest.map fun i => (s.node i).accumulatedCost

theorem HarvestOk.of_eq {harvest : List Nat} (h : HarvestOk s harvest)
    (hn : t.nodes = s.nodes) (hp : t.paths = s.paths) : HarvestOk t harvest := by
  have hnode : ∀ i, t.node i = s.node i := fun i => by rw [node, node, hn]
  exact ⟨h.nodup, fun i => by rw [h.mem, hn, hnode], by simp only [hp, hnode, h.costs]⟩

theorem HarvestOk.core {harvest : List Nat} (h : HarvestOk s harvest) (hc : SameCore s t) :
    HarvestOk t harvest :=
  h.of_eq hc.nodes hc.paths

theorem HarvestOk.popped {harvest : List Nat} {e : QueueEntry} (h : HarvestOk s harvest)
    (hp : Popped s e t) (ht : (s.node e.nodeIndex).state.terminal = false) : HarvestOk t harvest := by
  have hcost : ∀ i, (t.node i).accumulatedCost = (s.node i).accumulatedCost := fun i =>
    (hp.relabelled.label i).cost
  refine ⟨h.nodup, fun i => ?_, ?_⟩
  · rw [h.mem, hp.relabelled.length, (hp.relabelled.label i).state]
    by_cases hi : i = e.nodeIndex
    · subst hi
      simp [ht]
    · rw [hp.node, if_neg hi]
  · have hpaths : t.paths = s.paths := by rw [hp.frame]
    simp only [hpaths, hcost, h.costs]

theorem HarvestOk.harvested {harvest : List Nat} {e : QueueEntry} (h : HarvestOk s harvest)
    (hh : Harvested program initials s e t) : HarvestOk t (harvest ++ [e.nodeIndex]) := by
  obtain ⟨u, path, hasher, hp, -, hpath, -, -, rfl⟩ := hh.popped
  have hlive := hp.live
  simp only [Node.live, Bool.and_eq_true, Bool.not_eq_true'] at hlive
  have hcost : ∀ i, (u.node i).accumulatedCost = (s.node i).accumulatedCost := fun i =>
    (hp.relabelled.label i).cost
  have hnode : ∀ i, ({ u with paths := s.paths ++ [path], executionHasher := hasher } : Search).node i =
      u.node i := fun _ => rfl
  refine ⟨?_, fun i => ?_, ?_⟩
  · refine List.Nodup.append h.nodup (List.nodup_singleton _) ?_
    rw [List.disjoint_singleton]
    intro hmem
    rw [((h.mem _).1 hmem).2.1] at hlive
    exact absurd hlive.2 (by simp)
  · rw [List.mem_append, List.mem_singleton, h.mem, hnode, hp.node]
    have hlen : u.nodes.length = s.nodes.length := hp.relabelled.length
    simp only [hlen]
    by_cases hi : i = e.nodeIndex
    · subst hi
      simp [hp.lt, hh.terminal]
    · simp [hi]
  · simp only [List.map_append, List.map_singleton, hnode, hcost, h.costs, hpath]

theorem HarvestOk.grown {harvest : List Nat} {state : State} {cost : UInt64} {parent : Nat}
    {incoming : Option Transition} (h : HarvestOk s harvest)
    (hg : Grown state cost parent incoming s t) : HarvestOk t harvest := by
  refine ⟨h.nodup, fun i => ?_, ?_⟩
  · rw [h.mem]
    rcases Nat.lt_or_ge i s.nodes.length with hi | hi
    · have := hg.length_le
      rw [hg.closed i hi, (hg.label i hi).state]
      exact and_congr_left fun _ => ⟨fun _ => by omega, fun _ => hi⟩
    · refine ⟨fun hlt => absurd hlt.1 (Nat.not_lt.2 hi), fun ht => ?_⟩
      obtain ⟨u, hu⟩ := hg.fresh i hi ht.1
      rw [hu] at ht
      cases ht.2.1
  · rw [hg.paths, h.costs]
    exact List.map_congr_left fun i hi => (hg.label i ((h.mem i).1 hi).1).cost.symm

/-- While the search runs, and at its end, the paths are those of the harvested nodes. -/
def HarvestAt {σ : Type} (e : Execution σ) : Prop :=
  e.phase.failed = false → e.search.resourceExhausted = false → ∃ harvest, HarvestOk e.search harvest

variable {σ : Type} {provider : Provider σ} {e e' : Execution σ}

theorem start_harvest (state : σ) : HarvestAt (start blake3 program initials state) := by
  intro _ _
  refine ⟨[], List.nodup_nil, fun i => ?_, ?_⟩ <;> unfold start <;> split <;> simp

theorem Move.harvest (hm : Move blake3 program initials provider e e')
    (hg : Good program initials e) (hh : HarvestAt e) : HarvestAt e' := by
  obtain ⟨hw, -, hxs⟩ := hg
  cases hm with
  | settle => exact hh
  | initialInvalid => exact fun hf => by cases hf
  | initialFails hv hr hs => exact fun hf => by simp [Phase.failed, hs] at hf
  | initial hv hr hxt =>
    intro _ _
    obtain ⟨harvest, h⟩ := hh rfl (hxs rfl)
    exact ⟨harvest, h.grown (hr.grown hxt)⟩
  | harvestDone | openBatch =>
    intro _ hx
    obtain ⟨harvest, h⟩ := hh rfl hx
    exact ⟨harvest, h.of_eq rfl rfl⟩
  | harvestPath hp | popPath hp =>
    intro _ _
    obtain ⟨harvest, h⟩ := hh rfl (hxs rfl)
    exact ⟨_, h.harvested hp⟩
  | enoughPaths =>
    intro _ hx
    obtain ⟨harvest, h⟩ := hh rfl (hxs rfl)
    exact ⟨harvest, h.core (finalize_core _)⟩
  | budgetReached | noRecordsLeft | callLimited => exact fun _ hx => by cases hx
  | @popDone m limit batch s t p ht =>
    intro _ _
    obtain ⟨harvest, h⟩ := hh rfl (hxs rfl)
    have hht : HarvestOk t harvest := by rcases ht with rfl | rfl <;> exact h.of_eq rfl rfl
    unfold popBatchDone
    split
    · exact ⟨harvest, hht.core (finalize_core _)⟩
    split <;> exact ⟨harvest, hht⟩
  | popLastPath hp =>
    intro _ _
    obtain ⟨harvest, h⟩ := hh rfl (hxs rfl)
    exact ⟨_, (h.harvested hp).core (finalize_core _)⟩
  | popNode hp hm _ ht | popCut hp hm ht =>
    intro _ _
    obtain ⟨harvest, h⟩ := hh rfl (hxs rfl)
    exact ⟨harvest, h.popped hp ht⟩
  | callFails hs => exact fun hf => by simp [Phase.failed, hs] at hf
  | frontierEmpty | call =>
    intro _ _
    obtain ⟨harvest, h⟩ := hh rfl (hxs rfl)
    exact ⟨harvest, h.of_eq rfl rfl⟩
  | insertDone =>
    intro _ _
    obtain ⟨harvest, h⟩ := hh rfl (hxs rfl)
    unfold expandBatchDone
    split
    · exact ⟨harvest, h.core (finalize_core _)⟩
    · exact ⟨harvest, h⟩
  | transitionInvalid hs => exact fun hf => by simp [Phase.failed, hs] at hf
  | insertFails hc hr hs => exact fun hf => by simp [Phase.failed, hs] at hf
  | @insertLast sources tr rest s u p source accumulated inserted hc hr hxu =>
    intro _ hx
    have : u.resourceExhausted = false := hx
    rw [hxu] at this
    cases this
  | @insert sources tr rest s u p source accumulated inserted hc hr hxu =>
    intro _ _
    obtain ⟨harvest, h⟩ := hh rfl (hxs rfl)
    have hrec : HarvestOk { s with transitionIds := tr.transitionId :: s.transitionIds } harvest :=
      h.of_eq rfl rfl
    exact ⟨harvest, (hrec.grown (hr.grown hxu)).core (hashInsertion_core _ _ _)⟩

end Laplace.QuerySearch
