import Laplace.ObservationQuery.Candidates

/-!
# Co-occurrence (observation_query_part01.inc:225-269)

Every run of the source is paired with every other run of its container, and a pair counts the
elements of the target's run. So the count from one entity to another is the number of runs of the
first times the number of elements of the second: it depends on how the elements are put in runs, and
on the direction.
-/

namespace Laplace.ObservationQuery

open Trajectory (CompositionOccurrence)

/-- The multiplicities of the candidates that co-occur, summed for a target in a physicality. -/
def cooccurrences (candidates : List Candidate) (target : Id128) (physicality : Digest256) : ℕ :=
  (candidates.map fun candidate => if candidate.relation = relationCooccur ∧
    candidate.targetEntityId = target ∧ candidate.physicalityId = physicality then
      candidate.multiplicity.toNat else 0).sum

/-- The runs of an entity. -/
def runsOf (container : Container) (entityId : Id128) : ℕ :=
  container.occurrences.countP (·.entityId = entityId)

/-- The elements of an entity. -/
def elementsOf (container : Container) (entityId : Id128) : ℕ :=
  (expanded container.occurrences).count entityId

/-- One run of an entity is two in the other container, and there is no other difference. -/
def Split (container container' : Container) (entityId : Id128) : Prop :=
  ∃ before after before' after' whole left right,
    container.occurrences = before ++ whole :: after ∧
    container'.occurrences = before' ++ left :: right :: after' ∧
    whole.entityId = entityId ∧ left.entityId = entityId ∧ right.entityId = entityId ∧
    whole.runLength.toNat = left.runLength.toNat + right.runLength.toNat ∧
    (∀ pair ∈ [(before, before'), (after, after')],
      pair.1.map (fun o => (o.entityId, o.runLength)) = pair.2.map fun o => (o.entityId, o.runLength))

section Cooccurrences

variable {source target : Id128} {physicality : Digest256}

theorem cooccurrences_perm {l l' : List Candidate} (h : l.Perm l') :
    cooccurrences l target physicality = cooccurrences l' target physicality :=
  (h.map _).sum_eq

theorem cooccurrences_append (l l' : List Candidate) : cooccurrences (l ++ l') target physicality =
    cooccurrences l target physicality + cooccurrences l' target physicality := by
  simp [cooccurrences]

theorem cooccurrences_flatMap {α : Type} (l : List α) (out : α → List Candidate) :
    cooccurrences (l.flatMap out) target physicality =
      (l.map fun a => cooccurrences (out a) target physicality).sum := by
  induction l with
  | nil => rfl
  | cons a l ih => simp [cooccurrences_append, ih]

theorem cooccurrences_other {l : List Candidate} (h : ∀ c ∈ l, c.relation ≠ relationCooccur) :
    cooccurrences l target physicality = 0 := by
  refine List.sum_eq_zero fun n hn => ?_
  obtain ⟨c, hc, rfl⟩ := List.mem_map.1 hn
  simp [h c hc]

variable {c : Container}

theorem any_occurrence {j : ℕ} (hj : j < c.occurrences.length) {entityId : Id128}
    (h : (c.occurrence j).entityId = entityId) : c.occurrences.any (·.entityId = entityId) = true := by
  refine List.any_eq_true.2 ⟨c.occurrence j, ?_, by simpa using h⟩
  rw [Container.occurrence, List.getD_eq_getElem _ _ hj]
  exact List.getElem_mem hj

theorem cooccurrences_at {j : ℕ} (hne : source ≠ target)
    (hsource : (c.occurrence j).entityId = source) (hj : j < c.occurrences.length) :
    cooccurrences (cooccurringAt source ⟨c, j⟩) target physicality =
      if c.physicality.physicalityId = physicality then elementsOf c target else 0 := by
  have hpair : ∀ i < c.occurrences.length, cooccurrences
      (if ((decide (i = j) && (c.occurrence j).runLength ≤ 1) = false ∧
        entitiesCooccur c.occurrences source (c.occurrence i).entityId) then
          [cooccurringCandidate c (c.occurrence j) (c.occurrence i) (decide (i = j))] else [])
      target physicality = if c.physicality.physicalityId = physicality then
        if (c.occurrence i).entityId = target then (c.occurrence i).runLength.toNat else 0 else 0 := by
    intro i hi
    by_cases htarget : (c.occurrence i).entityId = target
    · have hij : i ≠ j := by rintro rfl; exact hne (hsource.symm.trans htarget)
      have hcooccur : entitiesCooccur c.occurrences source target = true := by
        simp only [entitiesCooccur, any_occurrence hj hsource, any_occurrence hi htarget, Bool.and_self]
      simp [hij, hcooccur, cooccurrences, cooccurringCandidate, htarget]
    · split_ifs <;> simp [cooccurrences, cooccurringCandidate, htarget]
  have hsum := sum_range_getD (fun o : CompositionOccurrence =>
    if o.entityId = target then o.runLength.toNat else 0) .zero c.occurrences
  rw [cooccurringAt, cooccurrences_flatMap, elementsOf, count_expanded, ← hsum]
  refine (congrArg List.sum (List.map_congr_left fun i hi => hpair i (List.mem_range.1 hi))).trans ?_
  by_cases hp : c.physicality.physicalityId = physicality
  · simp only [hp, if_true]
    rfl
  · simp [hp]

/-- **The count.** It is the number of runs of the source times that of the target's elements. -/
theorem cooccurrences_all {index : Index} {mask : UInt32} (hindex : index.Sound)
    (hne : source ≠ target) (hmask : mask &&& relationCooccur ≠ 0) (hc : c ∈ index.containers) :
    cooccurrences (allCandidates index source mask) target c.physicality.physicalityId =
      runsOf c source * elementsOf c target := by
  have hrelated : cooccurrences ([Relation.container, .constituent, .predecessor, .successor].flatMap
      fun relation => if mask &&& relation.flag ≠ 0 then allRelated index source relation else [])
      target c.physicality.physicalityId = 0 := by
    refine cooccurrences_other fun candidate hmem => ?_
    simp only [List.mem_flatMap] at hmem
    obtain ⟨relation, -, hmem⟩ := hmem
    split at hmem
    · cases relation <;> simp only [allRelated, predecessorsAt, successorsAt, List.mem_flatMap] at hmem <;>
        grind [containerCandidate, constituentCandidate, internalPredecessor, previousCandidate,
          internalSuccessor, nextCandidate, relationCooccur, relationContainer, relationConstituent,
          relationPredecessor, relationSuccessor]
    · cases hmem
  have hlocations : ∀ c' ∈ index.containers, (((List.range c'.occurrences.length).filter fun j =>
      (c'.occurrence j).entityId = source).map fun j => cooccurrences (cooccurringAt source ⟨c', j⟩)
        target c.physicality.physicalityId).sum =
      if c'.physicality.physicalityId = c.physicality.physicalityId then
        runsOf c' source * elementsOf c' target else 0 := by
    intro c' _
    have hat : ∀ j ∈ (List.range c'.occurrences.length).filter fun j =>
        (c'.occurrence j).entityId = source, cooccurrences (cooccurringAt source ⟨c', j⟩) target
          c.physicality.physicalityId = if c'.physicality.physicalityId = c.physicality.physicalityId
            then elementsOf c' target else 0 := by
      intro j hj
      simp only [List.mem_filter, List.mem_range, decide_eq_true_eq] at hj
      exact cooccurrences_at hne hj.2 hj.1
    have hlist : (List.range c'.occurrences.length).map c'.occurrence = c'.occurrences :=
      List.ext_getElem (by simp) fun i _ h => by simp [Container.occurrence, h]
    have hcount : ((List.range c'.occurrences.length).filter fun j =>
        (c'.occurrence j).entityId = source).length = runsOf c' source := by
      rw [← List.countP_eq_length_filter]
      exact (List.countP_map (p := fun o : CompositionOccurrence => decide (o.entityId = source))).symm.trans
        (congrArg (List.countP _) hlist)
    rw [List.map_congr_left hat, List.map_const', List.sum_replicate, hcount, smul_eq_mul]
    split_ifs <;> simp
  rw [allCandidates, cooccurrences_append, hrelated, if_pos hmask, zero_add, Index.occurrencesByEntity,
    List.flatMap_assoc, cooccurrences_flatMap, ← sum_of_mem (f := fun c' => runsOf c' source *
      elementsOf c' target) hindex.nodup hc]
  refine congrArg List.sum (List.map_congr_left fun c' hc' => ?_)
  rw [List.flatMap_map, cooccurrences_flatMap, hlocations c' hc']

theorem cooccurrences_call {index : Index} {mask : UInt32} {maximum : ℕ}
    {sort : Sorting candidateOrder} (hindex : index.Sound) (hne : source ≠ target)
    (hmask : mask &&& relationCooccur ≠ 0)
    (hlimited : (generateCandidates index maximum source sort mask).limited = false)
    (hc : c ∈ index.containers) :
    cooccurrences (generateCandidates index maximum source sort mask).candidates target
      c.physicality.physicalityId = runsOf c source * elementsOf c target := by
  rw [cooccurrences_perm ((generateCandidates_complete hindex).2.2 hlimited),
    cooccurrences_all hindex hne hmask hc]

theorem Split.counts {c' : Container} {entityId : Id128} (h : Split c c' entityId) (other : Id128) :
    runsOf c' other = runsOf c other + (if other = entityId then 1 else 0) ∧
      elementsOf c' other = elementsOf c other := by
  obtain ⟨before, after, before', after', whole, left, right, hc, hc', hwhole, hleft, hright, hlength,
    hsame⟩ := h
  have hruns : ∀ {l l' : List CompositionOccurrence}, l.map (fun o => (o.entityId, o.runLength)) =
      l'.map (fun o => (o.entityId, o.runLength)) → l.countP (fun o => o.entityId = other) =
        l'.countP (fun o => o.entityId = other) := by
    intro l l' h
    have := congrArg (List.countP fun pair : Id128 × UInt16 => decide (pair.1 = other)) h
    simpa [List.countP_map, Function.comp_def] using this
  have helements : ∀ {l l' : List CompositionOccurrence}, l.map (fun o => (o.entityId, o.runLength)) =
      l'.map (fun o => (o.entityId, o.runLength)) → (expanded l).count other =
        (expanded l').count other := by
    intro l l' h
    have := congrArg (List.flatMap fun pair : Id128 × UInt16 =>
      List.replicate pair.2.toNat pair.1) h
    simp only [List.flatMap_map] at this
    exact congrArg (List.count other) this
  simp only [List.forall_mem_cons, List.not_mem_nil, false_implies, implies_true, and_true] at hsame
  have hbefore := hsame.1
  have hafter := hsame.2
  have hsplit : ∀ l l' : List CompositionOccurrence, expanded (l ++ l') = expanded l ++ expanded l' :=
    fun l l' => List.flatMap_append
  have hcons : ∀ (o : CompositionOccurrence) (l : List CompositionOccurrence), expanded (o :: l) =
    List.replicate o.runLength.toNat o.entityId ++ expanded l := fun _ _ => rfl
  constructor
  · simp only [runsOf, hc, hc', List.countP_append, List.countP_cons, hwhole, hleft, hright,
      hruns hbefore, hruns hafter, decide_eq_true_eq, eq_comm (a := other)]
    split_ifs <;> omega
  · simp only [elementsOf, hc, hc', hsplit, hcons, List.count_append, List.count_replicate, hwhole,
      hleft, hright, helements hbefore, helements hafter, hlength]
    split_ifs <;> omega

end Cooccurrences

/-- **Co-occurrence.** On every index that is created, two entities co-occur equally often in either
direction exactly when their runs and their elements are in the same proportion, and splitting a run
leaves a count as it is exactly when the run is not one of the source's or the target does not occur. -/
theorem cooccurrence_iff {blake3 : Blake3} {index index' : Index}
    (hindex : Created blake3 index) (hindex' : Created blake3 index') (sort : Sorting candidateOrder)
    (maximum maximum' : ℕ) (mask mask' : UInt32) {source target entityId : Id128} (hne : source ≠ target)
    (hmask : mask &&& relationCooccur ≠ 0) (hmask' : mask' &&& relationCooccur ≠ 0)
    {c c' : Container} (hc : c ∈ index.containers) (hc' : c' ∈ index'.containers)
    (hlimited : (generateCandidates index maximum source sort mask).limited = false) :
    ((generateCandidates index maximum' target sort mask').limited = false →
      (cooccurrences (generateCandidates index maximum source sort mask).candidates target
          c.physicality.physicalityId =
        cooccurrences (generateCandidates index maximum' target sort mask').candidates source
          c.physicality.physicalityId ↔
      runsOf c source * elementsOf c target = runsOf c target * elementsOf c source)) ∧
    (Split c c' entityId → (generateCandidates index' maximum' source sort mask').limited = false →
      (cooccurrences (generateCandidates index maximum source sort mask).candidates target
          c.physicality.physicalityId =
        cooccurrences (generateCandidates index' maximum' source sort mask').candidates target
          c'.physicality.physicalityId ↔ source ≠ entityId ∨ elementsOf c target = 0)) := by
  refine ⟨fun h => ?_, fun hsplit h => ?_⟩
  · rw [cooccurrences_call hindex.sound hne hmask hlimited hc,
      cooccurrences_call hindex.sound hne.symm hmask' h hc]
  · obtain ⟨hruns, -⟩ := hsplit.counts source
    obtain ⟨-, helements⟩ := hsplit.counts target
    rw [cooccurrences_call hindex.sound hne hmask hlimited hc,
      cooccurrences_call hindex'.sound hne hmask' h hc', hruns, helements]
    by_cases h : source = entityId <;> simp [h, Nat.add_mul]

theorem twoRunsCreation_cooccur : (match twoRunsCreation with
    | .ok index => (index.containers.map fun c => (c.physicality.physicalityId = twoRunsId : Bool),
        (generateCandidates index 10 5 (.insertion _) 16).limited,
        (generateCandidates index 10 7 (.insertion _) 16).limited,
        cooccurrences (generateCandidates index 10 5 (.insertion _) 16).candidates 7 twoRunsId,
        cooccurrences (generateCandidates index 10 7 (.insertion _) 16).candidates 5 twoRunsId)
    | .error _ => ([], true, true, 0, 0)) = ([true], false, false, 1, 2) := by
  decide +kernel

/-- Two elements 5 in a run before an element 7: once from 5 to 7, and twice back. -/
theorem cooccurrence_twoRuns : ∃ index, Created digits index ∧ ∃ c ∈ index.containers,
    cooccurrences (generateCandidates index 10 5 (.insertion _) 16).candidates 7
      c.physicality.physicalityId = 1 ∧
    cooccurrences (generateCandidates index 10 7 (.insertion _) 16).candidates 5
      c.physicality.physicalityId = 2 := by
  have hcreation := twoRunsCreation_cooccur
  cases h : twoRunsCreation with
  | error status => simp [h] at hcreation
  | ok index =>
    simp only [h, Prod.mk.injEq] at hcreation
    obtain ⟨hids, -, -, hforth, hback⟩ := hcreation
    obtain ⟨c, hc, hid⟩ : ∃ c ∈ index.containers, c.physicality.physicalityId = twoRunsId := by
      cases hcs : index.containers with
      | nil => simp [hcs] at hids
      | cons c cs =>
        rw [hcs, List.map_cons, List.cons.injEq] at hids
        exact ⟨c, List.mem_cons_self, of_decide_eq_true hids.1⟩
    exact ⟨index, .base h, c, hc, by rw [hid, hforth], by rw [hid, hback]⟩

/-- The counts of two entities in two runs are not in proportion. -/
theorem cooccurrence_iff_twoRuns : ∃ index, Created digits index ∧ ∃ c ∈ index.containers,
    (cooccurrences (generateCandidates index 10 5 (.insertion _) 16).candidates 7
        c.physicality.physicalityId =
      cooccurrences (generateCandidates index 10 7 (.insertion _) 16).candidates 5
        c.physicality.physicalityId ↔ runsOf c 5 * elementsOf c 7 = runsOf c 7 * elementsOf c 5) := by
  have hcreation := twoRunsCreation_cooccur
  cases h : twoRunsCreation with
  | error status => simp [h] at hcreation
  | ok index =>
    simp only [h, Prod.mk.injEq] at hcreation
    obtain ⟨hids, hlimited, hlimited', -⟩ := hcreation
    have hcreated : Created digits index := .base h
    cases hcs : index.containers with
    | nil => simp [hcs] at hids
    | cons c cs =>
      have hc : c ∈ index.containers := by simp [hcs]
      exact ⟨index, hcreated, c, hc, (@cooccurrence_iff _ _ _ hcreated hcreated (.insertion _) 10 10
        16 16 _ _ 5 (by decide) (by decide) (by decide) _ _ hc hc hlimited).1 hlimited'⟩

end Laplace.ObservationQuery
