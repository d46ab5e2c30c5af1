import Laplace.Evidence.Resolution

/-!
# What a batch reports of its cycles (evidence_lineage.c:200-223, 344-433, 512-515)

A batch whose records are valid apart from the cycles fails with a cycle exactly when some node is derived
from itself. An edge from a node to itself is found with the edges, a longer cycle by the search; either
way the path that is reported is a closed walk.
-/

namespace Laplace.Evidence

variable {blake3 : Blake3} {records nodes : List LineageRecord} {edges : List Edge}

/-- A batch that passes every check but that for cycles. -/
structure Wellformed (blake3 : Blake3) (records : List LineageRecord)
    (memoryLimitBytes : UInt64) (rootCapacity : ℕ) : Prop where
  capacity : 0 < rootCapacity
  nodes : nodesOf records ≠ []
  checked : checkNodes blake3 none 0 (nodesOf records) = .ok ()
  room : ∃ total, total ≤ memoryLimitBytes.toNat ∧
    (buffers (nodesOf records).length (edgesOf records).length rootCapacity).foldlM
      checkedAddSize 0 = some total
  edges : ∀ edge ∈ edgesOf records, edgeValid edge = true
  children : ∀ edge ∈ edgesOf records, ∃ node ∈ nodesOf records, node.nodeId = edge.nodeId
  parents : ∀ edge ∈ edgesOf records, ∃ node ∈ nodesOf records, node.nodeId = edge.parentNodeId
  ordered : (edgesOf records).Pairwise fun before edge => edgeKey before < edgeKey edge

/-- An error that has a closed walk of derivations, in a buffer that has room for it. -/
structure ReportsWalk (records : List LineageRecord) (capacity : ℕ) (error : LineageError)
    (path : List Digest256) : Prop where
  walk : ClosedWalk (Derives records) path
  count : error.cyclePathCount = path.length
  copied : error.cyclePath = if path.length ≤ capacity then some path else none

/-! ## Finding nodes -/

theorem bisect_eq (hsorted : nodes.Pairwise fun a b => a.nodeId.toNat < b.nodeId.toNat) {index : ℕ}
    (hindex : index < nodes.length) : ∀ {low high : ℕ}, low ≤ index → index ≤ high →
      high ≤ nodes.length → bisect nodes nodes[index].nodeId low high = index := by
  intro low high
  induction low, high using bisect.induct nodes nodes[index].nodeId with
  | case1 low high hlt middle hnone =>
    intro _ _ hhigh
    have hle := List.getElem?_eq_none_iff.1 hnone
    omega
  | case2 low high hlt middle node hnode hless ih =>
    intro hlow hle hhigh
    obtain ⟨hmiddle, rfl⟩ := List.getElem?_eq_some_iff.1 hnode
    -- the node in the middle comes before the one that is sought
    have hafter : middle < index := by
      by_contra hnot
      rcases Nat.lt_or_eq_of_le (not_lt.1 hnot) with hbefore | rfl
      · have := List.pairwise_iff_getElem.1 hsorted index middle hindex hmiddle hbefore
        omega
      · exact Nat.lt_irrefl _ hless
    rw [bisect, if_pos hlt]
    dsimp only
    rw [hnode]
    dsimp only
    rw [if_pos hless]
    exact ih hafter hle hhigh
  | case3 low high hlt middle node hnode hless ih =>
    intro hlow hle hhigh
    obtain ⟨hmiddle, rfl⟩ := List.getElem?_eq_some_iff.1 hnode
    have hbefore : index ≤ middle := by
      by_contra hnot
      have := List.pairwise_iff_getElem.1 hsorted middle index hmiddle hindex (not_le.1 hnot)
      omega
    rw [bisect, if_pos hlt]
    dsimp only
    rw [hnode]
    dsimp only
    rw [if_neg hless]
    exact ih hlow hbefore (by omega)
  | case4 low high hge =>
    intro hlow hle _
    rw [bisect, if_neg hge]
    omega

theorem findNode_complete (hsorted : nodes.Pairwise fun a b => a.nodeId.toNat < b.nodeId.toNat)
    {node : LineageRecord} (hnode : node ∈ nodes) : ∃ index, findNode nodes node.nodeId = some index := by
  obtain ⟨index, hindex, rfl⟩ := List.mem_iff_getElem.1 hnode
  refine ⟨index, ?_⟩
  unfold findNode
  dsimp only
  rw [bisect_eq hsorted hindex (Nat.zero_le _) hindex.le le_rfl, List.getElem?_eq_getElem hindex,
    Option.any_some, if_pos (decide_eq_true rfl)]

/-! ## The edges -/

theorem checkEdges_wellformed (hsorted : nodes.Pairwise fun a b => a.nodeId.toNat < b.nodeId.toNat)
    (capacity : ℕ) : ∀ {previous : Option LineageRecord} {index : ℕ} {records : List LineageRecord},
    (∀ edge ∈ records, edgeValid edge = true) →
    (∀ edge ∈ records, ∃ node ∈ nodes, node.nodeId = edge.nodeId) →
    (∀ edge ∈ records, ∃ node ∈ nodes, node.nodeId = edge.parentNodeId) →
    (∀ before, previous = some before → ∀ edge ∈ records, edgeKey before < edgeKey edge) →
    records.Pairwise (fun before edge => edgeKey before < edgeKey edge) →
    (∃ edges, checkEdges nodes capacity previous index records = .ok edges) ∨
      ∃ edge ∈ records, edge.nodeId = edge.parentNodeId ∧ ∃ recordIndex,
        checkEdges nodes capacity previous index records = .error (.cycle,
          { recordIndex
            cyclePathCount := 2
            cyclePath := if 2 ≤ capacity then some [edge.nodeId, edge.nodeId] else none })
  | _, _, [], _, _, _, _, _ => .inl ⟨[], rfl⟩
  | previous, index, edge :: records, hvalid, hchildren, hparents, hfirst, hordered => by
    obtain ⟨hedge, hvalid⟩ := List.forall_mem_cons.1 hvalid
    obtain ⟨⟨childNode, hchildNode, hchildId⟩, hchildren⟩ := List.forall_mem_cons.1 hchildren
    obtain ⟨⟨parentNode, hparentNode, hparentId⟩, hparents⟩ := List.forall_mem_cons.1 hparents
    obtain ⟨hnext, hordered⟩ := List.pairwise_cons.1 hordered
    obtain ⟨child, hchild⟩ := findNode_complete hsorted hchildNode
    obtain ⟨parent, hparent⟩ := findNode_complete hsorted hparentNode
    rw [hchildId] at hchild
    rw [hparentId] at hparent
    unfold checkEdges
    rw [hedge, hchild, hparent]
    dsimp only
    by_cases hself : child = parent
    · rw [Bool.not_true, if_neg Bool.false_ne_true, if_pos hself]
      have hids : edge.nodeId = edge.parentNodeId := by
        rw [← (findNode_sound hchild).2, ← (findNode_sound hparent).2, hself]
      exact .inr ⟨edge, List.mem_cons_self, hids, _, rfl⟩
    · have horder : (previous.any fun previous => edgeDisordered previous edge) = false := by
        cases previous with
        | none => rfl
        | some before =>
          exact edgeDisordered_eq_false_iff.2 (hfirst before rfl edge List.mem_cons_self)
      rw [Bool.not_true, if_neg Bool.false_ne_true, if_neg hself, horder, if_neg Bool.false_ne_true]
      have hrest : (∃ edges, checkEdges nodes capacity (some edge) (index + 1) records = .ok edges) ∨ _ :=
        checkEdges_wellformed hsorted capacity hvalid hchildren hparents
          (fun before heq => Option.some.inj heq ▸ hnext) hordered
      rcases hrest with ⟨edges, hedges⟩ | ⟨other, hother, hids, recordIndex, hcycle⟩
      · exact .inl ⟨⟨child, parent⟩ :: edges, by rw [hedges]; rfl⟩
      · exact .inr ⟨other, List.mem_cons_of_mem _ hother, hids, recordIndex, by rw [hcycle]; rfl⟩

/-! ## The search -/

theorem ReportsCycle.reportsWalk (h : Indexed records edges) {capacity : ℕ} {reason : Failure}
    {search : Search}
    (hreports : ReportsCycle (nodesOf records) edges (nodesOf records).length capacity reason search) :
    ∃ error path, reason = .failed .cycle error ∧ ReportsWalk records capacity error path := by
  obtain ⟨path, error, hwalk, hbound, hreason, hcount, hcopied⟩ := hreports
  have hids : path.filterMap (fun index => (nodesOf records)[index]?.map LineageRecord.nodeId) =
      path.map (idAt (nodesOf records)) := by
    rw [← List.filterMap_eq_map]
    refine List.filterMap_congr fun index hindex => ?_
    rw [List.getElem?_eq_getElem (hbound index hindex), Function.comp_apply,
      Indexed.idAt_getElem (hbound index hindex)]
    rfl
  refine ⟨error, path.map (idAt (nodesOf records)), hreason, hwalk.map h.derives_map, ?_, ?_⟩
  · rw [List.length_map, hcount]
  · rw [List.length_map, hcopied, hids]

theorem Settled.status {roots : List RootRecord} {outcome : Outcome} (h : Settled records roots outcome) :
    (outcome.status = .cycle ↔ ¬ Acyclic records) ∧ outcome.status ≠ .recordInvalid := by
  cases h with
  | cycle error hcyclic => exact ⟨iff_of_true rfl hcyclic, nofun⟩
  | capacity hacyclic => exact ⟨iff_of_false nofun (not_not.2 hacyclic), nofun⟩
  | ok hok hacyclic =>
    rw [hok]
    exact ⟨iff_of_false nofun (not_not.2 hacyclic), nofun⟩

theorem resolveRoots_reports (blake3 : Blake3) (sort : Sorting rootKey)
    (h : Indexed records edges) (hsmall : (nodesOf records).length < 2 ^ 64) {fuel : ℕ}
    (hsearch : (nodesOf records).length * (edges.length + 1) < fuel)
    (hqueue : (nodesOf records).length < fuel) (roots : List RootRecord) (capacity : ℕ) :
    ∃ outcome, resolveRoots blake3 sort records (nodesOf records) edges roots capacity fuel =
        some outcome ∧ (outcome.status = .cycle ↔ ¬ Acyclic records) ∧
      outcome.status ≠ .recordInvalid ∧
      (outcome.status = .cycle → ∃ path, ReportsWalk records capacity outcome.error path) := by
  obtain ⟨outcome, houtcome, hsettled⟩ := resolveRoots_settled blake3 sort h hsmall hsearch hqueue
    roots capacity
  obtain ⟨hcyclic, hvalid⟩ := hsettled.status
  refine ⟨outcome, houtcome, hcyclic, hvalid, fun hstatus => ?_⟩
  have hspec := @searchFrom_spec edges _ (nodesOf records) capacity h.among fuel hsearch
  unfold resolveRoots at houtcome
  rcases hrun : (searchFrom (nodesOf records) edges capacity fuel
    (List.range (nodesOf records).length)).eval ⟨fun _ => .unvisited, []⟩ with ⟨reason | ⟨⟩, last⟩
  · obtain ⟨error, path, rfl, hwalk⟩ := (searchFrom_reports h.among hsearch hrun).reportsWalk h
    rw [hrun] at houtcome
    cases houtcome
    exact ⟨path, hwalk⟩
  · rw [hrun] at hspec
    exact absurd (h.acyclic hspec) (hcyclic.1 hstatus)

/-! ## The whole batch -/

/-- A batch whose records are valid apart from the cycles fails with a cycle exactly when a node is derived
from itself, and then reports a closed walk. It never fails for want of a processed node, and the stack of
the search never holds more entries than there are nodes. -/
theorem recordLineageBatch_reports_cycles (blake3 : Blake3) (sort : Sorting rootKey)
    (records : List LineageRecord) (memoryLimitBytes : UInt64) (roots : List RootRecord)
    (capacity : ℕ) {fuel : ℕ} (hfuel : (records.length + 1) ^ 2 < fuel)
    (h : Wellformed blake3 records memoryLimitBytes roots.length) :
    ∃ outcome, recordLineageBatch blake3 sort records memoryLimitBytes roots capacity true fuel =
        some outcome ∧ (outcome.status = .cycle ↔ ¬ Acyclic records) ∧
      (outcome.status = .cycle → ∃ path, ReportsWalk records capacity outcome.error path) ∧
      outcome.status ≠ .recordInvalid ∧
      ∀ edges search, checkEdges (nodesOf records) capacity none (nodesOf records).length
          (edgesOf records) = .ok edges → SearchState (nodesOf records) edges capacity search →
        search.stack.length ≤ (nodesOf records).length := by
  have hsorted := (checkNodes_increasing h.checked).2
  have hindexed : ∀ {edges}, checkEdges (nodesOf records) capacity none (nodesOf records).length
      (edgesOf records) = .ok edges → Indexed records edges := fun hedges =>
    ⟨hsorted, (checkEdges_names hedges).1, h.ordered⟩
  have hstack : ∀ edges search, checkEdges (nodesOf records) capacity none (nodesOf records).length
      (edgesOf records) = .ok edges → SearchState (nodesOf records) edges capacity search →
        search.stack.length ≤ (nodesOf records).length := fun edges search hedges hstate =>
    hstate.stack_le (hindexed hedges).among
  obtain ⟨total, htotal, hbuffers⟩ := h.room
  have hrecords : records ≠ [] := by
    rintro rfl
    exact h.nodes rfl
  have hroots : roots ≠ [] := List.length_pos_iff.1 h.capacity
  unfold recordLineageBatch
  rw [if_neg (not_or.2 ⟨hrecords, hroots⟩), h.checked]
  dsimp only
  rw [if_neg h.nodes, hbuffers]
  dsimp only
  rw [if_neg (Nat.not_lt.2 htotal), Bool.not_true, if_neg Bool.false_ne_true]
  have hcheck : (∃ edges, checkEdges (nodesOf records) capacity none (nodesOf records).length
      (edgesOf records) = .ok edges) ∨ _ :=
    checkEdges_wellformed hsorted capacity h.edges h.children h.parents nofun h.ordered
  rcases hcheck with ⟨edges, hedges⟩ | ⟨edge, hedge, hself, recordIndex, hcycle⟩
  · obtain ⟨hsearch, hqueue⟩ := enough_fuel (hindexed hedges).names.length_eq.symm hfuel
    obtain ⟨outcome, houtcome, hcyclic, hvalid, hreports⟩ := resolveRoots_reports blake3 sort
      (hindexed hedges) (nodes_small hbuffers) hsearch hqueue roots capacity
    rw [hedges]
    exact ⟨outcome, houtcome, hcyclic, hreports, hvalid, hedges ▸ hstack⟩
  · have hderives : Derives records edge.nodeId edge.nodeId := ⟨edge, hedge, rfl, hself.symm⟩
    rw [hcycle]
    refine ⟨_, rfl, iff_of_true rfl fun hacyclic => hacyclic _ (.single hderives), fun _ =>
      ⟨[edge.nodeId, edge.nodeId], ⟨Nat.le_refl 2, rfl, .cons_cons hderives (.singleton _)⟩, rfl, rfl⟩,
      nofun, hcycle ▸ hstack⟩

/-- Two nodes that are derived from each other. -/
def mutualRecords : List LineageRecord :=
  [⟨2, 0, 0, 0, 0, 0, 1, recordNode, kindObserved, 0, 0⟩,
    ⟨3, 0, 0, 0, 0, 0, 2, recordNode, kindObserved, 0, 0⟩,
    ⟨2, 0, 0, 0, 0, 3, 0, recordDependenceEdge, 0, 0, 0⟩,
    ⟨3, 0, 0, 0, 0, 2, 0, recordDependenceEdge, 0, 0, 0⟩]

theorem recordLineageBatch_reports_cycles_mutual :
    ∃ outcome, recordLineageBatch ordinalHash (.stable rootKey) mutualRecords 4096 [blankRoot] 3 true 26 =
      some outcome ∧ outcome.status = .cycle ∧
        ∃ path, ReportsWalk mutualRecords 3 outcome.error path := by
  have hfuel : (mutualRecords.length + 1) ^ 2 < 26 := by decide
  have hwellformed : Wellformed ordinalHash mutualRecords 4096 1 :=
    ⟨Nat.one_pos, List.cons_ne_nil _ _, by decide +kernel, ⟨316, by decide, by decide +kernel⟩,
      by decide +kernel, by decide +kernel, by decide +kernel, by decide +kernel⟩
  have hfirst : Derives mutualRecords 2 3 :=
    ⟨_, List.mem_cons_self, rfl, rfl⟩
  have hsecond : Derives mutualRecords 3 2 :=
    ⟨_, List.mem_cons_of_mem _ List.mem_cons_self, rfl, rfl⟩
  obtain ⟨outcome, houtcome, hcyclic, hreports, -⟩ := recordLineageBatch_reports_cycles ordinalHash
    (.stable rootKey) mutualRecords 4096 [blankRoot] 3 hfuel hwellformed
  have hstatus := hcyclic.2 fun hacyclic => hacyclic 2 (.head hfirst (.single hsecond))
  exact ⟨outcome, houtcome, hstatus, hreports hstatus⟩

end Laplace.Evidence
