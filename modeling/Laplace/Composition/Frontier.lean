import Laplace.Composition.Input
import Laplace.Lib.Buckets
import Laplace.Lib.Checked
import Laplace.Lib.Walks
import Mathlib.Data.List.GetD
import Laplace.Lib.Outcome

/-!
# `BuildFrontierPlan` (composition_frontier.hpp:60-183)

Counts and offsets are natural numbers and there is enough memory. The loop over the requests gives
each of them a depth, one more than the deepest result it refers to, and a counting sort puts the
requests in the order of their depths. What carries the result is that a reference goes down in depth
and that a depth which is not zero has a reference to the depth below it.
-/

namespace Laplace.Composition

open Buckets

/-- `FrontierPlan` -/
structure FrontierPlan where
  depthByRequest : List ℕ := []
  frontierOffsets : List ℕ := []
  requestIndices : List ℕ := []
  dependencyEdgeCount : ℕ := 0
  maximumFrontierWidth : ℕ := 0
deriving DecidableEq, Repr

def FrontierPlan.frontierCount (plan : FrontierPlan) : ℕ :=
  if plan.frontierOffsets.isEmpty then 0 else plan.frontierOffsets.length - 1

/-! ## The code -/

/-- The loop over the operands of one request: `depth` and `dependency_edge_count`. -/
def operandDepth (input : WorkingSetInput) (requestIndex : ℕ) (depths : List ℕ) :
    List Operand → ℕ → ℕ → Except Status (ℕ × ℕ)
  | [], depth, edges => .ok (depth, edges)
  | operand :: operands, depth, edges =>
    if operand.referenceKind = referenceKnownEntity then
      if operand.referenceIndex.toNat ≥ input.knownEntities.length then .error .referenceInvalid
      else operandDepth input requestIndex depths operands depth edges
    else if operand.referenceKind ≠ referencePriorResult ∨
        operand.referenceIndex.toNat ≥ requestIndex then .error .referenceInvalid
    else if edges = sizeMax then .error .countOverflow
    else
      let parentDepth := depths.getD operand.referenceIndex.toNat 0
      if parentDepth = sizeMax then .error .countOverflow
      else operandDepth input requestIndex depths operands (max depth (parentDepth + 1)) (edges + 1)

/-- The loop over the requests: the depths, `dependency_edge_count` and `maximum_depth`. -/
def requestDepths (input : WorkingSetInput) :
    List Request → List ℕ → ℕ → ℕ → Except Status (List ℕ × ℕ × ℕ)
  | [], depths, edges, maximumDepth => .ok (depths, edges, maximumDepth)
  | request :: requests, depths, edges, maximumDepth =>
    if request.firstOperand.toNat > input.operands.length ∨
        request.operandCount.toNat > input.operands.length - request.firstOperand.toNat then
      .error .referenceInvalid
    else do
      let (depth, edges) ←
        operandDepth input depths.length depths (input.operandsOf request) 0 edges
      requestDepths input requests (depths ++ [depth]) edges (max maximumDepth depth)

/-- The loop over neighbouring offsets. -/
def maximumWidth : List ℕ → ℕ → ℕ
  | offset :: next :: offsets, width => maximumWidth (next :: offsets) (max width (next - offset))
  | _, width => width

/-- What `BuildFrontierPlan` makes of the depths. -/
def planOf (depths : List ℕ) (edges maximumDepth : ℕ) : FrontierPlan :=
  let frontierCount := maximumDepth + 1
  let offsets :=
    accumulate 0 (tally depths (List.replicate (frontierCount + 1) 0))
  { depthByRequest := depths
    frontierOffsets := offsets
    requestIndices := place depths 0 offsets (List.replicate depths.length 0)
    dependencyEdgeCount := edges
    maximumFrontierWidth := maximumWidth offsets 0 }

def buildFrontierPlan (input : WorkingSetInput) : Status × FrontierPlan :=
  match requestDepths input input.requests [] 0 0 with
  | .error status => (status, {})
  | .ok (depths, edges, maximumDepth) =>
    if input.requests.length = 0 then
      (.ok, { depthByRequest := depths, frontierOffsets := [0], dependencyEdgeCount := edges })
    else if maximumDepth = sizeMax ∨ maximumDepth + 1 > sizeMax - 1 then (.countOverflow, {})
    else (.ok, planOf depths edges maximumDepth)

/-! ## References -/

/-- A known entity, or the result of an earlier request. -/
def Operand.RefersBefore (input : WorkingSetInput) (requestIndex : ℕ) (operand : Operand) : Prop :=
  (operand.referenceKind = referenceKnownEntity ∧
    operand.referenceIndex.toNat < input.knownEntities.length) ∨
  (operand.referenceKind = referencePriorResult ∧ operand.referenceIndex.toNat < requestIndex)

/-- The operands of a request lie in the array, and they refer to what is known by then. -/
def Request.RefersBefore (input : WorkingSetInput) (requestIndex : ℕ) (request : Request) : Prop :=
  request.firstOperand.toNat + request.operandCount.toNat ≤ input.operands.length ∧
    ∀ operand ∈ input.operandsOf request, operand.RefersBefore input requestIndex

def WorkingSetInput.RefersBefore (input : WorkingSetInput) : Prop :=
  ∀ (index : ℕ) (request : Request), input.requests[index]? = some request →
    request.RefersBefore input index

/-- An operand of the request `index` is the result of the request `prior`. -/
def WorkingSetInput.RefersTo (input : WorkingSetInput) (index prior : ℕ) : Prop :=
  ∃ request, input.requests[index]? = some request ∧ ∃ operand ∈ input.operandsOf request,
    operand.referenceKind = referencePriorResult ∧ operand.referenceIndex.toNat = prior

/-- The operands that are results. -/
def edges (operands : List Operand) : ℕ :=
  operands.countP fun operand => operand.referenceKind = referencePriorResult

/-- The operands of all requests that are results. -/
def WorkingSetInput.edgeCount (input : WorkingSetInput) : ℕ :=
  (input.requests.map fun request => edges (input.operandsOf request)).sum

/-- The requests of a frontier, in the order in which the plan has them. -/
def FrontierPlan.frontier (plan : FrontierPlan) (frontier : ℕ) : List ℕ :=
  (plan.requestIndices.drop (plan.frontierOffsets.getD frontier 0)).take
    (plan.frontierOffsets.getD (frontier + 1) 0 - plan.frontierOffsets.getD frontier 0)

/-! ## The operands of a request -/

section Operands

variable {input : WorkingSetInput} {requestIndex : ℕ} {depths : List ℕ}

/-- One more than the depth of the deepest result, and at least `depth`. -/
def depthOver (depths : List ℕ) : List Operand → ℕ → ℕ
  | [], depth => depth
  | operand :: operands, depth =>
    depthOver depths operands <| if operand.referenceKind = referencePriorResult then
      max depth (depths.getD operand.referenceIndex.toNat 0 + 1) else depth

/-- No request is deeper than the number of those before it. -/
def Shallow (depths : List ℕ) : Prop := ∀ index, depths.getD index 0 ≤ index

theorem known_ne_prior : referenceKnownEntity ≠ referencePriorResult := by decide

theorem edges_cons (operand : Operand) (operands : List Operand) : edges (operand :: operands) =
    edges operands + if operand.referenceKind = referencePriorResult then 1 else 0 := by
  rw [edges, List.countP_cons]
  simp only [decide_eq_true_eq]
  rfl

/-- The loop on operands that all refer to what is known: it is the number of edges that may be too
large. -/
theorem operandDepth_eq (hdepths : Shallow depths) (hindex : requestIndex < 2 ^ 57) :
    ∀ {operands : List Operand} {depth edgeCount : ℕ},
      (∀ operand ∈ operands, operand.RefersBefore input requestIndex) → edgeCount ≤ sizeMax →
      operandDepth input requestIndex depths operands depth edgeCount =
        if edgeCount + edges operands ≤ sizeMax then
          .ok (depthOver depths operands depth, edgeCount + edges operands)
        else .error .countOverflow
  | [], depth, edgeCount, _, hedges => (if_pos hedges).symm
  | operand :: operands, depth, edgeCount, hrefers, hedges => by
    obtain ⟨hfirst, hrefers⟩ := List.forall_mem_cons.1 hrefers
    rw [operandDepth, depthOver, edges_cons]
    rcases hfirst with ⟨hkind, hknown⟩ | ⟨hkind, hprior⟩
    · have hne : operand.referenceKind ≠ referencePriorResult := hkind ▸ known_ne_prior
      rw [if_pos hkind, if_neg (by omega), operandDepth_eq hdepths hindex hrefers hedges, if_neg hne,
        if_neg hne, Nat.add_zero]
    · have hne : operand.referenceKind ≠ referenceKnownEntity := hkind ▸ known_ne_prior.symm
      have hdepth := hdepths operand.referenceIndex.toNat
      rw [if_neg hne, if_neg (by rw [not_or, not_not]; exact ⟨hkind, by omega⟩), if_pos hkind,
        if_pos hkind]
      by_cases hmax : edgeCount = sizeMax
      · rw [if_pos hmax, if_neg (by omega)]
      · rw [if_neg hmax]
        simp only
        rw [if_neg (by unfold sizeMax; omega), operandDepth_eq hdepths hindex hrefers (by omega)]
        simp only [show edgeCount + 1 + edges operands = edgeCount + (edges operands + 1) by omega]

theorem operandDepth_status : ∀ (operands : List Operand) (depth edgeCount : ℕ),
    Outcome (operandDepth input requestIndex depths operands depth edgeCount) (fun _ => True) (· ≠ .ok)
  | [], _, _ => trivial
  | _ :: operands, _, _ =>
    .ite (fun _ => .refuse nofun (operandDepth_status operands _ _)) fun _ =>
      .refuse nofun (.refuse nofun (.refuse nofun (operandDepth_status operands _ _)))

theorem operandDepth_ok : ∀ {operands : List Operand} {depth edgeCount : ℕ} {result : ℕ × ℕ},
    operandDepth input requestIndex depths operands depth edgeCount = .ok result →
      ∀ operand ∈ operands, operand.RefersBefore input requestIndex
  | [], _, _, _, _ => nofun
  | operand :: operands, depth, edgeCount, result, h => by
    rw [operandDepth] at h
    split_ifs at h with hkind hknown hprior hmax
    · exact List.forall_mem_cons.2 ⟨.inl ⟨hkind, by omega⟩, operandDepth_ok h⟩
    · rw [not_or, not_not] at hprior
      simp only at h
      split at h
      · cases h
      · exact List.forall_mem_cons.2 ⟨.inr ⟨hprior.1, by omega⟩, operandDepth_ok h⟩

theorem depthOver_ge : ∀ {operands : List Operand} {depth : ℕ}, depth ≤ depthOver depths operands depth
  | [], depth => Nat.le_refl depth
  | operand :: operands, depth => by
    have hstep : depth ≤ if operand.referenceKind = referencePriorResult then
        max depth (depths.getD operand.referenceIndex.toNat 0 + 1) else depth := by
      split
      · exact Nat.le_max_left _ _
      · exact Nat.le_refl depth
    exact Nat.le_trans hstep depthOver_ge

theorem lt_depthOver : ∀ {operands : List Operand} {depth : ℕ} {operand : Operand},
    operand ∈ operands → operand.referenceKind = referencePriorResult →
      depths.getD operand.referenceIndex.toNat 0 < depthOver depths operands depth
  | first :: operands, depth, operand, hmem, hkind => by
    rcases List.mem_cons.1 hmem with rfl | hmem
    · rw [depthOver, if_pos hkind]
      exact Nat.lt_of_lt_of_le (Nat.lt_of_lt_of_le (Nat.lt_succ_self _) (Nat.le_max_right _ _))
        depthOver_ge
    · rw [depthOver]
      exact lt_depthOver hmem hkind

theorem exists_depthOver (depths : List ℕ) : ∀ (operands : List Operand) (depth : ℕ),
    depthOver depths operands depth = depth ∨ ∃ operand ∈ operands,
      operand.referenceKind = referencePriorResult ∧
        depthOver depths operands depth = depths.getD operand.referenceIndex.toNat 0 + 1
  | [], _ => .inl rfl
  | operand :: operands, depth => by
    rw [depthOver]
    rcases exists_depthOver depths operands (if operand.referenceKind = referencePriorResult then
      max depth (depths.getD operand.referenceIndex.toNat 0 + 1) else depth) with h | ⟨reached, hmem, hkind, h⟩
    · by_cases hkind : operand.referenceKind = referencePriorResult
      · rw [if_pos hkind] at h ⊢
        rw [h]
        rcases Nat.le_total depth (depths.getD operand.referenceIndex.toNat 0 + 1) with hle | hle
        · exact .inr ⟨operand, List.mem_cons_self, hkind, Nat.max_eq_right hle⟩
        · exact .inl (Nat.max_eq_left hle)
      · rw [if_neg hkind] at h ⊢
        exact .inl h
    · exact .inr ⟨reached, List.mem_cons_of_mem _ hmem, hkind, h⟩

theorem depthOver_congr {depths depths' : List ℕ} : ∀ {operands : List Operand} {depth : ℕ},
    (∀ operand ∈ operands, operand.referenceKind = referencePriorResult →
      depths.getD operand.referenceIndex.toNat 0 = depths'.getD operand.referenceIndex.toNat 0) →
    depthOver depths operands depth = depthOver depths' operands depth
  | [], _, _ => rfl
  | operand :: operands, depth, h => by
    obtain ⟨hfirst, hrest⟩ := List.forall_mem_cons.1 h
    rw [depthOver, depthOver, depthOver_congr hrest]
    congr 1
    split
    · rw [hfirst ‹_›]
    · rfl

end Operands

/-! ## The requests -/

section Requests

variable {input : WorkingSetInput} {depths : List ℕ}

/-- The depths of more requests behind those that have theirs. -/
def depthsAfter (input : WorkingSetInput) : List Request → List ℕ → List ℕ
  | [], depths => depths
  | request :: requests, depths =>
    depthsAfter input requests (depths ++ [depthOver depths (input.operandsOf request) 0])

/-- The requests refer to what is known when the first of them has position `index`. -/
def AllBefore (input : WorkingSetInput) (index : ℕ) (requests : List Request) : Prop :=
  ∀ (offset : ℕ) (request : Request), requests[offset]? = some request →
    request.RefersBefore input (index + offset)

theorem allBefore_cons {index : ℕ} {request : Request} {requests : List Request} :
    AllBefore input index (request :: requests) ↔
      request.RefersBefore input index ∧ AllBefore input (index + 1) requests := by
  constructor
  · intro h
    refine ⟨h 0 request rfl, fun offset next hnext => ?_⟩
    rw [Nat.add_assoc, Nat.add_comm 1]
    exact h (offset + 1) next hnext
  · rintro ⟨hfirst, hrest⟩ offset next hnext
    cases offset with
    | zero =>
      cases hnext
      exact hfirst
    | succ offset =>
      have := hrest offset next hnext
      rwa [Nat.add_assoc, Nat.add_comm 1] at this

theorem shallow_snoc {operands : List Operand} (h : Shallow depths)
    (hrefers : ∀ operand ∈ operands, operand.RefersBefore input depths.length) :
    Shallow (depths ++ [depthOver depths operands 0]) := by
  intro index
  rcases Nat.lt_trichotomy index depths.length with hlt | rfl | hgt
  · rw [List.getD_append _ _ _ _ hlt]
    exact h index
  · rw [List.getD_append_right _ _ _ _ (Nat.le_refl _), Nat.sub_self, List.getD_cons_zero]
    rcases exists_depthOver depths operands 0 with hzero | ⟨operand, hmem, hkind, hdepth⟩
    · rw [hzero]
      exact Nat.zero_le _
    · have hshallow := h operand.referenceIndex.toNat
      rcases hrefers operand hmem with ⟨hknown, -⟩ | ⟨-, hlt⟩
      · exact absurd (hkind ▸ hknown).symm known_ne_prior
      · omega
  · rw [List.getD_eq_default _ _ (by rw [List.length_append, List.length_singleton]; omega)]
    exact Nat.zero_le _

theorem requestDepths_eq : ∀ {requests : List Request} {depths : List ℕ} {edgeCount : ℕ},
    Shallow depths → AllBefore input depths.length requests →
    depths.length + requests.length ≤ 2 ^ 57 → edgeCount ≤ sizeMax →
    requestDepths input requests depths edgeCount (depths.foldl max 0) =
      if edgeCount + (requests.map fun request => edges (input.operandsOf request)).sum ≤ sizeMax then
        .ok (depthsAfter input requests depths,
          edgeCount + (requests.map fun request => edges (input.operandsOf request)).sum,
          (depthsAfter input requests depths).foldl max 0)
      else .error .countOverflow
  | [], _, _, _, _, _, hedges => (if_pos hedges).symm
  | request :: requests, depths, edgeCount, hdepths, hrefers, hlength, hedges => by
    obtain ⟨⟨hrange, hfirst⟩, hrest⟩ := allBefore_cons.1 hrefers
    rw [List.length_cons] at hlength
    rw [requestDepths, if_neg (by omega), operandDepth_eq hdepths (by omega) hfirst hedges,
      List.map_cons, List.sum_cons, depthsAfter]
    split
    · rename_i hfits
      have hsnoc := shallow_snoc hdepths hfirst
      have hmax : max (depths.foldl max 0) (depthOver depths (input.operandsOf request) 0) =
          (depths ++ [depthOver depths (input.operandsOf request) 0]).foldl max 0 := by
        rw [List.foldl_append]
        rfl
      simp only [bind, Except.bind]
      rw [hmax, requestDepths_eq hsnoc (by rwa [List.length_append, List.length_singleton])
        (by rw [List.length_append, List.length_singleton]; omega) hfits, Nat.add_assoc]
    · rw [if_neg (by omega)]
      rfl

theorem requestDepths_status : ∀ (requests : List Request) (depths : List ℕ)
    (edgeCount maximumDepth : ℕ),
    Outcome (requestDepths input requests depths edgeCount maximumDepth) (fun _ => True) (· ≠ .ok)
  | [], _, _, _ => trivial
  | _ :: requests, _, _, _ => .refuse nofun
    ((operandDepth_status _ _ _).bind fun _ _ => requestDepths_status requests _ _ _)

theorem requestDepths_ok : ∀ {requests : List Request} {depths : List ℕ}
    {edgeCount maximumDepth : ℕ} {result : List ℕ × ℕ × ℕ},
    requestDepths input requests depths edgeCount maximumDepth = .ok result →
      AllBefore input depths.length requests
  | [], _, _, _, _, _ => fun offset _ h => by cases h
  | request :: requests, depths, edgeCount, maximumDepth, result, h => by
    rw [requestDepths] at h
    split at h
    · cases h
    rename_i hrange
    cases hdepth : operandDepth input depths.length depths (input.operandsOf request) 0 edgeCount with
    | error status =>
      rw [hdepth] at h
      cases h
    | ok one =>
      rw [hdepth] at h
      have hrest := requestDepths_ok h
      rw [List.length_append, List.length_singleton] at hrest
      exact allBefore_cons.2 ⟨⟨by omega, operandDepth_ok hdepth⟩, hrest⟩

/-! ### The depths of all requests -/

theorem depthsAfter_length : ∀ (requests : List Request) (depths : List ℕ),
    (depthsAfter input requests depths).length = depths.length + requests.length
  | [], _ => rfl
  | request :: requests, depths => by
    rw [depthsAfter, depthsAfter_length, List.length_append, List.length_singleton, List.length_cons]
    omega

theorem depthsAfter_getD : ∀ (requests : List Request) (depths : List ℕ) {index : ℕ},
    index < depths.length → (depthsAfter input requests depths).getD index 0 = depths.getD index 0
  | [], _, _, _ => rfl
  | request :: requests, depths, index, h => by
    rw [depthsAfter, depthsAfter_getD _ _ (by rw [List.length_append]; omega),
      List.getD_append _ _ _ _ h]

/-- **Each request is one deeper than the deepest result it refers to.** -/
theorem depthsAfter_eq : ∀ (depths : List ℕ) {requests : List Request},
    AllBefore input depths.length requests → ∀ (offset : ℕ) (request : Request),
      requests[offset]? = some request →
        (depthsAfter input requests depths).getD (depths.length + offset) 0 =
          depthOver (depthsAfter input requests depths) (input.operandsOf request) 0
  | depths, first :: requests, hrefers, offset, request, hrequest => by
    obtain ⟨⟨-, hfirst⟩, hrest⟩ := allBefore_cons.1 hrefers
    have hlength : (depths ++ [depthOver depths (input.operandsOf first) 0]).length =
        depths.length + 1 := by rw [List.length_append, List.length_singleton]
    rw [depthsAfter]
    cases offset with
    | zero =>
      cases hrequest
      rw [Nat.add_zero, depthsAfter_getD _ _ (by omega),
        List.getD_append_right _ _ _ _ (Nat.le_refl _), Nat.sub_self, List.getD_cons_zero]
      refine depthOver_congr fun operand hmem hkind => ?_
      rcases hfirst operand hmem with ⟨hknown, -⟩ | ⟨-, hlt⟩
      · exact absurd (hkind ▸ hknown).symm known_ne_prior
      · rw [depthsAfter_getD _ _ (by omega), List.getD_append _ _ _ _ hlt]
    | succ offset =>
      have ih := depthsAfter_eq _ (hlength ▸ hrest) offset request hrequest
      rw [hlength] at ih
      rw [← ih]
      congr 1
      omega

theorem shallow_depthsAfter : ∀ {requests : List Request} {depths : List ℕ}, Shallow depths →
    AllBefore input depths.length requests → Shallow (depthsAfter input requests depths)
  | [], _, h, _ => h
  | request :: requests, depths, h, hrefers => by
    obtain ⟨⟨-, hfirst⟩, hrest⟩ := allBefore_cons.1 hrefers
    rw [depthsAfter]
    exact shallow_depthsAfter (shallow_snoc h hfirst)
      (by rwa [List.length_append, List.length_singleton])

end Requests

/-! ## Levels -/

section Levels

variable {input : WorkingSetInput} {index prior : ℕ}

/-- The depths of the requests. -/
def WorkingSetInput.depths (input : WorkingSetInput) : List ℕ := depthsAfter input input.requests []

theorem allBefore_iff : AllBefore input 0 input.requests ↔ input.RefersBefore := by
  unfold AllBefore WorkingSetInput.RefersBefore
  simp only [Nat.zero_add]

theorem depths_length : input.depths.length = input.requests.length := by
  rw [WorkingSetInput.depths, depthsAfter_length, List.length_nil, Nat.zero_add]

theorem shallow_depths (h : input.RefersBefore) : Shallow input.depths :=
  shallow_depthsAfter (fun _ => Nat.zero_le _) (allBefore_iff.2 h)

theorem depths_eq (h : input.RefersBefore) {request : Request}
    (hrequest : input.requests[index]? = some request) :
    input.depths.getD index 0 = depthOver input.depths (input.operandsOf request) 0 := by
  have heq := depthsAfter_eq [] (allBefore_iff.2 h) index request hrequest
  rwa [List.length_nil, Nat.zero_add] at heq

theorem depth_lt_of_refersTo (h : input.RefersBefore) (hrefers : input.RefersTo index prior) :
    input.depths.getD prior 0 < input.depths.getD index 0 := by
  obtain ⟨request, hrequest, operand, hmem, hkind, rfl⟩ := hrefers
  rw [depths_eq h hrequest]
  exact lt_depthOver hmem hkind

theorem lt_of_refersTo (h : input.RefersBefore) (hrefers : input.RefersTo index prior) :
    prior < index := by
  obtain ⟨request, hrequest, operand, hmem, hkind, rfl⟩ := hrefers
  rcases (h index request hrequest).2 operand hmem with ⟨hknown, -⟩ | ⟨-, hlt⟩
  · exact absurd (hkind ▸ hknown).symm known_ne_prior
  · exact hlt

theorem exists_refersTo (h : input.RefersBefore) (hpos : 0 < input.depths.getD index 0) :
    ∃ prior, input.RefersTo index prior ∧
      input.depths.getD index 0 = input.depths.getD prior 0 + 1 := by
  rcases hrequest : input.requests[index]? with _ | request
  · rw [List.getD_eq_default _ _ (by rw [depths_length]; exact List.getElem?_eq_none_iff.1 hrequest)]
      at hpos
    exact absurd hpos (Nat.lt_irrefl 0)
  · rcases exists_depthOver input.depths (input.operandsOf request) 0 with
      hzero | ⟨operand, hmem, hkind, hdepth⟩
    · rw [depths_eq h hrequest, hzero] at hpos
      exact absurd hpos (Nat.lt_irrefl 0)
    · exact ⟨_, ⟨request, hrequest, operand, hmem, hkind, rfl⟩, (depths_eq h hrequest).trans hdepth⟩

theorem exists_depth (h : input.RefersBefore) : ∀ {index depth : ℕ}, index < input.requests.length →
    depth ≤ input.depths.getD index 0 →
      ∃ index < input.requests.length, input.depths.getD index 0 = depth := by
  intro index
  induction index using Nat.strong_induction_on with
  | _ index ih =>
    intro depth hindex hdepth
    rcases Nat.lt_or_eq_of_le hdepth with hlt | rfl
    · obtain ⟨prior, hrefers, heq⟩ := exists_refersTo h (Nat.lt_of_le_of_lt (Nat.zero_le _) hlt)
      have hprior := lt_of_refersTo h hrefers
      exact ih prior hprior (by omega) (by omega)
    · exact ⟨index, hindex, rfl⟩

end Levels

/-! ## The plan -/

section Plan

variable {input : WorkingSetInput}

theorem foldl_max_ge : ∀ {depths : List ℕ} {first : ℕ}, first ≤ depths.foldl max first
  | [], first => Nat.le_refl first
  | _ :: _, _ => Nat.le_trans (Nat.le_max_left _ _) foldl_max_ge

theorem le_foldl_max : ∀ {depths : List ℕ} {first depth : ℕ}, depth ∈ depths →
    depth ≤ depths.foldl max first
  | head :: depths, first, depth, hmem => by
    rcases List.mem_cons.1 hmem with rfl | hmem
    · exact Nat.le_trans (Nat.le_max_right first depth) foldl_max_ge
    · rw [List.foldl_cons]
      exact le_foldl_max hmem

theorem foldl_max_mem : ∀ (depths : List ℕ) (first : ℕ),
    depths.foldl max first = first ∨ depths.foldl max first ∈ depths
  | [], _ => .inl rfl
  | head :: depths, first => by
    rw [List.foldl_cons]
    rcases foldl_max_mem depths (max first head) with h | h
    · rw [h]
      rcases Nat.le_total first head with hle | hle
      · rw [Nat.max_eq_right hle]
        exact .inr List.mem_cons_self
      · exact .inl (Nat.max_eq_left hle)
    · exact .inr (List.mem_cons_of_mem _ h)

theorem maximumWidth_ge : ∀ {offsets : List ℕ} {width : ℕ}, width ≤ maximumWidth offsets width
  | [], width => Nat.le_refl width
  | [_], width => Nat.le_refl width
  | _ :: _ :: _, width => Nat.le_trans (Nat.le_max_left width _) maximumWidth_ge

theorem width_le_maximumWidth : ∀ (offsets : List ℕ) (width frontier : ℕ),
    frontier + 1 < offsets.length →
      offsets.getD (frontier + 1) 0 - offsets.getD frontier 0 ≤ maximumWidth offsets width
  | _ :: _ :: _, width, 0, _ => Nat.le_trans (Nat.le_max_right width _) maximumWidth_ge
  | _ :: next :: offsets, _, frontier + 1, h =>
    width_le_maximumWidth (next :: offsets) _ frontier (Nat.lt_of_succ_lt_succ h)

/-- What a plan is for. -/
structure FrontierPlan.Schedules (plan : FrontierPlan) (input : WorkingSetInput) : Prop where
  length : plan.depthByRequest.length = input.requests.length
  longest : ∀ index < input.requests.length, IsGreatest
    {length | ∃ prior, Walk input.RefersTo index prior length} (plan.depthByRequest.getD index 0)
  perm : plan.requestIndices.Perm (List.range input.requests.length)
  partition : plan.requestIndices = (List.range plan.frontierCount).flatMap plan.frontier
  nonempty : ∀ frontier < plan.frontierCount, plan.frontier frontier ≠ []
  stable : ∀ frontier < plan.frontierCount, plan.frontier frontier =
    (List.range input.requests.length).filter fun index =>
      plan.depthByRequest.getD index 0 = frontier
  earlier : ∀ index prior, input.RefersTo index prior → ∃ frontier before,
    before < frontier ∧ frontier < plan.frontierCount ∧ index ∈ plan.frontier frontier ∧
      prior ∈ plan.frontier before
  edges : plan.dependencyEdgeCount = input.edgeCount
  width : ∀ frontier < plan.frontierCount,
    (plan.frontier frontier).length ≤ plan.maximumFrontierWidth

theorem planOf_schedules (h : input.RefersBefore) (hne : input.requests ≠ []) :
    (planOf input.depths input.edgeCount (input.depths.foldl max 0)).Schedules input := by
  set bound := input.depths.foldl max 0 + 1 with hbound
  have hlength : input.depths.length = input.requests.length := depths_length
  have hkeys : ∀ key ∈ input.depths, key < bound := fun key hkey => Nat.lt_succ_of_le (le_foldl_max hkey)
  have hoffsets : (planOf input.depths input.edgeCount (input.depths.foldl max 0)).frontierOffsets =
      offsets input.depths bound := rfl
  have hindices : (planOf input.depths input.edgeCount (input.depths.foldl max 0)).requestIndices =
      countingSort input.depths bound := rfl
  have hcount : (planOf input.depths input.edgeCount (input.depths.foldl max 0)).frontierCount =
      bound := by
    have hsize := offsets_length input.depths bound
    rw [FrontierPlan.frontierCount, hoffsets, if_neg, hsize, Nat.add_sub_cancel]
    rw [List.isEmpty_iff]
    exact List.ne_nil_of_length_pos (by omega)
  have hget : ∀ index < input.requests.length, ∀ key,
      input.depths[index]? = some key ↔ input.depths.getD index 0 = key := by
    intro index hindex key
    rw [List.getD_eq_getElem?_getD, List.getElem?_eq_getElem (by omega), Option.some.injEq,
      Option.getD_some]
  have hbucket : ∀ key, bucket key input.depths 0 =
      (List.range input.requests.length).filter fun index => input.depths.getD index 0 = key := by
    intro key
    rw [bucket_zero, hlength]
    exact List.filter_congr fun index hindex =>
      decide_eq_decide.2 (hget index (List.mem_range.1 hindex) key)
  have hwidth : ∀ key < bound, (offsets input.depths bound).getD (key + 1) 0 -
      (offsets input.depths bound).getD key 0 = input.depths.count key := by
    intro key hkey
    rw [offsets_getD _ hkey, offsets_getD _ (by omega), countP_lt_succ,
      Nat.add_sub_cancel_left]
  have hfrontier : ∀ key < bound, (planOf input.depths input.edgeCount
      (input.depths.foldl max 0)).frontier key = bucket key input.depths 0 := by
    intro key hkey
    rw [FrontierPlan.frontier, hoffsets, hindices, hwidth key hkey,
      offsets_getD _ (by omega)]
    exact countingSort_bucket hkeys hkey
  have hmem : ∀ index < input.requests.length, index ∈ (planOf input.depths input.edgeCount
      (input.depths.foldl max 0)).frontier (input.depths.getD index 0) := by
    intro index hindex
    have hkey := hkeys (input.depths.getD index 0) (by
      rw [List.getD_eq_getElem _ _ (by omega)]
      exact List.getElem_mem _)
    rw [hfrontier _ hkey, hbucket, List.mem_filter]
    exact ⟨List.mem_range.2 hindex, decide_eq_true rfl⟩
  refine ⟨hlength, fun index _ => ?_, ?_, ?_, fun frontier hlt => ?_, fun frontier hlt => ?_,
    fun index prior hrefers => ?_, rfl, fun frontier hlt => ?_⟩
  · exact Walk.isGreatest_level (fun index => input.depths.getD index 0)
      (fun _ _ => depth_lt_of_refersTo h) (fun _ => exists_refersTo h) index
  · exact hlength ▸ countingSort_perm hkeys
  · rw [hindices, hcount, countingSort_eq hkeys]
    exact List.flatMap_congr fun key hkey => (hfrontier key (List.mem_range.1 hkey)).symm
  · rw [hcount] at hlt
    obtain ⟨deepest, hdeepest, hmax⟩ : ∃ index < input.requests.length,
        input.depths.getD index 0 = input.depths.foldl max 0 := by
      rcases foldl_max_mem input.depths 0 with hzero | hmax
      · refine ⟨0, List.length_pos_iff.2 hne, ?_⟩
        exact Nat.le_antisymm (by
          rw [List.getD_eq_getElem _ _ (by rw [hlength]; exact List.length_pos_iff.2 hne)]
          exact le_foldl_max (List.getElem_mem _)) (by rw [hzero]; exact Nat.zero_le _)
      · obtain ⟨index, hindex, heq⟩ := List.getElem_of_mem hmax
        exact ⟨index, by omega, by rw [List.getD_eq_getElem _ _ hindex, heq]⟩
    obtain ⟨index, hindex, rfl⟩ := exists_depth h hdeepest (by omega : frontier ≤ _)
    exact List.ne_nil_of_mem (hmem index hindex)
  · rw [hcount] at hlt
    rw [hfrontier frontier hlt, hbucket]
    rfl
  · have hprior := lt_of_refersTo h hrefers
    have hindex : index < input.requests.length := by
      obtain ⟨request, hrequest, -⟩ := hrefers
      exact (List.getElem?_eq_some_iff.1 hrequest).1
    refine ⟨_, _, depth_lt_of_refersTo h hrefers, ?_, hmem index hindex, hmem prior (by omega)⟩
    rw [hcount]
    refine hkeys _ ?_
    rw [List.getD_eq_getElem _ _ (by omega)]
    exact List.getElem_mem _
  · rw [hcount] at hlt
    rw [hfrontier frontier hlt, bucket_length, ← hwidth frontier hlt]
    exact width_le_maximumWidth _ 0 frontier (by rw [offsets_length]; omega)

theorem requestDepths_refersBefore (h : input.RefersBefore) :
    requestDepths input input.requests [] 0 0 = if input.edgeCount ≤ sizeMax then
      .ok (input.depths, input.edgeCount, input.depths.foldl max 0) else .error .countOverflow := by
  have hfit := input.requestsFit
  have hnil : Shallow [] := fun _ => Nat.zero_le _
  have hloop := requestDepths_eq hnil (allBefore_iff.2 h) (by rw [List.length_nil]; omega)
    (Nat.zero_le sizeMax)
  rwa [Nat.zero_add] at hloop

theorem buildFrontierPlan_ok (h : input.RefersBefore) (hedges : input.edgeCount ≤ sizeMax) :
    ∃ plan, buildFrontierPlan input = (.ok, plan) ∧ plan.Schedules input := by
  rw [buildFrontierPlan, requestDepths_refersBefore h, if_pos hedges]
  simp only
  by_cases hnil : input.requests = []
  · rw [if_pos (by rw [hnil]; rfl)]
    refine ⟨_, rfl, ?_⟩
    have hzero : ∀ {index : ℕ}, ¬ index < input.requests.length := by
      intro index
      rw [hnil]
      exact Nat.not_lt_zero _
    refine ⟨depths_length, fun index hindex => absurd hindex hzero, ?_, rfl,
      fun frontier hlt => absurd hlt (Nat.not_lt_zero _),
      fun frontier hlt => absurd hlt (Nat.not_lt_zero _), fun index prior hrefers => ?_, rfl,
      fun frontier hlt => absurd hlt (Nat.not_lt_zero _)⟩
    · rw [hnil]
      exact List.Perm.refl []
    · obtain ⟨request, hrequest, -⟩ := hrefers
      rw [hnil] at hrequest
      cases hrequest
  · have hpos := List.length_pos_iff.2 hnil
    have hmax : input.depths.foldl max 0 ≤ 2 ^ 57 := by
      have hfit := input.requestsFit
      rcases foldl_max_mem input.depths 0 with hzero | hmem
      · omega
      · obtain ⟨index, hindex, heq⟩ := List.getElem_of_mem hmem
        have hshallow := shallow_depths h index
        rw [List.getD_eq_getElem _ _ hindex, heq] at hshallow
        rw [depths_length] at hindex
        omega
    rw [if_neg (by omega), if_neg (by unfold sizeMax; omega)]
    exact ⟨_, rfl, planOf_schedules h hnil⟩

theorem buildFrontierPlan_overflow (h : input.RefersBefore) (hedges : ¬ input.edgeCount ≤ sizeMax) :
    buildFrontierPlan input = (.countOverflow, {}) := by
  rw [buildFrontierPlan, requestDepths_refersBefore h, if_neg hedges]

theorem buildFrontierPlan_refused (h : ¬ input.RefersBefore) :
    ∃ status, status ≠ .ok ∧ buildFrontierPlan input = (status, {}) := by
  rw [buildFrontierPlan]
  cases hloop : requestDepths input input.requests [] 0 0 with
  | error status => exact ⟨status, (requestDepths_status _ _ _ _).of_error hloop, rfl⟩
  | ok result => exact absurd (allBefore_iff.1 (requestDepths_ok hloop)) h

/-- **The frontier plan.** Where all operands refer to what is known before, and a word can count the
references, the plan is made: the depths are the lengths of longest chains of results, and the requests
are put into frontiers behind those they refer to. -/
theorem frontier_plan (input : WorkingSetInput) :
    (input.RefersBefore → input.edgeCount < 2 ^ 64 →
      ∃ plan, buildFrontierPlan input = (.ok, plan) ∧ plan.Schedules input) ∧
    (input.RefersBefore → 2 ^ 64 ≤ input.edgeCount →
      buildFrontierPlan input = (.countOverflow, {})) ∧
    (¬ input.RefersBefore → ∃ status, status ≠ .ok ∧ buildFrontierPlan input = (status, {})) :=
  ⟨fun h hedges => buildFrontierPlan_ok h (Nat.le_sub_one_of_lt hedges),
    fun h hedges => buildFrontierPlan_overflow h (by unfold sizeMax; omega),
    buildFrontierPlan_refused⟩

/-! ### Too many references

The operands of requests may overlap, so that a word cannot count them all. -/

/-- One known entity, and so many requests with the result of the first one as often for operands. -/
def overlapping (count : ℕ) (hcount : count ≤ 2 ^ 32) : WorkingSetInput where
  sourceFingerprint := 0
  calculationRecipeFingerprint := 0
  knownEntities := [⟨0, 0, 0, fun _ => 0, 0, 0, 0, 0⟩]
  operands := ⟨0, 1, 0, referenceKnownEntity, 0⟩ ::
    List.replicate count ⟨0, 1, 0, referencePriorResult, 0⟩
  requests := ⟨0, 1, 1, 1, 0, 0, 0, 0⟩ ::
    List.replicate count ⟨1, UInt64.ofNat count, 1, 1, 0, 0, 0, 0⟩
  preferredBatchBytes := 0
  reserved := 0
  knownFit := by decide
  operandsFit := by
    rw [List.length_cons, List.length_replicate]
    omega
  requestsFit := by
    rw [List.length_cons, List.length_replicate]
    omega

theorem overlapping_operandsOf {count : ℕ} {hcount : count ≤ 2 ^ 32} {request : Request}
    (hfirst : request.firstOperand = 1) (hoperands : request.operandCount = UInt64.ofNat count) :
    (overlapping count hcount).operandsOf request =
      List.replicate count ⟨0, 1, 0, referencePriorResult, 0⟩ := by
  have htoNat : (UInt64.ofNat count).toNat = count := Checked.toNat_ofNat (by omega)
  rw [WorkingSetInput.operandsOf, hfirst, hoperands, htoNat]
  exact List.take_of_length_le (Nat.le_of_eq List.length_replicate)

theorem overlapping_refersBefore (count : ℕ) (hcount : count ≤ 2 ^ 32) :
    (overlapping count hcount).RefersBefore := by
  have htoNat : (UInt64.ofNat count).toNat = count := Checked.toNat_ofNat (by omega)
  intro index request hrequest
  cases index with
  | zero =>
    cases hrequest
    refine ⟨Nat.le_add_left _ _, fun operand hmem => ?_⟩
    cases List.mem_singleton.1 hmem
    exact .inl ⟨rfl, Nat.one_pos⟩
  | succ index =>
    have hmem := List.mem_of_getElem? (show (List.replicate count _)[index]? = some request from hrequest)
    obtain ⟨-, rfl⟩ := List.mem_replicate.1 hmem
    refine ⟨?_, fun operand hoperand => ?_⟩
    · change 1 + (UInt64.ofNat count).toNat ≤ (_ :: List.replicate count _).length
      rw [htoNat, List.length_cons, List.length_replicate]
      omega
    · rw [overlapping_operandsOf rfl rfl] at hoperand
      obtain ⟨-, rfl⟩ := List.mem_replicate.1 hoperand
      exact .inr ⟨rfl, Nat.succ_pos index⟩

theorem overlapping_edgeCount (count : ℕ) (hcount : count ≤ 2 ^ 32) :
    (overlapping count hcount).edgeCount = count * count := by
  have hone : edges ((overlapping count hcount).operandsOf
      ⟨1, UInt64.ofNat count, 1, 1, 0, 0, 0, 0⟩) = count := by
    rw [overlapping_operandsOf rfl rfl, edges, List.countP_replicate]
    rfl
  rw [WorkingSetInput.edgeCount]
  change ((_ :: List.replicate count _).map _).sum = _
  rw [List.map_cons, List.sum_cons, List.map_replicate, List.sum_replicate, hone, smul_eq_mul]
  exact Nat.zero_add _

/-- 2^64 references from 2^32 requests to the first one. -/
theorem frontier_plan_overlapping :
    (overlapping (2 ^ 32) (Nat.le_refl _)).RefersBefore ∧
      buildFrontierPlan (overlapping (2 ^ 32) (Nat.le_refl _)) = (.countOverflow, {}) := by
  have hrefers := overlapping_refersBefore (2 ^ 32) (Nat.le_refl _)
  refine ⟨hrefers, buildFrontierPlan_overflow hrefers ?_⟩
  rw [overlapping_edgeCount]
  unfold sizeMax
  omega

end Plan

end Laplace.Composition
