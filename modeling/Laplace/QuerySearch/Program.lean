import Laplace.QuerySearch.Types

/-!
# Validation, weighted costs and input hashing (query_search_part00.inc, query_search_part01.inc:1-110)
-/

namespace Laplace.QuerySearch

open Laplace.Checked

/-! ## Validation -/

/-- `SameState` -/
def sameState (left right : State) : Bool :=
  left.stateId == right.stateId && left.anchorId == right.anchorId &&
    left.dominanceKey == right.dominanceKey &&
    left.bindingFingerprint == right.bindingFingerprint &&
    left.obligationFingerprint == right.obligationFingerprint &&
    left.contextFingerprint == right.contextFingerprint &&
    left.evidenceEpoch == right.evidenceEpoch && left.boundaryId == right.boundaryId &&
    left.heuristicCost == right.heuristicCost && left.depth == right.depth &&
    left.flags == right.flags

theorem sameState_iff {left right : State} : sameState left right = true ↔ left = right := by
  cases left; cases right
  simp [sameState, and_assoc]

/-- `StateValid` -/
def stateValid (program : Program) (state : State) : Bool :=
  if state.stateId == 0 || state.anchorId == 0 || state.dominanceKey == 0 ||
      state.obligationFingerprint == 0 || state.contextFingerprint == 0 ||
      state.evidenceEpoch == 0 || state.boundaryId == 0 ||
      hasFlag state.flags (~~~stateTerminal) || state.boundaryId != program.boundaryId ||
      state.evidenceEpoch != program.evidenceEpoch || state.depth > program.budget.maxDepth then
    false
  else if !program.has Flag.astar && state.heuristicCost != 0 then false
  else if state.terminal && program.has Flag.requestOptimal && state.heuristicCost != 0 then false
  else true

/-- `ProgramValid` -/
def programValid (program : Program) : Bool :=
  let budget := program.budget
  if program.programId == 0 || program.goalId == 0 || program.boundaryId == 0 ||
      program.evidenceEpoch == 0 || program.resultContractFingerprint == 0 ||
      program.reserved != 0 || program.has (~~~Flag.knownMask) ||
      budget.maxExpandedStates == 0 || budget.maxTransitionRecords == 0 ||
      budget.maxEmittedStates == 0 || budget.maxFrontierStates == 0 ||
      budget.maxMemoryBytes == 0 || budget.maxProviderCalls == 0 || budget.maxDepth == 0 ||
      budget.requestedPathCount == 0 || budget.frontierBatchWidth == 0 ||
      budget.transitionBatchCapacity == 0 then false
  else
    let anyWeight := program.costWeights.toList.any (· != 0)
    let astar := program.has Flag.astar
    let admissible := program.has Flag.heuristicAdmissible
    let consistent := program.has Flag.heuristicConsistent
    let reopen := program.has Flag.allowReopen
    let optimal := program.has Flag.requestOptimal
    if !anyWeight then false
    else if program.has Flag.requireSetOriented && budget.frontierBatchWidth < 2 then false
    else if !astar && (admissible || consistent || reopen ||
        program.heuristicProofFingerprint != 0) then false
    else if optimal && astar && (!admissible || program.heuristicProofFingerprint == 0) then false
    else if astar && !consistent && !reopen then false
    else true

variable {program : Program}

theorem programValid_positive (h : programValid program = true) :
    0 < program.budget.requestedPathCount.toNat ∧ 0 < program.budget.frontierBatchWidth.toNat := by
  simp only [programValid] at h
  split at h
  · cases h
  · rename_i hn
    simp only [Bool.or_eq_true, beq_iff_eq, not_or] at hn
    exact ⟨Nat.pos_of_ne_zero fun h0 => hn.1.1.2 (UInt32.toNat_inj.1 h0),
      Nat.pos_of_ne_zero fun h0 => hn.1.2 (UInt32.toNat_inj.1 h0)⟩

/-- `SearchStandingZero` -/
def searchStandingZero (state : Standing.State) : Bool :=
  state.stateId == 0 && state.coordinateId == 0 && state.arenaScopeId == 0 &&
    state.priorStateId == 0 && state.epochId == 0 && state.ratingRecipeId == 0 &&
    Standing.doubleIsZero state.rating && Standing.doubleIsZero state.ratingDeviation &&
    Standing.doubleIsZero state.volatility && state.eligibleMatchCount == 0 &&
    state.periodOrdinal == 0 && state.ratingRecipeVersion == 0 && state.flags == 0

/-- `SearchStandingValid` -/
def searchStandingValid (blake3 : Blake3) (state : Standing.State) : Bool :=
  if searchStandingZero state then false
  else Standing.stateIdentify blake3 state == some state.stateId

/-- `TransitionValid` -/
def transitionValid (blake3 : Blake3) (program : Program)
    (transition : Transition) : Bool :=
  let relationIdPresent := hasFlag transition.flags TransitionFlag.relationIdPresent
  let standingPresent := hasFlag transition.flags TransitionFlag.standingPresent
  transition.transitionId != 0 && transition.sourceStateId != 0 &&
    stateValid program transition.target && transition.lawFingerprint != 0 &&
    transition.calculationReceipt != 0 && transition.relationFamily != 0 &&
    transition.sourceLayer != 0 && transition.direction != 0 &&
    !hasFlag transition.flags (~~~TransitionFlag.knownFlags) &&
    (relationIdPresent || transition.relationId == 0) &&
    (if standingPresent then searchStandingValid blake3 transition.standing
      else searchStandingZero transition.standing)

theorem transitionValid_target {blake3 : Blake3} {transition : Transition}
    (h : transitionValid blake3 program transition = true) :
    stateValid program transition.target = true := by
  simp only [transitionValid, Bool.and_eq_true] at h
  exact h.1.1.1.1.1.1.1.1.2

theorem stateValid_depth {state : State} (h : stateValid program state = true) :
    state.depth.toNat ≤ program.budget.maxDepth.toNat := by
  unfold stateValid at h
  split at h
  · cases h
  · rename_i hn
    simp only [Bool.or_eq_true, not_or, decide_eq_true_eq, UInt32.lt_iff_toNat_lt, gt_iff_lt] at hn
    omega

/-! ## Costs -/

/-- `WeightedCost`: the checked sum of the weighted components. -/
def weightedCostLoop : List (UInt64 × UInt64) → UInt64 → Option UInt64
  | [], total => some total
  | (component, weight) :: rest, total =>
    (checkedMul component weight).bind fun product =>
      (checkedAdd total product).bind fun total => weightedCostLoop rest total

def weightedCost (program : Program) (transition : Transition) : Option UInt64 :=
  weightedCostLoop (transition.costComponents.toList.zip program.costWeights.toList) 0

/-- The weighted cost of a transition as a number: what `WeightedCost` computes when it fits. -/
def Program.weight (program : Program) (transition : Transition) : Nat :=
  ((transition.costComponents.toList.zip program.costWeights.toList).map
    fun pair => pair.1.toNat * pair.2.toNat).sum

theorem weightedCostLoop_some (pairs : List (UInt64 × UInt64)) {total result : UInt64}
    (h : weightedCostLoop pairs total = some result) :
    result.toNat = total.toNat + (pairs.map fun pair => pair.1.toNat * pair.2.toNat).sum := by
  induction pairs generalizing total with
  | nil =>
    simp only [weightedCostLoop, Option.some.injEq] at h
    rw [h, List.map_nil, List.sum_nil, Nat.add_zero]
  | cons pair rest ih =>
    simp only [weightedCostLoop, Option.bind_eq_some_iff] at h
    obtain ⟨product, hmul, next, hadd, hrest⟩ := h
    rw [ih hrest, checkedAdd_eq_some.1 hadd, checkedMul_eq_some.1 hmul, List.map_cons, List.sum_cons,
      Nat.add_assoc]

theorem weightedCost_some {transition : Transition} {cost : UInt64}
    (h : weightedCost program transition = some cost) : cost.toNat = program.weight transition := by
  rw [weightedCostLoop_some _ h, Program.weight]
  exact Nat.zero_add _

/-! ## Hashing -/

/-- `HashState` -/
def hashState (state : State) : List UInt8 :=
  state.stateId.bytes ++ state.anchorId.bytes ++ state.dominanceKey.bytes ++
    state.bindingFingerprint.bytes ++ state.obligationFingerprint.bytes ++
    state.contextFingerprint.bytes ++ state.evidenceEpoch.bytes ++ state.boundaryId.bytes ++
    u64Bytes state.heuristicCost ++ u32Bytes state.depth ++ u32Bytes state.flags

/-- `HashProgram` -/
def hashProgram (blake3 : Blake3) (program : Program) : Digest256 :=
  let budget := program.budget
  blake3 (domainBytes "laplace-query-search-program-v1" ++ program.programId.bytes ++
    program.goalId.bytes ++ program.boundaryId.bytes ++ program.evidenceEpoch.bytes ++
    program.heuristicProofFingerprint.bytes ++ program.resultContractFingerprint.bytes ++
    program.costWeights.toList.flatMap u64Bytes ++ u64Bytes budget.maxExpandedStates ++
    u64Bytes budget.maxTransitionRecords ++ u64Bytes budget.maxEmittedStates ++
    u64Bytes budget.maxFrontierStates ++ u64Bytes budget.maxMemoryBytes ++
    u64Bytes budget.maxIoOperations ++ u64Bytes budget.maxDatabaseOperations ++
    u64Bytes budget.maxProviderCalls ++ u32Bytes budget.maxDepth ++
    u32Bytes budget.requestedPathCount ++ u32Bytes budget.frontierBatchWidth ++
    u32Bytes budget.transitionBatchCapacity ++ u32Bytes program.flags)

/-- The input fingerprint of `laplace_query_search_execute` (query_search_part04.inc:86-97). -/
def hashInput (blake3 : Blake3) (programFingerprint : Digest256)
    (initialStates : List State) : Digest256 :=
  blake3 (domainBytes "laplace-query-search-input-v1" ++ programFingerprint.bytes ++
    u64Bytes (UInt64.ofNat initialStates.length) ++ initialStates.flatMap hashState)

/-- The bytes that `FinalizeReceipt` hashes. -/
def hashReceipt (blake3 : Blake3) (receipt : Receipt) : Digest256 :=
  blake3 (domainBytes "laplace-query-search-receipt-v1" ++ receipt.programFingerprint.bytes ++
    receipt.inputFingerprint.bytes ++ receipt.outputFingerprint.bytes ++
    u64Bytes receipt.expandedStateCount ++ u64Bytes receipt.transitionRecordCount ++
    u64Bytes receipt.emittedStateCount ++ u64Bytes receipt.reopenedStateCount ++
    u64Bytes receipt.prunedStateCount ++ u64Bytes receipt.rowsExamined ++
    u64Bytes receipt.indexPlanCount ++ u64Bytes receipt.crossingCount ++
    u64Bytes receipt.ioOperations ++ u64Bytes receipt.databaseOperations ++
    u64Bytes receipt.providerCallCount ++ u64Bytes receipt.estimatedPeakMemoryBytes ++
    u32Bytes receipt.pathCount ++ u32Bytes receipt.disposition ++ u32Bytes receipt.flags ++
    u32Bytes receipt.version ++ u32Bytes receipt.status)

end Laplace.QuerySearch
