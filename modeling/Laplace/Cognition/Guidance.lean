import Laplace.Digest
import Laplace.Lib.Sorting

/-!
# Guidance states (cognition_guidance_part00-03.inc)

A state is a header and obligations in the order of their ids. Digests are compared with `memcmp`,
so the order is that of the numbers. The null pointer checks are gone: an argument is there. Where
the source allocates, a flag says whether there is memory.
-/

namespace Laplace.Cognition

/-! ## Data -/

inductive GuidanceStatus
  | ok | invalidArgument | stateInvalid | duplicate | conflict | range | memoryFailure | noOperation
deriving DecidableEq, Repr

/-- `laplace_cognition_guidance_header` -/
structure Header where
  programId : Digest256
  goalId : Digest256
  bindingsFingerprint : Digest256
  scopeFingerprint : Digest256
  worldId : Digest256
  timeFingerprint : Digest256
  contextFingerprint : Digest256
  evidenceEpoch : Digest256
  authorityId : Digest256
  resultContractFingerprint : Digest256
  version : UInt32
  flags : UInt32
deriving DecidableEq

/-- `laplace_cognition_obligation` -/
structure Obligation where
  obligationId : Digest256
  valueId : Digest256
  bindingFingerprint : Digest256
  worldId : Digest256
  timeFingerprint : Digest256
  contextFingerprint : Digest256
  evidenceBoundary : Digest256
  authorityId : Digest256
  resultContractFingerprint : Digest256
  resolutionReceiptId : Digest256
  kind : UInt32
  disposition : UInt32
  flags : UInt32
  reserved : UInt32
deriving DecidableEq

/-- `laplace_cognition_query_projection` -/
structure QueryProjection where
  projectionId : Digest256
  obligationId : Digest256
  bindingFingerprint : Digest256
  worldId : Digest256
  timeFingerprint : Digest256
  contextFingerprint : Digest256
  evidenceBoundary : Digest256
  authorityId : Digest256
  resultContractFingerprint : Digest256
  queryKind : UInt32
  obligationFlags : UInt32
deriving DecidableEq

/-- `laplace_cognition_resolution` -/
structure Resolution where
  obligationId : Digest256
  valueId : Digest256
  receiptId : Digest256
  disposition : UInt32
  flags : UInt32
deriving DecidableEq

/-- `laplace_cognition_guidance_operation` -/
structure Operation where
  operationId : Digest256
  targetObligationId : Digest256
  operandsFingerprint : Digest256
  preconditionsFingerprint : Digest256
  predictedEffectFingerprint : Digest256
  authorityId : Digest256
  receiptContractFingerprint : Digest256
  expectedObligationReduction : UInt64
  informationValue : UInt64
  resourceCost : UInt64
  novelty : UInt64
  kind : UInt32
  flags : UInt32
deriving DecidableEq

/-- `laplace_cognition_guidance_decision` -/
structure Decision where
  decisionReceiptId : Digest256 := 0
  selectedOperationId : Digest256 := 0
  stateId : Digest256 := 0
  eligibleOperationCount : UInt64 := 0
  rejectedOperationCount : UInt64 := 0
  selectedExpectedObligationReduction : UInt64 := 0
  selectedInformationValue : UInt64 := 0
  selectedResourceCost : UInt64 := 0
  selectedKind : UInt32 := 0
  status : GuidanceStatus := .ok
deriving DecidableEq

/-- `laplace_cognition_guidance_transition_receipt` -/
structure TransitionReceipt where
  transitionReceiptId : Digest256 := 0
  priorStateId : Digest256 := 0
  nextStateId : Digest256 := 0
  resolutionSetFingerprint : Digest256 := 0
  appliedResolutionCount : UInt64 := 0
  remainingOpenCount : UInt64 := 0
  completion : UInt32 := 0
  status : GuidanceStatus := .ok
deriving DecidableEq

/-- `laplace_cognition_guidance_state` -/
structure GuidanceState where
  header : Header
  stateId : Digest256
  obligations : List Obligation
deriving DecidableEq

/-! ## Contract -/

def guidanceVersion : UInt32 := 1

def obligationOpen : UInt32 := 1
def obligationSatisfied : UInt32 := 2
def obligationUnsupported : UInt32 := 3
def obligationUnknown : UInt32 := 7

def obligationRequired : UInt32 := 1
def obligationAllowTypedUnresolved : UInt32 := 2
def obligationKnownFlags : UInt32 := obligationRequired ||| obligationAllowTypedUnresolved

def operationStructuralCalculation : UInt32 := 1
def operationClarification : UInt32 := 5
def operationExplicitUnresolved : UInt32 := 6
def operationAnswer : UInt32 := 7
def operationExecute : UInt32 := 9

def operationRequiresEffectAuthority : UInt32 := 1
def operationInformationSeeking : UInt32 := 2
def operationTerminalAct : UInt32 := 4
def operationKnownFlags : UInt32 :=
  operationRequiresEffectAuthority ||| operationInformationSeeking ||| operationTerminalAct

def completionIncomplete : UInt32 := 1
def completionComplete : UInt32 := 2
def completionBlocked : UInt32 := 3

/-! ## Checks -/

/-- `HeaderValid` -/
def headerValid (header : Header) : Bool :=
  header.programId ≠ 0 ∧ header.goalId ≠ 0 ∧ header.bindingsFingerprint ≠ 0 ∧
    header.scopeFingerprint ≠ 0 ∧ header.worldId ≠ 0 ∧ header.timeFingerprint ≠ 0 ∧
    header.contextFingerprint ≠ 0 ∧ header.evidenceEpoch ≠ 0 ∧ header.authorityId ≠ 0 ∧
    header.resultContractFingerprint ≠ 0 ∧ header.version = guidanceVersion ∧ header.flags = 0

/-- `DispositionValid` -/
def dispositionValid (disposition : UInt32) : Bool :=
  disposition ≥ obligationOpen ∧ disposition ≤ obligationUnknown

/-- `TypedUnresolved` -/
def typedUnresolved (disposition : UInt32) : Bool :=
  disposition ≥ obligationUnsupported ∧ disposition ≤ obligationUnknown

/-- `ObligationValid` -/
def obligationValid (obligation : Obligation) : Bool :=
  if obligation.obligationId = 0 ∨ obligation.bindingFingerprint = 0 ∨ obligation.worldId = 0 ∨
      obligation.timeFingerprint = 0 ∨ obligation.contextFingerprint = 0 ∨
      obligation.evidenceBoundary = 0 ∨ obligation.authorityId = 0 ∨
      obligation.resultContractFingerprint = 0 ∨ obligation.kind = 0 ∨
      !dispositionValid obligation.disposition ∨
      obligation.flags &&& ~~~obligationKnownFlags ≠ 0 ∨ obligation.reserved ≠ 0 then false
  else if obligation.disposition = obligationOpen then
    obligation.valueId = 0 ∧ obligation.resolutionReceiptId = 0
  else if obligation.resolutionReceiptId = 0 then false
  else if obligation.disposition = obligationSatisfied then obligation.valueId ≠ 0
  else typedUnresolved obligation.disposition

/-- What `BuildState` compares with the header. -/
def obligationMatches (header : Header) (obligation : Obligation) : Bool :=
  obligation.worldId = header.worldId ∧ obligation.timeFingerprint = header.timeFingerprint ∧
    obligation.contextFingerprint = header.contextFingerprint ∧
    obligation.authorityId = header.authorityId ∧
    obligation.resultContractFingerprint = header.resultContractFingerprint

/-! ## Byte strings -/

/-- `HashHeader` -/
def headerBytes (header : Header) : List UInt8 :=
  header.programId.bytes ++ header.goalId.bytes ++ header.bindingsFingerprint.bytes ++
  header.scopeFingerprint.bytes ++ header.worldId.bytes ++ header.timeFingerprint.bytes ++
  header.contextFingerprint.bytes ++ header.evidenceEpoch.bytes ++ header.authorityId.bytes ++
  header.resultContractFingerprint.bytes ++ u32Bytes header.version ++ u32Bytes header.flags

/-- `HashObligation` -/
def obligationBytes (obligation : Obligation) : List UInt8 :=
  obligation.obligationId.bytes ++ obligation.valueId.bytes ++ obligation.bindingFingerprint.bytes ++
  obligation.worldId.bytes ++ obligation.timeFingerprint.bytes ++
  obligation.contextFingerprint.bytes ++ obligation.evidenceBoundary.bytes ++
  obligation.authorityId.bytes ++ obligation.resultContractFingerprint.bytes ++
  obligation.resolutionReceiptId.bytes ++ u32Bytes obligation.kind ++
  u32Bytes obligation.disposition ++ u32Bytes obligation.flags

/-- What `apply_resolutions` hashes of one resolution. -/
def resolutionBytes (resolution : Resolution) : List UInt8 :=
  resolution.obligationId.bytes ++ resolution.valueId.bytes ++ resolution.receiptId.bytes ++
  u32Bytes resolution.disposition

/-- What `select_operation` hashes of one operation. -/
def operationBytes (operation : Operation) (eligible : Bool) : List UInt8 :=
  operation.operationId.bytes ++ operation.targetObligationId.bytes ++
  operation.operandsFingerprint.bytes ++ operation.preconditionsFingerprint.bytes ++
  operation.predictedEffectFingerprint.bytes ++ operation.authorityId.bytes ++
  operation.receiptContractFingerprint.bytes ++ u64Bytes operation.expectedObligationReduction ++
  u64Bytes operation.informationValue ++ u64Bytes operation.resourceCost ++
  u64Bytes operation.novelty ++ u32Bytes operation.kind ++ u32Bytes operation.flags ++
  u32Bytes (if eligible then 1 else 0)

/-! ## States -/

def obligationKey (obligation : Obligation) : ℕ := obligation.obligationId.toNat

def resolutionKey (resolution : Resolution) : ℕ := resolution.obligationId.toNat

section States

variable (blake3 : Blake3)

/-- `IdentifyState` -/
def identifyState (header : Header) (obligations : List Obligation) : Digest256 :=
  blake3 (domainBytes "laplace-cognition-guidance-state-v1" ++ headerBytes header ++
    u64Bytes (UInt64.ofNat obligations.length) ++ obligations.flatMap obligationBytes)

/-- `BuildState` -/
def buildState (sort : Sorting obligationKey) (header : Header) (obligations : List Obligation)
    (memory : Bool) : Except GuidanceStatus GuidanceState :=
  if !headerValid header ∨ obligations = [] then .error .stateInvalid
  else if !memory then .error .memoryFailure
  else if !obligations.all fun obligation =>
      obligationValid obligation && obligationMatches header obligation then .error .stateInvalid
  else
    let sorted := sort.sort obligations
    if repeats obligationKey sorted then .error .duplicate
    else .ok ⟨header, identifyState blake3 header sorted, sorted⟩

/-- `laplace_cognition_guidance_state_create` -/
def stateCreate (sort : Sorting obligationKey) (header : Header) (obligations : List Obligation)
    (memory : Bool) : Except GuidanceStatus GuidanceState :=
  if obligations = [] then .error .invalidArgument
  else buildState blake3 sort header obligations memory

/-- `laplace_cognition_guidance_state_clone` -/
def stateClone (sort : Sorting obligationKey) (state : GuidanceState) (memory : Bool) :
    Except GuidanceStatus GuidanceState :=
  buildState blake3 sort state.header state.obligations memory

/-- `FindObligation` -/
def findObligation (state : GuidanceState) (obligationId : Digest256) : Option Obligation :=
  state.obligations[lowerBound obligationKey state.obligations obligationId.toNat]?.filter
    fun found => found.obligationId = obligationId

/-- How many obligations are open. -/
def openCount (obligations : List Obligation) : ℕ :=
  obligations.countP fun obligation => obligation.disposition = obligationOpen

/-- What an obligation does to the counters of `completion`. -/
inductive Requirement
  | met | pending | blocked
deriving DecidableEq, Repr

/-- The body of the loop of `completion`. -/
def requirement (obligation : Obligation) : Requirement :=
  if obligation.flags &&& obligationRequired = 0 then .met
  else if obligation.disposition = obligationSatisfied then .met
  else if obligation.disposition = obligationOpen then .pending
  else if typedUnresolved obligation.disposition ∧
      obligation.flags &&& obligationAllowTypedUnresolved ≠ 0 then .met
  else .blocked

/-- `laplace_cognition_guidance_completion`: the completion and the remaining required count. A
counter does not overflow, because there are fewer obligations than words. -/
def completion (state : GuidanceState) : UInt32 × UInt64 :=
  let pending := state.obligations.countP fun obligation => requirement obligation = .pending
  let blocked := state.obligations.countP fun obligation => requirement obligation = .blocked
  (if blocked ≠ 0 then completionBlocked
   else if pending ≠ 0 then completionIncomplete
   else completionComplete, UInt64.ofNat (pending + blocked))

/-- `laplace_cognition_guidance_project_queries` with room for all projections -/
def projectQueries (state : GuidanceState) : List QueryProjection :=
  (state.obligations.filter fun obligation => obligation.disposition = obligationOpen).map
    fun obligation =>
      { projectionId := blake3 (domainBytes "laplace-cognition-guidance-projection-v1" ++
          state.stateId.bytes ++ obligationBytes obligation)
        obligationId := obligation.obligationId
        bindingFingerprint := obligation.bindingFingerprint
        worldId := obligation.worldId
        timeFingerprint := obligation.timeFingerprint
        contextFingerprint := obligation.contextFingerprint
        evidenceBoundary := obligation.evidenceBoundary
        authorityId := obligation.authorityId
        resultContractFingerprint := obligation.resultContractFingerprint
        queryKind := obligation.kind
        obligationFlags := obligation.flags }

/-! ## Resolutions -/

/-- The checks of `apply_resolutions` on one resolution. -/
def resolutionValid (resolution : Resolution) : Bool :=
  resolution.obligationId ≠ 0 ∧ resolution.receiptId ≠ 0 ∧ resolution.flags = 0 ∧
    resolution.disposition ≠ obligationOpen ∧ dispositionValid resolution.disposition ∧
    ¬ (resolution.disposition = obligationSatisfied ∧ resolution.valueId = 0)

/-- The loop over the sorted resolutions; `previous` is `ordered[index - 1]`. -/
def checkResolutions : Option Resolution → List Resolution → Except GuidanceStatus Unit
  | _, [] => .ok ()
  | previous, resolution :: resolutions =>
    if !resolutionValid resolution then .error .stateInvalid
    else if previous.any fun previous => previous.obligationId = resolution.obligationId then
      .error .duplicate
    else checkResolutions (some resolution) resolutions

/-- What a resolution writes into an obligation. -/
def resolve (resolution : Resolution) (obligation : Obligation) : Obligation :=
  { obligation with
    valueId := resolution.valueId
    resolutionReceiptId := resolution.receiptId
    disposition := resolution.disposition }

/-- The body of the loop that updates the obligations. -/
def applyResolution (updated : List Obligation) (resolution : Resolution) :
    Except GuidanceStatus (List Obligation) :=
  let index := lowerBound obligationKey updated resolution.obligationId.toNat
  match updated[index]? with
  | none => .error .range
  | some found =>
    if found.obligationId ≠ resolution.obligationId then .error .range
    else if found.disposition ≠ obligationOpen then .error .conflict
    else .ok (updated.set index (resolve resolution found))

/-- Whether there is memory for the two copies and for the next state. -/
structure ApplyMemory where
  ordered : Bool
  updated : Bool
  state : Bool
deriving DecidableEq

/-- What `apply_resolutions` gives back. -/
structure Applied where
  status : GuidanceStatus
  nextState : Option GuidanceState := none
  receipt : TransitionReceipt := {}
deriving DecidableEq

/-- `laplace_cognition_guidance_apply_resolutions` -/
def applyResolutions (sortResolutions : Sorting resolutionKey) (sort : Sorting obligationKey)
    (state : GuidanceState) (resolutions : List Resolution) (memory : ApplyMemory) : Applied :=
  if resolutions = [] then { status := .invalidArgument }
  else if !memory.ordered then { status := .memoryFailure }
  else
    let ordered := sortResolutions.sort resolutions
    match checkResolutions none ordered with
    | .error status => { status }
    | .ok () =>
      if !memory.updated then { status := .memoryFailure }
      else
        match ordered.foldlM applyResolution state.obligations with
        | .error status => { status }
        | .ok updated =>
          match buildState blake3 sort state.header updated memory.state with
          | .error status => { status }
          | .ok nextState =>
            let receipt : TransitionReceipt :=
              { resolutionSetFingerprint :=
                  blake3 (domainBytes "laplace-cognition-guidance-transition-v1" ++
                    state.stateId.bytes ++ ordered.flatMap resolutionBytes)
                priorStateId := state.stateId
                nextStateId := nextState.stateId
                appliedResolutionCount := UInt64.ofNat resolutions.length
                remainingOpenCount := UInt64.ofNat (openCount nextState.obligations)
                completion := (completion nextState).1 }
            { status := .ok
              nextState := some nextState
              receipt := { receipt with
                transitionReceiptId :=
                  blake3 (domainBytes "laplace-cognition-guidance-transition-v1" ++
                    receipt.priorStateId.bytes ++ receipt.nextStateId.bytes ++
                    receipt.resolutionSetFingerprint.bytes ++
                    u64Bytes receipt.appliedResolutionCount ++
                    u64Bytes receipt.remainingOpenCount ++ u32Bytes receipt.completion) } }

end States

/-! ## The scheduler -/

/-- `OperationBasicValid` -/
def operationBasicValid (operation : Operation) : Bool :=
  if operation.operationId = 0 ∨ operation.operandsFingerprint = 0 ∨
      operation.preconditionsFingerprint = 0 ∨ operation.predictedEffectFingerprint = 0 ∨
      operation.authorityId = 0 ∨ operation.receiptContractFingerprint = 0 ∨
      operation.kind < operationStructuralCalculation ∨ operation.kind > operationExecute ∨
      operation.flags &&& ~~~operationKnownFlags ≠ 0 then false
  else
    let information := operation.kind ≥ operationStructuralCalculation ∧
      operation.kind ≤ operationClarification
    let terminal := operation.kind ≥ operationAnswer
    if information ∧ operation.flags &&& operationInformationSeeking = 0 then false
    else if terminal ∧ operation.flags &&& operationTerminalAct = 0 then false
    else true

/-- `OperationEligible` -/
def operationEligible (state : GuidanceState) (operation : Operation) (completion : UInt32) : Bool :=
  if !operationBasicValid operation then false
  else if operation.flags &&& operationRequiresEffectAuthority ≠ 0 ∧
      operation.authorityId ≠ state.header.authorityId then false
  else if operation.kind ≥ operationAnswer then completion = completionComplete
  else if operation.targetObligationId = 0 then false
  else
    match findObligation state operation.targetObligationId with
    | none => false
    | some obligation =>
      if obligation.disposition ≠ obligationOpen ∨
          operation.authorityId ≠ obligation.authorityId then false
      else if operation.kind = operationExplicitUnresolved ∧
          obligation.flags &&& obligationAllowTypedUnresolved = 0 then false
      else true

/-- `OperationBetter` -/
def operationBetter (left right : Operation) : Bool :=
  if left.expectedObligationReduction ≠ right.expectedObligationReduction then
    left.expectedObligationReduction > right.expectedObligationReduction
  else if left.informationValue ≠ right.informationValue then
    left.informationValue > right.informationValue
  else if left.resourceCost ≠ right.resourceCost then left.resourceCost < right.resourceCost
  else if left.kind ≠ right.kind then left.kind < right.kind
  else left.operationId < right.operationId

/-- `laplace_cognition_guidance_select_operation` -/
def selectOperation (blake3 : Blake3) (state : GuidanceState)
    (operations : List Operation) : GuidanceStatus × Decision :=
  if operations = [] then (.invalidArgument, {})
  else
    let eligible := fun operation => operationEligible state operation (completion state).1
    let hasher := domainBytes "laplace-cognition-guidance-decision-v1" ++ state.stateId.bytes ++
      operations.flatMap fun operation => operationBytes operation (eligible operation)
    let selected := (operations.filter eligible).foldl (fun selected operation =>
      match selected with
      | none => some operation
      | some best => if operationBetter operation best then some operation else some best) none
    let decision : Decision :=
      { stateId := state.stateId
        eligibleOperationCount := UInt64.ofNat (operations.countP eligible)
        rejectedOperationCount := UInt64.ofNat (operations.countP fun operation =>
          !eligible operation) }
    match selected with
    | none => (.noOperation, { decision with decisionReceiptId := blake3 hasher, status := .noOperation })
    | some selected =>
      (.ok, { decision with
          selectedOperationId := selected.operationId
          selectedExpectedObligationReduction := selected.expectedObligationReduction
          selectedInformationValue := selected.informationValue
          selectedResourceCost := selected.resourceCost
          selectedKind := selected.kind
          decisionReceiptId := blake3 (hasher ++ selected.operationId.bytes) })

end Laplace.Cognition
