import Laplace.Cognition.Guidance
import Laplace.Lib.Checked
import Laplace.Lib.Program

/-!
# Forward passes (cognition_forward_pass_part00-02.inc)

A pass asks a provider for operations, lets the scheduler pick one, asks the provider to execute it
and applies the resolutions it hands back: one layer. The provider is any two functions of its own
state. Where the source allocates, a flag says whether there is memory. The totals that a grant is
computed from are kept in `granted`, and the provider's answers in `calls`. The null pointer checks
are gone, and so is the test of a capacity against the largest `size_t`, which no 64-bit word
exceeds.
-/

namespace Laplace.Cognition

open Laplace.Checked Program

/-! ## Data -/

inductive ForwardStatus
  | ok | invalidArgument | programInvalid | guidanceFailure | providerContract | memoryFailure
  | overflow | range
deriving DecidableEq, Repr

/-- `laplace_cognition_forward_program` -/
structure ForwardProgram where
  programId : Digest256
  resultContractFingerprint : Digest256
  maxLayers : UInt64
  maxProviderCalls : UInt64
  maxProjectedQueries : UInt64
  maxCandidateOperations : UInt64
  maxResolutions : UInt64
  maxResourceCost : UInt64
  maxIoOperations : UInt64
  maxDatabaseOperations : UInt64
  candidateOperationCapacity : UInt32
  resolutionCapacity : UInt32
  flags : UInt32
  version : UInt32
  reserved : UInt32

/-- `laplace_cognition_forward_grant` -/
structure Grant where
  remainingResourceCost : UInt64
  remainingIoOperations : UInt64
  remainingDatabaseOperations : UInt64
  remainingCandidateOperations : UInt64
  remainingResolutions : UInt64
  remainingProviderCalls : UInt64
  remainingLayers : UInt64

/-- `laplace_cognition_forward_enumeration_receipt` -/
structure EnumerationReceipt where
  receiptId : Digest256
  stateId : Digest256
  projectionFingerprint : Digest256
  projectedQueryCount : UInt64
  candidateOperationCount : UInt64
  resourceCost : UInt64
  ioOperations : UInt64
  databaseOperations : UInt64
  status : UInt32
  flags : UInt32

/-- `laplace_cognition_forward_execution_receipt` -/
structure ExecutionReceipt where
  receiptId : Digest256
  stateId : Digest256
  operationId : Digest256
  resultFingerprint : Digest256
  resolutionCount : UInt64
  resourceCost : UInt64
  ioOperations : UInt64
  databaseOperations : UInt64
  status : UInt32
  flags : UInt32

/-- What `enumerate` leaves: its return value, what it wrote to the front of the buffer, and the
two results. -/
structure Enumeration where
  status : Int32
  operations : List Operation
  operationCount : UInt64
  receipt : EnumerationReceipt

/-- What `execute` leaves. -/
structure Execution where
  status : Int32
  resolutions : List Resolution
  resolutionCount : UInt64
  receipt : ExecutionReceipt

/-- `laplace_cognition_forward_provider_v1`; the functions get the provider's state and give back
the next one. -/
structure Provider (σ : Type) where
  enumerate : σ → GuidanceState → List QueryProjection → Grant → UInt64 → Enumeration × σ
  execute : σ → GuidanceState → Operation → List QueryProjection → Grant → UInt64 → Execution × σ
  abiMajor : UInt16
  abiMinor : UInt16
  flags : UInt32
  reserved : UInt32

/-- `laplace_cognition_forward_layer_receipt` -/
structure LayerReceipt where
  layerReceiptId : Digest256 := 0
  priorStateId : Digest256
  projectionFingerprint : Digest256
  enumerationReceiptId : Digest256
  decisionReceiptId : Digest256
  selectedOperationId : Digest256
  executionReceiptId : Digest256
  resolutionSetFingerprint : Digest256
  nextStateId : Digest256
  projectedQueryCount : UInt64
  candidateOperationCount : UInt64
  eligibleOperationCount : UInt64
  resolutionCount : UInt64
  remainingOpenCount : UInt64
  resourceCost : UInt64
  ioOperations : UInt64
  databaseOperations : UInt64
  selectedKind : UInt32
  completion : UInt32
  status : UInt32 := 0
  flags : UInt32 := 0

/-- `laplace_cognition_forward_receipt` -/
structure ForwardReceipt where
  receiptId : Digest256 := 0
  programFingerprint : Digest256 := 0
  initialStateId : Digest256 := 0
  finalStateId : Digest256 := 0
  layerTraceFingerprint : Digest256 := 0
  outputFingerprint : Digest256 := 0
  layerCount : UInt64 := 0
  providerCallCount : UInt64 := 0
  projectedQueryCount : UInt64 := 0
  candidateOperationCount : UInt64 := 0
  resolutionCount : UInt64 := 0
  resourceCost : UInt64 := 0
  ioOperations : UInt64 := 0
  databaseOperations : UInt64 := 0
  finalRemainingRequiredCount : UInt64 := 0
  finalCompletion : UInt32 := 0
  disposition : UInt32 := 0
  status : ForwardStatus := .ok
  version : UInt32 := 0
  flags : UInt32 := 0

/-- `laplace_cognition_forward_result` -/
structure ForwardResult where
  finalState : GuidanceState
  layers : List LayerReceipt
  receipt : ForwardReceipt

/-- A total that `Accumulate` adds to. -/
inductive Budget
  | resourceCost | ioOperations | databaseOperations | candidateOperations | resolutions
deriving DecidableEq

def Budget.total : Budget → ForwardReceipt → UInt64
  | .resourceCost => ForwardReceipt.resourceCost
  | .ioOperations => ForwardReceipt.ioOperations
  | .databaseOperations => ForwardReceipt.databaseOperations
  | .candidateOperations => ForwardReceipt.candidateOperationCount
  | .resolutions => ForwardReceipt.resolutionCount

def Budget.store (receipt : ForwardReceipt) (next : UInt64) : Budget → ForwardReceipt
  | .resourceCost => { receipt with resourceCost := next }
  | .ioOperations => { receipt with ioOperations := next }
  | .databaseOperations => { receipt with databaseOperations := next }
  | .candidateOperations => { receipt with candidateOperationCount := next }
  | .resolutions => { receipt with resolutionCount := next }

def Budget.maximum (program : ForwardProgram) : Budget → UInt64
  | .resourceCost => program.maxResourceCost
  | .ioOperations => program.maxIoOperations
  | .databaseOperations => program.maxDatabaseOperations
  | .candidateOperations => program.maxCandidateOperations
  | .resolutions => program.maxResolutions

/-- A call of the provider: its answer, and whether that was accepted. -/
inductive ProviderCall
  | enumerated (enumeration : Enumeration) (accepted : Bool)
  | executed (execution : Execution) (accepted : Bool)

/-! ## Contract -/

def forwardVersion : UInt32 := 1
def providerAbiMajor : UInt16 := 1
def providerAbiMinor : UInt16 := 0

def forwardComplete : UInt32 := 1
def forwardLayerLimit : UInt32 := 2
def forwardProviderLimit : UInt32 := 3
def forwardResourceLimit : UInt32 := 4
def forwardNoOperation : UInt32 := 5
def forwardBlocked : UInt32 := 6
def forwardProviderFailure : UInt32 := 7

def requireStateProgress : UInt32 := 1
def requireProjectedQueryConsumption : UInt32 := 2
def requireReceiptedExecution : UInt32 := 4
def forwardKnownFlags : UInt32 :=
  requireStateProgress ||| requireProjectedQueryConsumption ||| requireReceiptedExecution

/-- `ProgramValid` -/
def programValid (program : ForwardProgram) : Bool :=
  program.programId ≠ 0 ∧ program.resultContractFingerprint ≠ 0 ∧ program.maxLayers ≠ 0 ∧
    program.maxProviderCalls ≠ 0 ∧ program.maxProjectedQueries ≠ 0 ∧
    program.maxCandidateOperations ≠ 0 ∧ program.maxResolutions ≠ 0 ∧
    program.maxResourceCost ≠ 0 ∧ program.maxIoOperations ≠ 0 ∧
    program.maxDatabaseOperations ≠ 0 ∧ program.candidateOperationCapacity ≠ 0 ∧
    program.resolutionCapacity ≠ 0 ∧ program.flags &&& ~~~forwardKnownFlags = 0 ∧
    program.version = forwardVersion ∧ program.reserved = 0

/-- `Grant` -/
def grant (program : ForwardProgram) (receipt : ForwardReceipt) : Grant where
  remainingResourceCost := program.maxResourceCost - receipt.resourceCost
  remainingIoOperations := program.maxIoOperations - receipt.ioOperations
  remainingDatabaseOperations := program.maxDatabaseOperations - receipt.databaseOperations
  remainingCandidateOperations := program.maxCandidateOperations - receipt.candidateOperationCount
  remainingResolutions := program.maxResolutions - receipt.resolutionCount
  remainingProviderCalls := program.maxProviderCalls - receipt.providerCallCount
  remainingLayers := program.maxLayers - receipt.layerCount

/-- `ReceiptCostFits` -/
def receiptCostFits (grant : Grant) (resourceCost ioOperations databaseOperations : UInt64) : Bool :=
  resourceCost ≤ grant.remainingResourceCost ∧ ioOperations ≤ grant.remainingIoOperations ∧
    databaseOperations ≤ grant.remainingDatabaseOperations

def operationKey (operation : Operation) : ℕ := operation.operationId.toNat

/-- The check of `CandidateSetCanonicalize` on the sorted operations. -/
def candidatesCanonical (operations : List Operation) : Bool :=
  operations.all (fun operation => operation.operationId ≠ 0) && !repeats operationKey operations

/-- A buffer of zeros after a callback, cut to the count that it returned. -/
def received {α : Type} (zero : α) (written : List α) (count : UInt64) : List α :=
  (written ++ List.replicate count.toNat zero).take count.toNat

def zeroOperation : Operation := ⟨0, 0, 0, 0, 0, 0, 0, 0, 0, 0, 0, 0, 0⟩

def zeroResolution : Resolution := ⟨0, 0, 0, 0, 0⟩

/-! ## Byte strings -/

/-- What `HashProgram` hashes. -/
def programBytes (program : ForwardProgram) : List UInt8 :=
  domainBytes "laplace-cognition-forward-program-v1" ++ program.programId.bytes ++
  program.resultContractFingerprint.bytes ++ u64Bytes program.maxLayers ++
  u64Bytes program.maxProviderCalls ++ u64Bytes program.maxProjectedQueries ++
  u64Bytes program.maxCandidateOperations ++ u64Bytes program.maxResolutions ++
  u64Bytes program.maxResourceCost ++ u64Bytes program.maxIoOperations ++
  u64Bytes program.maxDatabaseOperations ++ u32Bytes program.candidateOperationCapacity ++
  u32Bytes program.resolutionCapacity ++ u32Bytes program.flags ++ u32Bytes program.version

/-- `HashProjection` -/
def projectionBytes (projection : QueryProjection) : List UInt8 :=
  projection.projectionId.bytes ++ projection.obligationId.bytes ++
  projection.bindingFingerprint.bytes ++ projection.worldId.bytes ++
  projection.timeFingerprint.bytes ++ projection.contextFingerprint.bytes ++
  projection.evidenceBoundary.bytes ++ projection.authorityId.bytes ++
  projection.resultContractFingerprint.bytes ++ u32Bytes projection.queryKind ++
  u32Bytes projection.obligationFlags

/-- What `ProjectionFingerprint` hashes. -/
def projectionSetBytes (stateId : Digest256) (projections : List QueryProjection) : List UInt8 :=
  domainBytes "laplace-cognition-forward-enumeration-v1" ++ stateId.bytes ++
  u64Bytes (UInt64.ofNat projections.length) ++ projections.flatMap projectionBytes

/-- What `HashLayer` hashes. -/
def layerBytes (layer : LayerReceipt) : List UInt8 :=
  domainBytes "laplace-cognition-forward-layer-v1" ++ layer.priorStateId.bytes ++
  layer.projectionFingerprint.bytes ++ layer.enumerationReceiptId.bytes ++
  layer.decisionReceiptId.bytes ++ layer.selectedOperationId.bytes ++
  layer.executionReceiptId.bytes ++ layer.resolutionSetFingerprint.bytes ++
  layer.nextStateId.bytes ++ u64Bytes layer.projectedQueryCount ++
  u64Bytes layer.candidateOperationCount ++ u64Bytes layer.eligibleOperationCount ++
  u64Bytes layer.resolutionCount ++ u64Bytes layer.remainingOpenCount ++
  u64Bytes layer.resourceCost ++ u64Bytes layer.ioOperations ++
  u64Bytes layer.databaseOperations ++ u32Bytes layer.selectedKind ++
  u32Bytes layer.completion ++ u32Bytes layer.status ++ u32Bytes layer.flags

/-- The totals that `Finalize` hashes into both of its digests. -/
def totalBytes (receipt : ForwardReceipt) : List UInt8 :=
  u64Bytes receipt.layerCount ++ u64Bytes receipt.providerCallCount ++
  u64Bytes receipt.projectedQueryCount ++ u64Bytes receipt.candidateOperationCount ++
  u64Bytes receipt.resolutionCount ++ u64Bytes receipt.resourceCost ++
  u64Bytes receipt.ioOperations ++ u64Bytes receipt.databaseOperations ++
  u64Bytes receipt.finalRemainingRequiredCount ++ u32Bytes receipt.finalCompletion ++
  u32Bytes receipt.disposition

def forwardOutputBytes (receipt : ForwardReceipt) : List UInt8 :=
  domainBytes "laplace-cognition-forward-output-v1" ++ receipt.programFingerprint.bytes ++
  receipt.initialStateId.bytes ++ receipt.finalStateId.bytes ++
  receipt.layerTraceFingerprint.bytes ++ totalBytes receipt

def forwardReceiptBytes (receipt : ForwardReceipt) : List UInt8 :=
  domainBytes "laplace-cognition-forward-receipt-v1" ++ receipt.programFingerprint.bytes ++
  receipt.initialStateId.bytes ++ receipt.finalStateId.bytes ++
  receipt.layerTraceFingerprint.bytes ++ receipt.outputFingerprint.bytes ++ totalBytes receipt ++
  u32Bytes (UInt32.ofNat receipt.status.ctorIdx) ++ u32Bytes receipt.version ++
  u32Bytes receipt.flags

/-! ## A pass -/

/-- Why a pass ends: with a status (`hard_status`), with a disposition, with an exception, or
because the fuel of the model is used up. -/
inductive PassExit
  | hard (status : ForwardStatus)
  | disposed (disposition : UInt32)
  | badAlloc
  | outOfFuel
deriving DecidableEq, Repr

/-- The fields of `ForwardPass` and of the result it fills, the provider's state, the totals that the
grants were computed from, and the calls of the provider. -/
structure Pass (σ : Type) where
  providerState : σ
  finalState : GuidanceState
  layers : List LayerReceipt := []
  receipt : ForwardReceipt
  traceHasher : List UInt8
  granted : List ForwardReceipt := []
  calls : List ProviderCall := []

abbrev Passing (σ : Type) := Program (Pass σ) PassExit

/-- Whether there is memory for the vectors of a layer. -/
structure LayerMemory where
  projections : Bool
  operations : Bool
  schedulable : Bool
  resolutions : Bool
  apply : ApplyMemory
  layers : Bool

section Layer

variable {σ : Type} (program : ForwardProgram)

/-- `Grant` with the totals so far. -/
def takeGrant : Passing σ Grant := do
  let pass ← get
  modify fun pass => { pass with granted := pass.granted ++ [pass.receipt] }
  return grant program pass.receipt

/-- A call of the provider, with the note that is kept of it. -/
def callProvider {α : Type} (answer : σ → GuidanceState → α × σ) (note : α → ProviderCall) :
    Passing σ α := do
  let pass ← get
  let answered := answer pass.providerState pass.finalState
  modify fun pass => { pass with
    providerState := answered.2
    receipt.providerCallCount := pass.receipt.providerCallCount + 1
    calls := pass.calls ++ [note answered.1] }
  return answered.1

/-- `Accumulate` -/
def accumulate (budget : Budget) (value : UInt64) : Passing σ Unit := do
  let pass ← get
  match checkedAdd (budget.total pass.receipt) value with
  | none => throw (.hard .providerContract)
  | some next =>
    require (next ≤ budget.maximum program) (.hard .providerContract)
    modify fun pass => { pass with receipt := budget.store pass.receipt next }

/-- The costs of a call of the provider. -/
def accumulateCosts (resourceCost ioOperations databaseOperations : UInt64) : Passing σ Unit := do
  accumulate program .resourceCost resourceCost
  accumulate program .ioOperations ioOperations
  accumulate program .databaseOperations databaseOperations

/-- The check of an enumeration that has not failed. -/
def enumerationAccepted (stateId fingerprint : Digest256) (projectionCount : UInt64)
    (granted : Grant) (capacity : UInt64) (enumeration : Enumeration) : Bool :=
  let receipt := enumeration.receipt
  enumeration.operationCount ≤ capacity ∧ receipt.receiptId ≠ 0 ∧
    receipt.status = 0 ∧ receipt.flags = 0 ∧ receipt.stateId = stateId ∧
    receipt.projectionFingerprint = fingerprint ∧ receipt.projectedQueryCount = projectionCount ∧
    receipt.candidateOperationCount = enumeration.operationCount ∧
    receiptCostFits granted receipt.resourceCost receipt.ioOperations receipt.databaseOperations

/-- The check of an execution that has not failed. -/
def executionAccepted (stateId operationId : Digest256) (granted : Grant) (capacity : UInt64)
    (execution : Execution) : Bool :=
  let receipt := execution.receipt
  execution.resolutionCount ≠ 0 ∧ execution.resolutionCount ≤ capacity ∧
    receipt.receiptId ≠ 0 ∧ receipt.resultFingerprint ≠ 0 ∧ receipt.status = 0 ∧
    receipt.flags = 0 ∧ receipt.stateId = stateId ∧ receipt.operationId = operationId ∧
    receipt.resolutionCount = execution.resolutionCount ∧
    receiptCostFits granted receipt.resourceCost receipt.ioOperations receipt.databaseOperations

variable (blake3 : Blake3)

/-- `ExecuteLayer` up to the fingerprint: the queries of the open obligations. -/
def projectLayer (memory : LayerMemory) : Passing σ (List QueryProjection) := do
  let pass ← get
  require memory.projections .badAlloc
  let projections := projectQueries blake3 pass.finalState
  let projectionCount := UInt64.ofNat projections.length
  require (projections ≠ []) (.hard .providerContract)
  require
    (projectionCount ≤ program.maxProjectedQueries - pass.receipt.projectedQueryCount)
    (.disposed forwardResourceLimit)
  modify fun pass => { pass with
    receipt.projectedQueryCount := pass.receipt.projectedQueryCount + projectionCount }
  return projections

/-- `ExecuteLayer` up to the candidates: what the provider enumerates, in the order of ids. -/
def enumerateLayer (provider : Provider σ) (sortOperations : Sorting operationKey)
    (memory : LayerMemory) (projections : List QueryProjection) (fingerprint : Digest256) :
    Passing σ (EnumerationReceipt × List Operation) := do
  let pass ← get
  require (pass.receipt.providerCallCount < program.maxProviderCalls)
    (.disposed forwardProviderLimit)
  let granted ← takeGrant program
  let capacity := min program.candidateOperationCapacity.toUInt64
    granted.remainingCandidateOperations
  require (capacity ≠ 0) (.disposed forwardResourceLimit)
  require memory.operations .badAlloc
  let accepted := enumerationAccepted pass.finalState.stateId fingerprint
    (UInt64.ofNat projections.length) granted capacity
  let enumeration ← callProvider
    (fun providerState state => provider.enumerate providerState state projections granted capacity)
    fun enumeration => .enumerated enumeration (enumeration.status = 0 && accepted enumeration)
  let receipt := enumeration.receipt
  require (enumeration.status = 0) (.disposed forwardProviderFailure)
  require (accepted enumeration) (.hard .providerContract)
  accumulateCosts program receipt.resourceCost receipt.ioOperations receipt.databaseOperations
  accumulate program .candidateOperations enumeration.operationCount
  let operations := sortOperations.sort
    (received zeroOperation enumeration.operations enumeration.operationCount)
  require (candidatesCanonical operations) (.hard .providerContract)
  require (operations ≠ []) (.disposed forwardNoOperation)
  return (receipt, operations)

/-- `ExecuteLayer` up to the selected operation. -/
def scheduleLayer (memory : LayerMemory) (operations : List Operation) :
    Passing σ (Decision × Operation) := do
  let pass ← get
  let granted ← takeGrant program
  require memory.schedulable .badAlloc
  let schedulable := operations.filter fun operation =>
    operation.resourceCost ≤ granted.remainingResourceCost
  require (schedulable ≠ []) (.disposed forwardResourceLimit)
  let decided := selectOperation blake3 pass.finalState schedulable
  let decision := decided.2
  require (decided.1 ≠ .noOperation) (.disposed forwardNoOperation)
  require (decided.1 = .ok ∧ decision.decisionReceiptId ≠ 0 ∧
    decision.selectedOperationId ≠ 0 ∧ decision.stateId = pass.finalState.stateId)
    (.hard .guidanceFailure)
  match (schedulable[lowerBound operationKey schedulable
      decision.selectedOperationId.toNat]?).filter fun operation =>
        operation.operationId = decision.selectedOperationId with
  | none => throw (.hard .providerContract)
  | some selected => return (decision, selected)

/-- `ExecuteLayer` up to the resolutions: what the provider's execution hands back. -/
def runLayer (provider : Provider σ) (memory : LayerMemory) (selected : Operation)
    (projections : List QueryProjection) : Passing σ (ExecutionReceipt × List Resolution) := do
  let pass ← get
  require (pass.receipt.providerCallCount < program.maxProviderCalls)
    (.disposed forwardProviderLimit)
  let granted ← takeGrant program
  let capacity := min program.resolutionCapacity.toUInt64 granted.remainingResolutions
  require (capacity ≠ 0) (.disposed forwardResourceLimit)
  require memory.resolutions .badAlloc
  let accepted := executionAccepted pass.finalState.stateId selected.operationId granted capacity
  let execution ← callProvider
    (fun providerState state =>
      provider.execute providerState state selected projections granted capacity)
    fun execution => .executed execution (execution.status = 0 && accepted execution)
  let receipt := execution.receipt
  require (execution.status = 0) (.disposed forwardProviderFailure)
  require (accepted execution) (.hard .providerContract)
  accumulateCosts program receipt.resourceCost receipt.ioOperations receipt.databaseOperations
  accumulate program .resolutions execution.resolutionCount
  return (receipt, received zeroResolution execution.resolutions execution.resolutionCount)

/-- `ExecuteLayer` to its end: apply the resolutions and record the layer. `record` makes the
receipt of the layer from the transition. -/
def advanceLayer (sortResolutions : Sorting resolutionKey) (sort : Sorting obligationKey)
    (memory : LayerMemory) (resolutions : List Resolution)
    (record : TransitionReceipt → LayerReceipt) : Passing σ Unit := do
  let pass ← get
  let applied := applyResolutions blake3 sortResolutions sort pass.finalState resolutions memory.apply
  let transition := applied.receipt
  match applied.nextState with
  | none => throw (.hard .guidanceFailure)
  | some nextState =>
    require (applied.status = .ok ∧ transition.transitionReceiptId ≠ 0 ∧
      transition.priorStateId = pass.finalState.stateId ∧
      transition.appliedResolutionCount = UInt64.ofNat resolutions.length) (.hard .guidanceFailure)
    require (program.flags &&& requireStateProgress = 0 ∨
      transition.priorStateId ≠ transition.nextStateId) (.hard .providerContract)
    require memory.layers .badAlloc
    let layer := record transition
    let layer := { layer with layerReceiptId := blake3 (layerBytes layer) }
    let layers := pass.layers ++ [layer]
    modify fun pass => { pass with
      finalState := nextState
      layers
      receipt.layerCount := UInt64.ofNat layers.length
      traceHasher := pass.traceHasher ++ layer.layerReceiptId.bytes }

/-- `ExecuteLayer` -/
def executeLayer (provider : Provider σ) (sortOperations : Sorting operationKey)
    (sortResolutions : Sorting resolutionKey) (sort : Sorting obligationKey)
    (memory : LayerMemory) : Passing σ Unit := do
  let pass ← get
  let stateId := pass.finalState.stateId
  let projections ← projectLayer program blake3 memory
  let fingerprint := blake3 (projectionSetBytes stateId projections)
  let (enumeration, operations) ←
    enumerateLayer program provider sortOperations memory projections fingerprint
  let (decision, selected) ← scheduleLayer program blake3 memory operations
  let (execution, resolutions) ← runLayer program provider memory selected projections
  advanceLayer program blake3 sortResolutions sort memory resolutions fun transition =>
    { priorStateId := stateId
      projectionFingerprint := fingerprint
      enumerationReceiptId := enumeration.receiptId
      decisionReceiptId := decision.decisionReceiptId
      selectedOperationId := decision.selectedOperationId
      executionReceiptId := execution.receiptId
      resolutionSetFingerprint := transition.resolutionSetFingerprint
      nextStateId := transition.nextStateId
      projectedQueryCount := UInt64.ofNat projections.length
      candidateOperationCount := UInt64.ofNat operations.length
      eligibleOperationCount := decision.eligibleOperationCount
      resolutionCount := UInt64.ofNat resolutions.length
      remainingOpenCount := transition.remainingOpenCount
      resourceCost := enumeration.resourceCost + execution.resourceCost
      ioOperations := enumeration.ioOperations + execution.ioOperations
      databaseOperations := enumeration.databaseOperations + execution.databaseOperations
      selectedKind := decision.selectedKind
      completion := transition.completion }

/-- The head of the loop of `Run`: the disposition of a pass that ends here, or zero. -/
def headDisposition (pass : Pass σ) : UInt32 :=
  let completed := (completion pass.finalState).1
  if completed = completionComplete then forwardComplete
  else if completed = completionBlocked then forwardBlocked
  else if pass.receipt.layerCount ≥ program.maxLayers then forwardLayerLimit
  else if pass.receipt.providerCallCount ≥ program.maxProviderCalls then forwardProviderLimit
  else 0

/-- The loop of `Run`. It is left by an exit only; `memory` is what the layer of each number
finds. -/
def runLayers (provider : Provider σ) (sortOperations : Sorting operationKey)
    (sortResolutions : Sorting resolutionKey) (sort : Sorting obligationKey)
    (memory : ℕ → LayerMemory) : ℕ → Passing σ Unit
  | 0 => throw .outOfFuel
  | fuel + 1 => do
    let pass ← get
    let disposition := headDisposition program pass
    require (disposition = 0) (.disposed disposition)
    executeLayer program blake3 provider sortOperations sortResolutions sort
      (memory pass.layers.length)
    runLayers provider sortOperations sortResolutions sort memory fuel

/-- `ForwardPass::Finalize` -/
def finalize (pass : Pass σ) (disposition : UInt32) : ForwardReceipt :=
  let receipt := { pass.receipt with
    finalStateId := pass.finalState.stateId
    finalCompletion := (completion pass.finalState).1
    finalRemainingRequiredCount := (completion pass.finalState).2
    disposition := disposition
    flags := program.flags
    version := forwardVersion
    status := .ok
    layerTraceFingerprint := blake3 pass.traceHasher }
  let receipt := { receipt with outputFingerprint := blake3 (forwardOutputBytes receipt) }
  { receipt with receiptId := blake3 (forwardReceiptBytes receipt) }

/-- What `laplace_cognition_forward_pass_execute` gives back, and what the pass has kept. -/
structure Executed where
  status : ForwardStatus
  receipt : ForwardReceipt
  result : Option ForwardResult := none
  granted : List ForwardReceipt := []
  calls : List ProviderCall := []

/-- Whether there is memory for the result and for the copy of the initial state. -/
structure PassMemory where
  result : Bool
  clone : Bool
  layers : ℕ → LayerMemory

/-- The pass before its first layer. -/
def initialPass (providerState : σ) (state : GuidanceState) (receipt : ForwardReceipt) : Pass σ :=
  { providerState
    finalState := state
    receipt := { receipt with initialStateId := state.stateId }
    traceHasher := domainBytes "laplace-cognition-forward-layer-v1" ++
      receipt.programFingerprint.bytes ++ state.stateId.bytes }

/-- The end of `laplace_cognition_forward_pass_execute`; nothing when the fuel is used up. -/
def conclude : Except PassExit Unit × Pass σ → Option Executed
  | (.error .outOfFuel, _) | (.ok (), _) => none
  | (.error (.hard status), pass) =>
    some ⟨status, { pass.receipt with status }, none, pass.granted, pass.calls⟩
  | (.error .badAlloc, pass) =>
    let status := ForwardStatus.memoryFailure
    some ⟨status, { pass.receipt with status }, none, pass.granted, pass.calls⟩
  | (.error (.disposed disposition), pass) =>
    let receipt := finalize program blake3 pass disposition
    some ⟨.ok, receipt, some ⟨pass.finalState, pass.layers, receipt⟩, pass.granted, pass.calls⟩

/-- `laplace_cognition_forward_pass_execute` -/
def forwardPassExecute (provider : Provider σ) (sortOperations : Sorting operationKey)
    (sortResolutions : Sorting resolutionKey) (sort : Sorting obligationKey)
    (initialState : GuidanceState) (providerState : σ) (memory : PassMemory) (fuel : ℕ) :
    Option Executed :=
  let receipt : ForwardReceipt := { version := forwardVersion }
  if !programValid program ∨ provider.abiMajor ≠ providerAbiMajor ∨
      provider.abiMinor > providerAbiMinor ∨ provider.flags ≠ 0 ∨ provider.reserved ≠ 0 then
    some { status := .programInvalid, receipt := { receipt with status := .programInvalid } }
  else if initialState.header.resultContractFingerprint ≠ program.resultContractFingerprint then
    some { status := .programInvalid, receipt := { receipt with status := .programInvalid } }
  else
    let receipt := { receipt with programFingerprint := blake3 (programBytes program) }
    if !memory.result then
      some { status := .memoryFailure, receipt := { receipt with status := .memoryFailure } }
    else
      match stateClone blake3 sort initialState memory.clone with
      | .error _ =>
        some { status := .guidanceFailure, receipt := { receipt with status := .guidanceFailure } }
      | .ok state =>
        conclude program blake3 ((runLayers program blake3 provider sortOperations sortResolutions
          sort memory.layers fuel).eval (initialPass providerState state receipt))

end Layer

end Laplace.Cognition
