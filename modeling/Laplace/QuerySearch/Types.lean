import Laplace.Standing.State
import Laplace.Lib.Checked

/-!
# Search programs, states, transitions and receipts (query_search.h, contracts/query-search.json)

The records of the public header, field by field. An unsigned C integer is the `UIntN` of its
width, `size_t` included where the callback hands one back; a count of list elements is a `Nat`.
-/

namespace Laplace.QuerySearch

/-! ## Contract constants -/

namespace Flag
def astar : UInt32 := 1
def heuristicAdmissible : UInt32 := 2
def heuristicConsistent : UInt32 := 4
def allowReopen : UInt32 := 8
def boundaryComplete : UInt32 := 16
def requestOptimal : UInt32 := 32
def requireSetOriented : UInt32 := 64
def knownMask : UInt32 := 127
end Flag

/-- `LAPLACE_QUERY_SEARCH_STATE_TERMINAL`, also the mask of the known state flags. -/
def stateTerminal : UInt32 := 1

namespace TransitionFlag
def relationIdPresent : UInt32 := 1
def standingPresent : UInt32 := 2
def knownFlags : UInt32 := 3
end TransitionFlag

namespace Disposition
def complete : UInt32 := 1
def upperBound : UInt32 := 2
def unsupported : UInt32 := 3
def denied : UInt32 := 4
def exhausted : UInt32 := 5
def contradicted : UInt32 := 6
def noAdmissiblePath : UInt32 := 7
def incompleteBoundary : UInt32 := 8
def partialResult : UInt32 := 9
def unknown : UInt32 := 10
end Disposition

namespace ReceiptFlag
def frontierExhausted : UInt32 := 1
def optimalCertified : UInt32 := 2
def resourceExhausted : UInt32 := 4
def boundaryComplete : UInt32 := 8
end ReceiptFlag

/-- `(flags & mask) != 0` -/
def hasFlag (flags mask : UInt32) : Bool := flags &&& mask != 0

/-- `laplace_query_search_status`. -/
inductive Status where
  | ok | invalidArgument | programInvalid | stateInvalid | providerFailure | providerContract
  | memoryFailure | overflow | resultRange
deriving DecidableEq, Repr

def Status.code : Status → UInt32
  | .ok => 0 | .invalidArgument => 1 | .programInvalid => 2 | .stateInvalid => 3
  | .providerFailure => 4 | .providerContract => 5 | .memoryFailure => 6 | .overflow => 7
  | .resultRange => 8

/-- The statuses with which a search can return once it has begun to expand states. -/
def Status.expanding : Status → Bool
  | .ok | .providerFailure | .providerContract | .overflow => true
  | _ => false

/-! ## Records -/

/-- `laplace_query_search_state` -/
structure State where
  stateId : Digest256 := 0
  anchorId : Digest256 := 0
  dominanceKey : Digest256 := 0
  bindingFingerprint : Digest256 := 0
  obligationFingerprint : Digest256 := 0
  contextFingerprint : Digest256 := 0
  evidenceEpoch : Digest256 := 0
  boundaryId : Digest256 := 0
  heuristicCost : UInt64 := 0
  depth : UInt32 := 0
  flags : UInt32 := 0
deriving DecidableEq, Repr, Inhabited

/-- The TERMINAL flag of a state. -/
def State.terminal (state : State) : Bool := hasFlag state.flags stateTerminal

/-- `LAPLACE_QUERY_SEARCH_COST_COMPONENT_COUNT` -/
abbrev costCount : Nat := 8

/-- `laplace_query_search_transition` -/
structure Transition where
  transitionId : Digest256 := 0
  sourceStateId : Digest256 := 0
  target : State := {}
  lawFingerprint : Digest256 := 0
  evidenceRootFingerprint : Digest256 := 0
  calculationReceipt : Digest256 := 0
  relationId : Id128 := 0
  costComponents : Vector UInt64 costCount := Vector.replicate costCount 0
  relationFamily : UInt32 := 0
  sourceLayer : UInt32 := 0
  direction : UInt32 := 0
  flags : UInt32 := 0
  standing : Standing.State := {}
deriving DecidableEq, Repr, Inhabited

/-- `laplace_query_search_budget` -/
structure Budget where
  maxExpandedStates : UInt64
  maxTransitionRecords : UInt64
  maxEmittedStates : UInt64
  maxFrontierStates : UInt64
  maxMemoryBytes : UInt64
  maxIoOperations : UInt64
  maxDatabaseOperations : UInt64
  maxProviderCalls : UInt64
  maxDepth : UInt32
  requestedPathCount : UInt32
  frontierBatchWidth : UInt32
  transitionBatchCapacity : UInt32
deriving DecidableEq, Repr

/-- `laplace_query_search_program` -/
structure Program where
  programId : Digest256
  goalId : Digest256
  boundaryId : Digest256
  evidenceEpoch : Digest256
  heuristicProofFingerprint : Digest256 := 0
  resultContractFingerprint : Digest256
  costWeights : Vector UInt64 costCount
  budget : Budget
  flags : UInt32
  reserved : UInt32 := 0
deriving DecidableEq, Repr

/-- `(program.flags & flag) != 0` -/
def Program.has (program : Program) (flag : UInt32) : Bool := hasFlag program.flags flag

/-- `laplace_query_search_expansion_receipt` -/
structure ExpansionReceipt where
  receiptId : Digest256
  frontierStateCount : UInt64
  rowsExamined : UInt64 := 0
  indexPlanCount : UInt64 := 0
  crossingCount : UInt64 := 0
  emittedTransitionCount : UInt64
  ioOperations : UInt64 := 0
  databaseOperations : UInt64 := 0
  limitingDisposition : UInt32 := 0
  flags : UInt32 := 0
deriving DecidableEq, Repr

/-- What one call of `expand_batch` leaves behind: its return value, the transitions it wrote from
the start of the buffer, `*transition_count` and `*receipt`. -/
structure ExpansionReply where
  status : Int := 0
  transitions : List Transition
  transitionCount : UInt64
  receipt : ExpansionReceipt
deriving DecidableEq, Repr

/-- `laplace_query_search_provider_v1`: a callback on an opaque state, called with the frontier
states, their accumulated costs and the capacity of the transition buffer. It may answer anything. -/
structure Provider (σ : Type) where
  expandBatch : σ → List State → List UInt64 → Nat → ExpansionReply × σ
  abiMajor : UInt16 := 1
  abiMinor : UInt16 := 0
  flags : UInt32 := 0
  reserved : UInt32 := 0

/-- `laplace_query_search_path_summary` -/
structure PathSummary where
  pathId : Digest256
  terminalStateId : Digest256
  totalCost : UInt64
  transitionCount : UInt64
  independentEvidenceRootCount : UInt64
  terminalDepth : UInt32
  rank : UInt32
deriving DecidableEq, Repr

/-- `laplace_query_search_path_storage` -/
structure Path where
  summary : PathSummary
  transitions : List Transition
deriving DecidableEq, Repr

/-- `laplace_query_search_receipt` -/
structure Receipt where
  receiptId : Digest256 := 0
  programFingerprint : Digest256 := 0
  inputFingerprint : Digest256 := 0
  outputFingerprint : Digest256 := 0
  expandedStateCount : UInt64 := 0
  transitionRecordCount : UInt64 := 0
  emittedStateCount : UInt64 := 0
  reopenedStateCount : UInt64 := 0
  prunedStateCount : UInt64 := 0
  rowsExamined : UInt64 := 0
  indexPlanCount : UInt64 := 0
  crossingCount : UInt64 := 0
  ioOperations : UInt64 := 0
  databaseOperations : UInt64 := 0
  providerCallCount : UInt64 := 0
  estimatedPeakMemoryBytes : UInt64 := 0
  pathCount : UInt32 := 0
  disposition : UInt32 := 0
  flags : UInt32 := 0
  version : UInt32 := 0
  status : UInt32 := 0
  reserved : UInt32 := 0
deriving DecidableEq, Repr

end Laplace.QuerySearch
