import Laplace.QuerySearch.Search
import Laplace.Lib.Machine
import Mathlib.Data.List.Sort

/-!
# `Search::Run` as a machine (query_search_part01.inc:181-242, part03, part04:64-128)

The provider is called back between steps and may answer anything, so the run is a machine: one
step is one round of one of the source's loops, or one provider call.

| phase | there |
| --- | --- |
| `addInitial` | the `for` loop over `initial_states` in `Run` |
| `harvest` | a round of `HarvestTerminalFrontier` |
| `select` | `Run` between the harvest and `PopBatch` |
| `pop` | a round of `PopBatch` |
| `expand` | `ExpandBatch` up to the sort: the provider call and the checks of its receipt |
| `insert` | a round of the transition loop of `ExpandBatch` |
| `halted` | `Run` has returned |
-/

namespace Laplace.QuerySearch

inductive Phase where
  | addInitial (rest : List State)
  | harvest
  | select
  | pop (minimumPriority : UInt64) (batchLimit : Nat) (batch : List Nat)
  | expand (batch : List Nat)
  | insert (sourceIndexes : List (Digest256 × Nat)) (rest : List Transition)
  | halted (status : Status)
deriving DecidableEq, Repr

/-- A point of a run: the phase, the search and the provider's own state. -/
structure Execution (σ : Type) where
  phase : Phase
  search : Search
  provider : σ

namespace Search

variable (blake3 : Blake3) (program : Program)

/-- `Finalize(result); return LAPLACE_QUERY_SEARCH_OK;` -/
def finish (s : Search) : Phase × Search := (.halted .ok, s.finalize program blake3)

/-- The loop over the initial states. -/
def runInitial (rest : List State) (s : Search) : Phase × Search :=
  match rest with
  | [] => (.harvest, s)
  | state :: rest =>
    if !stateValid program state then (.halted .stateInvalid, s)
    else match addInitial program state s with
      | (.ok, s) => (.addInitial rest, s)
      | (status, s) => (.halted status, s)

/-- A round of `HarvestTerminalFrontier`. -/
def harvestTerminalFrontier (s : Search) : Phase × Search :=
  let s := s.discardStaleTop
  match s.frontier with
  | [] => (.select, s)
  | entry :: _ =>
    if !(s.node entry.nodeIndex).state.terminal then (.select, s)
    else match addPath program blake3 entry.nodeIndex (s.closeTop entry) with
      | (.ok, s) => (if s.stopAfterTerminal program then .select else .harvest, s)
      | (status, s) => (.halted status, s)

/-- `batch_limit` in `PopBatch`. -/
def batchLimit (s : Search) : Nat :=
  min program.budget.frontierBatchWidth.toNat
    (program.budget.maxExpandedStates - s.receipt.expandedStateCount).toNat

/-- `Run` between the harvest and the rounds of `PopBatch`. -/
def selectBatch (s : Search) : Phase × Search :=
  if s.stopAfterTerminal program then s.finish blake3 program
  else
    let s := s.discardStaleTop
    match s.frontier with
    | [] => finish blake3 program { s with frontierExhausted := true }
    | top :: _ =>
      if s.receipt.expandedStateCount ≥ program.budget.maxExpandedStates ||
          s.receipt.providerCallCount ≥ program.budget.maxProviderCalls then
        finish blake3 program { s with resourceExhausted := true }
      else (.pop top.priority (s.batchLimit program) [], s)

/-- `PopBatch` has returned OK. -/
def popBatchDone (batch : List Nat) (s : Search) : Phase × Search :=
  if s.stopAfterTerminal program then s.finish blake3 program
  else if batch.isEmpty then (.harvest, s)
  else (.expand batch, s)

/-- A round of `PopBatch`. -/
def popBatch (minimumPriority : UInt64) (batchLimit : Nat) (batch : List Nat) (s : Search) :
    Phase × Search :=
  if batch.length < batchLimit then
    let s := s.discardStaleTop
    match s.frontier with
    | [] => popBatchDone blake3 program batch s
    | entry :: _ =>
      if entry.priority != minimumPriority then popBatchDone blake3 program batch s
      else
        let node := s.node entry.nodeIndex
        let s := s.closeTop entry
        if node.state.terminal then
          match addPath program blake3 entry.nodeIndex s with
          | (.ok, s) =>
            if s.stopAfterTerminal program then popBatchDone blake3 program batch s
            else (.pop minimumPriority batchLimit batch, s)
          | (status, s) => (.halted status, s)
        else if node.state.depth < program.budget.maxDepth then
          (.pop minimumPriority batchLimit (batch ++ [entry.nodeIndex]), s)
        else (.pop minimumPriority batchLimit batch, s)
  else popBatchDone blake3 program batch s

/-- `ExpandBatch` has returned OK. -/
def expandBatchDone (s : Search) : Phase × Search :=
  if s.resourceExhausted then s.finish blake3 program else (.harvest, s)

/-- The order of the sort in `ExpandBatch`: source, target, transition id. -/
def transitionBefore (left right : Transition) : Bool :=
  if left.sourceStateId ≠ right.sourceStateId then left.sourceStateId < right.sourceStateId
  else if left.target.stateId ≠ right.target.stateId then
    left.target.stateId < right.target.stateId
  else left.transitionId < right.transitionId

/-- `std::sort`. Records that compare equal carry one transition id, so the second of them is
refused in whatever order the sort leaves them. -/
def sortTransitions (transitions : List Transition) : List Transition :=
  transitions.insertionSort fun left right => !transitionBefore right left

/-- The buffer after `transitions.resize(transition_count)`; a cell the callback left alone is
still zero. -/
def received (reply : ExpansionReply) : List Transition :=
  let count := reply.transitionCount.toNat
  reply.transitions.take count ++ List.replicate (count - reply.transitions.length) ({} : Transition)

/-- `capacity` in `ExpandBatch`. -/
def transitionCapacity (s : Search) : Nat :=
  min program.budget.transitionBatchCapacity.toNat
    (program.budget.maxTransitionRecords - s.receipt.transitionRecordCount).toNat

/-- `ProviderDispositionValid` -/
def providerDispositionValid (value : UInt32) : Bool :=
  value == 0 || value == Disposition.unsupported || value == Disposition.denied ||
    value == Disposition.exhausted || value == Disposition.contradicted ||
    value == Disposition.unknown

/-- `MergeProviderDisposition` -/
def mergeProviderDisposition (current next : UInt32) : UInt32 :=
  if next == 0 then current
  else if current == 0 || current == next then next
  else Disposition.unknown

/-- The first check of a reply: its shape. -/
def replyMalformed (states capacity : Nat) (reply : ExpansionReply) : Bool :=
  let receipt := reply.receipt
  reply.transitionCount.toNat > capacity || receipt.frontierStateCount.toNat != states ||
    receipt.emittedTransitionCount != reply.transitionCount || receipt.receiptId == 0 ||
    receipt.flags != 0 || !providerDispositionValid receipt.limitingDisposition ||
    (receipt.limitingDisposition == Disposition.exhausted && reply.transitionCount != 0)

/-- The second check of a reply: the operations it spent. -/
def replyOverBudget (s : Search) (reply : ExpansionReply) : Bool :=
  reply.receipt.ioOperations > program.budget.maxIoOperations - s.receipt.ioOperations ||
    reply.receipt.databaseOperations >
      program.budget.maxDatabaseOperations - s.receipt.databaseOperations

/-- The receipt counters after the call itself. -/
def countCall (states : Nat) (s : Search) : Search :=
  { s with receipt := { s.receipt with
      providerCallCount := s.receipt.providerCallCount + 1
      expandedStateCount := s.receipt.expandedStateCount + UInt64.ofNat states } }

/-- What an accepted reply adds to the receipt. -/
def acceptReply (reply : ExpansionReply) (s : Search) : Search :=
  { s with
    providerDisposition :=
      mergeProviderDisposition s.providerDisposition reply.receipt.limitingDisposition
    executionHasher := s.executionHasher ++ reply.receipt.receiptId.bytes
    receipt := { s.receipt with
      transitionRecordCount := s.receipt.transitionRecordCount + reply.transitionCount
      rowsExamined := s.receipt.rowsExamined + reply.receipt.rowsExamined
      indexPlanCount := s.receipt.indexPlanCount + reply.receipt.indexPlanCount
      crossingCount := s.receipt.crossingCount + reply.receipt.crossingCount
      ioOperations := s.receipt.ioOperations + reply.receipt.ioOperations
      databaseOperations := s.receipt.databaseOperations + reply.receipt.databaseOperations } }

/-- `source_indexes`: `emplace` keeps the first index of an id, and so does the lookup here. -/
def sourceIndexes (s : Search) (batch : List Nat) : List (Digest256 × Nat) :=
  batch.map fun index => ((s.node index).state.stateId, index)

def lookupSource (sourceIndexes : List (Digest256 × Nat)) (key : Digest256) : Option Nat :=
  (sourceIndexes.find? fun pair => pair.1 == key).map (·.2)

/-- `ExpandBatch` after the provider has answered. -/
def receiveReply (batch : List Nat) (reply : ExpansionReply) (s : Search) : Phase × Search :=
  let sources := s.sourceIndexes batch
  let capacity := s.transitionCapacity program
  let s := s.countCall batch.length
  if reply.status ≠ 0 then (.halted .providerFailure, s)
  else if replyMalformed batch.length capacity reply then (.halted .providerContract, s)
  else if s.replyOverBudget program reply then (.halted .providerContract, s)
  else
    let s := s.acceptReply reply
    if reply.receipt.limitingDisposition == Disposition.exhausted then
      expandBatchDone blake3 program { s with resourceExhausted := true }
    else (.insert sources (sortTransitions (received reply)), s)

/-- The two `HashDigest`/`HashU32` calls after an insertion. -/
def hashInsertion (transition : Transition) (inserted : Bool) (s : Search) : Search :=
  { s with executionHasher :=
      s.executionHasher ++ transition.transitionId.bytes ++ u32Bytes (if inserted then 1 else 0) }

/-- The checks of one transition before `InsertNode`: the source index and the accumulated cost. -/
def checkTransition (sources : List (Digest256 × Nat)) (transition : Transition) (s : Search) :
    Except Status (Nat × UInt64) :=
  if !transitionValid blake3 program transition then .error .providerContract
  else match lookupSource sources transition.sourceStateId with
    | none => .error .providerContract
    | some source =>
      let sourceNode := s.node source
      if sourceNode.state.depth == 0xFFFFFFFF ||
          transition.target.depth != sourceNode.state.depth + 1 then .error .providerContract
      else if s.transitionIds.contains transition.transitionId then .error .providerContract
      else match (weightedCost program transition).bind
          (Checked.checkedAdd sourceNode.accumulatedCost) with
        | none => .error .overflow
        | some accumulated => .ok (source, accumulated)

/-- A round of the transition loop of `ExpandBatch`. The source records the transition id before
it computes the cost; an overflow ends the run, so the order does not show. -/
def insertTransition (sources : List (Digest256 × Nat)) (rest : List Transition) (s : Search) :
    Phase × Search :=
  match rest with
  | [] => expandBatchDone blake3 program s
  | transition :: rest =>
    match checkTransition blake3 program sources transition s with
    | .error status => (.halted status, s)
    | .ok (source, accumulated) =>
      match insertNode program transition.target accumulated source (some transition)
          { s with transitionIds := transition.transitionId :: s.transitionIds } with
      | (.ok, inserted, s) =>
        let s := s.hashInsertion transition inserted
        if s.resourceExhausted then expandBatchDone blake3 program s else (.insert sources rest, s)
      | (status, _, s) => (.halted status, s)

end Search

/-! ## The machine -/

section
variable (blake3 : Blake3) (program : Program) {σ : Type} (provider : Provider σ)

/-- `ExpandBatch` up to the sort. -/
def expandBatch (batch : List Nat) (s : Search) (state : σ) : Execution σ :=
  if program.budget.maxTransitionRecords - s.receipt.transitionRecordCount == 0 then
    let (phase, s) := Search.expandBatchDone blake3 program { s with resourceExhausted := true }
    ⟨phase, s, state⟩
  else
    let states := batch.map fun index => (s.node index).state
    let costs := batch.map fun index => (s.node index).accumulatedCost
    let (reply, state) := provider.expandBatch state states costs (s.transitionCapacity program)
    let (phase, s) := s.receiveReply blake3 program batch reply
    ⟨phase, s, state⟩

/-- One step of `Run`. -/
def step (e : Execution σ) : Option (Execution σ) :=
  let next (result : Phase × Search) : Option (Execution σ) := some ⟨result.1, result.2, e.provider⟩
  match e.phase with
  | .addInitial rest => next (e.search.runInitial program rest)
  | .harvest => next (e.search.harvestTerminalFrontier blake3 program)
  | .select => next (e.search.selectBatch blake3 program)
  | .pop minimumPriority batchLimit batch =>
    next (e.search.popBatch blake3 program minimumPriority batchLimit batch)
  | .expand batch => some (expandBatch blake3 program provider batch e.search e.provider)
  | .insert sources rest => next (e.search.insertTransition blake3 program sources rest)
  | .halted _ => none

/-- The receipt when `Search` is constructed. -/
def openReceipt (initialStates : List State) : Receipt :=
  { version := 1, programFingerprint := hashProgram blake3 program,
    inputFingerprint := hashInput blake3 (hashProgram blake3 program) initialStates }

/-- `Run` is entered. -/
def start (initialStates : List State) (state : σ) : Execution σ :=
  let search : Search := { receipt := openReceipt blake3 program initialStates }
  if initialStates.length > program.budget.maxFrontierStates.toNat ||
      initialStates.length > program.budget.maxEmittedStates.toNat then
    ⟨.halted .programInvalid, search, state⟩
  else ⟨.addInitial initialStates, search, state⟩

/-- Rounds that are enough for `Run` to return (`run_halted`). -/
def enoughRounds (initialStates : List State) : Nat :=
  9 * program.budget.maxEmittedStates.toNat + program.budget.maxTransitionRecords.toNat +
    initialStates.length + 10

/-- What `laplace_query_search_execute` hands back: the status, `*output_result` and `*receipt`. -/
structure Outcome where
  status : Status
  paths : Option (List Path)
  receipt : Receipt
deriving DecidableEq, Repr

/-- The end of `laplace_query_search_execute`, for a run that has returned `status`. -/
def closeOutcome (status : Status) (s : Search) : Outcome :=
  let receipt := { s.receipt with status := status.code }
  if status = .ok then
    ⟨.ok, some s.paths, { receipt with receiptId := hashReceipt blake3 receipt }⟩
  else ⟨status, none, receipt⟩

/-- `ProgramValid` and the provider's header. -/
def requestValid : Bool :=
  programValid program && provider.abiMajor == 1 && provider.abiMinor ≤ 0 && provider.flags == 0 &&
    provider.reserved == 0

/-- `laplace_query_search_execute` on non-null arguments; `none` would be a run that does not
return. -/
def execute (initialStates : List State) (state : σ) : Option Outcome :=
  if initialStates.isEmpty then some ⟨.invalidArgument, none, { version := 1 }⟩
  else if !requestValid program provider then some ⟨.programInvalid, none, { version := 1 }⟩
  else
    let last := Machine.run (step blake3 program provider) (enoughRounds program initialStates)
      (start blake3 program initialStates state)
    match last.phase with
    | .halted status => some (closeOutcome blake3 status last.search)
    | _ => none

end

end Laplace.QuerySearch
