import Laplace.QuerySearch.Program

/-!
# The search state and its operations (query_search_part01.inc:112-248, part02, part03:1-80)

| here | there |
| --- | --- |
| `Search` | the members of class `Search`, with the receipt and the result it fills |
| `Search.frontier` | `std::priority_queue<QueueEntry>`: the entries in popping order |
| `Search.labels`, `Search.identities` | the two `std::map`s; an absent key has no labels |
| `Search.executionHasher` | the bytes fed to `execution_hasher_` so far |

Every operation returns the state it leaves behind, also when it fails. The sizes in
`EstimatedMemory` are those of the LP64 layout.
-/

namespace Laplace.QuerySearch

open Laplace.Checked

structure Node where
  state : State := {}
  accumulatedCost : UInt64 := 0
  parent : Nat := 0
  incoming : Transition := {}
  ordinal : UInt64 := 0
  hasParent : Bool := false
  closed : Bool := false
  dominated : Bool := false
deriving DecidableEq, Repr, Inhabited

/-- Still to be popped: neither closed nor dominated. -/
def Node.live (node : Node) : Bool := !node.dominated && !node.closed

structure QueueEntry where
  nodeIndex : Nat
  priority : UInt64
  accumulatedCost : UInt64
  depth : UInt32
  stateId : Digest256
  ordinal : UInt64
deriving DecidableEq, Repr

/-- `QueueLater`: `left` is popped after `right`. -/
def queueLater (left right : QueueEntry) : Bool :=
  if left.priority ≠ right.priority then left.priority > right.priority
  else if left.accumulatedCost ≠ right.accumulatedCost then
    left.accumulatedCost > right.accumulatedCost
  else if left.depth ≠ right.depth then left.depth > right.depth
  else if left.stateId ≠ right.stateId then left.stateId > right.stateId
  else left.ordinal > right.ordinal

/-- `frontier_.push` -/
def pushEntry (entry : QueueEntry) : List QueueEntry → List QueueEntry
  | [] => [entry]
  | top :: rest =>
    if queueLater top entry then entry :: top :: rest else top :: pushEntry entry rest

structure Search where
  nodes : List Node := []
  frontier : List QueueEntry := []
  labels : Digest256 → List Nat := fun _ => []
  identities : Digest256 → Option State := fun _ => none
  transitionIds : List Digest256 := []
  nextOrdinal : UInt64 := 0
  activeFrontierCount : UInt64 := 0
  resourceExhausted : Bool := false
  frontierExhausted : Bool := false
  providerDisposition : UInt32 := 0
  executionHasher : List UInt8 := domainBytes "laplace-query-search-output-v1"
  receipt : Receipt
  paths : List Path := []

namespace Search

/-- `nodes_[index]` -/
def node (s : Search) (index : Nat) : Node := s.nodes.getD index {}

variable (program : Program)

/-- `Priority`: `g`, or the saturating `g + h` under A*. -/
def priority (node : Node) : UInt64 :=
  if !program.has Flag.astar then node.accumulatedCost
  else (checkedAdd node.accumulatedCost node.state.heuristicCost).getD maxWord

def sizeofNode : UInt64 := 1072
def sizeofQueueEntry : UInt64 := 72
def estimatedNodeOverhead : UInt64 := 96
def sizeofTransition : UInt64 := 768

/-- `EstimatedMemory` -/
def estimatedMemory (s : Search) (additionalNodes : Nat) : UInt64 :=
  if additionalNodes > maxWord.toNat - s.nodes.length then maxWord
  else
    let perNode := sizeofNode + sizeofQueueEntry + estimatedNodeOverhead
    ((checkedMul (UInt64.ofNat (s.nodes.length + additionalNodes)) perNode).bind fun nodeBytes =>
      (checkedMul program.budget.transitionBatchCapacity.toUInt64 sizeofTransition).bind
        fun transitionBytes => checkedAdd nodeBytes transitionBytes).getD maxWord

/-! ## Inserting a label -/

/-- `RegisterIdentity` -/
def registerIdentity (state : State) (s : Search) : Status × Search :=
  match s.identities state.stateId with
  | none =>
    (.ok, { s with identities := Function.update s.identities state.stateId (some state) })
  | some found => (if sameState found state then .ok else .providerContract, s)

/-- `Dominates` -/
def dominates (left : Node) (cost : UInt64) (depth : UInt32) : Bool :=
  !left.dominated && left.accumulatedCost ≤ cost && left.state.depth ≤ depth

/-- `NewDominates` -/
def newDominates (cost : UInt64) (depth : UInt32) (old : Node) : Bool :=
  !old.dominated && cost ≤ old.accumulatedCost && depth ≤ old.state.depth &&
    (cost < old.accumulatedCost || depth < old.state.depth)

/-- `if (active_frontier_count_ != 0U) --active_frontier_count_;` -/
def decrementActive (s : Search) : Search :=
  if s.activeFrontierCount != 0 then { s with activeFrontierCount := s.activeFrontierCount - 1 }
  else s

def markDominated (index : Nat) (s : Search) : Search :=
  { s with nodes := s.nodes.modify index fun old => { old with dominated := true } }

/-- The second loop of `InsertNode`: the new label replaces the labels it dominates. The flag says
whether a closed one was among them. -/
def supersede (cost : UInt64) (depth : UInt32) :
    List Nat → Bool → Search → Status × Bool × Search
  | [], reopens, s => (.ok, reopens, s)
  | index :: rest, reopens, s =>
    let old := s.node index
    if newDominates cost depth old then
      if old.closed && !program.has Flag.allowReopen then (.providerContract, reopens, s)
      else
        supersede cost depth rest (reopens || old.closed)
          (markDominated index (if old.closed then s else s.decrementActive))
    else supersede cost depth rest reopens s

/-- The three budgets that `InsertNode` checks before it stores a node. -/
def insertBudgetReached (s : Search) : Bool :=
  s.receipt.emittedStateCount ≥ program.budget.maxEmittedStates ||
    s.activeFrontierCount ≥ program.budget.maxFrontierStates ||
    s.estimatedMemory program 1 > program.budget.maxMemoryBytes

/-- The node that `InsertNode` stores. -/
def newNode (s : Search) (state : State) (cost : UInt64) (parent : Nat)
    (incoming : Option Transition) : Node :=
  { state, accumulatedCost := cost, parent, incoming := incoming.getD {}, ordinal := s.nextOrdinal,
    hasParent := incoming.isSome }

/-- `nodes_.push_back(node); labels.push_back(node_index);` -/
def storeNode (node : Node) (s : Search) : Search :=
  { s with
    nodes := s.nodes ++ [node]
    labels := Function.update s.labels node.state.dominanceKey
      (s.labels node.state.dominanceKey ++ [s.nodes.length])
    nextOrdinal := s.nextOrdinal + 1 }

/-- The saturated priority that `InsertNode` reports as an overflow. -/
def priorityOverflows (node : Node) : Bool :=
  priority program node == maxWord &&
    (node.accumulatedCost != priority program node || node.state.heuristicCost != 0)

/-- The queue entry of a node. -/
def entryOf (index : Nat) (node : Node) : QueueEntry :=
  { nodeIndex := index, priority := priority program node, accumulatedCost := node.accumulatedCost,
    depth := node.state.depth, stateId := node.state.stateId, ordinal := node.ordinal }

/-- The end of `InsertNode`, after the node `index` was stored. -/
def enqueue (index : Nat) (node : Node) (reopens : Bool) (s : Search) : Search :=
  { s with
    frontier := pushEntry (entryOf program index node) s.frontier
    activeFrontierCount := s.activeFrontierCount + 1
    receipt := { s.receipt with
      emittedStateCount := s.receipt.emittedStateCount + 1
      reopenedStateCount := s.receipt.reopenedStateCount + (if reopens then 1 else 0)
      estimatedPeakMemoryBytes :=
        max s.receipt.estimatedPeakMemoryBytes (s.estimatedMemory program 0) } }

/-- `++receipt_->pruned_state_count;` -/
def prune (s : Search) : Search :=
  { s with receipt := { s.receipt with prunedStateCount := s.receipt.prunedStateCount + 1 } }

/-- `InsertNode`: the status, `*inserted`, and the state left behind. -/
def insertNode (state : State) (cost : UInt64) (parent : Nat) (incoming : Option Transition)
    (s : Search) : Status × Bool × Search :=
  match registerIdentity state s with
  | (.ok, s) =>
    let labels := s.labels state.dominanceKey
    if labels.any fun index => dominates (s.node index) cost state.depth then (.ok, false, s.prune)
    else match supersede program cost state.depth labels false s with
      | (.ok, reopens, s) =>
        if s.insertBudgetReached program then (.ok, false, { s with resourceExhausted := true })
        else
          let node := s.newNode state cost parent incoming
          if priorityOverflows program node then (.overflow, false, s.storeNode node)
          else (.ok, true, (s.storeNode node).enqueue program s.nodes.length node reopens)
      | (status, _, s) => (status, false, s)
  | (status, s) => (status, false, s)

/-- `AddInitial` -/
def addInitial (state : State) (s : Search) : Status × Search :=
  match insertNode program state 0 0 none s with
  | (.ok, inserted, s) =>
    if !inserted && !s.resourceExhausted then (.stateInvalid, s)
    else (if s.resourceExhausted then .programInvalid else .ok, s)
  | (status, _, s) => (status, s)

/-! ## The frontier -/

/-- `EntryLive` -/
def entryLive (s : Search) (entry : QueueEntry) : Bool :=
  if entry.nodeIndex ≥ s.nodes.length then false
  else (s.node entry.nodeIndex).live && (s.node entry.nodeIndex).ordinal == entry.ordinal

/-- `DiscardStaleTop` -/
def discardStaleTop (s : Search) : Search :=
  { s with frontier := s.frontier.dropWhile fun entry => !s.entryLive entry }

/-- `frontier_.pop(); node.closed = true; --active_frontier_count_;` -/
def closeTop (s : Search) (entry : QueueEntry) : Search :=
  decrementActive
    { s with
      frontier := s.frontier.tail
      nodes := s.nodes.modify entry.nodeIndex fun node => { node with closed := true } }

/-! ## Paths -/

/-- The parent walk of `AddPath`. The source collects the transitions backwards and reverses them.
A parent is stored before its child, so `nodes_.size()` rounds suffice. -/
def parentWalk (nodes : List Node) : Nat → Nat → List Transition → Option (List Transition)
  | 0, _, _ => none
  | rounds + 1, cursor, path =>
    let node := nodes.getD cursor {}
    if node.hasParent then
      if node.parent ≥ nodes.length then none
      else parentWalk nodes rounds node.parent (node.incoming :: path)
    else some path

/-- The size of the set of non-zero evidence roots. -/
def evidenceRootCount (transitions : List Transition) : Nat :=
  ((transitions.map (·.evidenceRootFingerprint)).filter (· != 0)).dedup.length

variable (blake3 : Blake3)

def pathId (transitions : List Transition) (terminalStateId : Digest256) (totalCost : UInt64) :
    Digest256 :=
  blake3 (domainBytes "laplace-query-search-path-v1" ++ program.programId.bytes ++
    transitions.flatMap (·.transitionId.bytes) ++ terminalStateId.bytes ++ u64Bytes totalCost ++
    u64Bytes (UInt64.ofNat transitions.length))

/-- The path that `AddPath` appends for the node `terminal` and the transitions that lead to it. -/
def pathOf (s : Search) (terminal : Node) (transitions : List Transition) : Path :=
  { transitions
    summary := {
      pathId := pathId program blake3 transitions terminal.state.stateId terminal.accumulatedCost
      terminalStateId := terminal.state.stateId
      totalCost := terminal.accumulatedCost
      transitionCount := UInt64.ofNat transitions.length
      independentEvidenceRootCount := UInt64.ofNat (evidenceRootCount transitions)
      terminalDepth := terminal.state.depth
      rank := UInt32.ofNat (s.paths.length + 1) } }

/-- `AddPath` -/
def addPath (terminalIndex : Nat) (s : Search) : Status × Search :=
  match parentWalk s.nodes s.nodes.length terminalIndex [] with
  | none => (.providerContract, s)
  | some transitions =>
    let path := s.pathOf program blake3 (s.node terminalIndex) transitions
    (.ok, { s with
      paths := s.paths ++ [path]
      executionHasher := s.executionHasher ++ path.summary.pathId.bytes })

/-- `StopAfterTerminal` -/
def stopAfterTerminal (s : Search) : Bool :=
  s.paths.length ≥ program.budget.requestedPathCount.toNat

/-! ## The final receipt -/

/-- The disposition that `Finalize` selects. -/
def finalDisposition (s : Search) : UInt32 :=
  let boundaryComplete := program.has Flag.boundaryComplete
  let enoughPaths := s.stopAfterTerminal program
  if enoughPaths && boundaryComplete && !s.resourceExhausted then Disposition.complete
  else if !s.paths.isEmpty then
    if enoughPaths then Disposition.upperBound else Disposition.partialResult
  else if s.resourceExhausted then Disposition.exhausted
  else if !boundaryComplete then Disposition.incompleteBoundary
  else if s.providerDisposition != 0 then s.providerDisposition
  else Disposition.noAdmissiblePath

/-- The flags that `Finalize` sets. -/
def finalFlags (s : Search) : UInt32 :=
  let boundaryComplete := program.has Flag.boundaryComplete
  let certified := s.stopAfterTerminal program && boundaryComplete && !s.resourceExhausted &&
    program.has Flag.requestOptimal
  s.receipt.flags ||| (if s.frontierExhausted then ReceiptFlag.frontierExhausted else 0) |||
    (if s.resourceExhausted then ReceiptFlag.resourceExhausted else 0) |||
    (if boundaryComplete then ReceiptFlag.boundaryComplete else 0) |||
    (if certified then ReceiptFlag.optimalCertified else 0)

/-- `Finalize` -/
def finalize (s : Search) : Search :=
  let disposition := s.finalDisposition program
  let pathCount := UInt32.ofNat s.paths.length
  let hasher := s.executionHasher ++ u32Bytes disposition ++ u32Bytes pathCount
  { s with
    executionHasher := hasher
    receipt := { s.receipt with
      disposition, pathCount, flags := s.finalFlags program, outputFingerprint := blake3 hasher } }

end Search

end Laplace.QuerySearch
