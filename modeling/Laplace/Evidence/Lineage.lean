import Laplace.Digest
import Laplace.Lib.Checked
import Laplace.Lib.Interaction
import Laplace.Lib.Sorting

/-!
# Evidence lineage (evidence_lineage.c)

A batch is the node records in the order of their ids and then the edges from a node to a parent.
Node records are named by their index. The arrays of offsets into the edges of a node are the lists
of those edges here, in the order of the edges, and the chains of relations of a node
(`node_heads`, `root_next`) are lists too. `memory` says whether the buffers can be allocated.
-/

namespace Laplace.Evidence

/-! ## Data -/

inductive Status
  | ok | invalidArgument | recordInvalid | orderInvalid | identityMismatch | referenceMissing | cycle
  | capacityInsufficient | resourceInsufficient | overflow
deriving DecidableEq, Repr

/-- `laplace_evidence_lineage_record` -/
structure LineageRecord where
  nodeId : Digest256
  propositionId : Id128
  occurrenceId : Digest256
  sourceId : Digest256
  contextId : Digest256
  parentNodeId : Digest256
  sourceOrdinal : UInt64
  recordKind : UInt32
  epistemicKind : UInt32
  flags : UInt32
  reserved : UInt32
deriving DecidableEq

/-- `laplace_evidence_root_record` -/
structure RootRecord where
  nodeId : Digest256
  rootNodeId : Digest256
  propositionId : Id128
  pathDepth : UInt64
  rootEpistemicKind : UInt32
  flags : UInt32
deriving DecidableEq

/-- `laplace_evidence_lineage_error` after a call; the path is there if it fits its buffer. -/
structure LineageError where
  cyclePath : Option (List Digest256) := none
  cyclePathCount : ℕ := 0
  recordIndex : Option ℕ := none
deriving DecidableEq

/-- `laplace_evidence_lineage_receipt` -/
structure LineageReceipt where
  receiptId : Digest256 := 0
  inputFingerprint : Digest256 := 0
  outputFingerprint : Digest256 := 0
  inputRecordCount : UInt64 := 0
  nodeCount : UInt64 := 0
  edgeCount : UInt64 := 0
  rootRelationCount : UInt64 := 0
  version : UInt32 := 1
  status : Status := .ok
deriving DecidableEq

/-! ## Contract -/

def recordNode : UInt32 := 1
def recordDependenceEdge : UInt32 := 2
def kindObserved : UInt32 := 1
def kindContradiction : UInt32 := 7

/-- `epistemic_kind_valid` -/
def epistemicKindValid (kind : UInt32) : Bool := kindObserved ≤ kind ∧ kind ≤ kindContradiction

section

variable (blake3 : Blake3)

/-- `laplace_evidence_node_identify` -/
def nodeIdentify (node : LineageRecord) : Except Status Digest256 :=
  if node.recordKind ≠ recordNode ∨ !epistemicKindValid node.epistemicKind ∨
      node.sourceOrdinal = 0 ∨ node.flags ≠ 0 ∨ node.reserved ≠ 0 ∨ node.parentNodeId ≠ 0 then
    .error .recordInvalid
  else
    .ok (blake3 (domainBytes "laplace-evidence-node-v1" ++ node.propositionId.bytes ++
      node.occurrenceId.bytes ++ node.sourceId.bytes ++ node.contextId.bytes ++
      u64Bytes node.sourceOrdinal ++ u32Bytes node.epistemicKind ++ u32Bytes node.flags))

/-- What `hash_inputs` hashes. -/
def inputBytes (records : List LineageRecord) : List UInt8 :=
  domainBytes "laplace-evidence-lineage-input-v1" ++ u64Bytes (UInt64.ofNat records.length) ++
    records.flatMap fun record =>
      record.nodeId.bytes ++ record.propositionId.bytes ++ record.occurrenceId.bytes ++
      record.sourceId.bytes ++ record.contextId.bytes ++ record.parentNodeId.bytes ++
      u64Bytes record.sourceOrdinal ++ u32Bytes record.recordKind ++
      u32Bytes record.epistemicKind ++ u32Bytes record.flags ++ u32Bytes record.reserved

/-- What `hash_outputs` hashes. -/
def outputBytes (roots : List RootRecord) : List UInt8 :=
  domainBytes "laplace-evidence-lineage-output-v1" ++ u64Bytes (UInt64.ofNat roots.length) ++
    roots.flatMap fun root =>
      root.nodeId.bytes ++ root.rootNodeId.bytes ++ root.propositionId.bytes ++
      u64Bytes root.pathDepth ++ u32Bytes root.rootEpistemicKind ++ u32Bytes root.flags

/-- `finish_receipt` -/
def finishReceipt (receipt : LineageReceipt) : LineageReceipt :=
  { receipt with
    receiptId := blake3 (domainBytes "laplace-evidence-lineage-receipt-v1" ++
      receipt.inputFingerprint.bytes ++ receipt.outputFingerprint.bytes ++
      u64Bytes receipt.inputRecordCount ++ u64Bytes receipt.nodeCount ++
      u64Bytes receipt.edgeCount ++ u64Bytes receipt.rootRelationCount ++
      u32Bytes receipt.version ++ u32Bytes (UInt32.ofNat receipt.status.ctorIdx)) }

/-! ## Checking the records -/

/-- A failed check, and the index of the record that fails it. -/
abbrev Checked := Except (Status × LineageError)

/-- The loop over the node records; `previous` is the one before. -/
def checkNodes : Option LineageRecord → ℕ → List LineageRecord → Checked Unit
  | _, _, [] => .ok ()
  | previous, index, node :: nodes =>
    match nodeIdentify blake3 node with
    | .error _ => .error (.recordInvalid, { recordIndex := some index })
    | .ok expected =>
      if expected ≠ node.nodeId then .error (.identityMismatch, { recordIndex := some index })
      else if previous.any fun previous => previous.nodeId.toNat ≥ node.nodeId.toNat then
        .error (.orderInvalid, { recordIndex := some index })
      else checkNodes (some node) (index + 1) nodes

end

/-- The loop of `find_node`. -/
def bisect (nodes : List LineageRecord) (nodeId : Digest256) (low high : ℕ) : ℕ :=
  if low < high then
    let middle := low + (high - low) / 2
    match nodes[middle]? with
    | none => low
    | some node =>
      if node.nodeId.toNat < nodeId.toNat then bisect nodes nodeId (middle + 1) high
      else bisect nodes nodeId low middle
  else low
termination_by high - low
decreasing_by all_goals omega

/-- `find_node` -/
def findNode (nodes : List LineageRecord) (nodeId : Digest256) : Option ℕ :=
  let low := bisect nodes nodeId 0 nodes.length
  if nodes[low]?.any fun node => node.nodeId = nodeId then some low else none

/-- The node records of a batch. -/
def nodesOf (records : List LineageRecord) : List LineageRecord :=
  records.takeWhile fun record => record.recordKind = recordNode

/-- The records after them. -/
def edgesOf (records : List LineageRecord) : List LineageRecord :=
  records.drop (nodesOf records).length

/-- `lineage_edge` -/
structure Edge where
  child : ℕ
  parent : ℕ
deriving DecidableEq

/-- What the loop over the edges requires of the fields of one. -/
def edgeValid (edge : LineageRecord) : Bool :=
  edge.recordKind = recordDependenceEdge ∧ edge.epistemicKind = 0 ∧ edge.sourceOrdinal = 0 ∧
    edge.flags = 0 ∧ edge.reserved = 0 ∧ edge.propositionId = 0 ∧ edge.occurrenceId = 0 ∧
    edge.sourceId = 0 ∧ edge.contextId = 0

/-- Whether an edge does not come after the one before it. -/
def edgeDisordered (previous edge : LineageRecord) : Bool :=
  previous.nodeId.toNat > edge.nodeId.toNat ∨
    (previous.nodeId = edge.nodeId ∧ previous.parentNodeId.toNat ≥ edge.parentNodeId.toNat)

/-- The loop over the edges; `capacity` is that of the buffer for a cycle, if there is one. -/
def checkEdges (nodes : List LineageRecord) (capacity : ℕ) :
    Option LineageRecord → ℕ → List LineageRecord → Checked (List Edge)
  | _, _, [] => .ok []
  | previous, index, edge :: edges =>
    if !edgeValid edge then .error (.recordInvalid, { recordIndex := some index })
    else
      match findNode nodes edge.nodeId, findNode nodes edge.parentNodeId with
      | some child, some parent =>
        if child = parent then
          .error (.cycle,
            { recordIndex := some index
              cyclePathCount := 2
              cyclePath := if 2 ≤ capacity then some [edge.nodeId, edge.nodeId] else none })
        else if previous.any fun previous => edgeDisordered previous edge then
          .error (.orderInvalid, { recordIndex := some index })
        else do
          let rest ← checkEdges nodes capacity (some edge) (index + 1) edges
          return ⟨child, parent⟩ :: rest
      | _, _ => .error (.referenceMissing, { recordIndex := some index })

/-- The parents of a node: `edges[child_offsets[node]]` and on. -/
def parents (edges : List Edge) (node : ℕ) : List ℕ :=
  (edges.filter fun edge => edge.child = node).map Edge.parent

/-- The children of a node: `children[parent_offsets[node]]` and on. -/
def children (edges : List Edge) (node : ℕ) : List ℕ :=
  (edges.filter fun edge => edge.parent = node).map Edge.child

/-! ## Cycles -/

/-- `colors` -/
inductive Color
  | unvisited | open | closed
deriving DecidableEq, Repr

/-- The state of the search: the stack has the edge cursor of each of its nodes, the top first. -/
structure Search where
  colors : ℕ → Color
  stack : List (ℕ × ℕ)

/-- How the search and the propagation end before their time. -/
inductive Failure
  | failed (status : Status) (error : LineageError)
  | outOfFuel

/-- `copy_cycle_path` -/
def cyclePath (nodes : List LineageRecord) (capacity : ℕ) (stack : List (ℕ × ℕ)) (repeated : ℕ) :
    LineageError :=
  let path := (stack.map Prod.fst).reverse.dropWhile (· ≠ repeated) ++ [repeated]
  { cyclePathCount := path.length
    cyclePath :=
      if path.length ≤ capacity then
        some (path.filterMap fun index => nodes[index]?.map LineageRecord.nodeId)
      else none }

/-- A round of the search: the top looks at its next parent, or is closed. -/
def searchStep (nodes : List LineageRecord) (edges : List Edge) (capacity : ℕ) :
    Program Search Failure Bool := do
  let search ← get
  match search.stack with
  | [] => return false
  | (node, cursor) :: rest =>
    match (parents edges node)[cursor]? with
    | none => do
      modify fun search => { colors := Function.update search.colors node .closed, stack := rest }
      return true
    | some parent =>
      match search.colors parent with
      | .open => throw (.failed .cycle (cyclePath nodes capacity search.stack parent))
      | .unvisited => do
        modify fun search =>
          { colors := Function.update search.colors parent .open
            stack := (parent, 0) :: (node, cursor + 1) :: rest }
        return true
      | .closed => do
        modify fun search => { search with stack := (node, cursor + 1) :: rest }
        return true

/-- The search from every node that is not visited yet. -/
def searchFrom (nodes : List LineageRecord) (edges : List Edge) (capacity fuel : ℕ) :
    List ℕ → Program Search Failure Unit
  | [] => return
  | start :: starts => do
    let search ← get
    if search.colors start ≠ .unvisited then searchFrom nodes edges capacity fuel starts
    else do
      modify fun search =>
        { colors := Function.update search.colors start .open, stack := [(start, 0)] }
      Program.loop (searchStep nodes edges capacity) .outOfFuel fuel
      searchFrom nodes edges capacity fuel starts

/-! ## Roots -/

/-- The state of the propagation. `processed` are the nodes taken off the queue. -/
structure Propagation where
  relations : ℕ → List RootRecord
  produced : ℕ
  dependencyCount : ℕ → ℕ
  queue : List ℕ
  processed : List ℕ

/-- A new relation of a node, if there is room. -/
def produce (capacity node : ℕ) (relation : RootRecord) (state : Propagation) :
    Except Status Propagation :=
  if state.produced ≥ capacity then .error .capacityInsufficient
  else .ok { state with
    relations := Function.update state.relations node (relation :: state.relations node)
    produced := state.produced + 1 }

/-- The body of the loop that finds the nodes without parents. -/
def seedNode (nodes : List LineageRecord) (capacity : ℕ) (state : Propagation) (index : ℕ) :
    Except Status Propagation :=
  if state.dependencyCount index ≠ 0 then .ok state
  else
    match nodes[index]? with
    | none => .ok state
    | some node => do
      let state ← produce capacity index
        ⟨node.nodeId, node.nodeId, node.propositionId, 0, node.epistemicKind, 0⟩ state
      return { state with queue := state.queue ++ [index] }

/-- One relation of a node reaches a child. -/
def mergeRelation (capacity child : ℕ) (record : LineageRecord) (state : Propagation)
    (relation : RootRecord) : Except Status Propagation :=
  let arrived := { relation with
    nodeId := record.nodeId
    propositionId := record.propositionId
    pathDepth := relation.pathDepth + 1 }
  let existing := (state.relations child).findIdx fun existing =>
    existing.rootNodeId = relation.rootNodeId
  match (state.relations child)[existing]? with
  | none => produce capacity child arrived state
  | some found =>
    if found.pathDepth > relation.pathDepth + 1 then
      let lowered := { found with pathDepth := relation.pathDepth + 1 }
      .ok { state with
        relations := Function.update state.relations child
          ((state.relations child).set existing lowered) }
    else .ok state

/-- The body of the loop over the children of a node. -/
def propagateChild (nodes : List LineageRecord) (capacity node : ℕ) (state : Propagation)
    (child : ℕ) : Except Status Propagation :=
  match nodes[child]? with
  | none => .ok state
  | some record => do
    let state ← (state.relations node).foldlM (mergeRelation capacity child record) state
    let remaining := state.dependencyCount child - 1
    return { state with
      dependencyCount := Function.update state.dependencyCount child remaining
      queue := if remaining = 0 then state.queue ++ [child] else state.queue }

/-- A round of the loop over the queue. -/
def propagateStep (nodes : List LineageRecord) (edges : List Edge) (capacity : ℕ) :
    Program Propagation Failure Bool := do
  let state ← get
  match state.queue with
  | [] => return false
  | node :: queue =>
    match (children edges node).foldlM (propagateChild nodes capacity node)
        { state with queue, processed := state.processed ++ [node] } with
    | .error status => throw (.failed status {})
    | .ok next => do
      modify fun _ => next
      return true

/-! ## The whole batch -/

/-- `checked_add_size` -/
def checkedAddSize (total : ℕ) (buffer : ℕ × ℕ) : Option ℕ :=
  if buffer.1 ≠ 0 ∧ buffer.2 > sizeMax / buffer.1 then none
  else if total > sizeMax - buffer.1 * buffer.2 then none
  else some (total + buffer.1 * buffer.2)

/-- The buffers of a call: how many elements of which size. -/
def buffers (nodeCount edgeCount rootCapacity : ℕ) : List (ℕ × ℕ) :=
  [(edgeCount, 16), (nodeCount, 8), (nodeCount + 1, 8), (nodeCount, 8), (nodeCount + 1, 8),
    (nodeCount, 8), (edgeCount, 8), (nodeCount, 8), (nodeCount, 1), (nodeCount, 8),
    (rootCapacity, 8), (rootCapacity, 96), (nodeCount, 1), (nodeCount, 8), (nodeCount, 8)]

/-- `root_record_compare` -/
def rootKey (root : RootRecord) : ℕ ×ₗ ℕ := toLex (root.nodeId.toNat, root.rootNodeId.toNat)

/-- What a call leaves: its status, the output array, the count of roots, the receipt and the
error. -/
structure Outcome where
  status : Status
  roots : List RootRecord
  rootCount : ℕ := 0
  receipt : LineageReceipt := {}
  error : LineageError := {}

/-- A call that fails leaves the output array as it is. -/
def failedOutcome (roots : List RootRecord) (status : Status) (error : LineageError) : Outcome :=
  { status, roots, receipt := { status }, error }

/-- The propagation before its first round. -/
def initialPropagation (edges : List Edge) : Propagation where
  relations _ := []
  produced := 0
  dependencyCount node := (parents edges node).length
  queue := []
  processed := []

section

variable (blake3 : Blake3) (sort : Sorting rootKey)

/-- Everything after the edges are checked. -/
def resolveRoots (records nodes : List LineageRecord) (edges : List Edge) (roots : List RootRecord)
    (capacity fuel : ℕ) : Option Outcome :=
  match (searchFrom nodes edges capacity fuel (List.range nodes.length)).eval
      ⟨fun _ => .unvisited, []⟩ with
  | (.error .outOfFuel, _) => none
  | (.error (.failed status error), _) => some (failedOutcome roots status error)
  | (.ok (), _) =>
    match (List.range nodes.length).foldlM (seedNode nodes roots.length) (initialPropagation edges) with
    | .error status => some (failedOutcome roots status {})
    | .ok seeded =>
      match (Program.loop (propagateStep nodes edges roots.length) .outOfFuel fuel).eval seeded with
      | (.error .outOfFuel, _) => none
      | (.error (.failed status error), _) => some (failedOutcome roots status error)
      | (.ok (), state) =>
        if state.processed.length ≠ nodes.length then
          some (failedOutcome roots .recordInvalid {})
        else
          let sorted := sort.sort ((List.range nodes.length).flatMap state.relations)
          some {
            status := .ok
            roots := sorted ++ roots.drop sorted.length
            rootCount := sorted.length
            receipt := finishReceipt blake3
              { inputRecordCount := UInt64.ofNat records.length
                nodeCount := UInt64.ofNat nodes.length
                edgeCount := UInt64.ofNat edges.length
                rootRelationCount := UInt64.ofNat sorted.length
                inputFingerprint := blake3 (inputBytes records)
                outputFingerprint := blake3 (outputBytes sorted) } }

/-- `laplace_evidence_record_lineage_batch`; `roots` is the output array, whose length is its
capacity, and `capacity` that of the buffer for a cycle. Nothing when the fuel is used up. -/
def recordLineageBatch (records : List LineageRecord) (memoryLimitBytes : UInt64)
    (roots : List RootRecord) (capacity : ℕ) (memory : Bool) (fuel : ℕ) : Option Outcome :=
  if records = [] ∨ roots = [] then
    some { status := .invalidArgument, roots }
  else
    match checkNodes blake3 none 0 (nodesOf records) with
    | .error (status, error) => some { status, roots, error }
    | .ok () =>
      if nodesOf records = [] then some { status := .recordInvalid, roots }
      else
        match (buffers (nodesOf records).length (edgesOf records).length roots.length).foldlM
            checkedAddSize 0 with
        | none => some { status := .overflow, roots }
        | some allocationBytes =>
          if allocationBytes > memoryLimitBytes.toNat then
            some { status := .resourceInsufficient, roots }
          else if !memory then some (failedOutcome roots .resourceInsufficient {})
          else
            match checkEdges (nodesOf records) capacity none (nodesOf records).length
                (edgesOf records) with
            | .error (status, error) => some (failedOutcome roots status error)
            | .ok edges =>
              resolveRoots blake3 sort records (nodesOf records) edges roots capacity fuel

end

end Laplace.Evidence
