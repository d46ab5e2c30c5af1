import Laplace.Execution.Plan

/-!
# Running a piece of work (execution.cpp:1314-1454)

A provider prepares, runs the chunks and finishes, and is told to abort when a run fails after it
was asked to prepare. The provider and the task are parameters: `σ` is the state of the one, `τ`
that of the other. The calls of the provider are recorded with what they returned.
-/

namespace Laplace.Execution

/-! ## Data -/

def abiMajor : UInt16 := 1
def abiMinor : UInt16 := 1
def knownProviderFlags : UInt32 := 0
def chunkNotStarted : UInt32 := 0
def chunkComplete : UInt32 := 1
def chunkFailed : UInt32 := 2
def workCalculationOnly : UInt32 := 1
def statusOk : UInt32 := 0

/-- `laplace_execution_chunk_result` -/
structure ChunkResult where
  resultFingerprint : Digest256 := 0
  state : UInt32 := chunkNotStarted
  taskStatus : UInt32 := statusOk
deriving DecidableEq

/-- `laplace_execution_work_task_fn` -/
abbrev WorkTask (τ : Type*) := Chunk → τ → (Status × Digest256) × τ

/-- `laplace_execution_runtime_provider_v1`; a callback may be missing. `run` leaves a result in
the place of each chunk. -/
structure RuntimeProvider (σ τ : Type*) where
  providerFingerprint : Digest256
  prepare : Option (ExecutionGrant → WorkPlan → σ → Status × σ)
  run : Option (WorkPlan → List Chunk → WorkTask τ → σ × τ → (Status × (ℕ → ChunkResult)) × (σ × τ))
  finish : Option (σ → Status × σ)
  abort : Option (σ → σ)
  abiMajor : UInt16
  abiMinor : UInt16
  flags : UInt32
  reserved : UInt32

/-- `laplace_execution_work_receipt` -/
structure WorkReceipt where
  receiptId : Digest256 := 0
  grantFingerprint : Digest256 := 0
  requestFingerprint : Digest256 := 0
  planFingerprint : Digest256 := 0
  providerFingerprint : Digest256 := 0
  resultFingerprint : Digest256 := 0
  plan : WorkPlan := {}
  completedChunks : UInt64 := 0
  completedItems : UInt64 := 0
  flags : UInt32 := workCalculationOnly
  status : Status := .ok
deriving DecidableEq

/-- A call of the provider, with what it returned. -/
inductive Call
  | prepare (status : Status)
  | run (chunks : List Chunk) (status : Status) (results : List ChunkResult)
  | finish (status : Status)
  | abort
deriving DecidableEq

/-- What the two `resize` calls do. -/
inductive Resize
  | done | badAlloc | lengthError
deriving DecidableEq, Repr

/-- How a run ends: `std::length_error` is not caught, and then there is no status. -/
structure Ended (σ τ : Type*) where
  status : Option Status
  receipt : WorkReceipt
  calls : List Call
  state : σ
  taskState : τ

section

variable (blake3 : Blake3)

/-! ## Fingerprints -/

/-- `execution_hash_grant` -/
def hashGrant (grant : ExecutionGrant) : Digest256 :=
  blake3 (domainBytes "laplace-execution-grant-v1" ++ u64Bytes grant.memoryBytes ++
    u32Bytes grant.cpuSlots ++ u32Bytes grant.ioSlots)

/-- `execution_hash_request` -/
def hashRequest (request : WorkRequest) : Digest256 :=
  blake3 (domainBytes "laplace-execution-work-request-v1" ++ u64Bytes request.itemCount ++
    u64Bytes request.residentMemoryBytes ++ u64Bytes request.memoryBytesPerItem ++
    u64Bytes request.minimumChunkItems ++ u32Bytes request.outerWorkerLimit ++
    u32Bytes request.innerThreadsPerWorker ++ u32Bytes request.requiredIoSlots)

/-- `execution_hash_plan` -/
def hashPlan (plan : WorkPlan) : Digest256 :=
  blake3 (domainBytes "laplace-execution-work-plan-v1" ++ u64Bytes plan.chunkItems ++
    u64Bytes plan.chunkCount ++ u64Bytes plan.peakMemoryBytes ++ u32Bytes plan.outerWorkers ++
    u32Bytes plan.innerThreadsPerWorker ++ u32Bytes plan.ioSlots)

/-- `execution_hash_results` -/
def hashResults (chunks : List Chunk) (results : List ChunkResult) : Digest256 :=
  blake3 (domainBytes "laplace-execution-work-results-v1" ++ u64Bytes (UInt64.ofNat chunks.length) ++
    (chunks.zip results).flatMap fun (chunk, result) =>
      u64Bytes chunk.chunkIndex ++ u64Bytes chunk.firstItem ++ u64Bytes chunk.itemCount ++
      u32Bytes result.state ++ u32Bytes result.taskStatus ++ result.resultFingerprint.bytes)

/-- `execution_hash_receipt` -/
def hashReceipt (receipt : WorkReceipt) : WorkReceipt :=
  { receipt with
    receiptId := blake3 (domainBytes "laplace-execution-work-receipt-v1" ++
      u32Bytes receipt.flags ++ u32Bytes (UInt32.ofNat receipt.status.ctorIdx) ++
      u64Bytes receipt.completedChunks ++ u64Bytes receipt.completedItems ++
      receipt.grantFingerprint.bytes ++ receipt.requestFingerprint.bytes ++
      receipt.planFingerprint.bytes ++ receipt.providerFingerprint.bytes ++
      receipt.resultFingerprint.bytes) }

/-! ## Chunks -/

/-- The loop that fills the chunks, and the item after the last. -/
def makeChunks (itemCount chunkItems : UInt64) : ℕ → ℕ → UInt64 → List Chunk × UInt64
  | 0, _, firstItem => ([], firstItem)
  | count + 1, index, firstItem =>
    let items := min chunkItems (itemCount - firstItem)
    let rest := makeChunks itemCount chunkItems count (index + 1) (firstItem + items)
    (⟨UInt64.ofNat index, firstItem, items⟩ :: rest.1, rest.2)

/-! ## Results -/

def ChunkResult.complete (result : ChunkResult) : Bool :=
  result.state = chunkComplete ∧ result.taskStatus = statusOk

/-- Whether the state of a result and its status go together. -/
def ChunkResult.valid (result : ChunkResult) : Bool :=
  result.complete ∨ (result.state = chunkNotStarted ∧ result.taskStatus = statusOk) ∨
    (result.state = chunkFailed ∧ result.taskStatus ≠ statusOk)

/-- The loop over the results: what they add to the receipt, and whether all are valid. -/
def countResults : List Chunk → List ChunkResult → WorkReceipt → WorkReceipt × Bool
  | chunk :: chunks, result :: results, receipt =>
    if result.complete then
      countResults chunks results
        { receipt with
          completedChunks := receipt.completedChunks + 1
          completedItems := receipt.completedItems + chunk.itemCount }
    else
      let rest := countResults chunks results receipt
      (rest.1, result.valid && rest.2)
  | _, _, receipt => (receipt, true)

/-! ## The run -/

variable {σ τ : Type*}

/-- The checks of a provider before it is called. -/
def RuntimeProvider.valid (provider : RuntimeProvider σ τ) : Bool :=
  provider.abiMajor = Execution.abiMajor ∧ provider.abiMinor ≤ Execution.abiMinor ∧
    provider.flags = knownProviderFlags ∧ provider.reserved = 0

/-- Leave with a status that the receipt records. -/
def leave (status : Status) (receipt : WorkReceipt) (calls : List Call) (state : σ) (taskState : τ) :
    Ended σ τ where
  status := some status
  receipt := hashReceipt blake3 { receipt with status }
  calls := calls
  state := state
  taskState := taskState

/-- `laplace_execution_run_work` -/
def runWork (grant : ExecutionGrant) (request : WorkRequest) (provider : RuntimeProvider σ τ)
    (task : WorkTask τ) (resize : Resize) (state : σ) (taskState : τ) : Ended σ τ :=
  let receipt : WorkReceipt := {
    grantFingerprint := hashGrant blake3 grant
    requestFingerprint := hashRequest blake3 request
    providerFingerprint := provider.providerFingerprint }
  match planWork grant request with
  | .error status => leave blake3 status receipt [] state taskState
  | .ok plan =>
    let receipt := { receipt with plan, planFingerprint := hashPlan blake3 plan }
    match provider.prepare, provider.run, provider.finish, provider.abort with
    | some prepare, some run, some finish, some abort =>
      if !provider.valid then leave blake3 .providerInvalid receipt [] state taskState
      else
        match resize with
        | .badAlloc => leave blake3 .resourceInsufficient receipt [] state taskState
        | .lengthError => ⟨none, receipt, [], state, taskState⟩
        | .done =>
          let (chunks, firstItem) :=
            makeChunks request.itemCount plan.chunkItems plan.chunkCount.toNat 0 0
          if firstItem ≠ request.itemCount then leave blake3 .overflow receipt [] state taskState
          else
            let (prepared, state) := prepare grant plan state
            if prepared ≠ .ok then
              leave blake3 .providerPrepareFailed receipt [.prepare prepared, .abort] (abort state)
                taskState
            else
              let ((ran, written), (state, taskState)) := run plan chunks task (state, taskState)
              let results := (List.range chunks.length).map written
              let calls := [.prepare prepared, .run chunks ran results]
              let (receipt, contractValid) := countResults chunks results receipt
              let receipt := { receipt with resultFingerprint := hashResults blake3 chunks results }
              if !contractValid then
                leave blake3 .resultInvalid receipt (calls ++ [.abort]) (abort state) taskState
              else if ran ≠ .ok then
                leave blake3 .providerRunFailed receipt (calls ++ [.abort]) (abort state) taskState
              else if receipt.completedChunks ≠ receipt.plan.chunkCount ∨
                  receipt.completedItems ≠ request.itemCount then
                leave blake3 .resultInvalid receipt (calls ++ [.abort]) (abort state) taskState
              else
                let (finished, state) := finish state
                let calls := calls ++ [.finish finished]
                if finished ≠ .ok then
                  leave blake3 .providerFinishFailed receipt (calls ++ [.abort]) (abort state)
                    taskState
                else leave blake3 .ok receipt calls state taskState
    | _, _, _, _ => leave blake3 .providerInvalid receipt [] state taskState

end

end Laplace.Execution
