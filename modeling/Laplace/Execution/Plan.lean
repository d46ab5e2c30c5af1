import Laplace.Digest
import Laplace.Lib.Checked

/-!
# The plan of a piece of work (execution.cpp:1049-1113)

The items of a request are cut into chunks of one size, which is bounded by the memory that the
grant leaves to each worker; the last chunk has what remains.
-/

namespace Laplace.Execution

/-! ## Data -/

inductive Status
  | ok | invalidArgument | capacityInsufficient | topologyInvalid | resourceInsufficient | overflow
  | observationFailed | platformUnsupported | providerInvalid | providerPrepareFailed
  | providerRunFailed | providerFinishFailed | resultInvalid
deriving DecidableEq, Repr

/-- `laplace_execution_grant` -/
structure ExecutionGrant where
  memoryBytes : UInt64
  cpuSlots : UInt32
  ioSlots : UInt32
deriving DecidableEq, Repr

/-- `laplace_execution_work_request` -/
structure WorkRequest where
  itemCount : UInt64
  residentMemoryBytes : UInt64
  memoryBytesPerItem : UInt64
  minimumChunkItems : UInt64
  outerWorkerLimit : UInt32
  innerThreadsPerWorker : UInt32
  requiredIoSlots : UInt32
  reserved : UInt32 := 0
deriving DecidableEq, Repr

/-- `laplace_execution_work_plan` -/
structure WorkPlan where
  chunkItems : UInt64 := 0
  chunkCount : UInt64 := 0
  peakMemoryBytes : UInt64 := 0
  outerWorkers : UInt32 := 0
  innerThreadsPerWorker : UInt32 := 0
  ioSlots : UInt32 := 0
  reserved : UInt32 := 0
deriving DecidableEq, Repr

/-- `laplace_execution_chunk` -/
structure Chunk where
  chunkIndex : UInt64
  firstItem : UInt64
  itemCount : UInt64
deriving DecidableEq, Repr

/-! ## Planning -/

/-- `ceil_divide` -/
def ceilDivide (numerator denominator : UInt64) : UInt64 :=
  numerator / denominator + if numerator % denominator = 0 then 0 else 1

/-- `multiply_overflows`: the product, unless it overflows. -/
def multiplyOverflows (left right : UInt64) : Option UInt64 :=
  Checked.checkedMul left right

/-- `add_overflows`: the sum, unless it overflows. -/
def addOverflows (left right : UInt64) : Option UInt64 :=
  Checked.checkedAdd right left

/-- The workers that the slots and the memory of the grant allow. -/
def allowedWorkers (grant : ExecutionGrant) (request : WorkRequest) : UInt64 :=
  let workers := (grant.cpuSlots / request.innerThreadsPerWorker).toUInt64
  let workers := min workers request.outerWorkerLimit.toUInt64
  let workers := min workers request.itemCount
  let workingMemory := grant.memoryBytes - request.residentMemoryBytes
  if request.memoryBytesPerItem ≠ 0 then
    min workers (workingMemory / request.memoryBytesPerItem / request.minimumChunkItems)
  else workers

/-- The size of a chunk. -/
def chunkSize (grant : ExecutionGrant) (request : WorkRequest) (workers : UInt64) : UInt64 :=
  let chunkItems := ceilDivide request.itemCount workers
  let workingMemory := grant.memoryBytes - request.residentMemoryBytes
  if request.memoryBytesPerItem ≠ 0 then
    min chunkItems (workingMemory / request.memoryBytesPerItem / workers)
  else chunkItems

/-- The most memory in use at a time, unless it overflows. -/
def peakMemory (request : WorkRequest) (workers chunkItems : UInt64) : Option UInt64 := do
  let liveItems ← multiplyOverflows workers chunkItems
  let variableMemory ← multiplyOverflows liveItems request.memoryBytesPerItem
  addOverflows request.residentMemoryBytes variableMemory

/-- `laplace_execution_plan_work` -/
def planWork (grant : ExecutionGrant) (request : WorkRequest) : Except Status WorkPlan :=
  if request.reserved ≠ 0 ∨ request.itemCount = 0 ∨ request.minimumChunkItems = 0 ∨
      request.outerWorkerLimit = 0 ∨ request.innerThreadsPerWorker = 0 then
    .error .invalidArgument
  else if grant.cpuSlots < request.innerThreadsPerWorker ∨
      grant.memoryBytes < request.residentMemoryBytes ∨
      grant.ioSlots < request.requiredIoSlots then
    .error .resourceInsufficient
  else
    let workers := allowedWorkers grant request
    if workers = 0 then .error .resourceInsufficient
    else
      let chunkItems := chunkSize grant request workers
      if chunkItems < request.minimumChunkItems then .error .resourceInsufficient
      else
        let chunkCount := ceilDivide request.itemCount chunkItems
        let workers := min workers chunkCount
        match peakMemory request workers chunkItems with
        | none => .error .overflow
        | some peakMemoryBytes =>
          if peakMemoryBytes > grant.memoryBytes ∨ workers > 0xFFFFFFFF then .error .overflow
          else .ok {
            chunkItems
            chunkCount
            peakMemoryBytes
            outerWorkers := workers.toUInt32
            innerThreadsPerWorker := request.innerThreadsPerWorker
            ioSlots := request.requiredIoSlots }

/-! ## What a plan promises -/

theorem ceilDivide_toNat (numerator : UInt64) {denominator : UInt64} (h : denominator ≠ 0) :
    (ceilDivide numerator denominator).toNat =
      (numerator.toNat + denominator.toNat - 1) / denominator.toNat := by
  have hpos : 0 < denominator.toNat := Nat.pos_of_ne_zero fun heq =>
    h (UInt64.toNat_inj.1 heq)
  have hbound := numerator.toNat_lt
  have hdivide := Nat.div_add_mod numerator.toNat denominator.toNat
  have hmod := Nat.mod_lt numerator.toNat hpos
  have hceil : (numerator.toNat + denominator.toNat - 1) / denominator.toNat =
      numerator.toNat / denominator.toNat +
        if numerator.toNat % denominator.toNat = 0 then 0 else 1 := by
    refine Nat.div_eq_of_lt_le ?_ ?_
    · rw [Nat.add_mul, Nat.mul_comm]
      split
      · omega
      · omega
    · rw [Nat.add_mul, Nat.add_mul, Nat.mul_comm]
      split
      · omega
      · omega
  have hsmall : numerator.toNat / denominator.toNat +
      (if numerator.toNat % denominator.toNat = 0 then 0 else 1) < 2 ^ 64 := by
    split
    · exact (Nat.div_le_self _ _).trans_lt hbound
    · rename_i hrest
      have htwo : 2 ≤ denominator.toNat := by
        by_contra hless
        exact hrest (by rw [show denominator.toNat = 1 by omega, Nat.mod_one])
      have hhalf : numerator.toNat / denominator.toNat ≤ numerator.toNat / 2 :=
        Nat.div_le_div_left htwo two_pos
      omega
  have hzero : numerator % denominator = 0 ↔ numerator.toNat % denominator.toNat = 0 := by
    rw [← UInt64.toNat_inj, UInt64.toNat_mod, UInt64.toNat_zero]
  unfold ceilDivide
  rw [hceil, UInt64.toNat_add, UInt64.toNat_div]
  by_cases hrest : numerator % denominator = 0
  · rw [if_pos hrest, if_pos (hzero.1 hrest)]
    exact Nat.mod_eq_of_lt ((Nat.div_le_self _ _).trans_lt hbound)
  · rw [if_neg hrest, if_neg (fun h => hrest (hzero.2 h))]
    rw [if_neg (fun h => hrest (hzero.2 h))] at hsmall
    exact Nat.mod_eq_of_lt hsmall

theorem planWork_ok {grant : ExecutionGrant} {request : WorkRequest} {plan : WorkPlan}
    (h : planWork grant request = .ok plan) :
    plan.chunkItems ≠ 0 ∧ plan.chunkCount = ceilDivide request.itemCount plan.chunkItems := by
  unfold planWork at h
  split at h
  · cases h
  · rename_i hvalid
    split at h
    · cases h
    · dsimp only at h
      split at h
      · cases h
      · split at h
        · cases h
        · rename_i hsize
          split at h
          · cases h
          · split at h
            · cases h
            · cases h
              refine ⟨fun hzero => hvalid (.inr (.inr (.inl ?_))), rfl⟩
              dsimp only at hzero
              rw [hzero, UInt64.not_lt, UInt64.le_iff_toNat_le] at hsize
              exact UInt64.toNat_inj.1 (Nat.le_zero.1 hsize)

end Laplace.Execution
