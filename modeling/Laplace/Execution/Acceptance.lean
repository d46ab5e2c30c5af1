import Mathlib.Algebra.Order.Floor.Div
import Laplace.Execution.Plan

/-!
# Plans under larger grants (execution.cpp:1049-1113)

A larger grant has room for more workers, and more workers have smaller chunks. The memory bounds the
workers by the smallest chunk that is asked for, but the items do not: a larger grant can bring the
chunks below it. Where no item takes memory, the items in flight can also pass the largest word.
-/

namespace Laplace.Execution

open Checked

variable {grant larger : ExecutionGrant} {request : WorkRequest} {plan : WorkPlan}

/-! ## The numbers of a plan -/

/-- The items that the memory of a grant holds at a time. -/
def heldItems (grant : ExecutionGrant) (request : WorkRequest) : ℕ :=
  (grant.memoryBytes.toNat - request.residentMemoryBytes.toNat) / request.memoryBytesPerItem.toNat

/-- The workers that a grant has room for: by its slots, the limit and the items, and by the smallest
chunks that the memory holds. -/
def workerBound (grant : ExecutionGrant) (request : WorkRequest) : ℕ :=
  if request.memoryBytesPerItem = 0 then
    min (min (grant.cpuSlots.toNat / request.innerThreadsPerWorker.toNat) request.outerWorkerLimit.toNat)
      request.itemCount.toNat
  else
    min (min (min (grant.cpuSlots.toNat / request.innerThreadsPerWorker.toNat)
      request.outerWorkerLimit.toNat) request.itemCount.toNat)
      (heldItems grant request / request.minimumChunkItems.toNat)

/-- The fields of a request that must not be zero, and the one that must. -/
structure Usable (request : WorkRequest) : Prop where
  reserved : request.reserved = 0
  items : request.itemCount ≠ 0
  minimum : request.minimumChunkItems ≠ 0
  limit : request.outerWorkerLimit ≠ 0
  threads : request.innerThreadsPerWorker ≠ 0

/-- A grant has what a request needs at least. -/
structure Provides (grant : ExecutionGrant) (request : WorkRequest) : Prop where
  cpu : request.innerThreadsPerWorker ≤ grant.cpuSlots
  memory : request.residentMemoryBytes ≤ grant.memoryBytes
  io : request.requiredIoSlots ≤ grant.ioSlots

theorem toNat_min (left right : UInt64) : (min left right).toNat = min left.toNat right.toNat := by
  change (if left ≤ right then left else right).toNat = _
  rw [min_def]
  simp only [UInt64.le_iff_toNat_le]
  split <;> rfl

theorem toNat_pos {value : UInt64} (h : value ≠ 0) : 0 < value.toNat :=
  Nat.pos_of_ne_zero fun hzero => h (UInt64.toNat_inj.1 hzero)

theorem heldItems_toNat (hmemory : request.residentMemoryBytes ≤ grant.memoryBytes) :
    ((grant.memoryBytes - request.residentMemoryBytes) / request.memoryBytesPerItem).toNat =
      heldItems grant request := by
  rw [UInt64.toNat_div, UInt64.toNat_sub_of_le _ _ hmemory, heldItems]

theorem allowedWorkers_toNat (hmemory : request.residentMemoryBytes ≤ grant.memoryBytes) :
    (allowedWorkers grant request).toNat = workerBound grant request := by
  unfold allowedWorkers workerBound
  by_cases hitem : request.memoryBytesPerItem = 0
  · rw [if_pos hitem, if_neg (not_not.2 hitem), toNat_min, toNat_min, UInt32.toNat_toUInt64,
      UInt32.toNat_toUInt64, UInt32.toNat_div]
  · rw [if_neg hitem, if_pos hitem, toNat_min, toNat_min, toNat_min, UInt32.toNat_toUInt64,
      UInt32.toNat_toUInt64, UInt32.toNat_div, UInt64.toNat_div, heldItems_toNat hmemory]

theorem ceilDivide_eq {numerator denominator : UInt64} (h : denominator ≠ 0) :
    (ceilDivide numerator denominator).toNat = numerator.toNat ⌈/⌉ denominator.toNat := by
  rw [ceilDivide_toNat numerator h, Nat.ceilDiv_eq_add_pred_div]

theorem chunkSize_toNat {workers : UInt64} (hmemory : request.residentMemoryBytes ≤ grant.memoryBytes)
    (hworkers : workers ≠ 0) : (chunkSize grant request workers).toNat =
      if request.memoryBytesPerItem = 0 then request.itemCount.toNat ⌈/⌉ workers.toNat
      else min (request.itemCount.toNat ⌈/⌉ workers.toNat) (heldItems grant request / workers.toNat) := by
  unfold chunkSize
  by_cases hitem : request.memoryBytesPerItem = 0
  · rw [if_pos hitem, if_neg (not_not.2 hitem), ceilDivide_eq hworkers]
  · rw [if_neg hitem, if_pos hitem, toNat_min, ceilDivide_eq hworkers, UInt64.toNat_div,
      heldItems_toNat hmemory]

theorem multiplyOverflows_eq_some {left right product : UInt64} :
    multiplyOverflows left right = some product ↔ product.toNat = left.toNat * right.toNat :=
  checkedMul_eq_some

theorem addOverflows_eq_some {left right sum : UInt64} :
    addOverflows left right = some sum ↔ sum.toNat = left.toNat + right.toNat := by
  rw [Nat.add_comm]
  exact checkedAdd_eq_some

theorem peakMemory_eq_some {workers chunkItems peak : UInt64} :
    peakMemory request workers chunkItems = some peak ↔
      workers.toNat * chunkItems.toNat < 2 ^ 64 ∧ peak.toNat = request.residentMemoryBytes.toNat +
        workers.toNat * chunkItems.toNat * request.memoryBytesPerItem.toNat := by
  unfold peakMemory
  rw [Option.bind_eq_bind, Option.bind_eq_some_iff]
  constructor
  · rintro ⟨live, hlive, h⟩
    rw [Option.bind_eq_some_iff] at h
    obtain ⟨variableMemory, hvariable, hsum⟩ := h
    rw [multiplyOverflows_eq_some] at hlive hvariable
    rw [addOverflows_eq_some] at hsum
    exact ⟨hlive ▸ live.toNat_lt, by rw [hsum, hvariable, hlive]⟩
  · rintro ⟨hfits, hpeak⟩
    have hroom := peak.toNat_lt
    refine ⟨UInt64.ofNat (workers.toNat * chunkItems.toNat),
      multiplyOverflows_eq_some.2 (toNat_ofNat hfits), ?_⟩
    rw [Option.bind_eq_some_iff]
    have hvariable : workers.toNat * chunkItems.toNat * request.memoryBytesPerItem.toNat < 2 ^ 64 := by
      omega
    refine ⟨UInt64.ofNat (workers.toNat * chunkItems.toNat * request.memoryBytesPerItem.toNat),
      multiplyOverflows_eq_some.2 ?_, addOverflows_eq_some.2 ?_⟩
    · rw [toNat_ofNat hfits, toNat_ofNat hvariable]
    · rw [toNat_ofNat hvariable, hpeak]

/-! ## What is planned -/

/-- The chunks for all the workers that are allowed. -/
def plannedChunk (grant : ExecutionGrant) (request : WorkRequest) : UInt64 :=
  chunkSize grant request (allowedWorkers grant request)

/-- The workers that have a chunk. -/
def plannedWorkers (grant : ExecutionGrant) (request : WorkRequest) : UInt64 :=
  min (allowedWorkers grant request) (ceilDivide request.itemCount (plannedChunk grant request))

/-- The plan that is returned. -/
def planOf (grant : ExecutionGrant) (request : WorkRequest) (peakMemoryBytes : UInt64) : WorkPlan where
  chunkItems := plannedChunk grant request
  chunkCount := ceilDivide request.itemCount (plannedChunk grant request)
  peakMemoryBytes := peakMemoryBytes
  outerWorkers := (plannedWorkers grant request).toUInt32
  innerThreadsPerWorker := request.innerThreadsPerWorker
  ioSlots := request.requiredIoSlots

theorem usable_iff : Usable request ↔ ¬ (request.reserved ≠ 0 ∨ request.itemCount = 0 ∨
    request.minimumChunkItems = 0 ∨ request.outerWorkerLimit = 0 ∨ request.innerThreadsPerWorker = 0) := by
  simp only [not_or, ne_eq, not_not]
  exact ⟨fun ⟨hreserved, hitems, hminimum, hlimit, hthreads⟩ =>
      ⟨hreserved, hitems, hminimum, hlimit, hthreads⟩,
    fun ⟨hreserved, hitems, hminimum, hlimit, hthreads⟩ =>
      ⟨hreserved, hitems, hminimum, hlimit, hthreads⟩⟩

theorem provides_iff : Provides grant request ↔ ¬ (grant.cpuSlots < request.innerThreadsPerWorker ∨
    grant.memoryBytes < request.residentMemoryBytes ∨ grant.ioSlots < request.requiredIoSlots) := by
  simp only [not_or, UInt32.not_lt, UInt64.not_lt]
  exact ⟨fun ⟨hcpu, hmemory, hio⟩ => ⟨hcpu, hmemory, hio⟩, fun ⟨hcpu, hmemory, hio⟩ => ⟨hcpu, hmemory, hio⟩⟩

theorem planWork_eq_ok_iff : planWork grant request = .ok plan ↔ Usable request ∧ Provides grant request ∧
      allowedWorkers grant request ≠ 0 ∧ request.minimumChunkItems ≤ plannedChunk grant request ∧
        ∃ peak, peakMemory request (plannedWorkers grant request) (plannedChunk grant request) = some peak ∧
          peak ≤ grant.memoryBytes ∧ plannedWorkers grant request ≤ 0xFFFFFFFF ∧
            planOf grant request peak = plan := by
  rw [usable_iff, provides_iff]
  unfold planWork
  split
  · rename_i hinvalid
    exact ⟨(nomatch ·), fun h => absurd hinvalid h.1⟩
  · rename_i husable
    split
    · rename_i hlacks
      exact ⟨(nomatch ·), fun h => absurd hlacks h.2.1⟩
    · rename_i hprovides
      change (if allowedWorkers grant request = 0 then _ else
        if plannedChunk grant request < request.minimumChunkItems then _ else _) = _ ↔ _
      by_cases hworkers : allowedWorkers grant request = 0
      · rw [if_pos hworkers]
        exact ⟨(nomatch ·), fun h => absurd hworkers h.2.2.1⟩
      · rw [if_neg hworkers]
        by_cases hsmall : plannedChunk grant request < request.minimumChunkItems
        · rw [if_pos hsmall]
          exact ⟨(nomatch ·), fun h => absurd hsmall (UInt64.not_lt.2 h.2.2.2.1)⟩
        · rw [if_neg hsmall]
          dsimp only
          split
          · rename_i hpeak
            refine ⟨(nomatch ·), ?_⟩
            rintro ⟨_, _, _, _, _, heq, _⟩
            cases hpeak.symm.trans heq
          · rename_i peak hpeak
            change (if peak > grant.memoryBytes ∨ plannedWorkers grant request > 0xFFFFFFFF then _
              else Except.ok (planOf grant request peak)) = _ ↔ _
            by_cases hover : peak > grant.memoryBytes ∨ plannedWorkers grant request > 0xFFFFFFFF
            · rw [if_pos hover]
              refine ⟨(nomatch ·), ?_⟩
              rintro ⟨_, _, _, _, other, heq, hmemory, hbound, _⟩
              cases hpeak.symm.trans heq
              exact absurd hover (not_or.2 ⟨UInt64.not_lt.2 hmemory, UInt64.not_lt.2 hbound⟩)
            · rw [if_neg hover]
              rw [not_or, gt_iff_lt, gt_iff_lt, UInt64.not_lt, UInt64.not_lt] at hover
              constructor
              · intro h
                exact ⟨husable, hprovides, hworkers, UInt64.not_lt.1 hsmall, peak, hpeak, hover.1, hover.2,
                  Except.ok.inj h⟩
              · rintro ⟨_, _, _, _, _, heq, _, _, hplan⟩
                cases hpeak.symm.trans heq
                rw [hplan]

/-! ## Safety -/

/-- A plan keeps to its grant, and its chunks cover the items without one too many. -/
structure SafePlan (grant : ExecutionGrant) (request : WorkRequest) (plan : WorkPlan) : Prop where
  slots : plan.outerWorkers.toNat * plan.innerThreadsPerWorker.toNat ≤ grant.cpuSlots.toNat
  peak : plan.peakMemoryBytes.toNat = request.residentMemoryBytes.toNat +
    plan.outerWorkers.toNat * plan.chunkItems.toNat * request.memoryBytesPerItem.toNat
  memory : plan.peakMemoryBytes ≤ grant.memoryBytes
  minimum : request.minimumChunkItems ≤ plan.chunkItems
  needed : (plan.chunkCount.toNat - 1) * plan.chunkItems.toNat < request.itemCount.toNat
  covers : request.itemCount.toNat ≤ plan.chunkCount.toNat * plan.chunkItems.toNat

theorem workerBound_le_slots :
    workerBound grant request ≤ grant.cpuSlots.toNat / request.innerThreadsPerWorker.toNat := by
  unfold workerBound
  split <;> omega

theorem lt_of_ceilDiv {items size : ℕ} (hitems : 0 < items) (hsize : 0 < size) :
    (items ⌈/⌉ size - 1) * size < items ∧ items ≤ items ⌈/⌉ size * size := by
  have hle := (ceilDiv_le_iff_le_mul hsize).1 (le_refl (items ⌈/⌉ size))
  rw [Nat.mul_comm] at hle
  refine ⟨?_, hle⟩
  by_contra hnot
  have hless := (ceilDiv_le_iff_le_mul hsize).2 ((not_lt.1 hnot).trans (Nat.mul_comm _ _).le)
  have hpos : 0 < items ⌈/⌉ size := Nat.pos_of_ne_zero fun hzero => by
    rw [hzero, Nat.zero_mul] at hle
    omega
  omega

theorem planWork_safe (h : planWork grant request = .ok plan) : SafePlan grant request plan := by
  obtain ⟨husable, hprovides, hworkers, hminimum, peak, hpeak, hmemory, hbound, rfl⟩ :=
    planWork_eq_ok_iff.1 h
  have hminimumPos := toNat_pos husable.minimum
  have hchunk : 0 < (plannedChunk grant request).toNat :=
    hminimumPos.trans_le (UInt64.le_iff_toNat_le.1 hminimum)
  have hne : plannedChunk grant request ≠ 0 := fun hzero => by
    rw [hzero] at hchunk
    exact Nat.lt_irrefl _ hchunk
  have houter : (plannedWorkers grant request).toUInt32.toNat = (plannedWorkers grant request).toNat := by
    rw [UInt64.toNat_toUInt32]
    exact Nat.mod_eq_of_lt (Nat.lt_succ_of_le (UInt64.le_iff_toNat_le.1 hbound))
  have hblocks := lt_of_ceilDiv (toNat_pos husable.items) hchunk
  rw [← ceilDivide_eq hne] at hblocks
  have hthreads : 0 < request.innerThreadsPerWorker.toNat :=
    Nat.pos_of_ne_zero fun hzero => husable.threads (UInt32.toNat_inj.1 hzero)
  refine ⟨?_, ?_, hmemory, hminimum, hblocks.1, hblocks.2⟩
  · change (plannedWorkers grant request).toUInt32.toNat * _ ≤ _
    rw [houter, plannedWorkers, toNat_min, allowedWorkers_toNat hprovides.memory]
    exact (Nat.le_div_iff_mul_le hthreads).1 ((Nat.min_le_left _ _).trans workerBound_le_slots)
  · change peak.toNat = _ + (plannedWorkers grant request).toUInt32.toNat * _ * _
    rw [houter]
    exact (peakMemory_eq_some.1 hpeak).2

/-! ## Acceptance -/

/-- A grant has a plan: the smallest chunks do not need fewer workers than it has room for, and the whole
chunks fit in a word when no item takes memory. -/
structure Plannable (grant : ExecutionGrant) (request : WorkRequest) : Prop where
  chunks : (request.minimumChunkItems.toNat - 1) * workerBound grant request < request.itemCount.toNat
  fits : request.memoryBytesPerItem = 0 →
    request.itemCount.toNat ⌈/⌉ (request.itemCount.toNat ⌈/⌉ workerBound grant request) *
      (request.itemCount.toNat ⌈/⌉ workerBound grant request) < 2 ^ 64

theorem le_ceilDiv_iff {items workers minimum : ℕ} (hworkers : 0 < workers) (hminimum : 0 < minimum) :
    minimum ≤ items ⌈/⌉ workers ↔ (minimum - 1) * workers < items := by
  rw [← not_lt, Nat.lt_iff_le_pred hminimum, ceilDiv_le_iff_le_mul hworkers, not_le, Nat.mul_comm]

theorem ceilDiv_ceilDiv_le {items workers : ℕ} (hitems : 0 < items) (hworkers : 0 < workers) :
    items ⌈/⌉ (items ⌈/⌉ workers) ≤ workers := by
  have hle := (ceilDiv_le_iff_le_mul hworkers).1 (le_refl (items ⌈/⌉ workers))
  have hpos : 0 < items ⌈/⌉ workers := Nat.pos_of_ne_zero fun hzero => by
    rw [hzero, Nat.mul_zero] at hle
    omega
  rw [ceilDiv_le_iff_le_mul hpos, Nat.mul_comm]
  exact hle

theorem workerBound_le_limit : workerBound grant request ≤ request.outerWorkerLimit.toNat := by
  unfold workerBound
  split <;> omega

theorem workerBound_le_held (h : request.memoryBytesPerItem ≠ 0) :
    workerBound grant request ≤ heldItems grant request / request.minimumChunkItems.toNat := by
  rw [workerBound, if_neg h]
  exact Nat.min_le_right _ _

theorem plannedWorkers_le (hprovides : Provides grant request) :
    (plannedWorkers grant request).toNat ≤ workerBound grant request := by
  rw [plannedWorkers, toNat_min, allowedWorkers_toNat hprovides.memory]
  exact Nat.min_le_left _ _

theorem plannedWorkers_fits (hprovides : Provides grant request) :
    plannedWorkers grant request ≤ 0xFFFFFFFF := by
  rw [UInt64.le_iff_toNat_le]
  exact (plannedWorkers_le hprovides).trans
    (workerBound_le_limit.trans (Nat.le_of_lt_succ request.outerWorkerLimit.toNat_lt))

section Accepts

variable (hprovides : Provides grant request) (hworkers : 0 < workerBound grant request)
include hprovides hworkers

theorem allowedWorkers_ne_zero : allowedWorkers grant request ≠ 0 := fun hzero => by
  rw [← allowedWorkers_toNat hprovides.memory, hzero] at hworkers
  exact Nat.lt_irrefl _ hworkers

theorem plannedChunk_toNat : (plannedChunk grant request).toNat =
    if request.memoryBytesPerItem = 0 then request.itemCount.toNat ⌈/⌉ workerBound grant request
    else min (request.itemCount.toNat ⌈/⌉ workerBound grant request)
      (heldItems grant request / workerBound grant request) := by
  rw [plannedChunk, chunkSize_toNat hprovides.memory (allowedWorkers_ne_zero hprovides hworkers),
    allowedWorkers_toNat hprovides.memory]

theorem minimum_le_plannedChunk_iff (husable : Usable request) :
    request.minimumChunkItems ≤ plannedChunk grant request ↔
      (request.minimumChunkItems.toNat - 1) * workerBound grant request < request.itemCount.toNat := by
  have hminimum := toNat_pos husable.minimum
  rw [UInt64.le_iff_toNat_le, plannedChunk_toNat hprovides hworkers, ← le_ceilDiv_iff hworkers hminimum]
  split
  · rfl
  · rename_i hitem
    have hheld : request.minimumChunkItems.toNat ≤ heldItems grant request / workerBound grant request := by
      have hbound : workerBound grant request ≤ _ := workerBound_le_held hitem
      have hle := (Nat.le_div_iff_mul_le hminimum).1 hbound
      rw [Nat.le_div_iff_mul_le hworkers, Nat.mul_comm]
      exact hle
    exact ⟨fun h => h.trans (Nat.min_le_left _ _), fun h => le_min h hheld⟩

theorem memory_fits_iff (husable : Usable request)
    (hminimum : request.minimumChunkItems ≤ plannedChunk grant request) :
    (∃ peak, peakMemory request (plannedWorkers grant request) (plannedChunk grant request) = some peak ∧
      peak ≤ grant.memoryBytes) ↔ (request.memoryBytesPerItem = 0 →
        request.itemCount.toNat ⌈/⌉ (request.itemCount.toNat ⌈/⌉ workerBound grant request) *
          (request.itemCount.toNat ⌈/⌉ workerBound grant request) < 2 ^ 64) := by
  have hchunk := plannedChunk_toNat hprovides hworkers
  have hroom := UInt64.le_iff_toNat_le.1 hprovides.memory
  simp only [peakMemory_eq_some]
  by_cases hitem : request.memoryBytesPerItem = 0
  · rw [if_pos hitem] at hchunk
    have hne : plannedChunk grant request ≠ 0 := fun hzero => by
      have hpos := (toNat_pos husable.minimum).trans_le (UInt64.le_iff_toNat_le.1 hminimum)
      rw [hzero] at hpos
      exact Nat.lt_irrefl _ hpos
    have hwhole : (plannedWorkers grant request).toNat * (plannedChunk grant request).toNat =
        request.itemCount.toNat ⌈/⌉ (request.itemCount.toNat ⌈/⌉ workerBound grant request) *
          (request.itemCount.toNat ⌈/⌉ workerBound grant request) := by
      rw [plannedWorkers, toNat_min, allowedWorkers_toNat hprovides.memory, ceilDivide_eq hne, hchunk,
        min_eq_right (ceilDiv_ceilDiv_le (toNat_pos husable.items) hworkers)]
    have hzero : request.memoryBytesPerItem.toNat = 0 := by rw [hitem, UInt64.toNat_zero]
    rw [hwhole, hzero]
    exact ⟨fun ⟨_, ⟨hfits, _⟩, _⟩ _ => hfits,
      fun h => ⟨request.residentMemoryBytes, ⟨h hitem, by rw [Nat.mul_zero, Nat.add_zero]⟩,
        hprovides.memory⟩⟩
  · rw [if_neg hitem] at hchunk
    have hheld : (plannedWorkers grant request).toNat * (plannedChunk grant request).toNat ≤
        heldItems grant request := by
      rw [hchunk]
      calc (plannedWorkers grant request).toNat * _
          ≤ workerBound grant request * (heldItems grant request / workerBound grant request) :=
            Nat.mul_le_mul (plannedWorkers_le hprovides) (Nat.min_le_right _ _)
        _ ≤ heldItems grant request := Nat.mul_div_le _ _
    have hbytes : (plannedWorkers grant request).toNat * (plannedChunk grant request).toNat *
        request.memoryBytesPerItem.toNat ≤
          grant.memoryBytes.toNat - request.residentMemoryBytes.toNat :=
      (Nat.mul_le_mul_right _ hheld).trans (Nat.div_mul_le_self _ _)
    have hword := grant.memoryBytes.toNat_lt
    have hitemPos := toNat_pos hitem
    have hlive : (plannedWorkers grant request).toNat * (plannedChunk grant request).toNat < 2 ^ 64 := by
      have hle := Nat.le_mul_of_pos_right
        ((plannedWorkers grant request).toNat * (plannedChunk grant request).toNat) hitemPos
      omega
    have hpeak := toNat_ofNat (n := request.residentMemoryBytes.toNat +
      (plannedWorkers grant request).toNat * (plannedChunk grant request).toNat *
        request.memoryBytesPerItem.toNat) (show _ < 2 ^ 64 by omega)
    refine ⟨fun _ h => absurd h hitem, fun _ => ⟨_, ⟨hlive, hpeak⟩, ?_⟩⟩
    rw [UInt64.le_iff_toNat_le, hpeak]
    omega

theorem planWork_accepts_iff (husable : Usable request) :
    (∃ plan, planWork grant request = .ok plan) ↔ Plannable grant request := by
  simp only [planWork_eq_ok_iff]
  constructor
  · rintro ⟨_, _, _, _, hminimum, peak, hpeak, hmemory, _, _⟩
    exact ⟨(minimum_le_plannedChunk_iff hprovides hworkers husable).1 hminimum,
      (memory_fits_iff hprovides hworkers husable hminimum).1 ⟨peak, hpeak, hmemory⟩⟩
  · intro h
    have hminimum := (minimum_le_plannedChunk_iff hprovides hworkers husable).2 h.chunks
    obtain ⟨peak, hpeak, hmemory⟩ := (memory_fits_iff hprovides hworkers husable hminimum).2 h.fits
    exact ⟨_, husable, hprovides, allowedWorkers_ne_zero hprovides hworkers, hminimum, peak, hpeak, hmemory,
      plannedWorkers_fits hprovides, rfl⟩

end Accepts

/-! ## Larger grants -/

/-- A grant that is larger in each resource, or the same. -/
structure ExecutionGrant.LE (grant larger : ExecutionGrant) : Prop where
  memory : grant.memoryBytes ≤ larger.memoryBytes
  cpu : grant.cpuSlots ≤ larger.cpuSlots
  io : grant.ioSlots ≤ larger.ioSlots

theorem workerBound_mono (h : grant.LE larger) :
    workerBound grant request ≤ workerBound larger request := by
  have hcpu : grant.cpuSlots.toNat / request.innerThreadsPerWorker.toNat ≤
      larger.cpuSlots.toNat / request.innerThreadsPerWorker.toNat :=
    Nat.div_le_div_right (UInt32.le_iff_toNat_le.1 h.cpu)
  have hheld : heldItems grant request ≤ heldItems larger request :=
    Nat.div_le_div_right (Nat.sub_le_sub_right (UInt64.le_iff_toNat_le.1 h.memory) _)
  have hminimum := Nat.div_le_div_right (c := request.minimumChunkItems.toNat) hheld
  unfold workerBound
  split <;> omega

/-- An accepted plan is safe. Under a larger grant the request is accepted exactly when that grant has a
plan. -/
theorem planWork_larger (hle : grant.LE larger) (h : planWork grant request = .ok plan) :
    SafePlan grant request plan ∧
      ((∃ plan', planWork larger request = .ok plan') ↔ Plannable larger request) := by
  obtain ⟨husable, hprovides, hworkers, _⟩ := planWork_eq_ok_iff.1 h
  have hbound : 0 < workerBound grant request := by
    rw [← allowedWorkers_toNat hprovides.memory]
    exact toNat_pos hworkers
  have hlarger : Provides larger request :=
    ⟨UInt32.le_trans hprovides.cpu hle.cpu, UInt64.le_trans hprovides.memory hle.memory,
      UInt32.le_trans hprovides.io hle.io⟩
  exact ⟨planWork_safe h, planWork_accepts_iff hlarger (hbound.trans_le (workerBound_mono hle)) husable⟩

/-- Ten items in chunks of five at least, without memory. -/
def tenItems (minimumChunkItems : UInt64) : WorkRequest where
  itemCount := 10
  residentMemoryBytes := 0
  memoryBytesPerItem := 0
  minimumChunkItems := minimumChunkItems
  outerWorkerLimit := 8
  innerThreadsPerWorker := 1
  requiredIoSlots := 0

theorem planWork_larger_tenItems : SafePlan ⟨0, 1, 0⟩ (tenItems 5) ⟨10, 1, 0, 1, 1, 0, 0⟩ ∧
    ((∃ plan', planWork ⟨0, 2, 0⟩ (tenItems 5) = .ok plan') ↔ Plannable ⟨0, 2, 0⟩ (tenItems 5)) :=
  planWork_larger ⟨by decide, by decide, by decide⟩ (by decide +kernel)

/-- A second slot refuses chunks of six items at least. -/
theorem planWork_refuses_second_slot : ¬ ∀ (grant larger : ExecutionGrant) (request : WorkRequest)
    (plan : WorkPlan), grant.LE larger → planWork grant request = .ok plan →
      SafePlan grant request plan ∧ ∃ plan', planWork larger request = .ok plan' := by
  intro h
  obtain ⟨_, plan', hplan⟩ := h ⟨0, 1, 0⟩ ⟨0, 2, 0⟩ (tenItems 6) ⟨10, 1, 0, 1, 1, 0, 0⟩
    ⟨by decide, by decide, by decide⟩ (by decide +kernel)
  have hrefused : planWork ⟨0, 2, 0⟩ (tenItems 6) = .error .resourceInsufficient := by decide +kernel
  rw [hrefused] at hplan
  cases hplan

end Laplace.Execution
