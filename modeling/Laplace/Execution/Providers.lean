import Laplace.Execution.Acceptance
import Laplace.Execution.Dispatch
import Laplace.Execution.Protocol

/-!
# The two providers (execution.cpp:1250-1312, execution_oneapi.cpp:48-207)

The serial provider calls the chunks in their order, the other one lets its workers take them. Where
the outcome of a chunk does not depend on the chunks called before, a run cannot tell them apart.
What the libraries of the other provider throw is not modelled.
-/

namespace Laplace.Execution

/-! ## The providers -/

section

variable {τ : Type*} (blake3 : Blake3)

/-- `serial_run` -/
def serialRun (task : WorkTask τ) (chunks : List Chunk) :
    List ℕ → (ℕ → ChunkResult) × τ → Status × ((ℕ → ChunkResult) × τ)
  | [], memory => (.ok, memory)
  | index :: indices, memory =>
    let (status, memory) := callChunk task chunks index memory
    if status ≠ .ok then (status, memory) else serialRun task chunks indices memory

/-- `laplace_execution_serial_provider` -/
def serialProvider : RuntimeProvider Unit τ where
  providerFingerprint := blake3 (domainBytes "laplace-execution-serial-provider-v1" ++
    u32Bytes abiMajor.toUInt32 ++ u32Bytes abiMinor.toUInt32)
  prepare := some fun _ _ state => (.ok, state)
  run := some fun _ chunks task (state, taskState) =>
    let (ran, memory) := serialRun task chunks (List.range chunks.length) (fun _ => {}, taskState)
    ((ran, memory.1), (state, memory.2))
  finish := some fun state => (.ok, state)
  abort := some id
  abiMajor := abiMajor
  abiMinor := abiMinor
  flags := knownProviderFlags
  reserved := 0

inductive Lifecycle
  | idle | prepared | running
deriving DecidableEq, Repr

/-- `laplace_execution_oneapi_provider_state` -/
structure OneapiState where
  lifecycle : Lifecycle
  grant : ExecutionGrant
  plan : WorkPlan
deriving DecidableEq

/-- The largest `int` -/
def intMaximum : UInt32 := 0x7FFFFFFF

/-- `provider_prepare` -/
def providerPrepare (grant : ExecutionGrant) (plan : WorkPlan) (state : OneapiState) :
    Status × OneapiState :=
  if grant.cpuSlots = 0 ∨ plan.outerWorkers = 0 ∨ plan.innerThreadsPerWorker = 0 ∨ plan.reserved ≠ 0 ∨
      grant.cpuSlots > intMaximum ∨ plan.innerThreadsPerWorker > intMaximum ∨
      plan.outerWorkers > grant.cpuSlots / plan.innerThreadsPerWorker then (.providerInvalid, state)
  else if state.lifecycle ≠ .idle then (.providerInvalid, state)
  else (.ok, ⟨.prepared, grant, plan⟩)

/-- Rounds in which every worker has a turn, as many as a dispatch can need. -/
def rounds (workers chunkCount : ℕ) : List ℕ :=
  (List.replicate (4 * chunkCount + 3) (List.range workers)).flatten

/-- `provider_run`: the workers act in the order of the schedule, and in rounds when it is over. -/
def providerRun (schedule : List ℕ) (plan : WorkPlan) (chunks : List Chunk) (task : WorkTask τ)
    (states : OneapiState × τ) : (Status × (ℕ → ChunkResult)) × (OneapiState × τ) :=
  let (state, taskState) := states
  if chunks.length ≠ plan.chunkCount.toNat ∨ state.plan ≠ plan ∨ state.lifecycle ≠ .prepared then
    ((.providerInvalid, fun _ => {}), states)
  else
    let workers := plan.outerWorkers.toNat
    let s := (Dispatch.start workers taskState).after task chunks
      (schedule ++ rounds workers chunks.length)
    ((s.firstFailure, s.memory.1), ({ state with lifecycle := .prepared }, s.memory.2))

/-- `provider_finish` -/
def providerFinish (state : OneapiState) : Status × OneapiState :=
  if state.lifecycle ≠ .prepared then (.providerInvalid, state)
  else (.ok, { state with lifecycle := .idle })

/-- `provider_abort` -/
def providerAbort (state : OneapiState) : OneapiState := { state with lifecycle := .idle }

/-- The fingerprint of the provider; `runtime` holds the literals of a generated header. -/
def oneapiFingerprint (runtime : List UInt8) : Digest256 :=
  blake3 (domainBytes "laplace-execution-oneapi-provider-v1" ++ runtime ++
    u32Bytes abiMajor.toUInt32 ++ u32Bytes abiMinor.toUInt32)

/-- `laplace_execution_oneapi_provider` -/
def oneapiProvider (runtime : List UInt8) (schedule : List ℕ) : RuntimeProvider OneapiState τ where
  providerFingerprint := oneapiFingerprint blake3 runtime
  prepare := some providerPrepare
  run := some (providerRun schedule)
  finish := some providerFinish
  abort := some providerAbort
  abiMajor := abiMajor
  abiMinor := abiMinor
  flags := knownProviderFlags
  reserved := 0

end

/-! ## Running the chunks -/

section Chunks

variable {τ : Type*} {task : WorkTask τ} {outcome : Chunk → Status × Digest256} {chunks : List Chunk}

/-- What a run of the chunks leaves when the outcome of a chunk depends on nothing else. -/
structure Ran (outcome : Chunk → Status × Digest256) (chunks : List Chunk) (ran : Status)
    (written : ℕ → ChunkResult) : Prop where
  valid : ∀ index, (written index).valid
  ok_iff : ran = .ok ↔ ∀ chunk ∈ chunks, (outcome chunk).1 = .ok
  written : ran = .ok → (List.range chunks.length).map written =
    chunks.map fun chunk => resultOf (outcome chunk)

theorem callChunks_written (houtcome : ∀ chunk taskState, (task chunk taskState).1 = outcome chunk)
    (chunks : List Chunk) (order : List ℕ) (taskState : τ) (index : ℕ) :
    (callChunks task chunks order taskState).1 index =
      if index ∈ order then (chunks[index]?.elim {} fun chunk => resultOf (outcome chunk)) else {} := by
  induction order using List.reverseRecOn with
  | nil => rfl
  | append_singleton order last ih =>
    rw [callChunks, List.foldl_append]
    change (callChunk task chunks last (callChunks task chunks order taskState)).2.1 index = _
    unfold callChunk
    cases hchunk : chunks[last]? with
    | none => grind
    | some chunk =>
      dsimp only
      rw [houtcome, Function.update_apply]
      grind

/-- The chunks of some places were called, all of them where nothing failed. -/
theorem ran_of_called (houtcome : ∀ chunk taskState, (task chunk taskState).1 = outcome chunk)
    {order : List ℕ} {taskState : τ} {ran : Status}
    (hok : ran = .ok → ∀ index < chunks.length, index ∈ order ∧
      ∀ chunk, chunks[index]? = some chunk → (outcome chunk).1 = .ok)
    (hfailed : ran ≠ .ok → ∃ index ∈ order, ∃ chunk, chunks[index]? = some chunk ∧
      (outcome chunk).1 ≠ .ok) :
    Ran outcome chunks ran (callChunks task chunks order taskState).1 := by
  have hwritten := callChunks_written houtcome chunks order taskState
  refine ⟨fun index => ?_, ⟨fun h chunk hchunk => ?_, fun hall => ?_⟩, fun h => ?_⟩
  · rw [hwritten]
    split
    · cases chunks[index]? with
      | none => rfl
      | some chunk => exact resultOf_valid _
    · rfl
  · obtain ⟨index, hindex⟩ := List.getElem?_of_mem hchunk
    exact (hok h index (List.getElem?_eq_some_iff.1 hindex).1).2 chunk hindex
  · by_contra h
    obtain ⟨index, -, chunk, hchunk, hbad⟩ := hfailed h
    exact hbad (hall chunk (List.mem_of_getElem? hchunk))
  · refine List.ext_getElem (by simp) fun index hindex hindex' => ?_
    rw [List.length_map] at hindex'
    rw [List.getElem_map, List.getElem_range, List.getElem_map, hwritten, if_pos (hok h index hindex').1,
      List.getElem?_eq_getElem hindex', Option.elim_some]

theorem serialRun_calls (houtcome : ∀ chunk taskState, (task chunk taskState).1 = outcome chunk)
    (chunks : List Chunk) : ∀ (indices : List ℕ) (memory : (ℕ → ChunkResult) × τ),
      ∃ order, (serialRun task chunks indices memory).2 =
          order.foldl (fun memory index => (callChunk task chunks index memory).2) memory ∧
        ((serialRun task chunks indices memory).1 = .ok → order = indices ∧
          ∀ index ∈ indices, ∀ chunk, chunks[index]? = some chunk → (outcome chunk).1 = .ok) ∧
        ((serialRun task chunks indices memory).1 ≠ .ok → ∃ index ∈ order, ∃ chunk,
          chunks[index]? = some chunk ∧ (outcome chunk).1 ≠ .ok)
  | [], memory => ⟨[], rfl, fun _ => ⟨rfl, nofun⟩, fun h => absurd rfl h⟩
  | index :: indices, memory => by
    have hstatus : ∀ chunk, chunks[index]? = some chunk →
        (callChunk task chunks index memory).1 = (outcome chunk).1 := by
      intro chunk hchunk
      rw [callChunk, hchunk, ← houtcome chunk memory.2]
    obtain ⟨order, hmemory, hok, hfailed⟩ :=
      serialRun_calls houtcome chunks indices (callChunk task chunks index memory).2
    unfold serialRun
    dsimp only
    by_cases hcall : (callChunk task chunks index memory).1 = .ok
    · rw [if_neg (not_not.2 hcall)]
      refine ⟨index :: order, hmemory, fun h => ?_, fun h => ?_⟩
      · obtain ⟨rfl, hgood⟩ := hok h
        exact ⟨rfl, List.forall_mem_cons.2 ⟨fun chunk hchunk => hstatus chunk hchunk ▸ hcall, hgood⟩⟩
      · obtain ⟨other, hother, hbad⟩ := hfailed h
        exact ⟨other, List.mem_cons_of_mem _ hother, hbad⟩
    · rw [if_pos hcall]
      refine ⟨[index], rfl, fun h => absurd h hcall, fun _ => ⟨index, List.mem_cons_self, ?_⟩⟩
      cases hchunk : chunks[index]? with
      | none => exact absurd (by rw [callChunk, hchunk]) hcall
      | some chunk => exact ⟨chunk, rfl, hstatus chunk hchunk ▸ hcall⟩

theorem serialRun_ran (houtcome : ∀ chunk taskState, (task chunk taskState).1 = outcome chunk)
    (chunks : List Chunk) (taskState : τ) :
    let ended := serialRun task chunks (List.range chunks.length) (fun _ => {}, taskState)
    Ran outcome chunks ended.1 ended.2.1 := by
  obtain ⟨order, hmemory, hok, hfailed⟩ := serialRun_calls houtcome chunks
    (List.range chunks.length) (fun _ => {}, taskState)
  dsimp only
  rw [hmemory]
  refine ran_of_called houtcome (fun h index hindex => ?_) hfailed
  obtain ⟨rfl, hgood⟩ := hok h
  exact ⟨List.mem_range.2 hindex, hgood index (List.mem_range.2 hindex)⟩

theorem Dispatch.Sound.ran {s : Dispatch τ} {workers : ℕ} {taskState : τ}
    (h : s.Sound task chunks workers taskState)
    (houtcome : ∀ chunk taskState, (task chunk taskState).1 = outcome chunk)
    (hworkers : 0 < workers) (hleft : ∀ worker, s.phase worker = .left) :
    Ran outcome chunks s.firstFailure s.memory.1 := by
  have hresult : ∀ index ∈ s.called, ∀ chunk, chunks[index]? = some chunk →
      s.memory.1 index = resultOf (outcome chunk) := by
    intro index hmem chunk hchunk
    rw [← h.calls, callChunks_written houtcome, if_pos hmem, hchunk]
    rfl
  rw [← h.calls]
  refine ran_of_called houtcome (fun hok index hindex => ?_) fun hfailed => ?_
  · obtain ⟨hmem, hcomplete⟩ := h.all hworkers hleft hok index hindex
    refine ⟨hmem, fun chunk hchunk => ?_⟩
    rwa [hresult index hmem chunk hchunk, resultOf_complete] at hcomplete
  · obtain ⟨index, hmem, fingerprint, hwritten⟩ := h.failed hfailed
    have hchunk := List.getElem?_eq_getElem (h.taken index hmem).2
    refine ⟨index, hmem, _, hchunk, ?_⟩
    rwa [ne_eq, ← resultOf_complete, ← hresult index hmem _ hchunk, hwritten, resultOf_complete]

theorem count_rounds {workers worker : ℕ} (hworker : worker < workers) (chunkCount : ℕ) :
    (rounds workers chunkCount).count worker = 4 * chunkCount + 3 := by
  rw [rounds, List.count_flatten, List.map_replicate, List.sum_replicate,
    List.count_eq_one_of_mem List.nodup_range (List.mem_range.2 hworker), smul_eq_mul, Nat.mul_one]

/-- With the rounds at its end every schedule lets all workers leave. -/
theorem Dispatch.left_rounds (task : WorkTask τ) (chunks : List Chunk) (workers : ℕ) (taskState : τ)
    (schedule : List ℕ) (worker : ℕ) : ((Dispatch.start workers taskState).after task chunks
      (schedule ++ rounds workers chunks.length)).phase worker = .left := by
  rcases Nat.lt_or_ge worker workers with hworker | hworker
  · refine (after_rest task chunks worker _ _).resolve_right fun hcount => ?_
    replace hcount := hcount.trans (start_rest chunks workers worker taskState)
    rw [List.count_append, count_rounds hworker] at hcount
    omega
  · exact ((Sound.start task chunks workers taskState).after _).idle worker hworker

end Chunks

/-! ## Whole runs -/

section Runs

variable {σ τ : Type*} (blake3 : Blake3) {grant : ExecutionGrant}
  {request : WorkRequest} {plan : WorkPlan} {task : WorkTask τ} {outcome : Chunk → Status × Digest256}

/-- The chunks of a plan. -/
def chunksOf (request : WorkRequest) (plan : WorkPlan) : List Chunk :=
  (makeChunks request.itemCount plan.chunkItems plan.chunkCount.toNat 0 0).1

/-- The receipt of a run without a failure. -/
def fullReceipt (grant : ExecutionGrant) (request : WorkRequest) (plan : WorkPlan)
    (fingerprint : Digest256) (results : List ChunkResult) : WorkReceipt :=
  hashReceipt blake3 {
    grantFingerprint := hashGrant blake3 grant
    requestFingerprint := hashRequest blake3 request
    planFingerprint := hashPlan blake3 plan
    providerFingerprint := fingerprint
    resultFingerprint := hashResults blake3 (chunksOf request plan) results
    plan := plan
    completedChunks := plan.chunkCount
    completedItems := request.itemCount }

theorem runWork_refused (provider : RuntimeProvider σ τ) (task : WorkTask τ) (state : σ) (taskState : τ)
    {status : Status} (hplan : planWork grant request = .error status) :
    let ended := runWork blake3 grant request provider task .done state taskState
    ended.status = some status ∧ ended.state = state := by
  unfold runWork
  rw [hplan]
  exact ⟨rfl, rfl⟩

/-- What a run comes to once the provider is prepared. -/
theorem runWork_ran (provider : RuntimeProvider σ τ) (state : σ) {state' : σ} {taskState taskState' : τ}
    {prepare : ExecutionGrant → WorkPlan → σ → Status × σ}
    {run : WorkPlan → List Chunk → WorkTask τ → σ × τ → (Status × (ℕ → ChunkResult)) × (σ × τ)}
    {finish : σ → Status × σ} {abort : σ → σ} {ran : Status} {written : ℕ → ChunkResult}
    (hplan : planWork grant request = .ok plan) (hprepare : provider.prepare = some prepare)
    (hrun : provider.run = some run) (hfinish : provider.finish = some finish)
    (habort : provider.abort = some abort) (hvalid : provider.valid)
    (hprepared : prepare grant plan state = (.ok, state'))
    (hended : run plan (chunksOf request plan) task (state', taskState) =
      ((ran, written), (state', taskState')))
    (hran : Ran outcome (chunksOf request plan) ran written) (hfinished : (finish state').1 = .ok) :
    let ended := runWork blake3 grant request provider task .done state taskState
    if ran = .ok then ended.status = some .ok ∧ ended.state = (finish state').2 ∧
        ended.taskState = taskState' ∧ ended.receipt = fullReceipt blake3 grant request plan
          provider.providerFingerprint ((chunksOf request plan).map fun chunk => resultOf (outcome chunk))
      else ended.status = some .providerRunFailed ∧ ended.state = abort state' := by
  obtain ⟨htiling, hlast⟩ := planWork_tiling hplan
  have hlength : (chunksOf request plan).length = plan.chunkCount.toNat := makeChunks_length _ _ _ _ _
  unfold runWork fullReceipt
  rw [hplan]
  dsimp only
  rw [hprepare, hrun, hfinish, habort]
  dsimp only
  rw [hvalid, if_neg (show ¬ (!true) = true by decide), if_neg (not_not.2 hlast), hprepared]
  dsimp only
  rw [if_neg (not_not.2 rfl)]
  change Tiling _ (chunksOf request plan) at htiling
  rw [show (makeChunks request.itemCount plan.chunkItems plan.chunkCount.toNat 0 0).1 =
    chunksOf request plan from rfl]
  generalize chunksOf request plan = chunks at *
  rw [hended]
  dsimp only
  have hresults : ((List.range chunks.length).map written).length = chunks.length := by
    rw [List.length_map, List.length_range]
  have hall : ((List.range chunks.length).map written).all ChunkResult.valid = true :=
    List.all_eq_true.2 fun result hresult => by
      obtain ⟨index, -, rfl⟩ := List.mem_map.1 hresult
      exact hran.valid index
  rw [countResults_eq _ hresults.symm]
  dsimp only
  rw [hall, if_neg (show ¬ (!true) = true by decide)]
  by_cases hok : ran = .ok
  · have hcomplete : ∀ result ∈ (List.range chunks.length).map written, result.complete := by
      intro result hresult
      rw [hran.written hok] at hresult
      obtain ⟨chunk, hchunk, rfl⟩ := List.mem_map.1 hresult
      exact (resultOf_complete _).2 (hran.ok_iff.1 hok chunk hchunk)
    have hcount := (completeCount_eq.2 hcomplete).trans (hresults.trans hlength)
    have hitems := completeItems_all htiling.tiles hresults.symm hcomplete
    rw [Nat.zero_add] at hitems
    rw [if_neg (not_not.2 hok), if_pos hok, hcount, hitems, UInt64.ofNat_toNat, UInt64.ofNat_toNat,
      UInt64.zero_add, UInt64.zero_add, if_neg (not_or.2 ⟨not_not.2 rfl, not_not.2 rfl⟩),
      if_neg (not_not.2 hfinished), ← hran.written hok]
    exact ⟨rfl, rfl, rfl, rfl⟩
  · rw [if_pos hok, if_neg hok]
    exact ⟨rfl, rfl⟩

theorem planWork_workers (hplan : planWork grant request = .ok plan) :
    0 < plan.outerWorkers.toNat := by
  have hcovers := (planWork_safe hplan).covers
  obtain ⟨husable, -, hallowed, -, peak, -, -, hbound, rfl⟩ := planWork_eq_ok_iff.1 hplan
  have hitems := toNat_pos husable.items
  have hchunks : 0 < (ceilDivide request.itemCount (plannedChunk grant request)).toNat := by
    refine Nat.pos_of_ne_zero fun hzero => ?_
    change _ ≤ (ceilDivide request.itemCount (plannedChunk grant request)).toNat * _ at hcovers
    rw [hzero, Nat.zero_mul] at hcovers
    omega
  have hfits : (plannedWorkers grant request).toNat < 2 ^ 32 :=
    Nat.lt_succ_of_le (UInt64.le_iff_toNat_le.1 hbound)
  change 0 < (plannedWorkers grant request).toUInt32.toNat
  rw [UInt64.toNat_toUInt32, Nat.mod_eq_of_lt hfits, plannedWorkers, toNat_min]
  exact lt_min (toNat_pos hallowed) hchunks

theorem providerPrepare_ok (hplan : planWork grant request = .ok plan)
    (hslots : grant.cpuSlots ≤ intMaximum) (held : ExecutionGrant) (prior : WorkPlan) :
    providerPrepare grant plan ⟨.idle, held, prior⟩ = (.ok, ⟨.prepared, grant, plan⟩) := by
  have hsafe := (planWork_safe hplan).slots
  have hworkers := planWork_workers hplan
  obtain ⟨husable, hprovides, -, -, peak, -, -, -, rfl⟩ := planWork_eq_ok_iff.1 hplan
  have hthreads : 0 < request.innerThreadsPerWorker.toNat :=
    Nat.pos_of_ne_zero fun hzero => husable.threads (UInt32.toNat_inj.1 hzero)
  change _ * request.innerThreadsPerWorker.toNat ≤ _ at hsafe
  have hcpu := UInt32.le_iff_toNat_le.1 hprovides.cpu
  have hmost := UInt32.le_iff_toNat_le.1 hslots
  unfold providerPrepare
  rw [if_neg, if_neg (not_not.2 rfl)]
  simp only [not_or, gt_iff_lt, UInt32.not_lt, UInt32.le_iff_toNat_le, UInt32.toNat_div,
    ← UInt32.toNat_inj, UInt32.toNat_zero]
  refine ⟨by omega, by omega, hthreads.ne', not_not.2 rfl, hmost, hcpu.trans hmost, ?_⟩
  exact (Nat.le_div_iff_mul_le hthreads).2 hsafe

/-- **The providers agree.** Where the outcome of a chunk depends on nothing else and an `int` holds the
slots, a run ends with the same status under both, however the workers interleave, and lets the provider
idle. It is OK exactly when there is a plan and all its chunks are; then every chunk was called once, and
the receipts differ in the provider only. -/
theorem runWork_oneapi (houtcome : ∀ chunk taskState, (task chunk taskState).1 = outcome chunk)
    (hslots : grant.cpuSlots ≤ intMaximum) (request : WorkRequest) (runtime : List UInt8)
    (schedule : List ℕ) (held : ExecutionGrant) (prior : WorkPlan) (taskState : τ) :
    let parallel := runWork blake3 grant request (oneapiProvider blake3 runtime schedule) task .done
      ⟨.idle, held, prior⟩ taskState
    let serial := runWork blake3 grant request (serialProvider blake3) task .done () taskState
    parallel.status = serial.status ∧ parallel.state.lifecycle = .idle ∧
      (serial.status = some .ok ↔ ∃ plan, planWork grant request = .ok plan ∧
        ∀ chunk ∈ chunksOf request plan, (outcome chunk).1 = .ok) ∧
      (serial.status = some .ok → ∃ plan order, planWork grant request = .ok plan ∧
        order.Perm (List.range (chunksOf request plan).length) ∧
        parallel.taskState = (callChunks task (chunksOf request plan) order taskState).2 ∧
        parallel.receipt = hashReceipt blake3
          { serial.receipt with providerFingerprint := oneapiFingerprint blake3 runtime }) := by
  intro parallel serial
  cases hplan : planWork grant request with
  | error status =>
    have hparallel := runWork_refused blake3 (oneapiProvider blake3 runtime schedule) task
      ⟨.idle, held, prior⟩ taskState hplan
    have hserial := (runWork_refused blake3 (serialProvider blake3) task () taskState hplan).1
    have hnot : serial.status ≠ some .ok := fun hok =>
      planWork_error hplan (Option.some.inj (hserial.symm.trans hok))
    refine ⟨hparallel.1.trans hserial.symm, hparallel.2 ▸ rfl, iff_of_false hnot ?_, fun hok =>
      absurd hok hnot⟩
    rintro ⟨plan, hok, -⟩
    cases hok
  | ok plan =>
    have hlength : (chunksOf request plan).length = plan.chunkCount.toNat := makeChunks_length _ _ _ _ _
    obtain ⟨s, hs⟩ : ∃ s, s = (Dispatch.start plan.outerWorkers.toNat taskState).after task
      (chunksOf request plan) (schedule ++ rounds plan.outerWorkers.toNat
        (chunksOf request plan).length) := ⟨_, rfl⟩
    have hsound : s.Sound task (chunksOf request plan) plan.outerWorkers.toNat taskState :=
      hs ▸ (Dispatch.Sound.start task _ _ taskState).after _
    have hleft : ∀ worker, s.phase worker = .left := fun worker =>
      hs ▸ Dispatch.left_rounds task _ _ taskState schedule worker
    have hran := hsound.ran houtcome (planWork_workers hplan) hleft
    have hran' := serialRun_ran houtcome (chunksOf request plan) taskState
    have hended : providerRun schedule plan (chunksOf request plan) task
        (⟨.prepared, grant, plan⟩, taskState) =
          ((s.firstFailure, s.memory.1), (⟨.prepared, grant, plan⟩, s.memory.2)) := by
      rw [providerRun, if_neg (by simp [hlength]), hs]
    have hparallel := runWork_ran blake3 (oneapiProvider blake3 runtime schedule) _ hplan rfl rfl rfl rfl
      rfl (providerPrepare_ok hplan hslots held prior) hended hran rfl
    have hserial := runWork_ran blake3 (serialProvider blake3) () hplan rfl rfl rfl rfl rfl rfl rfl hran' rfl
    have hstatus := hran.ok_iff.trans hran'.ok_iff.symm
    dsimp only at hparallel hserial
    by_cases hok : s.firstFailure = .ok
    · rw [if_pos hok] at hparallel
      rw [if_pos (hstatus.1 hok)] at hserial
      obtain ⟨hparallel, hstate, htask, hreceipt⟩ := hparallel
      obtain ⟨hserial, -, -, hreceipt'⟩ := hserial
      refine ⟨hparallel.trans hserial.symm, congrArg OneapiState.lifecycle hstate,
        iff_of_true hserial ⟨plan, rfl, hran.ok_iff.1 hok⟩, fun _ => ⟨plan, s.called, rfl,
          hsound.perm (planWork_workers hplan) hleft hok,
          htask.trans (congrArg Prod.snd hsound.calls).symm, ?_⟩⟩
      rw [hreceipt', fullReceipt]
      exact hreceipt
    · rw [if_neg hok] at hparallel
      rw [if_neg (mt hstatus.2 hok)] at hserial
      have hnot : serial.status ≠ some .ok := fun hdone => by cases hserial.1.symm.trans hdone
      refine ⟨hparallel.1.trans hserial.1.symm, congrArg OneapiState.lifecycle hparallel.2,
        iff_of_false hnot ?_, fun hdone => absurd hdone hnot⟩
      rintro ⟨other, heq, hall⟩
      cases heq
      exact hok (hran.ok_iff.2 hall)

theorem runWork_oneapi_two : (runWork (fun _ => 0) ⟨0, 2, 0⟩ ⟨2, 0, 0, 1, 2, 1, 0, 0⟩
    (oneapiProvider (fun _ => 0) [] [1, 0, 1]) (fun _ count => ((.ok, 0), count + 1)) .done
    ⟨.idle, ⟨0, 0, 0⟩, {}⟩ 0).status = some .ok :=
  (@runWork_oneapi ℕ (fun _ => 0) ⟨0, 2, 0⟩ _ (fun _ => (.ok, 0)) (fun _ _ => rfl) (by decide)
    ⟨2, 0, 0, 1, 2, 1, 0, 0⟩ [] [1, 0, 1] ⟨0, 0, 0⟩ {} 0).1.trans (by decide)

end Runs

end Laplace.Execution
