import Laplace.Cognition.DependentEvidence
import Laplace.Target.Codec

/-!
# Target compilation (target_compile.inc)

Every job is an operator at a coordinate. The jobs are sorted by their coordinates, compiled one by
one, and the receipts of the slots are hashed in that order.
-/

namespace Laplace.Target

open CompileResult Checked
open Cognition.Packet (OperatorProgram OperatorField OperatorConstraint OperatorReceipt)
open CognitionOperator (Operator constraintOrder operatorCreate programValid)
open Packets

/-- `laplace_target_compile_status`, where memory is granted. -/
inductive CompileStatus
  | ok | invalidRequest | invalidJob | operatorFailure | materializationFailure | flattenedOperator
deriving DecidableEq, Repr

def CompileStatus.code : CompileStatus → UInt32
  | ok => 0
  | invalidRequest => 2
  | invalidJob => 3
  | operatorFailure => 4
  | materializationFailure => 5
  | flattenedOperator => 6

/-- `laplace_target_compile_job` -/
structure CompileJob where
  targetRole : UInt32
  layerIndex : UInt32
  headIndex : UInt32
  expertIndex : UInt32
  roleFingerprint : Digest256
  operatorProgram : OperatorProgram
  fields : List OperatorField
  constraints : List OperatorConstraint
  flags : UInt32
  reserved : UInt32

/-- `laplace_target_compile_request` -/
structure CompileRequest where
  evidenceBoundary : Digest256
  evidenceEpoch : Digest256
  recipeFingerprint : Digest256
  targetContractFingerprint : Digest256
  jobs : List CompileJob
  flags : UInt32
  version : UInt32
  reserved : UInt64

def requireDistinctQkVo : UInt32 := 1
def roleCompatibilityQk : UInt32 := 1
def roleContributionVo : UInt32 := 2

/-- `TargetRequestValid` -/
def targetRequestValid (request : CompileRequest) : Bool :=
  request.evidenceBoundary ≠ 0 ∧ request.evidenceEpoch ≠ 0 ∧ request.recipeFingerprint ≠ 0 ∧
    request.targetContractFingerprint ≠ 0 ∧ request.jobs ≠ [] ∧
    request.flags &&& ~~~compileKnownFlags = 0 ∧ request.version = compileVersion ∧
    request.reserved = 0

/-- `TargetJobValid` -/
def targetJobValid (request : CompileRequest) (job : CompileJob) : Bool :=
  targetRoleValid job.targetRole ∧ job.roleFingerprint ≠ 0 ∧ job.fields ≠ [] ∧
    job.constraints ≠ [] ∧ job.flags = 0 ∧ job.reserved = 0 ∧ programValid job.operatorProgram ∧
    job.operatorProgram.boundaryId = request.evidenceBoundary ∧
    job.operatorProgram.evidenceEpoch = request.evidenceEpoch

/-- What `TargetSameCoordinate` compares. -/
def jobCoordinate (job : CompileJob) : ℕ ×ₗ ℕ ×ₗ ℕ ×ₗ ℕ :=
  toLex (job.targetRole.toNat, toLex (job.layerIndex.toNat,
    toLex (job.headIndex.toNat, job.expertIndex.toNat)))

/-- What `TargetJobLess` compares. -/
def jobOrder (job : CompileJob) : (ℕ ×ₗ ℕ ×ₗ ℕ ×ₗ ℕ) ×ₗ ℕ :=
  toLex (jobCoordinate job, job.roleFingerprint.toNat)

/-- What the dense materialization of an operator writes into the two arrays, and its receipt. -/
structure DenseOutput where
  matrix : ℕ → UInt64
  rhs : ℕ → UInt64
  receiptId : Digest256

section Execute

variable (blake3 : Blake3) (sort : Sorting constraintOrder)
  (materializeDense : Operator → Option DenseOutput)

/-- The slot of a job before its matrix is hashed. -/
def slotOf (job : CompileJob) (receipt : OperatorReceipt) (materialization : Digest256)
    (matrix rhs : List UInt64) : SlotReceipt where
  slotId := 0
  roleFingerprint := job.roleFingerprint
  operatorId := receipt.operatorId
  operatorReceiptId := receipt.receiptId
  programFingerprint := receipt.programFingerprint
  fieldSetFingerprint := receipt.fieldSetFingerprint
  constraintSetFingerprint := receipt.constraintSetFingerprint
  materializationReceiptId := materialization
  matrixFingerprint := 0
  fieldCount := receipt.fieldCount
  selectedConstraintCount := receipt.selectedConstraintCount
  matrixValueCount := UInt64.ofNat matrix.length
  rhsValueCount := UInt64.ofNat rhs.length
  targetRole := job.targetRole
  layerIndex := job.layerIndex
  headIndex := job.headIndex
  expertIndex := job.expertIndex
  relationPlaneCount := receipt.relationPlaneCount
  status := compileOk

/-- `CompileTargetSlot` -/
def compileTargetSlot (job : CompileJob) : Except CompileStatus Row :=
  let count := job.fields.length
  if sizeMax / count < count then .error .invalidJob
  else
    match operatorCreate blake3 sort job.operatorProgram job.fields job.constraints with
    | (.ok, receipt, some value) =>
      match materializeDense value with
      | none => .error .materializationFailure
      | some output =>
        if output.receiptId = 0 then .error .materializationFailure
        else
          let matrix := (List.range (count * count)).map output.matrix
          let rhs := (List.range count).map output.rhs
          let slot := slotOf job receipt output.receiptId matrix rhs
          let slot := { slot with
            matrixFingerprint := targetMatrixFingerprint blake3 slot matrix rhs }
          .ok (targetSlotIdentify blake3 slot, matrix, rhs)
    | _ => .error .operatorFailure

/-- `left == right` of doubles. -/
def doubleEqual (left right : UInt64) : Bool :=
  left == right && left &&& 0x7FFFFFFFFFFFFFFF ≤ 0x7FF0000000000000 ||
    Standing.doubleIsZero left && Standing.doubleIsZero right

/-- `TargetFlattenedQkVo` -/
def targetFlattenedQkVo (rows : List Row) : Bool :=
  let qk := rows.filter fun row => row.1.targetRole = roleCompatibilityQk
  let vo := rows.filter fun row => row.1.targetRole = roleContributionVo
  qk.isEmpty || vo.isEmpty || qk.any fun left => vo.any fun right =>
    left.1.operatorId = right.1.operatorId ||
      (left.2.1.isEqv right.2.1 doubleEqual && left.2.2.isEqv right.2.2 doubleEqual)

/-- The loop that adds up the values of the slots. -/
def addSlot (totals : Totals) (slot : SlotReceipt) : Except CompileStatus Totals :=
  if totals.matrixValues ≤ UInt64.ofNat sizeMax - slot.matrixValueCount ∧
      totals.rhsValues ≤ UInt64.ofNat sizeMax - slot.rhsValueCount then
    .ok {
      distinctOperators := totals.distinctOperators.insert slot.operatorId
      matrixValues := totals.matrixValues + slot.matrixValueCount
      rhsValues := totals.rhsValues + slot.rhsValueCount }
  else .error .invalidRequest

/-- The receipt of a call that fails. -/
def failedReceipt (status : CompileStatus) : CompileReceipt :=
  ⟨0, 0, 0, 0, 0, 0, 0, 0, 0, 0, 0, status.code, compileVersion, 0⟩

/-- The first hash of `IdentifyTargetCompilation`. -/
def requestFingerprint (request : CompileRequest) (slots : List SlotReceipt) : Digest256 :=
  blake3 (domainBytes "laplace-target-compile-request-v1" ++ request.evidenceBoundary.bytes ++
    request.evidenceEpoch.bytes ++ request.recipeFingerprint.bytes ++
    request.targetContractFingerprint.bytes ++ u32Bytes request.flags ++ u32Bytes request.version ++
    u64Bytes (UInt64.ofNat slots.length) ++ slots.flatMap fun slot =>
      hashTargetSlotCoordinate slot ++ slot.operatorId.bytes ++ slot.programFingerprint.bytes ++
        slot.fieldSetFingerprint.bytes ++ slot.constraintSetFingerprint.bytes)

/-- The receipt of a compilation; both of its hashes are those of `IdentifyTargetCompilation`. -/
def compileReceipt (request : CompileRequest) (slots : List SlotReceipt) (totals : Totals) :
    CompileReceipt :=
  let receipt : CompileReceipt := {
    receiptId := 0
    requestFingerprint := requestFingerprint blake3 request slots
    evidenceBoundary := request.evidenceBoundary
    evidenceEpoch := request.evidenceEpoch
    recipeFingerprint := request.recipeFingerprint
    targetContractFingerprint := request.targetContractFingerprint
    slotCount := UInt64.ofNat slots.length
    distinctOperatorCount := UInt64.ofNat totals.distinctOperators.length
    matrixValueCount := totals.matrixValues
    rhsValueCount := totals.rhsValues
    flags := request.flags
    status := CompileStatus.ok.code
    version := compileVersion
    reserved := 0 }
  { receipt with receiptId := reidentifyCompileReceipt blake3 receipt slots }

/-- The sorted jobs, where all are valid and no two have one coordinate. -/
def orderedJobs (sortJobs : Sorting jobOrder) (request : CompileRequest) :
    Except CompileStatus (List CompileJob) :=
  if ¬ targetRequestValid request then .error .invalidRequest
  else if ¬ ∀ job ∈ request.jobs, targetJobValid request job then .error .invalidJob
  else if repeats jobCoordinate (sortJobs.sort request.jobs) then .error .invalidJob
  else .ok (sortJobs.sort request.jobs)

def compileJobs (request : CompileRequest) (jobs : List CompileJob) :
    Except CompileStatus (CompileReceipt × CompileResult) := do
  let rows ← jobs.mapM (compileTargetSlot blake3 sort materializeDense)
  if request.flags &&& requireDistinctQkVo ≠ 0 ∧ targetFlattenedQkVo rows then
    throw .flattenedOperator
  let result := ofRows rows
  let totals ← result.slots.foldlM addSlot {}
  return (compileReceipt blake3 request result.slots totals, result)

/-- `laplace_target_compile_execute`: the status, the receipt and the result. -/
def targetCompileExecute (sortJobs : Sorting jobOrder) (request : CompileRequest) :
    CompileStatus × CompileReceipt × Option CompileResult :=
  match orderedJobs sortJobs request >>= compileJobs blake3 sort materializeDense request with
  | .error status => (status, failedReceipt status, none)
  | .ok (receipt, result) => (.ok, receipt, some result)

end Execute

/-! ## The order of the jobs -/

section Order

variable {request : CompileRequest} {jobs' : List CompileJob}

theorem orderedJobs_perm (sortJobs sortJobs' : Sorting jobOrder) (hperm : request.jobs.Perm jobs') :
    orderedJobs sortJobs' { request with jobs := jobs' } = orderedJobs sortJobs request := by
  have hsorted (s : Sorting jobOrder) (jobs : List CompileJob) :
      (s.sort jobs).Pairwise fun a b => jobCoordinate a ≤ jobCoordinate b := by
    refine (s.sorted jobs).imp fun h => ?_
    rcases Prod.Lex.toLex_le_toLex.1 h with h | h
    · exact h.le
    · exact h.1.le
  have hrepeats (s : Sorting jobOrder) (jobs : List CompileJob) :
      repeats jobCoordinate (s.sort jobs) = false ↔ (jobs.map jobCoordinate).Nodup := by
    rw [← ((s.perm jobs).map jobCoordinate).nodup_iff]
    exact ⟨fun h => nodup_of_increasing (increasing_of_repeats (hsorted s jobs) h),
      repeats_of_nodup⟩
  have hvalid : targetRequestValid { request with jobs := jobs' } = targetRequestValid request := by
    have : jobs' = [] ↔ request.jobs = [] := by rw [← List.length_eq_zero_iff,
      ← List.length_eq_zero_iff, hperm.length_eq]
    simp [targetRequestValid, this]
  have hjobs : (∀ job ∈ jobs', targetJobValid { request with jobs := jobs' } job) ↔
      ∀ job ∈ request.jobs, targetJobValid request job :=
    forall_congr' fun job => by rw [← hperm.mem_iff]; rfl
  simp only [orderedJobs, hvalid, hjobs]
  by_cases hnodup : (request.jobs.map jobCoordinate).Nodup
  · have hnodup' := (hperm.map jobCoordinate).nodup_iff.1 hnodup
    have hsame : sortJobs'.sort jobs' = sortJobs.sort request.jobs :=
      sortJobs'.sort_congr sortJobs hperm.symm (List.Nodup.of_map (fun k => (ofLex k).1)
        (by rw [List.map_map]; exact hnodup'))
    rw [hsame]
  · have hnodup' := fun h => hnodup ((hperm.map jobCoordinate).nodup_iff.2 h)
    simp only [Bool.eq_true_of_not_eq_false (mt (hrepeats _ _).1 hnodup),
      Bool.eq_true_of_not_eq_false (mt (hrepeats _ _).1 hnodup'), if_true]

theorem orderedJobs_ok {sortJobs : Sorting jobOrder} {jobs : List CompileJob}
    (h : orderedJobs sortJobs request = .ok jobs) : targetRequestValid request ∧
      (∀ job ∈ jobs, targetJobValid request job) ∧ jobs ≠ [] ∧
      jobs.Pairwise fun a b => jobCoordinate a < jobCoordinate b := by
  unfold orderedJobs at h
  split_ifs at h with hvalid hjobs hrepeats
  cases h
  have hvalid : targetRequestValid request := by simpa using hvalid
  have hperm := sortJobs.perm request.jobs
  refine ⟨hvalid, fun job hjob => hjobs job (hperm.mem_iff.1 hjob), ?_, ?_⟩
  · intro hnil
    have : request.jobs = [] := by simpa [hnil] using hperm.symm
    simp [targetRequestValid, this] at hvalid
  · refine increasing_of_repeats ((sortJobs.sorted _).imp fun h => ?_) (by simpa using hrepeats)
    rcases Prod.Lex.toLex_le_toLex.1 h with h | h
    · exact h.le
    · exact h.1.le

end Order

/-! ## The slots -/

section Slots

variable {blake3 : Blake3} {sort : Sorting constraintOrder}
  {materializeDense : Operator → Option DenseOutput} {job : CompileJob} {row : Row}

theorem operatorCreate_fieldCount {program : OperatorProgram} {fields : List OperatorField}
    {constraints : List OperatorConstraint} {receipt : OperatorReceipt} {value : Operator}
    (h : operatorCreate blake3 sort program fields constraints = (.ok, receipt, some value)) :
    receipt.fieldCount = UInt64.ofNat fields.length := by
  unfold operatorCreate CognitionOperator.build at h
  split at h
  · cases h
  · rename_i built hbuilt
    cases h
    split_ifs at hbuilt
    split at hbuilt
    · cases hbuilt
    · split_ifs at hbuilt
      cases hbuilt
      rfl

/-- What a compiled slot keeps of its job, and how it is hashed. -/
structure Compiled (blake3 : Blake3) (job : CompileJob) (row : Row) : Prop where
  role : row.1.targetRole = job.targetRole
  layer : row.1.layerIndex = job.layerIndex
  head : row.1.headIndex = job.headIndex
  expert : row.1.expertIndex = job.expertIndex
  status : row.1.status = compileOk
  fields : row.1.fieldCount = UInt64.ofNat job.fields.length
  matrix : row.2.1.length = job.fields.length * job.fields.length
  rhs : row.2.2.length = job.fields.length
  matrix_count : row.1.matrixValueCount = UInt64.ofNat row.2.1.length
  rhs_count : row.1.rhsValueCount = UInt64.ofNat row.2.2.length
  square : job.fields.length ≤ sizeMax / job.fields.length
  hashed : targetMatrixFingerprint blake3 row.1 row.2.1 row.2.2 = row.1.matrixFingerprint
  identified : (targetSlotIdentify blake3 row.1).slotId = row.1.slotId

theorem compileTargetSlot_ok (h : compileTargetSlot blake3 sort materializeDense job = .ok row) :
    Compiled blake3 job row := by
  unfold compileTargetSlot at h
  simp only at h
  split_ifs at h with hsquare
  split at h
  · rename_i receipt value hcreate
    split at h
    · cases h
    · split_ifs at h
      cases h
      have hfields := operatorCreate_fieldCount hcreate
      constructor <;> first | rfl | exact hfields | simp | exact Nat.le_of_not_lt hsquare
  · cases h

theorem Compiled.less {job' : CompileJob} {row' : Row} (h : Compiled blake3 job row)
    (h' : Compiled blake3 job' row') (hless : jobCoordinate job < jobCoordinate job') :
    CoordinateLess row.1 row'.1 := by
  simp only [jobCoordinate, Prod.Lex.toLex_lt_toLex, ← UInt32.lt_iff_toNat_lt, UInt32.toNat_inj]
    at hless
  simpa only [CoordinateLess, h.role, h.layer, h.head, h.expert, h'.role, h'.layer, h'.head,
    h'.expert] using hless

theorem run_validateRow {prior : Option SlotReceipt} {totals totals' : Totals}
    (h : Compiled blake3 job row) (hrole : targetRoleValid job.targetRole) (hne : job.fields ≠ [])
    (hprior : ∀ earlier ∈ prior, CoordinateLess earlier row.1)
    (hadd : addSlot totals row.1 = .ok totals') :
    (validateRow blake3 prior row totals).reader.run [] = some (totals', []) := by
  have hpos : 0 < job.fields.length := List.length_pos_of_ne_nil hne
  have hsquare : job.fields.length * job.fields.length ≤ sizeMax :=
    (Nat.le_div_iff_mul_le hpos).1 h.square
  have hlt : job.fields.length * job.fields.length < UInt64.size :=
    Nat.lt_succ_of_le hsquare
  have hlt' : job.fields.length < UInt64.size := (Nat.le_mul_self _).trans_lt hlt
  have hfields : row.1.fieldCount.toNat = job.fields.length := by
    rw [h.fields, toNat_ofNat hlt']
  have hmax : (UInt64.ofNat sizeMax).toNat = sizeMax := rfl
  unfold addSlot at hadd
  split_ifs at hadd with htotals
  cases hadd
  unfold validateRow
  dsimp only
  rw [Routine.run_require_then, Routine.run_quotient_then, Routine.run_require_then,
    Routine.run_require_then, Routine.run_require_then, Routine.run_require_then,
    Routine.run_require_then]
  refine ⟨⟨h.role ▸ hrole, h.status, ?_, ?_, ?_⟩, ?_, ⟨?_, ?_⟩, hprior, h.hashed, h.identified,
    htotals, rfl⟩
  · rw [hfields, h.rhs]
  · rw [h.matrix_count, h.matrix, toNat_ofNat hlt]
  · rw [h.rhs_count, h.rhs, toNat_ofNat hlt']
  · intro hzero
    rw [hzero] at hfields
    exact hpos.ne hfields
  · rw [UInt64.le_iff_toNat_le, UInt64.toNat_div, hmax, hfields]
    exact h.square
  · rw [h.matrix_count, h.matrix, h.fields, UInt64.ofNat_mul]

theorem run_validateRows {jobs : List CompileJob} {rows : List Row}
    (h : List.Forall₂ (Compiled blake3) jobs rows) :
    ∀ {prior : Option SlotReceipt} {totals totals' : Totals},
      (∀ job ∈ jobs, targetRoleValid job.targetRole ∧ job.fields ≠ []) →
      (rows.map Prod.fst).Pairwise CoordinateLess →
      (∀ earlier ∈ prior, ∀ row ∈ rows, CoordinateLess earlier row.1) →
      (rows.map Prod.fst).foldlM addSlot totals = .ok totals' →
      (validateRows blake3 prior rows totals).reader.run [] = some (totals', []) := by
  induction h with
  | nil =>
    intro prior totals totals' _ _ _ hadd
    cases hadd
    rfl
  | @cons job row jobs rows hrow _ ih =>
    intro prior totals totals' hvalid hpairs hprior hadd
    rw [List.map_cons, List.foldlM_cons] at hadd
    cases hfirst : addSlot totals row.1 with
    | error status => simp [hfirst, bind, Except.bind] at hadd
    | ok middle =>
      rw [hfirst] at hadd
      obtain ⟨hbefore, hpairs⟩ := List.pairwise_cons.1 hpairs
      obtain ⟨hrole, hne⟩ := hvalid job (by simp)
      rw [validateRows, Routine.run_bind_eq_some]
      refine ⟨middle, [], run_validateRow hrow hrole hne
        (fun earlier he => hprior earlier he row (by simp)) hfirst,
        ih (fun job hjob => hvalid job (by simp [hjob])) hpairs ?_ hadd⟩
      rintro _ ⟨⟩ other hother
      exact hbefore other.1 (List.mem_map_of_mem hother)

theorem foldlM_addSlot_length {slots : List SlotReceipt} : ∀ {totals totals' : Totals},
    slots.foldlM addSlot totals = .ok totals' →
      totals'.distinctOperators.length ≤ totals.distinctOperators.length + slots.length := by
  induction slots with
  | nil =>
    intro totals totals' h
    cases h
    simp
  | cons slot slots ih =>
    intro totals totals' h
    rw [List.foldlM_cons] at h
    unfold addSlot at h
    split_ifs at h
    · have hle := ih h
      have hinsert : (totals.distinctOperators.insert slot.operatorId).length ≤
          totals.distinctOperators.length + 1 := by
        by_cases hmem : slot.operatorId ∈ totals.distinctOperators <;> simp [hmem]
      simp only [List.length_cons] at hle ⊢
      omega
    · cases h

theorem mapM_compiled {jobs : List CompileJob} : ∀ {rows : List Row},
    jobs.mapM (compileTargetSlot blake3 sort materializeDense) = .ok rows →
      List.Forall₂ (Compiled blake3) jobs rows := by
  induction jobs with
  | nil =>
    intro rows h
    cases h
    exact .nil
  | cons job jobs ih =>
    intro rows h
    rw [List.mapM_cons] at h
    cases hrow : compileTargetSlot blake3 sort materializeDense job with
    | error => simp [hrow, bind, Except.bind] at h
    | ok row =>
      cases hrows : jobs.mapM (compileTargetSlot blake3 sort materializeDense) with
      | error => simp [hrow, hrows, bind, Except.bind] at h
      | ok rows' =>
        rw [hrow, hrows] at h
        cases h
        exact .cons (compileTargetSlot_ok hrow) (ih hrows)

end Slots

/-! ## The result -/

section Result

variable {blake3 : Blake3} {sort : Sorting constraintOrder}
  {materializeDense : Operator → Option DenseOutput} {request : CompileRequest}
  {jobs : List CompileJob}

theorem Compiled.increasing {rows : List Row} (h : List.Forall₂ (Compiled blake3) jobs rows)
    (hjobs : jobs.Pairwise fun a b => jobCoordinate a < jobCoordinate b) :
    (rows.map Prod.fst).Pairwise CoordinateLess := by
  induction h with
  | nil => exact .nil
  | @cons job row jobs rows hrow hrows ih =>
    obtain ⟨hfirst, hjobs⟩ := List.pairwise_cons.1 hjobs
    refine List.pairwise_cons.2 ⟨fun slot hslot => ?_, ih hjobs⟩
    obtain ⟨other, hother, rfl⟩ := List.mem_map.1 hslot
    obtain ⟨index, hindex, rfl⟩ := List.getElem_of_mem hother
    have hindex' : index < jobs.length := hrows.length_eq ▸ hindex
    exact hrow.less (hrows.get hindex' hindex) (hfirst _ (List.getElem_mem hindex'))

theorem compileJobs_ok {receipt : CompileReceipt} {result : CompileResult}
    (h : compileJobs blake3 sort materializeDense request jobs = .ok (receipt, result)) :
    ∃ rows totals, List.Forall₂ (Compiled blake3) jobs rows ∧ result = ofRows rows ∧
      result.slots.foldlM addSlot {} = .ok totals ∧
      receipt = compileReceipt blake3 request result.slots totals := by
  unfold compileJobs at h
  cases hrows : jobs.mapM (compileTargetSlot blake3 sort materializeDense) with
  | error => simp [hrows, bind, Except.bind] at h
  | ok rows =>
    simp only [hrows, bind, Except.bind] at h
    split_ifs at h
    cases htotals : (ofRows rows).slots.foldlM addSlot {} with
    | error => simp [htotals] at h
    | ok totals =>
      simp only [htotals, pure, Except.pure] at h
      cases h
      exact ⟨rows, totals, mapM_compiled hrows, rfl, htotals, rfl⟩

theorem artifactValid_of_compiled {receipt : CompileReceipt} {result : CompileResult}
    (hrequest : targetRequestValid request) (hvalid : ∀ job ∈ jobs, targetJobValid request job)
    (hne : jobs ≠ []) (hjobs : jobs.Pairwise fun a b => jobCoordinate a < jobCoordinate b)
    (h : compileJobs blake3 sort materializeDense request jobs = .ok (receipt, result))
    (hid : receipt.receiptId ≠ 0) (hfingerprint : receipt.requestFingerprint ≠ 0)
    (hlength : result.slots.length < UInt64.size) : ArtifactValid blake3 result receipt := by
  obtain ⟨rows, totals, hrows, rfl, htotals, rfl⟩ := compileJobs_ok h
  have hcount := foldlM_addSlot_length htotals
  simp only [List.length_nil, Nat.zero_add] at hcount
  have hrun := @run_validateRows _ _ _ hrows none _ _ (fun job hjob => (by
    have := hvalid job hjob
    simp only [targetJobValid, decide_eq_true_eq] at this
    exact ⟨this.1, this.2.2.1⟩)) (Compiled.increasing hrows hjobs) nofun htotals
  unfold ArtifactValid validateCompileArtifact
  rw [Routine.run_require_then, Routine.run_bind_eq_some]
  refine ⟨?_, totals, [], by rwa [rows_ofRows], Routine.run_require_then.2 ⟨?_, ?_⟩⟩
  · simp only [targetRequestValid, decide_eq_true_eq] at hrequest
    obtain ⟨hboundary, hepoch, hrecipe, hcontract, -, hflags, -⟩ := hrequest
    simp only [receiptValid, decide_eq_true_eq]
    refine ⟨rfl, rfl, rfl, hflags, hid, hfingerprint, hboundary, hepoch, hrecipe, hcontract, ?_, ?_,
      ?_, ?_⟩
    · intro hnil
      have : rows = [] := by simpa [ofRows] using hnil
      subst this
      cases hrows
      exact hne rfl
    · simp [ofRows]
    · simp [ofRows]
    · exact toNat_ofNat hlength
  · exact ⟨toNat_ofNat (hcount.trans_lt hlength), rfl, rfl⟩
  · change ((if _ then _ else _ : Routine PackageStatus Unit)).reader.run [] = _
    exact (congrArg (fun routine => (Routine.reader routine).run []) (if_pos rfl)).trans rfl

/-- **The order of the jobs does not matter, and what is compiled can be packaged.** -/
theorem targetCompileExecute_packageable (blake3 : Blake3)
    (sort : Sorting constraintOrder) (materializeDense : Operator → Option DenseOutput)
    (sortJobs : Sorting jobOrder) (request : CompileRequest) :
    (∀ (sortJobs' : Sorting jobOrder) (jobs : List CompileJob), request.jobs.Perm jobs →
      targetCompileExecute blake3 sort materializeDense sortJobs' { request with jobs } =
        targetCompileExecute blake3 sort materializeDense sortJobs request) ∧
    ∀ receipt result, targetCompileExecute blake3 sort materializeDense sortJobs request =
        (.ok, receipt, some result) →
      result.slots.Pairwise CoordinateLess ∧
      (receipt.receiptId ≠ 0 → receipt.requestFingerprint ≠ 0 →
        ∀ (capacity : Routine.ObjectSize) input, packageSize result.rows ≤ capacity →
          ∃ bytes packageReceipt, (encode blake3 result receipt capacity).ends Routine.unlimited
            input = .returned (bytes, packageReceipt)) := by
  constructor
  · intro sortJobs' jobs hperm
    have hjobs : compileJobs blake3 sort materializeDense { request with jobs } =
        compileJobs blake3 sort materializeDense request := rfl
    simp only [targetCompileExecute, orderedJobs_perm sortJobs sortJobs' hperm, hjobs]
  · intro receipt result h
    unfold targetCompileExecute at h
    cases hordered : orderedJobs sortJobs request with
    | error status => simp [hordered, bind, Except.bind] at h
    | ok jobs =>
      cases hcompiled : compileJobs blake3 sort materializeDense request jobs with
      | error status => simp [hordered, hcompiled, bind, Except.bind] at h
      | ok both =>
        simp only [hordered, hcompiled, bind, Except.bind, Prod.mk.injEq, Option.some.injEq,
          true_and] at h
        obtain ⟨rfl, rfl⟩ := h
        obtain ⟨hrequest, hvalid, hne, hjobs⟩ := orderedJobs_ok hordered
        obtain ⟨rows, totals, hrows, hresult, -⟩ := compileJobs_ok hcompiled
        refine ⟨hresult ▸ Compiled.increasing hrows hjobs, ?_⟩
        intro hid hfingerprint capacity input hcapacity
        have hsize : packageSize both.2.rows ≤ 2 ^ 63 - 1 := hcapacity.trans capacity.2
        have hlength : both.2.slots.length < UInt64.size := by
          have hle := length_le_sum both.2.rows
          have heq : both.2.slots.length = both.2.rows.length := by
            rw [hresult, rows_ofRows]
            simp [ofRows]
          simp only [packageSize, slotReceiptEncodedBytes, UInt64.size] at hsize hle ⊢
          omega
        exact ⟨_, _, Routine.returned_iff.2 ⟨_, run_encode_iff.2 ⟨artifactValid_of_compiled hrequest
          hvalid hne hjobs hcompiled hid hfingerprint hlength,
          hsize.trans (by decide), hcapacity, rfl, rfl, rfl⟩⟩⟩

/-- A job for a field of two, and the request of two such jobs. -/
def testimonyJob (layer : UInt32) : CompileJob :=
  ⟨roleCompatibilityQk, layer, 0, 0, 1, CognitionOperator.oneFamily, CognitionOperator.twoFields,
    [CognitionOperator.between 1 1 CognitionOperator.sourceTestimony 5 0], 0, 0⟩

def twoJobs (jobs : List CompileJob) : CompileRequest := ⟨1, 1, 1, 1, jobs, 0, compileVersion, 0⟩

theorem targetCompileExecute_packageable_twoJobs : ∃ receipt result,
    (∀ jobs ∈ [[testimonyJob 0, testimonyJob 1], [testimonyJob 1, testimonyJob 0]],
      targetCompileExecute (fun _ => 1) (Sorting.insertion _) (fun _ => some ⟨fun _ => 0, fun _ => 0, 1⟩)
        (Sorting.insertion _) (twoJobs jobs) = (.ok, receipt, some result)) ∧
    result.slots.Pairwise CoordinateLess ∧
    ∃ bytes packageReceipt, (encode (fun _ => 1) result receipt 4096).ends Routine.unlimited [] =
      .returned (bytes, packageReceipt) := by
  obtain ⟨receipt, result, h, hid, hfingerprint, hsize⟩ : ∃ receipt result,
      targetCompileExecute (fun _ => 1) (Sorting.insertion _)
        (fun _ => some ⟨fun _ => 0, fun _ => 0, 1⟩) (Sorting.insertion _)
        (twoJobs [testimonyJob 0, testimonyJob 1]) = (.ok, receipt, some result) ∧
      receipt.receiptId ≠ 0 ∧ receipt.requestFingerprint ≠ 0 ∧ packageSize result.rows ≤ 4096 :=
    ⟨_, _, rfl, by decide, by decide, by decide⟩
  obtain ⟨hperm, hok⟩ := targetCompileExecute_packageable (fun _ => 1) (Sorting.insertion _)
    (fun _ => some ⟨fun _ => 0, fun _ => 0, 1⟩) (Sorting.insertion _)
    (twoJobs [testimonyJob 0, testimonyJob 1])
  obtain ⟨hpairs, hencode⟩ := hok receipt result h
  have hswap := (hperm (Sorting.insertion _) _ (List.Perm.swap _ _ _)).trans h
  exact ⟨receipt, result, by simpa using ⟨h, hswap⟩, hpairs,
    hencode hid hfingerprint ⟨4096, by decide⟩ [] hsize⟩

end Result

end Laplace.Target
