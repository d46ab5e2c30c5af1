import Laplace.Cognition.PacketReads

/-!
# Results of cognition packets (cognition_packet.cpp:303-512, cognition_packet_words.cpp:134-176,
cognition_packet_compile.cpp:434-513, cognition_runtime.cpp)

A decoded request is executed and its result written in words; the operator and the solver are what
the engine does with it. What is read back is the result of the execution.
-/

namespace Laplace.Cognition.Packet

open Packets Reader Routine

/-! ## Execution -/

/-- The operator and the solver. The solver fills the solution in place. -/
structure Engine where
  Operator : Type
  create : OperatorProgram → List OperatorField → List OperatorConstraint →
    Option Operator × OperatorReceipt
  solve : Operator → SolverProgram → List SolverBoundary → List UInt64 → List UInt64 →
    Bool × List UInt64 × SolverReceipt
  solve_length : ∀ operator program boundaries initialState solution,
    (solve operator program boundaries initialState solution).2.1.length = solution.length

/-- A receipt of zeros. -/
def OperatorReceipt.zero : OperatorReceipt := ⟨0, 0, 0, 0, 0, 0, 0, 0, 0, 0, 0, 0, 0, 0, 0, 0⟩

def SolverReceipt.zero : SolverReceipt := ⟨0, 0, 0, 0, 0, 0, 0, 0, 0, 0, 0, 0, 0, 0, 0, 0, 0, 0, 0⟩

/-- `laplace_cognition_runtime_execute` for a decoded request, which has no boundaries; `solution`
is the caller's. The status is also the returned one. -/
def runtimeExecute (engine : Engine) (decoded : DecodedRequest) (solution : List UInt64) :
    RuntimeResult :=
  let result : RuntimeResult := ⟨solution, 0, .zero, .zero, .invalidArgument, 0⟩
  if decoded.fields.length = 0 ∨ decoded.constraints.length = 0 ∨
      decoded.initialState.length ≠ decoded.fields.length ∨
      solution.length < decoded.fields.length then result
  else
    match engine.create decoded.operatorProgram decoded.fields decoded.constraints with
    | (none, operatorReceipt) => { result with operatorReceipt, status := .operatorFailure }
    | (some operator, operatorReceipt) =>
      let solverProgram := { decoded.solverProgram with operatorId := operatorReceipt.operatorId }
      match engine.solve operator solverProgram [] decoded.initialState solution with
      | (false, solution, solverReceipt) =>
        { result with solution, operatorReceipt, solverReceipt, status := .solverFailure }
      | (true, solution, solverReceipt) =>
        { result with
          solution, operatorReceipt, solverReceipt, status := .ok
          solutionCount := UInt64.ofNat decoded.fields.length }

/-- `WriteOperatorReceipt` -/
def operatorReceiptPieces (receipt : OperatorReceipt) : List (List UInt8) :=
  [receipt.receiptId.bytes, receipt.operatorId.bytes, receipt.programFingerprint.bytes,
    receipt.fieldSetFingerprint.bytes, receipt.constraintSetFingerprint.bytes,
    u64Bytes receipt.fieldCount, u64Bytes receipt.inputConstraintCount,
    u64Bytes receipt.selectedConstraintCount, u64Bytes receipt.deduplicatedDependentCount,
    u64Bytes receipt.physicalityConstraintCount, u64Bytes receipt.testimonyConstraintCount,
    u64Bytes receipt.derivedConstraintCount, u32Bytes receipt.relationPlaneCount,
    u32Bytes receipt.status, u32Bytes receipt.version, u32Bytes receipt.flags]

/-- `WriteSolverReceipt` -/
def solverReceiptPieces (receipt : SolverReceipt) : List (List UInt8) :=
  [receipt.receiptId.bytes, receipt.programFingerprint.bytes, receipt.operatorId.bytes,
    receipt.operatorReceiptId.bytes, receipt.evidencePrecisionFingerprint.bytes,
    receipt.inputFingerprint.bytes, receipt.iterationTraceFingerprint.bytes,
    receipt.outputFingerprint.bytes, u64Bytes receipt.fieldCount, u64Bytes receipt.iterationCount,
    u64Bytes receipt.initialResidualL2, u64Bytes receipt.finalResidualL2,
    u64Bytes receipt.finalEnergy, u64Bytes receipt.regularization, u32Bytes receipt.method,
    u32Bytes receipt.disposition, u32Bytes receipt.status, u32Bytes receipt.version,
    u32Bytes receipt.flags]

def resultPieces (version : UInt32) (result : RuntimeResult) : List (List UInt8) :=
  [resultMagic, u32Bytes version, u32Bytes packetFlags, u64Bytes result.solutionCount] ++
    operatorReceiptPieces result.operatorReceipt ++ solverReceiptPieces result.solverReceipt ++
    result.solution.map u64Bytes

/-- `ExecuteDecoded`: what is written, and `*result_byte_count`. -/
def executeDecoded (engine : Engine) (decoded : DecodedRequest) (resultCapacity : ℕ) :
    Routine PacketStatus (List UInt8 × ℕ) :=
  match resultSize decoded.fields.length decoded.packetVersion with
  | none => .stop .range
  | some required => do
    require (required ≤ resultCapacity) .resultCapacity
    resize decoded.fields.length 8 .memoryFailure
    let result := runtimeExecute engine decoded (List.replicate decoded.fields.length 0)
    require (result.status = .ok ∧ result.solutionCount.toNat = decoded.fields.length)
      .runtimeFailure
    match writeAll resultCapacity (resultPieces decoded.packetVersion result) [] with
    | none => .stop .resultCapacity
    | some bytes => do
      require (bytes.length = required) .range
      return (bytes, bytes.length)

/-- `laplace_cognition_packet_execute` -/
def execute (engine : Engine) (resultCapacity : ℕ) : Routine PacketStatus (List UInt8 × ℕ) := do
  let decoded ← decodeRequest
  executeDecoded engine decoded resultCapacity

/-- `laplace_cognition_packet_execute_words`, for an input that is the bytes of the words: the words
of the result, and `*result_word_count`. -/
def executeWords (engine : Engine) (requestWordCount resultWordCapacity : ℕ) :
    Routine PacketStatus (List UInt32 × ℕ) := do
  require (requestWordCount ≠ 0) .invalidArgument
  require (requestWordCount ≤ sizeMax / 4 ∧ resultWordCapacity ≤ sizeMax / 4) .range
  resize (requestWordCount * 4) 1 .memoryFailure
  resize (resultWordCapacity * 4) 1 .memoryFailure
  let (bytes, resultBytes) ← execute engine (resultWordCapacity * 4)
  require (resultBytes % 4 = 0 ∧ resultBytes ≤ resultWordCapacity * 4) .range
  return (bytesToWords (bytes.take resultBytes), resultBytes / 4)

/-! ## Reading a result -/

/-- `ReadOperatorReceipt` -/
def readOperatorReceipt : Routine PacketStatus OperatorReceipt := do
  let receiptId ← digest .invalidRequest
  let operatorId ← digest .invalidRequest
  let programFingerprint ← digest .invalidRequest
  let fieldSetFingerprint ← digest .invalidRequest
  let constraintSetFingerprint ← digest .invalidRequest
  let fieldCount ← u64 .invalidRequest
  let inputConstraintCount ← u64 .invalidRequest
  let selectedConstraintCount ← u64 .invalidRequest
  let deduplicatedDependentCount ← u64 .invalidRequest
  let physicalityConstraintCount ← u64 .invalidRequest
  let testimonyConstraintCount ← u64 .invalidRequest
  let derivedConstraintCount ← u64 .invalidRequest
  let relationPlaneCount ← u32 .invalidRequest
  let status ← u32 .invalidRequest
  let version ← u32 .invalidRequest
  let flags ← u32 .invalidRequest
  return ⟨receiptId, operatorId, programFingerprint, fieldSetFingerprint, constraintSetFingerprint,
    fieldCount, inputConstraintCount, selectedConstraintCount, deduplicatedDependentCount,
    physicalityConstraintCount, testimonyConstraintCount, derivedConstraintCount,
    relationPlaneCount, status, version, flags⟩

/-- `ReadSolverReceipt` -/
def readSolverReceipt : Routine PacketStatus SolverReceipt := do
  let receiptId ← digest .invalidRequest
  let programFingerprint ← digest .invalidRequest
  let operatorId ← digest .invalidRequest
  let operatorReceiptId ← digest .invalidRequest
  let evidencePrecisionFingerprint ← digest .invalidRequest
  let inputFingerprint ← digest .invalidRequest
  let iterationTraceFingerprint ← digest .invalidRequest
  let outputFingerprint ← digest .invalidRequest
  let fieldCount ← u64 .invalidRequest
  let iterationCount ← u64 .invalidRequest
  let initialResidualL2 ← u64 .invalidRequest
  let finalResidualL2 ← u64 .invalidRequest
  let finalEnergy ← u64 .invalidRequest
  let regularization ← u64 .invalidRequest
  let method ← u32 .invalidRequest
  let disposition ← u32 .invalidRequest
  let status ← u32 .invalidRequest
  let version ← u32 .invalidRequest
  let flags ← u32 .invalidRequest
  return ⟨receiptId, programFingerprint, operatorId, operatorReceiptId,
    evidencePrecisionFingerprint, inputFingerprint, iterationTraceFingerprint, outputFingerprint,
    fieldCount, iterationCount, initialResidualL2, finalResidualL2, finalEnergy, regularization,
    method, disposition, status, version, flags⟩

/-- The reading of `laplace_cognition_packet_decode_result_words`. -/
def readResult (solutionCapacity : ℕ) : Routine PacketStatus (UInt32 × RuntimeResult) := do
  let magic ← bytes .invalidRequest 8
  require (magic = resultMagic) .invalidRequest
  let version ← u32 .invalidRequest
  require (packetVersionValid version) .invalidRequest
  let flags ← u32 .invalidRequest
  require (flags = packetFlags) .invalidRequest
  let solutionCount ← u64 .invalidRequest
  require (solutionCount.toNat ≤ solutionCapacity) .invalidRequest
  let operatorReceipt ← readOperatorReceipt
  let solverReceipt ← readSolverReceipt
  resize solutionCount.toNat 8 .memoryFailure
  let solution ← many (u64 .invalidRequest) solutionCount.toNat
  return (version, ⟨solution, solutionCount, operatorReceipt, solverReceipt, .ok, 0⟩)

/-- `laplace_cognition_packet_decode_result_words`, for an input that is the bytes of the words; the
solution of the result is what is copied to the caller's. -/
def decodeResultWords (wordCount solutionCapacity : ℕ) : Routine PacketStatus RuntimeResult := do
  require (wordCount ≠ 0) .invalidArgument
  require (wordCount ≤ sizeMax / 4) .range
  resize (wordCount * 4) 1 .memoryFailure
  let (version, result) ← readResult solutionCapacity
  let left ← remaining
  require (left = 0 ∧ wordCount * 4 = resultFixedBytes version + result.solution.length * 8)
    .invalidRequest
  return result

/-! ## What is read -/

theorem reads_operatorReceipt :
    Reads readOperatorReceipt.reader (fun receipt => (operatorReceiptPieces receipt).flatten)
      fun _ => True := by
  unfold readOperatorReceipt operatorReceiptPieces
  simp only [reader_bind, reader_pure, List.flatten_cons, List.flatten_nil, List.append_nil]
  refine .fields ?_
  refine reads_digest.field OperatorReceipt.receiptId fun _ => ?_
  refine reads_digest.field OperatorReceipt.operatorId fun _ => ?_
  refine reads_digest.field OperatorReceipt.programFingerprint fun _ => ?_
  refine reads_digest.field OperatorReceipt.fieldSetFingerprint fun _ => ?_
  refine reads_digest.field OperatorReceipt.constraintSetFingerprint fun _ => ?_
  refine reads_u64.field OperatorReceipt.fieldCount fun _ => ?_
  refine reads_u64.field OperatorReceipt.inputConstraintCount fun _ => ?_
  refine reads_u64.field OperatorReceipt.selectedConstraintCount fun _ => ?_
  refine reads_u64.field OperatorReceipt.deduplicatedDependentCount fun _ => ?_
  refine reads_u64.field OperatorReceipt.physicalityConstraintCount fun _ => ?_
  refine reads_u64.field OperatorReceipt.testimonyConstraintCount fun _ => ?_
  refine reads_u64.field OperatorReceipt.derivedConstraintCount fun _ => ?_
  refine reads_u32.field OperatorReceipt.relationPlaneCount fun _ => ?_
  refine reads_u32.field OperatorReceipt.status fun _ => ?_
  refine reads_u32.field OperatorReceipt.version fun _ => ?_
  refine reads_u32.last OperatorReceipt.flags (fun _ _ => trivial) fun _ _ receipt => ?_
  simp only [OperatorReceipt.ext_iff, true_and, and_assoc]

theorem reads_solverReceipt :
    Reads readSolverReceipt.reader (fun receipt => (solverReceiptPieces receipt).flatten)
      fun _ => True := by
  unfold readSolverReceipt solverReceiptPieces
  simp only [reader_bind, reader_pure, List.flatten_cons, List.flatten_nil, List.append_nil]
  refine .fields ?_
  refine reads_digest.field SolverReceipt.receiptId fun _ => ?_
  refine reads_digest.field SolverReceipt.programFingerprint fun _ => ?_
  refine reads_digest.field SolverReceipt.operatorId fun _ => ?_
  refine reads_digest.field SolverReceipt.operatorReceiptId fun _ => ?_
  refine reads_digest.field SolverReceipt.evidencePrecisionFingerprint fun _ => ?_
  refine reads_digest.field SolverReceipt.inputFingerprint fun _ => ?_
  refine reads_digest.field SolverReceipt.iterationTraceFingerprint fun _ => ?_
  refine reads_digest.field SolverReceipt.outputFingerprint fun _ => ?_
  refine reads_u64.field SolverReceipt.fieldCount fun _ => ?_
  refine reads_u64.field SolverReceipt.iterationCount fun _ => ?_
  refine reads_u64.field SolverReceipt.initialResidualL2 fun _ => ?_
  refine reads_u64.field SolverReceipt.finalResidualL2 fun _ => ?_
  refine reads_u64.field SolverReceipt.finalEnergy fun _ => ?_
  refine reads_u64.field SolverReceipt.regularization fun _ => ?_
  refine reads_u32.field SolverReceipt.method fun _ => ?_
  refine reads_u32.field SolverReceipt.disposition fun _ => ?_
  refine reads_u32.field SolverReceipt.status fun _ => ?_
  refine reads_u32.field SolverReceipt.version fun _ => ?_
  refine reads_u32.last SolverReceipt.flags (fun _ _ => trivial) fun _ _ receipt => ?_
  simp only [SolverReceipt.ext_iff, true_and, and_assoc]

/-- A result as it is written. -/
def resultWritten (result : UInt32 × RuntimeResult) : List UInt8 :=
  resultMagic ++ (u32Bytes result.1 ++ (u32Bytes packetFlags ++ (u64Bytes result.2.solutionCount ++
    ((operatorReceiptPieces result.2.operatorReceipt).flatten ++
      ((solverReceiptPieces result.2.solverReceipt).flatten ++ result.2.solution.flatMap u64Bytes)))))

theorem resultPieces_flatten (version : UInt32) (result : RuntimeResult) :
    (resultPieces version result).flatten = resultWritten (version, result) := by
  simp only [resultPieces, resultWritten, List.flatten_append, List.flatten_cons, List.flatten_nil,
    List.append_nil, List.append_assoc, List.flatMap_def]

/-- A result whose solution is as long as it says and has room with the caller. -/
structure ResultFits (solutionCapacity : ℕ) (result : UInt32 × RuntimeResult) : Prop where
  version : packetVersionValid result.1 = true
  count : result.2.solution.length = result.2.solutionCount.toNat
  capacity : result.2.solutionCount.toNat ≤ solutionCapacity
  count_le : result.2.solutionCount.toNat ≤ maxSize 8
  ok : result.2.status = .ok ∧ result.2.reserved = 0

theorem reads_result (solutionCapacity : ℕ) :
    Reads (readResult solutionCapacity).reader resultWritten (ResultFits solutionCapacity) := by
  unfold readResult resultWritten
  simp only [reader_bind, reader_pure, reader_require,
    reader_resize, reader_many]
  refine .fields ?_
  refine (reads_bytes 8).bind (fun _ : UInt32 × RuntimeResult => resultMagic) (fun _ _ => rfl)
    fun magic _ => ?_
  refine .guard_then (fun _ h => h.2.2.symm) fun hmagic => ?_
  refine reads_u32.field (fun result : UInt32 × RuntimeResult => result.1) fun version => ?_
  refine .guard_then (fun _ h => h.2.2 ▸ h.1.version) fun hversion => ?_
  refine reads_u32.field (fun _ : UInt32 × RuntimeResult => packetFlags) fun flags => ?_
  refine .guard_then (fun _ h => h.2.2.symm) fun hflags => ?_
  refine reads_u64.field (fun result : UInt32 × RuntimeResult => result.2.solutionCount) fun solutionCount => ?_
  refine .guard_then (fun _ h => h.2.2 ▸ h.1.capacity) fun hcapacity => ?_
  refine reads_operatorReceipt.bind
    (fun result : UInt32 × RuntimeResult => result.2.operatorReceipt) (fun _ _ => trivial)
    fun operatorReceipt _ => ?_
  refine reads_solverReceipt.bind
    (fun result : UInt32 × RuntimeResult => result.2.solverReceipt) (fun _ _ => trivial)
    fun solverReceipt _ => ?_
  refine .guard_then (fun result h => ?_) fun hcount => ?_
  · obtain ⟨hfits, ⟨⟨-, rfl⟩, -⟩, -⟩ := h
    exact hfits.count_le
  refine (reads_u64.many _).last (fun result : UInt32 × RuntimeResult => result.2.solution)
    (fun result h => ?_) fun solution hsolution result => ?_
  · obtain ⟨hfits, ⟨⟨-, rfl⟩, -⟩, -⟩ := h
    exact ⟨hfits.count, fun _ _ => trivial⟩
  · constructor
    · obtain ⟨version', result⟩ := result
      obtain ⟨solution', solutionCount', operatorReceipt', solverReceipt', status, reserved⟩ := result
      rintro ⟨hfits, ⟨⟨⟨⟨⟨⟨-, rfl⟩, rfl⟩, rfl⟩, rfl⟩, rfl⟩, rfl⟩, rfl⟩
      obtain ⟨rfl, rfl⟩ := hfits.ok
      rfl
    · rintro rfl
      exact ⟨⟨hversion, hsolution.1, hcapacity, hcount, rfl, rfl⟩, ⟨⟨⟨⟨⟨⟨trivial, hmagic.symm⟩,
        rfl⟩, hflags.symm⟩, rfl⟩, rfl⟩, rfl⟩, rfl⟩

/-! ## Words -/

variable {count : ℕ}

theorem bytesToWords_succ {bytes : List UInt8} (h : bytes.length = (count + 1) * 4) :
    bytesToWords bytes = loadU32 bytes :: bytesToWords (bytes.drop 4) := by
  have hcount : bytes.length / 4 = count + 1 := by omega
  have hdrop : (bytes.drop 4).length / 4 = count := by
    rw [List.length_drop]
    omega
  rw [bytesToWords, bytesToWords, hcount, hdrop, List.range_succ_eq_map, List.map_cons,
    List.map_map]
  refine congrArg₂ _ rfl (List.map_congr_left fun index _ => ?_)
  rw [Function.comp, List.drop_drop, Nat.succ_mul, Nat.add_comm]

theorem wordsToBytes_bytesToWords : ∀ {count : ℕ} {bytes : List UInt8}, bytes.length = count * 4 →
    wordsToBytes (bytesToWords bytes) = bytes
  | 0, bytes, h => by
    rw [Nat.zero_mul, List.length_eq_zero_iff] at h
    subst h
    rfl
  | count + 1, bytes, h => by
    have hrest : wordsToBytes (bytesToWords (bytes.drop 4)) = bytes.drop 4 :=
      @wordsToBytes_bytesToWords count _ (by rw [List.length_drop]; omega)
    have hword : u32Bytes (loadU32 bytes) = bytes.take 4 := by
      rw [u32Bytes_eq, loadU32_eq]
      exact Layout.word32.store_load bytes (show 4 ≤ bytes.length by omega)
    rw [wordsToBytes] at hrest ⊢
    rw [bytesToWords_succ h, List.flatMap_cons, hrest, hword, List.take_append_drop]

theorem bytesToWords_length (bytes : List UInt8) : (bytesToWords bytes).length = bytes.length / 4 := by
  rw [bytesToWords, List.length_map, List.length_range]

/-! ## A result that is written and read -/

/-- The result of a decoded request. -/
def DecodedRequest.result (decoded : DecodedRequest) (engine : Engine) : RuntimeResult :=
  runtimeExecute engine decoded (List.replicate decoded.fields.length 0)

variable {engine : Engine}

theorem runtimeExecute_ok {decoded : DecodedRequest} {solution : List UInt64}
    (h : (runtimeExecute engine decoded solution).status = .ok) :
    (runtimeExecute engine decoded solution).reserved = 0 ∧
      (runtimeExecute engine decoded solution).solution.length = solution.length := by
  unfold runtimeExecute at h ⊢
  dsimp only at h ⊢
  split at h
  · cases h
  · rename_i hfields
    rw [if_neg hfields]
    cases hcreate : engine.create decoded.operatorProgram decoded.fields decoded.constraints with
    | mk operator operatorReceipt =>
      rw [hcreate] at h
      cases operator with
      | none => cases h
      | some operator =>
        dsimp only at h ⊢
        cases hsolve : engine.solve operator
          { decoded.solverProgram with operatorId := operatorReceipt.operatorId } []
          decoded.initialState solution with
        | mk solved rest =>
          have hlength := engine.solve_length operator
            { decoded.solverProgram with operatorId := operatorReceipt.operatorId } []
            decoded.initialState solution
          rw [hsolve] at h hlength
          cases solved with
          | false => cases h
          | true => exact ⟨rfl, hlength⟩

theorem operatorReceiptPieces_length (receipt : OperatorReceipt) :
    (operatorReceiptPieces receipt).flatten.length = 232 := by
  simp only [operatorReceiptPieces, List.flatten_cons, List.flatten_nil, List.length_append,
    List.length_nil, digestBytes_length, u64Bytes_length, u32Bytes_length]

theorem solverReceiptPieces_length (receipt : SolverReceipt) :
    (solverReceiptPieces receipt).flatten.length = 324 := by
  simp only [solverReceiptPieces, List.flatten_cons, List.flatten_nil, List.length_append,
    List.length_nil, digestBytes_length, u64Bytes_length, u32Bytes_length]

theorem resultWritten_length (result : UInt32 × RuntimeResult) :
    (resultWritten result).length = 580 + result.2.solution.length * 8 := by
  have hmagic : resultMagic.length = 8 := rfl
  simp only [resultWritten, List.length_append, hmagic, u32Bytes_length, u64Bytes_length,
    operatorReceiptPieces_length, solverReceiptPieces_length, flatMap_u64_length]
  omega

theorem resultFixedBytes_eq (version : UInt32) : resultFixedBytes version = 580 := ite_self _

theorem run_executeDecoded {decoded : DecodedRequest} {resultCapacity : ℕ} {input bytes rest : List UInt8}
    (h : (executeDecoded engine decoded resultCapacity).reader.run input = some ((bytes, count), rest)) :
    (decoded.result engine).status = .ok ∧ bytes = resultWritten (decoded.packetVersion,
      decoded.result engine) ∧ count = bytes.length ∧ bytes.length ≤ resultCapacity ∧
      ∀ solutionCapacity, (decoded.result engine).solutionCount.toNat ≤ solutionCapacity →
        ResultFits solutionCapacity (decoded.packetVersion, decoded.result engine) := by
  unfold executeDecoded at h
  split at h
  · cases h
  · rename_i required hrequired
    have hversion : packetVersionValid decoded.packetVersion = true := by
      by_contra hnot
      rw [resultSize, if_neg hnot] at hrequired
      cases hrequired
    rw [run_require_then, run_resize_then] at h
    obtain ⟨hcapacity, hmax, h⟩ := h
    rw [run_require_then] at h
    obtain ⟨⟨hok, hcount⟩, h⟩ := h
    split at h
    · cases h
    · rename_i written hwritten
      rw [run_require_then] at h
      obtain ⟨hlength, ⟨rfl, rfl⟩, rfl⟩ := h
      obtain ⟨hreserved, hsolution⟩ := runtimeExecute_ok hok
      rw [List.length_replicate] at hsolution
      refine ⟨hok, ?_, rfl, hlength ▸ hcapacity, fun solutionCapacity hle =>
        ⟨hversion, hsolution.trans hcount.symm, hle, ?_, hok, hreserved⟩⟩
      · rw [writeAll_some hwritten, List.nil_append, resultPieces_flatten]
        rfl
      · exact hcount.trans_le hmax

/-- What `laplace_cognition_packet_execute_words` gives is read back as the result. -/
theorem run_executeWords {requestWordCount resultWordCapacity : ℕ} {input rest : List UInt8}
    {words : List UInt32}
    (h : (executeWords engine requestWordCount resultWordCapacity).reader.run input =
      some ((words, count), rest)) :
    words.length = count ∧ ∃ decoded, decodeRequest.reader.run input = some (decoded, []) ∧
      (decoded.result engine).status = .ok ∧
      ∀ solutionCapacity, (decoded.result engine).solutionCount.toNat ≤ solutionCapacity →
        (decodeResultWords count solutionCapacity).reader.run (wordsToBytes words) =
          some (decoded.result engine, []) := by
  unfold executeWords execute at h
  rw [run_require_then, run_require_then, run_resize_then,
    run_resize_then, run_bind_eq_some] at h
  obtain ⟨-, -, -, hcapacityMax, ⟨bytes, resultBytes⟩, middle, hexecute, h⟩ := h
  obtain ⟨decoded, left, hdecode, hdecoded⟩ := run_bind_eq_some.1 hexecute
  obtain ⟨-, -, rfl⟩ := run_decodeRequest_iff.1 hdecode
  obtain ⟨hok, hbytes, rfl, hcapacity, hfits⟩ := run_executeDecoded hdecoded
  dsimp only at h
  rw [run_require_then] at h
  obtain ⟨⟨hwords, -⟩, ⟨rfl, rfl⟩, rfl⟩ := h
  rw [List.take_length]
  refine ⟨bytesToWords_length bytes, decoded, hdecode, hok, fun solutionCapacity hle => ?_⟩
  have hcount : bytes.length = bytes.length / 4 * 4 := by omega
  have hread := (reads_result solutionCapacity).accepts _ [] (hfits solutionCapacity hle)
  rw [List.append_nil, ← hbytes] at hread
  have hlimit : maxSize 1 ≤ sizeMax := by decide
  have hlength : bytes.length = 580 + (decoded.result engine).solution.length * 8 := by
    rw [hbytes, resultWritten_length]
  have hsize : bytes.length / 4 * 4 ≤ maxSize 1 := by omega
  rw [wordsToBytes_bytesToWords hcount]
  unfold decodeResultWords
  rw [run_require_then, run_require_then, run_resize_then, run_bind_eq_some]
  refine ⟨by omega, ?_, hsize, _, [], hread, ?_⟩
  · rw [Nat.le_div_iff_mul_le (by decide)]
    omega
  · dsimp only
    rw [run_remaining_then, run_require_then, resultFixedBytes_eq, ← hcount]
    exact ⟨⟨rfl, hlength⟩, rfl⟩

end Laplace.Cognition.Packet
