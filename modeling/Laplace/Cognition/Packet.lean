import Laplace.Lib.Checked
import Laplace.Packets.Fields
import Laplace.Standing.State

/-!
# Cognition packets (cognition_packet_compile.cpp, cognition_packet.cpp, cognition_packet_words.cpp)

A request is compiled into words, which are decoded and executed somewhere else; the result comes
back as words. The operator and the solver are parameters of the execution.
-/

namespace Laplace.Cognition.Packet

open Packets Routine

/-! ## Data -/

/-- `laplace_cognition_packet_status`, for what is not OK. -/
inductive PacketStatus
  | invalidArgument | invalidRequest | resultCapacity | memoryFailure | runtimeFailure | range
deriving DecidableEq, Repr

/-- `laplace_cognition_operator_program` -/
@[ext] structure OperatorProgram where
  programId : Digest256
  boundaryId : Digest256
  contextFingerprint : Digest256
  evidenceEpoch : Digest256
  resultContractFingerprint : Digest256
  eligibleRelationFamilies : List UInt32
  eligibleSourceMask : UInt32
  flags : UInt32
  numericTolerance : UInt64
  version : UInt32
  reserved : UInt32
deriving DecidableEq

/-- `laplace_cognition_solver_program` -/
@[ext] structure SolverProgram where
  programId : Digest256
  operatorId : Digest256
  resultContractFingerprint : Digest256
  maxIterations : UInt64
  absoluteResidualTolerance : UInt64
  relativeResidualTolerance : UInt64
  regularization : UInt64
  method : UInt32
  flags : UInt32
  version : UInt32
  reserved : UInt32
deriving DecidableEq

/-- `laplace_cognition_operator_field` -/
@[ext] structure OperatorField where
  fieldId : Digest256
  entityId : Id128
  physicalityId : Digest256
  roleId : Digest256
  recipeFingerprint : Digest256
  ordinal : UInt64
  valueDimension : UInt32
  flags : UInt32
deriving DecidableEq

/-- `laplace_cognition_operator_constraint` -/
@[ext] structure OperatorConstraint where
  constraintId : Digest256
  planeId : Digest256
  lawFingerprint : Digest256
  unitsFingerprint : Digest256
  evidenceRootId : Digest256
  calculationReceiptId : Digest256
  sourceFieldIndex : UInt64
  targetFieldIndex : UInt64
  transportScale : UInt64
  transportOffset : UInt64
  targetValue : UInt64
  precision : UInt64
  relationFamily : UInt32
  sourceClass : UInt32
  direction : UInt32
  transportKind : UInt32
  flags : UInt32
  reserved : UInt32
  standing : Standing.State
deriving DecidableEq

/-- `laplace_cognition_solver_boundary` -/
structure SolverBoundary where
  receiptId : Digest256
  fieldIndex : UInt64
  targetValue : UInt64
  precision : UInt64
  kind : UInt32
  flags : UInt32
  reserved : UInt32
deriving DecidableEq

/-- `laplace_cognition_operator_receipt` -/
@[ext] structure OperatorReceipt where
  receiptId : Digest256
  operatorId : Digest256
  programFingerprint : Digest256
  fieldSetFingerprint : Digest256
  constraintSetFingerprint : Digest256
  fieldCount : UInt64
  inputConstraintCount : UInt64
  selectedConstraintCount : UInt64
  deduplicatedDependentCount : UInt64
  physicalityConstraintCount : UInt64
  testimonyConstraintCount : UInt64
  derivedConstraintCount : UInt64
  relationPlaneCount : UInt32
  status : UInt32
  version : UInt32
  flags : UInt32
deriving DecidableEq

/-- `laplace_cognition_solver_receipt` -/
@[ext] structure SolverReceipt where
  receiptId : Digest256
  programFingerprint : Digest256
  operatorId : Digest256
  operatorReceiptId : Digest256
  evidencePrecisionFingerprint : Digest256
  inputFingerprint : Digest256
  iterationTraceFingerprint : Digest256
  outputFingerprint : Digest256
  fieldCount : UInt64
  iterationCount : UInt64
  initialResidualL2 : UInt64
  finalResidualL2 : UInt64
  finalEnergy : UInt64
  regularization : UInt64
  method : UInt32
  disposition : UInt32
  status : UInt32
  version : UInt32
  flags : UInt32
deriving DecidableEq

def familyObjectBytes : ℕ := 4
def fieldObjectBytes : ℕ := 160
def constraintObjectBytes : ℕ := 504

/-- `laplace_cognition_runtime_request`, whose arrays are objects in memory. -/
structure RuntimeRequest where
  operatorProgram : OperatorProgram
  fields : List OperatorField
  constraints : List OperatorConstraint
  boundaries : List SolverBoundary
  initialState : List UInt64
  solverProgram : SolverProgram
  families_le :
    operatorProgram.eligibleRelationFamilies.length * familyObjectBytes ≤ objectLimit
  fields_le : fields.length * fieldObjectBytes ≤ objectLimit
  constraints_le : constraints.length * constraintObjectBytes ≤ objectLimit
  initialState_le : initialState.length * 8 ≤ objectLimit

/-- `DecodedRequest` -/
@[ext] structure DecodedRequest where
  operatorProgram : OperatorProgram
  solverProgram : SolverProgram
  fields : List OperatorField
  constraints : List OperatorConstraint
  initialState : List UInt64
  packetVersion : UInt32
deriving DecidableEq

/-- `laplace_cognition_runtime_status` -/
inductive RuntimeStatus
  | ok | invalidArgument | range | operatorFailure | solverFailure
deriving DecidableEq, Repr

/-- `laplace_cognition_runtime_result`, with the values behind `solution`. -/
structure RuntimeResult where
  solution : List UInt64
  solutionCount : UInt64
  operatorReceipt : OperatorReceipt
  solverReceipt : SolverReceipt
  status : RuntimeStatus
  reserved : UInt32
deriving DecidableEq

/-- `LAPLACE_COGNITION_OPERATOR_SOURCE_STANDING` -/
def sourceStanding : UInt32 := 4

def requestMagic : List UInt8 := domainBytes "LAPCOGQ1"
def resultMagic : List UInt8 := domainBytes "LAPCOGR1"
def packetVersionV1 : UInt32 := 1
def packetVersionStanding : UInt32 := 2
def packetFlags : UInt32 := 0
def requestFixedBytes : ℕ := 344
def fieldBytes : ℕ := 160
def constraintBytes : ℕ := 264
def standingStateBytes : ℕ := 240

/-- `PacketVersionValid` -/
def packetVersionValid (version : UInt32) : Bool :=
  version = packetVersionV1 ∨ version = packetVersionStanding

/-- `ResultFixedBytes`, and the constants of `ResultSize`. -/
def resultFixedBytes (version : UInt32) : ℕ := if version ≥ packetVersionStanding then 580 else 580

/-! ## Words -/

/-- `BytesToWords`, `CanonicalBytesToWords` -/
def bytesToWords (bytes : List UInt8) : List UInt32 :=
  (List.range (bytes.length / 4)).map fun index => loadU32 (bytes.drop (index * 4))

/-- `WordsToBytes`, `WordsToCanonicalBytes` -/
def wordsToBytes (words : List UInt32) : List UInt8 := words.flatMap u32Bytes

/-! ## Compiling a request -/

/-- `RequestPacketVersion` -/
def requestPacketVersion (request : RuntimeRequest) : UInt32 :=
  if ∃ constraint ∈ request.constraints, constraint.sourceClass = sourceStanding
  then packetVersionStanding else packetVersionV1

/-- `AddMul` -/
def addMul (value count width : ℕ) : Option ℕ :=
  if width ≠ 0 ∧ count > (sizeMax - value) / width then none else some (value + count * width)

/-- The loop of `RequestBytes` over the constraints. -/
def addStanding : List OperatorConstraint → ℕ → Option ℕ
  | [], total => some total
  | constraint :: constraints, total =>
    if constraint.sourceClass = sourceStanding then do
      let total ← addMul total 1 standingStateBytes
      addStanding constraints total
    else addStanding constraints total

/-- `RequestBytes` -/
def requestBytes (request : RuntimeRequest) : Option ℕ := do
  guard (request.operatorProgram.eligibleRelationFamilies ≠ [] ∧ request.fields ≠ [] ∧
    request.constraints ≠ [] ∧ request.initialState.length = request.fields.length)
  let total ← addMul requestFixedBytes request.operatorProgram.eligibleRelationFamilies.length 4
  let total ← addMul total request.fields.length fieldBytes
  let total ← addMul total request.constraints.length constraintBytes
  let total ← addStanding request.constraints total
  addMul total request.initialState.length 8

/-- `WriteOperatorProgram` -/
def operatorProgramPieces (program : OperatorProgram) : List (List UInt8) :=
  [program.programId.bytes, program.boundaryId.bytes, program.contextFingerprint.bytes,
    program.evidenceEpoch.bytes, program.resultContractFingerprint.bytes,
    u32Bytes program.eligibleSourceMask, u32Bytes program.flags, u64Bytes program.numericTolerance,
    u32Bytes program.version, u32Bytes program.reserved]

/-- `WriteSolverProgram` -/
def solverProgramPieces (program : SolverProgram) : List (List UInt8) :=
  [program.programId.bytes, program.resultContractFingerprint.bytes, u64Bytes program.maxIterations,
    u64Bytes program.absoluteResidualTolerance, u64Bytes program.relativeResidualTolerance,
    u64Bytes program.regularization, u32Bytes program.method, u32Bytes program.flags,
    u32Bytes program.version, u32Bytes program.reserved]

/-- `WriteField` -/
def fieldPieces (field : OperatorField) : List (List UInt8) :=
  [field.fieldId.bytes, field.entityId.bytes, field.physicalityId.bytes, field.roleId.bytes,
    field.recipeFingerprint.bytes, u64Bytes field.ordinal, u32Bytes field.valueDimension,
    u32Bytes field.flags]

/-- `WriteStandingState` -/
def standingStatePieces (state : Standing.State) : List (List UInt8) :=
  [state.stateId.bytes, state.coordinateId.bytes, state.arenaScopeId.bytes,
    state.priorStateId.bytes, state.epochId.bytes, state.ratingRecipeId.bytes, u64Bytes state.rating,
    u64Bytes state.ratingDeviation, u64Bytes state.volatility, u64Bytes state.eligibleMatchCount,
    u64Bytes state.periodOrdinal, u32Bytes state.ratingRecipeVersion, u32Bytes state.flags]

/-- The fields of `WriteConstraint` that every constraint has. -/
def constraintBasePieces (constraint : OperatorConstraint) : List (List UInt8) :=
  [constraint.constraintId.bytes, constraint.planeId.bytes, constraint.lawFingerprint.bytes,
    constraint.unitsFingerprint.bytes, constraint.evidenceRootId.bytes,
    constraint.calculationReceiptId.bytes, u64Bytes constraint.sourceFieldIndex,
    u64Bytes constraint.targetFieldIndex, u64Bytes constraint.transportScale,
    u64Bytes constraint.transportOffset, u64Bytes constraint.targetValue,
    u64Bytes constraint.precision, u32Bytes constraint.relationFamily,
    u32Bytes constraint.sourceClass, u32Bytes constraint.direction,
    u32Bytes constraint.transportKind, u32Bytes constraint.flags, u32Bytes constraint.reserved]

/-- `WriteConstraint` -/
def constraintPieces (constraint : OperatorConstraint) : List (List UInt8) :=
  constraintBasePieces constraint ++
    if constraint.sourceClass ≠ sourceStanding then [] else standingStatePieces constraint.standing

/-- The pieces that are written for a request. -/
def requestPieces (request : RuntimeRequest) : List (List UInt8) :=
  [requestMagic, u32Bytes (requestPacketVersion request), u32Bytes packetFlags,
    u64Bytes (UInt64.ofNat request.operatorProgram.eligibleRelationFamilies.length),
    u64Bytes (UInt64.ofNat request.fields.length),
    u64Bytes (UInt64.ofNat request.constraints.length),
    u64Bytes (UInt64.ofNat request.initialState.length)] ++
  operatorProgramPieces request.operatorProgram ++ solverProgramPieces request.solverProgram ++
  request.operatorProgram.eligibleRelationFamilies.map u32Bytes ++
  request.fields.flatMap fieldPieces ++ request.constraints.flatMap constraintPieces ++
  request.initialState.map u64Bytes

/-- `laplace_cognition_packet_request_required_words` -/
def requestRequiredWords (request : RuntimeRequest) : Routine PacketStatus ℕ :=
  match requestBytes request with
  | none => .stop .invalidRequest
  | some bytes => do
    require (bytes % 4 = 0) .invalidRequest
    return bytes / 4

/-- `laplace_cognition_packet_encode_request_words`: the words, and `*word_count`. -/
def encodeRequestWords (request : RuntimeRequest) (wordCapacity : ℕ) :
    Routine PacketStatus (List UInt32 × ℕ) :=
  match requestBytes request with
  | none => .stop .invalidRequest
  | some requiredBytes => do
    require (requiredBytes % 4 = 0) .invalidRequest
    let requiredWords := requiredBytes / 4
    require (requiredWords ≤ wordCapacity) .resultCapacity
    resize requiredBytes 1 .memoryFailure
    match writeAll requiredBytes (requestPieces request) [] with
    | none => .stop .invalidRequest
    | some bytes => do
      require (bytes.length = requiredBytes) .range
      return (bytesToWords bytes, requiredWords)

/-! ## Decoding a request -/

/-- `CountFits` -/
def countFits (count : UInt64) (elementBytes : ℕ) : Bool := count.toNat ≤ sizeMax / elementBytes

/-- `ReadOperatorProgram`; the families are filled in later. -/
def readOperatorProgram : Routine PacketStatus OperatorProgram := do
  let programId ← digest .invalidRequest
  let boundaryId ← digest .invalidRequest
  let contextFingerprint ← digest .invalidRequest
  let evidenceEpoch ← digest .invalidRequest
  let resultContractFingerprint ← digest .invalidRequest
  let eligibleSourceMask ← u32 .invalidRequest
  let flags ← u32 .invalidRequest
  let numericTolerance ← u64 .invalidRequest
  let version ← u32 .invalidRequest
  let reserved ← u32 .invalidRequest
  return ⟨programId, boundaryId, contextFingerprint, evidenceEpoch, resultContractFingerprint, [],
    eligibleSourceMask, flags, numericTolerance, version, reserved⟩

/-- `ReadSolverProgram`, and the operator id that `DecodeRequest` clears. -/
def readSolverProgram : Routine PacketStatus SolverProgram := do
  let programId ← digest .invalidRequest
  let resultContractFingerprint ← digest .invalidRequest
  let maxIterations ← u64 .invalidRequest
  let absoluteResidualTolerance ← u64 .invalidRequest
  let relativeResidualTolerance ← u64 .invalidRequest
  let regularization ← u64 .invalidRequest
  let method ← u32 .invalidRequest
  let flags ← u32 .invalidRequest
  let version ← u32 .invalidRequest
  let reserved ← u32 .invalidRequest
  return ⟨programId, 0, resultContractFingerprint, maxIterations, absoluteResidualTolerance,
    relativeResidualTolerance, regularization, method, flags, version, reserved⟩

/-- `ReadField` -/
def readField : Routine PacketStatus OperatorField := do
  let fieldId ← digest .invalidRequest
  let entityId ← identity .invalidRequest
  let physicalityId ← digest .invalidRequest
  let roleId ← digest .invalidRequest
  let recipeFingerprint ← digest .invalidRequest
  let ordinal ← u64 .invalidRequest
  let valueDimension ← u32 .invalidRequest
  let flags ← u32 .invalidRequest
  return ⟨fieldId, entityId, physicalityId, roleId, recipeFingerprint, ordinal, valueDimension, flags⟩

/-- `ReadStandingState` -/
def readStandingState : Routine PacketStatus Standing.State := do
  let stateId ← digest .invalidRequest
  let coordinateId ← digest .invalidRequest
  let arenaScopeId ← digest .invalidRequest
  let priorStateId ← digest .invalidRequest
  let epochId ← digest .invalidRequest
  let ratingRecipeId ← digest .invalidRequest
  let rating ← u64 .invalidRequest
  let ratingDeviation ← u64 .invalidRequest
  let volatility ← u64 .invalidRequest
  let eligibleMatchCount ← u64 .invalidRequest
  let periodOrdinal ← u64 .invalidRequest
  let ratingRecipeVersion ← u32 .invalidRequest
  let flags ← u32 .invalidRequest
  return ⟨stateId, coordinateId, arenaScopeId, priorStateId, epochId, ratingRecipeId, rating,
    ratingDeviation, volatility, eligibleMatchCount, periodOrdinal, ratingRecipeVersion, flags⟩

/-- The fields of `ReadConstraint` that every constraint has, and a standing of zeros. -/
def readConstraintBase : Routine PacketStatus OperatorConstraint := do
  let constraintId ← digest .invalidRequest
  let planeId ← digest .invalidRequest
  let lawFingerprint ← digest .invalidRequest
  let unitsFingerprint ← digest .invalidRequest
  let evidenceRootId ← digest .invalidRequest
  let calculationReceiptId ← digest .invalidRequest
  let sourceFieldIndex ← u64 .invalidRequest
  let targetFieldIndex ← u64 .invalidRequest
  let transportScale ← u64 .invalidRequest
  let transportOffset ← u64 .invalidRequest
  let targetValue ← u64 .invalidRequest
  let precision ← u64 .invalidRequest
  let relationFamily ← u32 .invalidRequest
  let sourceClass ← u32 .invalidRequest
  let direction ← u32 .invalidRequest
  let transportKind ← u32 .invalidRequest
  let flags ← u32 .invalidRequest
  let reserved ← u32 .invalidRequest
  return ⟨constraintId, planeId, lawFingerprint, unitsFingerprint, evidenceRootId,
    calculationReceiptId, sourceFieldIndex, targetFieldIndex, transportScale, transportOffset,
    targetValue, precision, relationFamily, sourceClass, direction, transportKind, flags, reserved,
    {}⟩

/-- `ReadConstraint` -/
def readConstraint (packetVersion : UInt32) : Routine PacketStatus OperatorConstraint := do
  let constraint ← readConstraintBase
  if constraint.sourceClass ≠ sourceStanding then return constraint
  else do
    require (packetVersion ≥ packetVersionStanding) .invalidRequest
    let standing ← readStandingState
    return { constraint with standing }

/-- The counts at the head of a request. -/
@[ext] structure RequestCounts where
  families : UInt64
  fields : UInt64
  constraints : UInt64
  initialStates : UInt64

/-- The conditions of `DecodeRequest` on the counts. -/
def RequestCounts.valid (counts : RequestCounts) : Bool :=
  counts.families ≠ 0 ∧ counts.fields ≠ 0 ∧ counts.constraints ≠ 0 ∧
    counts.initialStates = counts.fields ∧ countFits counts.families familyObjectBytes ∧
    countFits counts.fields fieldObjectBytes ∧ countFits counts.constraints constraintObjectBytes ∧
    countFits counts.initialStates 8

/-- What `DecodeRequest` reads before it makes the tables. -/
def readHead : Routine PacketStatus (UInt32 × RequestCounts × OperatorProgram × SolverProgram) := do
  let magic ← bytes .invalidRequest 8
  require (magic = requestMagic) .invalidRequest
  let version ← u32 .invalidRequest
  require (packetVersionValid version) .invalidRequest
  let flags ← u32 .invalidRequest
  require (flags = packetFlags) .invalidRequest
  let families ← u64 .invalidRequest
  let fields ← u64 .invalidRequest
  let constraints ← u64 .invalidRequest
  let initialStates ← u64 .invalidRequest
  let counts : RequestCounts := ⟨families, fields, constraints, initialStates⟩
  require counts.valid .invalidRequest
  let operatorProgram ← readOperatorProgram
  let solverProgram ← readSolverProgram
  require (operatorProgram.reserved = 0 ∧ solverProgram.reserved = 0) .invalidRequest
  return (version, counts, operatorProgram, solverProgram)

/-- The tables of `DecodeRequest`. -/
def readTables (version : UInt32) (counts : RequestCounts) :
    Routine PacketStatus (List UInt32 × List OperatorField × List OperatorConstraint × List UInt64) := do
  resize counts.families.toNat familyObjectBytes .memoryFailure
  resize counts.fields.toNat fieldObjectBytes .memoryFailure
  resize counts.constraints.toNat constraintObjectBytes .memoryFailure
  resize counts.initialStates.toNat 8 .memoryFailure
  let relationFamilies ← many (u32 .invalidRequest) counts.families.toNat
  let fields ← many readField counts.fields.toNat
  let constraints ← many (readConstraint version) counts.constraints.toNat
  let initialState ← many (u64 .invalidRequest) counts.initialStates.toNat
  return (relationFamilies, fields, constraints, initialState)

/-- `DecodeRequest` -/
def decodeRequest : Routine PacketStatus DecodedRequest := do
  let requestByteCount ← remaining
  require (requestByteCount ≠ 0) .invalidArgument
  let (version, counts, operatorProgram, solverProgram) ← readHead
  let (relationFamilies, fields, constraints, initialState) ← readTables version counts
  let left ← remaining
  require (left = 0) .invalidRequest
  return ⟨{ operatorProgram with eligibleRelationFamilies := relationFamilies }, solverProgram,
    fields, constraints, initialState, version⟩

/-! ## Results -/

/-- `ResultSize` -/
def resultSize (solutionCount : ℕ) (packetVersion : UInt32) : Option ℕ :=
  if packetVersionValid packetVersion then
    let fixedBytes := resultFixedBytes packetVersion
    if solutionCount > (sizeMax - fixedBytes) / 8 then none
    else some (fixedBytes + solutionCount * 8)
  else none

/-- `laplace_cognition_packet_required_result_bytes` -/
def requiredResultBytes : Routine PacketStatus ℕ := do
  let decoded ← decodeRequest
  match resultSize decoded.fields.length decoded.packetVersion with
  | none => .stop .range
  | some bytes => return bytes

/-- `CanonicalRequest`, for an input that is the bytes of the words. -/
def canonicalRequest (requestWordCount : ℕ) : Routine PacketStatus ℕ := do
  require (requestWordCount ≠ 0) .invalidArgument
  require (requestWordCount ≤ sizeMax / 4) .range
  resize (requestWordCount * 4) 1 .memoryFailure
  requiredResultBytes

def requestContextOffset : ℕ := 112

/-- `laplace_cognition_packet_request_context_fingerprint_words` -/
def requestContextFingerprintWords (requestWords : List UInt32) : Routine PacketStatus Digest256 := do
  let _ ← canonicalRequest requestWords.length
  require ((wordsToBytes requestWords).length ≥ requestContextOffset + 32) .invalidRequest
  return loadDigest ((wordsToBytes requestWords).drop requestContextOffset)

end Laplace.Cognition.Packet
