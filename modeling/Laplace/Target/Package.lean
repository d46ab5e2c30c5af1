import Laplace.Lib.Checked
import Laplace.Packets.Fields

/-!
# Target-neutral packages (target_compile.inc:10-94, target_package.inc)

The artifact of a compilation is a slot receipt, a matrix and a right-hand side for each slot. A
package is a header with a digest of everything else, the compile receipt and the slots.
-/

namespace Laplace.Target

open Packets Routine

/-! ## Data -/

/-- `laplace_target_package_status`, for a package that is not OK. -/
inductive PackageStatus
  | invalidArgument | invalidCompileResult | capacityInsufficient | overflow | invalidFormat
  | corrupt | memoryFailure
deriving DecidableEq, Repr

/-- `laplace_target_compile_slot_receipt` -/
@[ext] structure SlotReceipt where
  slotId : Digest256
  roleFingerprint : Digest256
  operatorId : Digest256
  operatorReceiptId : Digest256
  programFingerprint : Digest256
  fieldSetFingerprint : Digest256
  constraintSetFingerprint : Digest256
  materializationReceiptId : Digest256
  matrixFingerprint : Digest256
  fieldCount : UInt64
  selectedConstraintCount : UInt64
  matrixValueCount : UInt64
  rhsValueCount : UInt64
  targetRole : UInt32
  layerIndex : UInt32
  headIndex : UInt32
  expertIndex : UInt32
  relationPlaneCount : UInt32
  status : UInt32
deriving DecidableEq

/-- `laplace_target_compile_receipt` -/
@[ext] structure CompileReceipt where
  receiptId : Digest256
  requestFingerprint : Digest256
  evidenceBoundary : Digest256
  evidenceEpoch : Digest256
  recipeFingerprint : Digest256
  targetContractFingerprint : Digest256
  slotCount : UInt64
  distinctOperatorCount : UInt64
  matrixValueCount : UInt64
  rhsValueCount : UInt64
  flags : UInt32
  status : UInt32
  version : UInt32
  reserved : UInt32
deriving DecidableEq

/-- `laplace_target_compile_result`, with each double as its bits. -/
@[ext] structure CompileResult where
  slots : List SlotReceipt
  matrices : List (List UInt64)
  rhs : List (List UInt64)
deriving DecidableEq

/-- `laplace_target_package_receipt` -/
structure PackageReceipt where
  packageId : Digest256
  compileReceiptId : Digest256
  requestFingerprint : Digest256
  evidenceBoundary : Digest256
  evidenceEpoch : Digest256
  recipeFingerprint : Digest256
  targetContractFingerprint : Digest256
  byteCount : UInt64
  slotCount : UInt64
  distinctOperatorCount : UInt64
  matrixValueCount : UInt64
  rhsValueCount : UInt64
  flags : UInt32
  status : UInt32
  version : UInt32
  reserved : UInt32
deriving DecidableEq

/-- `laplace_target_package` -/
structure Package where
  compiled : CompileResult
  compileReceipt : CompileReceipt
  receipt : PackageReceipt
deriving DecidableEq

/-- A slot with what belongs to it: `slots[index]`, `matrices[index]` and `rhs[index]`. -/
abbrev Row := SlotReceipt × List UInt64 × List UInt64

def CompileResult.rows (result : CompileResult) : List Row :=
  result.slots.zip (result.matrices.zip result.rhs)

def CompileResult.ofRows (rows : List Row) : CompileResult :=
  ⟨rows.map fun row => row.1, rows.map fun row => row.2.1, rows.map fun row => row.2.2⟩

def compileOk : UInt32 := 0
def compileVersion : UInt32 := 1
def compileKnownFlags : UInt32 := 1
def packageVersion : UInt32 := 1
def packageOk : UInt32 := 0

/-- `TargetPackageMagic` -/
def packageMagic : List UInt8 := domainBytes "LPTNPKG1"

def packageIdOffset : ℕ := 24
def packageIdBytes : ℕ := 32
def packageHeaderBytes : ℕ := 56
def compileReceiptEncodedBytes : ℕ := 240
def slotReceiptEncodedBytes : ℕ := 344

variable (blake3 : Blake3)

/-! ## Fingerprints -/

/-- `TargetRoleValid` -/
def targetRoleValid (role : UInt32) : Bool := 1 ≤ role ∧ role ≤ 7

/-- `HashTargetSlotCoordinate` -/
def hashTargetSlotCoordinate (slot : SlotReceipt) : List UInt8 :=
  u32Bytes slot.targetRole ++ u32Bytes slot.layerIndex ++ u32Bytes slot.headIndex ++
    u32Bytes slot.expertIndex ++ slot.roleFingerprint.bytes

/-- `TargetMatrixFingerprint` -/
def targetMatrixFingerprint (slot : SlotReceipt) (matrix rhs : List UInt64) : Digest256 :=
  blake3 (domainBytes "laplace-target-neutral-operator-v1" ++ hashTargetSlotCoordinate slot ++
    slot.operatorId.bytes ++ slot.operatorReceiptId.bytes ++ slot.materializationReceiptId.bytes ++
    u64Bytes (UInt64.ofNat matrix.length) ++ matrix.flatMap u64Bytes ++
    u64Bytes (UInt64.ofNat rhs.length) ++ rhs.flatMap u64Bytes)

/-- `TargetSlotIdentify` -/
def targetSlotIdentify (slot : SlotReceipt) : SlotReceipt :=
  { slot with
    slotId := blake3 (domainBytes "laplace-target-compile-slot-v1" ++
      hashTargetSlotCoordinate slot ++ slot.operatorId.bytes ++ slot.operatorReceiptId.bytes ++
      slot.programFingerprint.bytes ++ slot.fieldSetFingerprint.bytes ++
      slot.constraintSetFingerprint.bytes ++ slot.materializationReceiptId.bytes ++
      slot.matrixFingerprint.bytes ++ u64Bytes slot.fieldCount ++
      u64Bytes slot.selectedConstraintCount ++ u32Bytes slot.relationPlaneCount) }

/-- `ReidentifyCompileReceipt` -/
def reidentifyCompileReceipt (receipt : CompileReceipt) (slots : List SlotReceipt) : Digest256 :=
  blake3 (domainBytes "laplace-target-compile-receipt-v1" ++ receipt.requestFingerprint.bytes ++
    (slots.flatMap fun slot =>
      slot.slotId.bytes ++ slot.materializationReceiptId.bytes ++ slot.matrixFingerprint.bytes) ++
    u64Bytes receipt.slotCount ++ u64Bytes receipt.distinctOperatorCount ++
    u64Bytes receipt.matrixValueCount ++ u64Bytes receipt.rhsValueCount ++ u32Bytes receipt.flags ++
    u32Bytes receipt.version)

/-- What `TargetPackageDigest` hashes: the package with zeros in the place of its id. -/
def packageDigestInput (bytes : List UInt8) : List UInt8 :=
  domainBytes "laplace-target-neutral-package-v1" ++ bytes.take packageIdOffset ++
    List.replicate packageIdBytes 0 ++ bytes.drop packageHeaderBytes

/-- `TargetPackageDigest` -/
def targetPackageDigest (bytes : List UInt8) : Digest256 := blake3 (packageDigestInput bytes)

/-! ## Artifacts -/

/-- The comparison of the two tied coordinates. -/
def CoordinateLess (prior slot : SlotReceipt) : Prop :=
  prior.targetRole < slot.targetRole ∨ prior.targetRole = slot.targetRole ∧
    (prior.layerIndex < slot.layerIndex ∨ prior.layerIndex = slot.layerIndex ∧
      (prior.headIndex < slot.headIndex ∨ prior.headIndex = slot.headIndex ∧
        prior.expertIndex < slot.expertIndex))

instance (prior slot : SlotReceipt) : Decidable (CoordinateLess prior slot) := by
  unfold CoordinateLess
  infer_instance

/-- What the loop over the slots adds up. -/
structure Totals where
  distinctOperators : List Digest256 := []
  matrixValues : UInt64 := 0
  rhsValues : UInt64 := 0

/-- The body of the loop of `ValidateCompileArtifact`. -/
def validateRow (prior : Option SlotReceipt) (row : Row) (totals : Totals) :
    Routine PackageStatus Totals := do
  let (slot, matrix, rhs) := row
  require (targetRoleValid slot.targetRole ∧ slot.status = compileOk ∧
    slot.fieldCount.toNat = rhs.length ∧ slot.matrixValueCount.toNat = matrix.length ∧
    slot.rhsValueCount.toNat = rhs.length) .invalidCompileResult
  let limit ← quotient (UInt64.ofNat sizeMax) slot.fieldCount
  require (slot.fieldCount ≤ limit ∧
    slot.matrixValueCount = slot.fieldCount * slot.fieldCount) .invalidCompileResult
  require (∀ earlier ∈ prior, CoordinateLess earlier slot) .invalidCompileResult
  require (targetMatrixFingerprint blake3 slot matrix rhs = slot.matrixFingerprint) .corrupt
  require ((targetSlotIdentify blake3 slot).slotId = slot.slotId) .corrupt
  require (totals.matrixValues ≤ UInt64.ofNat sizeMax - slot.matrixValueCount ∧
    totals.rhsValues ≤ UInt64.ofNat sizeMax - slot.rhsValueCount) .overflow
  return {
    distinctOperators := totals.distinctOperators.insert slot.operatorId
    matrixValues := totals.matrixValues + slot.matrixValueCount
    rhsValues := totals.rhsValues + slot.rhsValueCount }

/-- The loop of `ValidateCompileArtifact`. -/
def validateRows : Option SlotReceipt → List Row → Totals → Routine PackageStatus Totals
  | _, [], totals => return totals
  | prior, row :: rows, totals => do
    let totals ← validateRow blake3 prior row totals
    validateRows (some row.1) rows totals

/-- What `ValidateCompileArtifact` checks before the loop. -/
def receiptValid (result : CompileResult) (receipt : CompileReceipt) : Bool :=
  receipt.status = compileOk ∧ receipt.version = compileVersion ∧ receipt.reserved = 0 ∧
    receipt.flags &&& ~~~compileKnownFlags = 0 ∧ receipt.receiptId ≠ 0 ∧
    receipt.requestFingerprint ≠ 0 ∧ receipt.evidenceBoundary ≠ 0 ∧ receipt.evidenceEpoch ≠ 0 ∧
    receipt.recipeFingerprint ≠ 0 ∧ receipt.targetContractFingerprint ≠ 0 ∧ result.slots ≠ [] ∧
    result.slots.length = result.matrices.length ∧ result.slots.length = result.rhs.length ∧
    receipt.slotCount.toNat = result.slots.length

/-- `ValidateCompileArtifact` -/
def validateCompileArtifact (result : CompileResult) (receipt : CompileReceipt) :
    Routine PackageStatus Unit := do
  require (receiptValid result receipt) .invalidCompileResult
  let totals ← validateRows blake3 none result.rows {}
  require (receipt.distinctOperatorCount.toNat = totals.distinctOperators.length ∧
    receipt.matrixValueCount = totals.matrixValues ∧ receipt.rhsValueCount = totals.rhsValues)
    .invalidCompileResult
  require (reidentifyCompileReceipt blake3 receipt result.slots = receipt.receiptId) .corrupt

/-- `TargetPackageAdd` -/
def targetPackageAdd (left right : ℕ) : Option ℕ :=
  if left + right > sizeMax then none else some (left + right)

/-- `TargetPackageMultiply` -/
def targetPackageMultiply (left right : ℕ) : Option ℕ :=
  if left * right > sizeMax then none else some (left * right)

/-- The loop of `MeasureCompileArtifact`. -/
def measureRows : List Row → ℕ → Option ℕ
  | [], total => some total
  | (_, matrix, rhs) :: rows, total => do
    let valueCount ← targetPackageAdd matrix.length rhs.length
    let valueBytes ← targetPackageMultiply valueCount 8
    let total ← targetPackageAdd total slotReceiptEncodedBytes
    let total ← targetPackageAdd total valueBytes
    measureRows rows total

/-- `MeasureCompileArtifact` -/
def measureCompileArtifact (result : CompileResult) (receipt : CompileReceipt) :
    Routine PackageStatus ℕ := do
  validateCompileArtifact blake3 result receipt
  match measureRows result.rows (packageHeaderBytes + compileReceiptEncodedBytes) with
  | none => .stop .overflow
  | some total => return total

/-- `FillPackageReceipt` -/
def fillPackageReceipt (packageId : Digest256) (byteCount : ℕ) (receipt : CompileReceipt) :
    PackageReceipt where
  packageId := packageId
  compileReceiptId := receipt.receiptId
  requestFingerprint := receipt.requestFingerprint
  evidenceBoundary := receipt.evidenceBoundary
  evidenceEpoch := receipt.evidenceEpoch
  recipeFingerprint := receipt.recipeFingerprint
  targetContractFingerprint := receipt.targetContractFingerprint
  byteCount := UInt64.ofNat byteCount
  slotCount := receipt.slotCount
  distinctOperatorCount := receipt.distinctOperatorCount
  matrixValueCount := receipt.matrixValueCount
  rhsValueCount := receipt.rhsValueCount
  flags := receipt.flags
  status := packageOk
  version := packageVersion
  reserved := 0

/-! ## Encoding -/

/-- `WriteCompileReceipt` -/
def compileReceiptPieces (receipt : CompileReceipt) : List (List UInt8) :=
  [receipt.receiptId.bytes, receipt.requestFingerprint.bytes, receipt.evidenceBoundary.bytes,
    receipt.evidenceEpoch.bytes, receipt.recipeFingerprint.bytes,
    receipt.targetContractFingerprint.bytes, u64Bytes receipt.slotCount,
    u64Bytes receipt.distinctOperatorCount, u64Bytes receipt.matrixValueCount,
    u64Bytes receipt.rhsValueCount, u32Bytes receipt.flags, u32Bytes receipt.status,
    u32Bytes receipt.version, u32Bytes receipt.reserved]

/-- `WriteSlotReceipt` -/
def slotReceiptPieces (slot : SlotReceipt) : List (List UInt8) :=
  [slot.slotId.bytes, slot.roleFingerprint.bytes, slot.operatorId.bytes,
    slot.operatorReceiptId.bytes, slot.programFingerprint.bytes, slot.fieldSetFingerprint.bytes,
    slot.constraintSetFingerprint.bytes, slot.materializationReceiptId.bytes,
    slot.matrixFingerprint.bytes, u64Bytes slot.fieldCount, u64Bytes slot.selectedConstraintCount,
    u64Bytes slot.matrixValueCount, u64Bytes slot.rhsValueCount, u32Bytes slot.targetRole,
    u32Bytes slot.layerIndex, u32Bytes slot.headIndex, u32Bytes slot.expertIndex,
    u32Bytes slot.relationPlaneCount, u32Bytes slot.status]

/-- What is written for a slot. -/
def rowPieces (row : Row) : List (List UInt8) :=
  slotReceiptPieces row.1 ++ row.2.1.map u64Bytes ++ row.2.2.map u64Bytes

/-- What is written with zeros in the place of the id. -/
def packagePieces (required : ℕ) (packageId : List UInt8) (result : CompileResult)
    (receipt : CompileReceipt) : List (List UInt8) :=
  [packageMagic, u32Bytes packageVersion, u32Bytes 0, u64Bytes (UInt64.ofNat required), packageId] ++
    compileReceiptPieces receipt ++ result.rows.flatMap rowPieces

/-- `laplace_target_package_encode`: the bytes that are written, and the receipt. -/
def encode (result : CompileResult) (receipt : CompileReceipt) (outputCapacity : ℕ) :
    Routine PackageStatus (List UInt8 × PackageReceipt) := do
  let required ← measureCompileArtifact blake3 result receipt
  require (required ≤ outputCapacity) .capacityInsufficient
  match writeAll outputCapacity
      (packagePieces required (List.replicate packageIdBytes 0) result receipt) [] with
  | none => .stop .capacityInsufficient
  | some output => do
    require (output.length = required) .corrupt
    let packageId := targetPackageDigest blake3 output
    return (output.take packageIdOffset ++ packageId.bytes ++
        output.drop (packageIdOffset + packageIdBytes),
      fillPackageReceipt packageId required receipt)

/-! ## Decoding -/

/-- `ReadCompileReceipt` -/
def readCompileReceipt : Routine PackageStatus CompileReceipt := do
  let receiptId ← digest .invalidFormat
  let requestFingerprint ← digest .invalidFormat
  let evidenceBoundary ← digest .invalidFormat
  let evidenceEpoch ← digest .invalidFormat
  let recipeFingerprint ← digest .invalidFormat
  let targetContractFingerprint ← digest .invalidFormat
  let slotCount ← u64 .invalidFormat
  let distinctOperatorCount ← u64 .invalidFormat
  let matrixValueCount ← u64 .invalidFormat
  let rhsValueCount ← u64 .invalidFormat
  let flags ← u32 .invalidFormat
  let status ← u32 .invalidFormat
  let version ← u32 .invalidFormat
  let reserved ← u32 .invalidFormat
  return ⟨receiptId, requestFingerprint, evidenceBoundary, evidenceEpoch, recipeFingerprint,
    targetContractFingerprint, slotCount, distinctOperatorCount, matrixValueCount, rhsValueCount,
    flags, status, version, reserved⟩

/-- `ReadSlotReceipt` -/
def readSlotReceipt : Routine PackageStatus SlotReceipt := do
  let slotId ← digest .invalidFormat
  let roleFingerprint ← digest .invalidFormat
  let operatorId ← digest .invalidFormat
  let operatorReceiptId ← digest .invalidFormat
  let programFingerprint ← digest .invalidFormat
  let fieldSetFingerprint ← digest .invalidFormat
  let constraintSetFingerprint ← digest .invalidFormat
  let materializationReceiptId ← digest .invalidFormat
  let matrixFingerprint ← digest .invalidFormat
  let fieldCount ← u64 .invalidFormat
  let selectedConstraintCount ← u64 .invalidFormat
  let matrixValueCount ← u64 .invalidFormat
  let rhsValueCount ← u64 .invalidFormat
  let targetRole ← u32 .invalidFormat
  let layerIndex ← u32 .invalidFormat
  let headIndex ← u32 .invalidFormat
  let expertIndex ← u32 .invalidFormat
  let relationPlaneCount ← u32 .invalidFormat
  let status ← u32 .invalidFormat
  return ⟨slotId, roleFingerprint, operatorId, operatorReceiptId, programFingerprint,
    fieldSetFingerprint, constraintSetFingerprint, materializationReceiptId, matrixFingerprint,
    fieldCount, selectedConstraintCount, matrixValueCount, rhsValueCount, targetRole, layerIndex,
    headIndex, expertIndex, relationPlaneCount, status⟩

/-- The number of value bytes that a slot announces. -/
def announcedBytes (slot : SlotReceipt) : Option ℕ := do
  let valueCount ← targetPackageAdd slot.matrixValueCount.toNat slot.rhsValueCount.toNat
  targetPackageMultiply valueCount 8

/-- The body of the loop of `laplace_target_package_decode`. -/
def readRow : Routine PackageStatus Row := do
  let slot ← readSlotReceipt
  let left ← remaining
  require (∃ valueBytes ∈ announcedBytes slot, valueBytes ≤ left) .invalidFormat
  resize slot.matrixValueCount.toNat 8 .memoryFailure
  resize slot.rhsValueCount.toNat 8 .memoryFailure
  let matrix ← many (u64 .invalidFormat) slot.matrixValueCount.toNat
  let rhs ← many (u64 .invalidFormat) slot.rhsValueCount.toNat
  return (slot, matrix, rhs)

/-- `sizeof(laplace_target_package)` -/
def packageObjectBytes : ℕ := 592

/-- The header, for an input of a size and the digest of the input. -/
def readHeader (inputSize : ℕ) (calculatedPackageId : Digest256) : Routine PackageStatus Unit := do
  let magic ← bytes .invalidFormat 8
  let version ← u32 .invalidFormat
  let reserved ← u32 .invalidFormat
  let encodedSize ← u64 .invalidFormat
  let storedPackageId ← digest .invalidFormat
  require (magic = packageMagic ∧ version = packageVersion ∧ reserved = 0 ∧
    encodedSize.toNat = inputSize) .invalidFormat
  require (storedPackageId = calculatedPackageId) .corrupt

/-- The compile receipt and the slots. -/
def readTables : Routine PackageStatus (CompileReceipt × List Row) := do
  resize 1 packageObjectBytes .memoryFailure
  let receipt ← readCompileReceipt
  require (receipt.slotCount ≠ 0) .invalidFormat
  resize receipt.slotCount.toNat slotReceiptEncodedBytes .memoryFailure
  resize receipt.slotCount.toNat 24 .memoryFailure
  resize receipt.slotCount.toNat 24 .memoryFailure
  let rows ← many readRow receipt.slotCount.toNat
  return (receipt, rows)

/-- `laplace_target_package_decode` -/
def decode (input : List UInt8) : Routine PackageStatus Package := do
  let inputSize ← remaining
  require (inputSize ≥ packageHeaderBytes + compileReceiptEncodedBytes) .invalidFormat
  let calculatedPackageId := targetPackageDigest blake3 input
  readHeader inputSize calculatedPackageId
  let (receipt, rows) ← readTables
  let left ← remaining
  require (left = 0) .invalidFormat
  let compiled := CompileResult.ofRows rows
  validateCompileArtifact blake3 compiled receipt
  return ⟨compiled, receipt, fillPackageReceipt calculatedPackageId inputSize receipt⟩

end Laplace.Target
