import Laplace.Digest
import Laplace.Execution.Plan
import Laplace.Lib.Checked

/-!
# Contexts, receipts and their identities (framework.h, framework.c:37-240, 456-770)

The values behind the pointers of the interface; a call with a null pointer is not modelled. A
callback table has the flag `callbacks`, whether all its function pointers are set. `blake3` is a
parameter, and every hash is taken of a byte string that has a name of its own. The checks for
zero digests are compiled for tests only.
-/

namespace Laplace.Framework

/-- `laplace_framework_status` -/
inductive Status
  | ok | invalidArgument | unsupportedVersion | contextInvalid | registryInvalid | streamInvalid
  | sinkInvalid | sinkBeginFailed | sinkStageFailed | sinkSealFailed | overflow
  | effectNotAuthorized | activationRequestInvalid | activationProviderInvalid
  | activationAdmissionFailed | activationCommitFailed | producerInvalid | producerPrepareFailed
  | producerBatchFailed | producerFinishFailed | producerCancelled | replayInvalid | replayMismatch
deriving DecidableEq, Repr

/-- The number of a status in its enumeration. -/
def Status.code (status : Status) : UInt32 := UInt32.ofNat status.ctorIdx

/-- A status that says what went wrong. -/
abbrev Failure := { status : Status // status ≠ .ok }

def failure (status : Status) (h : status ≠ .ok := by decide) : Failure := ⟨status, h⟩

theorem invalidArgument_ne : Status.invalidArgument ≠ .ok := by decide
theorem streamInvalid_ne : Status.streamInvalid ≠ .ok := by decide

/-! ## Constants (contracts/framework.json) -/

def major : UInt16 := 1
def minor : UInt16 := 6
def epochCount : ℕ := 10
def epochPerfcache : UInt32 := 7
def contextReadOnly : UInt32 := 2
def knownContextFlags : UInt32 := 3
def knownBatchFlags : UInt32 := 0
def knownStreamFlags : UInt32 := 0
def knownProducerFlags : UInt32 := 0
def knownProducerControlFlags : UInt32 := 0
def knownReplayFlags : UInt32 := 0
def knownActivationFlags : UInt32 := 0
def sinkAbiMajor : UInt16 := 1
def sinkAbiMinor : UInt16 := 0
def producerAbiMajor : UInt16 := 1
def producerAbiMinor : UInt16 := 0
def producerControlAbiMajor : UInt16 := 1
def producerControlAbiMinor : UInt16 := 0
def activationProviderAbiMajor : UInt16 := 1
def activationProviderAbiMinor : UInt16 := 0
def effectNone : UInt32 := 0
def effectStagedInert : UInt32 := 1
def effectActivationAdmitted : UInt32 := 2
def effectActivated : UInt32 := 3
def noIndex : UInt64 := Checked.maxWord

/-! ## Canonical batches -/

/-- `laplace_framework_canonical_batch`; the bytes are those that `canonical_bytes` points to. -/
structure CanonicalBatch where
  canonicalBytes : Option (List UInt8)
  byteCount : UInt64
  recordCount : UInt64
  firstOrdinal : UInt64
  recordType : UInt32
  flags : UInt32
  sized : ∀ bytes, canonicalBytes = some bytes → bytes.length = byteCount.toNat

/-- The bytes of a batch, none for a null pointer. -/
def CanonicalBatch.bytes (batch : CanonicalBatch) : List UInt8 := batch.canonicalBytes.getD []

/-! ## Execution contexts -/

/-- `laplace_framework_context` -/
structure Context where
  epochs : Fin epochCount → Digest256
  authorityFingerprint : Digest256
  resourceGrant : Execution.ExecutionGrant
  epochMask : UInt64
  major : UInt16
  minor : UInt16
  flags : UInt32
  reserved : UInt32
deriving DecidableEq

/-- Bit `index` of the epoch mask. -/
def Context.present (context : Context) (index : ℕ) : Bool :=
  context.epochMask &&& ((1 : UInt64) <<< UInt64.ofNat index) ≠ 0

def knownEpochMask : UInt64 := ((1 : UInt64) <<< UInt64.ofNat epochCount) - 1

/-- `laplace_framework_context_validate` -/
def contextValidate (context : Context) : Status :=
  if context.major ≠ major ∨ context.minor > minor then .unsupportedVersion
  else if context.flags &&& ~~~knownContextFlags ≠ 0 ∨ context.reserved ≠ 0 ∨
      context.epochMask &&& ~~~knownEpochMask ≠ 0 ∨ context.epochMask = 0 ∨
      context.resourceGrant.memoryBytes = 0 ∨ context.resourceGrant.cpuSlots = 0 then
    .contextInvalid
  else if (List.finRange epochCount).any
      fun index : Fin epochCount => !context.present index && context.epochs index ≠ 0 then .contextInvalid
  else .ok

def u16Bytes (value : UInt16) : List UInt8 := [(value &&& 0xff).toUInt8, (value >>> 8).toUInt8]

/-- What `laplace_framework_context_fingerprint` hashes. -/
def contextBytes (context : Context) : List UInt8 :=
  domainBytes "laplace-framework-context-v1" ++ u16Bytes context.major ++
  u16Bytes context.minor ++ u32Bytes context.flags ++ u64Bytes context.epochMask ++
  ((List.finRange epochCount).flatMap fun index : Fin epochCount =>
    if context.present index then
      u32Bytes (UInt32.ofNat index) ++ (context.epochs index).bytes
    else []) ++
  context.authorityFingerprint.bytes ++ u64Bytes context.resourceGrant.memoryBytes ++
  u32Bytes context.resourceGrant.cpuSlots ++ u32Bytes context.resourceGrant.ioSlots

/-! ## Receipts, plans and checkpoints -/

/-- `laplace_framework_stream_receipt` -/
structure StreamReceipt where
  receiptId : Digest256 := 0
  contextFingerprint : Digest256 := 0
  sourceFingerprint : Digest256 := 0
  recipeFingerprint : Digest256 := 0
  streamFingerprint : Digest256 := 0
  sinkArtifactsFingerprint : Digest256 := 0
  totalRecords : UInt64 := 0
  totalBytes : UInt64 := 0
  batchCount : UInt64 := 0
  sinkCount : UInt64 := 0
  failedBatchIndex : UInt64 := 0
  failedSinkIndex : UInt64 := 0
  recordType : UInt32 := 0
  effectDisposition : UInt32 := 0
  status : Status := .ok
  reserved : UInt32 := 0
deriving DecidableEq

/-- `laplace_framework_producer_plan` -/
structure ProducerPlan where
  producerFingerprint : Digest256 := 0
  initialCursorFingerprint : Digest256 := 0
  batchCount : UInt64 := 0
  totalRecords : UInt64 := 0
  totalBytes : UInt64 := 0
  recordType : UInt32 := 0
  flags : UInt32 := 0
  reserved : UInt64 := 0
deriving DecidableEq

/-- `laplace_framework_replay_checkpoint` -/
structure ReplayCheckpoint where
  checkpointId : Digest256 := 0
  contextFingerprint : Digest256 := 0
  sourceFingerprint : Digest256 := 0
  recipeFingerprint : Digest256 := 0
  producerFingerprint : Digest256 := 0
  planFingerprint : Digest256 := 0
  prefixFingerprint : Digest256 := 0
  cursorFingerprint : Digest256 := 0
  completedBatches : UInt64 := 0
  completedRecords : UInt64 := 0
  completedBytes : UInt64 := 0
  nextOrdinal : UInt64 := 0
  recordType : UInt32 := 0
  flags : UInt32 := 0
  reserved : UInt64 := 0
deriving DecidableEq

/-- `laplace_framework_producer_receipt` -/
structure ProducerReceipt where
  receiptId : Digest256 := 0
  stream : StreamReceipt := {}
  checkpoint : ReplayCheckpoint := {}
  planFingerprint : Digest256 := 0
  completionFingerprint : Digest256 := 0
  replayCheckpointId : Digest256 := 0
  progressEvents : UInt64 := 0
  status : Status := .ok
  replayVerified : UInt32 := 0
  reserved : UInt64 := 0
deriving DecidableEq

/-- `laplace_framework_activation_request` -/
structure ActivationRequest where
  expectedEpoch : Digest256
  nextEpoch : Digest256
  epochSlot : UInt32
  flags : UInt32
  reserved : UInt64
deriving DecidableEq

/-- `laplace_framework_activation_receipt` -/
structure ActivationReceipt where
  receiptId : Digest256 := 0
  contextFingerprint : Digest256 := 0
  stagedReceiptId : Digest256 := 0
  requestFingerprint : Digest256 := 0
  preparationFingerprint : Digest256 := 0
  activationFingerprint : Digest256 := 0
  expectedEpoch : Digest256 := 0
  nextEpoch : Digest256 := 0
  epochSlot : UInt32 := 0
  effectDisposition : UInt32 := 0
  status : Status := .ok
  reserved : UInt32 := 0
deriving DecidableEq

/-! ## The byte strings of the identities -/

/-- `initialize_stream_hasher` -/
def streamHasher (recordType : UInt32) (totalRecords totalBytes : UInt64) : List UInt8 :=
  domainBytes "laplace-framework-canonical-stream-v1" ++ u32Bytes recordType ++
  u64Bytes totalRecords ++ u64Bytes totalBytes

/-- `initialize_sink_artifact_hasher` -/
def sinkArtifactHasher (artifactCount : UInt64) : List UInt8 :=
  domainBytes "laplace-framework-sink-artifacts-v1" ++ u64Bytes artifactCount

/-- `update_sink_artifact_hasher` -/
def updateSinkArtifactHasher (hasher : List UInt8) (artifactIndex : UInt64)
    (artifactFingerprint : Digest256) : List UInt8 :=
  hasher ++ u64Bytes artifactIndex ++ artifactFingerprint.bytes

def streamReceiptBytes (receipt : StreamReceipt) : List UInt8 :=
  domainBytes "laplace-framework-stream-receipt-v1" ++ u32Bytes receipt.status.code ++
  u32Bytes receipt.recordType ++ u32Bytes receipt.effectDisposition ++
  u64Bytes receipt.totalRecords ++ u64Bytes receipt.totalBytes ++ u64Bytes receipt.batchCount ++
  u64Bytes receipt.sinkCount ++ u64Bytes receipt.failedBatchIndex ++
  u64Bytes receipt.failedSinkIndex ++ receipt.contextFingerprint.bytes ++
  receipt.sourceFingerprint.bytes ++ receipt.recipeFingerprint.bytes ++
  receipt.streamFingerprint.bytes ++ receipt.sinkArtifactsFingerprint.bytes

def producerPlanBytes (contextFingerprint sourceFingerprint recipeFingerprint : Digest256)
    (plan : ProducerPlan) : List UInt8 :=
  domainBytes "laplace-framework-producer-plan-v1" ++ contextFingerprint.bytes ++
  sourceFingerprint.bytes ++ recipeFingerprint.bytes ++ plan.producerFingerprint.bytes ++
  plan.initialCursorFingerprint.bytes ++ u64Bytes plan.batchCount ++ u64Bytes plan.totalRecords ++
  u64Bytes plan.totalBytes ++ u32Bytes plan.recordType ++ u32Bytes plan.flags

/-- `initialize_prefix_hasher` -/
def prefixHasher (recordType : UInt32) : List UInt8 :=
  domainBytes "laplace-framework-producer-prefix-v1" ++ u32Bytes recordType

/-- `update_prefix_hasher` -/
def updatePrefixHasher (hasher : List UInt8) (batchIndex : UInt64) (batch : CanonicalBatch) :
    List UInt8 :=
  hasher ++ u64Bytes batchIndex ++ u64Bytes batch.firstOrdinal ++ u64Bytes batch.recordCount ++
  u64Bytes batch.byteCount ++ batch.bytes

def checkpointBytes (checkpoint : ReplayCheckpoint) : List UInt8 :=
  domainBytes "laplace-framework-producer-checkpoint-v1" ++ checkpoint.contextFingerprint.bytes ++
  checkpoint.sourceFingerprint.bytes ++ checkpoint.recipeFingerprint.bytes ++
  checkpoint.producerFingerprint.bytes ++ checkpoint.planFingerprint.bytes ++
  checkpoint.prefixFingerprint.bytes ++ checkpoint.cursorFingerprint.bytes ++
  u64Bytes checkpoint.completedBatches ++ u64Bytes checkpoint.completedRecords ++
  u64Bytes checkpoint.completedBytes ++ u64Bytes checkpoint.nextOrdinal ++
  u32Bytes checkpoint.recordType ++ u32Bytes checkpoint.flags

def producerReceiptBytes (receipt : ProducerReceipt) : List UInt8 :=
  domainBytes "laplace-framework-producer-receipt-v1" ++ u32Bytes receipt.status.code ++
  u32Bytes receipt.replayVerified ++ u64Bytes receipt.progressEvents ++
  receipt.stream.receiptId.bytes ++ receipt.checkpoint.checkpointId.bytes ++
  receipt.planFingerprint.bytes ++ receipt.completionFingerprint.bytes ++
  receipt.replayCheckpointId.bytes

def activationRequestBytes (stagedReceiptId : Digest256) (request : ActivationRequest) :
    List UInt8 :=
  domainBytes "laplace-framework-activation-request-v1" ++ stagedReceiptId.bytes ++
  u32Bytes request.epochSlot ++ u32Bytes request.flags ++ request.expectedEpoch.bytes ++
  request.nextEpoch.bytes

def activationReceiptBytes (receipt : ActivationReceipt) : List UInt8 :=
  domainBytes "laplace-framework-activation-receipt-v1" ++ u32Bytes receipt.status.code ++
  u32Bytes receipt.epochSlot ++ u32Bytes receipt.effectDisposition ++
  receipt.contextFingerprint.bytes ++ receipt.stagedReceiptId.bytes ++
  receipt.requestFingerprint.bytes ++ receipt.preparationFingerprint.bytes ++
  receipt.activationFingerprint.bytes ++ receipt.expectedEpoch.bytes ++ receipt.nextEpoch.bytes

section Functions

variable (blake3 : Blake3)

/-- `laplace_framework_context_fingerprint`; the digest is zero on failure. -/
def contextFingerprint (context : Context) : Status × Digest256 :=
  match contextValidate context with
  | .ok => (.ok, blake3 (contextBytes context))
  | status => (status, 0)

def hashStreamReceipt (receipt : StreamReceipt) : StreamReceipt :=
  { receipt with receiptId := blake3 (streamReceiptBytes receipt) }

def hashCheckpoint (checkpoint : ReplayCheckpoint) : ReplayCheckpoint :=
  { checkpoint with checkpointId := blake3 (checkpointBytes checkpoint) }

def hashProducerReceipt (receipt : ProducerReceipt) : ProducerReceipt :=
  { receipt with receiptId := blake3 (producerReceiptBytes receipt) }

def hashActivationReceipt (receipt : ActivationReceipt) : ActivationReceipt :=
  { receipt with receiptId := blake3 (activationReceiptBytes receipt) }

def setCheckpoint (contextFingerprint sourceFingerprint recipeFingerprint : Digest256)
    (plan : ProducerPlan) (planFingerprint prefixFingerprint cursorFingerprint : Digest256)
    (completedBatches completedRecords completedBytes : UInt64) : ReplayCheckpoint :=
  hashCheckpoint blake3
    { contextFingerprint, sourceFingerprint, recipeFingerprint
      producerFingerprint := plan.producerFingerprint
      planFingerprint, prefixFingerprint, cursorFingerprint
      completedBatches, completedRecords, completedBytes
      nextOrdinal := completedRecords
      recordType := plan.recordType
      flags := knownReplayFlags }

def checkpointChecksumIsValid (checkpoint : ReplayCheckpoint) : Bool :=
  if checkpoint.recordType = 0 ∨ checkpoint.flags ≠ knownReplayFlags ∨ checkpoint.reserved ≠ 0 ∨
      checkpoint.nextOrdinal ≠ checkpoint.completedRecords then false
  else checkpoint.checkpointId = (hashCheckpoint blake3 checkpoint).checkpointId

def streamReceiptIsValid (receipt : StreamReceipt) : Bool :=
  if receipt.status ≠ .ok ∨ receipt.effectDisposition ≠ effectStagedInert ∨
      receipt.reserved ≠ 0 ∨ receipt.recordType = 0 ∨ receipt.totalRecords = 0 ∨
      receipt.totalBytes = 0 ∨ receipt.batchCount = 0 ∨ receipt.sinkCount = 0 ∨
      receipt.failedBatchIndex ≠ noIndex ∨ receipt.failedSinkIndex ≠ noIndex then false
  else receipt.receiptId = (hashStreamReceipt blake3 receipt).receiptId

/-- `laplace_framework_stream_receipt_validate` -/
def streamReceiptValidate (context : Context) (receipt : StreamReceipt) : Status :=
  match contextFingerprint blake3 context with
  | (.ok, fingerprint) =>
    if !streamReceiptIsValid blake3 receipt ∨ fingerprint ≠ receipt.contextFingerprint then
      .streamInvalid
    else .ok
  | (status, _) => status

/-- `laplace_framework_sink_artifacts_fingerprint` -/
def sinkArtifactsFingerprint (artifactFingerprints : List Digest256) : Status × Digest256 :=
  if artifactFingerprints = [] then (.invalidArgument, 0)
  else
    (.ok, blake3 (artifactFingerprints.zipIdx.foldl
      (fun hasher artifact => updateSinkArtifactHasher hasher (UInt64.ofNat artifact.2) artifact.1)
      (sinkArtifactHasher (UInt64.ofNat artifactFingerprints.length))))

/-- The loop of `laplace_framework_canonical_stream_fingerprint` that checks and counts. -/
def countBatches (type : UInt32) : List CanonicalBatch → UInt64 → UInt64 →
    Except Failure (UInt64 × UInt64)
  | [], records, bytes => .ok (records, bytes)
  | batch :: batches, records, bytes =>
    if batch.canonicalBytes.isNone ∨ batch.byteCount = 0 ∨ batch.recordCount = 0 ∨
        batch.firstOrdinal ≠ records ∨ batch.recordType ≠ type ∨
        batch.flags ≠ knownBatchFlags ∨ Checked.maxWord - records < batch.recordCount ∨
        Checked.maxWord - bytes < batch.byteCount then .error (failure .streamInvalid)
    else countBatches type batches (records + batch.recordCount) (bytes + batch.byteCount)

/-- What `laplace_framework_canonical_stream_fingerprint` writes. -/
structure StreamFingerprint where
  fingerprint : Digest256
  recordType : UInt32
  totalRecords : UInt64
  totalBytes : UInt64
deriving DecidableEq

/-- `laplace_framework_canonical_stream_fingerprint` -/
def canonicalStreamFingerprint (batches : List CanonicalBatch) :
    Except Failure StreamFingerprint :=
  match batches with
  | [] => .error (failure .invalidArgument)
  | first :: _ => do
    if first.recordType = 0 then .error (failure .streamInvalid)
    let (records, bytes) ← countBatches first.recordType batches 0 0
    return {
      fingerprint := blake3 (batches.foldl (fun hasher batch => hasher ++ batch.bytes)
        (streamHasher first.recordType records bytes))
      recordType := first.recordType
      totalRecords := records
      totalBytes := bytes }

end Functions

/-! ## Callback tables -/

/-- `laplace_framework_sink_v1` without its state -/
structure Sink where
  callbacks : Bool
  abiMajor : UInt16
  abiMinor : UInt16
  flags : UInt32
  reserved : UInt32
deriving DecidableEq

/-- `laplace_framework_producer_v1` without its state -/
structure Producer where
  callbacks : Bool
  abiMajor : UInt16
  abiMinor : UInt16
  flags : UInt32
  reserved : UInt32
deriving DecidableEq

/-- `laplace_framework_producer_control_v1` without its state -/
structure ProducerControl where
  replayCheckpoint : Option ReplayCheckpoint
  callbacks : Bool
  abiMajor : UInt16
  abiMinor : UInt16
  flags : UInt32
  reserved : UInt32
deriving DecidableEq

/-- `laplace_framework_sink_artifact_output`; no array for a null pointer. -/
structure SinkArtifactOutput where
  artifactFingerprints : Option (ℕ → Digest256)
  capacity : UInt64
  count : UInt64
  reserved : UInt64

/-- `laplace_framework_canonical_stream` -/
structure CanonicalStream where
  batches : List CanonicalBatch
  sourceFingerprint : Digest256
  recipeFingerprint : Digest256
  batchCount : UInt64
  flags : UInt32
  reserved : UInt32
  counted : batches.length = batchCount.toNat

end Laplace.Framework
