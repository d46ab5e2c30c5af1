import Laplace.Framework.Types

/-!
# Canonical spools (spool.h, spool.cpp)

A spool keeps the bytes of the batches appended to it one after the other in one file, and where
each of them stands there. Once it is sealed the file is mapped, the batches are read back from the
mapping, and the spool is the state of a producer.

The file is the list of the bytes it holds. What the system answers is given to each call: whether
memory is there, what each write does, and whether the other calls on the file succeed. A call with
a null pointer is not modelled, nor are `destroy` and the checks against `SIZE_MAX`, which is the
largest word.
-/

namespace Laplace.Spool

open Framework


/-- `laplace_spool_status` -/
inductive Status
  | ok | invalidArgument | stateInvalid | batchInvalid | sizeOverflow | fileOpenFailed | fileIoFailed
  | fileMappingFailed | memoryFailure
deriving DecidableEq, Repr

def Status.code (status : Status) : UInt32 := UInt32.ofNat status.ctorIdx

structure BatchMetadata where
  offset : UInt64
  byteCount : UInt64
  recordCount : UInt64
  firstOrdinal : UInt64
deriving DecidableEq

/-- `laplace_canonical_spool_summary` -/
structure Summary where
  spoolFingerprint : Digest256 := 0
  streamFingerprint : Digest256 := 0
  producerFingerprint : Digest256 := 0
  sourceFingerprint : Digest256 := 0
  recipeFingerprint : Digest256 := 0
  batchCount : UInt64 := 0
  totalRecords : UInt64 := 0
  totalBytes : UInt64 := 0
  recordType : UInt32 := 0
  status : UInt32 := 0
deriving DecidableEq

/-- `laplace_canonical_spool`; the pointers of `batches` into the mapping are the bytes they point to. -/
structure CanonicalSpool where
  metadata : List BatchMetadata := []
  batches : List CanonicalBatch := []
  summary : Summary := {}
  file : List UInt8 := []
  mappingBytes : UInt64 := 0
  isSealed : Bool := false
  failed : Bool := false

/-! ## The byte strings of the fingerprints -/

/-- `HashString` -/
def stringBytes (value : String) : List UInt8 :=
  u64Bytes (UInt64.ofNat (domainBytes value).length) ++ domainBytes value

def metadataBytes (metadata : BatchMetadata) : List UInt8 :=
  u64Bytes metadata.offset ++ u64Bytes metadata.byteCount ++ u64Bytes metadata.recordCount ++
  u64Bytes metadata.firstOrdinal

def spoolBytes (summary : Summary) (metadata : List BatchMetadata) : List UInt8 :=
  stringBytes "laplace-canonical-spool-v1" ++ summary.sourceFingerprint.bytes ++
  summary.recipeFingerprint.bytes ++ summary.streamFingerprint.bytes ++ u32Bytes summary.recordType ++
  u64Bytes summary.totalRecords ++ u64Bytes summary.totalBytes ++
  u64Bytes (UInt64.ofNat metadata.length) ++ metadata.flatMap metadataBytes

def producerBytes (spoolFingerprint : Digest256) : List UInt8 :=
  stringBytes "laplace-canonical-spool-producer-v1" ++ spoolFingerprint.bytes

def cursorBytes (summary : Summary) (nextBatch nextRecord nextByte : UInt64) : List UInt8 :=
  stringBytes "laplace-canonical-spool-cursor-v1" ++ summary.producerFingerprint.bytes ++
  u64Bytes nextBatch ++ u64Bytes nextRecord ++ u64Bytes nextByte

/-! ## What the system answers -/

structure CreateAnswers where
  allocates : Bool
  allocatesPath : Bool
  opensFile : Bool

/-- What a call of `write` does. -/
inductive WriteAnswer
  | wrote (count : ℕ)
  | interrupted
  | failed

/-- When there is no answer left to a write, it fails. -/
structure AppendAnswers where
  allocates : Bool
  writes : List WriteAnswer

structure SealAnswers where
  syncs : Bool
  stats : Bool
  maps : Bool
  allocates : Bool

/-! ## The calls -/

/-- `laplace_canonical_spool_create` -/
def canonicalSpoolCreate (answers : CreateAnswers) (directory : String) (recordType : UInt32)
    (sourceFingerprint recipeFingerprint : Digest256) : Status × Option CanonicalSpool :=
  if directory = "" ∨ recordType = 0 then (.invalidArgument, none)
  else if !answers.allocates then (.memoryFailure, none)
  else if !answers.allocatesPath then (.memoryFailure, none)
  else if !answers.opensFile then (.fileOpenFailed, none)
  else (.ok, some { summary := { sourceFingerprint, recipeFingerprint, recordType } })

/-- `WriteComplete`: whether all bytes are written, and the file. -/
def writeComplete : List WriteAnswer → List UInt8 → List UInt8 → Bool × List UInt8
  | [], bytes, file => (bytes.isEmpty, file)
  | answer :: answers, bytes, file =>
    if bytes = [] then (true, file)
    else match answer with
      | .interrupted => writeComplete answers bytes file
      | .failed => (false, file)
      | .wrote count =>
        if count = 0 then (false, file)
        else writeComplete answers (bytes.drop count) (file ++ bytes.take count)

/-- What `laplace_canonical_spool_append` refuses. -/
def BatchInvalid (summary : Summary) (batch : CanonicalBatch) : Prop :=
  batch.canonicalBytes.isNone ∨ batch.byteCount = 0 ∨ batch.recordCount = 0 ∨
  batch.firstOrdinal ≠ summary.totalRecords ∨ batch.recordType ≠ summary.recordType ∨
  batch.flags ≠ knownBatchFlags ∨
  Checked.maxWord - summary.totalRecords < batch.recordCount ∨
  Checked.maxWord - summary.totalBytes < batch.byteCount

instance batchInvalidDecidable (summary : Summary) (batch : CanonicalBatch) :
    Decidable (BatchInvalid summary batch) := by
  unfold BatchInvalid
  infer_instance

def Summary.count (summary : Summary) (batch : CanonicalBatch) : Summary :=
  { summary with
    totalRecords := summary.totalRecords + batch.recordCount
    totalBytes := summary.totalBytes + batch.byteCount
    batchCount := summary.batchCount + 1 }

/-- The entry that `laplace_canonical_spool_append` makes for a batch. -/
def Summary.metadata (summary : Summary) (batch : CanonicalBatch) : BatchMetadata :=
  ⟨summary.totalBytes, batch.byteCount, batch.recordCount, batch.firstOrdinal⟩

/-- `laplace_canonical_spool_append` -/
def canonicalSpoolAppend (answers : AppendAnswers) (spool : CanonicalSpool) (batch : CanonicalBatch) :
    Status × CanonicalSpool :=
  if spool.isSealed || spool.failed then (.stateInvalid, spool)
  else if BatchInvalid spool.summary batch then (.batchInvalid, spool)
  else if !answers.allocates then (.memoryFailure, { spool with failed := true })
  else
    let metadata := spool.metadata ++ [spool.summary.metadata batch]
    match writeComplete answers.writes batch.bytes spool.file with
    | (false, file) => (.fileIoFailed, { spool with metadata, file, failed := true })
    | (true, file) => (.ok, { spool with metadata, file, summary := spool.summary.count batch })

/-- A batch in the mapping; a byte past the end of the file is zero there. -/
def mappedBatch (file : List UInt8) (recordType : UInt32) (metadata : BatchMetadata) :
    CanonicalBatch where
  canonicalBytes := some (List.ofFn fun index : Fin metadata.byteCount.toNat =>
    file.getD (metadata.offset.toNat + index) 0)
  byteCount := metadata.byteCount
  recordCount := metadata.recordCount
  firstOrdinal := metadata.firstOrdinal
  recordType := recordType
  flags := knownBatchFlags
  sized := fun bytes h => by rw [← Option.some.inj h, List.length_ofFn]

section Functions

variable (blake3 : Blake3)

def cursorFingerprint (summary : Summary) (nextBatch nextRecord nextByte : UInt64) : Digest256 :=
  blake3 (cursorBytes summary nextBatch nextRecord nextByte)

/-- The fingerprints that are made after the batches have been verified. -/
def Summary.fingerprinted (summary : Summary) (metadata : List BatchMetadata) : Summary :=
  let spoolFingerprint := blake3 (spoolBytes summary metadata)
  { summary with
    spoolFingerprint
    producerFingerprint := blake3 (producerBytes spoolFingerprint)
    status := Status.ok.code }

/-- `laplace_canonical_spool_seal`; the summary that is handed out is zero on failure. -/
def canonicalSpoolSeal (answers : SealAnswers) (spool : CanonicalSpool) :
    Status × Summary × CanonicalSpool :=
  if spool.isSealed || spool.failed || spool.metadata.isEmpty || spool.summary.totalBytes == 0 then
    (.stateInvalid, {}, spool)
  else if !answers.syncs then (.fileIoFailed, {}, { spool with failed := true })
  else if !answers.stats || spool.file.length != spool.summary.totalBytes.toNat then
    (.fileIoFailed, {}, { spool with failed := true })
  else if !answers.maps then (.fileMappingFailed, {}, { spool with failed := true })
  else
    let spool := { spool with mappingBytes := spool.summary.totalBytes }
    if !answers.allocates then (.memoryFailure, {}, { spool with failed := true })
    else
      let spool :=
        { spool with batches := spool.metadata.map (mappedBatch spool.file spool.summary.recordType) }
      match canonicalStreamFingerprint blake3 spool.batches with
      | .error _ => (.batchInvalid, {}, { spool with failed := true })
      | .ok verified =>
        let spool :=
          { spool with summary := { spool.summary with streamFingerprint := verified.fingerprint } }
        if verified.recordType ≠ spool.summary.recordType ∨
            verified.totalRecords ≠ spool.summary.totalRecords ∨
            verified.totalBytes ≠ spool.summary.totalBytes then
          (.batchInvalid, {}, { spool with failed := true })
        else
          let summary := spool.summary.fingerprinted blake3 spool.metadata
          (.ok, summary, { spool with summary, isSealed := true })

/-! ## The producer -/

/-- `laplace_canonical_spool_producer`; the table is zero on failure. -/
def canonicalSpoolProducer (spool : CanonicalSpool) : Status × Producer :=
  if !spool.isSealed || spool.failed then (.stateInvalid, ⟨false, 0, 0, 0, 0⟩)
  else (.ok, ⟨true, producerAbiMajor, producerAbiMinor,
    knownProducerFlags, 0⟩)

/-- `SpoolPrepare` -/
def spoolPrepare (spool : CanonicalSpool) (context : Context)
    (sourceFingerprint recipeFingerprint : Digest256) : Framework.Status × ProducerPlan :=
  if !spool.isSealed || spool.failed || sourceFingerprint != spool.summary.sourceFingerprint ||
      recipeFingerprint != spool.summary.recipeFingerprint ||
      contextValidate context != .ok then (.producerPrepareFailed, {})
  else
    (.ok, {
      producerFingerprint := spool.summary.producerFingerprint
      initialCursorFingerprint := cursorFingerprint blake3 spool.summary 0 0 0
      batchCount := spool.summary.batchCount
      totalRecords := spool.summary.totalRecords
      totalBytes := spool.summary.totalBytes
      recordType := spool.summary.recordType })

/-- `laplace_framework_canonical_batch{}` -/
def zeroBatch : CanonicalBatch where
  canonicalBytes := none
  byteCount := 0
  recordCount := 0
  firstOrdinal := 0
  recordType := 0
  flags := 0
  sized := fun _ h => by cases h

/-- `SpoolNext` -/
def spoolNext (spool : CanonicalSpool) (batchIndex : UInt64) :
    Framework.Status × CanonicalBatch × Digest256 :=
  if !spool.isSealed || spool.failed then (.producerBatchFailed, zeroBatch, 0)
  else match spool.batches[batchIndex.toNat]?, spool.metadata[batchIndex.toNat]? with
    | some batch, some metadata =>
      (.ok, batch, cursorFingerprint blake3 spool.summary (batchIndex + 1)
        (batch.firstOrdinal + batch.recordCount) (metadata.offset + batch.byteCount))
    | _, _ => (.producerBatchFailed, zeroBatch, 0)

/-- What the producer hands over for the batches of its plan. -/
def replayed (spool : CanonicalSpool) : List CanonicalBatch :=
  (List.range spool.summary.batchCount.toNat).map fun index =>
    (spoolNext blake3 spool (UInt64.ofNat index)).2.1

/-- `SpoolFinish` -/
def spoolFinish (spool : CanonicalSpool) : Framework.Status × Digest256 :=
  if !spool.isSealed || spool.failed then (.producerFinishFailed, 0)
  else (.ok, spool.summary.spoolFingerprint)

end Functions

/-! ## A history of calls -/

inductive Call
  | append (answers : AppendAnswers) (batch : CanonicalBatch)
  | sealSpool (answers : SealAnswers)

def Call.apply (blake3 : Blake3) (spool : CanonicalSpool) :
    Call → Status × CanonicalSpool
  | .append answers batch => canonicalSpoolAppend answers spool batch
  | .sealSpool answers =>
    let result := canonicalSpoolSeal blake3 answers spool
    (result.1, result.2.2)

/-- The spool after some calls. -/
def after (blake3 : Blake3) : CanonicalSpool → List Call → CanonicalSpool
  | spool, [] => spool
  | spool, call :: calls => after blake3 (call.apply blake3 spool).2 calls

/-- The batch of an append that is accepted. -/
def Call.accepted (spool : CanonicalSpool) : Call → List CanonicalBatch
  | .append answers batch => if (canonicalSpoolAppend answers spool batch).1 = .ok then [batch] else []
  | .sealSpool _ => []

/-- The batches that are accepted in some calls. -/
def accepted (blake3 : Blake3) : CanonicalSpool → List Call → List CanonicalBatch
  | _, [] => []
  | spool, call :: calls =>
    call.accepted spool ++ accepted blake3 (call.apply blake3 spool).2 calls

end Laplace.Spool
