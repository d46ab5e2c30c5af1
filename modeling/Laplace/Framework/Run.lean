import Laplace.Framework.Types
import Laplace.Lib.Program

/-!
# Staging a stream and running a producer (framework.c:263-455, 796-1252)

Both functions call back into the sinks, and the second into a producer and its control. An
`Environment` is what the callbacks do: what each returns may depend on every call made before it.
The locals of the two functions, the receipt they fill and the calls they have made are one state,
a failure leaves through `Program`'s error, and the `fail` label is `fail`. An exit
before the first `begin` aborts the sinks that have begun, which are none.
-/

namespace Laplace.Framework

open Program

/-- A callback that is called, with what it is given or hands back. -/
inductive Event
  | prepare
  | cancelRequested
  | observeProgress (checkpoint : ReplayCheckpoint)
  | next (batchIndex : UInt64) (batch : CanonicalBatch)
  | finish
  | abortProducer
  | beginSink (sink : ℕ)
  | stageSink (sink : ℕ) (batch : CanonicalBatch)
  | sealSink (sink : ℕ) (streamFingerprint : Digest256)
  | abortSink (sink : ℕ)

/-- What the callbacks return after the calls made so far. -/
structure Environment where
  prepare : List Event → Status × ProducerPlan
  cancelRequested : List Event → Bool
  next : List Event → UInt64 → Status × CanonicalBatch × Digest256
  finish : List Event → Status × Digest256
  beginSink : List Event → ℕ → UInt32 → UInt64 → UInt64 → Status
  stageSink : List Event → ℕ → CanonicalBatch → Status
  sealSink : List Event → ℕ → Digest256 → Status × Digest256

/-- The locals of the two functions and the calls they have made. -/
structure Run where
  trace : List Event := []
  receipt : ProducerReceipt := {}
  plan : ProducerPlan := {}
  artifactOutput : Option SinkArtifactOutput := none
  streamHasher : List UInt8 := []
  prefixHasher : List UInt8 := []
  completedRecords : UInt64 := 0
  completedBytes : UInt64 := 0
  begun : ℕ := 0
  producerPrepared : Bool := false
  replayVerified : Bool := false

abbrev Running := Program Run Failure

/-- Call a callback that returns `outcome` and is recorded as `event`. -/
def call {α : Type} (outcome : List Event → α) (event : α → Event) : Running α := do
  let run ← get
  let result := outcome run.trace
  modify fun run => { run with trace := run.trace ++ [event result] }
  return result

/-! ## The sinks -/

def Sink.valid (sink : Sink) : Bool :=
  sink.callbacks && sink.abiMajor == sinkAbiMajor && sink.abiMinor ≤ sinkAbiMinor &&
  sink.flags == 0 && sink.reserved == 0

/-- `*failed_sink_index = sink` -/
def noteSink (sink : ℕ) (run : Run) : Run :=
  { run with receipt.stream.failedSinkIndex := UInt64.ofNat sink }

/-- `*failed_batch_index = batch_index` -/
def noteBatch (batchIndex : UInt64) (run : Run) : Run :=
  { run with receipt.stream.failedBatchIndex := batchIndex }

/-- `validate_sinks`: the index of a sink that is not valid goes into the receipt. -/
def validateSinks (sinks : List Sink) : Running Unit := do
  require (sinks ≠ []) (failure .sinkInvalid)
  let invalid := sinks.findIdx fun sink => !sink.valid
  demand (invalid = sinks.length) (noteSink invalid) (failure .sinkInvalid)

/-- `clear_sink_artifact_output` -/
def clearSinkArtifactOutput (sinkCount : ℕ) (output : SinkArtifactOutput) : SinkArtifactOutput :=
  { output with
    count := 0
    artifactFingerprints := output.artifactFingerprints.map fun fingerprints index =>
      if index < min output.capacity.toNat sinkCount then 0 else fingerprints index }

/-- `sizeof(laplace_digest256)` -/
def digestSize : ℕ := 32

/-- `prepare_sink_artifact_output` -/
def prepareSinkArtifactOutput (sinkCount : ℕ) (required : Bool) : Running Unit := do
  match (← get).artifactOutput with
  | none => require (required = false) (failure .invalidArgument invalidArgument_ne)
  | some output =>
    modify fun run => { run with artifactOutput := some (clearSinkArtifactOutput sinkCount output) }
    require (output.artifactFingerprints.isSome ∧ sinkCount ≤ output.capacity.toNat ∧
      sinkCount ≤ (2 ^ 64 - 1) / digestSize ∧ output.reserved = 0) (failure .invalidArgument invalidArgument_ne)

/-- `begin_sinks` from a sink on. -/
def beginSinks (environment : Environment) (recordType : UInt32) (totalRecords totalBytes : UInt64) :
    List ℕ → Running Unit
  | [] => return
  | sink :: sinks => do
    let status ← call (environment.beginSink · sink recordType totalRecords totalBytes)
      fun _ => .beginSink sink
    modify fun run => { run with begun := sink + 1 }
    demand (status = .ok) (noteSink sink) (failure .sinkBeginFailed)
    beginSinks environment recordType totalRecords totalBytes sinks

/-- `stage_batch_to_sinks` from a sink on. -/
def stageBatchToSinks (environment : Environment) (batch : CanonicalBatch) (batchIndex : UInt64) :
    List ℕ → Running Unit
  | [] => return
  | sink :: sinks => do
    let status ← call (environment.stageSink · sink batch) fun _ => .stageSink sink batch
    demand (status = .ok) (noteSink sink ∘ noteBatch batchIndex) (failure .sinkStageFailed)
    stageBatchToSinks environment batch batchIndex sinks

/-- `artifact_output->artifact_fingerprints[sink_index] = artifact` -/
def SinkArtifactOutput.write (output : SinkArtifactOutput) (sink : ℕ) (artifact : Digest256) :
    SinkArtifactOutput :=
  { output with
    artifactFingerprints := output.artifactFingerprints.map (Function.update · sink artifact) }

/-- The loop of `seal_sinks` from a sink on; it returns the artifact hasher. -/
def sealSinksFrom (environment : Environment) (sinkCount : ℕ) (streamFingerprint : Digest256)
    (artifactHasher : List UInt8) : List ℕ → Running (List UInt8)
  | [] => return artifactHasher
  | sink :: sinks => do
    let (status, artifact) ← call (environment.sealSink · sink streamFingerprint)
      fun _ => .sealSink sink streamFingerprint
    demand (status = .ok)
      (fun run => { noteSink sink run with
        artifactOutput := run.artifactOutput.map (clearSinkArtifactOutput sinkCount) })
      (failure .sinkSealFailed)
    modify fun run => { run with artifactOutput := run.artifactOutput.map (·.write sink artifact) }
    sealSinksFrom environment sinkCount streamFingerprint
      (updateSinkArtifactHasher artifactHasher (UInt64.ofNat sink) artifact) sinks

/-- `abort_sinks` from a sink on. -/
def abortSinks : List ℕ → Run → Run
  | [], run => run
  | sink :: sinks, run => abortSinks sinks { run with trace := run.trace ++ [.abortSink sink] }

section Functions

variable (environment : Environment) (blake3 : Blake3)

/-- `seal_sinks`, and what both functions do after it. -/
def sealSinks (sinkCount : ℕ) : Running Unit := do
  let artifactHasher ← sealSinksFrom environment sinkCount
    (← get).receipt.stream.streamFingerprint (sinkArtifactHasher (UInt64.ofNat sinkCount))
    (List.range sinkCount)
  modify fun run =>
    { run with
      receipt.stream.sinkArtifactsFingerprint := blake3 artifactHasher
      receipt.stream.effectDisposition := effectStagedInert
      artifactOutput := run.artifactOutput.map ({ · with count := UInt64.ofNat sinkCount }) }

/-! ## `stage_canonical_stream_impl` -/

/-- The loop that stages the batches from an index on. -/
def stageBatches (sinkCount : ℕ) : List CanonicalBatch → UInt64 → Running Unit
  | [], _ => return
  | batch :: batches, batchIndex => do
    stageBatchToSinks environment batch batchIndex (List.range sinkCount)
    stageBatches sinkCount batches (batchIndex + 1)

/-- The receipt and the artifact output as both functions receive and reset them. -/
def initialRun (sinkCount : ℕ) (artifactOutput : Option SinkArtifactOutput) : Run :=
  { artifactOutput
    receipt.stream.failedBatchIndex := noIndex
    receipt.stream.failedSinkIndex := noIndex
    receipt.stream.sinkCount := UInt64.ofNat sinkCount }

/-- Write the fingerprint of the context into the receipt. -/
def recordContext (context : Context) : Running Unit := do
  let result := contextFingerprint blake3 context
  modify fun run => { run with receipt.stream.contextFingerprint := result.2 }
  if h : result.1 = .ok then return else throw ⟨result.1, h⟩

def stageBody (context : Context) (stream : CanonicalStream) (sinks : List Sink)
    (artifactOutputRequired : Bool) : Running Unit := do
  prepareSinkArtifactOutput sinks.length artifactOutputRequired
  recordContext blake3 context
  require (stream.batchCount ≠ 0 ∧ stream.flags = knownStreamFlags ∧ stream.reserved = 0)
    (failure .streamInvalid streamInvalid_ne)
  modify fun run =>
    { run with
      receipt.stream.batchCount := stream.batchCount
      receipt.stream.sourceFingerprint := stream.sourceFingerprint
      receipt.stream.recipeFingerprint := stream.recipeFingerprint }
  let summary ← ExceptT.mk (pure (canonicalStreamFingerprint blake3 stream.batches))
  modify fun run =>
    { run with
      receipt.stream.streamFingerprint := summary.fingerprint
      receipt.stream.recordType := summary.recordType
      receipt.stream.totalRecords := summary.totalRecords
      receipt.stream.totalBytes := summary.totalBytes }
  validateSinks sinks
  beginSinks environment summary.recordType summary.totalRecords summary.totalBytes
    (List.range sinks.length)
  stageBatches environment sinks.length stream.batches 0
  sealSinks environment blake3 sinks.length

/-- `stage_canonical_stream_impl`; the receipt is `receipt.stream` of the run. -/
def stageCanonicalStreamImpl (context : Context) (stream : CanonicalStream) (sinks : List Sink)
    (artifactOutput : Option SinkArtifactOutput) (artifactOutputRequired : Bool) : Status × Run :=
  let close (status : Status) (run : Run) : Status × Run :=
    (status, { run with receipt.stream := hashStreamReceipt blake3 { run.receipt.stream with status } })
  match (stageBody environment blake3 context stream sinks artifactOutputRequired).eval
      (initialRun sinks.length artifactOutput) with
  | (.ok (), run) => close .ok run
  | (.error status, run) => close status.1 (abortSinks (List.range run.begun) run)

/-- `laplace_framework_stage_canonical_stream` -/
def stageCanonicalStream (context : Context) (stream : CanonicalStream) (sinks : List Sink) :
    Status × Run :=
  stageCanonicalStreamImpl environment blake3 context stream sinks none false

/-- `laplace_framework_stage_canonical_stream_with_artifacts` -/
def stageCanonicalStreamWithArtifacts (context : Context) (stream : CanonicalStream)
    (sinks : List Sink) (artifactOutput : Option SinkArtifactOutput) : Status × Run :=
  stageCanonicalStreamImpl environment blake3 context stream sinks artifactOutput true

/-! ## `run_producer_impl` -/

def Producer.valid (producer : Producer) : Bool :=
  producer.callbacks && producer.abiMajor == producerAbiMajor &&
  producer.abiMinor ≤ producerAbiMinor &&
  producer.flags == knownProducerFlags && producer.reserved == 0

def ProducerControl.valid (control : ProducerControl) : Bool :=
  control.callbacks && control.abiMajor == producerControlAbiMajor &&
  control.abiMinor ≤ producerControlAbiMinor &&
  control.flags == knownProducerControlFlags && control.reserved == 0

/-- Leave when the control asks for it. -/
def checkCancelled : Running Unit := do
  let cancelled ← call environment.cancelRequested fun _ => .cancelRequested
  require (cancelled = false) (failure .producerCancelled)

/-- The progress observer, and the count of its calls. -/
def observeProgress : Running Unit := do
  let checkpoint := (← get).receipt.checkpoint
  call (fun _ => ()) fun _ => .observeProgress checkpoint
  modify fun run => { run with receipt.progressEvents := run.receipt.progressEvents + 1 }

/-- The checkpoint after `completedBatches` batches. -/
def takeCheckpoint (sourceFingerprint recipeFingerprint cursorFingerprint : Digest256)
    (completedBatches : UInt64) (run : Run) : Run :=
  { run with
    receipt.checkpoint := setCheckpoint blake3 run.receipt.stream.contextFingerprint
      sourceFingerprint recipeFingerprint run.plan run.receipt.planFingerprint
      (blake3 run.prefixHasher) cursorFingerprint completedBatches run.completedRecords
      run.completedBytes }

/-- The comparison with the checkpoint to replay. -/
def compareReplay (replay : ReplayCheckpoint) : Running Unit := do
  require (replay.checkpointId = (← get).receipt.checkpoint.checkpointId)
    (failure .replayMismatch)
  modify fun run => { run with replayVerified := true }

/-- `compareReplay` when the checkpoint to replay was taken after `completedBatches` batches. -/
def reachReplay (completedBatches : UInt64) : Option ReplayCheckpoint → Running Unit
  | none => return
  | some replay =>
    if replay.completedBatches = completedBatches then compareReplay replay else return

/-- What a checkpoint to replay must agree with before the first batch. -/
def replayMatchesPlan (replay : ReplayCheckpoint) (contextFingerprint sourceFingerprint
    recipeFingerprint planFingerprint : Digest256) (plan : ProducerPlan) : Bool :=
  checkpointChecksumIsValid blake3 replay && replay.completedBatches ≤ plan.batchCount &&
  replay.completedRecords ≤ plan.totalRecords && replay.completedBytes ≤ plan.totalBytes &&
  replay.recordType == plan.recordType && replay.contextFingerprint == contextFingerprint &&
  replay.sourceFingerprint == sourceFingerprint &&
  replay.recipeFingerprint == recipeFingerprint &&
  replay.producerFingerprint == plan.producerFingerprint &&
  replay.planFingerprint == planFingerprint

/-- The part of the function that reads the checkpoint to replay (framework.c:1037-1067). -/
def openReplay (sourceFingerprint recipeFingerprint : Digest256) :
    Option ReplayCheckpoint → Running Unit
  | none => return
  | some replay => do
    modify fun run => { run with receipt.replayCheckpointId := replay.checkpointId }
    let run ← get
    require
      (replayMatchesPlan blake3 replay run.receipt.stream.contextFingerprint sourceFingerprint
        recipeFingerprint run.receipt.planFingerprint run.plan)
      (failure .replayInvalid)
    reachReplay 0 (some replay)

/-- Leave with a batch failure at `batchIndex` unless `condition` holds. -/
def requireBatch (condition : Prop) [Decidable condition] (batchIndex : UInt64) : Running Unit :=
  demand condition (noteBatch batchIndex) (failure .producerBatchFailed)

/-- What is asked of a batch the producer hands over. -/
def batchAccepted (run : Run) (batch : CanonicalBatch) : Bool :=
  batch.canonicalBytes.isSome && batch.byteCount != 0 && batch.recordCount != 0 &&
  batch.firstOrdinal == run.completedRecords && batch.recordType == run.plan.recordType &&
  batch.flags == knownBatchFlags &&
  batch.recordCount ≤ Checked.maxWord - run.completedRecords &&
  batch.byteCount ≤ Checked.maxWord - run.completedBytes

/-- One round of the batch loop. -/
def runBatch (sourceFingerprint recipeFingerprint : Digest256) (replay : Option ReplayCheckpoint)
    (sinkCount : ℕ) (batchIndex : UInt64) : Running Unit := do
  checkCancelled environment
  let (status, batch, cursorFingerprint) ← call (environment.next · batchIndex)
    fun result => .next batchIndex result.2.1
  requireBatch (status = .ok) batchIndex
  requireBatch (batchAccepted (← get) batch) batchIndex
  modify fun run =>
    { run with
      completedRecords := run.completedRecords + batch.recordCount
      completedBytes := run.completedBytes + batch.byteCount }
  let run ← get
  requireBatch (run.completedRecords ≤ run.plan.totalRecords ∧
    run.completedBytes ≤ run.plan.totalBytes) batchIndex
  stageBatchToSinks environment batch batchIndex (List.range sinkCount)
  modify fun run =>
    { run with
      streamHasher := run.streamHasher ++ batch.bytes
      prefixHasher := updatePrefixHasher run.prefixHasher batchIndex batch }
  modify (takeCheckpoint blake3 sourceFingerprint recipeFingerprint cursorFingerprint (batchIndex + 1))
  reachReplay (batchIndex + 1) replay
  observeProgress

/-- The batch loop, from an index on. -/
def runBatches (sourceFingerprint recipeFingerprint : Digest256) (replay : Option ReplayCheckpoint)
    (sinkCount : ℕ) : ℕ → UInt64 → Running Unit
  | 0, _ => return
  | remaining + 1, batchIndex => do
    runBatch environment blake3 sourceFingerprint recipeFingerprint replay sinkCount batchIndex
    runBatches sourceFingerprint recipeFingerprint replay sinkCount remaining (batchIndex + 1)

/-- `prepare`, and what the plan puts into the receipt, the hashers and the first checkpoint. -/
def preparePlan (sourceFingerprint recipeFingerprint : Digest256) : Running Unit := do
  modify fun run => { run with producerPrepared := true }
  let (status, plan) ← call environment.prepare fun _ => .prepare
  require (status = .ok) (failure .producerPrepareFailed)
  modify fun run => { run with plan }
  require (plan.batchCount ≠ 0 ∧ plan.totalRecords ≠ 0 ∧ plan.totalBytes ≠ 0 ∧
    plan.recordType ≠ 0 ∧ plan.flags = knownProducerFlags ∧ plan.reserved = 0)
    (failure .producerInvalid)
  modify fun run =>
    { run with
      receipt.stream.batchCount := plan.batchCount
      receipt.stream.totalRecords := plan.totalRecords
      receipt.stream.totalBytes := plan.totalBytes
      receipt.stream.recordType := plan.recordType
      receipt.planFingerprint := blake3 (producerPlanBytes run.receipt.stream.contextFingerprint
        sourceFingerprint recipeFingerprint plan)
      streamHasher := streamHasher plan.recordType plan.totalRecords plan.totalBytes
      prefixHasher := prefixHasher plan.recordType }
  modify (takeCheckpoint blake3 sourceFingerprint recipeFingerprint plan.initialCursorFingerprint 0)

/-- After the last batch. -/
def closeProducer (replay : Option ReplayCheckpoint) : Running Unit := do
  let run ← get
  requireBatch (run.completedRecords = run.plan.totalRecords ∧
    run.completedBytes = run.plan.totalBytes ∧ (replay.isSome → run.replayVerified))
    run.plan.batchCount
  checkCancelled environment
  let (status, completionFingerprint) ← call environment.finish fun _ => .finish
  modify fun run => { run with receipt.completionFingerprint := completionFingerprint }
  require (status = .ok) (failure .producerFinishFailed)
  modify fun run => { run with receipt.stream.streamFingerprint := blake3 run.streamHasher }

def runBody (context : Context) (sourceFingerprint recipeFingerprint : Digest256)
    (producer : Producer) (control : ProducerControl) (sinks : List Sink)
    (artifactOutputRequired : Bool) : Running Unit := do
  prepareSinkArtifactOutput sinks.length artifactOutputRequired
  recordContext blake3 context
  modify fun run =>
    { run with
      receipt.stream.sourceFingerprint := sourceFingerprint
      receipt.stream.recipeFingerprint := recipeFingerprint }
  require (producer.valid && control.valid) (failure .producerInvalid)
  validateSinks sinks
  preparePlan environment blake3 sourceFingerprint recipeFingerprint
  openReplay blake3 sourceFingerprint recipeFingerprint control.replayCheckpoint
  checkCancelled environment
  observeProgress
  checkCancelled environment
  let plan := (← get).plan
  beginSinks environment plan.recordType plan.totalRecords plan.totalBytes
    (List.range sinks.length)
  runBatches environment blake3 sourceFingerprint recipeFingerprint control.replayCheckpoint
    sinks.length plan.batchCount.toNat 0
  closeProducer environment blake3 control.replayCheckpoint
  sealSinks environment blake3 sinks.length

/-- The end of the function: the receipts are completed and hashed. -/
def closeReceipt (status : Status) (run : Run) : Run :=
  let stream := hashStreamReceipt blake3 { run.receipt.stream with status }
  { run with
    receipt := hashProducerReceipt blake3
      { run.receipt with stream, status, replayVerified := if run.replayVerified then 1 else 0 } }

/-- The `fail` label. -/
def fail (status : Status) (run : Run) : Run :=
  let run := abortSinks (List.range run.begun) run
  let run :=
    if run.producerPrepared then { run with trace := run.trace ++ [.abortProducer] } else run
  closeReceipt blake3 status { run with receipt.stream.effectDisposition := effectNone }

/-- `run_producer_impl` -/
def runProducerImpl (context : Context) (sourceFingerprint recipeFingerprint : Digest256)
    (producer : Producer) (control : ProducerControl) (sinks : List Sink)
    (artifactOutput : Option SinkArtifactOutput) (artifactOutputRequired : Bool) : Status × Run :=
  match (runBody environment blake3 context sourceFingerprint recipeFingerprint producer control
      sinks artifactOutputRequired).eval (initialRun sinks.length artifactOutput) with
  | (.ok (), run) => (.ok, closeReceipt blake3 .ok run)
  | (.error status, run) => (status.1, fail blake3 status.1 run)

/-- `laplace_framework_run_producer` -/
def runProducer (context : Context) (sourceFingerprint recipeFingerprint : Digest256)
    (producer : Producer) (control : ProducerControl) (sinks : List Sink) : Status × Run :=
  runProducerImpl environment blake3 context sourceFingerprint recipeFingerprint producer control
    sinks none false

/-- `laplace_framework_run_producer_with_artifacts` -/
def runProducerWithArtifacts (context : Context) (sourceFingerprint recipeFingerprint : Digest256)
    (producer : Producer) (control : ProducerControl) (sinks : List Sink)
    (artifactOutput : Option SinkArtifactOutput) : Status × Run :=
  runProducerImpl environment blake3 context sourceFingerprint recipeFingerprint producer control
    sinks artifactOutput true

end Functions

end Laplace.Framework
