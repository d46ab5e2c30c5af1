import Laplace.Framework.Encodings
import Laplace.Framework.Run
import Laplace.Lib.Success

/-!
# When staging succeeds

A call that succeeds makes the same calls to the sinks whatever they answer besides success, so it
succeeds when the calls that are known beforehand are all accepted, each after the ones before.
-/

namespace Laplace.Framework

open Program Run

/-! ## The calls to the sinks -/

def Event.isSink : Event → Bool
  | .beginSink _ | .stageSink _ _ | .sealSink _ _ | .abortSink _ => true
  | _ => false

/-- The calls made to the sinks. -/
def sinkEvents (trace : List Event) : List Event := trace.filter Event.isSink

theorem sinkEvents_append (trace trace' : List Event) :
    sinkEvents (trace ++ trace') = sinkEvents trace ++ sinkEvents trace' := List.filter_append ..

/-- Calls are made. -/
def Run.calls (events : List Event) (run : Run) : Run := { run with trace := run.trace ++ events }

@[simp] theorem Run.calls_nil (run : Run) : run.calls [] = run := by
  rw [calls, List.append_nil]

theorem Run.calls_calls (events events' : List Event) (run : Run) :
    (run.calls events).calls events' = run.calls (events ++ events') := by
  rw [calls, calls, calls, List.append_assoc]

/-- Sinks have begun, the ones below the last and it. -/
def Run.beginAll (sinks : List ℕ) (run : Run) : Run :=
  { run.calls (sinks.map .beginSink) with begun := sinks.foldl (fun _ sink => sink + 1) run.begun }

/-- Sinks whose answers depend on the calls to the sinks and on nothing else. -/
structure Environment.SinksAlone (environment : Environment) : Prop where
  beginSink : ∀ trace, environment.beginSink trace = environment.beginSink (sinkEvents trace)
  stageSink : ∀ trace, environment.stageSink trace = environment.stageSink (sinkEvents trace)
  sealSink : ∀ trace, environment.sealSink trace = environment.sealSink (sinkEvents trace)

section Calls

variable (environment : Environment) (recordType : UInt32) (totalRecords totalBytes : UInt64)

/-- What a sink answers to a call. -/
def sinkStatus (trace : List Event) : Event → Status
  | .beginSink sink => environment.beginSink trace sink recordType totalRecords totalBytes
  | .stageSink sink batch => environment.stageSink trace sink batch
  | .sealSink sink streamFingerprint => (environment.sealSink trace sink streamFingerprint).1
  | _ => .ok

/-- Every one of the calls is answered with success after the ones before. -/
def Accepted : List Event → List Event → Prop
  | _, [] => True
  | trace, event :: events =>
    sinkStatus environment recordType totalRecords totalBytes trace event = .ok ∧
      Accepted (trace ++ [event]) events

def beginCalls (sinkCount : ℕ) : List Event := (List.range sinkCount).map .beginSink

def stageCalls (sinkCount : ℕ) (batch : CanonicalBatch) : List Event :=
  (List.range sinkCount).map (.stageSink · batch)

def sealCalls (sinkCount : ℕ) (streamFingerprint : Digest256) : List Event :=
  (List.range sinkCount).map (.sealSink · streamFingerprint)

/-- The calls of a stream that is staged to its end. -/
def streamCalls (sinkCount : ℕ) (batches : List CanonicalBatch) (streamFingerprint : Digest256) :
    List Event :=
  beginCalls sinkCount ++ (batches.flatMap (stageCalls sinkCount) ++
    sealCalls sinkCount streamFingerprint)

/-- The artifacts of the sinks that are sealed one after another. -/
def sealedArtifacts (streamFingerprint : Digest256) : List Event → List ℕ → List (ℕ × Digest256)
  | _, [] => []
  | trace, sink :: sinks =>
    (sink, (environment.sealSink trace sink streamFingerprint).2) ::
      sealedArtifacts streamFingerprint (trace ++ [.sealSink sink streamFingerprint]) sinks

/-- The hasher of the artifacts. -/
def artifactsHasher (hasher : List UInt8) (artifacts : List (ℕ × Digest256)) : List UInt8 :=
  artifacts.foldl (fun hasher artifact =>
    updateSinkArtifactHasher hasher (UInt64.ofNat artifact.1) artifact.2) hasher

/-- The artifacts are written to the output. -/
def writeArtifacts (output : Option SinkArtifactOutput) (artifacts : List (ℕ × Digest256)) :
    Option SinkArtifactOutput :=
  artifacts.foldl (fun output artifact => output.map (·.write artifact.1 artifact.2)) output

end Calls

section Sinks

variable {environment : Environment} {recordType : UInt32} {totalRecords totalBytes : UInt64}

theorem accepted_append : ∀ {events : List Event} {trace events' : List Event},
    Accepted environment recordType totalRecords totalBytes trace (events ++ events') ↔
      Accepted environment recordType totalRecords totalBytes trace events ∧
      Accepted environment recordType totalRecords totalBytes (trace ++ events) events'
  | [], trace, events' => by
    rw [List.nil_append, List.append_nil]
    exact (Iff.of_eq (true_and _)).symm
  | event :: events, trace, events' => by
    rw [List.cons_append, Accepted, Accepted, accepted_append, List.append_assoc, and_assoc]
    rfl

theorem sinkStatus_sinkEvents (h : environment.SinksAlone) (trace : List Event) (event : Event) :
    sinkStatus environment recordType totalRecords totalBytes trace event =
      sinkStatus environment recordType totalRecords totalBytes (sinkEvents trace) event := by
  cases event with
  | beginSink sink => rw [sinkStatus, sinkStatus, ← h.beginSink]
  | stageSink sink batch => rw [sinkStatus, sinkStatus, ← h.stageSink]
  | sealSink sink streamFingerprint => rw [sinkStatus, sinkStatus, ← h.sealSink]
  | _ => rfl

theorem accepted_sinkEvents (h : environment.SinksAlone) :
    ∀ {events : List Event}, events.all Event.isSink → ∀ trace : List Event,
    Accepted environment recordType totalRecords totalBytes trace events ↔
      Accepted environment recordType totalRecords totalBytes (sinkEvents trace) events
  | [], _, _ => Iff.rfl
  | event :: events, hevents, trace => by
    rw [List.all_cons, Bool.and_eq_true] at hevents
    have hevent : sinkEvents [event] = [event] := List.filter_eq_self.2 fun other hother => by
      rw [List.mem_singleton.1 hother]
      exact hevents.1
    rw [Accepted, Accepted, sinkStatus_sinkEvents h, accepted_sinkEvents h hevents.2, sinkEvents_append,
      hevent]

theorem sealedArtifacts_sinkEvents (h : environment.SinksAlone) {streamFingerprint : Digest256} :
    ∀ (sinks : List ℕ) (trace : List Event),
    sealedArtifacts environment streamFingerprint trace sinks =
      sealedArtifacts environment streamFingerprint (sinkEvents trace) sinks
  | [], _ => rfl
  | sink :: sinks, trace => by
    rw [sealedArtifacts, sealedArtifacts, h.sealSink, sealedArtifacts_sinkEvents h sinks, sinkEvents_append]
    rfl

/-! ## The loops over the sinks -/

theorem succeeds_call_then {α β : Type} {outcome : List Event → α} {event : α → Event}
    {next : α → Running β} {run : Run} {post : β → Run → Prop} :
    Succeeds (call outcome event >>= next) run post ↔
      Succeeds (next (outcome run.trace)) (run.calls [event (outcome run.trace)]) post := by
  rw [succeeds_bind]
  rfl

theorem beginSinks_succeeds : ∀ {sinks : List ℕ} {run : Run} {post : Unit → Run → Prop},
    Succeeds (beginSinks environment recordType totalRecords totalBytes sinks) run post ↔
      Accepted environment recordType totalRecords totalBytes run.trace (sinks.map .beginSink) ∧
        post () (run.beginAll sinks)
  | [], run, post => by
    rw [beginSinks, succeeds_pure, beginAll, List.map_nil, calls_nil]
    exact (Iff.of_eq (true_and _)).symm
  | sink :: sinks, run, post => by
    rw [beginSinks, succeeds_call_then, succeeds_modify_then, succeeds_demand_then, beginSinks_succeeds,
      List.map_cons, Accepted, beginAll, beginAll, and_assoc]
    simp only [calls, List.map_cons, List.append_assoc]
    rfl

theorem stageBatchToSinks_succeeds (recordType : UInt32) (totalRecords totalBytes : UInt64)
    {batch : CanonicalBatch} {batchIndex : UInt64} :
    ∀ {sinks : List ℕ} {run : Run} {post : Unit → Run → Prop},
    Succeeds (stageBatchToSinks environment batch batchIndex sinks) run post ↔
      Accepted environment recordType totalRecords totalBytes run.trace
          (sinks.map (.stageSink · batch)) ∧
        post () (run.calls (sinks.map (.stageSink · batch)))
  | [], run, post => by
    rw [stageBatchToSinks, succeeds_pure, List.map_nil, calls_nil]
    exact (Iff.of_eq (true_and _)).symm
  | sink :: sinks, run, post => by
    rw [stageBatchToSinks, succeeds_call_then, succeeds_demand_then,
      stageBatchToSinks_succeeds recordType totalRecords totalBytes, List.map_cons, Accepted,
      calls_calls, and_assoc]
    rfl

theorem sealSinksFrom_succeeds (recordType : UInt32) (totalRecords totalBytes : UInt64)
    {sinkCount : ℕ} {streamFingerprint : Digest256} :
    ∀ {sinks : List ℕ} {hasher : List UInt8} {run : Run} {post : List UInt8 → Run → Prop},
    Succeeds (sealSinksFrom environment sinkCount streamFingerprint hasher sinks) run post ↔
      Accepted environment recordType totalRecords totalBytes run.trace
          (sinks.map (.sealSink · streamFingerprint)) ∧
        post (artifactsHasher hasher (sealedArtifacts environment streamFingerprint run.trace sinks))
          { run.calls (sinks.map (.sealSink · streamFingerprint)) with
            artifactOutput := writeArtifacts run.artifactOutput
              (sealedArtifacts environment streamFingerprint run.trace sinks) }
  | [], hasher, run, post => by
    rw [sealSinksFrom, succeeds_pure, List.map_nil, calls_nil]
    exact (Iff.of_eq (true_and _)).symm
  | sink :: sinks, hasher, run, post => by
    rw [sealSinksFrom, succeeds_call_then]
    dsimp only
    rw [succeeds_demand_then, succeeds_modify_then,
      sealSinksFrom_succeeds recordType totalRecords totalBytes,
      List.map_cons, Accepted, and_assoc]
    simp only [calls, List.append_assoc]
    rfl

theorem stageBatches_succeeds (recordType : UInt32) (totalRecords totalBytes : UInt64)
    {sinkCount : ℕ} :
    ∀ {batches : List CanonicalBatch} {batchIndex : UInt64} {run : Run} {post : Unit → Run → Prop},
    Succeeds (stageBatches environment sinkCount batches batchIndex) run post ↔
      Accepted environment recordType totalRecords totalBytes run.trace
          (batches.flatMap (stageCalls sinkCount)) ∧
        post () (run.calls (batches.flatMap (stageCalls sinkCount)))
  | [], batchIndex, run, post => by
    rw [stageBatches, succeeds_pure, List.flatMap_nil, calls_nil]
    exact (Iff.of_eq (true_and _)).symm
  | batch :: batches, batchIndex, run, post => by
    rw [stageBatches, succeeds_bind, stageBatchToSinks_succeeds recordType totalRecords totalBytes,
      stageBatches_succeeds recordType totalRecords totalBytes,
      List.flatMap_cons, accepted_append, calls_calls, and_assoc]
    rfl

end Sinks

/-! ## What comes before and after -/

/-- What is asked of an output for the artifacts. -/
def OutputReady (sinkCount : ℕ) (required : Bool) : Option SinkArtifactOutput → Prop
  | none => required = false
  | some output => output.artifactFingerprints.isSome ∧ sinkCount ≤ output.capacity.toNat ∧
    sinkCount ≤ (2 ^ 64 - 1) / digestSize ∧ output.reserved = 0

/-- Sinks that `validate_sinks` accepts. -/
def SinksValid (sinks : List Sink) : Prop :=
  sinks ≠ [] ∧ sinks.findIdx (fun sink => !sink.valid) = sinks.length

/-- The output is cleared. -/
def Run.clearOutput (sinkCount : ℕ) (run : Run) : Run :=
  { run with artifactOutput := run.artifactOutput.map (clearSinkArtifactOutput sinkCount) }

/-- The fingerprint of the context is in the receipt. -/
def Run.inContext (fingerprint : Digest256) (run : Run) : Run :=
  { run with receipt.stream.contextFingerprint := fingerprint }

variable {run : Run} {post : Unit → Run → Prop}

theorem prepareSinkArtifactOutput_succeeds {sinkCount : ℕ} {required : Bool} :
    Succeeds (prepareSinkArtifactOutput sinkCount required) run post ↔
      OutputReady sinkCount required run.artifactOutput ∧
        post () (run.clearOutput sinkCount) := by
  rw [prepareSinkArtifactOutput, succeeds_get_then]
  rcases run with ⟨trace, receipt, plan, output, _⟩
  cases output with
  | none =>
    dsimp only
    rw [succeeds_require]
    rfl
  | some output =>
    dsimp only
    rw [succeeds_modify_then, succeeds_require]
    rfl

theorem recordContext_succeeds {blake3 : Blake3} {context : Context} :
    Succeeds (recordContext blake3 context) run post ↔ contextValidate context = .ok ∧
      post () (run.inContext (blake3 (contextBytes context))) := by
  rw [recordContext, succeeds_modify_then]
  by_cases hvalid : contextValidate context = .ok
  · have hresult : contextFingerprint blake3 context = (.ok, blake3 (contextBytes context)) := by
      rw [contextFingerprint, hvalid]
    rw [hresult, dif_pos rfl, succeeds_pure]
    exact ⟨fun h => ⟨hvalid, h⟩, fun h => h.2⟩
  · have hresult : (contextFingerprint blake3 context).1 ≠ .ok := by
      unfold contextFingerprint
      split
      · rename_i hok
        exact absurd hok hvalid
      · exact hvalid
    rw [dif_neg hresult]
    exact ⟨False.elim, fun h => hvalid h.1⟩

theorem validateSinks_succeeds {sinks : List Sink} :
    Succeeds (validateSinks sinks) run post ↔ SinksValid sinks ∧ post () run := by
  rw [validateSinks, succeeds_require_then, succeeds_demand, SinksValid, and_assoc]

section Seal

variable (environment : Environment) (blake3 : Blake3)

/-- What sealing leaves of a run. -/
def sealRun (sinkCount : ℕ) (run : Run) : Run :=
  let artifacts := sealedArtifacts environment run.receipt.stream.streamFingerprint run.trace
    (List.range sinkCount)
  { run with
    trace := run.trace ++ sealCalls sinkCount run.receipt.stream.streamFingerprint
    receipt.stream.sinkArtifactsFingerprint :=
      blake3 (artifactsHasher (sinkArtifactHasher (UInt64.ofNat sinkCount)) artifacts)
    receipt.stream.effectDisposition := effectStagedInert
    artifactOutput :=
      (writeArtifacts run.artifactOutput artifacts).map ({ · with count := UInt64.ofNat sinkCount }) }

variable {environment blake3}

theorem sealSinks_succeeds (recordType : UInt32) (totalRecords totalBytes : UInt64) {sinkCount : ℕ}
    {run : Run} {post : Unit → Run → Prop} :
    Succeeds (sealSinks environment blake3 sinkCount) run post ↔
      Accepted environment recordType totalRecords totalBytes run.trace
          (sealCalls sinkCount run.receipt.stream.streamFingerprint) ∧
        post () (sealRun environment blake3 sinkCount run) := by
  rw [sealSinks, succeeds_get_then, succeeds_bind,
    sealSinksFrom_succeeds recordType totalRecords totalBytes]
  rfl

end Seal

/-! ## Staging a stream -/

section Stage

variable (environment : Environment) (blake3 : Blake3)

/-- What the call writes of the stream into the receipt. -/
def Run.ofStream (stream : CanonicalStream) (run : Run) : Run :=
  { run with
    receipt.stream.batchCount := stream.batchCount
    receipt.stream.sourceFingerprint := stream.sourceFingerprint
    receipt.stream.recipeFingerprint := stream.recipeFingerprint }

def Run.summarize (summary : StreamFingerprint) (run : Run) : Run :=
  { run with
    receipt.stream.streamFingerprint := summary.fingerprint
    receipt.stream.recordType := summary.recordType
    receipt.stream.totalRecords := summary.totalRecords
    receipt.stream.totalBytes := summary.totalBytes }

/-- What a call makes of a stream that it stages to its end. -/
def stagedRun (context : Context) (stream : CanonicalStream) (sinkCount : ℕ)
    (artifactOutput : Option SinkArtifactOutput) (summary : StreamFingerprint) : Run :=
  sealRun environment blake3 sinkCount
    ((((((initialRun sinkCount artifactOutput).clearOutput sinkCount).inContext
      (blake3 (contextBytes context))).ofStream stream).summarize summary).beginAll
        (List.range sinkCount) |>.calls (stream.batches.flatMap (stageCalls sinkCount)))

theorem stageBody_eq (context : Context) (stream : CanonicalStream) (sinks : List Sink)
    (required : Bool) : stageBody environment blake3 context stream sinks required = (do
      prepareSinkArtifactOutput sinks.length required
      recordContext blake3 context
      Program.require (stream.batchCount ≠ 0 ∧ stream.flags = knownStreamFlags ∧ stream.reserved = 0)
        (failure .streamInvalid)
      modify (ofStream stream)
      let summary ← ExceptT.mk (pure (canonicalStreamFingerprint blake3 stream.batches))
      modify (summarize summary)
      validateSinks sinks
      beginSinks environment summary.recordType summary.totalRecords summary.totalBytes
        (List.range sinks.length)
      stageBatches environment sinks.length stream.batches 0
      sealSinks environment blake3 sinks.length) := rfl

variable {environment blake3}

/-- **When staging succeeds.** -/
theorem stageBody_succeeds {context : Context} {stream : CanonicalStream} {sinks : List Sink}
    {artifactOutput : Option SinkArtifactOutput} {required : Bool} {post : Unit → Run → Prop} :
    Succeeds (stageBody environment blake3 context stream sinks required)
      (initialRun sinks.length artifactOutput) post ↔
      OutputReady sinks.length required artifactOutput ∧ contextValidate context = .ok ∧
      (stream.batchCount ≠ 0 ∧ stream.flags = knownStreamFlags ∧ stream.reserved = 0) ∧
      ∃ summary, canonicalStreamFingerprint blake3 stream.batches = .ok summary ∧ SinksValid sinks ∧
        Accepted environment summary.recordType summary.totalRecords summary.totalBytes []
          (streamCalls sinks.length stream.batches summary.fingerprint) ∧
        post () (stagedRun environment blake3 context stream sinks.length artifactOutput summary) := by
  rw [stageBody_eq, succeeds_bind, prepareSinkArtifactOutput_succeeds, succeeds_bind,
    recordContext_succeeds, succeeds_require_then, succeeds_modify_then, succeeds_mk_then]
  refine and_congr_right fun _ => and_congr_right fun _ => and_congr_right fun _ =>
    exists_congr fun summary => and_congr_right fun _ => ?_
  rw [succeeds_modify_then, succeeds_bind, validateSinks_succeeds]
  refine and_congr_right fun _ => ?_
  rw [succeeds_bind, beginSinks_succeeds, succeeds_bind,
    stageBatches_succeeds summary.recordType summary.totalRecords summary.totalBytes,
    sealSinks_succeeds summary.recordType summary.totalRecords summary.totalBytes, streamCalls,
    accepted_append, accepted_append, and_assoc, and_assoc]
  rfl

end Stage

end Laplace.Framework
