import Laplace.Framework.Pulling

/-!
# A producer that is run stages its batches (framework.c:796-901, 925-1221)

`run_producer` pulls the batches one by one where `stage_canonical_stream` is given all of them.
A producer that yields some batches and ends, and whose plan says what they come to, does to the
sinks and writes into the receipt of the stream what the other function does.
-/

namespace Laplace.Framework

open Program Run

/-! ## The whole run -/

section Whole

variable (environment : Environment) (blake3 : Blake3) (context : Context)
  (sourceFingerprint recipeFingerprint : Digest256) (plan : ProducerPlan)
  (replay : Option ReplayCheckpoint) (sinkCount : ℕ) (artifactOutput : Option SinkArtifactOutput)

/-- A run whose plan is prepared. -/
def plannedRun : Run :=
  (((initialRun sinkCount artifactOutput).clearOutput sinkCount).inContext
    (blake3 (contextBytes context)) |>.ofSource sourceFingerprint recipeFingerprint).prepared blake3
      sourceFingerprint recipeFingerprint plan

/-- A run before its first batch. -/
def pullingRun : Run :=
  ((((((plannedRun blake3 context sourceFingerprint recipeFingerprint plan sinkCount
    artifactOutput).noteReplay replay).reach 0 replay).calls [.cancelRequested]).observe).calls
      [.cancelRequested]).beginAll (List.range sinkCount)

/-- The producer is finished, and the stream has its fingerprint. -/
def Run.finishProducer (completion : Digest256) (run : Run) : Run :=
  { (run.calls [.cancelRequested]).calls [.finish] with
    receipt.completionFingerprint := completion
    receipt.stream.streamFingerprint := blake3 run.streamHasher }

theorem runBody_eq (producer : Producer) (control : ProducerControl) (sinks : List Sink)
    (required : Bool) :
    runBody environment blake3 context sourceFingerprint recipeFingerprint producer control sinks
        required = (do
      prepareSinkArtifactOutput sinks.length required
      recordContext blake3 context
      modify (ofSource sourceFingerprint recipeFingerprint)
      Program.require (producer.valid && control.valid) (failure .producerInvalid)
      validateSinks sinks
      preparePlan environment blake3 sourceFingerprint recipeFingerprint
      openReplay blake3 sourceFingerprint recipeFingerprint control.replayCheckpoint
      checkCancelled environment
      observeProgress
      checkCancelled environment
      let run ← get
      beginSinks environment run.plan.recordType run.plan.totalRecords run.plan.totalBytes
        (List.range sinks.length)
      runBatches environment blake3 sourceFingerprint recipeFingerprint control.replayCheckpoint
        sinks.length run.plan.batchCount.toNat 0
      closeProducer environment blake3 control.replayCheckpoint
      sealSinks environment blake3 sinks.length) := rfl

end Whole

section Assembly

variable {environment : Environment} {blake3 : Blake3} {context : Context}
  {sourceFingerprint recipeFingerprint : Digest256} {plan : ProducerPlan}
  {batches : List CanonicalBatch} {cursors : ℕ → Digest256} {completion : Digest256}
  {replay : Option ReplayCheckpoint} {sinkCount : ℕ} {artifactOutput : Option SinkArtifactOutput}

variable {run : Run} {post : Unit → Run → Prop}

theorem closeProducer_succeeds (h : environment.Yields plan batches cursors completion)
    (hcancel : ∀ trace, environment.cancelRequested trace = false) :
    Succeeds (closeProducer environment blake3 replay) run post ↔
      (run.completedRecords = run.plan.totalRecords ∧ run.completedBytes = run.plan.totalBytes ∧
        (replay.isSome → run.replayVerified = true)) ∧
      post () (run.finishProducer blake3 completion) := by
  rw [closeProducer, succeeds_get_then, requireBatch, succeeds_demand_then, succeeds_bind,
    checkCancelled_succeeds hcancel, succeeds_call_then, h.finish]
  dsimp only
  rw [succeeds_modify_then, succeeds_require_then, succeeds_modify]
  exact and_congr_right fun _ => and_iff_right rfl

theorem all_isSink_beginCalls (sinkCount : ℕ) : (beginCalls sinkCount).all Event.isSink = true := by
  rw [beginCalls, List.all_map, List.all_eq_true]
  exact fun _ _ => rfl

theorem sinkEvents_beginCalls (sinkCount : ℕ) :
    sinkEvents (beginCalls sinkCount) = beginCalls sinkCount :=
  List.filter_eq_self.2 (List.all_eq_true.1 (all_isSink_beginCalls sinkCount))

theorem sinkEvents_flatMap (sinkCount : ℕ) (batches : List CanonicalBatch) :
    sinkEvents (batches.flatMap (stageCalls sinkCount)) = batches.flatMap (stageCalls sinkCount) := by
  refine List.filter_eq_self.2 fun event hmem => ?_
  obtain ⟨batch, -, hmem⟩ := List.mem_flatMap.1 hmem
  exact List.all_eq_true.1 (all_isSink_stageCalls batch) event hmem

theorem pullingRun_events :
    sinkEvents (pullingRun blake3 context sourceFingerprint recipeFingerprint plan replay sinkCount
      artifactOutput).trace = beginCalls sinkCount := by
  have htrace : (pullingRun blake3 context sourceFingerprint recipeFingerprint plan replay sinkCount
      artifactOutput).trace = [.prepare] ++ [.cancelRequested] ++ [.observeProgress
        (plannedRun blake3 context sourceFingerprint recipeFingerprint plan sinkCount
          artifactOutput).receipt.checkpoint] ++ [.cancelRequested] ++ beginCalls sinkCount := by
    rw [pullingRun, reach_completed]
    cases replay <;> rfl
  rw [htrace, sinkEvents_append, sinkEvents_beginCalls]
  rfl

theorem pullingRun_pulled :
    (pullingRun blake3 context sourceFingerprint recipeFingerprint plan replay sinkCount
      artifactOutput).Pulled blake3 sourceFingerprint recipeFingerprint plan replay sinkCount []
      (pullingRun blake3 context sourceFingerprint recipeFingerprint plan replay sinkCount
        artifactOutput) := by
  have hreached := @reach_completed replay 0
  refine ⟨?_, ?_, (List.append_nil _).symm, rfl, rfl, ?_, ?_, ?_, ?_⟩ <;> rw [pullingRun, hreached]
  · cases replay <;> rfl
  · cases replay <;> rfl
  · cases replay <;> rfl
  · cases replay <;> rfl
  · rw [prefixBytes, batchesBytes, List.append_nil]
    cases replay <;> rfl
  · cases replay with
    | none => exact iff_of_false Bool.false_ne_true (by simp)
    | some checkpoint =>
      change decide (checkpoint.completedBatches = 0) = true ↔ _
      rw [decide_eq_true_iff, ← UInt64.toNat_inj]
      simp

/-- Runs that look the same from the receipt of the stream, the artifacts and the sinks. -/
structure Run.Alike (run run' : Run) : Prop where
  stream_eq : run.receipt.stream = run'.receipt.stream
  output_eq : run.artifactOutput = run'.artifactOutput
  events_eq : sinkEvents run.trace = sinkEvents run'.trace

theorem Run.Alike.seal (hsinks : environment.SinksAlone) {run' : Run} (h : run.Alike run') :
    (sealRun environment blake3 sinkCount run).Alike (sealRun environment blake3 sinkCount run') := by
  have hartifacts : sealedArtifacts environment run.receipt.stream.streamFingerprint run.trace
        (List.range sinkCount) =
      sealedArtifacts environment run'.receipt.stream.streamFingerprint run'.trace
        (List.range sinkCount) := by
    rw [sealedArtifacts_sinkEvents hsinks, h.events_eq, ← sealedArtifacts_sinkEvents hsinks, h.stream_eq]
  refine ⟨?_, ?_, ?_⟩
  · dsimp only [sealRun]
    rw [hartifacts, h.stream_eq]
  · dsimp only [sealRun]
    rw [hartifacts, h.output_eq]
  · dsimp only [sealRun]
    rw [sinkEvents_append, sinkEvents_append, h.events_eq, h.stream_eq]

/-- What a plan says of a stream. -/
def ProducerPlan.summary (blake3 : Blake3) (plan : ProducerPlan)
    (batches : List CanonicalBatch) : StreamFingerprint where
  fingerprint := blake3 (batches.foldl (fun hasher batch => hasher ++ batch.bytes)
    (streamHasher plan.recordType plan.totalRecords plan.totalBytes))
  recordType := plan.recordType
  totalRecords := plan.totalRecords
  totalBytes := plan.totalBytes

theorem Run.Pulled.alike {stream : CanonicalStream} (hstream : stream.batches = batches)
    (hcount : stream.batchCount = plan.batchCount)
    (hsource : stream.sourceFingerprint = sourceFingerprint)
    (hrecipe : stream.recipeFingerprint = recipeFingerprint)
    (h : (pullingRun blake3 context sourceFingerprint recipeFingerprint plan replay sinkCount
      artifactOutput).Pulled blake3 sourceFingerprint recipeFingerprint plan replay sinkCount batches run)
    (hsinks : environment.SinksAlone) :
    (sealRun environment blake3 sinkCount (run.finishProducer blake3 completion)).Alike
      (stagedRun environment blake3 context stream sinkCount artifactOutput
        (plan.summary blake3 batches)) := by
  refine Run.Alike.seal hsinks ⟨?_, ?_, ?_⟩
  · change { run.receipt.stream with streamFingerprint := blake3 run.streamHasher } = _
    rw [h.stream_eq, h.streamHasher_eq, pullingRun, reach_completed]
    obtain ⟨_, _, _, _, _, _, _⟩ := stream
    subst hcount hsource hrecipe
    cases replay <;> rfl
  · change run.artifactOutput = _
    rw [h.output_eq, pullingRun, reach_completed]
    cases replay <;> rfl
  · change sinkEvents (run.trace ++ [.cancelRequested] ++ [.finish]) =
      sinkEvents (beginCalls sinkCount ++ stream.batches.flatMap (stageCalls sinkCount))
    rw [sinkEvents_append, sinkEvents_append, sinkEvents_append, h.events_eq, pullingRun_events,
      sinkEvents_beginCalls, sinkEvents_flatMap, hstream]
    exact (List.append_nil _).trans (List.append_nil _)

/-- What a run asks of everything but the sinks. -/
structure ProducerAccepted (blake3 : Blake3) (context : Context)
    (sourceFingerprint recipeFingerprint : Digest256) (plan : ProducerPlan)
    (batches : List CanonicalBatch) (cursors : ℕ → Digest256) (producer : Producer)
    (control : ProducerControl) : Prop where
  tables : (producer.valid && control.valid) = true
  planValid : plan.Valid
  counted : countBatches plan.recordType batches 0 0 = .ok (plan.totalRecords, plan.totalBytes)
  replays : ∀ checkpoint, control.replayCheckpoint = some checkpoint →
    ReplayAgrees blake3 sourceFingerprint recipeFingerprint plan cursors (blake3 (contextBytes context))
      batches checkpoint

@[simp] theorem Run.calls_plan (events : List Event) (run : Run) : (run.calls events).plan = run.plan := rfl

@[simp] theorem Run.observe_plan (run : Run) : run.observe.plan = run.plan := rfl

@[simp] theorem Run.noteReplay_plan (run : Run) : (run.noteReplay replay).plan = run.plan := by
  cases replay <;> rfl

@[simp] theorem Run.reach_plan (completedBatches : UInt64) (run : Run) :
    (run.reach completedBatches replay).plan = run.plan := by rw [reach_completed]

@[simp] theorem Run.prepared_plan (run : Run) :
    (run.prepared blake3 sourceFingerprint recipeFingerprint plan).plan = plan := rfl

theorem plannedRun_checkpoint :
    (plannedRun blake3 context sourceFingerprint recipeFingerprint plan sinkCount
      artifactOutput).receipt.checkpoint = checkpointAt blake3 sourceFingerprint recipeFingerprint plan
        cursors (blake3 (contextBytes context)) [] 0 0 := by
  rw [checkpointAt, prefixBytes, batchesBytes, List.append_nil]
  rfl

/-- The checkpoint to replay has the identity of the one of the run after as many batches. -/
def StepsAgree (blake3 : Blake3) (sourceFingerprint recipeFingerprint : Digest256)
    (plan : ProducerPlan) (cursors : ℕ → Digest256) (contextFingerprint : Digest256)
    (batches : List CanonicalBatch) (checkpoint : ReplayCheckpoint) : Prop :=
  ∀ front batch back, batches = front ++ batch :: back →
    ∀ records bytes, countBatches plan.recordType (front ++ [batch]) 0 0 = .ok (records, bytes) →
      checkpoint.completedBatches = UInt64.ofNat (front.length + 1) →
      checkpoint.checkpointId = (checkpointAt blake3 sourceFingerprint recipeFingerprint plan
        cursors contextFingerprint (front ++ [batch]) records bytes).checkpointId

theorem allAccepted_nil_iff
    (hcount : countBatches plan.recordType batches 0 0 = .ok (plan.totalRecords, plan.totalBytes)) :
    AllAccepted environment blake3 sourceFingerprint recipeFingerprint plan cursors replay sinkCount
        (pullingRun blake3 context sourceFingerprint recipeFingerprint plan replay sinkCount
          artifactOutput) [] batches ↔
      Accepted environment plan.recordType plan.totalRecords plan.totalBytes (beginCalls sinkCount)
        (batches.flatMap (stageCalls sinkCount)) ∧
      ∀ checkpoint, replay = some checkpoint → StepsAgree blake3 sourceFingerprint recipeFingerprint plan
        cursors (blake3 (contextBytes context)) batches checkpoint := by
  have hcontext : (pullingRun blake3 context sourceFingerprint recipeFingerprint plan replay sinkCount
      artifactOutput).receipt.stream.contextFingerprint = blake3 (contextBytes context) := by
    rw [pullingRun, reach_completed]
    cases replay <;> rfl
  rw [allAccepted_iff, accepted_flatMap]
  simp only [List.nil_append, NextAccepted, pullingRun_events, hcontext]
  constructor
  · intro h
    refine ⟨fun front batch back hsplit => ?_, fun checkpoint hcheckpoint front batch back hsplit records
      bytes hfront hreached => ?_⟩
    · obtain ⟨_, _, _, _, haccepted, _⟩ := h front batch back hsplit
      exact haccepted
    · obtain ⟨records', bytes', hfront', _, _, hsteps⟩ := h front batch back hsplit
      rw [hfront] at hfront'
      cases hfront'
      exact hsteps checkpoint hcheckpoint hreached
  · rintro ⟨haccepted, hsteps⟩ front batch back hsplit
    have hwhole := hcount
    rw [hsplit, List.append_cons] at hwhole
    obtain ⟨records, bytes, hfront, hbound⟩ := counted_front hwhole
    exact ⟨records, bytes, hfront, hbound, haccepted front batch back hsplit,
      fun checkpoint hcheckpoint => hsteps checkpoint hcheckpoint front batch back hsplit records bytes
        hfront⟩

theorem Run.Pulled.fingerprint {base : Run}
    (h : base.Pulled blake3 sourceFingerprint recipeFingerprint plan replay sinkCount batches run) :
    (run.finishProducer blake3 completion).receipt.stream.streamFingerprint =
      (plan.summary blake3 batches).fingerprint := by
  change blake3 run.streamHasher = _
  rw [h.streamHasher_eq]
  rfl

theorem Run.finishProducer_events (run : Run) :
    sinkEvents (run.finishProducer blake3 completion).trace = sinkEvents run.trace := by
  change sinkEvents (run.trace ++ [.cancelRequested] ++ [.finish]) = _
  rw [sinkEvents_append, sinkEvents_append]
  exact (List.append_nil _).trans (List.append_nil _)

theorem canonicalStreamFingerprint_eq (hvalid : plan.Valid)
    (hcount : countBatches plan.recordType batches 0 0 = .ok (plan.totalRecords, plan.totalBytes)) :
    canonicalStreamFingerprint blake3 batches = .ok (plan.summary blake3 batches) := by
  cases batches with
  | nil =>
    obtain ⟨-, hrecords, -⟩ := hvalid
    exact absurd (Prod.mk.inj (Except.ok.inj hcount)).1.symm hrecords
  | cons first rest =>
    have htype : first.recordType = plan.recordType := by
      rw [← List.singleton_append, countBatches_append] at hcount
      rcases hfirst : countBatches plan.recordType [first] 0 0 with failed | ⟨records, bytes⟩
      · rw [hfirst] at hcount
        cases hcount
      · exact (countBatches_singleton.1 hfirst).1.2.2.2.2.1
    rw [canonicalStreamFingerprint, htype, if_neg hvalid.2.2.2.1, hcount]
    rfl

variable {producer : Producer} {control : ProducerControl} {sinks : List Sink} {required : Bool}
  {stream : CanonicalStream}

/-- A stream that is staged by itself, of the batches that a producer yields. -/
structure CanonicalStream.Of (stream : CanonicalStream) (batches : List CanonicalBatch)
    (sourceFingerprint recipeFingerprint : Digest256) : Prop where
  batches_eq : stream.batches = batches
  source_eq : stream.sourceFingerprint = sourceFingerprint
  recipe_eq : stream.recipeFingerprint = recipeFingerprint
  flags_eq : stream.flags = knownStreamFlags
  reserved_eq : stream.reserved = 0

theorem runProducerImpl_ok :
    (runProducerImpl environment blake3 context sourceFingerprint recipeFingerprint producer control sinks
      artifactOutput required).1 = .ok ↔
      Succeeds (runBody environment blake3 context sourceFingerprint recipeFingerprint producer control
        sinks required) (initialRun sinks.length artifactOutput) fun _ _ => True := by
  rw [succeeds_iff, runProducerImpl]
  rcases (runBody environment blake3 context sourceFingerprint recipeFingerprint producer control
    sinks required).eval (initialRun sinks.length artifactOutput) with ⟨status | _, run⟩
  · refine ⟨fun hok => absurd hok status.2, ?_⟩
    rintro ⟨_, _, heq, _⟩
    cases heq
  · exact ⟨fun _ => ⟨_, _, rfl, trivial⟩, fun _ => rfl⟩

theorem stageCanonicalStreamImpl_ok :
    (stageCanonicalStreamImpl environment blake3 context stream sinks artifactOutput required).1 = .ok ↔
      Succeeds (stageBody environment blake3 context stream sinks required)
        (initialRun sinks.length artifactOutput) fun _ _ => True := by
  rw [succeeds_iff, stageCanonicalStreamImpl]
  rcases (stageBody environment blake3 context stream sinks required).eval
    (initialRun sinks.length artifactOutput) with ⟨status | _, run⟩
  · refine ⟨fun hok => absurd hok status.2, ?_⟩
    rintro ⟨_, _, heq, _⟩
    cases heq
  · exact ⟨fun _ => ⟨_, _, rfl, trivial⟩, fun _ => rfl⟩

section Steady

variable (hyields : environment.Yields plan batches cursors completion)
  (hcancel : ∀ trace, environment.cancelRequested trace = false) (hsinks : environment.SinksAlone)

include hyields hcancel hsinks

theorem runBody_succeeds :
    Succeeds (runBody environment blake3 context sourceFingerprint recipeFingerprint producer control
        sinks required) (initialRun sinks.length artifactOutput) post ↔
      OutputReady sinks.length required artifactOutput ∧ contextValidate context = .ok ∧
      (producer.valid && control.valid) = true ∧ SinksValid sinks ∧ plan.Valid ∧
      (∀ checkpoint, control.replayCheckpoint = some checkpoint →
        replayMatchesPlan blake3 checkpoint (blake3 (contextBytes context)) sourceFingerprint
            recipeFingerprint (blake3 (producerPlanBytes (blake3 (contextBytes context))
              sourceFingerprint recipeFingerprint plan)) plan = true ∧
          (checkpoint.completedBatches = 0 → checkpoint.checkpointId =
            (checkpointAt blake3 sourceFingerprint recipeFingerprint plan cursors
              (blake3 (contextBytes context)) [] 0 0).checkpointId)) ∧
      Accepted environment plan.recordType plan.totalRecords plan.totalBytes [] (beginCalls sinks.length) ∧
      Succeeds (runBatches environment blake3 sourceFingerprint recipeFingerprint
          control.replayCheckpoint sinks.length plan.batchCount.toNat 0)
        (pullingRun blake3 context sourceFingerprint recipeFingerprint plan control.replayCheckpoint
          sinks.length artifactOutput)
        fun _ run => Succeeds (closeProducer environment blake3 control.replayCheckpoint) run
          fun _ run => Succeeds (sealSinks environment blake3 sinks.length) run post := by
  rw [runBody_eq, succeeds_bind, prepareSinkArtifactOutput_succeeds, succeeds_bind,
    recordContext_succeeds, succeeds_modify_then, succeeds_require_then, succeeds_bind,
    validateSinks_succeeds, succeeds_bind, preparePlan_succeeds hyields, succeeds_bind,
    openReplay_succeeds]
  refine and_congr_right fun _ => and_congr_right fun _ => and_congr_right fun _ =>
    and_congr_right fun _ => and_congr_right fun _ => and_congr ?_ ?_
  · rw [← plannedRun_checkpoint]
    rfl
  · rw [succeeds_bind, checkCancelled_succeeds hcancel, succeeds_bind, observeProgress_succeeds,
      succeeds_bind, checkCancelled_succeeds hcancel, succeeds_get_then, succeeds_bind]
    simp only [calls_plan, observe_plan, noteReplay_plan, reach_plan, prepared_plan]
    rw [beginSinks_succeeds]
    simp only [succeeds_bind]
    refine and_congr ((accepted_sinkEvents hsinks (all_isSink_beginCalls _) _).trans ?_) Iff.rfl
    refine iff_of_eq (congrArg (Accepted environment _ _ _ · _) ?_)
    rw [reach_completed]
    cases control.replayCheckpoint <;> rfl

theorem Run.Pulled.ending
    (h : (pullingRun blake3 context sourceFingerprint recipeFingerprint plan replay sinkCount
      artifactOutput).Pulled blake3 sourceFingerprint recipeFingerprint plan replay sinkCount batches run) :
    (Succeeds (closeProducer environment blake3 replay) run fun _ run =>
      Succeeds (sealSinks environment blake3 sinkCount) run post) ↔
      (run.completedRecords = plan.totalRecords ∧ run.completedBytes = plan.totalBytes ∧
        (replay.isSome → run.replayVerified = true)) ∧
      Accepted environment plan.recordType plan.totalRecords plan.totalBytes
        (beginCalls sinkCount ++ batches.flatMap (stageCalls sinkCount))
        (sealCalls sinkCount (plan.summary blake3 batches).fingerprint) ∧
      post () (sealRun environment blake3 sinkCount (run.finishProducer blake3 completion)) := by
  have hseals : (sealCalls sinkCount (plan.summary blake3 batches).fingerprint).all Event.isSink := by
    rw [sealCalls, List.all_map, List.all_eq_true]
    exact fun _ _ => rfl
  rw [closeProducer_succeeds hyields hcancel, h.plan_eq,
    sealSinks_succeeds plan.recordType plan.totalRecords plan.totalBytes, h.fingerprint,
    accepted_sinkEvents hsinks hseals, finishProducer_events, h.events_eq, pullingRun_events]

theorem pulling_needs
    (h : Succeeds (runBatches environment blake3 sourceFingerprint recipeFingerprint replay sinkCount
        plan.batchCount.toNat 0)
      (pullingRun blake3 context sourceFingerprint recipeFingerprint plan replay sinkCount artifactOutput)
      fun _ run => Succeeds (closeProducer environment blake3 replay) run
        fun _ run => Succeeds (sealSinks environment blake3 sinkCount) run post) :
    countBatches plan.recordType batches 0 0 = .ok (plan.totalRecords, plan.totalBytes) ∧
      Accepted environment plan.recordType plan.totalRecords plan.totalBytes (beginCalls sinkCount)
        (batches.flatMap (stageCalls sinkCount) ++
          sealCalls sinkCount (plan.summary blake3 batches).fingerprint) ∧
      ∀ checkpoint, replay = some checkpoint → StepsAgree blake3 sourceFingerprint recipeFingerprint plan
        cursors (blake3 (contextBytes context)) batches checkpoint := by
  have hlt : batches.length < 2 ^ 64 := hyields.count ▸ plan.batchCount.toNat_lt
  rw [← hyields.count] at h
  have hall := (runBatches_succeeds hyields hcancel hsinks (List.nil_append batches).symm hlt
    pullingRun_pulled).1 h
  have hpulled : Succeeds (runBatches environment blake3 sourceFingerprint recipeFingerprint replay
      sinkCount batches.length 0)
      (pullingRun blake3 context sourceFingerprint recipeFingerprint plan replay sinkCount artifactOutput)
      fun _ => (pullingRun blake3 context sourceFingerprint recipeFingerprint plan replay sinkCount
        artifactOutput).Pulled blake3 sourceFingerprint recipeFingerprint plan replay sinkCount batches :=
    (runBatches_succeeds hyields hcancel hsinks (List.nil_append batches).symm hlt
      pullingRun_pulled).2 hall fun _ hrun => hrun
  obtain ⟨_, run, -, hrun, hending⟩ := succeeds_iff.1 (hpulled.and h)
  obtain ⟨⟨hrecords, hbytes, -⟩, hseals, -⟩ := (hrun.ending hyields hcancel hsinks).1 hending
  have hcount := hrun.counted
  rw [hrecords, hbytes] at hcount
  obtain ⟨hstages, hsteps⟩ := (allAccepted_nil_iff hcount).1 hall
  exact ⟨hcount, accepted_append.2 ⟨hstages, hseals⟩, hsteps⟩

theorem pulling_suffices
    (hcount : countBatches plan.recordType batches 0 0 = .ok (plan.totalRecords, plan.totalBytes))
    (haccepted : Accepted environment plan.recordType plan.totalRecords plan.totalBytes
      (beginCalls sinkCount) (batches.flatMap (stageCalls sinkCount) ++
        sealCalls sinkCount (plan.summary blake3 batches).fingerprint))
    (hsteps : ∀ checkpoint, replay = some checkpoint → StepsAgree blake3 sourceFingerprint
      recipeFingerprint plan cursors (blake3 (contextBytes context)) batches checkpoint)
    (hreplay : ∀ checkpoint, replay = some checkpoint → checkpoint.completedBatches ≤ plan.batchCount)
    (hpost : ∀ run, (pullingRun blake3 context sourceFingerprint recipeFingerprint plan replay sinkCount
        artifactOutput).Pulled blake3 sourceFingerprint recipeFingerprint plan replay sinkCount batches
          run →
      post () (sealRun environment blake3 sinkCount (run.finishProducer blake3 completion))) :
    Succeeds (runBatches environment blake3 sourceFingerprint recipeFingerprint replay sinkCount
        plan.batchCount.toNat 0)
      (pullingRun blake3 context sourceFingerprint recipeFingerprint plan replay sinkCount artifactOutput)
      fun _ run => Succeeds (closeProducer environment blake3 replay) run
        fun _ run => Succeeds (sealSinks environment blake3 sinkCount) run post := by
  have hlt : batches.length < 2 ^ 64 := hyields.count ▸ plan.batchCount.toNat_lt
  obtain ⟨hstages, hseals⟩ := accepted_append.1 haccepted
  have hall : AllAccepted environment blake3 sourceFingerprint recipeFingerprint plan cursors replay
      sinkCount (pullingRun blake3 context sourceFingerprint recipeFingerprint plan replay sinkCount
        artifactOutput) [] batches := (allAccepted_nil_iff hcount).2 ⟨hstages, hsteps⟩
  rw [← hyields.count]
  refine (runBatches_succeeds hyields hcancel hsinks (List.nil_append batches).symm hlt
    pullingRun_pulled).2 hall fun run hrun => (hrun.ending hyields hcancel hsinks).2 ?_
  obtain ⟨hrecords, hbytes⟩ := Prod.mk.inj (Except.ok.inj (hrun.counted.symm.trans hcount))
  refine ⟨⟨hrecords, hbytes, fun hsome => ?_⟩, hseals, hpost run hrun⟩
  obtain ⟨checkpoint, hcheckpoint⟩ := Option.isSome_iff_exists.1 hsome
  have hle := hreplay checkpoint hcheckpoint
  rw [UInt64.le_iff_toNat_le, ← hyields.count] at hle
  exact hrun.verified_iff.2 ⟨checkpoint, hcheckpoint, hle⟩

/-- **The two bodies.** The run of a producer succeeds when its own checks do and staging does, and it
ends in a run that looks like the other. -/
theorem runBody_refines
    (hstream : stream.Of batches sourceFingerprint recipeFingerprint) :
    (Succeeds (runBody environment blake3 context sourceFingerprint recipeFingerprint producer control
        sinks required) (initialRun sinks.length artifactOutput) fun _ _ => True) →
      ProducerAccepted blake3 context sourceFingerprint recipeFingerprint plan batches cursors producer
        control ∧
      Succeeds (stageBody environment blake3 context stream sinks required)
        (initialRun sinks.length artifactOutput) fun _ _ => True := by
  rw [runBody_succeeds hyields hcancel hsinks, stageBody_succeeds]
  rintro ⟨houtput, hcontext, htables, hvalid, hplan, hopen, hbegins, hpulling⟩
  obtain ⟨hcount, haccepted, hsteps⟩ := pulling_needs hyields hcancel hsinks hpulling
  have hbatchCount : stream.batchCount ≠ 0 := fun hzero => hplan.1 <| by
    rw [← UInt64.toNat_inj, ← hyields.count, ← hstream.batches_eq, stream.counted, hzero]
  refine ⟨⟨htables, hplan, hcount, fun checkpoint hcheckpoint => ?_⟩, houtput, hcontext,
    ⟨hbatchCount, hstream.flags_eq, hstream.reserved_eq⟩, plan.summary blake3 batches, ?_, hvalid, ?_,
    trivial⟩
  · obtain ⟨hmatches, hzero⟩ := hopen checkpoint hcheckpoint
    exact (replayAgrees_iff hcount hyields.count).2 ⟨hmatches, hzero, hsteps checkpoint hcheckpoint⟩
  · rw [hstream.batches_eq, canonicalStreamFingerprint_eq hplan hcount]
  · rw [hstream.batches_eq, streamCalls]
    exact accepted_append.2 ⟨hbegins, haccepted⟩

theorem runBody_of_stageBody
    (hstream : stream.Of batches sourceFingerprint recipeFingerprint)
    (hproducer : ProducerAccepted blake3 context sourceFingerprint recipeFingerprint plan batches cursors
      producer control)
    (hstage : Succeeds (stageBody environment blake3 context stream sinks required)
      (initialRun sinks.length artifactOutput) post) :
    Succeeds (runBody environment blake3 context sourceFingerprint recipeFingerprint producer control
      sinks required) (initialRun sinks.length artifactOutput) fun _ run =>
        ∃ run', post () run' ∧ run.Alike run' := by
  obtain ⟨htables, hplan, hcount, hreplays⟩ := hproducer
  rw [stageBody_succeeds] at hstage
  obtain ⟨houtput, hcontext, -, summary, hsummary, hvalid, haccepted, hpost⟩ := hstage
  rw [hstream.batches_eq, canonicalStreamFingerprint_eq hplan hcount] at hsummary
  cases hsummary
  rw [hstream.batches_eq, streamCalls] at haccepted
  obtain ⟨hbegins, haccepted⟩ := accepted_append.1 haccepted
  have hbatchCount : stream.batchCount = plan.batchCount := by
    rw [← UInt64.toNat_inj, ← hyields.count, ← hstream.batches_eq, stream.counted]
  have hagree : ∀ checkpoint, control.replayCheckpoint = some checkpoint → _ :=
    fun checkpoint hcheckpoint =>
      (replayAgrees_iff hcount hyields.count).1 (hreplays checkpoint hcheckpoint)
  rw [runBody_succeeds hyields hcancel hsinks]
  refine ⟨houtput, hcontext, htables, hvalid, hplan,
    fun checkpoint hcheckpoint => ⟨(hagree checkpoint hcheckpoint).1, (hagree checkpoint hcheckpoint).2.1⟩,
    hbegins, pulling_suffices hyields hcancel hsinks hcount haccepted
      (fun checkpoint hcheckpoint => (hagree checkpoint hcheckpoint).2.2) (fun checkpoint hcheckpoint => ?_)
      fun run hrun => ⟨_, hpost, hrun.alike hstream.batches_eq hbatchCount hstream.source_eq
        hstream.recipe_eq hsinks⟩⟩
  have hmatches := (hagree checkpoint hcheckpoint).1
  simp only [replayMatchesPlan, Bool.and_eq_true, decide_eq_true_eq] at hmatches
  exact hmatches.1.1.1.1.1.1.1.1.2

theorem runProducerImpl_fingerprint
    (hok : (runProducerImpl environment blake3 context sourceFingerprint recipeFingerprint producer control
      sinks artifactOutput required).1 = .ok) :
    canonicalStreamFingerprint blake3 batches = .ok (plan.summary blake3 batches) ∧
      (runProducerImpl environment blake3 context sourceFingerprint recipeFingerprint producer control sinks
        artifactOutput required).2.receipt.stream.streamFingerprint =
          (plan.summary blake3 batches).fingerprint := by
  have hstream : CanonicalStream.Of ⟨batches, sourceFingerprint, recipeFingerprint, plan.batchCount,
      knownStreamFlags, 0, hyields.count⟩ batches sourceFingerprint recipeFingerprint :=
    ⟨rfl, rfl, rfl, rfl, rfl⟩
  obtain ⟨hproducer, hstage⟩ := runBody_refines hyields hcancel hsinks hstream (runProducerImpl_ok.1 hok)
  obtain ⟨houtput, hcontext, hheader, summary, hsummary, hvalid, haccepted, -⟩ :=
    stageBody_succeeds.1 hstage
  have hsame := hsummary.symm.trans (canonicalStreamFingerprint_eq hproducer.planValid hproducer.counted)
  cases hsame
  refine ⟨hsummary, ?_⟩
  have hends : Succeeds (stageBody environment blake3 context _ sinks required)
      (initialRun sinks.length artifactOutput) fun _ given =>
        given.receipt.stream.streamFingerprint = (plan.summary blake3 batches).fingerprint :=
    stageBody_succeeds.2 ⟨houtput, hcontext, hheader, _, hsummary, hvalid, haccepted, rfl⟩
  obtain ⟨_, final, hfinal, given, hgiven, halike⟩ := succeeds_iff.1
    (runBody_of_stageBody hyields hcancel hsinks hstream hproducer hends)
  rw [runProducerImpl, hfinal]
  change final.receipt.stream.streamFingerprint = _
  rw [halike.stream_eq, hgiven]

end Steady

end Assembly

namespace Invocation

/-- The call that stages a stream in the place of the producer. -/
def staged (blake3 : Blake3) (call : Invocation) (stream : CanonicalStream) :
    Status × Run :=
  stageCanonicalStreamImpl call.environment blake3 call.context stream call.sinks call.artifactOutput
    call.artifactOutputRequired

/-- **Running a producer refines staging its batches.** The producer yields the batches and ends, the
control does not cancel, and the sinks answer by the calls to sinks alone. The run succeeds exactly when
the plan says what the batches come to, a checkpoint to replay is one of theirs, and staging the batches
succeeds; then both write the same receipt and the same artifacts, and make the same calls to the
sinks. -/
theorem producer_refines_staging (blake3 : Blake3) (call : Invocation)
    (plan : ProducerPlan) (batches : List CanonicalBatch) (cursors : ℕ → Digest256)
    (completion : Digest256) (stream : CanonicalStream)
    (hyields : call.environment.Yields plan batches cursors completion)
    (hcancel : ∀ trace, call.environment.cancelRequested trace = false)
    (hsinks : call.environment.SinksAlone)
    (hstream : stream.Of batches call.sourceFingerprint call.recipeFingerprint) :
    ((call.result blake3).1 = .ok ↔
      ProducerAccepted blake3 call.context call.sourceFingerprint call.recipeFingerprint plan batches
        cursors call.producer call.control ∧ (call.staged blake3 stream).1 = .ok) ∧
    ((call.result blake3).1 = .ok →
      (call.run blake3).receipt.stream = (call.staged blake3 stream).2.receipt.stream ∧
      (call.run blake3).artifactOutput = (call.staged blake3 stream).2.artifactOutput ∧
      sinkEvents (call.run blake3).trace = sinkEvents (call.staged blake3 stream).2.trace) := by
  refine ⟨⟨fun hok => ?_, fun ⟨hproducer, hok⟩ => ?_⟩, fun hok => ?_⟩
  · obtain ⟨hproducer, hstage⟩ :=
      runBody_refines hyields hcancel hsinks hstream (runProducerImpl_ok.1 hok)
    exact ⟨hproducer, stageCanonicalStreamImpl_ok.2 hstage⟩
  · exact runProducerImpl_ok.2 ((runBody_of_stageBody hyields hcancel hsinks hstream hproducer
      (stageCanonicalStreamImpl_ok.1 hok)).mono fun _ _ _ => trivial)
  · obtain ⟨hproducer, hstage⟩ :=
      runBody_refines hyields hcancel hsinks hstream (runProducerImpl_ok.1 hok)
    obtain ⟨_, given, hgiven, -⟩ := succeeds_iff.1 hstage
    have hends : Succeeds (stageBody call.environment blake3 call.context stream call.sinks
        call.artifactOutputRequired) (initialRun call.sinks.length call.artifactOutput)
        fun _ final => final = given := succeeds_iff.2 ⟨_, given, hgiven, rfl⟩
    obtain ⟨_, final, hfinal, other, hother, halike⟩ :=
      succeeds_iff.1 (runBody_of_stageBody hyields hcancel hsinks hstream hproducer hends)
    rw [hother] at halike
    have hrun : call.run blake3 = closeReceipt blake3 .ok final := by
      rw [run, result, runProducerImpl, hfinal]
    have hstaged : call.staged blake3 stream = (.ok, { given with
        receipt.stream := hashStreamReceipt blake3 { given.receipt.stream with status := .ok } }) := by
      rw [staged, stageCanonicalStreamImpl, hgiven]
    rw [hrun, hstaged]
    refine ⟨?_, halike.output_eq, halike.events_eq⟩
    change hashStreamReceipt blake3 { final.receipt.stream with status := .ok } = _
    rw [halike.stream_eq]

/-! A producer of one batch, one that promises two records, and a sink that refuses the batch. -/

def singlePlan : ProducerPlan := { batchCount := 1, totalRecords := 1, totalBytes := 1, recordType := 1 }

def singleStream : CanonicalStream := ⟨[oneBatch], 0, 0, 1, 0, 0, rfl⟩

theorem singleStream_of : singleStream.Of [oneBatch] 0 0 := ⟨rfl, rfl, rfl, rfl, rfl⟩

theorem willing_next (index : UInt64) (batch : CanonicalBatch) (h : [oneBatch][index.toNat]? = some batch) :
    oneBatch = batch := by
  rcases hnat : index.toNat with _ | count
  · rw [hnat] at h
    exact Option.some.inj h
  · rw [hnat] at h
    cases h

theorem willing_yields : willing.Yields singlePlan [oneBatch] (fun _ => 0) 0 where
  prepare _ := rfl
  next _ index batch h := by
    rw [← willing_next index batch h]
    rfl
  finish _ := rfl
  count := rfl

theorem producer_refines_staging_once :
    ((replaying none).run digits).receipt.stream =
        ((replaying none).staged digits singleStream).2.receipt.stream ∧
      ((replaying none).run digits).artifactOutput =
        ((replaying none).staged digits singleStream).2.artifactOutput ∧
      sinkEvents ((replaying none).run digits).trace =
        sinkEvents ((replaying none).staged digits singleStream).2.trace :=
  (producer_refines_staging digits (replaying none) singlePlan [oneBatch] (fun _ => 0) 0 singleStream
    willing_yields (fun _ => rfl) ⟨fun _ => rfl, fun _ => rfl, fun _ => rfl⟩ singleStream_of).2
    (by decide +kernel)

def promising : Invocation :=
  { replaying none with
    environment := { willing with prepare := fun _ => (.ok, { singlePlan with totalRecords := 2 }) } }

def refused : Invocation :=
  { replaying none with environment := { willing with stageSink := fun _ _ _ => .invalidArgument } }

/-- A run fails where staging succeeds when the plan promises more than the batches are, and where both
fail the receipts differ. -/
theorem producer_differs_from_staging :
    (promising.environment.Yields { singlePlan with totalRecords := 2 } [oneBatch] (fun _ => 0) 0 ∧
      (promising.result digits).1 = .producerBatchFailed ∧
      (promising.staged digits singleStream).1 = .ok) ∧
    refused.environment.Yields singlePlan [oneBatch] (fun _ => 0) 0 ∧
      (refused.result digits).1 = .sinkStageFailed ∧
      (refused.staged digits singleStream).1 = .sinkStageFailed ∧
      (refused.run digits).receipt.stream.receiptId ≠
        (refused.staged digits singleStream).2.receipt.stream.receiptId := by
  refine ⟨⟨⟨fun _ => rfl, willing_yields.next, fun _ => rfl, rfl⟩, ?_, ?_⟩,
    ⟨fun _ => rfl, willing_yields.next, fun _ => rfl, rfl⟩, ?_, ?_, ?_⟩ <;>
  decide +kernel

end Invocation

end Laplace.Framework
