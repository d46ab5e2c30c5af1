import Laplace.Framework.History

/-!
# The part of a run that its checkpoints depend on

The calls to the sinks and to the control leave it alone.
-/

namespace Laplace.Framework

open Program

/-! ## The core of a run -/

def observedCheckpoint : Event → Option ReplayCheckpoint
  | .observeProgress checkpoint => some checkpoint
  | _ => none

/-- The checkpoints the control has been shown. -/
def observed (trace : List Event) : List ReplayCheckpoint := trace.filterMap observedCheckpoint

theorem observed_append (trace : List Event) (event : Event) :
    observed (trace ++ [event]) = observed trace ++ (observedCheckpoint event).toList := by
  rw [observed, List.filterMap_append, List.filterMap_cons, List.filterMap_nil]
  cases observedCheckpoint event <;> rfl

structure Core where
  offered : List CanonicalBatch
  observed : List ReplayCheckpoint
  checkpoint : ReplayCheckpoint
  contextFingerprint : Digest256
  planFingerprint : Digest256
  plan : ProducerPlan
  prefixHasher : List UInt8
  replayVerified : Bool

def Run.core (run : Run) : Core where
  offered := offered run.trace
  observed := observed run.trace
  checkpoint := run.receipt.checkpoint
  contextFingerprint := run.receipt.stream.contextFingerprint
  planFingerprint := run.receipt.planFingerprint
  plan := run.plan
  prefixHasher := run.prefixHasher
  replayVerified := run.replayVerified

theorem core_of_eq {run run' : Run} (htrace : offered run'.trace = offered run.trace)
    (hobserved : observed run'.trace = observed run.trace)
    (hcheckpoint : run'.receipt.checkpoint = run.receipt.checkpoint)
    (hcontext : run'.receipt.stream.contextFingerprint = run.receipt.stream.contextFingerprint)
    (hplan : run'.receipt.planFingerprint = run.receipt.planFingerprint)
    (hplan' : run'.plan = run.plan) (hhasher : run'.prefixHasher = run.prefixHasher)
    (hverified : run'.replayVerified = run.replayVerified) : run'.core = run.core := by
  simp only [Run.core, htrace, hobserved, hcheckpoint, hcontext, hplan, hplan', hhasher, hverified]

theorem core_append {run : Run} {event : Event} (hoffered : offeredBatch event = none)
    (hobserved : observedCheckpoint event = none) :
    { run with trace := run.trace ++ [event] }.core = run.core := by
  refine core_of_eq ?_ ?_ rfl rfl rfl rfl rfl rfl
  · rw [offered_append, hoffered]
    exact List.append_nil _
  · rw [observed_append, hobserved]
    exact List.append_nil _

section Frame

variable {environment : Environment} {blake3 : Blake3} {core : Core}

/-- A program that leaves the core alone. -/
abbrev Keeps {α : Type} (program : Running α) (core : Core) : Prop :=
  Invariant program fun run => run.core = core

theorem Meets.of_keeps {α : Type} {program : Running α} (h : ∀ core, Keeps program core) (P : Core → Prop) :
    Invariant program fun run => P run.core := by
  intro run hrun
  have hkeeps := h run.core run rfl
  rcases heq : program.eval run with ⟨status | a, run'⟩
  · rw [heq] at hkeeps
    exact (congrArg P hkeeps).mpr hrun
  · rw [heq] at hkeeps
    exact (congrArg P hkeeps).mpr hrun

theorem call_keeps {α : Type} {outcome : List Event → α} {event : α → Event}
    (hoffered : ∀ a, offeredBatch (event a) = none)
    (hobserved : ∀ a, observedCheckpoint (event a) = none) : Keeps (call outcome event) core :=
  call_meets fun _ h => (core_append (hoffered _) (hobserved _)).trans h

theorem prepareSinkArtifactOutput_keeps {sinkCount : ℕ} {required : Bool} :
    Keeps (prepareSinkArtifactOutput sinkCount required) core := by
  rw [Keeps, prepareSinkArtifactOutput]
  refine .get_then fun before => ?_
  cases before.artifactOutput with
  | none => exact .ite (fun _ => .pure fun _ h => h.1) fun _ => .throw fun _ h => h.1
  | some output =>
    refine .modify_then (fun run => run.core = core) (fun run h => h.1) ?_
    exact .ite (fun _ => .pure fun _ h => h) fun _ => .throw fun _ h => h

theorem validateSinks_keeps {sinks : List Sink} : Keeps (validateSinks sinks) core := by
  rw [Keeps, validateSinks]
  refine .require_then (fun _ h _ => h) fun _ => ?_
  exact .demand (fun _ h _ => h) fun run h _ => h

theorem beginSinks_keeps {recordType : UInt32} {totalRecords totalBytes : UInt64} : ∀ {sinks : List ℕ},
      Keeps (beginSinks environment recordType totalRecords totalBytes sinks) core
  | [] => .pure fun _ h => h
  | sink :: sinks => by
    rw [Keeps, beginSinks]
    refine .bind (call_keeps (fun _ => rfl) fun _ => rfl) fun status => ?_
    refine .modify_then (fun run => run.core = core) (fun run h => h) ?_
    exact .demand_then (fun run h _ => h) fun _ => beginSinks_keeps

theorem stageBatchToSinks_keeps {batch : CanonicalBatch} {batchIndex : UInt64} :
    ∀ {sinks : List ℕ}, Keeps (stageBatchToSinks environment batch batchIndex sinks) core
  | [] => .pure fun _ h => h
  | sink :: sinks => by
    rw [Keeps, stageBatchToSinks]
    refine .bind (call_keeps (fun _ => rfl) fun _ => rfl) fun status => ?_
    exact .demand_then (fun run h _ => h) fun _ => stageBatchToSinks_keeps

theorem sealSinksFrom_keeps {sinkCount : ℕ} {streamFingerprint : Digest256} :
    ∀ {sinks : List ℕ} {artifactHasher : List UInt8},
      Keeps (sealSinksFrom environment sinkCount streamFingerprint artifactHasher sinks) core
  | [], _ => .pure fun _ h => h
  | sink :: sinks, _ => by
    rw [Keeps, sealSinksFrom]
    refine .bind (call_keeps (fun _ => rfl) fun _ => rfl) fun result => ?_
    refine .demand_then (fun run h _ => h) fun _ => ?_
    refine .modify_then (fun run => run.core = core) (fun run h => h) ?_
    exact sealSinksFrom_keeps

theorem sealSinks_keeps {sinkCount : ℕ} : Keeps (sealSinks environment blake3 sinkCount) core := by
  rw [Keeps, sealSinks]
  refine .get_then fun before => ?_
  exact .bind (sealSinksFrom_keeps.of_pre (fun _ h => h.1))
    fun _ => .modify fun run h => h

theorem checkCancelled_keeps : Keeps (checkCancelled environment) core := by
  rw [Keeps, checkCancelled]
  refine .bind (call_keeps (fun _ => rfl) fun _ => rfl) fun cancelled => ?_
  exact .ite (fun _ => .pure fun _ h => h) fun _ => .throw fun _ h => h

theorem closeProducer_keeps {replay : Option ReplayCheckpoint} :
    Meets (closeProducer environment blake3 replay) (fun run => run.core = core)
      (fun _ run => run.core = core ∧ (replay.isSome → core.replayVerified = true))
      (fun _ run => run.core = core) := by
  rw [closeProducer]
  refine .get_then fun before => ?_
  by_cases hbefore : before.core = core
  swap
  · rintro run ⟨h, rfl⟩
    exact absurd h hbefore
  refine .demand_then (fun run h _ => h.1) fun hclosed => ?_
  have hverified : replay.isSome → core.replayVerified = true := by
    rw [← hbefore]
    exact hclosed.2.2
  refine .bind (checkCancelled_keeps.of_pre (fun _ h => h.1))
    fun _ => ?_
  refine .bind (call_keeps (fun _ => rfl) fun _ => rfl) fun result => ?_
  refine .modify_then (fun run => run.core = core) (fun run h => h) ?_
  refine .require_then (fun _ h _ => h) fun _ => ?_
  exact .modify fun run h => ⟨h, hverified⟩

theorem abortSinks_core : ∀ (sinks : List ℕ) (run : Run), (abortSinks sinks run).core = run.core
  | [], _ => rfl
  | _ :: sinks, _ => (abortSinks_core sinks _).trans (core_append rfl rfl)

theorem fail_core (status : Status) (run : Run) : (fail blake3 status run).core = run.core := by
  have habort := abortSinks_core (List.range run.begun) run
  by_cases hprepared : (abortSinks (List.range run.begun) run).producerPrepared = true
  · rw [fail, if_pos hprepared]
    exact (@core_append _ .abortProducer rfl rfl).trans habort
  · rw [fail, if_neg hprepared]
    exact habort

end Frame

end Laplace.Framework
