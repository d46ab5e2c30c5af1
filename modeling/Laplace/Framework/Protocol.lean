import Laplace.Framework.History

/-!
# The protocol with the sinks and the producer

Staging a stream and running a producer go through the same phases: nothing is called, the sinks
have begun, they have the same batches, they are sealed. A run that leaves in one of them has
given every sink that has begun a front part of the same history, and aborts exactly those.
-/

namespace Laplace.Framework

open Program

section Staging

variable {environment : Environment} {blake3 : Blake3}
  {batches : List CanonicalBatch} {plan : ProducerPlan} {prepared : Bool}

theorem initialRun_at (sinkCount : ℕ) (artifactOutput : Option SinkArtifactOutput) :
    (initialRun sinkCount artifactOutput).At 0 (fun _ => []) [] {} false :=
  ⟨rfl, fun sink => by rw [if_neg (by omega)]; rfl, rfl, rfl, rfl, rfl, rfl⟩

theorem stageBatches_meets {sinkCount : ℕ} :
    ∀ {stream : List CanonicalBatch} {calls : List SinkCall} {batchIndex : UInt64},
      Meets (stageBatches environment sinkCount stream batchIndex)
        (Run.At sinkCount (fun _ => calls) batches plan prepared)
        (fun _ => Run.At sinkCount (fun _ => calls ++ stream.map .staged) batches plan prepared)
        (fun _ => Run.Within (calls ++ stream.map .staged) batches plan prepared)
  | [], calls, _ => .pure fun run h => by rwa [List.map_nil, List.append_nil]
  | batch :: stream, calls, batchIndex => by
    rw [stageBatches]
    have happend : calls ++ (batch :: stream).map .staged =
        (calls ++ [.staged batch]) ++ stream.map .staged := by
      rw [List.map_cons, List.append_assoc]
      rfl
    rw [happend]
    refine .bind (stageBatchToSinks_meets.of_exit fun _ run h =>
      h.mono (List.prefix_append _ _)) fun _ => ?_
    exact stageBatches_meets

theorem stageBody_meets {context : Context} {stream : CanonicalStream} {sinks : List Sink}
    {required : Bool} : Meets (stageBody environment blake3 context stream sinks required)
      (Run.At 0 (fun _ => []) [] {} false) (fun _ run => ∃ fingerprint, run.At sinks.length
        (fun _ => stream.batches.map .staged ++ [.sealed fingerprint]) [] {} false)
      (fun _ run => ∃ fingerprint,
        run.Within (stream.batches.map .staged ++ [.sealed fingerprint]) [] {} false) := by
  have hearly : ∀ {calls : List SinkCall} (run : Run), calls <+: stream.batches.map .staged →
      run.Within calls [] {} false → ∃ fingerprint,
        run.Within (stream.batches.map .staged ++ [.sealed fingerprint]) [] {} false :=
    fun run hrun h => ⟨0, h.mono (hrun.trans (List.prefix_append _ _))⟩
  have hnone : ∀ run : Run, run.At 0 (fun _ => []) [] {} false → ∃ fingerprint,
      run.Within (stream.batches.map .staged ++ [.sealed fingerprint]) [] {} false :=
    fun run h => hearly run List.nil_prefix h.within
  rw [stageBody]
  refine .bind (prepareSinkArtifactOutput_meets.of_exit fun _ run h => hnone run h) fun _ => ?_
  refine .bind (recordContext_meets.of_exit fun _ run h => hnone run h) fun _ => ?_
  refine .require_then (fun run h _ => hnone run h) fun _ => ?_
  refine .modify_then (Run.At 0 (fun _ => []) [] {} false)
    (fun run h => h.congr rfl rfl rfl rfl) ?_
  refine .bind (Q := fun _ => Run.At 0 (fun _ => []) [] {} false) (fun run h => ?_)
    fun summary => ?_
  · cases canonicalStreamFingerprint blake3 stream.batches with
    | ok summary => exact h
    | error status => exact hnone run h
  refine .modify_then (Run.At 0 (fun _ => []) [] {} false)
    (fun run h => h.congr rfl rfl rfl rfl) ?_
  refine .bind (validateSinks_meets.of_exit fun _ run h => hnone run h) fun _ => ?_
  rw [List.range_eq_range']
  refine .bind (beginSinks_meets.of_exit fun _ run h => hearly run List.nil_prefix h) fun _ => ?_
  rw [Nat.zero_add]
  refine .bind (stageBatches_meets.of_exit fun _ run h => hearly run (List.prefix_refl _) h) fun _ => ?_
  exact sealSinks_meets

end Staging

/-! ## The producer -/

section Producing

variable {environment : Environment} {blake3 : Blake3}
  {history : ℕ → List SinkCall} {batches : List CanonicalBatch} {plan : ProducerPlan}
  {prepared : Bool} {begun : ℕ}

theorem checkCancelled_meets :
    Invariant (checkCancelled environment) (Run.At begun history batches plan prepared) := by
  rw [checkCancelled]
  refine .bind (Q := fun _ => Run.At begun history batches plan prepared)
    (call_meets fun run h => h.other (fun _ => rfl) rfl rfl rfl) fun cancelled => ?_
  exact .ite (fun _ => .pure fun _ h => h) fun _ => .throw fun _ h => h

theorem observeProgress_meets {exit : Failure → Run → Prop} :
    Meets observeProgress (Run.At begun history batches plan prepared)
      (fun _ => Run.At begun history batches plan prepared) exit := by
  rw [observeProgress]
  refine .get_then fun before => ?_
  refine .bind (Q := fun _ => Run.At begun history batches plan prepared)
    (call_meets fun run h => h.1.other (fun _ => rfl) rfl rfl rfl) fun _ => ?_
  exact .modify fun run h => h.congr rfl rfl rfl rfl

theorem compareReplay_meets {replay : ReplayCheckpoint} :
    Invariant (compareReplay replay) (Run.At begun history batches plan prepared) := by
  rw [compareReplay]
  refine .get_then fun before => ?_
  refine .require_then (fun _ h _ => h.1) fun _ => ?_
  exact .modify fun run h => h.1.congr rfl rfl rfl rfl

variable {replay : Option ReplayCheckpoint}

theorem reachReplay_meets {completedBatches : UInt64} :
    Invariant (reachReplay completedBatches replay) (Run.At begun history batches plan prepared) := by
  cases replay with
  | none => exact .pure fun _ h => h
  | some replay => exact .ite (fun _ => compareReplay_meets) fun _ => .pure fun _ h => h

variable {sourceFingerprint recipeFingerprint : Digest256}

theorem openReplay_meets : Invariant (openReplay blake3 sourceFingerprint recipeFingerprint replay)
    (Run.At begun history batches plan prepared) := by
  cases replay with
  | none => exact .pure fun _ h => h
  | some replay =>
    rw [openReplay]
    refine .modify_then (Run.At begun history batches plan prepared)
      (fun run h => h.congr rfl rfl rfl rfl) ?_
    refine .get_then fun before => ?_
    refine .require_then (fun _ h _ => h.1) fun _ => ?_
    exact reachReplay_meets.of_pre (fun _ h => h.1)

/-- `next` hands over one more batch. -/
theorem Run.At.toNext {run : Run} (h : run.At begun history batches plan prepared)
    (batchIndex : UInt64) (batch : CanonicalBatch) :
    { run with trace := run.trace ++ [Event.next batchIndex batch] }.At begun history
      (batches ++ [batch]) plan prepared where
  begun_eq := h.begun_eq
  calls_eq sink := by
    rw [sinkCalls_append, h.calls_eq]
    exact List.append_nil _
  offered_eq := by
    rw [offered_append, h.offered_eq]
    rfl
  plan_eq := h.plan_eq
  prepared_eq := h.prepared_eq
  prepare_any := by
    rw [List.any_append, h.prepare_any]
    simp [Event.isPrepare]
  not_aborted := by rw [List.countP_append, h.not_aborted]; rfl

/-- Every sink that has begun has the batches of the producer, and no other call. -/
def Run.InStep (sinkCount : ℕ) (plan : ProducerPlan) (batches : List CanonicalBatch)
    (run : Run) : Prop :=
  run.At sinkCount (fun _ => batches.map .staged) batches plan true

/-- Where a run of a producer can fail: the sinks that have begun have the batches of the producer
up to one, or they have them all, which are as many as planned, and some are sealed. -/
def Run.Failing (run : Run) : Prop :=
  (∃ batches plan prepared, run.Within (batches.map .staged) batches plan prepared) ∨
  ∃ batches plan fingerprint, batches.length = plan.batchCount.toNat ∧
    run.Within (batches.map .staged ++ [.sealed fingerprint]) batches plan true

theorem Run.At.failing {run : Run} (h : run.At 0 (fun _ => []) [] plan prepared) :
    run.Failing := .inl ⟨[], plan, prepared, h.within⟩

theorem Run.InStep.failing {sinkCount : ℕ} {run : Run} (h : run.InStep sinkCount plan batches) :
    run.Failing := .inl ⟨batches, plan, true, h.within⟩

variable {sinkCount : ℕ}

theorem failing_of_next {batch : CanonicalBatch} {run : Run}
    (h : run.At sinkCount (fun _ => batches.map .staged) (batches ++ [batch]) plan true) : run.Failing := by
  refine .inl ⟨batches ++ [batch], plan, true, _, _, h, fun sink => ?_⟩
  rw [List.map_append]
  exact List.prefix_append _ _

theorem runBatch_meets {batchIndex : UInt64} :
    Meets (runBatch environment blake3 sourceFingerprint recipeFingerprint replay sinkCount batchIndex)
      (Run.InStep sinkCount plan batches)
      (fun _ run => ∃ batch, run.InStep sinkCount plan (batches ++ [batch])) (fun _ => Run.Failing) := by
  rw [runBatch]
  refine .bind (checkCancelled_meets.of_exit fun _ run h => Run.InStep.failing h) fun _ => ?_
  refine .bind (Q := fun result run =>
      run.At sinkCount (fun _ => batches.map .staged) (batches ++ [result.2.1]) plan true)
    (call_meets fun run h => Run.At.toNext h _ _) fun result => ?_
  obtain ⟨status, batch, cursorFingerprint⟩ := result
  refine .demand_then (fun run h _ => failing_of_next (h.congr rfl rfl rfl rfl)) fun _ => ?_
  refine .get_then fun before => ?_
  refine .demand_then (fun run h _ => failing_of_next (h.1.congr rfl rfl rfl rfl)) fun _ => ?_
  refine .modify_then
    (Run.At sinkCount (fun _ => batches.map .staged) (batches ++ [batch]) plan true)
    (fun run h => h.1.congr rfl rfl rfl rfl) ?_
  refine .get_then fun counted => ?_
  refine .demand_then (fun run h _ => failing_of_next (h.1.congr rfl rfl rfl rfl)) fun _ => ?_
  have hstaged : batches.map SinkCall.staged ++ [.staged batch] =
      (batches ++ [batch]).map .staged := by rw [List.map_append]; rfl
  refine .bind (Q := fun _ => Run.InStep sinkCount plan (batches ++ [batch]))
    (stageBatchToSinks_meets.mono (fun _ h => h.1) (fun _ run h => ?_) fun _ run h => ?_)
    fun _ => ?_
  · rwa [hstaged] at h
  · rw [hstaged] at h
    exact .inl ⟨_, _, _, h⟩
  refine .modify_then (Run.InStep sinkCount plan (batches ++ [batch]))
    (fun run h => Run.At.congr h rfl rfl rfl rfl) ?_
  refine .modify_then (Run.InStep sinkCount plan (batches ++ [batch]))
    (fun run h => Run.At.congr h rfl rfl rfl rfl) ?_
  refine .bind (reachReplay_meets.of_exit fun _ run h => Run.InStep.failing h) fun _ => ?_
  exact observeProgress_meets.mono (fun _ h => h) (fun _ run h => ⟨batch, h⟩) fun _ _ h => h

theorem runBatches_meets : ∀ {remaining : ℕ} {batchIndex : UInt64} {batches : List CanonicalBatch},
      Meets (runBatches environment blake3 sourceFingerprint recipeFingerprint replay sinkCount
          remaining batchIndex) (Run.InStep sinkCount plan batches)
        (fun _ run => ∃ batches', batches'.length = batches.length + remaining ∧
          run.InStep sinkCount plan batches') (fun _ => Run.Failing)
  | 0, _, batches => .pure fun run h => ⟨batches, rfl, h⟩
  | remaining + 1, batchIndex, batches => by
    rw [runBatches]
    refine .bind runBatch_meets fun _ => ?_
    rintro run ⟨batch, hstep⟩
    refine (runBatches_meets.mono (fun _ h => h) (fun _ run h => ?_) fun _ _ h => h) run hstep
    obtain ⟨batches', hlength, h⟩ := h
    refine ⟨batches', ?_, h⟩
    rw [hlength, List.length_append, List.length_singleton]
    omega

/-- `prepare` is called, whatever it returns. -/
theorem preparePlan_meets : Meets (preparePlan environment blake3 sourceFingerprint recipeFingerprint)
      (Run.At 0 (fun _ => []) [] plan false) (fun _ run => ∃ plan, run.At 0 (fun _ => []) [] plan true)
      (fun _ => Run.Failing) := by
  rw [preparePlan]
  refine .modify_then (fun run => { run with producerPrepared := false }.At 0 (fun _ => []) [] plan
    false ∧ run.producerPrepared = true) (fun run h => ⟨@Run.At.congr _ _ _ _ _ _
      { run with producerPrepared := false } h rfl rfl rfl h.prepared_eq.symm, rfl⟩) ?_
  refine .bind (Q := fun _ => Run.At 0 (fun _ => []) [] plan true)
    (call_meets fun run h => ?_) fun result => ?_
  · obtain ⟨h, hprepared⟩ := h
    refine ⟨h.begun_eq, fun sink => ?_, ?_, h.plan_eq, hprepared, ?_, ?_⟩
    · rw [sinkCalls_append]
      exact (List.append_nil _).trans (h.calls_eq sink)
    · rw [offered_append]
      exact (List.append_nil _).trans h.offered_eq
    · rw [List.any_append]
      simp [Event.isPrepare]
    · rw [List.countP_append]
      exact h.not_aborted
  obtain ⟨status, next⟩ := result
  refine .require_then (fun _ h _ => h.failing) fun _ => ?_
  refine .modify_then (Run.At 0 (fun _ => []) [] next true) (fun run h => ?_) ?_
  · obtain ⟨h1, h2, h3, h4, h5, h6, h7⟩ := h
    exact ⟨h1, h2, h3, rfl, h5, h6, h7⟩
  refine .require_then (fun _ h _ => h.failing) fun _ => ?_
  refine .modify_then (Run.At 0 (fun _ => []) [] next true)
    (fun run h => h.congr rfl rfl rfl rfl) ?_
  exact .modify fun run h => ⟨next, h.congr rfl rfl rfl rfl⟩

theorem closeProducer_meets {replay : Option ReplayCheckpoint} {sinkCount : ℕ} :
    Meets (closeProducer environment blake3 replay) (Run.InStep sinkCount plan batches)
      (fun _ => Run.InStep sinkCount plan batches) (fun _ => Run.Failing) := by
  rw [closeProducer]
  refine .get_then fun before => ?_
  refine .demand_then (fun run h _ => @Run.InStep.failing batches plan sinkCount _
    (@Run.At.congr _ _ _ _ _ _ (noteBatch _ run) h.1 rfl rfl rfl rfl)) fun _ => ?_
  refine .bind (checkCancelled_meets.mono (fun _ h => h.1) (fun _ _ h => h)
    fun _ run h => Run.InStep.failing h) fun _ => ?_
  refine .bind (Q := fun _ => Run.InStep sinkCount plan batches)
    (call_meets fun run h => Run.At.other h (fun _ => rfl) rfl rfl rfl) fun result => ?_
  refine .modify_then (Run.InStep sinkCount plan batches)
    (fun run h => Run.At.congr h rfl rfl rfl rfl) ?_
  refine .require_then (fun _ h _ => h.failing) fun _ => ?_
  exact .modify fun run h => Run.At.congr h rfl rfl rfl rfl

theorem runBody_meets {context : Context} {producer : Producer} {control : ProducerControl}
    {sinks : List Sink} {required : Bool} :
    Meets (runBody environment blake3 context sourceFingerprint recipeFingerprint producer control
        sinks required) (Run.At 0 (fun _ => []) [] {} false)
      (fun _ run => ∃ batches plan fingerprint, batches.length = plan.batchCount.toNat ∧
        run.At sinks.length (fun _ => batches.map .staged ++ [.sealed fingerprint]) batches plan true)
      (fun _ => Run.Failing) := by
  rw [runBody]
  refine .bind (prepareSinkArtifactOutput_meets.of_exit fun _ run h => h.failing) fun _ => ?_
  refine .bind (recordContext_meets.of_exit fun _ run h => h.failing) fun _ => ?_
  refine .modify_then (Run.At 0 (fun _ => []) [] {} false)
    (fun run h => h.congr rfl rfl rfl rfl) ?_
  refine .require_then (fun _ h _ => h.failing) fun _ => ?_
  refine .bind (validateSinks_meets.of_exit fun _ run h => h.failing) fun _ => ?_
  refine .bind preparePlan_meets fun _ => ?_
  rintro run ⟨plan, hrun⟩
  revert run
  change Meets _ (Run.At 0 (fun _ => []) [] plan true) _ _
  refine .bind (openReplay_meets.of_exit fun _ run h => h.failing) fun _ => ?_
  refine .bind (checkCancelled_meets.of_exit fun _ run h => h.failing) fun _ => ?_
  refine .bind observeProgress_meets fun _ => ?_
  refine .bind (checkCancelled_meets.of_exit fun _ run h => h.failing) fun _ => ?_
  refine .get_then fun before => ?_
  by_cases hbefore : before.plan = plan
  swap
  · rintro run ⟨h, rfl⟩
    exact absurd h.plan_eq hbefore
  rw [List.range_eq_range', hbefore]
  refine .bind (beginSinks_meets.mono (fun _ h => h.1) (fun _ _ h => h)
    fun _ run h => .inl ⟨[], plan, true, h⟩) fun _ => ?_
  rw [Nat.zero_add]
  refine .bind (@runBatches_meets _ _ plan _ _ _ _ _ _ []) fun _ => ?_
  rintro run ⟨batches, hlength, hrun⟩
  revert run
  change Meets _ (Run.InStep sinks.length plan batches) _ _
  refine .bind closeProducer_meets fun _ => ?_
  rw [List.length_nil, Nat.zero_add] at hlength
  refine sealSinks_meets.mono (fun _ h => h) (fun _ run h => ?_) fun _ run h => ?_
  · obtain ⟨fingerprint, h⟩ := h
    exact ⟨batches, plan, fingerprint, hlength, h⟩
  · obtain ⟨fingerprint, h⟩ := h
    exact .inr ⟨batches, plan, fingerprint, hlength, h⟩

end Producing

/-! ## Both functions keep the protocol -/

variable {fingerprint : Digest256} {stream batches : List CanonicalBatch} {plan : ProducerPlan}
  {prepared : Bool} {run : Run}

theorem Run.At.complete {succeeded : Prop} {sinkCount : ℕ}
    (h : run.At sinkCount (fun _ => stream.map .staged ++ [.sealed fingerprint]) batches plan prepared)
    (hsucceeded : succeeded) (sink : ℕ) : SinkProtocol succeeded stream (sinkCalls sink run.trace) := by
  rw [h.calls_eq]
  split
  · exact .complete fingerprint hsucceeded
  · exact .uncalled

theorem Run.Within.aborted
    (h : run.Within (stream.map .staged ++ [.sealed fingerprint]) batches plan prepared) :
    ∃ begun history, (abortSinks (List.range run.begun) run).At begun history batches plan prepared ∧
      ∀ succeeded : Prop, ¬ succeeded → ∀ sink, SinkProtocol succeeded stream
        (sinkCalls sink (abortSinks (List.range run.begun) run).trace) := by
  obtain ⟨begun, history, hat, hrun⟩ := h
  have habort := abortSinks_at hat
  rw [← hat.begun_eq] at habort
  refine ⟨_, _, habort, fun succeeded hfailed sink => ?_⟩
  rw [habort.calls_eq]
  split
  · exact .aborted (hrun sink) hfailed
  · exact .uncalled

theorem Run.Within.not_sealed (h : run.Within (stream.map .staged) batches plan prepared) (sink : ℕ)
    (fingerprint : Digest256) :
    .sealed fingerprint ∉ sinkCalls sink (abortSinks (List.range run.begun) run).trace := by
  obtain ⟨begun, history, hat, hrun⟩ := h
  rw [hat.begun_eq, (abortSinks_at hat).calls_eq]
  intro hmem
  split at hmem
  · have hhistory : SinkCall.sealed fingerprint ∈ history sink := by simpa using hmem
    have := (hrun sink).subset hhistory
    simp at this
  · simp at hmem

/-- What a run of a producer keeps to: each sink the protocol over the batches the producer handed
over, which a seal finds to be as many as planned; and the producer is aborted once if it was
prepared and the run fails, and not at all otherwise. -/
structure ProducerProtocol (status : Status) (run : Run) : Prop where
  sinks : ∀ sink, SinkProtocol (status = .ok) (offered run.trace) (sinkCalls sink run.trace)
  all_batches : ∀ sink fingerprint, .sealed fingerprint ∈ sinkCalls sink run.trace →
    (offered run.trace).length = run.plan.batchCount.toNat
  aborted : run.trace.countP Event.isAbortProducer =
    if run.trace.any Event.isPrepare ∧ status ≠ .ok then 1 else 0

theorem ProducerProtocol.ok {sinkCount : ℕ}
    (h : run.At sinkCount (fun _ => batches.map .staged ++ [.sealed fingerprint]) batches plan true)
    (hlength : batches.length = plan.batchCount.toNat) : ProducerProtocol .ok run where
  sinks sink := by
    rw [h.offered_eq]
    exact h.complete rfl sink
  all_batches _ _ _ := by rw [h.offered_eq, h.plan_eq, hlength]
  aborted := by rw [h.not_aborted, if_neg (by simp)]

/-- The `fail` label keeps the protocol. -/
theorem ProducerProtocol.failed (blake3 : Blake3) {status : Status} {run : Run}
    {fingerprint : Digest256} {batches : List CanonicalBatch} {plan : ProducerPlan}
    {prepared : Bool} (hfailed : status ≠ .ok)
    (h : run.Within (batches.map .staged ++ [.sealed fingerprint]) batches plan prepared)
    (hsealed : ∀ sink fingerprint,
      .sealed fingerprint ∈ sinkCalls sink (abortSinks (List.range run.begun) run).trace →
      batches.length = plan.batchCount.toNat) : ProducerProtocol status (fail blake3 status run) := by
  obtain ⟨begun, history, hat, hsinks⟩ := h.aborted
  have hcalls : ∀ sink, sinkCalls sink (fail blake3 status run).trace =
      sinkCalls sink (abortSinks (List.range run.begun) run).trace := by
    intro sink
    simp only [fail, closeReceipt]
    split
    · rw [sinkCalls_append]
      exact List.append_nil _
    · rfl
  have hoffered : offered (fail blake3 status run).trace = batches := by
    simp only [fail, closeReceipt]
    split
    · rw [offered_append, hat.offered_eq]
      exact List.append_nil _
    · exact hat.offered_eq
  have hplan : (fail blake3 status run).plan = plan := by
    simp only [fail, closeReceipt]
    split <;> exact hat.plan_eq
  refine ⟨fun sink => ?_, fun sink fingerprint hmem => ?_, ?_⟩
  · rw [hoffered, hcalls]
    exact hsinks _ hfailed sink
  · rw [hcalls] at hmem
    rw [hoffered, hplan]
    exact hsealed sink fingerprint hmem
  · simp only [fail, closeReceipt, hat.prepared_eq]
    cases prepared with
    | true =>
      have hany : ((abortSinks (List.range run.begun) run).trace ++ [Event.abortProducer]).any
          Event.isPrepare = true := by
        rw [List.any_append, hat.prepare_any]
        rfl
      rw [if_pos rfl, List.countP_append, hat.not_aborted, if_pos ⟨hany, hfailed⟩]
      rfl
    | false =>
      rw [if_neg (by simp), hat.not_aborted, if_neg]
      rw [hat.prepare_any]
      simp

/-- **The sinks and the producer are called in the order of their protocol**, whatever they and the
control return. -/
theorem sink_and_producer_protocol (environment : Environment) (blake3 : Blake3)
    (context : Context) (sinks : List Sink) (artifactOutput : Option SinkArtifactOutput)
    (artifactOutputRequired : Bool) : (∀ stream sink,
      let result := stageCanonicalStreamImpl environment blake3 context stream sinks
        artifactOutput artifactOutputRequired
      SinkProtocol (result.1 = .ok) stream.batches (sinkCalls sink result.2.trace)) ∧
    ∀ sourceFingerprint recipeFingerprint producer control,
      let result := runProducerImpl environment blake3 context sourceFingerprint recipeFingerprint
        producer control sinks artifactOutput artifactOutputRequired
      ProducerProtocol result.1 result.2 := by
  refine ⟨fun stream sink => ?_, fun sourceFingerprint recipeFingerprint producer control => ?_⟩
  · rw [stageCanonicalStreamImpl]
    have hinitial := initialRun_at sinks.length artifactOutput
    rcases hrun : (stageBody environment blake3 context stream sinks artifactOutputRequired).eval
        (initialRun sinks.length artifactOutput) with ⟨status | _, run⟩
    · obtain ⟨fingerprint, h⟩ := stageBody_meets.of_error hinitial hrun
      obtain ⟨begun, history, hat, hsinks⟩ := h.aborted
      exact hsinks _ status.2 sink
    · obtain ⟨fingerprint, h⟩ := stageBody_meets.of_ok hinitial hrun
      exact h.complete rfl sink
  · rw [runProducerImpl]
    have hinitial := initialRun_at sinks.length artifactOutput
    rcases hrun : (runBody environment blake3 context sourceFingerprint recipeFingerprint producer
        control sinks artifactOutputRequired).eval (initialRun sinks.length artifactOutput)
      with ⟨status | _, run⟩
    · rcases runBody_meets.of_error hinitial hrun with
        ⟨batches, plan, prepared, h⟩ | ⟨batches, plan, fingerprint, hlength, h⟩
      · exact @ProducerProtocol.failed blake3 _ _ 0 _ _ _ status.2 (h.mono (List.prefix_append _ _))
          fun sink fingerprint hmem => absurd hmem (h.not_sealed sink fingerprint)
      · exact .failed blake3 status.2 h fun _ _ _ => hlength
    · obtain ⟨batches, plan, fingerprint, hlength, h⟩ := runBody_meets.of_ok hinitial hrun
      have hok := ProducerProtocol.ok h hlength
      exact ⟨hok.sinks, hok.all_batches, hok.aborted⟩

end Laplace.Framework
