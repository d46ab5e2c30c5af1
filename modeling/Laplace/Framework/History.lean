import Laplace.Framework.Run

/-!
# What the sinks see of a run

What one sink sees of a run is the list of the calls made to it. Every loop over the sinks adds
the same call to the history of one sink after another, so that between two loops all the sinks
have the same history, and within a loop two that differ by one call.
-/

namespace Laplace.Framework

open Program

/-! ## Histories -/

/-- A call to a sink, from its side. -/
inductive SinkCall
  | begun
  | staged (batch : CanonicalBatch)
  | sealed (streamFingerprint : Digest256)
  | aborted

def SinkCall.isAborted : SinkCall → Bool
  | .aborted => true
  | _ => false

def SinkCall.IsSealed (call : SinkCall) : Prop := ∃ fingerprint, call = .sealed fingerprint

def sinkCall (sink : ℕ) : Event → Option SinkCall
  | .beginSink index => if index = sink then some .begun else none
  | .stageSink index batch => if index = sink then some (.staged batch) else none
  | .sealSink index fingerprint => if index = sink then some (.sealed fingerprint) else none
  | .abortSink index => if index = sink then some .aborted else none
  | _ => none

/-- The calls made to one sink, in order. -/
def sinkCalls (sink : ℕ) (trace : List Event) : List SinkCall := trace.filterMap (sinkCall sink)

def offeredBatch : Event → Option CanonicalBatch
  | .next _ batch => some batch
  | _ => none

/-- The batches the producer has handed over, in order. -/
def offered (trace : List Event) : List CanonicalBatch := trace.filterMap offeredBatch

def Event.isPrepare : Event → Bool
  | .prepare => true
  | _ => false

def Event.isAbortProducer : Event → Bool
  | .abortProducer => true
  | _ => false

theorem sinkCalls_append (sink : ℕ) (trace : List Event) (event : Event) :
    sinkCalls sink (trace ++ [event]) = sinkCalls sink trace ++ (sinkCall sink event).toList := by
  rw [sinkCalls, List.filterMap_append, List.filterMap_cons, List.filterMap_nil]
  cases sinkCall sink event <;> rfl

theorem offered_append (trace : List Event) (event : Event) :
    offered (trace ++ [event]) = offered trace ++ (offeredBatch event).toList := by
  rw [offered, List.filterMap_append, List.filterMap_cons, List.filterMap_nil]
  cases offeredBatch event <;> rfl

/-! ## What a point of a run has done -/

/-- The sinks below `begun` have begun and then have `history`, the others have not been called;
the producer has handed over `batches` and planned `plan`; it was prepared when `prepared` says so,
and not aborted. -/
structure Run.At (begun : ℕ) (history : ℕ → List SinkCall) (batches : List CanonicalBatch)
    (plan : ProducerPlan) (prepared : Bool) (run : Run) : Prop where
  begun_eq : run.begun = begun
  calls_eq : ∀ sink, sinkCalls sink run.trace = if sink < begun then .begun :: history sink else []
  offered_eq : offered run.trace = batches
  plan_eq : run.plan = plan
  prepared_eq : run.producerPrepared = prepared
  prepare_any : run.trace.any Event.isPrepare = prepared
  not_aborted : run.trace.countP Event.isAbortProducer = 0

namespace Run.At

variable {begun : ℕ} {history history' : ℕ → List SinkCall} {batches : List CanonicalBatch}
  {plan : ProducerPlan} {prepared : Bool} {run run' : Run}

theorem congr (h : run.At begun history batches plan prepared) (htrace : run'.trace = run.trace)
    (hbegun : run'.begun = run.begun) (hplan : run'.plan = run.plan)
    (hprepared : run'.producerPrepared = run.producerPrepared) :
    run'.At begun history batches plan prepared := by
  obtain ⟨h1, h2, h3, h4, h5, h6, h7⟩ := h
  exact ⟨hbegun.trans h1, by rwa [htrace], by rwa [htrace], hplan.trans h4, hprepared.trans h5,
    by rwa [htrace], by rwa [htrace]⟩

theorem of_history (h : run.At begun history batches plan prepared)
    (heq : ∀ sink < begun, history sink = history' sink) : run.At begun history' batches plan prepared := by
  refine { h with calls_eq := fun sink => ?_ }
  rw [h.calls_eq sink]
  split
  · rename_i hlt
    rw [heq sink hlt]
  · rfl

theorem quiet (h : run.At begun history batches plan prepared) {event : Event}
    (hoffered : offeredBatch event = none) (hprepare : event.isPrepare = false)
    (habort : event.isAbortProducer = false) (hcalls : ∀ sink, sinkCalls sink (run.trace ++ [event]) =
      if sink < begun then .begun :: history' sink else []) :
    { run with trace := run.trace ++ [event] }.At begun history' batches plan prepared where
  begun_eq := h.begun_eq
  calls_eq := hcalls
  offered_eq := by rw [offered_append, hoffered, Option.toList_none, List.append_nil, h.offered_eq]
  plan_eq := h.plan_eq
  prepared_eq := h.prepared_eq
  prepare_any := by
    rw [List.any_append, h.prepare_any, List.any_cons, hprepare, List.any_nil]
    simp
  not_aborted := by rw [List.countP_append, h.not_aborted, List.countP_singleton, habort]; rfl

theorem other (h : run.At begun history batches plan prepared) {event : Event}
    (hsink : ∀ sink, sinkCall sink event = none) (hoffered : offeredBatch event = none)
    (hprepare : event.isPrepare = false) (habort : event.isAbortProducer = false) :
    { run with trace := run.trace ++ [event] }.At begun history batches plan prepared := by
  refine h.quiet hoffered hprepare habort fun sink => ?_
  rw [sinkCalls_append, hsink, Option.toList_none, List.append_nil, h.calls_eq]

theorem toSink (h : run.At begun history batches plan prepared) {event : Event} {sink : ℕ}
    {record : SinkCall} (hlt : sink < begun)
    (hsink : ∀ index, sinkCall index event = if sink = index then some record else none)
    (hoffered : offeredBatch event = none)
    (hprepare : event.isPrepare = false) (habort : event.isAbortProducer = false) :
    { run with trace := run.trace ++ [event] }.At begun
      (fun index => history index ++ if index = sink then [record] else []) batches plan prepared := by
  refine h.quiet hoffered hprepare habort fun index => ?_
  rw [sinkCalls_append, hsink, h.calls_eq]
  rcases eq_or_ne index sink with rfl | hne
  · rw [if_pos hlt, if_pos rfl, if_pos hlt, if_pos rfl]
    rfl
  · rw [if_neg hne.symm, if_neg hne, Option.toList_none, List.append_nil, List.append_nil]

theorem toBegin (h : run.At begun (fun _ => []) batches plan prepared) :
    { run with trace := run.trace ++ [Event.beginSink begun], begun := begun + 1 }.At (begun + 1)
      (fun _ => []) batches plan prepared where
  begun_eq := rfl
  calls_eq index := by
    rw [sinkCalls_append, h.calls_eq]
    rcases Nat.lt_trichotomy index begun with hlt | rfl | hgt
    · rw [if_pos hlt, if_pos (by omega), sinkCall, if_neg (by omega)]
      rfl
    · rw [if_neg (lt_irrefl _), if_pos (by omega), sinkCall, if_pos rfl]
      rfl
    · rw [if_neg (by omega), if_neg (by omega), sinkCall, if_neg (by omega)]
      rfl
  offered_eq := by
    rw [offered_append, h.offered_eq]
    exact List.append_nil _
  plan_eq := h.plan_eq
  prepared_eq := h.prepared_eq
  prepare_any := by
    rw [List.any_append, h.prepare_any]
    simp [Event.isPrepare]
  not_aborted := by rw [List.countP_append, h.not_aborted]; rfl

end Run.At

/-! ## The loops over the sinks -/

/-- The histories when the sinks below `count` have got one call more. -/
def passed (history : ℕ → List SinkCall) (record : SinkCall) (count sink : ℕ) : List SinkCall :=
  history sink ++ if sink < count then [record] else []

theorem passed_zero (history : ℕ → List SinkCall) (record : SinkCall) (sink : ℕ) :
    passed history record 0 sink = history sink := List.append_nil _

theorem passed_of_lt {history : ℕ → List SinkCall} {record : SinkCall} {count sink : ℕ}
    (h : sink < count) : passed history record count sink = history sink ++ [record] := by
  rw [passed, if_pos h]

theorem passed_succ (history : ℕ → List SinkCall) (record : SinkCall) (count sink : ℕ) :
    passed history record (count + 1) sink =
      passed history record count sink ++ if sink = count then [record] else [] := by
  rcases Nat.lt_trichotomy sink count with hlt | rfl | hgt
  · simp [passed, hlt, hlt.ne, Nat.lt_succ_of_lt hlt]
  · simp [passed]
  · simp [passed, hgt.ne', show ¬ sink < count + 1 by omega, show ¬ sink < count by omega]

theorem passed_prefix (history : ℕ → List SinkCall) (record : SinkCall) (count sink : ℕ) :
    passed history record count sink <+: history sink ++ [record] := by
  rw [passed]
  split
  · exact List.prefix_refl _
  · rw [List.append_nil]
    exact List.prefix_append _ _

/-- The sinks that have begun have got calls from the front of `calls` after it. -/
def Run.Within (calls : List SinkCall) (batches : List CanonicalBatch) (plan : ProducerPlan)
    (prepared : Bool) (run : Run) : Prop :=
  ∃ begun history, run.At begun history batches plan prepared ∧ ∀ sink, history sink <+: calls

section Loops

variable {environment : Environment} {calls : List SinkCall} {batches : List CanonicalBatch}
  {plan : ProducerPlan} {prepared : Bool}

variable {run : Run}

theorem Run.Within.mono {calls' : List SinkCall} (h : run.Within calls batches plan prepared)
    (hcalls : calls <+: calls') : run.Within calls' batches plan prepared := by
  obtain ⟨begun, history, hat, hothers⟩ := h
  exact ⟨begun, history, hat, fun sink => (hothers sink).trans hcalls⟩

variable {begun : ℕ}

theorem Run.At.within (h : run.At begun (fun _ => calls) batches plan prepared) :
    run.Within calls batches plan prepared := ⟨_, _, h, fun _ => List.prefix_refl _⟩

theorem call_meets {α : Type} {outcome : List Event → α} {event : α → Event} {pre : Run → Prop}
    {post : α → Run → Prop} {exit : Failure → Run → Prop} (h : ∀ run, pre run → post (outcome run.trace)
      { run with trace := run.trace ++ [event (outcome run.trace)] }) :
    Meets (call outcome event) pre post exit :=
  fun run hrun => h run hrun

theorem beginSinks_meets {recordType : UInt32} {totalRecords totalBytes : UInt64} : ∀ {count begun : ℕ},
      Meets (beginSinks environment recordType totalRecords totalBytes (List.range' begun count))
        (Run.At begun (fun _ => []) batches plan prepared)
        (fun _ => Run.At (begun + count) (fun _ => []) batches plan prepared)
        (fun _ => Run.Within [] batches plan prepared)
  | 0, _ => .pure fun _ h => h
  | count + 1, begun => by
    rw [List.range'_succ, beginSinks]
    refine .bind (Q := fun _ run =>
        { run with begun := begun + 1 }.At (begun + 1) (fun _ => []) batches plan prepared)
      (call_meets fun run h => h.toBegin) fun status => ?_
    refine .modify_then (Run.At (begun + 1) (fun _ => []) batches plan prepared) (fun run h => h) ?_
    refine .demand_then (fun run h _ =>
      (@Run.At.congr _ _ _ _ _ _ (noteSink begun run) h rfl rfl rfl rfl).within) fun _ => ?_
    exact beginSinks_meets.mono (fun _ h => h) (fun _ run h => by
      rwa [Nat.add_right_comm, Nat.add_assoc] at h) fun _ _ h => h

variable {history : ℕ → List SinkCall}

theorem Run.At.pass {record : SinkCall} {sink : ℕ} {event : Event}
    (h : run.At begun (passed history record sink) batches plan prepared) (hlt : sink < begun)
    (hsink : ∀ index, sinkCall index event = if sink = index then some record else none)
    (hoffered : offeredBatch event = none) (hprepare : event.isPrepare = false)
    (habort : event.isAbortProducer = false) :
    { run with trace := run.trace ++ [event] }.At begun (passed history record (sink + 1)) batches
      plan prepared :=
  (h.toSink hlt hsink hoffered hprepare habort).of_history fun index _ =>
    (passed_succ history record sink index).symm

theorem stageBatchToSinks_pass {batch : CanonicalBatch} {batchIndex : UInt64} :
    ∀ {count sink : ℕ}, sink + count = begun →
      Meets (stageBatchToSinks environment batch batchIndex (List.range' sink count))
        (Run.At begun (passed (fun _ => calls) (.staged batch) sink) batches plan prepared)
        (fun _ => Run.At begun (passed (fun _ => calls) (.staged batch) begun) batches plan prepared)
        (fun _ => Run.Within (calls ++ [.staged batch]) batches plan prepared)
  | 0, sink, hcount => .pure fun _ h => by
    obtain rfl : sink = begun := hcount
    exact h
  | count + 1, sink, hcount => by
    rw [List.range'_succ, stageBatchToSinks]
    refine .bind (Q := fun _ =>
        Run.At begun (passed (fun _ => calls) (.staged batch) (sink + 1)) batches plan prepared)
      (call_meets fun run h => h.pass (by omega) (fun _ => rfl) rfl rfl rfl) fun status => ?_
    refine .demand_then (fun run h _ =>
      ⟨_, _, h.congr rfl rfl rfl rfl, passed_prefix (fun _ => calls) (.staged batch) (sink + 1)⟩) fun _ => ?_
    exact stageBatchToSinks_pass (by omega)

variable {sinkCount : ℕ}

theorem stageBatchToSinks_meets {batch : CanonicalBatch} {batchIndex : UInt64} :
    Meets (stageBatchToSinks environment batch batchIndex (List.range sinkCount))
      (Run.At sinkCount (fun _ => calls) batches plan prepared)
      (fun _ => Run.At sinkCount (fun _ => calls ++ [.staged batch]) batches plan prepared)
      (fun _ => Run.Within (calls ++ [.staged batch]) batches plan prepared) := by
  rw [List.range_eq_range']
  exact (stageBatchToSinks_pass (Nat.zero_add sinkCount)).mono
    (fun run h => h.of_history fun sink _ => (passed_zero (fun _ => calls) _ sink).symm)
    (fun _ run h => h.of_history fun sink hlt => passed_of_lt hlt) fun _ _ h => h

theorem sealSinksFrom_pass {streamFingerprint : Digest256} :
    ∀ {count sink : ℕ} {artifactHasher : List UInt8}, sink + count = begun →
      Meets (sealSinksFrom environment begun streamFingerprint artifactHasher (List.range' sink count))
        (Run.At begun (passed (fun _ => calls) (.sealed streamFingerprint) sink) batches plan prepared)
        (fun _ => Run.At begun (passed (fun _ => calls) (.sealed streamFingerprint) begun) batches plan prepared)
        (fun _ => Run.Within (calls ++ [.sealed streamFingerprint]) batches plan prepared)
  | 0, sink, _, hcount => .pure fun _ h => by
    obtain rfl : sink = begun := hcount
    exact h
  | count + 1, sink, _, hcount => by
    rw [List.range'_succ, sealSinksFrom]
    refine .bind (Q := fun _ =>
        Run.At begun (passed (fun _ => calls) (.sealed streamFingerprint) (sink + 1)) batches plan prepared)
      (call_meets fun run h => h.pass (by omega) (fun _ => rfl) rfl rfl rfl) fun result => ?_
    refine .demand_then (fun run h _ =>
      ⟨_, _, h.congr rfl rfl rfl rfl, passed_prefix (fun _ => calls) (.sealed streamFingerprint) (sink + 1)⟩)
      fun _ => ?_
    refine .modify_then
      (Run.At begun (passed (fun _ => calls) (.sealed streamFingerprint) (sink + 1)) batches plan prepared)
      (fun run h => h.congr rfl rfl rfl rfl) ?_
    exact sealSinksFrom_pass (by omega)

theorem sealSinks_meets {blake3 : Blake3} : Meets (sealSinks environment blake3 sinkCount)
      (Run.At sinkCount (fun _ => calls) batches plan prepared) (fun _ run => ∃ fingerprint,
        run.At sinkCount (fun _ => calls ++ [.sealed fingerprint]) batches plan prepared)
      (fun _ run => ∃ fingerprint, run.Within (calls ++ [.sealed fingerprint]) batches plan prepared) := by
  rw [sealSinks]
  refine .get_then fun before => ?_
  rw [List.range_eq_range']
  refine .bind (Q := fun _ run => ∃ fingerprint,
      run.At sinkCount (fun _ => calls ++ [.sealed fingerprint]) batches plan prepared)
    ((sealSinksFrom_pass (Nat.zero_add sinkCount)).mono
      (fun run h => h.1.of_history fun sink _ => (passed_zero (fun _ => calls) _ sink).symm)
      (fun _ run h => ⟨_, h.of_history fun sink hlt => passed_of_lt hlt⟩) fun _ _ h => ⟨_, h⟩)
    fun artifactHasher => .modify fun run h => ?_
  obtain ⟨fingerprint, h⟩ := h
  exact ⟨fingerprint, h.congr rfl rfl rfl rfl⟩

/-! ## The parts before the first call -/

theorem prepareSinkArtifactOutput_meets {required : Bool} :
    Invariant (prepareSinkArtifactOutput sinkCount required) (Run.At begun history batches plan prepared) := by
  rw [prepareSinkArtifactOutput]
  refine .get_then fun before => ?_
  cases before.artifactOutput with
  | none => exact .ite (fun _ => .pure fun _ h => h.1) fun _ => .throw fun _ h => h.1
  | some output =>
    refine .modify_then (Run.At begun history batches plan prepared)
      (fun run h => h.1.congr rfl rfl rfl rfl) ?_
    exact .ite (fun _ => .pure fun _ h => h) fun _ => .throw fun _ h => h

theorem recordContext_meets {blake3 : Blake3} {context : Context} :
    Invariant (recordContext blake3 context) (Run.At begun history batches plan prepared) := by
  rw [recordContext]
  refine .modify_then (Run.At begun history batches plan prepared) (fun run h => h.congr rfl rfl rfl rfl) ?_
  by_cases hstatus : (contextFingerprint blake3 context).1 = .ok
  · rw [dif_pos hstatus]
    exact .pure fun _ h => h
  · rw [dif_neg hstatus]
    exact .throw fun _ h => h

theorem validateSinks_meets {sinks : List Sink} :
    Invariant (validateSinks sinks) (Run.At begun history batches plan prepared) := by
  rw [validateSinks]
  refine .require_then (fun _ h _ => h) fun _ => ?_
  exact .demand (fun _ h _ => h) fun run h _ => h.congr rfl rfl rfl rfl

/-! ## Aborting -/

theorem abortSinks_pass : ∀ {count sink : ℕ} {run : Run}, sink + count = begun →
      run.At begun (passed history .aborted sink) batches plan prepared →
      (abortSinks (List.range' sink count) run).At begun (passed history .aborted begun) batches
        plan prepared
  | 0, sink, run, hcount, h => by
    obtain rfl : sink = begun := hcount
    exact h
  | count + 1, sink, run, hcount, h => by
    rw [List.range'_succ, abortSinks]
    exact abortSinks_pass (by omega) (h.pass (by omega) (fun _ => rfl) rfl rfl rfl)

theorem abortSinks_at (h : run.At begun history batches plan prepared) :
    (abortSinks (List.range begun) run).At begun (fun sink => history sink ++ [.aborted]) batches
      plan prepared := by
  rw [List.range_eq_range']
  exact (abortSinks_pass (Nat.zero_add begun)
    (h.of_history fun sink _ => (passed_zero history _ sink).symm)).of_history
    fun sink hlt => passed_of_lt hlt

end Loops

/-! ## The protocol of one sink -/

theorem append_cons_unique {α : Type*} {p : α → Prop} {before after front back : List α} {x y : α}
    (hfront : ∀ z ∈ front, ¬ p z) (hback : ∀ z ∈ back, ¬ p z) (hx : p x)
    (h : before ++ x :: after = front ++ y :: back) : before = front ∧ after = back := by
  rcases List.append_eq_append_iff.1 h with ⟨middle, hmiddle, htail⟩ | ⟨middle, hmiddle, htail⟩
  · cases middle with
    | nil =>
      rw [List.append_nil] at hmiddle
      injection htail with _ htail
      exact ⟨hmiddle.symm, htail⟩
    | cons z middle =>
      injection htail with hhead _
      exact absurd (hhead ▸ hx) (hfront z (by simp [hmiddle]))
  · cases middle with
    | nil =>
      rw [List.append_nil] at hmiddle
      injection htail with _ htail
      exact ⟨hmiddle, htail.symm⟩
    | cons z middle =>
      injection htail with _ htail
      exact absurd hx (hback x (by simp [htail]))

/-- The calls to one sink in a run over `batches`: a sink that has begun is aborted once if the run
fails, and never if it does not; the abort is the last call; and what comes before a seal are the
begin and all the batches in order. -/
structure SinkProtocol (succeeded : Prop) (batches : List CanonicalBatch)
    (calls : List SinkCall) : Prop where
  begun_first : calls = [] ∨ ∃ rest, calls = .begun :: rest
  aborted_once : .begun ∈ calls → ¬ succeeded → calls.countP SinkCall.isAborted = 1
  not_aborted : succeeded → calls.countP SinkCall.isAborted = 0
  abort_last : ∀ before after, calls = before ++ .aborted :: after → after = []
  sealed_after : ∀ fingerprint before after, calls = before ++ .sealed fingerprint :: after →
    before = .begun :: batches.map .staged

namespace SinkProtocol

variable {succeeded : Prop} {batches : List CanonicalBatch}

theorem uncalled : SinkProtocol succeeded batches [] where
  begun_first := .inl rfl
  aborted_once h := by simp at h
  not_aborted _ := rfl
  abort_last before after h := by simp at h
  sealed_after fingerprint before after h := by simp at h

theorem countP_staged (batches : List CanonicalBatch) :
    (batches.map SinkCall.staged).countP SinkCall.isAborted = 0 := by
  rw [List.countP_eq_zero]
  simp [SinkCall.isAborted]

theorem complete (fingerprint : Digest256) (h : succeeded) : SinkProtocol succeeded batches
      (.begun :: (batches.map .staged ++ [.sealed fingerprint])) where
  begun_first := .inr ⟨_, rfl⟩
  aborted_once _ hfailed := absurd h hfailed
  not_aborted _ := by
    rw [List.countP_cons, List.countP_append, countP_staged]
    rfl
  abort_last before after h := by
    have : SinkCall.aborted ∈ SinkCall.begun :: (batches.map .staged ++ [.sealed fingerprint]) := by
      simp [h]
    simp at this
  sealed_after fingerprint' before after h :=
    (@append_cons_unique _ SinkCall.IsSealed _ _ (.begun :: batches.map .staged) [] _ _
      (by simp [SinkCall.IsSealed]) (by simp) ⟨_, rfl⟩ h.symm).1

theorem aborted {history : List SinkCall} {fingerprint : Digest256}
    (h : history <+: batches.map .staged ++ [.sealed fingerprint]) (hfailed : ¬ succeeded) :
    SinkProtocol succeeded batches (.begun :: (history ++ [.aborted])) where
  begun_first := .inr ⟨_, rfl⟩
  aborted_once _ _ := by
    have hcount : history.countP SinkCall.isAborted = 0 := by
      have := h.sublist.countP_le (p := SinkCall.isAborted)
      rw [List.countP_append, countP_staged] at this
      exact Nat.le_zero.1 this
    rw [List.countP_cons, List.countP_append, hcount]
    rfl
  not_aborted hsucceeded := absurd hsucceeded hfailed
  abort_last before after heq := by
    refine (@append_cons_unique _ (· = .aborted) _ _ (.begun :: history) [] _ _
      (fun call hcall => ?_) (by simp) rfl heq.symm).2
    rcases List.mem_cons.1 hcall with rfl | hcall
    · simp
    · rintro rfl
      have := h.subset hcall
      simp at this
  sealed_after fingerprint' before after heq := by
    rcases List.prefix_concat_iff.1 h with rfl | h
    · refine (@append_cons_unique _ SinkCall.IsSealed _ after
        (.begun :: batches.map .staged) [.aborted] (.sealed fingerprint') (.sealed fingerprint)
        (by simp [SinkCall.IsSealed]) (by simp [SinkCall.IsSealed])
        ⟨_, rfl⟩ ?_).1
      rw [← heq]
      simp
    · have hmem : SinkCall.sealed fingerprint' ∈ SinkCall.begun :: (history ++ [.aborted]) := by
        rw [heq]
        simp
      have hhistory : SinkCall.sealed fingerprint' ∈ history := by simpa using hmem
      have := h.subset hhistory
      simp at this

end SinkProtocol

end Laplace.Framework
