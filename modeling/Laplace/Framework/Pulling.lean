import Laplace.Framework.Replay
import Laplace.Framework.Staging

/-!
# Pulling the batches of a producer (framework.c:1051-1170)

What the loop of `run_producer` does when the producer yields a given list of batches: it counts
them, hands each to the sinks and compares the checkpoint to replay once.
-/

namespace Laplace.Framework

open Program Checked

/-- A producer that yields `batches`, with a cursor after each, and ends. -/
structure Environment.Yields (environment : Environment) (plan : ProducerPlan)
    (batches : List CanonicalBatch) (cursors : ℕ → Digest256) (completion : Digest256) : Prop where
  prepare : ∀ trace, environment.prepare trace = (.ok, plan)
  next : ∀ trace (index : UInt64) batch, batches[index.toNat]? = some batch →
    environment.next trace index = (.ok, batch, cursors index.toNat)
  finish : ∀ trace, environment.finish trace = (.ok, completion)
  count : batches.length = plan.batchCount.toNat

/-! ## What a run does besides calling the sinks -/

section Updates

variable (blake3 : Blake3) (sourceFingerprint recipeFingerprint : Digest256)

def Run.ofSource (run : Run) : Run :=
  { run with
    receipt.stream.sourceFingerprint := sourceFingerprint
    receipt.stream.recipeFingerprint := recipeFingerprint }

/-- What a plan puts into the receipt and the hashers. -/
def Run.withPlan (plan : ProducerPlan) (run : Run) : Run :=
  { run with
    receipt.stream.batchCount := plan.batchCount
    receipt.stream.totalRecords := plan.totalRecords
    receipt.stream.totalBytes := plan.totalBytes
    receipt.stream.recordType := plan.recordType
    receipt.planFingerprint := blake3 (producerPlanBytes run.receipt.stream.contextFingerprint
      sourceFingerprint recipeFingerprint plan)
    streamHasher := Framework.streamHasher plan.recordType plan.totalRecords plan.totalBytes
    prefixHasher := Framework.prefixHasher plan.recordType }

/-- The checkpoint to replay was reached. -/
def Run.reach (completedBatches : UInt64) (replay : Option ReplayCheckpoint) (run : Run) : Run :=
  match replay with
  | none => run
  | some replay =>
    if replay.completedBatches = completedBatches then { run with replayVerified := true } else run

def Run.noteReplay (replay : Option ReplayCheckpoint) (run : Run) : Run :=
  match replay with
  | none => run
  | some replay => { run with receipt.replayCheckpointId := replay.checkpointId }

/-- The control has observed the checkpoint. -/
def Run.observe (run : Run) : Run :=
  { run.calls [.observeProgress run.receipt.checkpoint] with
    receipt.progressEvents := run.receipt.progressEvents + 1 }

def Run.complete (batch : CanonicalBatch) (run : Run) : Run :=
  { run with
    completedRecords := run.completedRecords + batch.recordCount
    completedBytes := run.completedBytes + batch.byteCount }

def Run.feed (batchIndex : UInt64) (batch : CanonicalBatch) (run : Run) : Run :=
  { run with
    streamHasher := run.streamHasher ++ batch.bytes
    prefixHasher := updatePrefixHasher run.prefixHasher batchIndex batch }

end Updates

section Steps

variable {environment : Environment} {blake3 : Blake3}
  {sourceFingerprint recipeFingerprint : Digest256} {plan : ProducerPlan}
  {batches : List CanonicalBatch} {cursors : ℕ → Digest256} {completion : Digest256}
  {replay : Option ReplayCheckpoint}

variable {run : Run} {post : Unit → Run → Prop}

theorem checkCancelled_succeeds (h : ∀ trace, environment.cancelRequested trace = false) :
    Succeeds (checkCancelled environment) run post ↔ post () (run.calls [.cancelRequested]) := by
  rw [checkCancelled, succeeds_call_then, succeeds_require, h]
  exact and_iff_right rfl

theorem observeProgress_succeeds :
    Succeeds observeProgress run post ↔ post () run.observe := by
  rw [observeProgress, succeeds_get_then, succeeds_call_then]
  rfl

theorem reachReplay_succeeds {completedBatches : UInt64} :
    Succeeds (reachReplay completedBatches replay) run post ↔
      (∀ checkpoint, replay = some checkpoint → checkpoint.completedBatches = completedBatches →
        checkpoint.checkpointId = run.receipt.checkpoint.checkpointId) ∧
      post () (run.reach completedBatches replay) := by
  cases replay with
  | none => exact ⟨fun h => ⟨nofun, h⟩, fun h => h.2⟩
  | some checkpoint =>
    rw [reachReplay, Run.reach]
    split
    · rename_i hreached
      rw [compareReplay, succeeds_get_then, succeeds_require_then]
      refine and_congr_left fun _ => ⟨fun hid _ heq _ => ?_, fun h => h _ rfl hreached⟩
      cases heq
      exact hid
    · rename_i hother
      refine ⟨fun h => ⟨fun _ heq hsame => ?_, h⟩, fun h => h.2⟩
      cases heq
      exact absurd hsame hother

theorem openReplay_succeeds :
    Succeeds (openReplay blake3 sourceFingerprint recipeFingerprint replay) run post ↔
      (∀ checkpoint, replay = some checkpoint →
        replayMatchesPlan blake3 checkpoint run.receipt.stream.contextFingerprint sourceFingerprint
            recipeFingerprint run.receipt.planFingerprint run.plan = true ∧
          (checkpoint.completedBatches = 0 →
            checkpoint.checkpointId = run.receipt.checkpoint.checkpointId)) ∧
      post () ((run.noteReplay replay).reach 0 replay) := by
  cases replay with
  | none => exact ⟨fun h => ⟨nofun, h⟩, fun h => h.2⟩
  | some checkpoint =>
    rw [openReplay, succeeds_modify_then, succeeds_get_then, succeeds_require_then, reachReplay_succeeds,
      ← and_assoc]
    refine and_congr_left fun _ => ⟨fun h other heq => ?_, fun h => ⟨(h _ rfl).1, fun other heq => ?_⟩⟩
    · cases heq
      exact ⟨h.1, h.2 _ rfl⟩
    · cases heq
      exact (h _ rfl).2

theorem preparePlan_eq (environment : Environment) (blake3 : Blake3)
    (sourceFingerprint recipeFingerprint : Digest256) :
    preparePlan environment blake3 sourceFingerprint recipeFingerprint = (do
      modify fun run => { run with producerPrepared := true }
      let (status, plan) ← call environment.prepare fun _ => .prepare
      Program.require (status = .ok) (failure .producerPrepareFailed)
      modify fun run => { run with plan }
      Program.require (plan.batchCount ≠ 0 ∧ plan.totalRecords ≠ 0 ∧ plan.totalBytes ≠ 0 ∧
        plan.recordType ≠ 0 ∧ plan.flags = knownProducerFlags ∧ plan.reserved = 0)
        (failure .producerInvalid)
      modify (Run.withPlan blake3 sourceFingerprint recipeFingerprint plan)
      modify (takeCheckpoint blake3 sourceFingerprint recipeFingerprint plan.initialCursorFingerprint 0)) :=
  rfl

/-- A plan that is not refused. -/
def ProducerPlan.Valid (plan : ProducerPlan) : Prop :=
  plan.batchCount ≠ 0 ∧ plan.totalRecords ≠ 0 ∧ plan.totalBytes ≠ 0 ∧ plan.recordType ≠ 0 ∧
    plan.flags = knownProducerFlags ∧ plan.reserved = 0

/-- The plan is in the run, and the first checkpoint is taken. -/
def Run.prepared (blake3 : Blake3) (sourceFingerprint recipeFingerprint : Digest256)
    (plan : ProducerPlan) (run : Run) : Run :=
  takeCheckpoint blake3 sourceFingerprint recipeFingerprint plan.initialCursorFingerprint 0
    (Run.withPlan blake3 sourceFingerprint recipeFingerprint plan
      { run.calls [.prepare] with producerPrepared := true, plan })

theorem preparePlan_succeeds (h : environment.Yields plan batches cursors completion) :
    Succeeds (preparePlan environment blake3 sourceFingerprint recipeFingerprint) run post ↔
      plan.Valid ∧ post () (run.prepared blake3 sourceFingerprint recipeFingerprint plan) := by
  rw [preparePlan_eq, succeeds_modify_then, succeeds_call_then, h.prepare]
  dsimp only
  rw [succeeds_require_then, succeeds_modify_then, succeeds_require_then, succeeds_modify_then,
    succeeds_modify]
  exact and_iff_right rfl

/-! ## One batch -/

/-- A batch is completed: it is counted, staged and hashed, and the checkpoint after it is taken. -/
def Run.completeBatch (blake3 : Blake3) (sourceFingerprint recipeFingerprint : Digest256)
    (sinkCount : ℕ) (batchIndex : UInt64) (batch : CanonicalBatch) (cursorFingerprint : Digest256)
    (run : Run) : Run :=
  takeCheckpoint blake3 sourceFingerprint recipeFingerprint cursorFingerprint (batchIndex + 1)
    ((((run.calls [.cancelRequested]).calls [.next batchIndex batch]).complete batch).calls
      (stageCalls sinkCount batch) |>.feed batchIndex batch)

theorem runBatch_eq (environment : Environment) (blake3 : Blake3)
    (sourceFingerprint recipeFingerprint : Digest256) (replay : Option ReplayCheckpoint)
    (sinkCount : ℕ) (batchIndex : UInt64) :
    runBatch environment blake3 sourceFingerprint recipeFingerprint replay sinkCount batchIndex = (do
      checkCancelled environment
      let (status, batch, cursorFingerprint) ← call (environment.next · batchIndex)
        fun result => .next batchIndex result.2.1
      requireBatch (status = .ok) batchIndex
      let run ← get
      requireBatch (batchAccepted run batch) batchIndex
      modify (Run.complete batch)
      let run ← get
      requireBatch (run.completedRecords ≤ run.plan.totalRecords ∧
        run.completedBytes ≤ run.plan.totalBytes) batchIndex
      stageBatchToSinks environment batch batchIndex (List.range sinkCount)
      modify (Run.feed batchIndex batch)
      modify (takeCheckpoint blake3 sourceFingerprint recipeFingerprint cursorFingerprint
        (batchIndex + 1))
      reachReplay (batchIndex + 1) replay
      observeProgress) := rfl

theorem runBatch_succeeds (h : environment.Yields plan batches cursors completion)
    (hcancel : ∀ trace, environment.cancelRequested trace = false) {sinkCount : ℕ}
    {batchIndex : UInt64} {batch : CanonicalBatch}
    (hbatch : batches[batchIndex.toNat]? = some batch) :
    Succeeds (runBatch environment blake3 sourceFingerprint recipeFingerprint replay sinkCount batchIndex)
      run post ↔
      let next := run.completeBatch blake3 sourceFingerprint recipeFingerprint sinkCount batchIndex batch
        (cursors batchIndex.toNat)
      batchAccepted run batch = true ∧
      (next.completedRecords ≤ run.plan.totalRecords ∧ next.completedBytes ≤ run.plan.totalBytes) ∧
      Accepted environment plan.recordType plan.totalRecords plan.totalBytes
        (run.trace ++ [.cancelRequested] ++ [.next batchIndex batch]) (stageCalls sinkCount batch) ∧
      (∀ checkpoint, replay = some checkpoint → checkpoint.completedBatches = batchIndex + 1 →
        checkpoint.checkpointId = next.receipt.checkpoint.checkpointId) ∧
      post () (next.reach (batchIndex + 1) replay).observe := by
  rw [runBatch_eq, succeeds_bind, checkCancelled_succeeds hcancel, succeeds_call_then,
    h.next _ _ _ hbatch]
  dsimp only
  rw [requireBatch, succeeds_demand_then, succeeds_get_then, requireBatch, succeeds_demand_then,
    succeeds_modify_then, succeeds_get_then, requireBatch, succeeds_demand_then, succeeds_bind,
    stageBatchToSinks_succeeds plan.recordType plan.totalRecords plan.totalBytes, succeeds_modify_then,
    succeeds_modify_then, succeeds_bind, reachReplay_succeeds, observeProgress_succeeds]
  exact and_iff_right rfl

end Steps

/-! ## Counting -/

variable {type : UInt32}

theorem countBatches_append : ∀ {left right : List CanonicalBatch} {records bytes : UInt64},
    countBatches type (left ++ right) records bytes =
      countBatches type left records bytes >>= fun counts => countBatches type right counts.1 counts.2
  | [], _, _, _ => rfl
  | batch :: left, right, records, bytes => by
    rw [List.cons_append, countBatches, countBatches]
    split
    · rfl
    · exact countBatches_append

variable {batch : CanonicalBatch}

theorem countBatches_singleton {records bytes records' bytes' : UInt64} :
    countBatches type [batch] records bytes = .ok (records', bytes') ↔
      (batch.canonicalBytes.isSome ∧ batch.byteCount ≠ 0 ∧ batch.recordCount ≠ 0 ∧
        batch.firstOrdinal = records ∧ batch.recordType = type ∧ batch.flags = knownBatchFlags ∧
        batch.recordCount ≤ maxWord - records ∧ batch.byteCount ≤ maxWord - bytes) ∧
      records' = records + batch.recordCount ∧ bytes' = bytes + batch.byteCount := by
  rw [countBatches]
  split
  · rename_i hbad
    refine ⟨nofun, fun hgood => ?_⟩
    obtain ⟨⟨hbytes, hcount, hrecords, hordinal, htype, hflags, hroom, hroom'⟩, -⟩ := hgood
    rcases hbad with h | h | h | h | h | h | h | h
    · rw [Option.isNone_iff_eq_none.1 h] at hbytes
      cases hbytes
    · exact absurd h hcount
    · exact absurd h hrecords
    · exact absurd hordinal h
    · exact absurd htype h
    · exact absurd hflags h
    · exact absurd h (UInt64.not_lt.2 hroom)
    · exact absurd h (UInt64.not_lt.2 hroom')
  · rename_i hgood
    simp only [not_or, Bool.not_eq_true, Option.isNone_eq_false_iff, UInt64.not_lt, Ne, not_not] at hgood
    rw [countBatches]
    constructor
    · intro h
      cases h
      exact ⟨hgood, rfl, rfl⟩
    · rintro ⟨-, rfl, rfl⟩
      rfl

theorem batchAccepted_iff {run : Run} :
    batchAccepted run batch = true ↔ countBatches run.plan.recordType [batch] run.completedRecords
      run.completedBytes =
        .ok (run.completedRecords + batch.recordCount, run.completedBytes + batch.byteCount) := by
  rw [countBatches_singleton, batchAccepted]
  simp only [Bool.and_eq_true, beq_iff_eq, bne_iff_ne, decide_eq_true_eq, and_assoc, and_true]

theorem countBatches_cons_ok {batches : List CanonicalBatch}
    {records bytes records' bytes' : UInt64}
    (h : countBatches type (batch :: batches) records bytes = .ok (records', bytes')) :
    countBatches type [batch] records bytes =
        .ok (records + batch.recordCount, bytes + batch.byteCount) ∧
      countBatches type batches (records + batch.recordCount) (bytes + batch.byteCount) =
        .ok (records', bytes') := by
  rw [← List.singleton_append, countBatches_append] at h
  rcases hfirst : countBatches type [batch] records bytes with failed | ⟨records₁, bytes₁⟩
  · rw [hfirst] at h
    cases h
  · rw [hfirst] at h
    obtain ⟨-, rfl, rfl⟩ := countBatches_singleton.1 hfirst
    exact ⟨rfl, h⟩

theorem toNat_add_of_room {count more : UInt64} (h : more ≤ maxWord - count) :
    (count + more).toNat = count.toNat + more.toNat := by
  have hcount := le_maxWord count
  rw [UInt64.le_iff_toNat_le] at hcount
  rw [UInt64.le_iff_toNat_le, toNat_sub_of_le hcount] at h
  rw [toNat_maxWord] at h hcount
  exact toNat_add_of_lt (by omega)

theorem le_add_of_room {count more : UInt64} (h : more ≤ maxWord - count) :
    count ≤ count + more := by
  rw [UInt64.le_iff_toNat_le, toNat_add_of_room h]
  exact Nat.le_add_right _ _

theorem countBatches_le :
    ∀ {batches : List CanonicalBatch} {records bytes records' bytes' : UInt64},
    countBatches type batches records bytes = .ok (records', bytes') →
    records ≤ records' ∧ bytes ≤ bytes'
  | [], records, bytes, _, _, h => by
    cases h
    exact ⟨UInt64.le_refl _, UInt64.le_refl _⟩
  | batch :: batches, records, bytes, records', bytes', h => by
    obtain ⟨hfirst, hrest⟩ := countBatches_cons_ok h
    obtain ⟨⟨-, -, -, -, -, -, hroom, hroom'⟩, -⟩ := countBatches_singleton.1 hfirst
    obtain ⟨hrecords, hbytes⟩ := countBatches_le hrest
    exact ⟨UInt64.le_trans (le_add_of_room hroom) hrecords,
      UInt64.le_trans (le_add_of_room hroom') hbytes⟩

/-! ## The loop over the batches -/

section Loop

variable (environment : Environment) (blake3 : Blake3)
  (sourceFingerprint recipeFingerprint : Digest256) (plan : ProducerPlan) (cursors : ℕ → Digest256)
  (replay : Option ReplayCheckpoint) (sinkCount : ℕ)

/-- The cursor after some batches. -/
def cursorAfter : ℕ → Digest256
  | 0 => plan.initialCursorFingerprint
  | count + 1 => cursors count

/-- The checkpoint after the batches `done`. -/
def checkpointAt (contextFingerprint : Digest256) (done : List CanonicalBatch) (records bytes : UInt64) :
    ReplayCheckpoint :=
  setCheckpoint blake3 contextFingerprint sourceFingerprint recipeFingerprint plan
    (blake3 (producerPlanBytes contextFingerprint sourceFingerprint recipeFingerprint plan))
    (blake3 (prefixBytes plan.recordType done)) (cursorAfter plan cursors done.length)
    (UInt64.ofNat done.length) records bytes

/-- A run that was `base` before its first batch and has completed the batches `done`. -/
structure Run.Pulled (base : Run) (done : List CanonicalBatch) (run : Run) : Prop where
  plan_eq : run.plan = plan
  counted : countBatches plan.recordType done 0 0 = .ok (run.completedRecords, run.completedBytes)
  events_eq : sinkEvents run.trace = sinkEvents base.trace ++ done.flatMap (stageCalls sinkCount)
  stream_eq : run.receipt.stream = base.receipt.stream
  output_eq : run.artifactOutput = base.artifactOutput
  planFingerprint_eq : run.receipt.planFingerprint = blake3 (producerPlanBytes
    base.receipt.stream.contextFingerprint sourceFingerprint recipeFingerprint plan)
  streamHasher_eq : run.streamHasher = done.foldl (fun hasher batch => hasher ++ batch.bytes)
    (Framework.streamHasher plan.recordType plan.totalRecords plan.totalBytes)
  prefixHasher_eq : run.prefixHasher = prefixBytes plan.recordType done
  verified_iff : run.replayVerified = true ↔
    ∃ checkpoint, replay = some checkpoint ∧ checkpoint.completedBatches.toNat ≤ done.length

/-- The next batch is accepted by the run and by the sinks, and the checkpoint after it is the one to
replay when that was taken after as many batches. -/
def NextAccepted (base : Run) (done : List CanonicalBatch) (batch : CanonicalBatch) : Prop :=
  ∃ records bytes, countBatches plan.recordType (done ++ [batch]) 0 0 = .ok (records, bytes) ∧
    (records ≤ plan.totalRecords ∧ bytes ≤ plan.totalBytes) ∧
    Accepted environment plan.recordType plan.totalRecords plan.totalBytes
      (sinkEvents base.trace ++ done.flatMap (stageCalls sinkCount)) (stageCalls sinkCount batch) ∧
    ∀ checkpoint, replay = some checkpoint →
      checkpoint.completedBatches = UInt64.ofNat (done.length + 1) →
      checkpoint.checkpointId = (checkpointAt blake3 sourceFingerprint recipeFingerprint plan cursors
        base.receipt.stream.contextFingerprint (done ++ [batch]) records bytes).checkpointId

variable {environment blake3 sourceFingerprint recipeFingerprint plan cursors replay sinkCount}
variable {batches done : List CanonicalBatch} {completion : Digest256} {base run : Run}

theorem all_isSink_stageCalls (batch : CanonicalBatch) :
    (stageCalls sinkCount batch).all Event.isSink = true := by
  rw [stageCalls, List.all_map, List.all_eq_true]
  exact fun _ _ => rfl

theorem sinkEvents_stageCalls (batch : CanonicalBatch) :
    sinkEvents (stageCalls sinkCount batch) = stageCalls sinkCount batch :=
  List.filter_eq_self.2 (List.all_eq_true.1 (all_isSink_stageCalls batch))

theorem Run.Pulled.sinkEvents_next
    (h : base.Pulled blake3 sourceFingerprint recipeFingerprint plan replay sinkCount done run)
    (batchIndex : UInt64) (batch : CanonicalBatch) :
    sinkEvents (run.trace ++ [.cancelRequested] ++ [.next batchIndex batch]) =
      sinkEvents base.trace ++ done.flatMap (stageCalls sinkCount) := by
  rw [sinkEvents_append, sinkEvents_append, h.events_eq]
  exact (List.append_nil _).trans (List.append_nil _)

theorem Run.reach_completed {completedBatches : UInt64} (run : Run) :
    run.reach completedBatches replay = { run with
      replayVerified := run.replayVerified || replay.any (·.completedBatches = completedBatches) } := by
  cases replay with
  | none => rw [Run.reach, Option.any_none, Bool.or_false]
  | some checkpoint =>
    rw [Run.reach, Option.any_some]
    split
    · rename_i hreached
      rw [decide_eq_true hreached, Bool.or_true]
    · rename_i hother
      rw [decide_eq_false hother, Bool.or_false]

variable {batch : CanonicalBatch}

theorem Run.Pulled.next
    (h : base.Pulled blake3 sourceFingerprint recipeFingerprint plan replay sinkCount done run)
    (hlength : done.length + 1 < 2 ^ 64) (haccepted : batchAccepted run batch = true)
    (cursorFingerprint : Digest256) :
    base.Pulled blake3 sourceFingerprint recipeFingerprint plan replay sinkCount (done ++ [batch])
      (((run.completeBatch blake3 sourceFingerprint recipeFingerprint sinkCount
        (UInt64.ofNat done.length) batch cursorFingerprint).reach (UInt64.ofNat done.length + 1)
          replay).observe) := by
  have hnext : UInt64.ofNat done.length + 1 = UInt64.ofNat (done.length + 1) :=
    (UInt64.ofNat_add done.length 1).symm
  have hnat : (UInt64.ofNat (done.length + 1)).toNat = done.length + 1 :=
    toNat_ofNat hlength
  rw [Run.reach_completed, hnext]
  refine ⟨h.plan_eq, ?_, ?_, h.stream_eq, h.output_eq, h.planFingerprint_eq, ?_, ?_, ?_⟩
  · have hbatch := batchAccepted_iff.1 haccepted
    rw [h.plan_eq] at hbatch
    rw [countBatches_append, h.counted]
    exact hbatch
  · change sinkEvents ((run.trace ++ [.cancelRequested] ++ [.next _ batch] ++
      stageCalls sinkCount batch) ++ [_]) = _
    rw [sinkEvents_append, sinkEvents_append, h.sinkEvents_next, sinkEvents_stageCalls,
      List.flatMap_append, List.flatMap_singleton, ← List.append_assoc]
    exact List.append_nil _
  · change run.streamHasher ++ batch.bytes = _
    rw [h.streamHasher_eq, List.foldl_append]
    rfl
  · change updatePrefixHasher run.prefixHasher _ batch = _
    rw [h.prefixHasher_eq, updatePrefixHasher_prefixBytes]
  · change (run.replayVerified || replay.any _) = true ↔ _
    rw [Bool.or_eq_true, h.verified_iff, List.length_append, List.length_singleton]
    cases replay with
    | none => simp
    | some checkpoint =>
      rw [Option.any_some, decide_eq_true_iff, ← UInt64.toNat_inj, hnat]
      simp only [Option.some.injEq, exists_eq_left']
      omega

theorem Run.Pulled.checkpoint_next
    (h : base.Pulled blake3 sourceFingerprint recipeFingerprint plan replay sinkCount done run)
    (batch : CanonicalBatch) :
    (run.completeBatch blake3 sourceFingerprint recipeFingerprint sinkCount (UInt64.ofNat done.length)
      batch (cursors done.length)).receipt.checkpoint =
        checkpointAt blake3 sourceFingerprint recipeFingerprint plan cursors
          base.receipt.stream.contextFingerprint (done ++ [batch])
          (run.completedRecords + batch.recordCount) (run.completedBytes + batch.byteCount) := by
  have hlength : (done ++ [batch]).length = done.length + 1 := by
    rw [List.length_append, List.length_singleton]
  rw [checkpointAt, hlength, cursorAfter, UInt64.ofNat_add, ← updatePrefixHasher_prefixBytes,
    ← h.prefixHasher_eq, ← h.planFingerprint_eq, ← h.stream_eq, ← h.plan_eq]
  rfl

theorem Run.Pulled.succeeds
    (h : base.Pulled blake3 sourceFingerprint recipeFingerprint plan replay sinkCount done run)
    (hyields : environment.Yields plan batches cursors completion)
    (hcancel : ∀ trace, environment.cancelRequested trace = false) (hsinks : environment.SinksAlone)
    (hlength : done.length + 1 < 2 ^ 64) (hbatch : batches[done.length]? = some batch)
    {post : Unit → Run → Prop} :
    Succeeds (runBatch environment blake3 sourceFingerprint recipeFingerprint replay sinkCount
      (UInt64.ofNat done.length)) run post ↔
      NextAccepted environment blake3 sourceFingerprint recipeFingerprint plan cursors replay sinkCount
        base done batch ∧
      post () ((run.completeBatch blake3 sourceFingerprint recipeFingerprint sinkCount
        (UInt64.ofNat done.length) batch (cursors done.length)).reach (UInt64.ofNat done.length + 1)
          replay).observe := by
  have hnat : (UInt64.ofNat done.length).toNat = done.length :=
    toNat_ofNat (by omega)
  have hcounted : countBatches plan.recordType (done ++ [batch]) 0 0 =
      countBatches plan.recordType [batch] run.completedRecords run.completedBytes := by
    rw [countBatches_append, h.counted]
    rfl
  rw [runBatch_succeeds hyields hcancel (by rwa [hnat])]
  dsimp only
  rw [hnat, h.checkpoint_next, accepted_sinkEvents hsinks (all_isSink_stageCalls batch), h.sinkEvents_next,
    batchAccepted_iff, h.plan_eq, ← hcounted]
  constructor
  · rintro ⟨hcount, hbound, haccepted, hreplay, hpost⟩
    refine ⟨⟨_, _, hcount, hbound, haccepted, fun checkpoint hcheckpoint hreached => ?_⟩, hpost⟩
    exact hreplay checkpoint hcheckpoint (hreached.trans (UInt64.ofNat_add done.length 1))
  · rintro ⟨⟨records, bytes, hcount, hbound, haccepted, hreplay⟩, hpost⟩
    obtain ⟨-, rfl, rfl⟩ := countBatches_singleton.1 (hcounted.symm.trans hcount)
    refine ⟨hcount, hbound, haccepted, fun checkpoint hcheckpoint hreached => ?_, hpost⟩
    exact hreplay checkpoint hcheckpoint (hreached.trans (UInt64.ofNat_add done.length 1).symm)

theorem NextAccepted.accepted
    (h : NextAccepted environment blake3 sourceFingerprint recipeFingerprint plan cursors replay
      sinkCount base done batch)
    (hpulled : base.Pulled blake3 sourceFingerprint recipeFingerprint plan replay sinkCount done run) :
    batchAccepted run batch = true := by
  obtain ⟨records, bytes, hcount, -⟩ := h
  rw [countBatches_append, hpulled.counted] at hcount
  obtain ⟨hgood, -⟩ := countBatches_singleton.1 hcount
  rw [batchAccepted_iff, hpulled.plan_eq]
  exact countBatches_singleton.2 ⟨hgood, rfl, rfl⟩

/-- Every one of the batches that are left is accepted. -/
def AllAccepted (environment : Environment) (blake3 : Blake3)
    (sourceFingerprint recipeFingerprint : Digest256) (plan : ProducerPlan) (cursors : ℕ → Digest256)
    (replay : Option ReplayCheckpoint) (sinkCount : ℕ) (base : Run) :
    List CanonicalBatch → List CanonicalBatch → Prop
  | _, [] => True
  | done, batch :: rest =>
    NextAccepted environment blake3 sourceFingerprint recipeFingerprint plan cursors replay sinkCount
      base done batch ∧
    AllAccepted environment blake3 sourceFingerprint recipeFingerprint plan cursors replay sinkCount base
      (done ++ [batch]) rest

/-- **The loop.** -/
theorem runBatches_succeeds (hyields : environment.Yields plan batches cursors completion)
    (hcancel : ∀ trace, environment.cancelRequested trace = false) (hsinks : environment.SinksAlone) :
    ∀ {rest done : List CanonicalBatch} {run : Run}, batches = done ++ rest → batches.length < 2 ^ 64 →
    base.Pulled blake3 sourceFingerprint recipeFingerprint plan replay sinkCount done run →
    ∀ {post : Unit → Run → Prop},
    (Succeeds (runBatches environment blake3 sourceFingerprint recipeFingerprint replay sinkCount
      rest.length (UInt64.ofNat done.length)) run post →
      AllAccepted environment blake3 sourceFingerprint recipeFingerprint plan cursors replay sinkCount
        base done rest) ∧
    (AllAccepted environment blake3 sourceFingerprint recipeFingerprint plan cursors replay sinkCount
      base done rest →
      (∀ run', base.Pulled blake3 sourceFingerprint recipeFingerprint plan replay sinkCount batches run' →
        post () run') →
      Succeeds (runBatches environment blake3 sourceFingerprint recipeFingerprint replay sinkCount
        rest.length (UInt64.ofNat done.length)) run post)
  | [], done, run, hsplit, _, hpulled, post => by
    rw [List.append_nil] at hsplit
    exact ⟨fun _ => trivial, fun _ hpost => hpost run (hsplit ▸ hpulled)⟩
  | batch :: rest, done, run, hsplit, hcount, hpulled, post => by
    have hbatch : batches[done.length]? = some batch := by
      rw [hsplit, List.getElem?_append_right (Nat.le_refl _), Nat.sub_self]
      rfl
    have hlength : done.length + 1 < 2 ^ 64 := by
      rw [hsplit, List.length_append, List.length_cons] at hcount
      omega
    have hnext : UInt64.ofNat done.length + 1 = UInt64.ofNat (done ++ [batch]).length := by
      rw [List.length_append, List.length_singleton, UInt64.ofNat_add]
      rfl
    have hsplit' : batches = done ++ [batch] ++ rest := by
      rw [hsplit, List.append_assoc, List.singleton_append]
    rw [List.length_cons, runBatches, succeeds_bind, hpulled.succeeds hyields hcancel hsinks hlength hbatch,
      AllAccepted]
    constructor
    · rintro ⟨haccepted, hrest⟩
      have hpulled' := hpulled.next hlength (haccepted.accepted hpulled) (cursors done.length)
      rw [hnext] at hrest hpulled'
      exact ⟨haccepted, (runBatches_succeeds hyields hcancel hsinks hsplit' hcount hpulled').1 hrest⟩
    · rintro ⟨haccepted, hrest⟩ hpost
      have hpulled' := hpulled.next hlength (haccepted.accepted hpulled) (cursors done.length)
      rw [hnext] at hpulled' ⊢
      exact ⟨haccepted,
        (runBatches_succeeds hyields hcancel hsinks hsplit' hcount hpulled').2 hrest hpost⟩

theorem forall_split_cons {α : Type} {P : List α → α → Prop} {first : α} {rest : List α} :
    (∀ front element back, first :: rest = front ++ element :: back → P front element) ↔
      P [] first ∧ ∀ front element back, rest = front ++ element :: back → P (first :: front) element := by
  constructor
  · intro h
    exact ⟨h [] first rest rfl, fun front element back hsplit =>
      h (first :: front) element back (congrArg (first :: ·) hsplit)⟩
  · rintro ⟨hfirst, hrest⟩ front element back hsplit
    cases front with
    | nil =>
      cases hsplit
      exact hfirst
    | cons other front =>
      rw [List.cons_append, List.cons.injEq] at hsplit
      obtain ⟨rfl, hsplit⟩ := hsplit
      exact hrest front element back hsplit

theorem allAccepted_iff : ∀ {rest done : List CanonicalBatch},
    AllAccepted environment blake3 sourceFingerprint recipeFingerprint plan cursors replay sinkCount base
      done rest ↔
      ∀ front batch back, rest = front ++ batch :: back →
        NextAccepted environment blake3 sourceFingerprint recipeFingerprint plan cursors replay sinkCount
          base (done ++ front) batch
  | [], done => ⟨fun _ front batch back h => absurd h (by simp), fun _ => trivial⟩
  | first :: rest, done => by
    rw [AllAccepted, allAccepted_iff, forall_split_cons, List.append_nil]
    simp only [List.append_assoc, List.singleton_append]

theorem accepted_flatMap {α : Type} {calls : α → List Event} {recordType : UInt32}
    {totalRecords totalBytes : UInt64} : ∀ {elements : List α} {trace : List Event},
    Accepted environment recordType totalRecords totalBytes trace (elements.flatMap calls) ↔
      ∀ front element back, elements = front ++ element :: back →
        Accepted environment recordType totalRecords totalBytes (trace ++ front.flatMap calls)
          (calls element)
  | [], trace => ⟨fun _ front element back h => absurd h (by simp), fun _ => trivial⟩
  | first :: elements, trace => by
    rw [List.flatMap_cons, accepted_append, accepted_flatMap, forall_split_cons, List.flatMap_nil,
      List.append_nil]
    simp only [List.flatMap_cons, List.append_assoc]

theorem counted_front {type : UInt32} {front back : List CanonicalBatch} {records bytes : UInt64}
    (h : countBatches type (front ++ back) 0 0 = .ok (records, bytes)) :
    ∃ records' bytes', countBatches type front 0 0 = .ok (records', bytes') ∧
      records' ≤ records ∧ bytes' ≤ bytes := by
  rw [countBatches_append] at h
  rcases hfront : countBatches type front 0 0 with failed | ⟨records', bytes'⟩
  · rw [hfront] at h
    cases h
  · rw [hfront] at h
    exact ⟨records', bytes', rfl, countBatches_le h⟩

/-- A checkpoint to replay agrees with the plan and has the identity of the one after as many of the
batches. -/
def ReplayAgrees (blake3 : Blake3) (sourceFingerprint recipeFingerprint : Digest256)
    (plan : ProducerPlan) (cursors : ℕ → Digest256) (contextFingerprint : Digest256)
    (batches : List CanonicalBatch) (checkpoint : ReplayCheckpoint) : Prop :=
  replayMatchesPlan blake3 checkpoint contextFingerprint sourceFingerprint recipeFingerprint
      (blake3 (producerPlanBytes contextFingerprint sourceFingerprint recipeFingerprint plan)) plan = true ∧
    ∃ front records bytes, front <+: batches ∧
      countBatches plan.recordType front 0 0 = .ok (records, bytes) ∧
      checkpoint.completedBatches = UInt64.ofNat front.length ∧
      checkpoint.checkpointId = (checkpointAt blake3 sourceFingerprint recipeFingerprint plan cursors
        contextFingerprint front records bytes).checkpointId

theorem length_of_ofNat {left right : List CanonicalBatch} (hleft : left.length < 2 ^ 64)
    (hright : right.length < 2 ^ 64) (h : UInt64.ofNat left.length = UInt64.ofNat right.length) :
    left.length = right.length := by
  have hnat := congrArg UInt64.toNat h
  rwa [toNat_ofNat hleft, toNat_ofNat hright] at hnat

theorem replayAgrees_iff {contextFingerprint : Digest256} {checkpoint : ReplayCheckpoint}
    {records bytes : UInt64} (hcount : countBatches plan.recordType batches 0 0 = .ok (records, bytes))
    (hlength : batches.length = plan.batchCount.toNat) :
    ReplayAgrees blake3 sourceFingerprint recipeFingerprint plan cursors contextFingerprint batches
        checkpoint ↔
      replayMatchesPlan blake3 checkpoint contextFingerprint sourceFingerprint recipeFingerprint
        (blake3 (producerPlanBytes contextFingerprint sourceFingerprint recipeFingerprint plan)) plan =
          true ∧
      (checkpoint.completedBatches = 0 → checkpoint.checkpointId = (checkpointAt blake3
        sourceFingerprint recipeFingerprint plan cursors contextFingerprint [] 0 0).checkpointId) ∧
      ∀ front batch back, batches = front ++ batch :: back →
        ∀ records bytes, countBatches plan.recordType (front ++ [batch]) 0 0 = .ok (records, bytes) →
          checkpoint.completedBatches = UInt64.ofNat (front.length + 1) →
          checkpoint.checkpointId = (checkpointAt blake3 sourceFingerprint recipeFingerprint plan cursors
            contextFingerprint (front ++ [batch]) records bytes).checkpointId := by
  have hlt := plan.batchCount.toNat_lt
  refine and_congr_right fun hmatches => ?_
  constructor
  · rintro ⟨front, records', bytes', hprefix, hfront, hcompleted, hid⟩
    have hle := hprefix.length_le
    refine ⟨fun hzero => ?_, fun front' batch back hsplit records'' bytes'' hcount' hcompleted' => ?_⟩
    · have hnone : UInt64.ofNat front.length = UInt64.ofNat ([] : List CanonicalBatch).length :=
        hcompleted.symm.trans hzero
      have hempty : front = [] :=
        List.eq_nil_of_length_eq_zero (length_of_ofNat (by omega) (by decide) hnone)
      rw [hempty] at hfront hid
      cases hfront
      exact hid
    · have hlength' : (front' ++ [batch]).length = front'.length + 1 := by
        rw [List.length_append, List.length_singleton]
      have hprefix' : front' ++ [batch] <+: batches := ⟨back, by rw [hsplit]; simp⟩
      have hle' := hprefix'.length_le
      have hsame : front = front' ++ [batch] := by
        refine List.IsPrefix.eq_of_length
          (List.prefix_of_prefix_length_le hprefix hprefix' (le_of_eq ?_)) ?_ <;>
        exact length_of_ofNat (by omega) (by omega) (by rw [hlength', ← hcompleted, hcompleted'])
      rw [hsame, hcount'] at hfront
      cases hfront
      rw [hid, hsame]
  · rintro ⟨hzero, hsteps⟩
    have hcompleted : checkpoint.completedBatches.toNat ≤ batches.length := by
      simp only [replayMatchesPlan, Bool.and_eq_true, decide_eq_true_eq] at hmatches
      have hle := hmatches.1.1.1.1.1.1.1.1.2
      rwa [UInt64.le_iff_toNat_le, ← hlength] at hle
    rcases hnat : checkpoint.completedBatches.toNat with _ | count
    · have hnone : checkpoint.completedBatches = 0 := UInt64.toNat_inj.1 hnat
      exact ⟨[], 0, 0, List.nil_prefix, rfl, hnone, hzero hnone⟩
    · have hbatch : count < batches.length := by omega
      have hsplit : batches = batches.take count ++ batches.get ⟨count, hbatch⟩ ::
          batches.drop (count + 1) := by
        rw [List.get_eq_getElem, List.getElem_cons_drop, List.take_append_drop]
      have htake : (batches.take count).length = count := List.length_take_of_le hbatch.le
      have hfront : batches = batches.take count ++ [batches.get ⟨count, hbatch⟩] ++
          batches.drop (count + 1) := by
        rw [List.append_assoc, List.singleton_append]
        exact hsplit
      have hdone : checkpoint.completedBatches = UInt64.ofNat ((batches.take count).length + 1) := by
        rw [htake, ← hnat, UInt64.ofNat_toNat]
      rw [hfront] at hcount
      obtain ⟨records', bytes', hcount', -⟩ := counted_front hcount
      refine ⟨_, records', bytes', ⟨_, hfront.symm⟩, hcount', ?_, hsteps _ _ _ hsplit _ _ hcount' hdone⟩
      rw [hdone, List.length_append, List.length_singleton]

end Loop

end Laplace.Framework
