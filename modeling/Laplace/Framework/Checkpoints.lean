import Laplace.Framework.Core
import Laplace.Framework.Encodings
import Laplace.Framework.Protocol

/-!
# The checkpoints of a run (framework.c:559-660, 1037-1067, 1140-1172)

Every checkpoint of a run is one of a front part of the batches it has completed; a run that is
given a checkpoint compares it with its own after as many batches.
-/

namespace Laplace.Framework

open Program

/-! ## The checkpoints of a run -/

/-- A checkpoint that a run has shown or written into its receipt. -/
def Core.Taken (core : Core) (checkpoint : ReplayCheckpoint) : Prop :=
  checkpoint.recordType ≠ 0 ∧ (checkpoint = core.checkpoint ∨ checkpoint ∈ core.observed)

/-- The run has taken a checkpoint after as many batches, with the same identity. -/
def Core.Agrees (core : Core) (checkpoint : ReplayCheckpoint) : Prop :=
  ∃ own, core.Taken own ∧ own.completedBatches = checkpoint.completedBatches ∧
    own.checkpointId = checkpoint.checkpointId

section Checkpoints

variable (blake3 : Blake3) (context : Context)
  (sourceFingerprint recipeFingerprint : Digest256)

/-- The checkpoint after some batches, but for the cursor and the counts. -/
def Core.checkpointAfter (core : Core) (front : List CanonicalBatch) (cursorFingerprint : Digest256)
    (completedRecords completedBytes : UInt64) : ReplayCheckpoint :=
  setCheckpoint blake3 core.contextFingerprint sourceFingerprint recipeFingerprint core.plan
    core.planFingerprint (blake3 (prefixBytes core.plan.recordType front)) cursorFingerprint
    (UInt64.ofNat front.length) completedRecords completedBytes

/-- The run has a plan, it has completed the batches `done`, and its checkpoints are of front parts
of them. -/
structure Core.Tracked (done : List CanonicalBatch) (core : Core) : Prop where
  context_valid : contextValidate context = .ok
  context_eq : core.contextFingerprint = blake3 (contextBytes context)
  plan_eq : core.planFingerprint = blake3 (producerPlanBytes core.contextFingerprint
    sourceFingerprint recipeFingerprint core.plan)
  type_ne : core.plan.recordType ≠ 0
  reserved_eq : core.plan.reserved = 0
  of_type : ∀ batch ∈ done, batch.OfType core.plan.recordType
  hasher_eq : core.prefixHasher = prefixBytes core.plan.recordType done
  done_le : done.length ≤ core.plan.batchCount.toNat
  done_prefix : done <+: core.offered
  taken : ∀ checkpoint, core.Taken checkpoint →
    ∃ front cursorFingerprint completedRecords completedBytes, front <+: done ∧
      checkpoint = core.checkpointAfter blake3 sourceFingerprint recipeFingerprint front
        cursorFingerprint completedRecords completedBytes

/-- The flag is set when the checkpoint to replay agrees with the plan and with the checkpoint of
the run after as many batches, and only then. -/
def Core.Verified (replay : Option ReplayCheckpoint) (core : Core) : Prop :=
  core.replayVerified = true ↔ ∃ checkpoint, replay = some checkpoint ∧
    replayMatchesPlan blake3 checkpoint core.contextFingerprint sourceFingerprint
      recipeFingerprint core.planFingerprint core.plan = true ∧
    core.Agrees checkpoint

/-- Where a run can end, with or without a plan. -/
def Core.Ended (replay : Option ReplayCheckpoint) (core : Core) : Prop :=
  core.Verified blake3 sourceFingerprint recipeFingerprint replay ∧
  ((∀ checkpoint, ¬ core.Taken checkpoint) ∨
    ∃ done, core.Tracked blake3 context sourceFingerprint recipeFingerprint done)

/-- The plan has `batchCount` batches, and a checkpoint to replay agrees with it. -/
def Core.Planned (replay : Option ReplayCheckpoint) (batchCount : ℕ) (core : Core) : Prop :=
  core.plan.batchCount.toNat = batchCount ∧
  ∀ checkpoint, replay = some checkpoint → replayMatchesPlan blake3 checkpoint
    core.contextFingerprint sourceFingerprint recipeFingerprint core.planFingerprint core.plan

/-- A run between two batches. -/
structure Core.Between (replay : Option ReplayCheckpoint) (batchCount : ℕ)
    (done : List CanonicalBatch) (core : Core) : Prop where
  planned : core.Planned blake3 sourceFingerprint recipeFingerprint replay batchCount
  tracked : core.Tracked blake3 context sourceFingerprint recipeFingerprint done
  verified : core.Verified blake3 sourceFingerprint recipeFingerprint replay
  offered_eq : core.offered = done

end Checkpoints

section Lemmas

variable {blake3 : Blake3} {context : Context}
  {sourceFingerprint recipeFingerprint : Digest256} {replay : Option ReplayCheckpoint}
  {batchCount : ℕ} {done : List CanonicalBatch} {core : Core}

theorem Core.ended_of_none (h : ∀ checkpoint, ¬ core.Taken checkpoint)
    (hverified : core.replayVerified = false) :
    core.Ended blake3 context sourceFingerprint recipeFingerprint replay := by
  refine ⟨?_, .inl h⟩
  rw [Core.Verified, hverified]
  refine iff_of_false Bool.false_ne_true ?_
  rintro ⟨_, _, _, own, hown, _⟩
  exact h own hown

theorem Core.Between.ended
    (h : core.Between blake3 context sourceFingerprint recipeFingerprint replay batchCount done) :
    core.Ended blake3 context sourceFingerprint recipeFingerprint replay :=
  ⟨h.verified, .inr ⟨done, h.tracked⟩⟩

theorem Core.Tracked.completed_lt (h : core.Tracked blake3 context sourceFingerprint recipeFingerprint done)
    {checkpoint : ReplayCheckpoint} (htaken : core.Taken checkpoint) :
    checkpoint.completedBatches.toNat ≤ done.length := by
  obtain ⟨front, _, _, _, hfront, rfl⟩ := h.taken checkpoint htaken
  have hle := hfront.length_le
  have hlt := core.plan.batchCount.toNat_lt
  have hdone := h.done_le
  change (UInt64.ofNat front.length).toNat ≤ _
  rw [Checked.toNat_ofNat (by omega)]
  exact hle

/-- The core after a batch is completed: the hasher and the checkpoint are the ones of one more
batch. -/
def Core.complete (blake3 : Blake3) (sourceFingerprint recipeFingerprint : Digest256)
    (done : List CanonicalBatch) (cursorFingerprint : Digest256)
    (completedRecords completedBytes : UInt64) (core : Core) : Core :=
  { core with
    prefixHasher := prefixBytes core.plan.recordType done
    checkpoint := core.checkpointAfter blake3 sourceFingerprint recipeFingerprint done
      cursorFingerprint completedRecords completedBytes }

theorem Core.Tracked.complete {batch : CanonicalBatch} {cursorFingerprint : Digest256}
    {completedRecords completedBytes : UInt64}
    (h : core.Tracked blake3 context sourceFingerprint recipeFingerprint done)
    (hbatch : batch.OfType core.plan.recordType) (hoffered : core.offered = done ++ [batch])
    (hcount : done.length + 1 ≤ core.plan.batchCount.toNat) :
    (core.complete blake3 sourceFingerprint recipeFingerprint (done ++ [batch]) cursorFingerprint
      completedRecords completedBytes).Tracked blake3 context sourceFingerprint recipeFingerprint
      (done ++ [batch]) where
  context_valid := h.context_valid
  context_eq := h.context_eq
  plan_eq := h.plan_eq
  type_ne := h.type_ne
  reserved_eq := h.reserved_eq
  of_type := by
    intro other hother
    rcases List.mem_append.1 hother with hmem | hmem
    · exact h.of_type other hmem
    · rw [List.mem_singleton.1 hmem]
      exact hbatch
  hasher_eq := rfl
  done_le := by
    rw [List.length_append]
    exact hcount
  done_prefix := by
    change done ++ [batch] <+: core.offered
    rw [hoffered]
  taken := by
    rintro checkpoint ⟨htype, rfl | hmem⟩
    · exact ⟨done ++ [batch], _, _, _, List.prefix_refl _, rfl⟩
    · obtain ⟨front, cursor, records, bytes, hfront, heq⟩ := h.taken checkpoint ⟨htype, .inr hmem⟩
      exact ⟨front, cursor, records, bytes, hfront.trans (List.prefix_append _ _), heq⟩

theorem Core.agrees_complete {batch : CanonicalBatch} {cursorFingerprint : Digest256}
    {completedRecords completedBytes : UInt64}
    (h : core.Tracked blake3 context sourceFingerprint recipeFingerprint done)
    (hcount : done.length + 1 ≤ core.plan.batchCount.toNat) {checkpoint : ReplayCheckpoint}
    (hcompleted : checkpoint.completedBatches = UInt64.ofNat (done.length + 1)) :
    let next := core.complete blake3 sourceFingerprint recipeFingerprint (done ++ [batch])
      cursorFingerprint completedRecords completedBytes
    next.Agrees checkpoint ↔ next.checkpoint.checkpointId = checkpoint.checkpointId := by
  intro next
  have hlt := core.plan.batchCount.toNat_lt
  constructor
  · rintro ⟨own, ⟨htype, rfl | hmem⟩, hnumber, hid⟩
    · exact hid
    · exfalso
      have hle := @Core.Tracked.completed_lt _ _ _ _ _ _ h own ⟨htype, .inr hmem⟩
      rw [hnumber, hcompleted, Checked.toNat_ofNat (by omega)] at hle
      omega
  · intro hid
    refine ⟨next.checkpoint, ⟨h.type_ne, .inl rfl⟩, ?_, hid⟩
    rw [hcompleted, ← List.length_singleton (a := batch), ← List.length_append]
    rfl

theorem Core.agrees_complete_of_ne {batch : CanonicalBatch} {cursorFingerprint : Digest256}
    {completedRecords completedBytes : UInt64} (hshown : core.checkpoint ∈ core.observed)
    {checkpoint : ReplayCheckpoint}
    (hcompleted : checkpoint.completedBatches ≠ UInt64.ofNat (done.length + 1)) :
    (core.complete blake3 sourceFingerprint recipeFingerprint (done ++ [batch])
      cursorFingerprint completedRecords completedBytes).Agrees checkpoint ↔ core.Agrees checkpoint := by
  constructor
  · rintro ⟨own, ⟨htype, rfl | hmem⟩, hnumber, hid⟩
    · refine absurd hnumber.symm ?_
      rw [← List.length_singleton (a := batch), ← List.length_append] at hcompleted
      exact hcompleted
    · exact ⟨own, ⟨htype, .inr hmem⟩, hnumber, hid⟩
  · rintro ⟨own, ⟨htype, rfl | hmem⟩, hnumber, hid⟩
    · exact ⟨core.checkpoint, ⟨htype, .inr hshown⟩, hnumber, hid⟩
    · exact ⟨own, ⟨htype, .inr hmem⟩, hnumber, hid⟩

theorem Core.taken_shown {checkpoint : ReplayCheckpoint} :
    { core with observed := core.observed ++ [core.checkpoint] }.Taken checkpoint ↔
      core.Taken checkpoint := by
  simp only [Core.Taken, List.mem_append, List.mem_singleton]
  tauto

theorem Core.Between.shown
    (h : core.Between blake3 context sourceFingerprint recipeFingerprint replay batchCount done) :
    { core with observed := core.observed ++ [core.checkpoint] }.Between blake3 context
      sourceFingerprint recipeFingerprint replay batchCount done where
  planned := h.planned
  tracked :=
    { h.tracked with
      taken := fun checkpoint htaken => h.tracked.taken checkpoint (core.taken_shown.1 htaken) }
  verified := by
    refine h.verified.trans ?_
    simp only [Core.Agrees, Core.taken_shown]
  offered_eq := h.offered_eq

theorem Core.Tracked.next (h : core.Tracked blake3 context sourceFingerprint recipeFingerprint done)
    (batch : CanonicalBatch) :
    { core with offered := core.offered ++ [batch] }.Tracked blake3 context sourceFingerprint
      recipeFingerprint done :=
  { h with done_prefix := h.done_prefix.trans (List.prefix_append _ _) }

end Lemmas

/-! ## The phases of a run -/

section Phases

variable {environment : Environment} {blake3 : Blake3} {context : Context}
  {sourceFingerprint recipeFingerprint : Digest256} {replay : Option ReplayCheckpoint}
  {batchCount : ℕ} {done : List CanonicalBatch}

variable {run : Run}

theorem core_next (batchIndex : UInt64) (batch : CanonicalBatch) :
    { run with trace := run.trace ++ [Event.next batchIndex batch] }.core =
      { run.core with offered := run.core.offered ++ [batch] } := by
  simp only [Run.core, offered_append, observed_append]
  exact congrArg (Core.mk _ · _ _ _ _ _ _) (List.append_nil _)

theorem observeProgress_shown {P : Core → Prop} {exit : Failure → Run → Prop}
    (hshown : ∀ core : Core, P core → P { core with observed := core.observed ++ [core.checkpoint] }) :
    Meets observeProgress (fun run => P run.core)
      (fun _ run => P run.core ∧ run.core.checkpoint ∈ run.core.observed) exit := by
  rw [observeProgress]
  refine .get_then fun before => ?_
  refine .bind (Q := fun _ run => P run.core ∧ run.core.checkpoint ∈ run.core.observed)
    (call_meets fun run h => ?_) fun _ => .modify fun run h => h
  obtain ⟨h, rfl⟩ := h
  have hcore : { run with trace := run.trace ++ [Event.observeProgress run.receipt.checkpoint] }.core =
      { run.core with observed := run.core.observed ++ [run.core.checkpoint] } := by
    simp only [Run.core, offered_append, observed_append]
    exact congrArg (Core.mk · _ _ _ _ _ _ _) (List.append_nil _)
  rw [hcore]
  exact ⟨hshown _ h, by simp⟩

variable {batch : CanonicalBatch}

theorem ofType_of_accepted (h : batchAccepted run batch = true) :
    batch.OfType run.core.plan.recordType := by
  simp only [batchAccepted, Bool.and_eq_true, beq_iff_eq] at h
  exact ⟨h.1.1.1.1.1.1.1, h.1.1.1.2, h.1.1.2⟩

variable {core : Core} {checkpoint : ReplayCheckpoint}

theorem compareReplay_core : Meets (compareReplay checkpoint) (fun run => run.core = core)
      (fun _ run => run.core = { core with replayVerified := true } ∧
        core.checkpoint.checkpointId = checkpoint.checkpointId)
      (fun _ run => run.core = core ∧
        core.checkpoint.checkpointId ≠ checkpoint.checkpointId) := by
  rw [compareReplay]
  refine .get_then fun before => ?_
  by_cases hbefore : before.core = core
  swap
  · rintro run ⟨h, rfl⟩
    exact absurd h hbefore
  subst hbefore
  refine .require_then (fun run h hdiffers => ⟨h.1, fun hid => hdiffers hid.symm⟩) fun hid => ?_
  refine .modify fun run h => ⟨?_, hid.symm⟩
  rw [← h.1]
  rfl

theorem verified_iff_agrees
    (hmatches : replayMatchesPlan blake3 checkpoint core.contextFingerprint sourceFingerprint
      recipeFingerprint core.planFingerprint core.plan = true) :
    core.Verified blake3 sourceFingerprint recipeFingerprint (some checkpoint) ↔
      (core.replayVerified = true ↔ core.Agrees checkpoint) := by
  have hexists : (∃ other, some checkpoint = some other ∧
      replayMatchesPlan blake3 other core.contextFingerprint sourceFingerprint recipeFingerprint
        core.planFingerprint core.plan = true ∧ core.Agrees other) ↔ core.Agrees checkpoint := by
    constructor
    · rintro ⟨_, heq, _, hagrees⟩
      injection heq with heq
      rwa [heq]
    · exact fun hagrees => ⟨checkpoint, rfl, hmatches, hagrees⟩
  rw [Core.Verified, hexists]

theorem compareReplay_meets_verified
    (htracked : core.Tracked blake3 context sourceFingerprint recipeFingerprint done)
    (hoffered : core.offered = done)
    (hplanned : core.Planned blake3 sourceFingerprint recipeFingerprint (some checkpoint) batchCount)
    (hunset : core.replayVerified ≠ true)
    (hagrees : core.Agrees checkpoint ↔ core.checkpoint.checkpointId = checkpoint.checkpointId) :
    Meets (compareReplay checkpoint) (fun run => run.core = core)
      (fun _ run => run.core.Between blake3 context sourceFingerprint recipeFingerprint
        (some checkpoint) batchCount done)
      (fun _ run => run.core.Ended blake3 context sourceFingerprint recipeFingerprint
        (some checkpoint)) := by
  have hmatches := hplanned.2 checkpoint rfl
  refine compareReplay_core.mono (fun _ h => h) (fun _ run h => ?_) fun _ run h => ?_
  · obtain ⟨hcore, hid⟩ := h
    rw [hcore]
    exact ⟨hplanned, { htracked with }, (verified_iff_agrees (by exact hmatches)).2
      (iff_of_true rfl (hagrees.2 hid)), hoffered⟩
  · obtain ⟨hcore, hid⟩ := h
    rw [hcore]
    exact ⟨(verified_iff_agrees hmatches).2 (iff_of_false hunset fun h => hid (hagrees.1 h)),
      .inr ⟨done, htracked⟩⟩

variable {cursorFingerprint : Digest256}

theorem reachReplay_complete {completedRecords completedBytes : UInt64}
    (h : core.Tracked blake3 context sourceFingerprint recipeFingerprint done)
    (hverified : core.Verified blake3 sourceFingerprint recipeFingerprint replay)
    (hplanned : core.Planned blake3 sourceFingerprint recipeFingerprint replay batchCount)
    (hshown : core.checkpoint ∈ core.observed) (hbatch : batch.OfType core.plan.recordType)
    (hoffered : core.offered = done ++ [batch]) (hcount : done.length + 1 ≤ batchCount) :
    Meets (reachReplay (UInt64.ofNat (done.length + 1)) replay)
      (fun run => run.core = core.complete blake3 sourceFingerprint recipeFingerprint
        (done ++ [batch]) cursorFingerprint completedRecords completedBytes)
      (fun _ run => run.core.Between blake3 context sourceFingerprint recipeFingerprint replay
        batchCount (done ++ [batch]))
      (fun _ run => run.core.Ended blake3 context sourceFingerprint recipeFingerprint replay) := by
  rw [← hplanned.1] at hcount
  have htracked := @Core.Tracked.complete _ _ _ _ _ _ _ cursorFingerprint completedRecords
    completedBytes h hbatch hoffered hcount
  cases replay with
  | none =>
    refine .pure fun run hrun => ?_
    rw [hrun]
    refine ⟨hplanned, htracked, ?_, hoffered⟩
    refine hverified.trans (iff_of_false ?_ ?_) <;>
    · rintro ⟨_, hnone, _⟩
      cases hnone
  | some checkpoint =>
    have hmatch := hplanned.2 checkpoint rfl
    refine .ite (fun hcompleted => ?_) fun hcompleted => .pure fun run hrun => ?_
    · refine compareReplay_meets_verified htracked hoffered hplanned (fun hset => ?_)
        (Core.agrees_complete h hcount hcompleted)
      -- the flag was set by a checkpoint with this number, and there is none yet
      obtain ⟨own, htaken, hnumber, _⟩ := ((verified_iff_agrees hmatch).1 hverified).1 hset
      have hle := h.completed_lt htaken
      have hlt := core.plan.batchCount.toNat_lt
      rw [hnumber, hcompleted, Checked.toNat_ofNat (by omega)] at hle
      omega
    · rw [hrun]
      exact ⟨hplanned, htracked, (verified_iff_agrees (by exact hmatch)).2
        (((verified_iff_agrees hmatch).1 hverified).trans
          (Core.agrees_complete_of_ne hshown hcompleted).symm), hoffered⟩

/-! ### One batch -/

/-- The core after `next` and before the batch is completed. -/
structure Core.Handed (blake3 : Blake3) (context : Context)
    (sourceFingerprint recipeFingerprint : Digest256) (replay : Option ReplayCheckpoint)
    (batchCount : ℕ) (done : List CanonicalBatch) (batch : CanonicalBatch) (core : Core) : Prop where
  planned : core.Planned blake3 sourceFingerprint recipeFingerprint replay batchCount
  tracked : core.Tracked blake3 context sourceFingerprint recipeFingerprint done
  verified : core.Verified blake3 sourceFingerprint recipeFingerprint replay
  shown : core.checkpoint ∈ core.observed
  offered_eq : core.offered = done ++ [batch]

theorem Core.Handed.ended
    (h : core.Handed blake3 context sourceFingerprint recipeFingerprint replay batchCount done batch) :
    core.Ended blake3 context sourceFingerprint recipeFingerprint replay :=
  ⟨h.verified, .inr ⟨done, h.tracked⟩⟩

theorem takeCheckpoint_core
    (htracked : core.Tracked blake3 context sourceFingerprint recipeFingerprint done)
    (hrun : run.core = { core with
      prefixHasher := updatePrefixHasher core.prefixHasher (UInt64.ofNat done.length) batch }) :
    (takeCheckpoint blake3 sourceFingerprint recipeFingerprint cursorFingerprint
      (UInt64.ofNat done.length + 1) run).core =
      core.complete blake3 sourceFingerprint recipeFingerprint (done ++ [batch]) cursorFingerprint
        run.completedRecords run.completedBytes := by
  have hhasher : updatePrefixHasher core.prefixHasher (UInt64.ofNat done.length) batch =
      prefixBytes core.plan.recordType (done ++ [batch]) := by
    rw [htracked.hasher_eq, updatePrefixHasher_prefixBytes]
  have hnumber : UInt64.ofNat done.length + 1 = UInt64.ofNat (done ++ [batch]).length := by
    rw [List.length_append, UInt64.ofNat_add]
    rfl
  rw [hhasher] at hrun
  rw [hnumber]
  obtain ⟨trace, receipt, plan, _, _, hasher, records, bytes, _, _, verified⟩ := run
  obtain ⟨_, _, _, _, _, _, _, _⟩ := core
  simp only [Run.core, Core.mk.injEq] at hrun
  obtain ⟨rfl, rfl, -, rfl, rfl, rfl, rfl, rfl⟩ := hrun
  rfl

theorem completeBatch_tracks
    (h : core.Handed blake3 context sourceFingerprint recipeFingerprint replay batchCount done batch)
    (htype : batch.OfType core.plan.recordType) (hcount : done.length + 1 ≤ batchCount) : Meets (do
        modify fun run : Run => { run with
          streamHasher := run.streamHasher ++ batch.bytes
          prefixHasher := updatePrefixHasher run.prefixHasher (UInt64.ofNat done.length) batch }
        modify (takeCheckpoint blake3 sourceFingerprint recipeFingerprint cursorFingerprint
          (UInt64.ofNat done.length + 1))
        reachReplay (UInt64.ofNat done.length + 1) replay
        observeProgress)
      (fun run => run.core = core)
      (fun _ run => ∃ batch, run.core.Between blake3 context sourceFingerprint recipeFingerprint
        replay batchCount (done ++ [batch]) ∧ run.core.checkpoint ∈ run.core.observed)
      (fun _ run => run.core.Ended blake3 context sourceFingerprint recipeFingerprint replay) := by
  have hnumber : UInt64.ofNat done.length + 1 = UInt64.ofNat (done.length + 1) := by
    rw [UInt64.ofNat_add]
    rfl
  refine .modify_then (fun run => run.core = { core with
      prefixHasher := updatePrefixHasher core.prefixHasher (UInt64.ofNat done.length) batch })
    (fun run h => by rw [← h]; rfl) ?_
  refine .modify_then (fun run => ∃ records bytes, run.core = core.complete blake3
      sourceFingerprint recipeFingerprint (done ++ [batch]) cursorFingerprint records bytes)
    (fun run hrun => ⟨_, _, takeCheckpoint_core h.tracked hrun⟩) ?_
  rw [hnumber]
  refine .bind (Q := fun _ run => run.core.Between blake3 context sourceFingerprint
    recipeFingerprint replay batchCount (done ++ [batch])) ?_ fun _ => ?_
  · rintro run ⟨records, bytes, hrun⟩
    exact reachReplay_complete h.tracked h.verified h.planned h.shown htype h.offered_eq hcount run
      hrun
  · exact (observeProgress_shown fun core h => h.shown).mono (fun _ h => h)
      (fun _ run h => ⟨batch, h⟩) fun _ _ h => h

theorem runBatch_tracks {sinkCount : ℕ} (hcount : done.length + 1 ≤ batchCount) :
    Meets (runBatch environment blake3 sourceFingerprint recipeFingerprint replay sinkCount
        (UInt64.ofNat done.length))
      (fun run => run.core.Between blake3 context sourceFingerprint recipeFingerprint replay
        batchCount done ∧ run.core.checkpoint ∈ run.core.observed)
      (fun _ run => ∃ batch, run.core.Between blake3 context sourceFingerprint recipeFingerprint
        replay batchCount (done ++ [batch]) ∧ run.core.checkpoint ∈ run.core.observed)
      (fun _ run => run.core.Ended blake3 context sourceFingerprint recipeFingerprint replay) := by
  rw [runBatch]
  refine .bind ((Meets.of_keeps (fun _ => checkCancelled_keeps) fun core =>
      core.Between blake3 context sourceFingerprint recipeFingerprint replay batchCount done ∧
      core.checkpoint ∈ core.observed).of_exit fun _ run h => h.1.ended) fun _ => ?_
  refine .bind (Q := fun result run => run.core.Handed blake3 context sourceFingerprint
      recipeFingerprint replay batchCount done result.2.1)
    (call_meets fun run h => ?_) fun result => ?_
  · obtain ⟨hbetween, hshown⟩ := h
    rw [core_next]
    refine ⟨hbetween.planned, hbetween.tracked.next _, hbetween.verified, hshown, ?_⟩
    rw [hbetween.offered_eq]
  obtain ⟨status, batch, cursorFingerprint⟩ := result
  refine .demand_then (fun run h _ => h.ended) fun _ => ?_
  refine .get_then fun before => ?_
  refine .demand_then (fun run h _ => h.1.ended) fun haccepted => ?_
  refine .modify_then (fun run => run.core.Handed blake3 context sourceFingerprint
      recipeFingerprint replay batchCount done batch ∧ batch.OfType run.core.plan.recordType)
    (fun run h => ⟨h.1, ?_⟩) ?_
  · rw [← h.2] at haccepted
    exact (@ofType_of_accepted run) haccepted
  refine .get_then fun counted => ?_
  refine .demand_then (fun run h _ => h.1.1.ended) fun _ => ?_
  refine .bind ((Meets.of_keeps (fun _ => stageBatchToSinks_keeps) fun core =>
      core.Handed blake3 context sourceFingerprint recipeFingerprint replay batchCount done batch ∧
      batch.OfType core.plan.recordType).mono (fun _ h => h.1) (fun _ _ h => h)
    fun _ run h => h.1.ended) fun _ => ?_
  rintro run ⟨hhanded, htype⟩
  exact completeBatch_tracks hhanded htype hcount run rfl

theorem runBatches_tracks {sinkCount : ℕ} : ∀ {remaining : ℕ} {done : List CanonicalBatch},
    done.length + remaining = batchCount →
    Meets (runBatches environment blake3 sourceFingerprint recipeFingerprint replay sinkCount
        remaining (UInt64.ofNat done.length))
      (fun run => run.core.Between blake3 context sourceFingerprint recipeFingerprint replay
        batchCount done ∧ run.core.checkpoint ∈ run.core.observed)
      (fun _ run => ∃ done, done.length = batchCount ∧ run.core.Between blake3 context
        sourceFingerprint recipeFingerprint replay batchCount done)
      (fun _ run => run.core.Ended blake3 context sourceFingerprint recipeFingerprint replay)
  | 0, done, hcount => .pure fun run h => ⟨done, hcount, h.1⟩
  | remaining + 1, done, hcount => by
    rw [runBatches]
    refine .bind (runBatch_tracks (by omega)) fun _ => ?_
    rintro run ⟨batch, hrun⟩
    have hnumber : UInt64.ofNat done.length + 1 = UInt64.ofNat (done ++ [batch]).length := by
      rw [List.length_append, UInt64.ofNat_add]
      rfl
    rw [hnumber]
    exact runBatches_tracks (by rw [List.length_append, List.length_singleton]; omega) run hrun

/-! ### Before the first batch -/

/-- A run that has no plan yet. -/
structure Core.Unplanned (core : Core) : Prop where
  offered_eq : core.offered = []
  observed_eq : core.observed = []
  checkpoint_eq : core.checkpoint = {}
  unverified : core.replayVerified = false

theorem Core.Unplanned.ended (h : core.Unplanned) :
    core.Ended blake3 context sourceFingerprint recipeFingerprint replay := by
  refine Core.ended_of_none (fun checkpoint htaken => ?_) h.unverified
  obtain ⟨htype, hcheckpoint | hmem⟩ := htaken
  · rw [hcheckpoint, h.checkpoint_eq] at htype
    exact htype rfl
  · rw [h.observed_eq] at hmem
    exact List.not_mem_nil hmem

theorem recordContext_tracks : Meets (recordContext blake3 context) (fun run => run.core.Unplanned)
      (fun _ run => run.core.Unplanned ∧ contextValidate context = .ok ∧
        run.core.contextFingerprint = blake3 (contextBytes context)) (fun _ run => run.core.Unplanned) := by
  rw [recordContext]
  refine .modify_then (fun run => run.core.Unplanned ∧
    run.core.contextFingerprint = (contextFingerprint blake3 context).2)
    (fun run h => ⟨⟨h.1, h.2, h.3, h.4⟩, rfl⟩) ?_
  by_cases hstatus : (contextFingerprint blake3 context).1 = .ok
  · rw [dif_pos hstatus]
    refine .pure fun run h => ?_
    rw [contextFingerprint] at hstatus h
    cases hvalid : contextValidate context with
    | ok =>
      rw [hvalid] at h
      exact ⟨h.1, rfl, h.2⟩
    | _ =>
      rw [hvalid] at hstatus
      cases hstatus
  · rw [dif_neg hstatus]
    exact .throw fun run h => h.1

/-- A run with a plan and no batch. -/
structure Core.Opened (blake3 : Blake3) (context : Context)
    (sourceFingerprint recipeFingerprint : Digest256) (core : Core) : Prop where
  tracked : core.Tracked blake3 context sourceFingerprint recipeFingerprint []
  offered_eq : core.offered = []
  observed_eq : core.observed = []
  completed_eq : core.checkpoint.completedBatches = 0
  type_eq : core.checkpoint.recordType = core.plan.recordType
  unverified : core.replayVerified = false

theorem preparePlan_tracks (hvalid : contextValidate context = .ok) :
    Meets (preparePlan environment blake3 sourceFingerprint recipeFingerprint)
      (fun run => run.core.Unplanned ∧ run.core.contextFingerprint = blake3 (contextBytes context))
      (fun _ run => run.core.Opened blake3 context sourceFingerprint recipeFingerprint)
      (fun _ run => run.core.Ended blake3 context sourceFingerprint recipeFingerprint replay) := by
  rw [preparePlan]
  refine .modify_then (fun run => run.core.Unplanned ∧
    run.core.contextFingerprint = blake3 (contextBytes context)) (fun run h => h) ?_
  refine .bind ((Meets.of_keeps (fun _ => call_keeps (fun _ => rfl) fun _ => rfl) fun core =>
    core.Unplanned ∧ core.contextFingerprint = blake3 (contextBytes context)).of_exit fun _ run h => h.1.ended)
    fun result => ?_
  obtain ⟨status, plan⟩ := result
  refine .require_then (fun run h _ => h.1.ended) fun _ => ?_
  refine .modify_then (fun run => (run.core.Unplanned ∧
    run.core.contextFingerprint = blake3 (contextBytes context)) ∧ run.core.plan = plan)
    (fun run h => ⟨⟨⟨h.1.1, h.1.2, h.1.3, h.1.4⟩, h.2⟩, rfl⟩) ?_
  refine .require_then (fun run h _ => h.1.1.ended) fun hplan => ?_
  refine .modify_then (fun run => (run.core.Unplanned ∧
    run.core.contextFingerprint = blake3 (contextBytes context)) ∧ run.core.plan = plan ∧
    run.core.planFingerprint = blake3 (producerPlanBytes run.core.contextFingerprint
      sourceFingerprint recipeFingerprint plan) ∧
    run.core.prefixHasher = prefixHasher plan.recordType)
    (fun run h => ⟨⟨⟨h.1.1.1, h.1.1.2, h.1.1.3, h.1.1.4⟩, h.1.2⟩, h.2, rfl, rfl⟩) ?_
  refine .modify fun run h => ?_
  obtain ⟨⟨hunplanned, hcontext⟩, rfl, hfingerprint, hhasher⟩ := h
  have hempty : ∀ type, prefixHasher type = prefixBytes type [] := fun type =>
    (List.append_nil _).symm
  refine ⟨⟨hvalid, hcontext, hfingerprint, hplan.2.2.2.1, hplan.2.2.2.2.2, by simp, ?_, Nat.zero_le _,
    List.nil_prefix, ?_⟩, hunplanned.offered_eq, hunplanned.observed_eq, rfl, rfl,
    hunplanned.unverified⟩
  · exact hhasher.trans (hempty _)
  · rintro checkpoint ⟨htype, rfl | hmem⟩
    · refine ⟨[], run.plan.initialCursorFingerprint, run.completedRecords, run.completedBytes,
        List.prefix_refl _, ?_⟩
      change (takeCheckpoint blake3 _ _ _ _ run).receipt.checkpoint = _
      have hhasher : run.prefixHasher = prefixBytes run.plan.recordType [] :=
        hhasher.trans (hempty _)
      rw [takeCheckpoint, hhasher]
      rfl
    · have hobserved := hunplanned.observed_eq
      change checkpoint ∈ run.core.observed at hmem
      rw [hobserved] at hmem
      exact absurd hmem List.not_mem_nil

theorem openReplay_tracks (h : core.Opened blake3 context sourceFingerprint recipeFingerprint) :
    Meets (openReplay blake3 sourceFingerprint recipeFingerprint replay) (fun run => run.core = core)
      (fun _ run => run.core.Between blake3 context sourceFingerprint recipeFingerprint replay
        core.plan.batchCount.toNat [])
      (fun _ run => run.core.Ended blake3 context sourceFingerprint recipeFingerprint replay) := by
  have hunset : ¬ core.replayVerified = true := by
    rw [h.unverified]
    exact Bool.false_ne_true
  cases replay with
  | none =>
    refine .pure fun run hrun => ?_
    rw [hrun]
    refine ⟨⟨rfl, nofun⟩, h.tracked, iff_of_false hunset ?_, h.offered_eq⟩
    rintro ⟨_, hnone, _⟩
    cases hnone
  | some checkpoint =>
    rw [openReplay]
    refine .modify_then (fun run => run.core = core) (fun run h => h) ?_
    refine .get_then fun before => ?_
    by_cases hbefore : before.core = core
    swap
    · rintro run ⟨h, rfl⟩
      exact absurd h hbefore
    refine .require_then (fun run hrun hdiffers => ?_) fun hmatch => ?_
    · rw [hrun.1]
      refine ⟨iff_of_false hunset ?_, .inr ⟨[], h.tracked⟩⟩
      rintro ⟨_, heq, hmatch, _⟩
      injection heq with heq
      subst heq hbefore
      exact hdiffers hmatch
    have hplanned : core.Planned blake3 sourceFingerprint recipeFingerprint (some checkpoint)
        core.plan.batchCount.toNat := by
      refine ⟨rfl, fun other heq => ?_⟩
      injection heq with heq
      subst heq hbefore
      exact hmatch
    have htaken : ∀ own, core.Taken own ↔ own = core.checkpoint ∧ own.recordType ≠ 0 := by
      intro own
      rw [Core.Taken, h.observed_eq]
      simp only [List.not_mem_nil, or_false]
      exact and_comm
    have htype : core.checkpoint.recordType ≠ 0 := by
      rw [h.type_eq]
      exact h.tracked.type_ne
    refine .ite (fun hcompleted => ?_) fun hcompleted => .pure fun run hrun => ?_
    · refine (compareReplay_meets_verified h.tracked h.offered_eq hplanned hunset ?_).of_pre
        (fun _ h => h.1)
      constructor
      · rintro ⟨own, hown, -, hid⟩
        rwa [((htaken own).1 hown).1] at hid
      · intro hid
        exact ⟨core.checkpoint, (htaken _).2 ⟨rfl, htype⟩, h.completed_eq.trans hcompleted.symm, hid⟩
    · rw [hrun.1]
      refine ⟨hplanned, h.tracked, (verified_iff_agrees (hplanned.2 checkpoint rfl)).2
        (iff_of_false hunset ?_), h.offered_eq⟩
      rintro ⟨own, hown, hnumber, -⟩
      rw [((htaken own).1 hown).1, h.completed_eq] at hnumber
      exact hcompleted hnumber.symm

theorem runBody_tracks {producer : Producer} {control : ProducerControl} {sinks : List Sink}
    {required : Bool} :
    Meets (runBody environment blake3 context sourceFingerprint recipeFingerprint producer control
        sinks required) (fun run => run.core.Unplanned)
      (fun _ run => run.core.Ended blake3 context sourceFingerprint recipeFingerprint
          control.replayCheckpoint ∧ (control.replayCheckpoint.isSome → run.core.replayVerified = true))
      (fun _ run => run.core.Ended blake3 context sourceFingerprint recipeFingerprint
        control.replayCheckpoint) := by
  rw [runBody]
  refine .bind ((Meets.of_keeps (fun _ => prepareSinkArtifactOutput_keeps) Core.Unplanned).of_exit
    fun _ _ h => h.ended) fun _ => ?_
  refine .bind (recordContext_tracks.of_exit fun _ _ h => h.ended)
    fun _ => ?_
  by_cases hvalid : contextValidate context = .ok
  swap
  · rintro run ⟨-, hok, -⟩
    exact absurd hok hvalid
  refine .modify_then (fun run => run.core.Unplanned ∧
    run.core.contextFingerprint = blake3 (contextBytes context)) (fun run h => ⟨h.1, h.2.2⟩) ?_
  refine .require_then (fun _ h _ => h.1.ended) fun _ => ?_
  refine .bind ((Meets.of_keeps (fun _ => validateSinks_keeps) fun core => core.Unplanned ∧
    core.contextFingerprint = blake3 (contextBytes context)).of_exit fun _ _ h => h.1.ended) fun _ => ?_
  refine .bind (preparePlan_tracks hvalid) fun _ => ?_
  refine .bind (Q := fun _ run => ∃ batchCount, run.core.Between blake3 context
    sourceFingerprint recipeFingerprint control.replayCheckpoint batchCount []) ?_ fun _ => ?_
  · intro run hopened
    exact (openReplay_tracks hopened).mono (fun _ h => h) (fun _ _ h => ⟨_, h⟩) (fun _ _ h => h) run
      rfl
  rintro run ⟨batchCount, hrun⟩
  revert run
  change Meets _ (fun run : Run => run.core.Between blake3 context sourceFingerprint recipeFingerprint
    control.replayCheckpoint batchCount []) _ _
  refine .bind ((Meets.of_keeps (fun _ => checkCancelled_keeps) fun core => core.Between blake3
    context sourceFingerprint recipeFingerprint control.replayCheckpoint batchCount []).of_exit
    fun _ _ h => h.ended) fun _ => ?_
  refine .bind (observeProgress_shown fun core h => h.shown) fun _ => ?_
  refine .bind ((Meets.of_keeps (fun _ => checkCancelled_keeps) fun core => core.Between blake3
    context sourceFingerprint recipeFingerprint control.replayCheckpoint batchCount [] ∧
    core.checkpoint ∈ core.observed).of_exit fun _ _ h => h.1.ended)
    fun _ => ?_
  refine .get_then fun before => ?_
  by_cases hcount : before.plan.batchCount.toNat = batchCount
  swap
  · rintro run ⟨⟨h, -⟩, rfl⟩
    exact absurd h.planned.1 hcount
  refine .bind ((Meets.of_keeps (fun _ => beginSinks_keeps) fun core => core.Between blake3
    context sourceFingerprint recipeFingerprint control.replayCheckpoint batchCount [] ∧
    core.checkpoint ∈ core.observed).mono (fun _ h => h.1) (fun _ _ h => h) fun _ _ h => h.1.ended)
    fun _ => ?_
  rw [hcount]
  refine .bind (@runBatches_tracks _ _ _ _ _ _ _ _ _ [] (Nat.zero_add _)) fun _ => ?_
  rintro run ⟨done, -, hrun⟩
  have hended := hrun.ended
  refine (@Meets.bind _ _ _ _ (fun run' => run'.core = run.core))
    (closeProducer_keeps.of_exit fun _ run' h => ?_) (fun _ => ?_) run
    rfl
  · rw [h]
    exact hended
  · by_cases hverified : control.replayCheckpoint.isSome → run.core.replayVerified = true
    · refine sealSinks_keeps.mono (fun _ h => h.1) (fun _ run' h => ?_) fun _ run' h => ?_
      · rw [h]
        exact ⟨hended, hverified⟩
      · rw [h]
        exact hended
    · exact fun run' h => absurd h.2 hverified

end Phases

end Laplace.Framework
