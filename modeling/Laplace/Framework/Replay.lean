import Laplace.Framework.Checkpoints

/-!
# Replaying a checkpoint

The identity of a checkpoint is a hash of hashes: of the prefix of batches that a call has
completed, and of the plan, which is hashed with the context, the source and the recipe. A call
that is given a checkpoint and succeeds has compared it with one of its own.
-/

namespace Laplace.Framework

/-- A call of `run_producer_impl`. -/
structure Invocation where
  environment : Environment
  context : Context
  sourceFingerprint : Digest256
  recipeFingerprint : Digest256
  producer : Producer
  control : ProducerControl
  sinks : List Sink
  artifactOutput : Option SinkArtifactOutput
  artifactOutputRequired : Bool

namespace Invocation

variable (blake3 : Blake3) (call call' : Invocation)

def result : Status × Run :=
  runProducerImpl call.environment blake3 call.context call.sourceFingerprint
    call.recipeFingerprint call.producer call.control call.sinks call.artifactOutput
    call.artifactOutputRequired

def run : Run := (call.result blake3).2

/-- The batches the producer has handed over in the call. -/
def batches : List CanonicalBatch := offered (call.run blake3).trace

/-- The strings that the identity of a checkpoint of the call is made from. -/
def hashed : List (List UInt8) :=
  contextBytes call.context ::
  producerPlanBytes (call.run blake3).receipt.stream.contextFingerprint call.sourceFingerprint
    call.recipeFingerprint (call.run blake3).plan ::
  (call.batches blake3).inits.map (prefixBytes (call.run blake3).plan.recordType) ++
  ((call.run blake3).receipt.checkpoint :: observed (call.run blake3).trace).map checkpointBytes

/-- `blake3` has no collision among some strings. -/
abbrev CollisionFree (strings : List (List UInt8)) : Prop :=
  ∀ left ∈ strings, ∀ right ∈ strings, blake3 left = blake3 right → left = right

/-- Two calls agree up to their batch `count`. -/
structure Same (count : ℕ) : Prop where
  context_eq : call.context = call'.context
  source_eq : call.sourceFingerprint = call'.sourceFingerprint
  recipe_eq : call.recipeFingerprint = call'.recipeFingerprint
  plan_eq : (call.run blake3).plan = (call'.run blake3).plan
  count_le : count ≤ (call.batches blake3).length
  count_le' : count ≤ (call'.batches blake3).length
  batches_eq : (call.batches blake3).take count = (call'.batches blake3).take count

/-- The checkpoint to replay was compared with one of the call, and they are the same: it agrees
with the plan, and the call has taken a checkpoint after as many batches that has its identity. -/
def Compared : Prop :=
  ∃ checkpoint, call.control.replayCheckpoint = some checkpoint ∧
    replayMatchesPlan blake3 checkpoint (call.run blake3).receipt.stream.contextFingerprint
      call.sourceFingerprint call.recipeFingerprint (call.run blake3).receipt.planFingerprint
      (call.run blake3).plan = true ∧
    (call.run blake3).core.Agrees checkpoint

variable {blake3 call call'}

theorem ended : (call.run blake3).core.Ended blake3 call.context call.sourceFingerprint
      call.recipeFingerprint call.control.replayCheckpoint ∧
    ((call.result blake3).1 = .ok → call.control.replayCheckpoint.isSome →
      (call.run blake3).core.replayVerified = true) ∧ (call.run blake3).receipt.replayVerified =
      if (call.run blake3).core.replayVerified then 1 else 0 := by
  have hinitial : (initialRun call.sinks.length call.artifactOutput).core.Unplanned :=
    ⟨rfl, rfl, rfl, rfl⟩
  rw [run, result, runProducerImpl]
  rcases hrun : (runBody call.environment blake3 call.context call.sourceFingerprint
      call.recipeFingerprint call.producer call.control call.sinks
      call.artifactOutputRequired).eval (initialRun call.sinks.length call.artifactOutput)
    with ⟨status | _, final⟩
  · have hended := runBody_tracks.of_error hinitial hrun
    rw [← @fail_core blake3 status.1] at hended
    exact ⟨hended, fun hok => absurd hok status.2, rfl⟩
  · have hended := runBody_tracks.of_ok hinitial hrun
    exact ⟨hended.1, fun _ => hended.2, rfl⟩

variable {checkpoint : ReplayCheckpoint}

theorem tracked (htaken : (call.run blake3).core.Taken checkpoint) :
    ∃ done, (call.run blake3).core.Tracked blake3 call.context call.sourceFingerprint
      call.recipeFingerprint done := by
  rcases ended.1.2 with hnone | htracked
  · exact absurd htaken (hnone checkpoint)
  · exact htracked

theorem checkpointBytes_mem (htaken : (call.run blake3).core.Taken checkpoint) :
    checkpointBytes checkpoint ∈ call.hashed blake3 := by
  have hmem : checkpoint ∈
      (call.run blake3).receipt.checkpoint :: observed (call.run blake3).trace :=
    List.mem_cons.2 htaken.2
  exact List.mem_append_right _ (List.mem_map_of_mem hmem)

theorem prefixBytes_mem {front : List CanonicalBatch} (hfront : front <+: call.batches blake3) :
    prefixBytes (call.run blake3).plan.recordType front ∈ call.hashed blake3 :=
  List.mem_append_left _ (List.mem_cons_of_mem _ (List.mem_cons_of_mem _
    (List.mem_map_of_mem ((List.mem_inits _ _).2 hfront))))

/-- **One identity, one prefix.** Checkpoints with one identity are of one prefix, plan, context,
source and recipe. -/
theorem same_of_checkpointId {checkpoint' : ReplayCheckpoint}
    (htaken : (call.run blake3).core.Taken checkpoint) (htaken' : (call'.run blake3).core.Taken checkpoint')
    (hfree : CollisionFree blake3 (call.hashed blake3 ++ call'.hashed blake3))
    (hid : checkpoint.checkpointId = checkpoint'.checkpointId) :
    checkpoint.completedBatches = checkpoint'.completedBatches ∧
      Same blake3 call call' checkpoint.completedBatches.toNat := by
  have hmem : ∀ {string}, string ∈ call.hashed blake3 →
      string ∈ call.hashed blake3 ++ call'.hashed blake3 := List.mem_append_left _
  have hmem' : ∀ {string}, string ∈ call'.hashed blake3 →
      string ∈ call.hashed blake3 ++ call'.hashed blake3 := List.mem_append_right _
  obtain ⟨done, htracked⟩ := tracked htaken
  obtain ⟨done', htracked'⟩ := tracked htaken'
  have hbytes := checkpointBytes_mem htaken
  have hbytes' := checkpointBytes_mem htaken'
  obtain ⟨front, _, _, _, hfront, rfl⟩ := htracked.taken _ htaken
  obtain ⟨front', _, _, _, hfront', rfl⟩ := htracked'.taken _ htaken'
  -- the checkpoint, then what its fields are hashes of
  obtain ⟨hcontext, hsource, hrecipe, hplan, hhasher, hcompleted⟩ :=
    checkpointBytes_inj (hfree _ (hmem hbytes) _ (hmem' hbytes') hid)
  have hcontexts : call.context = call'.context := by
    refine contextBytes_injective htracked.context_valid htracked'.context_valid
      (hfree _ (hmem (List.mem_cons_self ..)) _ (hmem' (List.mem_cons_self ..)) ?_)
    rw [← htracked.context_eq, ← htracked'.context_eq]
    exact hcontext
  have hplans : (call.run blake3).plan = (call'.run blake3).plan := by
    refine (producerPlanBytes_injective (htracked.reserved_eq.trans htracked'.reserved_eq.symm)
      (hfree _ (hmem (List.mem_cons_of_mem _ (List.mem_cons_self ..))) _
        (hmem' (List.mem_cons_of_mem _ (List.mem_cons_self ..))) ?_)).2.2.2
    exact htracked.plan_eq.symm.trans (hplan.trans htracked'.plan_eq)
  have hbatches := hfront.trans htracked.done_prefix
  have hbatches' := hfront'.trans htracked'.done_prefix
  obtain ⟨-, rfl⟩ := prefixBytes_injective
    (fun batch hbatch => htracked.of_type batch (hfront.subset hbatch))
    (fun batch hbatch => htracked'.of_type batch (hfront'.subset hbatch))
    (hfree _ (hmem (prefixBytes_mem hbatches)) _ (hmem' (prefixBytes_mem hbatches')) hhasher)
  have hlength : (UInt64.ofNat front.length).toNat = front.length := by
    have hle := hfront.length_le
    have hdone := htracked.done_le
    have hlt := (call.run blake3).core.plan.batchCount.toNat_lt
    exact Checked.toNat_ofNat (by omega)
  refine ⟨hcompleted, hcontexts, hsource, hrecipe, hplans, ?_, ?_, ?_⟩
  · exact hlength.le.trans hbatches.length_le
  · exact hlength.le.trans hbatches'.length_le
  · change (call.batches blake3).take (UInt64.ofNat front.length).toNat =
      (call'.batches blake3).take (UInt64.ofNat front.length).toNat
    rw [hlength]
    exact (List.prefix_iff_eq_take.1 hbatches).symm.trans (List.prefix_iff_eq_take.1 hbatches')

/-- **Replay is safe.** A call that is given a checkpoint of another one succeeds only if it agrees
with it up to that checkpoint; the flag of a receipt says exactly that the comparison was made;
two checkpoints with one identity are of one prefix, and the encoding of prefixes is injective. -/
theorem replay_safety (blake3 : Blake3) :
    (∀ earlier later : Invocation, ∀ checkpoint, (earlier.run blake3).core.Taken checkpoint →
      later.control.replayCheckpoint = some checkpoint →
      CollisionFree blake3 (earlier.hashed blake3 ++ later.hashed blake3) → (later.result blake3).1 = .ok →
      Same blake3 earlier later checkpoint.completedBatches.toNat) ∧
    (∀ call : Invocation, (call.run blake3).receipt.replayVerified = 1 ↔ call.Compared blake3) ∧
    (∀ earlier later : Invocation, ∀ checkpoint checkpoint',
      (earlier.run blake3).core.Taken checkpoint → (later.run blake3).core.Taken checkpoint' →
      CollisionFree blake3 (earlier.hashed blake3 ++ later.hashed blake3) →
      checkpoint.checkpointId = checkpoint'.checkpointId →
      checkpoint.completedBatches = checkpoint'.completedBatches ∧
        Same blake3 earlier later checkpoint.completedBatches.toNat) ∧
    ∀ recordType recordType' left right, (∀ batch ∈ left, batch.OfType recordType) →
      (∀ batch ∈ right, batch.OfType recordType') →
      prefixBytes recordType left = prefixBytes recordType' right →
      recordType = recordType' ∧ left = right := by
  refine ⟨fun earlier later checkpoint htaken hreplay hfree hok => ?_, fun call => ?_,
    fun earlier later checkpoint checkpoint' htaken htaken' hfree hid =>
      same_of_checkpointId htaken htaken' hfree hid,
    fun _ _ _ _ hleft hright h => prefixBytes_injective hleft hright h⟩
  · obtain ⟨⟨hverified, -⟩, hset, -⟩ := @Invocation.ended blake3 later
    obtain ⟨other, hother, -, own, hown, -, hid⟩ :=
      hverified.1 (hset hok (by rw [hreplay]; rfl))
    rw [hreplay] at hother
    injection hother with hother
    subst hother
    exact (same_of_checkpointId htaken hown hfree hid.symm).2
  · obtain ⟨⟨hverified, -⟩, -, hflag⟩ := @Invocation.ended blake3 call
    rw [hflag]
    cases hset : (call.run blake3).core.replayVerified with
    | true => exact iff_of_true rfl (hverified.1 hset)
    | false =>
      refine iff_of_false (by decide) fun hcompared => ?_
      rw [hverified.2 hcompared] at hset
      cases hset

/-! One batch, staged to one sink, and replayed. -/

def oneBatch : CanonicalBatch where
  canonicalBytes := some [7]
  byteCount := 1
  recordCount := 1
  firstOrdinal := 0
  recordType := 1
  flags := 0
  sized := by simp

def willing : Environment where
  prepare _ := (.ok, { batchCount := 1, totalRecords := 1, totalBytes := 1, recordType := 1 })
  cancelRequested _ := false
  next _ _ := (.ok, oneBatch, 0)
  finish _ := (.ok, 0)
  beginSink _ _ _ _ _ := .ok
  stageSink _ _ _ := .ok
  sealSink _ _ _ := (.ok, 0)

def replaying (replayCheckpoint : Option ReplayCheckpoint) : Invocation where
  environment := willing
  context := ⟨fun _ => 0, 0, ⟨1, 1, 0⟩, 1, 1, 0, 0, 0⟩
  sourceFingerprint := 0
  recipeFingerprint := 0
  producer := ⟨true, 1, 0, 0, 0⟩
  control := ⟨replayCheckpoint, true, 1, 0, 0, 0⟩
  sinks := [⟨true, 1, 0, 0, 0⟩]
  artifactOutput := none
  artifactOutputRequired := false

def firstCheckpoint : ReplayCheckpoint := ((replaying none).run digits).receipt.checkpoint

theorem replay_safety_once : Same digits (replaying none) (replaying (some firstCheckpoint))
      firstCheckpoint.completedBatches.toNat :=
  (replay_safety digits).1 (replaying none) (replaying (some firstCheckpoint)) firstCheckpoint
    ⟨by decide +kernel, .inl rfl⟩ rfl (by decide +kernel) (by decide +kernel)

end Invocation

end Laplace.Framework
