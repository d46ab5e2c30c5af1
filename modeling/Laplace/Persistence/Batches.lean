import Laplace.Persistence.Stream

/-!
# Streams do not depend on their batches

A batch holds complete frames. Nothing but the number of bytes is kept between batches that is not
kept between frames, so two streams of the same frames are checked with the same result.
-/

namespace Laplace.Persistence

open Trajectory Framework Checked

variable (blake3 : Blake3)

/-- The state with another number of bytes. -/
def ValidationState.counted (state : ValidationState) (byteCount : UInt64) : ValidationState :=
  { state with summary.byteCount := byteCount }

@[simp] theorem counted_byteCount (state : ValidationState) (byteCount : UInt64) :
    (state.counted byteCount).summary.byteCount = byteCount := rfl

/-! ## The number of bytes is not looked at -/

theorem closePhysicality_counted (state : ValidationState) (byteCount : UInt64) :
    closePhysicality blake3 (state.counted byteCount) =
      (closePhysicality blake3 state).map (·.counted byteCount) := by
  simp only [closePhysicality, ValidationState.counted, apply_ite (Except.map _)]
  rfl

theorem validateValue_counted (state : ValidationState) (value : Value) (frame : List UInt8)
    (byteCount : UInt64) : validateValue blake3 (state.counted byteCount) value frame =
      (validateValue blake3 state value frame).map (·.counted byteCount) := by
  cases value with
  | entity record =>
    simp only [validateValue, validateEntity, ValidationState.counted, apply_ite (Except.map _)]
    rfl
  | physicality record =>
    simp only [validateValue, validatePhysicality]
    rw [closePhysicality_counted]
    by_cases hphase : state.phase ≥ recordAttestation
    · rw [if_pos hphase, if_pos (by exact hphase)]
      rfl
    · rw [if_neg hphase, if_neg (by exact hphase)]
      cases closePhysicality blake3 state with
      | error status => rfl
      | ok closed =>
        change ite _ _ _ = Except.map _ (ite _ _ _)
        rw [apply_ite (Except.map _)]
        rfl
  | trajectorySegment record =>
    simp only [validateValue, validateTrajectorySegment, ValidationState.counted]
    cases compositionDecodeOne record.carrier (state.currentLogicalCount + 1) with
    | error status =>
      simp only [apply_ite (Except.map _)]
      rfl
    | ok occurrence =>
      simp only [apply_ite (Except.map _)]
      rfl
  | attestation record =>
    simp only [validateValue, validateAttestation]
    rw [closePhysicality_counted]
    cases closePhysicality blake3 state with
    | error status => rfl
    | ok closed =>
      change ite _ _ _ = Except.map _ (ite _ _ _)
      rw [apply_ite (Except.map _)]
      rfl
  | consensus record =>
    simp only [validateValue, validateConsensus]
    rw [closePhysicality_counted]
    cases closePhysicality blake3 state with
    | error status => rfl
    | ok closed =>
      change ite _ _ _ = Except.map _ (ite _ _ _)
      rw [apply_ite (Except.map _)]
      rfl

theorem frameStep_counted (state : ValidationState) (frame : List UInt8) (byteCount : UInt64) :
    frameStep blake3 (state.counted byteCount) frame =
      (frameStep blake3 state frame).map (·.counted byteCount) := by
  unfold frameStep
  cases frameDecode blake3 frame with
  | error status => rfl
  | ok decoded =>
    change validateRecord .. = (validateRecord ..).map _
    simp only [validateRecord, validateValue_counted]
    cases validateValue blake3 state decoded.1.value frame <;> rfl

theorem foldlM_frameStep_counted (byteCount : UInt64) : ∀ (frames : List (List UInt8))
    (state : ValidationState), frames.foldlM (frameStep blake3) (state.counted byteCount) =
      (frames.foldlM (frameStep blake3) state).map (·.counted byteCount)
  | [], _ => rfl
  | frame :: frames, state => by
    rw [List.foldlM_cons, List.foldlM_cons, frameStep_counted]
    cases frameStep blake3 state frame with
    | error status => rfl
    | ok next => exact foldlM_frameStep_counted byteCount frames next

variable {frames : List (List UInt8)} {state : ValidationState}

theorem byteCount_of_foldlM {next : ValidationState}
    (h : frames.foldlM (frameStep blake3) state = .ok next) :
    next.summary.byteCount = state.summary.byteCount := by
  have hcounted := foldlM_frameStep_counted blake3 state.summary.byteCount frames state
  rw [show state.counted state.summary.byteCount = state from rfl, h] at hcounted
  exact congrArg (fun s => s.summary.byteCount) (Except.ok.inj hcounted)

/-! ## Batches of complete frames -/

structure BatchOf (batch : CanonicalBatch) (frames : List (List UInt8)) : Prop where
  canonicalBytes : batch.canonicalBytes = some frames.flatten
  nonempty : frames ≠ []
  recordCount : batch.recordCount.toNat = frames.length
  recordType : batch.recordType = streamRecordType
  flags : batch.flags = 0
  complete : ∀ frame ∈ frames, CompleteFrame frame

variable {batch : CanonicalBatch}

theorem BatchOf.byteCount (h : BatchOf batch frames) : batch.byteCount.toNat = frames.flatten.length :=
  (batch.sized _ h.canonicalBytes).symm

theorem BatchOf.frames_length_le (h : BatchOf batch frames) :
    0 < frames.length := List.length_pos_of_ne_nil h.nonempty

theorem CompleteFrame.length_flatten (h : ∀ frame ∈ frames, CompleteFrame frame) :
    frames.length ≤ frames.flatten.length := by
  induction frames with
  | nil => exact le_rfl
  | cons frame frames ih =>
    have hheader := (h frame List.mem_cons_self).header
    have hpos : 0 < frameHeaderBytes := by decide
    have hrest := ih fun f hf => h f (List.mem_cons_of_mem _ hf)
    rw [List.flatten_cons, List.length_append, List.length_cons]
    omega

theorem validateBatch_of (h : BatchOf batch frames) (state : ValidationState) :
    validateBatch blake3 state batch = frames.foldlM (frameStep blake3) state >>= fun next =>
        if 2 ^ 64 ≤ state.summary.byteCount.toNat + frames.flatten.length then .error .recordInvalid
        else .ok (next.counted (state.summary.byteCount + batch.byteCount)) := by
  have hpos := h.frames_length_le
  have hlen := CompleteFrame.length_flatten h.complete
  have hbytes := h.byteCount
  have hvalid : ¬ (batch.byteCount = 0 ∨ batch.recordCount = 0 ∨
      batch.recordType ≠ streamRecordType ∨ batch.flags ≠ 0) := by
    rintro (hzero | hzero | htype | hflags)
    · rw [hzero, UInt64.toNat_zero] at hbytes
      omega
    · have hcount := h.recordCount
      rw [hzero, UInt64.toNat_zero] at hcount
      omega
    · exact htype h.recordType
    · exact hflags h.flags
  have hrecords : 0 + UInt64.ofNat frames.length = batch.recordCount := by
    rw [← h.recordCount, UInt64.ofNat_toNat, UInt64.zero_add]
  rw [validateBatch, h.canonicalBytes]
  dsimp only
  rw [if_neg hvalid, validateFrames_flatten blake3 h.complete, hrecords]
  cases hrun : frames.foldlM (frameStep blake3) state with
  | error status => rfl
  | ok next =>
    have hcount := byteCount_of_foldlM blake3 hrun
    have hfits : (batch.recordCount ≠ batch.recordCount ∨
        maxWord - state.summary.byteCount < batch.byteCount) ↔
          2 ^ 64 ≤ state.summary.byteCount.toNat + frames.flatten.length := by
      have hmax := state.summary.byteCount.toNat_lt
      rw [UInt64.lt_iff_toNat_lt, toNat_sub_of_le (by
        rw [toNat_maxWord]; omega), toNat_maxWord, hbytes]
      simp only [ne_eq, not_true_eq_false, false_or]
      omega
    change ite _ _ _ = ite _ _ _
    simp only [hcount, hfits]
    rfl

/-! ## Streams of complete frames -/

variable {batches : List CanonicalBatch} {parts : List (List (List UInt8))}

theorem validateBatches_of (h : List.Forall₂ BatchOf batches parts) : ∀ state : ValidationState,
    state.summary.byteCount.toNat + parts.flatten.flatten.length < 2 ^ 64 →
    batches.foldlM (validateBatch blake3) state = (parts.flatten.foldlM (frameStep blake3) state).map
        (·.counted (UInt64.ofNat (state.summary.byteCount.toNat + parts.flatten.flatten.length))) := by
  induction h with
  | nil =>
    intro state _
    simp only [List.foldlM_nil, List.flatten_nil, List.length_nil, Nat.add_zero, UInt64.ofNat_toNat]
    rfl
  | @cons batch frames batches parts hbatch _ ih =>
    intro state hfits
    rw [List.flatten_cons, List.flatten_append, List.length_append] at hfits ⊢
    rw [List.foldlM_cons, List.foldlM_append, validateBatch_of blake3 hbatch]
    cases frames.foldlM (frameStep blake3) state with
    | error status => rfl
    | ok next =>
      have hadd : (state.summary.byteCount + batch.byteCount).toNat =
          state.summary.byteCount.toNat + frames.flatten.length := by
        rw [toNat_add_of_lt (by rw [hbatch.byteCount]; omega), hbatch.byteCount]
      have hrest := ih (next.counted (state.summary.byteCount + batch.byteCount)) (by
        rw [counted_byteCount, hadd]
        omega)
      change (ite _ _ _ >>= fun state => batches.foldlM (validateBatch blake3) state) = _
      rw [if_neg (by omega)]
      change batches.foldlM (validateBatch blake3) _ = _
      rw [hrest, counted_byteCount, hadd, foldlM_frameStep_counted, Nat.add_assoc]
      change _ = Except.map _ (parts.flatten.foldlM (frameStep blake3) next)
      cases parts.flatten.foldlM (frameStep blake3) next <;> rfl

theorem validateBatches_overflow (h : List.Forall₂ BatchOf batches parts) :
    ∀ {state next : ValidationState},
    2 ^ 64 ≤ state.summary.byteCount.toNat + parts.flatten.flatten.length →
    batches.foldlM (validateBatch blake3) state ≠ .ok next := by
  induction h with
  | nil =>
    intro state next hover
    have hmax := state.summary.byteCount.toNat_lt
    rw [List.flatten_nil, List.flatten_nil, List.length_nil] at hover
    omega
  | @cons batch frames batches parts hbatch _ ih =>
    intro state next hover hrun
    rw [List.flatten_cons, List.flatten_append, List.length_append] at hover
    obtain ⟨middle, hmiddle, hrest⟩ := ok_of_bind hrun
    rw [validateBatch_of blake3 hbatch] at hmiddle
    obtain ⟨reached, -, hreached⟩ := ok_of_bind hmiddle
    split_ifs at hreached with hfits
    cases hreached
    refine ih ?_ hrest
    rw [counted_byteCount, toNat_add_of_lt (by rw [hbatch.byteCount]; omega), hbatch.byteCount]
    omega

/-- What a stream of frames is checked to, without regard to batches. -/
def validateWhole (frames : List (List UInt8)) : Except Status Summary := do
  let state ← frames.foldlM (frameStep blake3) .zero
  let state ← closePhysicality blake3 state
  if state.summary.frameCount = 0 then .error .recordInvalid
  else .ok { state.summary with byteCount := UInt64.ofNat frames.flatten.length }

theorem validateStream_of (h : List.Forall₂ BatchOf batches parts) (hnonempty : batches ≠ [])
    (hfits : parts.flatten.flatten.length < 2 ^ 64) :
    validateStream blake3 batches = validateWhole blake3 parts.flatten := by
  have hzero : ValidationState.zero.summary.byteCount.toNat = 0 := rfl
  have hrun := validateBatches_of blake3 h .zero (by rwa [hzero, Nat.zero_add])
  rw [hzero, Nat.zero_add] at hrun
  rw [validateStream, if_neg hnonempty, hrun, validateWhole]
  cases parts.flatten.foldlM (frameStep blake3) .zero with
  | error status => rfl
  | ok state =>
    change closePhysicality blake3 (state.counted _) >>= _ = _
    rw [closePhysicality_counted]
    change _ = closePhysicality blake3 state >>= _
    cases closePhysicality blake3 state <;> rfl

theorem parts_eq_nil (h : List.Forall₂ BatchOf batches parts) : batches = [] ↔ parts.flatten = [] := by
  cases h with
  | nil => exact ⟨fun _ => rfl, fun _ => rfl⟩
  | cons hbatch _ =>
    refine ⟨fun h => (nomatch h), fun hflatten => ?_⟩
    rw [List.flatten_cons, List.append_eq_nil_iff] at hflatten
    exact absurd hflatten.1 hbatch.nonempty

/-- **The batches do not matter**: two streams of the same frames are accepted together and with
the same summary. The status of a rejection is the same too if a word counts the bytes. -/
theorem validateStream_frames {batches' : List CanonicalBatch} {parts' : List (List (List UInt8))}
    (h : List.Forall₂ BatchOf batches parts) (h' : List.Forall₂ BatchOf batches' parts')
    (hframes : parts.flatten = parts'.flatten) : (∀ summary, validateStream blake3 batches = .ok summary ↔
      validateStream blake3 batches' = .ok summary) ∧ (parts.flatten.flatten.length < 2 ^ 64 →
      validateStream blake3 batches = validateStream blake3 batches') := by
  by_cases hempty : batches = []
  · have hempty' := (parts_eq_nil h').2 (hframes ▸ (parts_eq_nil h).1 hempty)
    rw [hempty, hempty']
    exact ⟨fun _ => Iff.rfl, fun _ => rfl⟩
  · have hempty' : batches' ≠ [] := fun hnil =>
      hempty ((parts_eq_nil h).2 (hframes ▸ (parts_eq_nil h').1 hnil))
    by_cases hfits : parts.flatten.flatten.length < 2 ^ 64
    · have heq : validateStream blake3 batches = validateStream blake3 batches' := by
        rw [validateStream_of blake3 h hempty hfits,
          validateStream_of blake3 h' hempty' (hframes ▸ hfits), hframes]
      exact ⟨fun _ => by rw [heq], fun _ => heq⟩
    · have hrefused {batches parts} (h : List.Forall₂ BatchOf batches parts)
          (hover : ¬ parts.flatten.flatten.length < 2 ^ 64) (summary : Summary) :
          validateStream blake3 batches ≠ .ok summary := by
        intro haccepted
        unfold validateStream at haccepted
        split_ifs at haccepted
        obtain ⟨state, hrun, -⟩ := ok_of_bind haccepted
        exact validateBatches_overflow blake3 h (by omega) hrun
      exact ⟨fun summary => iff_of_false (hrefused h hfits summary)
        (hrefused h' (hframes ▸ hfits) summary), fun h => absurd h hfits⟩

/-! ## Streams that are accepted -/

/-- The records take the state from one to the other. -/
inductive Steps : ValidationState → List Value → ValidationState → Prop
  | nil {state : ValidationState} : Steps state [] state
  | cons {state middle next : ValidationState} {value : Value} {records : List Value}
      (accepted : value.Accepted blake3) (step : Step blake3 state value middle)
      (rest : Steps middle records next) : Steps state (value :: records) next

theorem Steps.foldlM {next : ValidationState} {records : List Value} (h : Steps blake3 state records next) :
    (records.map Value.frame).foldlM (frameStep blake3) state = .ok next := by
  induction h with
  | nil => rfl
  | cons haccepted hstep _ ih =>
    rw [List.map_cons, List.foldlM_cons, frameStep_of_step blake3 haccepted hstep]
    exact ih

theorem validateStream_of_steps {records : List Value} (h : Steps blake3 .zero records state)
    (hclosable : Closable blake3 state) (hcount : state.summary.frameCount ≠ 0)
    (hbatches : List.Forall₂ BatchOf batches parts)
    (hparts : parts.flatten = records.map Value.frame) (hnonempty : batches ≠ [])
    (hfits : parts.flatten.flatten.length < 2 ^ 64) : validateStream blake3 batches =
      .ok { state.summary with byteCount := UInt64.ofNat parts.flatten.flatten.length } := by
  rw [validateStream_of blake3 hbatches hnonempty hfits, hparts, validateWhole, h.foldlM]
  change closePhysicality blake3 state >>= _ = _
  rw [(closePhysicality_ok blake3).2 ⟨hclosable, rfl⟩]
  exact if_neg hcount

end Laplace.Persistence
