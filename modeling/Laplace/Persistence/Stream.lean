import Laplace.Framework.Types
import Laplace.Persistence.Codec

/-!
# Streams (persistence.c:794-1017)

`have_entity` and the like say whether the previous id is set: here it is an `Option`. The test
of `byte_count > SIZE_MAX` holds of no 64-bit word.
-/

namespace Laplace.Persistence

open Trajectory Checked Layout
open Framework (CanonicalBatch)

/-- `LAPLACE_PERSISTENCE_STREAM_RECORD_TYPE` -/
def streamRecordType : UInt32 := 262145

/-- `laplace_persistence_summary` -/
structure Summary where
  entityCount : UInt64
  physicalityCount : UInt64
  trajectorySegmentCount : UInt64
  attestationCount : UInt64
  consensusCount : UInt64
  logicalOccurrenceCount : UInt64
  frameCount : UInt64
  byteCount : UInt64
deriving DecidableEq

/-- `validation_state` -/
structure ValidationState where
  summary : Summary
  phase : UInt16
  previousEntity : Option Id128
  previousPhysicality : Option Digest256
  previousAttestation : Option Digest256
  previousConsensus : Option Digest256
  currentPhysicality : PhysicalityRecord
  currentVertices : UInt64
  currentLogicalCount : UInt64
  trajectoryHasher : List UInt8
  currentOpen : Bool

/-- After `memset`. -/
def ValidationState.zero : ValidationState where
  summary := ⟨0, 0, 0, 0, 0, 0, 0, 0⟩
  phase := 0
  previousEntity := none
  previousPhysicality := none
  previousAttestation := none
  previousConsensus := none
  currentPhysicality := ⟨0, 0, 0, 0, 0, 0, 0, 0, 0, 0, 0, fun _ => 0, 0, 0, 0⟩
  currentVertices := 0
  currentLogicalCount := 0
  trajectoryHasher := []
  currentOpen := false

/-- The `memcmp` with the previous id, which is below every other when it is not set. -/
def follows {width : ℕ} (previous : Option (BitVec width)) (next : BitVec width) : Bool :=
  match previous with
  | none => true
  | some previous => previous < next

section Functions

variable (blake3 : Blake3)

def closePhysicality (state : ValidationState) : Except Status ValidationState :=
  if ¬ state.currentOpen then .ok state
  else if state.currentPhysicality.physicalityType = physicalityAtomicPoint then
    if state.currentVertices ≠ 0 ∨ state.currentLogicalCount ≠ 0 then .error .trajectoryInvalid
    else .ok { state with currentOpen := false }
  else if state.currentVertices ≠ state.currentPhysicality.vertexCount ∨
      state.currentLogicalCount ≠ state.currentPhysicality.logicalCount ∨
      blake3 state.trajectoryHasher ≠ state.currentPhysicality.trajectoryFingerprint then
    .error .trajectoryInvalid
  else .ok { state with currentOpen := false }

/-! The cases of `validate_record`, one for each kind. -/

def validateEntity (state : ValidationState) (entity : EntityRecord) :
    Except Status ValidationState :=
  if state.phase > recordEntity then .error .orderInvalid
  else if ¬ follows state.previousEntity entity.entityId then .error .orderInvalid
  else .ok
    { state with
      previousEntity := some entity.entityId
      phase := recordEntity
      summary.entityCount := state.summary.entityCount + 1 }

def validatePhysicality (state : ValidationState) (physicality : PhysicalityRecord) :
    Except Status ValidationState :=
  if state.phase ≥ recordAttestation then .error .orderInvalid
  else do
    let state ← closePhysicality blake3 state
    if ¬ follows state.previousPhysicality physicality.physicalityId then .error .orderInvalid
    else
      return { state with
        previousPhysicality := some physicality.physicalityId
        phase := recordPhysicality
        currentPhysicality := physicality
        currentVertices := 0
        currentLogicalCount := 0
        currentOpen := true
        trajectoryHasher := trajectoryDomain
        summary.physicalityCount := state.summary.physicalityCount + 1 }

def validateTrajectorySegment (state : ValidationState) (segment : TrajectorySegmentRecord)
    (frame : List UInt8) : Except Status ValidationState :=
  let logicalOrdinal := state.currentLogicalCount + 1
  if ¬ state.currentOpen ∨
      state.currentPhysicality.physicalityType ≠ physicalityComposition ∨
      state.currentPhysicality.physicalityId ≠ segment.physicalityId ∨
      segment.vertexIndex ≠ state.currentVertices then .error .trajectoryInvalid
  else
    match compositionDecodeOne segment.carrier logicalOrdinal with
    | .error _ => .error .trajectoryInvalid
    | .ok occurrence =>
      if maxWord - state.currentLogicalCount < occurrence.runLength.toUInt64 then
        .error .trajectoryInvalid
      else .ok
        { state with
          trajectoryHasher :=
            state.trajectoryHasher ++ (frame.drop (frameHeaderBytes + 40)).take 32
          currentVertices := state.currentVertices + 1
          currentLogicalCount := state.currentLogicalCount + occurrence.runLength.toUInt64
          summary.trajectorySegmentCount := state.summary.trajectorySegmentCount + 1
          summary.logicalOccurrenceCount :=
            state.summary.logicalOccurrenceCount + occurrence.runLength.toUInt64 }

def validateAttestation (state : ValidationState) (attestation : AttestationRecord) :
    Except Status ValidationState :=
  match closePhysicality blake3 state with
  | .error _ => .error .trajectoryInvalid
  | .ok state =>
    if ¬ follows state.previousAttestation attestation.attestationId then .error .orderInvalid
    else .ok
      { state with
        previousAttestation := some attestation.attestationId
        phase := recordAttestation
        summary.attestationCount := state.summary.attestationCount + 1 }

def validateConsensus (state : ValidationState) (consensus : ConsensusRecord) :
    Except Status ValidationState :=
  match closePhysicality blake3 state with
  | .error _ => .error .trajectoryInvalid
  | .ok state =>
    if ¬ follows state.previousConsensus consensus.consensusId then .error .orderInvalid
    else .ok
      { state with
        previousConsensus := some consensus.consensusId
        phase := recordConsensus
        summary.consensusCount := state.summary.consensusCount + 1 }

def validateValue (state : ValidationState) (value : Value) (frame : List UInt8) :
    Except Status ValidationState :=
  match value with
  | .entity entity => validateEntity state entity
  | .physicality physicality => validatePhysicality blake3 state physicality
  | .trajectorySegment segment => validateTrajectorySegment state segment frame
  | .attestation attestation => validateAttestation blake3 state attestation
  | .consensus consensus => validateConsensus blake3 state consensus

def validateRecord (state : ValidationState) (record : Record) (frame : List UInt8) :
    Except Status ValidationState := do
  let state ← validateValue blake3 state record.value frame
  return { state with summary.frameCount := state.summary.frameCount + 1 }

/-- The loop over the frames of a batch; `bytes` is what is left of it. -/
def validateFrames (bytes : List UInt8) (records : UInt64) (state : ValidationState) :
    Except Status (UInt64 × ValidationState) :=
  match bytes with
  | [] => .ok (records, state)
  | first :: rest =>
    match _hdecode : frameDecode blake3 (first :: rest) with
    | .error status => .error status
    | .ok (record, consumed) =>
      match validateRecord blake3 state record (first :: rest) with
      | .error status => .error status
      | .ok state => validateFrames ((first :: rest).drop consumed) (records + 1) state
termination_by bytes.length
decreasing_by
  obtain ⟨-, -, hconsumed, -⟩ := frameDecode_ok blake3 _hdecode
  have hpos := record.value.frameBytes_kind_ne_zero
  rw [List.length_drop, List.length_cons]
  omega

def validateBatch (state : ValidationState) (batch : CanonicalBatch) :
    Except Status ValidationState :=
  match batch.canonicalBytes with
  | none => .error .recordInvalid
  | some bytes =>
    if batch.byteCount = 0 ∨ batch.recordCount = 0 ∨ batch.recordType ≠ streamRecordType ∨
        batch.flags ≠ 0 then .error .recordInvalid
    else do
      let (records, state) ← validateFrames blake3 bytes 0 state
      if records ≠ batch.recordCount ∨
          maxWord - state.summary.byteCount < batch.byteCount then .error .recordInvalid
      else
        .ok { state with summary.byteCount := state.summary.byteCount + batch.byteCount }

/-- `laplace_persistence_validate_stream`: the status or `*summary`. -/
def validateStream (batches : List CanonicalBatch) : Except Status Summary :=
  if batches = [] then .error .invalidArgument
  else do
    let state ← batches.foldlM (validateBatch blake3) .zero
    let state ← closePhysicality blake3 state
    if state.summary.frameCount = 0 then .error .recordInvalid else .ok state.summary

/-! ## The loop runs over the frames -/

/-- One round of the loop, on the bytes of one frame. -/
def frameStep (state : ValidationState) (frame : List UInt8) : Except Status ValidationState := do
  let (record, _) ← frameDecode blake3 frame
  validateRecord blake3 state record frame

theorem frameDecode_complete {frame : List UInt8} (h : CompleteFrame frame) {record : Record}
    {consumed : ℕ} (hdecode : frameDecode blake3 frame = .ok (record, consumed)) :
    frame = record.value.frame ∧ consumed = frame.length := by
  obtain ⟨-, -, hconsumed, hbytes⟩ := frameDecode_ok blake3 hdecode
  have hload : headerLayout.load frame = _ := (congrArg headerLayout.load hbytes).trans
    ((congrArg headerLayout.load (List.append_assoc ..)).trans (headerLayout.load_store _ _))
  rw [headerLayout_load, Prod.mk.injEq] at hload
  have hlen : frame.length = consumed := by
    rw [← h.length, hload.1, hconsumed]
    exact UInt32.toNat_ofNat_of_lt' (frameBytes_lt _)
  rw [← hlen, List.drop_length, List.append_nil] at hbytes
  exact ⟨hbytes, hlen.symm⟩

variable {state : ValidationState}

theorem validateRecord_append {record : Record} (rest : List UInt8) :
    validateRecord blake3 state record (record.value.frame ++ rest) =
      validateRecord blake3 state record record.value.frame := by
  obtain ⟨kind, version, declaredBytes, value⟩ := record
  cases value with
  | trajectorySegment segment =>
    have hlen : (Value.trajectorySegment segment).frame.length =
        frameBytes recordPhysicalityTrajectorySegment := Value.frame_length _
    have hbytes : frameBytes recordPhysicalityTrajectorySegment = 80 := by decide
    have htake : (((Value.trajectorySegment segment).frame ++ rest).drop (frameHeaderBytes + 40)).take
        32 = ((Value.trajectorySegment segment).frame.drop (frameHeaderBytes + 40)).take 32 := by
      have hheader : frameHeaderBytes = 8 := rfl
      rw [List.drop_append_of_le_length (by omega), List.take_append_of_le_length]
      rw [List.length_drop]
      omega
    simp only [validateRecord, validateValue, validateTrajectorySegment, htake]
  | entity | physicality | attestation | consensus => simp only [validateRecord, validateValue]

theorem validateFrames_cons {frame : List UInt8} (h : CompleteFrame frame) (rest : List UInt8)
    (records : UInt64) (state : ValidationState) : validateFrames blake3 (frame ++ rest) records state =
      frameStep blake3 state frame >>= validateFrames blake3 rest (records + 1) := by
  have happend := frameDecode_append blake3 h rest
  obtain ⟨first, tail, hbytes⟩ : ∃ first tail, frame ++ rest = first :: tail := by
    refine List.exists_cons_of_ne_nil fun hnil => ?_
    have hheader := h.header
    rw [(List.append_eq_nil_iff.1 hnil).1] at hheader
    exact absurd hheader (by decide)
  rw [hbytes, validateFrames, frameStep]
  rw [hbytes] at happend
  split
  · rename_i status hdecode
    rw [← happend, hdecode]
    rfl
  · rename_i record consumed hdecode
    have hframe := happend ▸ hdecode
    obtain ⟨hvalue, hconsumed⟩ := frameDecode_complete blake3 h hframe
    have hrecord := @validateRecord_append blake3 state record rest
    rw [← hvalue, hbytes] at hrecord
    rw [hframe, hrecord, ← hbytes, hconsumed, List.drop_left]
    change _ = validateRecord blake3 state record frame >>= _
    cases validateRecord blake3 state record frame <;> rfl

/-- **The loop of a batch is a loop over its frames.** -/
theorem validateFrames_flatten : ∀ {frames : List (List UInt8)},
    (∀ frame ∈ frames, CompleteFrame frame) → ∀ (records : UInt64) (state : ValidationState),
    validateFrames blake3 frames.flatten records state =
      (frames.foldlM (frameStep blake3) state).map (records + UInt64.ofNat frames.length, ·)
  | [], _, records, state => by
    rw [List.flatten_nil, validateFrames, List.foldlM_nil, List.length_nil]
    exact congrArg (fun r => Except.ok (r, state)) (UInt64.add_zero records).symm
  | frame :: frames, h, records, state => by
    rw [List.flatten_cons, validateFrames_cons blake3 (h frame List.mem_cons_self), List.foldlM_cons]
    cases frameStep blake3 state frame with
    | error status => rfl
    | ok next =>
      change validateFrames blake3 frames.flatten (records + 1) next = _
      rw [validateFrames_flatten fun f hf => h f (List.mem_cons_of_mem _ hf)]
      have hcount : records + 1 + UInt64.ofNat frames.length =
          records + UInt64.ofNat (frame :: frames).length := by
        rw [List.length_cons, UInt64.add_assoc, Nat.add_comm frames.length 1, UInt64.ofNat_add]
        rfl
      rw [hcount]
      rfl

theorem frames_of_validateFrames (bytes : List UInt8) (records : UInt64) (state : ValidationState)
    (result : UInt64 × ValidationState) (h : validateFrames blake3 bytes records state = .ok result) :
    ∃ values : List Value, (∀ value ∈ values, value.Accepted blake3) ∧
      bytes = (values.map Value.frame).flatten := by
  fun_induction validateFrames blake3 bytes records state with
  | case1 records state => exact ⟨[], by simp, rfl⟩
  | case2 => cases h
  | case3 => cases h
  | case4 records state first rest record consumed hdecode next hrecord ih =>
    obtain ⟨values, haccepted, hrest⟩ := ih h
    obtain ⟨hfirst, -, -, hbytes⟩ := frameDecode_ok blake3 hdecode
    refine ⟨record.value :: values, ?_, ?_⟩
    · rintro value hvalue
      rcases List.mem_cons.1 hvalue with rfl | hvalue
      · exact hfirst
      · exact haccepted value hvalue
    · rw [List.map_cons, List.flatten_cons, ← hrest, ← hbytes]

/-! ## What a round can do -/

/-- The open physicality, if there is one, has all its segments. -/
structure Closable (state : ValidationState) : Prop where
  atomic : state.currentOpen → state.currentPhysicality.physicalityType = physicalityAtomicPoint →
    state.currentVertices = 0 ∧ state.currentLogicalCount = 0
  composition : state.currentOpen →
    state.currentPhysicality.physicalityType ≠ physicalityAtomicPoint →
    state.currentVertices = state.currentPhysicality.vertexCount ∧
      state.currentLogicalCount = state.currentPhysicality.logicalCount ∧
      blake3 state.trajectoryHasher = state.currentPhysicality.trajectoryFingerprint

def ValidationState.close (state : ValidationState) : ValidationState :=
  { state with currentOpen := false }

variable {next : ValidationState}

theorem closePhysicality_ok :
    closePhysicality blake3 state = .ok next ↔ Closable blake3 state ∧ next = state.close := by
  unfold closePhysicality
  by_cases hopen : state.currentOpen
  · rw [if_neg (not_not.2 hopen)]
    by_cases hatomic : state.currentPhysicality.physicalityType = physicalityAtomicPoint
    · rw [if_pos hatomic]
      split_ifs with hcounts
      · refine ⟨fun h => (nomatch h), fun ⟨hclosable, _⟩ => ?_⟩
        obtain ⟨hvertices, hlogical⟩ := hclosable.atomic hopen hatomic
        exact absurd hcounts (by simp [hvertices, hlogical])
      · simp only [not_or, not_not] at hcounts
        rw [Except.ok.injEq]
        exact ⟨fun h => ⟨⟨fun _ _ => hcounts, fun _ h => absurd hatomic h⟩, h.symm⟩,
          fun h => h.2.symm⟩
    · rw [if_neg hatomic]
      split_ifs with hcounts
      · refine ⟨fun h => (nomatch h), fun ⟨hclosable, _⟩ => ?_⟩
        obtain ⟨hvertices, hlogical, hhash⟩ := hclosable.composition hopen hatomic
        exact absurd hcounts (by simp [hvertices, hlogical, hhash])
      · simp only [not_or, not_not] at hcounts
        rw [Except.ok.injEq]
        exact ⟨fun h => ⟨⟨fun _ h => absurd h hatomic, fun _ _ => hcounts⟩, h.symm⟩,
          fun h => h.2.symm⟩
  · rw [if_pos hopen, Except.ok.injEq]
    have hclose : state.close = state := by
      rw [ValidationState.close, ← Bool.eq_false_iff.2 hopen]
    exact ⟨fun h => ⟨⟨fun h => absurd h hopen, fun h => absurd h hopen⟩, by rw [hclose, h]⟩,
      fun h => by rw [h.2, hclose]⟩

/-- What a round does with a value, and when. -/
inductive Step (state : ValidationState) : Value → ValidationState → Prop
  | entity {record : EntityRecord} (phase : state.phase ≤ recordEntity)
      (order : follows state.previousEntity record.entityId) :
      Step state (.entity record)
        { state with
          previousEntity := some record.entityId
          phase := recordEntity
          summary.entityCount := state.summary.entityCount + 1
          summary.frameCount := state.summary.frameCount + 1 }
  | physicality {record : PhysicalityRecord} (phase : state.phase < recordAttestation)
      (closable : Closable blake3 state)
      (order : follows state.previousPhysicality record.physicalityId) :
      Step state (.physicality record)
        { state with
          previousPhysicality := some record.physicalityId
          phase := recordPhysicality
          currentPhysicality := record
          currentVertices := 0
          currentLogicalCount := 0
          currentOpen := true
          trajectoryHasher := trajectoryDomain
          summary.physicalityCount := state.summary.physicalityCount + 1
          summary.frameCount := state.summary.frameCount + 1 }
  | trajectorySegment {record : TrajectorySegmentRecord} {occurrence : CompositionOccurrence}
      (isOpen : state.currentOpen)
      (composition : state.currentPhysicality.physicalityType = physicalityComposition)
      (owner : state.currentPhysicality.physicalityId = record.physicalityId)
      (index : record.vertexIndex = state.currentVertices)
      (decoded : compositionDecodeOne record.carrier (state.currentLogicalCount + 1) = .ok occurrence)
      (fits : state.currentLogicalCount.toNat + occurrence.runLength.toNat < 2 ^ 64) :
      Step state (.trajectorySegment record)
        { state with
          trajectoryHasher := state.trajectoryHasher ++ storeDoubles record.carrier
          currentVertices := state.currentVertices + 1
          currentLogicalCount := state.currentLogicalCount + occurrence.runLength.toUInt64
          summary.trajectorySegmentCount := state.summary.trajectorySegmentCount + 1
          summary.logicalOccurrenceCount :=
            state.summary.logicalOccurrenceCount + occurrence.runLength.toUInt64
          summary.frameCount := state.summary.frameCount + 1 }
  | attestation {record : AttestationRecord} (closable : Closable blake3 state)
      (order : follows state.previousAttestation record.attestationId) :
      Step state (.attestation record)
        { state.close with
          previousAttestation := some record.attestationId
          phase := recordAttestation
          summary.attestationCount := state.summary.attestationCount + 1
          summary.frameCount := state.summary.frameCount + 1 }
  | consensus {record : ConsensusRecord} (closable : Closable blake3 state)
      (order : follows state.previousConsensus record.consensusId) :
      Step state (.consensus record)
        { state.close with
          previousConsensus := some record.consensusId
          phase := recordConsensus
          summary.consensusCount := state.summary.consensusCount + 1
          summary.frameCount := state.summary.frameCount + 1 }

theorem frame_carrier (segment : TrajectorySegmentRecord) :
    ((Value.trajectorySegment segment).frame.drop (frameHeaderBytes + 40)).take 32 =
      storeDoubles segment.carrier := by
  have hcarrier : (storeDoubles segment.carrier).length = 32 := by
    rw [storeDoubles_eq]
    exact word64.four.length_store _
  have hrun : (Value.header recordPhysicalityTrajectorySegment ++
      ((bits 32).store segment.physicalityId ++
        word64.store segment.vertexIndex)).length = frameHeaderBytes + 40 := by
    rw [List.length_append, Value.header_length, List.length_append, length_store,
      length_store]
    rfl
  have hframe : (Value.trajectorySegment segment).frame =
      (Value.header recordPhysicalityTrajectorySegment ++ ((bits 32).store segment.physicalityId ++
          word64.store segment.vertexIndex)) ++ storeDoubles segment.carrier := by
    rw [storeDoubles_eq, List.append_assoc, List.append_assoc]
    rfl
  rw [hframe, List.drop_left' hrun, ← hcarrier, List.take_length]

theorem ok_of_bind {α β : Type} {result : Except Status α} {next : α → Except Status β} {value : β}
    (h : result >>= next = .ok value) : ∃ middle, result = .ok middle ∧ next middle = .ok value := by
  cases result with
  | error status => cases h
  | ok middle => exact ⟨middle, rfl, h⟩

theorem frameStep_ok {value : Value} (h : value.Accepted blake3)
    (hstep : frameStep blake3 state value.frame = .ok next) : Step blake3 state value next := by
  have hdecode := frameDecode_frame blake3 h []
  rw [List.append_nil] at hdecode
  rw [frameStep, hdecode] at hstep
  have hrecord : validateRecord blake3 state ⟨value.kind, frameVersion, _, value⟩ value.frame =
    .ok next := hstep
  rw [validateRecord] at hrecord
  obtain ⟨middle, hmiddle, hnext⟩ := ok_of_bind hrecord
  cases hnext
  cases value with
  | entity record =>
    simp only [validateValue, validateEntity] at hmiddle
    split_ifs at hmiddle with hphase horder
    cases hmiddle
    exact .entity (UInt16.not_lt.1 hphase) horder
  | physicality record =>
    simp only [validateValue, validatePhysicality] at hmiddle
    split_ifs at hmiddle with hphase
    obtain ⟨closed, hclose, hmiddle⟩ := ok_of_bind hmiddle
    obtain ⟨hclosable, rfl⟩ := (closePhysicality_ok blake3).1 hclose
    split_ifs at hmiddle with horder
    cases hmiddle
    exact .physicality (UInt16.not_le.1 hphase) hclosable horder
  | trajectorySegment record =>
    simp only [validateValue, validateTrajectorySegment, frame_carrier] at hmiddle
    split_ifs at hmiddle with howner
    simp only [not_or, not_not] at howner
    cases hone : compositionDecodeOne record.carrier (state.currentLogicalCount + 1) with
    | error status =>
      rw [hone] at hmiddle
      cases hmiddle
    | ok occurrence =>
      simp only [hone] at hmiddle
      split_ifs at hmiddle with hfits
      cases hmiddle
      have hmax := state.currentLogicalCount.toNat_lt
      rw [UInt64.lt_iff_toNat_lt, toNat_sub_of_le (by rw [toNat_maxWord]; omega),
        UInt16.toNat_toUInt64, toNat_maxWord] at hfits
      exact .trajectorySegment howner.1 howner.2.1 howner.2.2.1 howner.2.2.2 hone (by omega)
  | attestation record =>
    simp only [validateValue, validateAttestation] at hmiddle
    cases hclose : closePhysicality blake3 state with
    | error status =>
      rw [hclose] at hmiddle
      cases hmiddle
    | ok closed =>
      obtain ⟨hclosable, rfl⟩ := (closePhysicality_ok blake3).1 hclose
      simp only [hclose] at hmiddle
      split_ifs at hmiddle with horder
      cases hmiddle
      exact .attestation hclosable horder
  | consensus record =>
    simp only [validateValue, validateConsensus] at hmiddle
    cases hclose : closePhysicality blake3 state with
    | error status =>
      rw [hclose] at hmiddle
      cases hmiddle
    | ok closed =>
      obtain ⟨hclosable, rfl⟩ := (closePhysicality_ok blake3).1 hclose
      simp only [hclose] at hmiddle
      split_ifs at hmiddle with horder
      cases hmiddle
      exact .consensus hclosable horder

theorem frameStep_of_step {value : Value} (h : value.Accepted blake3)
    (hstep : Step blake3 state value next) : frameStep blake3 state value.frame = .ok next := by
  have hdecode := frameDecode_frame blake3 h []
  rw [List.append_nil] at hdecode
  rw [frameStep, hdecode]
  change validateRecord blake3 state ⟨value.kind, frameVersion, _, value⟩ value.frame = .ok next
  rw [validateRecord]
  cases hstep with
  | entity hphase horder =>
    rw [validateValue, validateEntity, if_neg (UInt16.not_lt.2 hphase), if_neg (not_not.2 horder)]
    rfl
  | physicality hphase hclosable horder =>
    rw [validateValue, validatePhysicality, if_neg (UInt16.not_le.2 hphase),
      (closePhysicality_ok blake3).2 ⟨hclosable, rfl⟩]
    change (ite _ _ _ >>= _) = _
    rw [if_neg (not_not.2 (show follows state.close.previousPhysicality _ from horder))]
    rfl
  | @trajectorySegment record occurrence hopen hcomposition howner hindex hdecoded hfits =>
    have hmax := state.currentLogicalCount.toNat_lt
    have hroom : ¬ maxWord - state.currentLogicalCount < occurrence.runLength.toUInt64 := by
      rw [UInt64.lt_iff_toNat_lt, toNat_sub_of_le (by rw [toNat_maxWord]; omega),
        UInt16.toNat_toUInt64, toNat_maxWord]
      omega
    rw [validateValue, validateTrajectorySegment, frame_carrier]
    have howned : ¬ (¬ state.currentOpen ∨
        state.currentPhysicality.physicalityType ≠ physicalityComposition ∨
        state.currentPhysicality.physicalityId ≠ record.physicalityId ∨
        record.vertexIndex ≠ state.currentVertices) := by
      simp [hopen, hcomposition, howner, hindex]
    simp only [if_neg howned, hdecoded, if_neg hroom]
    rfl
  | attestation hclosable horder =>
    rw [validateValue, validateAttestation, (closePhysicality_ok blake3).2 ⟨hclosable, rfl⟩]
    change (ite _ _ _ >>= _) = _
    rw [if_neg (not_not.2 (show follows state.close.previousAttestation _ from horder))]
    rfl
  | consensus hclosable horder =>
    rw [validateValue, validateConsensus, (closePhysicality_ok blake3).2 ⟨hclosable, rfl⟩]
    change (ite _ _ _ >>= _) = _
    rw [if_neg (not_not.2 (show follows state.close.previousConsensus _ from horder))]
    rfl

/-! ## The records of a stream -/

def streamBytes (batches : List CanonicalBatch) : List UInt8 :=
  batches.flatMap CanonicalBatch.bytes

/-- The frames of the records, one after another, are the bytes of the stream. -/
structure Records (batches : List CanonicalBatch) (records : List Value) : Prop where
  accepted : ∀ value ∈ records, value.Accepted blake3
  bytes : streamBytes batches = (records.map Value.frame).flatten

theorem frames_injective : ∀ {left right : List Value}, (∀ value ∈ left, value.Accepted blake3) →
    (∀ value ∈ right, value.Accepted blake3) →
    (left.map Value.frame).flatten = (right.map Value.frame).flatten → left = right
  | [], [], _, _, _ => rfl
  | [], value :: _, _, _, h => by
    have hpos := value.frameBytes_kind_ne_zero
    have hlen := congrArg List.length h
    rw [List.map_cons, List.flatten_cons, List.length_append, value.frame_length] at hlen
    simp at hlen
    omega
  | value :: _, [], _, _, h => by
    have hpos := value.frameBytes_kind_ne_zero
    have hlen := congrArg List.length h
    rw [List.map_cons, List.flatten_cons, List.length_append, value.frame_length] at hlen
    simp at hlen
    omega
  | value :: left, value' :: right, hleft, hright, h => by
    rw [List.map_cons, List.flatten_cons, List.map_cons, List.flatten_cons] at h
    have hdecode := frameDecode_frame blake3 (hleft value List.mem_cons_self)
      (left.map Value.frame).flatten
    rw [h, frameDecode_frame blake3 (hright value' List.mem_cons_self), Except.ok.injEq,
      Prod.mk.injEq, Record.mk.injEq] at hdecode
    obtain ⟨⟨-, -, -, rfl⟩, -⟩ := hdecode
    rw [frames_injective (fun v hv => hleft v (List.mem_cons_of_mem _ hv))
      (fun v hv => hright v (List.mem_cons_of_mem _ hv)) (List.append_cancel_left h)]

theorem Records.unique {batches : List CanonicalBatch} {left right : List Value}
    (hleft : Records blake3 batches left) (hright : Records blake3 batches right) : left = right :=
  frames_injective blake3 hleft.accepted hright.accepted (hleft.bytes.symm.trans hright.bytes)

/-- The states that are reached behind a list of records; the summary is counted on the side. -/
inductive Reached : List Value → ValidationState → Prop
  | start : Reached [] .zero
  | step {records : List Value} {state next : ValidationState} {value : Value}
      (reached : Reached records state) (accepted : value.Accepted blake3)
      (step : Step blake3 state value next) : Reached (records ++ [value]) next
  | counted {records : List Value} {state : ValidationState} (reached : Reached records state)
      (summary : Summary) : Reached records { state with summary }

theorem Reached.accepted {records : List Value} (h : Reached blake3 records state) :
    ∀ value ∈ records, value.Accepted blake3 := by
  induction h with
  | start => simp
  | step _ haccepted _ ih =>
    intro value hvalue
    rcases List.mem_append.1 hvalue with hvalue | hvalue
    · exact ih value hvalue
    · rwa [List.mem_singleton.1 hvalue]
  | counted _ _ ih => exact ih

theorem Reached.frames {values : List Value} : ∀ {records : List Value}
    {state next : ValidationState}, Reached blake3 records state →
    (∀ value ∈ values, value.Accepted blake3) →
    (values.map Value.frame).foldlM (frameStep blake3) state = .ok next →
    Reached blake3 (records ++ values) next := by
  induction values with
  | nil =>
    intro records state next hreached _ h
    cases h
    rwa [List.append_nil]
  | cons value values ih =>
    intro records state next hreached haccepted h
    obtain ⟨middle, hstep, hrest⟩ := ok_of_bind h
    have hvalue := haccepted value List.mem_cons_self
    have hmiddle := hreached.step hvalue (frameStep_ok blake3 hvalue hstep)
    rw [List.append_cons]
    exact ih hmiddle (fun v hv => haccepted v (List.mem_cons_of_mem _ hv)) hrest

theorem Reached.batch {batch : CanonicalBatch} {records : List Value}
    (hreached : Reached blake3 records state) (h : validateBatch blake3 state batch = .ok next) :
    ∃ values, batch.bytes = (values.map Value.frame).flatten ∧ Reached blake3 (records ++ values) next := by
  unfold validateBatch at h
  cases hbytes : batch.canonicalBytes with
  | none =>
    rw [hbytes] at h
    cases h
  | some bytes =>
    simp only [hbytes] at h
    split_ifs at h
    obtain ⟨⟨count, middle⟩, hframes, h⟩ := ok_of_bind h
    obtain ⟨values, haccepted, rfl⟩ := frames_of_validateFrames blake3 _ _ _ _ hframes
    have hcomplete : ∀ frame ∈ values.map Value.frame, CompleteFrame frame := fun frame hframe => by
      obtain ⟨value, -, rfl⟩ := List.mem_map.1 hframe
      exact completeFrame_frame value
    rw [validateFrames_flatten blake3 hcomplete] at hframes
    obtain ⟨reached, hrun, hpair⟩ := map_eq_ok.1 hframes
    cases hpair
    dsimp only at h
    split_ifs at h
    cases h
    exact ⟨values, by rw [CanonicalBatch.bytes, hbytes, Option.getD_some],
      (hreached.frames blake3 haccepted hrun).counted _⟩

theorem Reached.batches : ∀ {batches : List CanonicalBatch} {records : List Value}
    {state next : ValidationState}, Reached blake3 records state →
    batches.foldlM (validateBatch blake3) state = .ok next →
    ∃ values, streamBytes batches = (values.map Value.frame).flatten ∧
      Reached blake3 (records ++ values) next
  | [], records, state, next, hreached, h => by
    cases h
    exact ⟨[], rfl, by rwa [List.append_nil]⟩
  | batch :: batches, records, state, next, hreached, h => by
    obtain ⟨middle, hbatch, hrest⟩ := ok_of_bind h
    obtain ⟨values, hbytes, hmiddle⟩ := hreached.batch blake3 hbatch
    obtain ⟨rest, hrestBytes, hnext⟩ := hmiddle.batches hrest
    refine ⟨values ++ rest, ?_, by rwa [← List.append_assoc]⟩
    rw [List.map_append, List.flatten_append, ← hbytes, ← hrestBytes]
    rfl

/-- **An accepted stream is a list of records** that lead to a state in which nothing is open. -/
theorem validateStream_ok {batches : List CanonicalBatch} {summary : Summary}
    (h : validateStream blake3 batches = .ok summary) :
    ∃ records state, Records blake3 batches records ∧ Reached blake3 records state ∧
      Closable blake3 state := by
  unfold validateStream at h
  split_ifs at h
  obtain ⟨state, hbatches, h⟩ := ok_of_bind h
  obtain ⟨closed, hclose, -⟩ := ok_of_bind h
  obtain ⟨records, hbytes, hreached⟩ := Reached.batches blake3 .start hbatches
  exact ⟨records, state, ⟨hreached.accepted, hbytes⟩, hreached, ((closePhysicality_ok blake3).1 hclose).1⟩

end Functions

end Laplace.Persistence
