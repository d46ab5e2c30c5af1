import Laplace.Lib.Outcome
import Laplace.Persistence.Frame

/-!
# The frame codec

A frame is the header of its kind and the payload of its value. The encoders write the frames of
the accepted values and the decoder reads them back: the layouts of the five payloads carry both
directions.
-/

namespace Laplace.Persistence

open Trajectory Layout

/-! ## The layouts of the payloads -/

def entityLayout : Layout EntityRecord :=
  ((bits 16).pair (bits 32)).map
    { toFun := fun fields => ⟨fields.1, fields.2⟩
      invFun := fun entity => (entity.entityId, entity.identityWitness)
      left_inv := fun _ => rfl
      right_inv := fun _ => rfl }

def physicalityLayout : Layout PhysicalityRecord :=
  ((bits 32).pair <| (bits 16).pair <| word32.pair <| word32.pair <|
    word32.pair <| word32.pair <| word32.pair <| word32.pair <|
    (bits 32).pair <| (bits 32).pair <| (bits 32).pair <|
    word64.four.pair <| word64.pair <| word64.pair word64).map
    { toFun := fun (id, entity, kind, vertex, version, form, dimensions, flags, recipe, epoch,
          trajectory, centroid, radius, logical, vertices) =>
        ⟨id, entity, kind, vertex, version, form, dimensions, flags, recipe, epoch, trajectory,
          centroid, radius, logical, vertices⟩
      invFun := fun r => (r.physicalityId, r.entityId, r.physicalityType, r.vertexClass,
        r.recipeVersion, r.structuralForm, r.dimensionCount, r.flags, r.recipeFingerprint,
        r.geometryEpoch, r.trajectoryFingerprint, r.centroid, r.radius, r.logicalCount,
        r.vertexCount)
      left_inv := fun _ => rfl
      right_inv := fun _ => rfl }

def headerLayout : Layout (UInt32 × UInt16 × UInt16) :=
  word32.pair (word16.pair word16)

def trajectorySegmentLayout : Layout (Digest256 × UInt64 × Carrier) :=
  (bits 32).pair (word64.pair word64.four)

def attestationLayout : Layout AttestationRecord :=
  ((bits 32).pair <| (bits 16).pair <| (bits 32).pair <|
    (bits 32).pair <| (bits 32).pair <| word64.pair <|
    word32.pair word32).map
    { toFun := fun (id, entity, physicality, source, context, ordinal, flags, kind) =>
        ⟨id, entity, physicality, source, context, ordinal, flags, kind⟩
      invFun := fun r => (r.attestationId, r.entityId, r.physicalityId, r.sourceFingerprint,
        r.contextFingerprint, r.sourceOrdinal, r.flags, r.attestationKind)
      left_inv := fun _ => rfl
      right_inv := fun _ => rfl }

def consensusLayout : Layout ConsensusRecord :=
  ((bits 32).pair <| (bits 16).pair <| (bits 32).pair <|
    (bits 32).pair <| (bits 32).pair <| word64.pair <|
    word64.pair <| word32.pair <| word32.pair word64).map
    { toFun := fun (id, proposition, epoch, evidence, recipe, observations, roots, disposition,
          flags, standing) =>
        ⟨id, proposition, epoch, evidence, recipe, observations, roots, disposition, flags, standing⟩
      invFun := fun r => (r.consensusId, r.propositionEntityId, r.epochId, r.evidenceBoundary,
        r.recipeFingerprint, r.observationCount, r.independentRootCount, r.disposition, r.flags,
        r.standing)
      left_inv := fun _ => rfl
      right_inv := fun _ => rfl }

/-! ## The payloads that are written -/

theorem physicalityPayload_eq (physicality : PhysicalityRecord) :
    physicalityPayload physicality = physicalityLayout.store physicality := by
  simp only [physicalityPayload, digest_bytes_eq, id_bytes_eq, u32Bytes_eq, u64Bytes_eq, storeDoubles_eq]
  rfl

theorem attestationPayload_eq (attestation : AttestationRecord) :
    attestationPayload attestation = attestationLayout.store attestation := by
  simp only [attestationPayload, digest_bytes_eq, id_bytes_eq, u32Bytes_eq, u64Bytes_eq]
  rfl

theorem consensusPayload_eq (consensus : ConsensusRecord) :
    consensusPayload consensus = consensusLayout.store consensus := by
  simp only [consensusPayload, digest_bytes_eq, id_bytes_eq, u32Bytes_eq, u64Bytes_eq]
  rfl

/-! ## The values that are read -/

theorem checked_ok {α : Type} (check : α → Prop) [DecidablePred check] {status : Status}
    {loaded value : α} :
    (if ¬ check loaded then .error status else .ok loaded : Except Status α) = .ok value ↔
      loaded = value ∧ check value := by
  by_cases hcheck : check loaded
  · rw [if_neg (not_not.2 hcheck), Except.ok.injEq]
    exact ⟨fun h => ⟨h, h ▸ hcheck⟩, fun h => h.1⟩
  · rw [if_pos hcheck]
    exact ⟨fun h => (nomatch h), fun h => absurd (h.1 ▸ h.2) hcheck⟩

variable (blake3 : Blake3)

theorem decodeEntity_eq (payload : List UInt8) : decodeEntity payload =
    if (entityLayout.load payload).entityId ≠
      Identity.identityOf (entityLayout.load payload).identityWitness then .error .recordInvalid
    else .ok (entityLayout.load payload) := by
  simp only [decodeEntity, loadId_eq, loadDigest_eq]
  rfl

theorem decodeEntity_ok {payload : List UInt8} {entity : EntityRecord} : decodeEntity payload = .ok entity ↔
      entityLayout.load payload = entity ∧
        entity.entityId = Identity.identityOf entity.identityWitness := by
  rw [decodeEntity_eq]
  exact checked_ok fun entity : EntityRecord => entity.entityId = Identity.identityOf entity.identityWitness

theorem decodePhysicality_eq (payload : List UInt8) : decodePhysicality blake3 payload =
    if ¬ identityMatches (physicalityIdentify blake3 (physicalityLayout.load payload))
      (physicalityLayout.load payload).physicalityId then .error .identityMismatch
    else .ok (physicalityLayout.load payload) := by
  simp only [decodePhysicality, loadDigest_eq, loadId_eq, loadU32_eq, loadU64_eq, loadDoubles_eq]
  simp only [physicalityLayout, map, pair, List.drop_drop]
  rfl

theorem decodePhysicality_ok {payload : List UInt8} {physicality : PhysicalityRecord} :
    decodePhysicality blake3 payload = .ok physicality ↔ physicalityLayout.load payload = physicality ∧
        identityMatches (physicalityIdentify blake3 physicality) physicality.physicalityId := by
  rw [decodePhysicality_eq]
  exact checked_ok fun physicality : PhysicalityRecord =>
    identityMatches (physicalityIdentify blake3 physicality) physicality.physicalityId

theorem decodeTrajectorySegment_eq (payload : List UInt8) : decodeTrajectorySegment payload =
    match carrierDecode (trajectorySegmentLayout.load payload).2.2 with
    | .error _ => .error .trajectoryInvalid
    | .ok _ => .ok ⟨(trajectorySegmentLayout.load payload).1,
        (trajectorySegmentLayout.load payload).2.1, (trajectorySegmentLayout.load payload).2.2,
        .zero⟩ := by
  simp only [decodeTrajectorySegment, loadDigest_eq, loadU64_eq, loadDoubles_eq]
  simp only [trajectorySegmentLayout, pair, List.drop_drop]
  rfl

theorem decodeTrajectorySegment_ok {payload : List UInt8} {segment : TrajectorySegmentRecord} :
    decodeTrajectorySegment payload = .ok segment ↔ trajectorySegmentLayout.load payload =
          (segment.physicalityId, segment.vertexIndex, segment.carrier) ∧
        (∃ payload, carrierDecode segment.carrier = .ok payload) ∧ segment.occurrence = .zero := by
  rw [decodeTrajectorySegment_eq]
  obtain ⟨id, index, carrier⟩ := trajectorySegmentLayout.load payload
  obtain ⟨id', index', carrier', occurrence⟩ := segment
  cases hdecode : carrierDecode carrier with
  | error status =>
    simp only [reduceCtorEq, false_iff, Prod.mk.injEq]
    rintro ⟨⟨-, -, rfl⟩, ⟨decoded, hok⟩, -⟩
    rw [hdecode] at hok
    cases hok
  | ok decoded =>
    simp only [Except.ok.injEq, Prod.mk.injEq, TrajectorySegmentRecord.mk.injEq]
    constructor
    · rintro ⟨rfl, rfl, rfl, rfl⟩
      exact ⟨⟨rfl, rfl, rfl⟩, ⟨decoded, hdecode⟩, rfl⟩
    · rintro ⟨⟨rfl, rfl, rfl⟩, -, rfl⟩
      exact ⟨rfl, rfl, rfl, rfl⟩

theorem decodeAttestation_eq (payload : List UInt8) : decodeAttestation blake3 payload =
    if ¬ identityMatches (attestationIdentify blake3 (attestationLayout.load payload))
      (attestationLayout.load payload).attestationId then .error .identityMismatch
    else .ok (attestationLayout.load payload) := by
  simp only [decodeAttestation, loadDigest_eq, loadId_eq, loadU32_eq, loadU64_eq]
  simp only [attestationLayout, map, pair, List.drop_drop]
  rfl

theorem decodeAttestation_ok {payload : List UInt8} {attestation : AttestationRecord} :
    decodeAttestation blake3 payload = .ok attestation ↔ attestationLayout.load payload = attestation ∧
        identityMatches (attestationIdentify blake3 attestation) attestation.attestationId := by
  rw [decodeAttestation_eq]
  exact checked_ok fun attestation : AttestationRecord =>
    identityMatches (attestationIdentify blake3 attestation) attestation.attestationId

theorem decodeConsensus_eq (payload : List UInt8) : decodeConsensus blake3 payload =
    if ¬ identityMatches (consensusIdentify blake3 (consensusLayout.load payload))
      (consensusLayout.load payload).consensusId then .error .identityMismatch
    else .ok (consensusLayout.load payload) := by
  simp only [decodeConsensus, loadDigest_eq, loadId_eq, loadU32_eq, loadU64_eq]
  simp only [consensusLayout, map, pair, List.drop_drop]
  rfl

theorem decodeConsensus_ok {payload : List UInt8} {consensus : ConsensusRecord} :
    decodeConsensus blake3 payload = .ok consensus ↔ consensusLayout.load payload = consensus ∧
        identityMatches (consensusIdentify blake3 consensus) consensus.consensusId := by
  rw [decodeConsensus_eq]
  exact checked_ok fun consensus : ConsensusRecord =>
    identityMatches (consensusIdentify blake3 consensus) consensus.consensusId

/-! ## Accepted values and their frames -/

namespace Value

def kind : Value → UInt16
  | .entity _ => recordEntity
  | .physicality _ => recordPhysicality
  | .trajectorySegment _ => recordPhysicalityTrajectorySegment
  | .attestation _ => recordAttestation
  | .consensus _ => recordConsensus

def payload : Value → List UInt8
  | .entity record => entityLayout.store record
  | .physicality record => physicalityLayout.store record
  | .trajectorySegment record =>
    trajectorySegmentLayout.store (record.physicalityId, record.vertexIndex, record.carrier)
  | .attestation record => attestationLayout.store record
  | .consensus record => consensusLayout.store record

/-- The occurrence of a segment is no part of its frame: it is zero until the stream is checked. -/
def Accepted : Value → Prop
  | .entity record => record.entityId = Identity.identityOf record.identityWitness
  | .physicality record =>
    identityMatches (physicalityIdentify blake3 record) record.physicalityId
  | .trajectorySegment record =>
    (∃ payload, carrierDecode record.carrier = .ok payload) ∧ record.occurrence = .zero
  | .attestation record =>
    identityMatches (attestationIdentify blake3 record) record.attestationId
  | .consensus record => identityMatches (consensusIdentify blake3 record) record.consensusId

def header (kind : UInt16) : List UInt8 :=
  headerLayout.store (UInt32.ofNat (frameBytes kind), kind, frameVersion)

def frame (value : Value) : List UInt8 := header value.kind ++ value.payload

theorem payload_length (value : Value) :
    frameHeaderBytes + value.payload.length = frameBytes value.kind := by
  cases value with
  | entity record => exact congrArg (frameHeaderBytes + ·) (entityLayout.length_store record)
  | physicality record =>
    exact congrArg (frameHeaderBytes + ·) (physicalityLayout.length_store record)
  | trajectorySegment record =>
    exact congrArg (frameHeaderBytes + ·) (trajectorySegmentLayout.length_store _)
  | attestation record =>
    exact congrArg (frameHeaderBytes + ·) (attestationLayout.length_store record)
  | consensus record => exact congrArg (frameHeaderBytes + ·) (consensusLayout.length_store record)

@[simp] theorem header_length (kind : UInt16) : (header kind).length = frameHeaderBytes :=
  headerLayout.length_store _

theorem frame_length (value : Value) : value.frame.length = frameBytes value.kind := by
  rw [frame, List.length_append, header_length, payload_length]

theorem frameBytes_kind_ne_zero (value : Value) : frameBytes value.kind ≠ 0 := by
  have h := value.payload_length
  have hheader : frameHeaderBytes = 8 := rfl
  omega

end Value

theorem decodeValue_ok {kind : UInt16} {bytes : List UInt8} {value : Value}
    (hlen : frameBytes kind ≤ frameHeaderBytes + bytes.length)
    (h : decodeValue blake3 kind bytes = .ok value) : value.kind = kind ∧ value.Accepted blake3 ∧
      bytes.take (frameBytes kind - frameHeaderBytes) = value.payload := by
  unfold decodeValue at h
  split_ifs at h with h1 h2 h3 h4 h5
  · subst h1
    obtain ⟨record, hdecode, rfl⟩ := map_eq_ok.1 h
    obtain ⟨rfl, haccepted⟩ := decodeEntity_ok.1 hdecode
    exact ⟨rfl, haccepted, (entityLayout.store_load bytes (Nat.le_of_add_le_add_left hlen)).symm⟩
  · subst h2
    obtain ⟨record, hdecode, rfl⟩ := map_eq_ok.1 h
    obtain ⟨rfl, haccepted⟩ := (decodePhysicality_ok blake3).1 hdecode
    exact ⟨rfl, haccepted, (physicalityLayout.store_load bytes (Nat.le_of_add_le_add_left hlen)).symm⟩
  · subst h3
    obtain ⟨record, hdecode, rfl⟩ := map_eq_ok.1 h
    obtain ⟨hload, haccepted⟩ := decodeTrajectorySegment_ok.1 hdecode
    refine ⟨rfl, haccepted, ?_⟩
    rw [Value.payload, ← hload]
    exact (trajectorySegmentLayout.store_load bytes (Nat.le_of_add_le_add_left hlen)).symm
  · subst h4
    obtain ⟨record, hdecode, rfl⟩ := map_eq_ok.1 h
    obtain ⟨rfl, haccepted⟩ := (decodeAttestation_ok blake3).1 hdecode
    exact ⟨rfl, haccepted, (attestationLayout.store_load bytes (Nat.le_of_add_le_add_left hlen)).symm⟩
  · subst h5
    obtain ⟨record, hdecode, rfl⟩ := map_eq_ok.1 h
    obtain ⟨rfl, haccepted⟩ := (decodeConsensus_ok blake3).1 hdecode
    exact ⟨rfl, haccepted, (consensusLayout.store_load bytes (Nat.le_of_add_le_add_left hlen)).symm⟩

theorem decodeValue_payload {value : Value} (h : value.Accepted blake3) (rest : List UInt8) :
    decodeValue blake3 value.kind (value.payload ++ rest) = .ok value := by
  cases value with
  | entity record =>
    have hkind : (Value.entity record).kind = recordEntity := rfl
    rw [decodeValue, hkind, if_pos rfl]
    exact map_eq_ok.2 ⟨record, decodeEntity_ok.2 ⟨load_store .., h⟩, rfl⟩
  | physicality record =>
    have hkind : (Value.physicality record).kind = recordPhysicality := rfl
    rw [decodeValue, hkind, if_neg (by decide), if_pos rfl]
    exact map_eq_ok.2 ⟨record, (decodePhysicality_ok blake3).2 ⟨load_store .., h⟩, rfl⟩
  | trajectorySegment record =>
    have hkind : (Value.trajectorySegment record).kind = recordPhysicalityTrajectorySegment := rfl
    rw [decodeValue, hkind, if_neg (by decide), if_neg (by decide), if_pos rfl]
    exact map_eq_ok.2 ⟨record, decodeTrajectorySegment_ok.2 ⟨load_store .., h⟩, rfl⟩
  | attestation record =>
    have hkind : (Value.attestation record).kind = recordAttestation := rfl
    rw [decodeValue, hkind, if_neg (by decide), if_neg (by decide), if_neg (by decide), if_pos rfl]
    exact map_eq_ok.2 ⟨record, (decodeAttestation_ok blake3).2 ⟨load_store .., h⟩, rfl⟩
  | consensus record =>
    have hkind : (Value.consensus record).kind = recordConsensus := rfl
    rw [decodeValue, hkind, if_neg (by decide), if_neg (by decide), if_neg (by decide),
      if_neg (by decide), if_pos rfl]
    exact map_eq_ok.2 ⟨record, (decodeConsensus_ok blake3).2 ⟨load_store .., h⟩, rfl⟩

/-! ## Frames that are written -/

theorem frameHeader_ok {kind : UInt16} {outputCapacity : ℕ} {header : List UInt8} :
    frameHeader kind outputCapacity = .ok header ↔
      frameBytes kind ≠ 0 ∧ frameBytes kind ≤ outputCapacity ∧ header = Value.header kind := by
  have hheader : u32Bytes (UInt32.ofNat (frameBytes kind)) ++ (storeU16 kind ++ storeU16 frameVersion)
      = Value.header kind := by
    simp only [u32Bytes_eq, storeU16_eq]
    rfl
  rw [frameHeader, hheader]
  by_cases hkind : frameBytes kind = 0
  · rw [if_pos hkind]
    exact ⟨fun h => (nomatch h), fun h => absurd hkind h.1⟩
  by_cases hcapacity : outputCapacity < frameBytes kind
  · rw [if_neg hkind, if_pos hcapacity]
    exact ⟨fun h => (nomatch h), fun h => absurd h.2.1 (by omega)⟩
  · rw [if_neg hkind, if_neg hcapacity, Except.ok.injEq]
    exact ⟨fun h => ⟨hkind, not_lt.1 hcapacity, h.symm⟩, fun h => h.2.2.symm⟩

/-- One of the encoders writes `frame` for `value` to a buffer of `outputCapacity` bytes. -/
inductive Encodes (outputCapacity : ℕ) : Value → List UInt8 → Prop
  | entity {entity : Id128} {identityWitness : Digest256} {frame : List UInt8}
      (h : frameEncodeEntity entity identityWitness outputCapacity = .ok frame) :
      Encodes outputCapacity (.entity ⟨entity, identityWitness⟩) frame
  | physicality {physicality : PhysicalityRecord} {frame : List UInt8}
      (h : frameEncodePhysicality blake3 physicality outputCapacity = .ok frame) :
      Encodes outputCapacity (.physicality physicality) frame
  | trajectorySegment {physicalityId : Digest256} {vertexIndex : UInt64} {carrier : Carrier}
      {frame : List UInt8}
      (h : frameEncodeTrajectorySegment physicalityId vertexIndex carrier outputCapacity = .ok frame) :
      Encodes outputCapacity (.trajectorySegment ⟨physicalityId, vertexIndex, carrier, .zero⟩) frame
  | attestation {attestation : AttestationRecord} {frame : List UInt8}
      (h : frameEncodeAttestation blake3 attestation outputCapacity = .ok frame) :
      Encodes outputCapacity (.attestation attestation) frame
  | consensus {consensus : ConsensusRecord} {frame : List UInt8}
      (h : frameEncodeConsensus blake3 consensus outputCapacity = .ok frame) :
      Encodes outputCapacity (.consensus consensus) frame

theorem withHeader_ok {kind : UInt16} {outputCapacity : ℕ} {payload frame : List UInt8} : (do
      let header ← frameHeader kind outputCapacity
      return header ++ payload : Except Status (List UInt8)) = .ok frame ↔
      frameBytes kind ≠ 0 ∧ frameBytes kind ≤ outputCapacity ∧ frame = Value.header kind ++ payload := by
  cases hheader : frameHeader kind outputCapacity with
  | error status =>
    refine ⟨fun h => (nomatch h), fun ⟨hkind, hcapacity, _⟩ => ?_⟩
    rw [frameHeader_ok.2 ⟨hkind, hcapacity, rfl⟩] at hheader
    cases hheader
  | ok header =>
    obtain ⟨hkind, hcapacity, rfl⟩ := frameHeader_ok.1 hheader
    exact ⟨fun h => ⟨hkind, hcapacity, (Except.ok.inj h).symm⟩, fun h => h.2.2 ▸ rfl⟩

theorem encodes_iff {outputCapacity : ℕ} {value : Value} {frame : List UInt8} :
    Encodes blake3 outputCapacity value frame ↔
      value.Accepted blake3 ∧ frameBytes value.kind ≤ outputCapacity ∧ frame = value.frame := by
  have hnonzero := value.frameBytes_kind_ne_zero
  constructor
  · intro h
    cases h with
    | entity h =>
      rw [frameEncodeEntity] at h
      split_ifs at h with hid
      obtain ⟨-, hcapacity, rfl⟩ := withHeader_ok.1 h
      refine ⟨not_not.1 hid, hcapacity, ?_⟩
      rw [id_bytes_eq, digest_bytes_eq]
      rfl
    | physicality h =>
      rw [frameEncodePhysicality] at h
      split_ifs at h with hid
      obtain ⟨-, hcapacity, rfl⟩ := withHeader_ok.1 h
      refine ⟨hid, hcapacity, ?_⟩
      rw [physicalityPayload_eq]
      rfl
    | @trajectorySegment physicalityId vertexIndex carrier _ h =>
      cases hdecode : carrierDecode carrier with
      | error status =>
        rw [frameEncodeTrajectorySegment, hdecode] at h
        cases h
      | ok payload =>
        rw [frameEncodeTrajectorySegment, hdecode] at h
        obtain ⟨-, hcapacity, rfl⟩ := withHeader_ok.1 h
        refine ⟨⟨⟨payload, hdecode⟩, rfl⟩, hcapacity, ?_⟩
        rw [digest_bytes_eq, u64Bytes_eq, storeDoubles_eq]
        rfl
    | attestation h =>
      rw [frameEncodeAttestation] at h
      split_ifs at h with hid
      obtain ⟨-, hcapacity, rfl⟩ := withHeader_ok.1 h
      refine ⟨hid, hcapacity, ?_⟩
      rw [attestationPayload_eq]
      rfl
    | consensus h =>
      rw [frameEncodeConsensus] at h
      split_ifs at h with hid
      obtain ⟨-, hcapacity, rfl⟩ := withHeader_ok.1 h
      refine ⟨hid, hcapacity, ?_⟩
      rw [consensusPayload_eq]
      rfl
  · rintro ⟨haccepted, hcapacity, rfl⟩
    cases value with
    | entity record =>
      simp only [Value.Accepted] at haccepted
      refine .entity ?_
      rw [frameEncodeEntity, if_neg (not_not.2 haccepted), id_bytes_eq, digest_bytes_eq]
      exact withHeader_ok.2 ⟨hnonzero, hcapacity, rfl⟩
    | physicality record =>
      simp only [Value.Accepted] at haccepted
      refine .physicality ?_
      rw [frameEncodePhysicality, if_neg (not_not.2 haccepted), physicalityPayload_eq]
      exact withHeader_ok.2 ⟨hnonzero, hcapacity, rfl⟩
    | trajectorySegment record =>
      obtain ⟨⟨payload, hdecode⟩, hzero⟩ := haccepted
      obtain ⟨physicalityId, vertexIndex, carrier, occurrence⟩ := record
      cases hzero
      refine .trajectorySegment ?_
      rw [frameEncodeTrajectorySegment, hdecode, digest_bytes_eq, u64Bytes_eq, storeDoubles_eq]
      exact withHeader_ok.2 ⟨hnonzero, hcapacity, rfl⟩
    | attestation record =>
      simp only [Value.Accepted] at haccepted
      refine .attestation ?_
      rw [frameEncodeAttestation, if_neg (not_not.2 haccepted), attestationPayload_eq]
      exact withHeader_ok.2 ⟨hnonzero, hcapacity, rfl⟩
    | consensus record =>
      simp only [Value.Accepted] at haccepted
      refine .consensus ?_
      rw [frameEncodeConsensus, if_neg (not_not.2 haccepted), consensusPayload_eq]
      exact withHeader_ok.2 ⟨hnonzero, hcapacity, rfl⟩

/-! ## Frames that are read -/

theorem headerLayout_load (bytes : List UInt8) : headerLayout.load bytes =
    (loadU32 bytes, loadU16 (bytes.drop 4), loadU16 (bytes.drop 6)) := by
  simp only [loadU32_eq, loadU16_eq]
  simp only [headerLayout, pair, List.drop_drop]
  rfl

theorem frameBytes_lt (kind : UInt16) : frameBytes kind < 2 ^ 32 := by
  unfold frameBytes
  split_ifs <;> decide

theorem frameDecode_frame {value : Value} (h : value.Accepted blake3) (rest : List UInt8) :
    frameDecode blake3 (value.frame ++ rest) =
      .ok (⟨value.kind, frameVersion, UInt32.ofNat (frameBytes value.kind), value⟩,
        frameBytes value.kind) := by
  have hnonzero := value.frameBytes_kind_ne_zero
  have hlen : (value.frame ++ rest).length = frameBytes value.kind + rest.length := by
    rw [List.length_append, value.frame_length]
  have hheader := value.payload_length
  have hload : headerLayout.load (value.frame ++ rest) =
      (UInt32.ofNat (frameBytes value.kind), value.kind, frameVersion) := by
    rw [Value.frame, List.append_assoc]
    exact headerLayout.load_store _ _
  have hdrop : (value.frame ++ rest).drop frameHeaderBytes = value.payload ++ rest := by
    rw [Value.frame, List.append_assoc]
    exact List.drop_left' (Value.header_length _)
  have hdeclared : (UInt32.ofNat (frameBytes value.kind)).toNat = frameBytes value.kind :=
    UInt32.toNat_ofNat_of_lt' (frameBytes_lt _)
  rw [headerLayout_load, Prod.mk.injEq, Prod.mk.injEq] at hload
  obtain ⟨hbytes, hkind, hversion⟩ := hload
  rw [frameDecode, if_neg (by rw [hlen]; omega)]
  simp only [hbytes, hkind, hversion, hdeclared, hdrop]
  rw [if_neg (by rw [hlen]; simp [hnonzero]), decodeValue_payload blake3 h]
  rfl

theorem frameDecode_ok {bytes : List UInt8} {record : Record} {consumed : ℕ}
    (h : frameDecode blake3 bytes = .ok (record, consumed)) : record.value.Accepted blake3 ∧
      record = ⟨record.value.kind, frameVersion, UInt32.ofNat (frameBytes record.value.kind),
        record.value⟩ ∧
      consumed = frameBytes record.value.kind ∧ bytes = record.value.frame ++ bytes.drop consumed := by
  rw [frameDecode] at h
  split_ifs at h with hshort
  have hheader := headerLayout.store_load bytes (not_lt.1 hshort)
  rw [headerLayout_load] at hheader
  generalize loadU32 bytes = declared at h hheader
  generalize loadU16 (bytes.drop 4) = kind at h hheader
  generalize loadU16 (bytes.drop 6) = version at h hheader
  dsimp only at h
  split_ifs at h with hinvalid
  obtain ⟨hkind, hdeclared, hfits, hversion⟩ :
      frameBytes kind ≠ 0 ∧ declared.toNat = frameBytes kind ∧ declared.toNat ≤ bytes.length ∧
        version = frameVersion := by
    simp only [not_or, not_not, gt_iff_lt, not_lt] at hinvalid
    exact hinvalid
  have hword : declared = UInt32.ofNat (frameBytes kind) := by
    rw [← hdeclared, UInt32.ofNat_toNat]
  obtain ⟨value, hdecode, hpair⟩ :
      ∃ value, decodeValue blake3 kind (bytes.drop frameHeaderBytes) = .ok value ∧
        (⟨kind, version, declared, value⟩, declared.toNat) = (record, consumed) := by
    obtain ⟨value, hvalue, hpair⟩ := bind_eq_ok.1 h
    exact ⟨value, hvalue, Except.ok.inj hpair⟩
  rw [Prod.mk.injEq] at hpair
  obtain ⟨rfl, rfl⟩ := hpair
  obtain ⟨rfl, haccepted, hpayload⟩ := decodeValue_ok blake3
    (by rw [List.length_drop]; omega) hdecode
  refine ⟨haccepted, by rw [hversion, hword], hdeclared, ?_⟩
  have hlen := value.payload_length
  have htake : bytes.take (frameBytes value.kind) = value.frame := by
    have hwidth : frameBytes value.kind - frameHeaderBytes = value.payload.length := by omega
    rw [hwidth] at hpayload
    rw [← hlen, List.take_add, hpayload, Value.frame, Value.header, ← hword, ← hversion, hheader]
    rfl
  rw [hdeclared, ← htake, List.take_append_drop]

/-- The bytes of one frame, whatever they hold: the length in the header is their number. -/
structure CompleteFrame (frame : List UInt8) : Prop where
  header : frameHeaderBytes ≤ frame.length
  length : (loadU32 frame).toNat = frame.length

theorem decodeValue_append {kind : UInt16} {payload : List UInt8}
    (h : frameHeaderBytes + payload.length = frameBytes kind) (rest : List UInt8) :
    decodeValue blake3 kind (payload ++ rest) = decodeValue blake3 kind payload := by
  have hlen {payloadBytes : ℕ} (hkind : frameBytes kind = frameHeaderBytes + payloadBytes) :
      payloadBytes ≤ payload.length := by omega
  unfold decodeValue
  split_ifs with h1 h2 h3 h4 h5
  · rw [decodeEntity_eq, decodeEntity_eq, entityLayout.load_append (hlen (h1 ▸ rfl))]
  · rw [decodePhysicality_eq, decodePhysicality_eq, physicalityLayout.load_append (hlen (h2 ▸ rfl))]
  · rw [decodeTrajectorySegment_eq, decodeTrajectorySegment_eq,
      trajectorySegmentLayout.load_append (hlen (h3 ▸ rfl))]
  · rw [decodeAttestation_eq, decodeAttestation_eq, attestationLayout.load_append (hlen (h4 ▸ rfl))]
  · rw [decodeConsensus_eq, decodeConsensus_eq, consensusLayout.load_append (hlen (h5 ▸ rfl))]
  · rfl

theorem frameDecode_append {frame : List UInt8} (h : CompleteFrame frame) (rest : List UInt8) :
    frameDecode blake3 (frame ++ rest) = frameDecode blake3 frame := by
  have hlen : ¬ (frame ++ rest).length < frameHeaderBytes := by
    have := h.header
    rw [List.length_append]
    omega
  have hload := headerLayout.load_append h.header rest
  rw [headerLayout_load, headerLayout_load, Prod.mk.injEq, Prod.mk.injEq] at hload
  obtain ⟨hbytes, hkind, hversion⟩ := hload
  rw [frameDecode, frameDecode, if_neg hlen, if_neg (not_lt.2 h.header)]
  simp only [hbytes, hkind, hversion, h.length, List.drop_append_of_le_length h.header]
  by_cases hvalid : frameBytes (loadU16 (frame.drop 4)) = 0 ∨
      frame.length ≠ frameBytes (loadU16 (frame.drop 4)) ∨ loadU16 (frame.drop 6) ≠ frameVersion
  · rw [if_pos (by tauto), if_pos (by tauto)]
  · simp only [not_or, not_not] at hvalid
    have hframe : frameHeaderBytes + (frame.drop frameHeaderBytes).length =
        frameBytes (loadU16 (frame.drop 4)) := by
      have := h.header
      rw [List.length_drop, ← hvalid.2.1]
      omega
    have hfits : ¬ frame.length > (frame ++ rest).length := by
      rw [List.length_append]
      omega
    rw [if_neg (by tauto), if_neg (by simp [hvalid]), decodeValue_append blake3 hframe]

theorem completeFrame_frame (value : Value) : CompleteFrame value.frame := by
  have hlen := value.frame_length
  have hheader := value.payload_length
  have hload : headerLayout.load value.frame = _ := headerLayout.load_store _ value.payload
  rw [headerLayout_load, Prod.mk.injEq] at hload
  refine ⟨by omega, ?_⟩
  rw [hload.1, hlen]
  exact UInt32.toNat_ofNat_of_lt' (frameBytes_lt _)

theorem frameDecode_consumed {bytes : List UInt8} {record : Record} {consumed : ℕ}
    (h : frameDecode blake3 bytes = .ok (record, consumed)) :
    consumed ≤ bytes.length ∧ bytes.take consumed = record.value.frame := by
  obtain ⟨-, -, rfl, hbytes⟩ := frameDecode_ok blake3 h
  have hlen := record.value.frame_length
  have htake := congrArg (List.take (frameBytes record.value.kind)) hbytes
  rw [List.take_left' hlen] at htake
  have hle := congrArg List.length htake
  rw [List.length_take, hlen] at hle
  exact ⟨by omega, htake⟩

theorem frameDecode_truncated {value : Value} (h : value.Accepted blake3) {count : ℕ}
    (hcount : count < value.frame.length) :
    ∃ status, frameDecode blake3 (value.frame.take count) = .error status := by
  cases hdecode : frameDecode blake3 (value.frame.take count) with
  | error status => exact ⟨status, rfl⟩
  | ok result =>
    obtain ⟨record, consumed⟩ := result
    obtain ⟨haccepted, -, hconsumed, hbytes⟩ := frameDecode_ok blake3 hdecode
    have hle := (frameDecode_consumed blake3 hdecode).1
    have hwhole := frameDecode_frame blake3 haccepted
      ((value.frame.take count).drop consumed ++ value.frame.drop count)
    have hframe := frameDecode_frame blake3 h []
    -- the whole frame starts with the shorter one, so it would be consumed only in part
    rw [← List.append_assoc, ← hbytes, List.take_append_drop] at hwhole
    rw [List.append_nil, hwhole, Except.ok.injEq, Prod.mk.injEq] at hframe
    have hlen := value.frame_length
    rw [List.length_take] at hle
    omega

/-! ## The codec -/

/-- **The frame format is canonical.** Whatever an encoder writes is decoded to the record that
was given, with no byte after it read, and no proper prefix of it is decoded; whatever is decoded
is what an encoder writes for the record, so no other bytes are decoded to the same record. -/
theorem frame_codec : (∀ outputCapacity value frame, Encodes blake3 outputCapacity value frame →
      (∀ rest, frameDecode blake3 (frame ++ rest) =
        .ok (⟨value.kind, frameVersion, UInt32.ofNat frame.length, value⟩, frame.length)) ∧
      ∀ count < frame.length, ∃ status, frameDecode blake3 (frame.take count) = .error status) ∧
    (∀ bytes record consumed, frameDecode blake3 bytes = .ok (record, consumed) → consumed ≤ bytes.length ∧
      record = ⟨record.value.kind, frameVersion, UInt32.ofNat consumed, record.value⟩ ∧
      (∀ outputCapacity, consumed ≤ outputCapacity →
        Encodes blake3 outputCapacity record.value (bytes.take consumed)) ∧
      ∀ bytes' record' consumed', frameDecode blake3 bytes' = .ok (record', consumed') →
        record'.value = record.value → bytes'.take consumed' = bytes.take consumed) := by
  refine ⟨fun outputCapacity value frame h => ?_, fun bytes record consumed h => ?_⟩
  · obtain ⟨haccepted, -, rfl⟩ := (encodes_iff blake3).1 h
    refine ⟨fun rest => ?_, fun count hcount => frameDecode_truncated blake3 haccepted hcount⟩
    rw [value.frame_length]
    exact frameDecode_frame blake3 haccepted rest
  · obtain ⟨haccepted, hrecord, hconsumed, -⟩ := frameDecode_ok blake3 h
    obtain ⟨hle, htake⟩ := frameDecode_consumed blake3 h
    refine ⟨hle, by rwa [hconsumed], fun outputCapacity hcapacity => ?_,
      fun bytes' record' consumed' h' hvalue => ?_⟩
    · exact (encodes_iff blake3).2 ⟨haccepted, by omega, htake⟩
    · rw [(frameDecode_consumed blake3 h').2, htake, hvalue]

end Laplace.Persistence
