import Laplace.Persistence.Records

/-!
# Frames (persistence.c:110-144, 507-792)

An encoder gives the bytes that it writes to `output`. The decoder reads a payload field by field
at the offsets of the source, written here as numbers.
-/

namespace Laplace.Persistence

open Trajectory

/-- `FRAME_HEADER_BYTES` -/
def frameHeaderBytes : ℕ := 8

/-- `LAPLACE_PERSISTENCE_FRAME_VERSION` -/
def frameVersion : UInt16 := 1

def entityPayloadBytes : ℕ := 48
def physicalityPayloadBytes : ℕ := 224
def physicalityTrajectorySegmentPayloadBytes : ℕ := 72
def attestationPayloadBytes : ℕ := 160
def consensusPayloadBytes : ℕ := 176

/-- `laplace_persistence_frame_bytes` -/
def frameBytes (kind : UInt16) : ℕ :=
  if kind = recordEntity then frameHeaderBytes + entityPayloadBytes
  else if kind = recordPhysicality then frameHeaderBytes + physicalityPayloadBytes
  else if kind = recordPhysicalityTrajectorySegment then
    frameHeaderBytes + physicalityTrajectorySegmentPayloadBytes
  else if kind = recordAttestation then frameHeaderBytes + attestationPayloadBytes
  else if kind = recordConsensus then frameHeaderBytes + consensusPayloadBytes
  else 0

def frameHeader (kind : UInt16) (outputCapacity : ℕ) : Except Status (List UInt8) :=
  if frameBytes kind = 0 then .error .invalidArgument
  else if outputCapacity < frameBytes kind then .error .capacityInsufficient
  else .ok (u32Bytes (UInt32.ofNat (frameBytes kind)) ++ (storeU16 kind ++ storeU16 frameVersion))

/-! ## Encoders -/

section Encoders

variable (blake3 : Blake3)

def frameEncodeEntity (entity : Id128) (identityWitness : Digest256) (outputCapacity : ℕ) :
    Except Status (List UInt8) :=
  if entity ≠ Identity.identityOf identityWitness then .error .recordInvalid
  else do
    let header ← frameHeader recordEntity outputCapacity
    return header ++ (entity.bytes ++ identityWitness.bytes)

/-- The check of the three encoders whose records carry their own identity. -/
def identityMatches (expected : Except Status Digest256) (id : Digest256) : Bool :=
  match expected with
  | .ok expected => expected = id
  | .error _ => false

def frameEncodePhysicality (physicality : PhysicalityRecord) (outputCapacity : ℕ) :
    Except Status (List UInt8) :=
  if ¬ identityMatches (physicalityIdentify blake3 physicality) physicality.physicalityId then
    .error .identityMismatch
  else do
    let header ← frameHeader recordPhysicality outputCapacity
    return header ++ physicalityPayload physicality

def frameEncodeTrajectorySegment (physicalityId : Digest256) (vertexIndex : UInt64)
    (carrier : Carrier) (outputCapacity : ℕ) : Except Status (List UInt8) :=
  match carrierDecode carrier with
  | .error _ => .error .trajectoryInvalid
  | .ok _ => do
    let header ← frameHeader recordPhysicalityTrajectorySegment outputCapacity
    return header ++ (physicalityId.bytes ++ (u64Bytes vertexIndex ++ storeDoubles carrier))

def frameEncodeAttestation (attestation : AttestationRecord) (outputCapacity : ℕ) :
    Except Status (List UInt8) :=
  if ¬ identityMatches (attestationIdentify blake3 attestation) attestation.attestationId then
    .error .identityMismatch
  else do
    let header ← frameHeader recordAttestation outputCapacity
    return header ++ attestationPayload attestation

def frameEncodeConsensus (consensus : ConsensusRecord) (outputCapacity : ℕ) :
    Except Status (List UInt8) :=
  if ¬ identityMatches (consensusIdentify blake3 consensus) consensus.consensusId then
    .error .identityMismatch
  else do
    let header ← frameHeader recordConsensus outputCapacity
    return header ++ consensusPayload consensus

/-! ## The decoder -/

def decodeEntity (payload : List UInt8) : Except Status EntityRecord :=
  let decoded : EntityRecord :=
    { entityId := loadId payload
      identityWitness := loadDigest (payload.drop 16) }
  if decoded.entityId ≠ Identity.identityOf decoded.identityWitness then .error .recordInvalid
  else .ok decoded

def decodePhysicality (payload : List UInt8) : Except Status PhysicalityRecord :=
  let decoded : PhysicalityRecord :=
    { physicalityId := loadDigest payload
      entityId := loadId (payload.drop 32)
      physicalityType := loadU32 (payload.drop 48)
      vertexClass := loadU32 (payload.drop 52)
      recipeVersion := loadU32 (payload.drop 56)
      structuralForm := loadU32 (payload.drop 60)
      dimensionCount := loadU32 (payload.drop 64)
      flags := loadU32 (payload.drop 68)
      recipeFingerprint := loadDigest (payload.drop 72)
      geometryEpoch := loadDigest (payload.drop 104)
      trajectoryFingerprint := loadDigest (payload.drop 136)
      centroid := loadDoubles (payload.drop 168)
      radius := loadU64 (payload.drop 200)
      logicalCount := loadU64 (payload.drop 208)
      vertexCount := loadU64 (payload.drop 216) }
  if ¬ identityMatches (physicalityIdentify blake3 decoded) decoded.physicalityId then
    .error .identityMismatch
  else .ok decoded

def decodeTrajectorySegment (payload : List UInt8) : Except Status TrajectorySegmentRecord :=
  let decoded : TrajectorySegmentRecord :=
    { physicalityId := loadDigest payload
      vertexIndex := loadU64 (payload.drop 32)
      carrier := loadDoubles (payload.drop 40)
      occurrence := .zero }
  match carrierDecode decoded.carrier with
  | .error _ => .error .trajectoryInvalid
  | .ok _ => .ok decoded

def decodeAttestation (payload : List UInt8) : Except Status AttestationRecord :=
  let decoded : AttestationRecord :=
    { attestationId := loadDigest payload
      entityId := loadId (payload.drop 32)
      physicalityId := loadDigest (payload.drop 48)
      sourceFingerprint := loadDigest (payload.drop 80)
      contextFingerprint := loadDigest (payload.drop 112)
      sourceOrdinal := loadU64 (payload.drop 144)
      flags := loadU32 (payload.drop 152)
      attestationKind := loadU32 (payload.drop 156) }
  if ¬ identityMatches (attestationIdentify blake3 decoded) decoded.attestationId then
    .error .identityMismatch
  else .ok decoded

def decodeConsensus (payload : List UInt8) : Except Status ConsensusRecord :=
  let decoded : ConsensusRecord :=
    { consensusId := loadDigest payload
      propositionEntityId := loadId (payload.drop 32)
      epochId := loadDigest (payload.drop 48)
      evidenceBoundary := loadDigest (payload.drop 80)
      recipeFingerprint := loadDigest (payload.drop 112)
      observationCount := loadU64 (payload.drop 144)
      independentRootCount := loadU64 (payload.drop 152)
      disposition := loadU32 (payload.drop 160)
      flags := loadU32 (payload.drop 164)
      standing := loadU64 (payload.drop 168) }
  if ¬ identityMatches (consensusIdentify blake3 decoded) decoded.consensusId then
    .error .identityMismatch
  else .ok decoded

/-- The switch over the kinds. -/
def decodeValue (kind : UInt16) (payload : List UInt8) : Except Status Value :=
  if kind = recordEntity then (decodeEntity payload).map .entity
  else if kind = recordPhysicality then (decodePhysicality blake3 payload).map .physicality
  else if kind = recordPhysicalityTrajectorySegment then
    (decodeTrajectorySegment payload).map .trajectorySegment
  else if kind = recordAttestation then (decodeAttestation blake3 payload).map .attestation
  else if kind = recordConsensus then (decodeConsensus blake3 payload).map .consensus
  else .error .frameInvalid

/-- `laplace_persistence_frame_decode`: the record and `*consumed_bytes`. -/
def frameDecode (frame : List UInt8) : Except Status (Record × ℕ) :=
  if frame.length < frameHeaderBytes then .error .invalidArgument
  else
    let declaredBytes := loadU32 frame
    let kind := loadU16 (frame.drop 4)
    let version := loadU16 (frame.drop 6)
    if frameBytes kind = 0 ∨ declaredBytes.toNat ≠ frameBytes kind ∨
        declaredBytes.toNat > frame.length ∨ version ≠ frameVersion then .error .frameInvalid
    else do
      let value ← decodeValue blake3 kind (frame.drop frameHeaderBytes)
      return ({ kind, version, frameBytes := declaredBytes, value }, declaredBytes.toNat)

end Encoders

end Laplace.Persistence
