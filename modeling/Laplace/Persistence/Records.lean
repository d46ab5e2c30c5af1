import Laplace.Identity.Composite
import Laplace.Lib.Binary64
import Laplace.Trajectory.Carrier

/-!
# Records and their identities (persistence.c:242-507, persistence.h:19-89)

A `double` is its 64-bit pattern. `reject_zero_identity_field` and `reject_zero_digest_field` are
0 outside the tests. A payload is the string of its fields, stored one after another.
-/

namespace Laplace.Persistence

open Trajectory

/-- `laplace_persistence_status` -/
inductive Status
  | ok | invalidArgument | capacityInsufficient | frameInvalid | recordInvalid | identityMismatch
  | orderInvalid | trajectoryInvalid | referenceInvalid | overflow
deriving DecidableEq, Repr

/-- `laplace_persistence_physicality_record` -/
structure PhysicalityRecord where
  physicalityId : Digest256
  entityId : Id128
  physicalityType : UInt32
  vertexClass : UInt32
  recipeVersion : UInt32
  structuralForm : UInt32
  dimensionCount : UInt32
  flags : UInt32
  recipeFingerprint : Digest256
  geometryEpoch : Digest256
  trajectoryFingerprint : Digest256
  centroid : Fin 4 → UInt64
  radius : UInt64
  logicalCount : UInt64
  vertexCount : UInt64
deriving DecidableEq

/-- `laplace_persistence_entity_record` -/
structure EntityRecord where
  entityId : Id128
  identityWitness : Digest256
deriving DecidableEq

/-- `laplace_persistence_trajectory_segment_record` -/
structure TrajectorySegmentRecord where
  physicalityId : Digest256
  vertexIndex : UInt64
  carrier : Carrier
  occurrence : CompositionOccurrence
deriving DecidableEq

/-- `laplace_persistence_attestation_record` -/
structure AttestationRecord where
  attestationId : Digest256
  entityId : Id128
  physicalityId : Digest256
  sourceFingerprint : Digest256
  contextFingerprint : Digest256
  sourceOrdinal : UInt64
  flags : UInt32
  attestationKind : UInt32
deriving DecidableEq

/-- `laplace_persistence_consensus_record` -/
structure ConsensusRecord where
  consensusId : Digest256
  propositionEntityId : Id128
  epochId : Digest256
  evidenceBoundary : Digest256
  recipeFingerprint : Digest256
  observationCount : UInt64
  independentRootCount : UInt64
  disposition : UInt32
  flags : UInt32
  standing : UInt64
deriving DecidableEq

/-- The union of `laplace_persistence_record`; its kind says which member is set. -/
inductive Value
  | entity (entity : EntityRecord)
  | physicality (physicality : PhysicalityRecord)
  | trajectorySegment (segment : TrajectorySegmentRecord)
  | attestation (attestation : AttestationRecord)
  | consensus (consensus : ConsensusRecord)
deriving DecidableEq

/-- `laplace_persistence_record` -/
structure Record where
  kind : UInt16
  version : UInt16
  frameBytes : UInt32
  value : Value
deriving DecidableEq

/-! ## The contract's numbers and domains -/

def recordEntity : UInt16 := 1
def recordPhysicality : UInt16 := 2
def recordPhysicalityTrajectorySegment : UInt16 := 3
def recordAttestation : UInt16 := 4
def recordConsensus : UInt16 := 5

def physicalityComposition : UInt32 := 1
def physicalityAtomicPoint : UInt32 := 2
def vertexNone : UInt32 := 0
def vertexTrajectoryCarrier : UInt32 := 1
def structuralOrderedComposition : UInt32 := 1
def structuralAtomicPoint : UInt32 := 2
def physicalityFlagsNone : UInt32 := 0
def geometryComponents : UInt32 := 4
def attestationHasPhysicality : UInt32 := 1
def attestationObservedOccurrence : UInt32 := 1
def attestationDerivedClaim : UInt32 := 4

def physicalityDomain : List UInt8 := domainBytes "laplace-physicality-record-v1"
def trajectoryDomain : List UInt8 := domainBytes "laplace-composition-trajectory-v1"
def attestationDomain : List UInt8 := domainBytes "laplace-attestation-record-v1"
def consensusDomain : List UInt8 := domainBytes "laplace-consensus-record-v1"

/-! ## Physicalities -/

/-- A component that is finite and between -1 and 1. -/
def componentValid (value : UInt64) : Bool :=
  Binary64.Finite value ∧ -1 ≤ Binary64.value value ∧ Binary64.value value ≤ 1

def physicalityScalarsValid (physicality : PhysicalityRecord) : Bool :=
  if physicality.recipeVersion = 0 ∨ physicality.dimensionCount ≠ geometryComponents ∨
      physicality.flags ≠ physicalityFlagsNone ∨ ¬ Binary64.Finite physicality.radius then false
  else if ¬ ∀ index, componentValid (physicality.centroid index) then false
  else if physicality.physicalityType = physicalityComposition then
    physicality.vertexClass = vertexTrajectoryCarrier ∧
      physicality.structuralForm = structuralOrderedComposition ∧
      physicality.logicalCount ≠ 0 ∧ physicality.vertexCount ≠ 0 ∧
      0 ≤ Binary64.value physicality.radius ∧ Binary64.value physicality.radius ≤ 1
  else if physicality.physicalityType = physicalityAtomicPoint then
    physicality.vertexClass = vertexNone ∧
      physicality.structuralForm = structuralAtomicPoint ∧ physicality.logicalCount = 1 ∧
      physicality.vertexCount = 0 ∧ physicality.radius = 0 ∧
      physicality.trajectoryFingerprint = 0
  else false

def physicalityPayload (physicality : PhysicalityRecord) : List UInt8 :=
  physicality.physicalityId.bytes ++ (physicality.entityId.bytes ++
    (u32Bytes physicality.physicalityType ++ (u32Bytes physicality.vertexClass ++
    (u32Bytes physicality.recipeVersion ++ (u32Bytes physicality.structuralForm ++
    (u32Bytes physicality.dimensionCount ++ (u32Bytes physicality.flags ++
    (physicality.recipeFingerprint.bytes ++ (physicality.geometryEpoch.bytes ++
    (physicality.trajectoryFingerprint.bytes ++ (storeDoubles physicality.centroid ++
    (u64Bytes physicality.radius ++ (u64Bytes physicality.logicalCount ++
    u64Bytes physicality.vertexCount)))))))))))))

/-! ## Attestations -/

def attestationScalarsValid (attestation : AttestationRecord) : Bool :=
  let hasPhysicality := attestation.flags &&& attestationHasPhysicality ≠ 0
  ¬ (attestation.flags &&& ~~~attestationHasPhysicality ≠ 0 ∨
    attestation.attestationKind < attestationObservedOccurrence ∨
    attestation.attestationKind > attestationDerivedClaim ∨ attestation.sourceOrdinal = 0 ∨
    ¬ hasPhysicality ∧ attestation.physicalityId ≠ 0)

def attestationPayload (attestation : AttestationRecord) : List UInt8 :=
  attestation.attestationId.bytes ++ (attestation.entityId.bytes ++
    (attestation.physicalityId.bytes ++ (attestation.sourceFingerprint.bytes ++
    (attestation.contextFingerprint.bytes ++ (u64Bytes attestation.sourceOrdinal ++
    (u32Bytes attestation.flags ++ u32Bytes attestation.attestationKind))))))

/-! ## Consensus -/

def consensusScalarsValid (consensus : ConsensusRecord) : Bool :=
  consensus.observationCount ≠ 0 ∧ consensus.independentRootCount ≤ consensus.observationCount ∧
    consensus.disposition ≠ 0 ∧ consensus.flags = 0 ∧ Binary64.Finite consensus.standing

def consensusPayload (consensus : ConsensusRecord) : List UInt8 :=
  consensus.consensusId.bytes ++ (consensus.propositionEntityId.bytes ++
    (consensus.epochId.bytes ++ (consensus.evidenceBoundary.bytes ++
    (consensus.recipeFingerprint.bytes ++ (u64Bytes consensus.observationCount ++
    (u64Bytes consensus.independentRootCount ++ (u32Bytes consensus.disposition ++
    (u32Bytes consensus.flags ++ u64Bytes consensus.standing))))))))

/-! ## Identities: the digest of the domain and of the payload without its first 32 bytes -/

section Identities

variable (blake3 : Blake3)

def physicalityIdentify (physicality : PhysicalityRecord) : Except Status Digest256 :=
  if ¬ physicalityScalarsValid physicality then .error .recordInvalid
  else .ok (blake3 (physicalityDomain ++ (physicalityPayload physicality).drop 32))

def attestationIdentify (attestation : AttestationRecord) : Except Status Digest256 :=
  if ¬ attestationScalarsValid attestation then .error .recordInvalid
  else .ok (blake3 (attestationDomain ++ (attestationPayload attestation).drop 32))

def consensusIdentify (consensus : ConsensusRecord) : Except Status Digest256 :=
  if ¬ consensusScalarsValid consensus then .error .recordInvalid
  else .ok (blake3 (consensusDomain ++ (consensusPayload consensus).drop 32))

end Identities

end Laplace.Persistence
