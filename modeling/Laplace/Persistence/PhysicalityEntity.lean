import Laplace.Lib.Utf8
import Laplace.Persistence.Compositions

/-!
# Validation of a physicality (physicality_entity.cpp:55-122, 159-186; identity.c:42-114)

The expanded identity work of a record is bounded before anything is hashed. Whether the vectors of
a record can be reserved is a parameter.
-/

namespace Laplace.Identity

/-- `LAPLACE_UNICODE_POSITION_MAXIMUM` -/
def unicodePositionMaximum : UInt32 := 0x10ffff

/-- `laplace_unicode_position_encode` -/
def unicodePositionEncode (position : UInt32) : Except Status (List UInt8) :=
  if position > unicodePositionMaximum then .error .positionOutOfRange
  else .ok (Utf8.encodeWord position)

variable (blake3 : Blake3)

/-- `laplace_identity_codepoint_witness` -/
def codepointWitness (position : UInt32) : Except Status (Id128 × Digest256) := do
  let encoded ← unicodePositionEncode position
  let witness := blake3 encoded
  return (identityOf witness, witness)

/-- `laplace_identity_codepoint` -/
def codepoint (position : UInt32) : Except Status Id128 :=
  (codepointWitness blake3 position).map Prod.fst

end Laplace.Identity

namespace Laplace.PhysicalityEntity

open Trajectory Persistence Identity

/-- `laplace_physicality_entity_status` -/
inductive Status
  | ok | invalidArgument | recordInvalid | trajectoryInvalid | limit | memoryFailure
deriving DecidableEq, Repr

/-- `laplace_physicality_entity_validation` -/
structure Validation where
  realizedEntityId : Id128
  realizedIdentityWitness : Digest256
  witnessAvailable : UInt8
  tierFloor : UInt8
  tierAvailable : UInt8
deriving DecidableEq

def Validation.zero : Validation := ⟨0, 0, 0, 0, 0⟩

/-- `LAPLACE_COMPOSITION_TIER_MAXIMUM` -/
def compositionTierMaximum : UInt8 := 31

/-- `SIZE_MAX / sizeof(laplace_composition_occurrence)` -/
def maximumOccurrences : ℕ := (2 ^ 64 - 1) / 48

/-- What the loop over the carriers collects. -/
structure Carriers where
  total : UInt64
  maximumChildTier : UInt8
  occurrences : List CompositionOccurrence
  runs : List IdRun

section Functions

variable (blake3 : Blake3)

/-- The atom that an occurrence carries beside its identity. -/
def atomMatches (occurrence : CompositionOccurrence) : Bool :=
  occurrence.hasAtom = 0 ∨
    occurrence.tier = 0 ∧ codepoint blake3 occurrence.atom = .ok occurrence.entityId

/-- One turn of the loop over the carriers. -/
def readCarrier (state : Carriers) (carrier : Carrier) : Except Status Carriers := do
  if state.total = Checked.maxWord then throw .trajectoryInvalid
  match compositionDecodeOne carrier (state.total + 1) with
  | .error _ => throw .trajectoryInvalid
  | .ok occurrence =>
    if Checked.maxWord - state.total < occurrence.runLength.toUInt64 then
      throw .trajectoryInvalid
    if ¬ atomMatches blake3 occurrence then throw .trajectoryInvalid
    return {
      total := state.total + occurrence.runLength.toUInt64
      maximumChildTier :=
        if occurrence.tier > state.maximumChildTier then occurrence.tier
        else state.maximumChildTier
      occurrences := state.occurrences ++ [occurrence]
      runs := state.runs ++ [⟨occurrence.entityId, occurrence.runLength.toUInt64⟩] }

/-- The identity that the runs realize, with the witness of two or more. -/
def realize (total : UInt64) (runs : List IdRun) :
    Except Identity.Status (UInt64 × Id128 × Option Digest256) := do
  if 2 ≤ total then
    let (count, composite) ← compositeRunsWitness blake3 runs none true
    return (count, composite.id, composite.witness)
  else
    let (count, id) ← compositeRuns blake3 runs
    return (count, id, none)

/-- `Validate`; `memory` says whether `runs` and `occurrences` can be reserved. -/
def validate (memory : Bool) (record : PhysicalityRecord) (carriers : List Carrier)
    (maximumLogicalCount : UInt64) : Except Status Validation := do
  if physicalityIdentify blake3 record ≠ .ok record.physicalityId then throw .recordInvalid
  if record.logicalCount > maximumLogicalCount then throw .limit
  if record.vertexCount.toNat ≠ carriers.length then throw .trajectoryInvalid
  let validation := { Validation.zero with realizedEntityId := record.entityId }
  if record.physicalityType = physicalityAtomicPoint then return validation
  if trajectoryFingerprint blake3 carriers ≠ .ok record.trajectoryFingerprint then
    throw .trajectoryInvalid
  if ¬ memory then throw .memoryFailure
  let ⟨total, maximumChildTier, occurrences, runs⟩ ←
    carriers.foldlM (readCarrier blake3) ⟨0, 0, [], []⟩
  if total ≠ record.logicalCount then throw .trajectoryInvalid
  match realize blake3 total runs with
  | .error _ => throw .trajectoryInvalid
  | .ok (identityCount, realized, witness) =>
    if identityCount ≠ total ∨ realized ≠ record.entityId then throw .trajectoryInvalid
    if 2 ≤ total then
      if maximumChildTier ≥ compositionTierMaximum then throw .trajectoryInvalid
      return { validation with
        realizedIdentityWitness := witness.getD 0
        witnessAvailable := 1
        tierAvailable := 1
        tierFloor := maximumChildTier + 1 }
    match occurrences with
    | [] => return validation
    | first :: _ =>
      if first.hasAtom = 0 then return validation
      match codepointWitness blake3 first.atom with
      | .error _ => throw .trajectoryInvalid
      | .ok (_, witness) =>
        return { validation with
          realizedIdentityWitness := witness
          witnessAvailable := 1
          tierAvailable := 1
          tierFloor := 0 }

/-- `laplace_physicality_entity_record_validate` -/
def recordValidate (memory : Bool) (record : PhysicalityRecord) (carriers : List Carrier)
    (maximumCarriers maximumLogicalCount : UInt64) : Except Status Validation :=
  if carriers.length > maximumCarriers.toNat ∨ carriers.length > maximumOccurrences then
    .error .limit
  else validate blake3 memory record carriers maximumLogicalCount

end Functions

end Laplace.PhysicalityEntity
