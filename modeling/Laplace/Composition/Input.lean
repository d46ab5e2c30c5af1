import Laplace.Persistence.Records

/-!
# The input of a composition working set (composition.h, contracts/composition.json)

An array is a list, and its fields say that it lies in a 64-bit address space.
-/

namespace Laplace.Composition

/-- `laplace_composition_status` -/
inductive Status
  | ok | invalidArgument | contextInvalid | resourceInsufficient | referenceInvalid | identityInvalid
  | identityCollision | metadataInvalid | tierOverflow | countOverflow | geometryInvalid
  | trajectoryInvalid | persistenceInvalid | memoryFailure | presenceInvalid | presenceAlreadyApplied
  | presenceRequired
deriving DecidableEq, Repr

/-- `laplace_composition_known_entity`; a `double` is its 64-bit pattern. -/
structure KnownEntity where
  entityId : Id128
  identityWitness : Digest256
  physicalityId : Digest256
  centroid : Fin 4 → UInt64
  atom : UInt32
  tierFloor : UInt8
  hasAtom : UInt8
  reserved : UInt16
deriving DecidableEq

/-- `laplace_composition_operand` -/
structure Operand where
  referenceIndex : UInt64
  multiplicity : UInt64
  relationshipMetadata : UInt64
  referenceKind : UInt32
  flags : UInt32
deriving DecidableEq, Repr

/-- `laplace_composition_request` -/
structure Request where
  firstOperand : UInt64
  operandCount : UInt64
  sourceOrdinal : UInt64
  recipeVersion : UInt32
  flags : UInt32
  recipeFingerprint : Digest256
  geometryEpoch : Digest256
  occurrenceContextFingerprint : Digest256
deriving DecidableEq

def referenceKnownEntity : UInt32 := 1
def referencePriorResult : UInt32 := 2
/-- `laplace_composition_working_set_input` without its context. -/
structure WorkingSetInput where
  sourceFingerprint : Digest256
  calculationRecipeFingerprint : Digest256
  knownEntities : List KnownEntity
  operands : List Operand
  requests : List Request
  preferredBatchBytes : UInt64
  reserved : UInt64
  knownFit : knownEntities.length * 120 < 2 ^ 64
  operandsFit : operands.length * 32 < 2 ^ 64
  requestsFit : requests.length * 128 < 2 ^ 64

/-- `operands[first_operand]` up to `operand_end`. -/
def WorkingSetInput.operandsOf (input : WorkingSetInput) (request : Request) : List Operand :=
  (input.operands.drop request.firstOperand.toNat).take request.operandCount.toNat

end Laplace.Composition
