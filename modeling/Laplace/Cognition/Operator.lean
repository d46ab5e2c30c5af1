import Laplace.Cognition.Packet
import Laplace.Lib.Sorting

/-!
# Cognition operators (cognition_operator_part00.inc to cognition_operator_part02.inc)

An operator is built from a program, fields and constraints between two fields. Constraints the
program does not select are left out, and of the constraints that depend on one piece of evidence
only the first is kept. The doubles are bit patterns; allocations are granted.
-/

namespace Laplace.CognitionOperator

open Cognition.Packet (OperatorProgram OperatorField OperatorConstraint OperatorReceipt)
open Standing (doubleIsZero doubleIsFinite doubleIsPositive)

/-- `laplace_cognition_operator_status`, as far as exact arithmetic and granted memory reach. -/
inductive OperatorStatus
  | ok | invalidArgument | programInvalid | fieldInvalid | constraintInvalid | evidenceConflict | empty
  | range
deriving DecidableEq, Repr

def OperatorStatus.code : OperatorStatus → UInt32
  | ok => 0
  | invalidArgument => 1
  | programInvalid => 2
  | fieldInvalid => 3
  | constraintInvalid => 4
  | evidenceConflict => 5
  | empty => 6
  | range => 7

def operatorVersion : UInt32 := 1
def sourcePhysicality : UInt32 := 1
def sourceTestimony : UInt32 := 2
def sourceDerived : UInt32 := 3
def sourceStanding : UInt32 := 4
def directionTargetToSource : UInt32 := 2
def transportIdentity : UInt32 := 1
def transportSigned : UInt32 := 2
def fieldContainer : UInt32 := 1
def fieldRole : UInt32 := 2
def constraintHasTarget : UInt32 := 1

/-- The patterns of `1.0` and `-1.0`. -/
def one : UInt64 := 0x3FF0000000000000
def minusOne : UInt64 := 0xBFF0000000000000

/-- `left == right` of finite values. -/
def doubleSame (left right : UInt64) : Bool :=
  left == right || (doubleIsZero left && doubleIsZero right)

/-! ## Validation -/

/-- `StandingZero` -/
def standingZero (state : Standing.State) : Bool :=
  state.stateId == 0 && state.coordinateId == 0 && state.arenaScopeId == 0 &&
    state.priorStateId == 0 && state.epochId == 0 && state.ratingRecipeId == 0 &&
    doubleIsZero state.rating && doubleIsZero state.ratingDeviation &&
    doubleIsZero state.volatility && state.eligibleMatchCount == 0 &&
    state.periodOrdinal == 0 && state.ratingRecipeVersion == 0 && state.flags == 0

/-- `ProgramValid` -/
def programValid (program : OperatorProgram) : Bool :=
  program.programId != 0 && program.boundaryId != 0 && program.contextFingerprint != 0 &&
    program.evidenceEpoch != 0 && program.resultContractFingerprint != 0 &&
    !program.eligibleRelationFamilies.isEmpty && program.eligibleSourceMask != 0 &&
    program.eligibleSourceMask &&& ~~~15 == 0 && program.flags &&& ~~~7 == 0 &&
    doubleIsFinite program.numericTolerance && doubleIsPositive program.numericTolerance &&
    program.version == operatorVersion && program.reserved == 0 &&
    program.eligibleRelationFamilies.all (· != 0) &&
    decide program.eligibleRelationFamilies.Nodup

/-- `FieldValid` -/
def fieldValid (field : OperatorField) : Bool :=
  let container := field.flags &&& fieldContainer != 0
  let role := field.flags &&& fieldRole != 0
  field.fieldId != 0 && field.entityId != 0 && field.recipeFingerprint != 0 &&
    field.valueDimension == 1 && field.flags &&& ~~~15 == 0 && !(container && role) &&
    !(role && (field.roleId == 0 || field.physicalityId == 0)) &&
    !(container && field.physicalityId == 0)

section Create

variable (blake3 : Blake3)

/-- `StandingValid` -/
def standingValid (state : Standing.State) : Bool :=
  !standingZero state && Standing.stateIdentify blake3 state == some state.stateId

/-- `ConstraintValid` -/
def constraintValid (fieldCount : ℕ) (constraint : OperatorConstraint) : Bool :=
  constraint.constraintId != 0 && constraint.planeId != 0 && constraint.lawFingerprint != 0 &&
    constraint.unitsFingerprint != 0 && constraint.calculationReceiptId != 0 &&
    decide (constraint.sourceFieldIndex.toNat < fieldCount) &&
    decide (constraint.targetFieldIndex.toNat < fieldCount) &&
    constraint.sourceFieldIndex != constraint.targetFieldIndex &&
    doubleIsFinite constraint.transportScale && doubleIsFinite constraint.transportOffset &&
    doubleIsFinite constraint.targetValue && doubleIsFinite constraint.precision &&
    doubleIsPositive constraint.precision && constraint.relationFamily != 0 &&
    decide (1 ≤ constraint.sourceClass ∧ constraint.sourceClass ≤ 4) &&
    decide (1 ≤ constraint.direction ∧ constraint.direction ≤ 3) &&
    decide (1 ≤ constraint.transportKind ∧ constraint.transportKind ≤ 8) &&
    constraint.flags &&& ~~~3 == 0 && constraint.reserved == 0 &&
    !(constraint.flags &&& constraintHasTarget == 0 && !doubleIsZero constraint.targetValue) &&
    !(constraint.sourceClass == sourceTestimony && constraint.evidenceRootId == 0) &&
    !((constraint.sourceClass == sourcePhysicality || constraint.sourceClass == sourceStanding) &&
      constraint.evidenceRootId != 0) &&
    (if constraint.sourceClass = sourceStanding then standingValid blake3 constraint.standing
      else standingZero constraint.standing) &&
    !(constraint.transportKind == transportIdentity &&
      (constraint.transportScale != one || !doubleIsZero constraint.transportOffset)) &&
    !(constraint.transportKind == transportSigned &&
      !(constraint.transportScale == one || constraint.transportScale == minusOne))

/-- `ConstraintEligible` -/
def constraintEligible (program : OperatorProgram) (constraint : OperatorConstraint) : Bool :=
  program.eligibleSourceMask &&& (1 <<< (constraint.sourceClass - 1)) != 0 &&
    program.eligibleRelationFamilies.contains constraint.relationFamily

/-! ## Dependent evidence -/

structure EvidenceKey where
  root : Digest256
  standing : Digest256
  plane : Digest256
  law : Digest256
  source : UInt64
  target : UInt64
  relation : UInt32
  direction : UInt32
  transport : UInt32
deriving DecidableEq

/-- `MakeEvidenceKey` -/
def makeEvidenceKey (constraint : OperatorConstraint) : EvidenceKey :=
  ⟨constraint.evidenceRootId, constraint.standing.stateId, constraint.planeId,
    constraint.lawFingerprint, constraint.sourceFieldIndex, constraint.targetFieldIndex,
    constraint.relationFamily, constraint.direction, constraint.transportKind⟩

/-- `SameEvidenceSemantic`, of valid constraints. -/
def sameEvidenceSemantic (left right : OperatorConstraint) : Bool :=
  left.unitsFingerprint == right.unitsFingerprint &&
    doubleSame left.transportScale right.transportScale &&
    doubleSame left.transportOffset right.transportOffset &&
    doubleSame left.targetValue right.targetValue && doubleSame left.precision right.precision &&
    left.sourceClass == right.sourceClass && left.flags == right.flags &&
    (left.sourceClass != sourceStanding || left.standing.stateId == right.standing.stateId)

/-- `ConstraintLess` compares these. -/
def constraintOrder (constraint : OperatorConstraint) : ℕ := constraint.constraintId.toNat

/-- What the loop over the constraints keeps. -/
structure Selection where
  constraintIds : List Digest256 := []
  dependentRoots : EvidenceKey → Option OperatorConstraint := fun _ => none
  selected : List OperatorConstraint := []
  planes : List Digest256 := []
  deduplicatedDependentCount : UInt64 := 0
  physicalityConstraintCount : UInt64 := 0
  testimonyConstraintCount : UInt64 := 0
  derivedConstraintCount : UInt64 := 0

/-- The end of the loop's body: standing constraints are in no counter. -/
def Selection.select (s : Selection) (constraint : OperatorConstraint) : Selection :=
  let counted (sourceClass : UInt32) (count : UInt64) : UInt64 :=
    if constraint.sourceClass = sourceClass then count + 1 else count
  { s with
    selected := s.selected ++ [constraint]
    planes := s.planes.insert constraint.planeId
    physicalityConstraintCount := counted sourcePhysicality s.physicalityConstraintCount
    testimonyConstraintCount := counted sourceTestimony s.testimonyConstraintCount
    derivedConstraintCount := counted sourceDerived s.derivedConstraintCount }

/-- The body of the loop over the constraints. -/
def consider (program : OperatorProgram) (fieldCount : ℕ) (s : Selection)
    (constraint : OperatorConstraint) : Except OperatorStatus Selection :=
  if !constraintValid blake3 fieldCount constraint then .error .constraintInvalid
  else if constraint.constraintId ∈ s.constraintIds then .error .constraintInvalid
  else
    let s := { s with constraintIds := constraint.constraintId :: s.constraintIds }
    if !constraintEligible program constraint then .ok s
    else if constraint.sourceClass = sourcePhysicality then .ok (s.select constraint)
    else
      let key := makeEvidenceKey constraint
      match s.dependentRoots key with
      | none =>
        let dependentRoots := Function.update s.dependentRoots key (some constraint)
        .ok ({ s with dependentRoots }.select constraint)
      | some found =>
        if sameEvidenceSemantic found constraint then
          .ok { s with deduplicatedDependentCount := s.deduplicatedDependentCount + 1 }
        else .error .evidenceConflict

/-! ## The operator and its receipt -/

/-- `HashStanding` -/
def hashStanding (state : Standing.State) : List UInt8 :=
  state.stateId.bytes ++ Standing.hashState state

/-- `HashField` -/
def hashField (field : OperatorField) : List UInt8 :=
  field.fieldId.bytes ++ field.entityId.bytes ++ field.physicalityId.bytes ++ field.roleId.bytes ++
    field.recipeFingerprint.bytes ++ u64Bytes field.ordinal ++ u32Bytes field.valueDimension ++
    u32Bytes field.flags

/-- `HashConstraint` -/
def hashConstraint (constraint : OperatorConstraint) : List UInt8 :=
  constraint.constraintId.bytes ++ constraint.planeId.bytes ++ constraint.lawFingerprint.bytes ++
    constraint.unitsFingerprint.bytes ++ constraint.evidenceRootId.bytes ++
    constraint.calculationReceiptId.bytes ++ u64Bytes constraint.sourceFieldIndex ++
    u64Bytes constraint.targetFieldIndex ++ u64Bytes constraint.transportScale ++
    u64Bytes constraint.transportOffset ++ u64Bytes constraint.targetValue ++
    u64Bytes constraint.precision ++ u32Bytes constraint.relationFamily ++
    u32Bytes constraint.sourceClass ++ u32Bytes constraint.direction ++
    u32Bytes constraint.transportKind ++ u32Bytes constraint.flags ++
    if constraint.sourceClass = sourceStanding then hashStanding constraint.standing else []

/-- `HashProgram`; the families are sorted already. -/
def hashProgram (program : OperatorProgram) : Digest256 :=
  blake3 (domainBytes "laplace-cognition-operator-program-v1" ++ program.programId.bytes ++
    program.boundaryId.bytes ++ program.contextFingerprint.bytes ++ program.evidenceEpoch.bytes ++
    program.resultContractFingerprint.bytes ++
    u64Bytes (UInt64.ofNat program.eligibleRelationFamilies.length) ++
    program.eligibleRelationFamilies.flatMap u32Bytes ++ u32Bytes program.eligibleSourceMask ++
    u32Bytes program.flags ++ u64Bytes program.numericTolerance ++ u32Bytes program.version)

/-- `laplace_cognition_operator` -/
structure Operator where
  program : OperatorProgram
  fields : List OperatorField
  constraints : List OperatorConstraint
  receipt : OperatorReceipt

/-- The receipt of a call that fails. -/
def emptyReceipt (status : UInt32) : OperatorReceipt :=
  ⟨0, 0, 0, 0, 0, 0, 0, 0, 0, 0, 0, 0, 0, status, operatorVersion, 0⟩

/-- `HashOperatorSets` -/
def hashOperatorSets (value : Operator) : OperatorReceipt :=
  let receipt := value.receipt
  let fieldSetFingerprint := blake3 (domainBytes "laplace-cognition-operator-field-v1" ++
    u64Bytes (UInt64.ofNat value.fields.length) ++ value.fields.flatMap hashField)
  let constraintSetFingerprint := blake3 (domainBytes "laplace-cognition-operator-constraint-v1" ++
    u64Bytes (UInt64.ofNat value.constraints.length) ++ value.constraints.flatMap hashConstraint)
  let operatorId := blake3 (domainBytes "laplace-cognition-operator-v1" ++
    receipt.programFingerprint.bytes ++ fieldSetFingerprint.bytes ++
    constraintSetFingerprint.bytes ++ u64Bytes receipt.fieldCount ++
    u64Bytes receipt.selectedConstraintCount)
  let receiptId := blake3 (domainBytes "laplace-cognition-operator-v1" ++ operatorId.bytes ++
    receipt.programFingerprint.bytes ++ fieldSetFingerprint.bytes ++
    constraintSetFingerprint.bytes ++ u64Bytes receipt.fieldCount ++
    u64Bytes receipt.inputConstraintCount ++ u64Bytes receipt.selectedConstraintCount ++
    u64Bytes receipt.deduplicatedDependentCount ++ u64Bytes receipt.physicalityConstraintCount ++
    u64Bytes receipt.testimonyConstraintCount ++ u64Bytes receipt.derivedConstraintCount ++
    u32Bytes receipt.relationPlaneCount ++ u32Bytes receipt.version)
  { receipt with fieldSetFingerprint, constraintSetFingerprint, operatorId, receiptId }

variable (sort : Sorting constraintOrder) (program : OperatorProgram)
  (fields : List OperatorField)

/-- What is made of the constraints that were kept; `sort` is `std::sort`. -/
def assemble (constraintCount : ℕ) (s : Selection) : Operator :=
  let program := { program with
    eligibleRelationFamilies := program.eligibleRelationFamilies.mergeSort }
  let value := {
    program, fields, constraints := sort.sort s.selected
    receipt := { emptyReceipt OperatorStatus.ok.code with
      programFingerprint := hashProgram blake3 program
      fieldCount := UInt64.ofNat fields.length
      inputConstraintCount := UInt64.ofNat constraintCount
      selectedConstraintCount := UInt64.ofNat s.selected.length
      deduplicatedDependentCount := s.deduplicatedDependentCount
      physicalityConstraintCount := s.physicalityConstraintCount
      testimonyConstraintCount := s.testimonyConstraintCount
      derivedConstraintCount := s.derivedConstraintCount
      relationPlaneCount := UInt32.ofNat s.planes.length } : Operator }
  { value with receipt := hashOperatorSets blake3 value }

/-- The loop over the constraints. -/
def considerAll (constraints : List OperatorConstraint) : Except OperatorStatus Selection :=
  constraints.foldlM (consider blake3 program fields.length) {}

def build (constraints : List OperatorConstraint) : Except OperatorStatus Operator :=
  if fields.isEmpty || constraints.isEmpty then .error .invalidArgument
  else if !programValid program then .error .programInvalid
  else if !(fields.all fieldValid && decide (fields.map OperatorField.fieldId).Nodup) then
    .error .fieldInvalid
  else
    match considerAll blake3 program fields constraints with
    | .error status => .error status
    | .ok s =>
      if s.selected.isEmpty then .error .empty
      else .ok (assemble blake3 sort program fields constraints.length s)

/-- `laplace_cognition_operator_create`: the status, the receipt and the operator. -/
def operatorCreate (constraints : List OperatorConstraint) :
    OperatorStatus × OperatorReceipt × Option Operator :=
  match build blake3 sort program fields constraints with
  | .error status =>
    (status, emptyReceipt (if status = .invalidArgument then 0 else status.code), none)
  | .ok value => (.ok, value.receipt, some value)

end Create

end Laplace.CognitionOperator
