import Laplace.Cognition.Packet

/-!
# What the decoder of requests reads

The reading of every part of a request undoes its writing. The families are not part of the operator
program as it is written, the operator id is not part of the solver program, and only a constraint
of the source class for it has a standing.
-/

namespace Laplace.Cognition.Packet

open Packets Reader Routine

/-! ## Words and records -/

theorem wordsToBytes_length (words : List UInt32) : (wordsToBytes words).length = words.length * 4 := by
  rw [wordsToBytes, List.length_flatMap]
  simp

theorem reads_operatorProgram :
    Reads readOperatorProgram.reader (fun program => (operatorProgramPieces program).flatten)
      fun program => program.eligibleRelationFamilies = [] := by
  unfold readOperatorProgram operatorProgramPieces
  simp only [reader_bind, reader_pure, List.flatten_cons, List.flatten_nil, List.append_nil]
  refine .fields ?_
  refine reads_digest.field OperatorProgram.programId fun _ => ?_
  refine reads_digest.field OperatorProgram.boundaryId fun _ => ?_
  refine reads_digest.field OperatorProgram.contextFingerprint fun _ => ?_
  refine reads_digest.field OperatorProgram.evidenceEpoch fun _ => ?_
  refine reads_digest.field OperatorProgram.resultContractFingerprint fun _ => ?_
  refine reads_u32.field OperatorProgram.eligibleSourceMask fun _ => ?_
  refine reads_u32.field OperatorProgram.flags fun _ => ?_
  refine reads_u64.field OperatorProgram.numericTolerance fun _ => ?_
  refine reads_u32.field OperatorProgram.version fun _ => ?_
  refine reads_u32.last OperatorProgram.reserved (fun _ _ => trivial) fun _ _ program => ?_
  simp only [OperatorProgram.ext_iff]
  tauto

theorem reads_solverProgram :
    Reads readSolverProgram.reader (fun program => (solverProgramPieces program).flatten)
      fun program => program.operatorId = 0 := by
  unfold readSolverProgram solverProgramPieces
  simp only [reader_bind, reader_pure, List.flatten_cons, List.flatten_nil, List.append_nil]
  refine .fields ?_
  refine reads_digest.field SolverProgram.programId fun _ => ?_
  refine reads_digest.field SolverProgram.resultContractFingerprint fun _ => ?_
  refine reads_u64.field SolverProgram.maxIterations fun _ => ?_
  refine reads_u64.field SolverProgram.absoluteResidualTolerance fun _ => ?_
  refine reads_u64.field SolverProgram.relativeResidualTolerance fun _ => ?_
  refine reads_u64.field SolverProgram.regularization fun _ => ?_
  refine reads_u32.field SolverProgram.method fun _ => ?_
  refine reads_u32.field SolverProgram.flags fun _ => ?_
  refine reads_u32.field SolverProgram.version fun _ => ?_
  refine reads_u32.last SolverProgram.reserved (fun _ _ => trivial) fun _ _ program => ?_
  simp only [SolverProgram.ext_iff]
  tauto

theorem reads_field : Reads readField.reader (fun field => (fieldPieces field).flatten) fun _ => True := by
  unfold readField fieldPieces
  simp only [reader_bind, reader_pure, List.flatten_cons, List.flatten_nil, List.append_nil]
  refine .fields ?_
  refine reads_digest.field OperatorField.fieldId fun _ => ?_
  refine reads_identity.field OperatorField.entityId fun _ => ?_
  refine reads_digest.field OperatorField.physicalityId fun _ => ?_
  refine reads_digest.field OperatorField.roleId fun _ => ?_
  refine reads_digest.field OperatorField.recipeFingerprint fun _ => ?_
  refine reads_u64.field OperatorField.ordinal fun _ => ?_
  refine reads_u32.field OperatorField.valueDimension fun _ => ?_
  refine reads_u32.last OperatorField.flags (fun _ _ => trivial) fun _ _ field => ?_
  simp only [OperatorField.ext_iff, true_and, and_assoc]

theorem reads_standingState :
    Reads readStandingState.reader (fun state => (standingStatePieces state).flatten) fun _ => True := by
  unfold readStandingState standingStatePieces
  simp only [reader_bind, reader_pure, List.flatten_cons, List.flatten_nil, List.append_nil]
  refine .fields ?_
  refine reads_digest.field Standing.State.stateId fun _ => ?_
  refine reads_digest.field Standing.State.coordinateId fun _ => ?_
  refine reads_digest.field Standing.State.arenaScopeId fun _ => ?_
  refine reads_digest.field Standing.State.priorStateId fun _ => ?_
  refine reads_digest.field Standing.State.epochId fun _ => ?_
  refine reads_digest.field Standing.State.ratingRecipeId fun _ => ?_
  refine reads_u64.field Standing.State.rating fun _ => ?_
  refine reads_u64.field Standing.State.ratingDeviation fun _ => ?_
  refine reads_u64.field Standing.State.volatility fun _ => ?_
  refine reads_u64.field Standing.State.eligibleMatchCount fun _ => ?_
  refine reads_u64.field Standing.State.periodOrdinal fun _ => ?_
  refine reads_u32.field Standing.State.ratingRecipeVersion fun _ => ?_
  refine reads_u32.last Standing.State.flags (fun _ _ => trivial) fun _ _ state => ?_
  obtain ⟨_, _, _, _, _, _, _, _, _, _, _, _, _⟩ := state
  simp only [Standing.State.mk.injEq, true_and, and_assoc]

theorem reads_constraintBase :
    Reads readConstraintBase.reader (fun constraint => (constraintBasePieces constraint).flatten)
      fun constraint => constraint.standing = {} := by
  unfold readConstraintBase constraintBasePieces
  simp only [reader_bind, reader_pure, List.flatten_cons, List.flatten_nil, List.append_nil]
  refine .fields ?_
  refine reads_digest.field OperatorConstraint.constraintId fun _ => ?_
  refine reads_digest.field OperatorConstraint.planeId fun _ => ?_
  refine reads_digest.field OperatorConstraint.lawFingerprint fun _ => ?_
  refine reads_digest.field OperatorConstraint.unitsFingerprint fun _ => ?_
  refine reads_digest.field OperatorConstraint.evidenceRootId fun _ => ?_
  refine reads_digest.field OperatorConstraint.calculationReceiptId fun _ => ?_
  refine reads_u64.field OperatorConstraint.sourceFieldIndex fun _ => ?_
  refine reads_u64.field OperatorConstraint.targetFieldIndex fun _ => ?_
  refine reads_u64.field OperatorConstraint.transportScale fun _ => ?_
  refine reads_u64.field OperatorConstraint.transportOffset fun _ => ?_
  refine reads_u64.field OperatorConstraint.targetValue fun _ => ?_
  refine reads_u64.field OperatorConstraint.precision fun _ => ?_
  refine reads_u32.field OperatorConstraint.relationFamily fun _ => ?_
  refine reads_u32.field OperatorConstraint.sourceClass fun _ => ?_
  refine reads_u32.field OperatorConstraint.direction fun _ => ?_
  refine reads_u32.field OperatorConstraint.transportKind fun _ => ?_
  refine reads_u32.field OperatorConstraint.flags fun _ => ?_
  refine reads_u32.last OperatorConstraint.reserved (fun _ _ => trivial)
    fun _ _ constraint => ?_
  simp only [OperatorConstraint.ext_iff]
  tauto

/-- A constraint without its standing. -/
def OperatorConstraint.base (constraint : OperatorConstraint) : OperatorConstraint :=
  { constraint with standing := {} }

theorem constraintBasePieces_base (constraint : OperatorConstraint) :
    constraintBasePieces constraint.base = constraintBasePieces constraint := rfl

theorem base_eq_self_iff {constraint : OperatorConstraint} :
    constraint.base = constraint ↔ constraint.standing = {} := by
  rw [OperatorConstraint.ext_iff]
  simp only [OperatorConstraint.base, true_and, eq_comm]

/-- A standing comes with the source class for it, and then with its version. -/
structure ConstraintFits (version : UInt32) (constraint : OperatorConstraint) : Prop where
  none : constraint.sourceClass ≠ sourceStanding → constraint.standing = {}
  version : constraint.sourceClass = sourceStanding → version ≥ packetVersionStanding

/-- The standing as it is written. -/
def standingWritten (constraint : OperatorConstraint) : List UInt8 :=
  if constraint.sourceClass ≠ sourceStanding then []
  else (standingStatePieces constraint.standing).flatten

theorem constraintPieces_flatten (constraint : OperatorConstraint) : (constraintPieces constraint).flatten =
      (constraintBasePieces constraint.base).flatten ++ standingWritten constraint := by
  rw [constraintPieces, List.flatten_append, constraintBasePieces_base, standingWritten]
  split <;> rfl

theorem reads_constraint (version : UInt32) :
    Reads (readConstraint version).reader (fun constraint => (constraintPieces constraint).flatten)
      (ConstraintFits version) := by
  unfold readConstraint
  rw [reader_bind]
  simp only [constraintPieces_flatten]
  refine .fields ?_
  refine reads_constraintBase.bind OperatorConstraint.base (fun _ _ => rfl) fun base hbase => ?_
  split
  · rename_i hclass
    have hnone : ∀ constraint : OperatorConstraint, ConstraintFits version constraint ∧ True ∧
        constraint.base = base ↔ constraint = base := by
      intro constraint
      constructor
      · rintro ⟨hfits, -, rfl⟩
        exact (base_eq_self_iff.2 (hfits.none hclass)).symm
      · rintro rfl
        exact ⟨⟨fun _ => hbase, fun h => absurd h hclass⟩, trivial, base_eq_self_iff.2 hbase⟩
    refine (Reads.pure hnone).congr (fun _ => Iff.rfl) fun constraint h => ?_
    rw [(hnone constraint).1 h, standingWritten, if_pos hclass]
  · rename_i hclass
    rw [not_not] at hclass
    simp only [reader_bind, reader_require, reader_pure]
    refine .guard_then (fun constraint h => h.1.version ?_) fun hversion => ?_
    · rw [← hclass, ← h.2.2]
      rfl
    refine (reads_standingState.last OperatorConstraint.standing (fun _ _ => trivial)
      fun standing _ constraint => ?_).congr (fun _ => Iff.rfl) fun constraint h => ?_
    · constructor
      · rintro ⟨-, ⟨-, rfl⟩, rfl⟩
        rfl
      · rintro rfl
        exact ⟨⟨fun h => absurd hclass h, fun _ => hversion⟩, ⟨trivial, base_eq_self_iff.2 hbase⟩, rfl⟩
    · rw [standingWritten, if_neg]
      rw [not_not, ← hclass, ← h.2.2]
      rfl

/-! ## The head -/

/-- What is read before the tables: the version, the counts and the programs. -/
abbrev RequestHead := UInt32 × RequestCounts × OperatorProgram × SolverProgram

def headWritten (head : RequestHead) : List UInt8 :=
  requestMagic ++ (u32Bytes head.1 ++ (u32Bytes packetFlags ++ (u64Bytes head.2.1.families ++
    (u64Bytes head.2.1.fields ++ (u64Bytes head.2.1.constraints ++
      (u64Bytes head.2.1.initialStates ++ ((operatorProgramPieces head.2.2.1).flatten ++
        (solverProgramPieces head.2.2.2).flatten)))))))

structure HeadFits (head : RequestHead) : Prop where
  version : packetVersionValid head.1 = true
  counts : head.2.1.valid = true
  families : head.2.2.1.eligibleRelationFamilies = []
  operatorId : head.2.2.2.operatorId = 0
  reserved : head.2.2.1.reserved = 0 ∧ head.2.2.2.reserved = 0

theorem reads_head : Reads readHead.reader headWritten HeadFits := by
  unfold readHead headWritten
  simp only [reader_bind, reader_pure, reader_require]
  refine .fields ?_
  refine (reads_bytes 8).bind (fun _ : RequestHead => requestMagic) (fun _ _ => rfl)
    fun magic _ => ?_
  refine .guard_then (fun _ h => h.2.2.symm) fun hmagic => ?_
  refine reads_u32.field (fun head : RequestHead => head.1) fun version => ?_
  refine .guard_then (fun _ h => h.2.2 ▸ h.1.version) fun hversion => ?_
  refine reads_u32.field (fun _ : RequestHead => packetFlags) fun flags => ?_
  refine .guard_then (fun _ h => h.2.2.symm) fun hflags => ?_
  refine reads_u64.field (fun head : RequestHead => head.2.1.families) fun families => ?_
  refine reads_u64.field (fun head : RequestHead => head.2.1.fields) fun fields => ?_
  refine reads_u64.field (fun head : RequestHead => head.2.1.constraints) fun constraints => ?_
  refine reads_u64.field (fun head : RequestHead => head.2.1.initialStates) fun initialStates => ?_
  refine .guard_then (fun head h => ?_) fun hcounts => ?_
  · obtain ⟨hfits, ⟨⟨⟨-, rfl⟩, rfl⟩, rfl⟩, rfl⟩ := h
    exact hfits.counts
  refine reads_operatorProgram.bind (fun head : RequestHead => head.2.2.1)
    (fun _ h => h.1.families) fun operatorProgram hfamilies => ?_
  refine (reads_solverProgram.bind (fun head : RequestHead => head.2.2.2)
    (fun _ h => h.1.operatorId) fun solverProgram hoperatorId => ?_).congr (fun _ => Iff.rfl)
      fun _ _ => List.append_nil _
  refine .guard_then (fun head h => ?_) fun hreserved => .pure fun head => ?_
  · obtain ⟨hfits, ⟨-, rfl⟩, rfl⟩ := h
    exact hfits.reserved
  · constructor
    · rintro ⟨-, ⟨⟨⟨⟨⟨⟨⟨-, rfl⟩, -⟩, rfl⟩, rfl⟩, rfl⟩, rfl⟩, rfl⟩, rfl⟩
      rfl
    · rintro rfl
      exact ⟨⟨hversion, hcounts, hfamilies, hoperatorId, hreserved⟩, ⟨⟨⟨⟨⟨⟨⟨⟨trivial, hmagic.symm⟩,
        rfl⟩, hflags.symm⟩, rfl⟩, rfl⟩, rfl⟩, rfl⟩, rfl⟩, rfl⟩

/-! ## The tables -/

abbrev RequestTables := List UInt32 × List OperatorField × List OperatorConstraint × List UInt64

def fieldsWritten (fields : List OperatorField) : List UInt8 :=
  fields.flatMap fun field => (fieldPieces field).flatten

def constraintsWritten (constraints : List OperatorConstraint) : List UInt8 :=
  constraints.flatMap fun constraint => (constraintPieces constraint).flatten

def tablesWritten (tables : RequestTables) : List UInt8 :=
  tables.1.flatMap u32Bytes ++ (fieldsWritten tables.2.1 ++
    (constraintsWritten tables.2.2.1 ++ tables.2.2.2.flatMap u64Bytes))

/-- The tables are as long as the counts say, and a vector can be so long. -/
structure TablesFit (version : UInt32) (counts : RequestCounts) (tables : RequestTables) : Prop where
  families : tables.1.length = counts.families.toNat
  families_le : counts.families.toNat ≤ maxSize familyObjectBytes
  fields : tables.2.1.length = counts.fields.toNat
  fields_le : counts.fields.toNat ≤ maxSize fieldObjectBytes
  constraints : tables.2.2.1.length = counts.constraints.toNat
  constraints_le : counts.constraints.toNat ≤ maxSize constraintObjectBytes
  initialStates : tables.2.2.2.length = counts.initialStates.toNat
  initialStates_le : counts.initialStates.toNat ≤ maxSize 8
  standings : ∀ constraint ∈ tables.2.2.1, ConstraintFits version constraint

theorem reads_tables (version : UInt32) (counts : RequestCounts) :
    Reads (readTables version counts).reader tablesWritten (TablesFit version counts) := by
  unfold readTables tablesWritten fieldsWritten constraintsWritten
  simp only [reader_bind, reader_pure, reader_resize, reader_many]
  refine .fields ?_
  refine .guard_then (fun _ h => h.1.families_le) fun hfamilies => ?_
  refine .guard_then (fun _ h => h.1.fields_le) fun hfields => ?_
  refine .guard_then (fun _ h => h.1.constraints_le) fun hconstraints => ?_
  refine .guard_then (fun _ h => h.1.initialStates_le) fun hinitialStates => ?_
  refine (reads_u32.many _).bind (fun tables : RequestTables => tables.1)
    (fun _ h => ⟨h.1.families, fun _ _ => trivial⟩) fun families hfamiliesLength => ?_
  refine (reads_field.many _).bind (fun tables : RequestTables => tables.2.1)
    (fun _ h => ⟨h.1.fields, fun _ _ => trivial⟩) fun fields hfieldsLength => ?_
  refine ((reads_constraint version).many _).bind (fun tables : RequestTables => tables.2.2.1)
    (fun _ h => ⟨h.1.constraints, h.1.standings⟩) fun constraints hconstraintsLength => ?_
  refine (reads_u64.many _).last (fun tables : RequestTables => tables.2.2.2)
    (fun _ h => ⟨h.1.initialStates, fun _ _ => trivial⟩) fun states hstatesLength tables => ?_
  constructor
  · rintro ⟨-, ⟨⟨⟨-, rfl⟩, rfl⟩, rfl⟩, rfl⟩
    rfl
  · rintro rfl
    exact ⟨⟨hfamiliesLength.1, hfamilies, hfieldsLength.1, hfields, hconstraintsLength.1,
      hconstraints, hstatesLength.1, hinitialStates, hconstraintsLength.2⟩,
      ⟨⟨⟨trivial, rfl⟩, rfl⟩, rfl⟩, rfl⟩

/-! ## The request -/

/-- The counts of the tables of a request. -/
def DecodedRequest.counts (decoded : DecodedRequest) : RequestCounts :=
  ⟨UInt64.ofNat decoded.operatorProgram.eligibleRelationFamilies.length,
    UInt64.ofNat decoded.fields.length, UInt64.ofNat decoded.constraints.length,
    UInt64.ofNat decoded.initialState.length⟩

def DecodedRequest.head (decoded : DecodedRequest) : RequestHead :=
  (decoded.packetVersion, decoded.counts,
    { decoded.operatorProgram with eligibleRelationFamilies := [] }, decoded.solverProgram)

def DecodedRequest.tables (decoded : DecodedRequest) : RequestTables :=
  (decoded.operatorProgram.eligibleRelationFamilies, decoded.fields, decoded.constraints,
    decoded.initialState)

def requestWritten (decoded : DecodedRequest) : List UInt8 :=
  headWritten decoded.head ++ tablesWritten decoded.tables

structure RequestFits (decoded : DecodedRequest) : Prop where
  head : HeadFits decoded.head
  tables : TablesFit decoded.packetVersion decoded.counts decoded.tables

theorem headWritten_ne_nil (head : RequestHead) : headWritten head ≠ [] := nofun

/-- The request that a head and its tables make. -/
def assemble (head : RequestHead) (tables : RequestTables) : DecodedRequest :=
  ⟨{ head.2.2.1 with eligibleRelationFamilies := tables.1 }, head.2.2.2, tables.2.1, tables.2.2.1,
    tables.2.2.2, head.1⟩

theorem assemble_counts {head : RequestHead} {tables : RequestTables}
    (h : TablesFit head.1 head.2.1 tables) : (assemble head tables).counts = head.2.1 := by
  unfold DecodedRequest.counts assemble
  dsimp only
  rw [h.families, h.fields, h.constraints, h.initialStates]
  simp only [UInt64.ofNat_toNat]

theorem assemble_head {head : RequestHead} {tables : RequestTables} (hhead : HeadFits head)
    (h : TablesFit head.1 head.2.1 tables) : (assemble head tables).head = head := by
  have hprogram : { head.2.2.1 with eligibleRelationFamilies := [] } = head.2.2.1 := by
    rw [← hhead.families]
  unfold DecodedRequest.head
  rw [assemble_counts h]
  exact congrArg (fun program => (head.1, head.2.1, program, head.2.2.2)) hprogram

theorem run_decodeRequest_iff {input rest : List UInt8} {decoded : DecodedRequest} :
    decodeRequest.reader.run input = some (decoded, rest) ↔
      RequestFits decoded ∧ input = requestWritten decoded ∧ rest = [] := by
  unfold decodeRequest
  rw [run_remaining_then, run_require_then]
  simp only [@run_bind_eq_some _ _ _ readHead, @run_bind_eq_some _ _ _ (readTables _ _)]
  constructor
  · rintro ⟨-, head, middle, hhead, tables, last, htables, hlast⟩
    rw [run_remaining_then, run_require_then] at hlast
    obtain ⟨hnil, hdecoded⟩ := hlast
    obtain ⟨hheadFits, rfl⟩ := reads_head.canonical _ _ _ hhead
    obtain ⟨htablesFit, rfl⟩ := (reads_tables _ _).canonical _ _ _ htables
    obtain rfl := List.length_eq_zero_iff.1 hnil
    obtain ⟨rfl, rfl⟩ := Prod.mk.inj (Option.some.inj hdecoded)
    have hself := assemble_head hheadFits htablesFit
    refine ⟨⟨hself.symm ▸ hheadFits, ?_⟩, ?_, rfl⟩
    · exact (assemble_counts htablesFit).symm ▸ htablesFit
    · rw [List.append_nil]
      exact congrArg (headWritten · ++ tablesWritten tables) hself.symm
  · rintro ⟨hfits, rfl, rfl⟩
    have htables := (reads_tables _ _).accepts _ [] hfits.tables
    rw [List.append_nil] at htables
    refine ⟨?_, decoded.head, tablesWritten decoded.tables, reads_head.accepts _ _ hfits.head,
      decoded.tables, [], htables, ?_⟩
    · rw [Ne, List.length_eq_zero_iff, requestWritten]
      exact fun h => headWritten_ne_nil _ (List.append_eq_nil_iff.1 h).1
    · rfl

end Laplace.Cognition.Packet
