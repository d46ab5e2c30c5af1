import Laplace.Cognition.PacketResults

/-!
# The codec of cognition packets

What is encoded of a request is a decoded request, whose operator id and whose standings outside of
their source class are cleared. The decoder accepts it where the reserved words of the programs are
zero, which the encoder does not check.
-/

namespace Laplace.Cognition.Packet

open Packets Reader Routine

/-! ## What a packet carries -/

/-- A constraint as a packet carries it. -/
def OperatorConstraint.carried (constraint : OperatorConstraint) : OperatorConstraint :=
  if constraint.sourceClass = sourceStanding then constraint else constraint.base

/-- A request as a packet carries it. -/
def RuntimeRequest.carried (request : RuntimeRequest) : DecodedRequest :=
  ⟨request.operatorProgram, { request.solverProgram with operatorId := 0 }, request.fields,
    request.constraints.map OperatorConstraint.carried, request.initialState,
    requestPacketVersion request⟩

theorem carried_sourceClass (constraint : OperatorConstraint) :
    constraint.carried.sourceClass = constraint.sourceClass := by
  unfold OperatorConstraint.carried
  split <;> rfl

theorem constraintPieces_carried (constraint : OperatorConstraint) :
    constraintPieces constraint.carried = constraintPieces constraint := by
  unfold OperatorConstraint.carried
  split
  · rfl
  · rename_i hclass
    rw [constraintPieces, constraintPieces, constraintBasePieces_base, if_pos hclass]
    exact congrArg _ (if_pos hclass)

theorem flatten_flatMap {α : Type} (values : List α) (pieces : α → List (List UInt8)) :
    (values.flatMap pieces).flatten = values.flatMap fun value => (pieces value).flatten := by
  rw [List.flatMap_def, List.flatMap_def, List.flatten_flatten, List.map_map, Function.comp_def]

theorem requestPieces_flatten (request : RuntimeRequest) :
    (requestPieces request).flatten = requestWritten request.carried := by
  have hconstraints : constraintsWritten (request.constraints.map OperatorConstraint.carried) =
      (request.constraints.flatMap constraintPieces).flatten := by
    rw [constraintsWritten, List.flatMap_map, flatten_flatMap]
    simp only [constraintPieces_carried]
  have hfields : fieldsWritten request.fields = (request.fields.flatMap fieldPieces).flatten := by
    rw [fieldsWritten, flatten_flatMap]
  have hprogram : operatorProgramPieces
      { request.operatorProgram with eligibleRelationFamilies := [] } =
      operatorProgramPieces request.operatorProgram := rfl
  have hsolver : solverProgramPieces { request.solverProgram with operatorId := 0 } =
      solverProgramPieces request.solverProgram := rfl
  rw [requestWritten, headWritten, tablesWritten]
  simp only [RuntimeRequest.carried, DecodedRequest.head, DecodedRequest.tables,
    DecodedRequest.counts, List.length_map, hconstraints, hfields, hprogram, hsolver]
  simp only [requestPieces, List.flatten_append, List.flatten_cons, List.flatten_nil,
    List.append_nil, List.append_assoc, List.flatMap_def]

/-! ## What the decoder asks of it -/

theorem version_valid (request : RuntimeRequest) :
    packetVersionValid (requestPacketVersion request) = true := by
  unfold requestPacketVersion
  split <;> rfl

theorem carried_fits (request : RuntimeRequest) {constraint : OperatorConstraint}
    (h : constraint ∈ request.constraints.map OperatorConstraint.carried) :
    ConstraintFits (requestPacketVersion request) constraint := by
  obtain ⟨whole, hmem, rfl⟩ := List.mem_map.1 h
  refine ⟨fun hclass => ?_, fun hclass => ?_⟩
  · rw [carried_sourceClass] at hclass
    rw [OperatorConstraint.carried, if_neg hclass]
    rfl
  · rw [carried_sourceClass] at hclass
    rw [requestPacketVersion, if_pos ⟨whole, hmem, hclass⟩]
    exact UInt32.le_refl _

variable {count : ℕ}

theorem toNat_length {width : ℕ} (hwidth : 0 < width) (h : count * width ≤ objectLimit) :
    (UInt64.ofNat count).toNat = count ∧ count ≤ maxSize width := by
  have hle : count ≤ count * width := Nat.le_mul_of_pos_right _ hwidth
  have hlimit : objectLimit < 2 ^ 64 := by decide
  exact ⟨Checked.toNat_ofNat (by omega), (Nat.le_div_iff_mul_le hwidth).2 h⟩

theorem maxSize_le (width : ℕ) : maxSize width ≤ sizeMax / width :=
  Nat.div_le_div_right (by decide)

variable {request : RuntimeRequest}

theorem requestFits_iff (hfamilies : request.operatorProgram.eligibleRelationFamilies ≠ [])
    (hfields : request.fields ≠ []) (hconstraints : request.constraints ≠ [])
    (hstates : request.initialState.length = request.fields.length) : RequestFits request.carried ↔
      request.operatorProgram.reserved = 0 ∧ request.solverProgram.reserved = 0 := by
  have h₁ := toNat_length (by decide) request.families_le
  have h₂ := toNat_length (by decide) request.fields_le
  have h₃ := toNat_length (by decide) request.constraints_le
  have h₄ := toNat_length (by decide) request.initialState_le
  have hcounts : request.carried.counts = ⟨UInt64.ofNat
      request.operatorProgram.eligibleRelationFamilies.length, UInt64.ofNat request.fields.length,
      UInt64.ofNat request.constraints.length, UInt64.ofNat request.initialState.length⟩ := by
    simp only [RuntimeRequest.carried, DecodedRequest.counts, List.length_map]
  have hne {count : ℕ} (hcount : (UInt64.ofNat count).toNat = count) (hpos : count ≠ 0) :
      UInt64.ofNat count ≠ 0 := fun h => by
    rw [h] at hcount
    exact hpos hcount.symm
  constructor
  · exact fun h => h.head.reserved
  · intro hreserved
    refine ⟨⟨version_valid request, ?_, rfl, rfl, hreserved⟩, ?_⟩
    · change request.carried.counts.valid = true
      rw [hcounts, RequestCounts.valid, decide_eq_true_eq]
      dsimp only
      rw [countFits, countFits, countFits, countFits]
      simp only [decide_eq_true_eq]
      refine ⟨hne h₁.1 (mt List.length_eq_zero_iff.1 hfamilies),
        hne h₂.1 (mt List.length_eq_zero_iff.1 hfields),
        hne h₃.1 (mt List.length_eq_zero_iff.1 hconstraints), congrArg _ hstates, ?_⟩
      rw [h₁.1, h₂.1, h₃.1, h₄.1]
      exact ⟨h₁.2.trans (maxSize_le _), h₂.2.trans (maxSize_le _), h₃.2.trans (maxSize_le _),
        h₄.2.trans (maxSize_le _)⟩
    · rw [hcounts]
      exact {
        families := h₁.1.symm
        families_le := h₁.1.trans_le h₁.2
        fields := h₂.1.symm
        fields_le := h₂.1.trans_le h₂.2
        constraints := (List.length_map _).trans h₃.1.symm
        constraints_le := h₃.1.trans_le h₃.2
        initialStates := h₄.1.symm
        initialStates_le := h₄.1.trans_le h₄.2
        standings := fun constraint => carried_fits request }

/-! ## What the encoder gives -/

/-- A request that `RequestBytes` accepts. -/
structure Sizable (request : RuntimeRequest) : Prop where
  families : request.operatorProgram.eligibleRelationFamilies ≠ []
  fields : request.fields ≠ []
  constraints : request.constraints ≠ []
  initialState : request.initialState.length = request.fields.length

theorem requestBytes_sizable {total : ℕ} (h : requestBytes request = some total) : Sizable request := by
  obtain ⟨_, hguard, _⟩ := Option.bind_eq_some_iff.1 h
  have hconditions := (Option.guard_eq_some' _).1 hguard
  exact ⟨hconditions.1, hconditions.2.1, hconditions.2.2.1, hconditions.2.2.2⟩

variable {words : List UInt32} {input : List UInt8}

theorem run_encodeRequestWords_iff {wordCapacity : ℕ} {rest : List UInt8} :
    (encodeRequestWords request wordCapacity).reader.run input = some ((words, count), rest) ↔
      requestBytes request = some (count * 4) ∧ count ≤ wordCapacity ∧
        count * 4 ≤ maxSize 1 ∧ (requestWritten request.carried).length = count * 4 ∧
        words = bytesToWords (requestWritten request.carried) ∧ rest = input := by
  constructor
  · intro h
    unfold encodeRequestWords at h
    split at h
    · cases h
    · rename_i required hrequired
      rw [run_require_then, run_require_then, run_resize_then] at h
      obtain ⟨hwords, hcapacity, hmax, h⟩ := h
      split at h
      · cases h
      · rename_i written hwritten
        rw [run_require_then] at h
        obtain ⟨hlength, ⟨rfl, rfl⟩, rfl⟩ := h
        have hpieces := writeAll_some hwritten
        rw [List.nil_append, requestPieces_flatten] at hpieces
        have hcount : required / 4 * 4 = required := by omega
        rw [hcount, ← hpieces]
        exact ⟨hrequired, hcapacity, hmax, hlength, rfl, rfl⟩
  · rintro ⟨hrequired, hcapacity, hmax, hlength, rfl, rfl⟩
    have hflatten : ([] ++ (requestPieces request).flatten).length ≤ count * 4 := by
      rw [List.nil_append, requestPieces_flatten, hlength]
    unfold encodeRequestWords
    rw [hrequired]
    dsimp only
    rw [run_require_then, run_require_then, run_resize_then,
      Nat.mul_div_cancel _ (by decide), writeAll_eq hflatten, List.nil_append,
      requestPieces_flatten]
    dsimp only
    rw [run_require_then]
    exact ⟨Nat.mul_mod_left _ _, hcapacity, hmax, hlength, rfl⟩

/-! ## The round trip -/

theorem requestWritten_context (decoded : DecodedRequest) : ∃ front rest,
    front.length = requestContextOffset ∧ requestWritten decoded =
      front ++ (decoded.operatorProgram.contextFingerprint.bytes ++ rest) := by
  have hmagic : requestMagic.length = 8 := rfl
  let program := decoded.operatorProgram
  have hprogram : (operatorProgramPieces { program with eligibleRelationFamilies := [] }).flatten =
      program.programId.bytes ++ (program.boundaryId.bytes ++ (program.contextFingerprint.bytes ++
        ((operatorProgramPieces program).drop 3).flatten)) := rfl
  refine ⟨requestMagic ++ u32Bytes decoded.packetVersion ++ u32Bytes packetFlags ++
    u64Bytes decoded.counts.families ++ u64Bytes decoded.counts.fields ++
    u64Bytes decoded.counts.constraints ++ u64Bytes decoded.counts.initialStates ++
    program.programId.bytes ++ program.boundaryId.bytes,
    ((operatorProgramPieces program).drop 3).flatten ++
      ((solverProgramPieces decoded.solverProgram).flatten ++ tablesWritten decoded.tables), ?_, ?_⟩
  · simp only [List.length_append, hmagic, u32Bytes_length, u64Bytes_length, digestBytes_length,
      requestContextOffset]
  · rw [requestWritten, headWritten, DecodedRequest.head]
    dsimp only
    rw [hprogram]
    simp only [List.append_assoc]
    rfl

/-- The memory answers a run with the value, unless it refuses a request. -/
def Gives {α : Type} (routine : Routine PacketStatus α) (input : List UInt8) (value : α) : Prop :=
  routine.ends unlimited input = .returned value ∧ ∀ memory,
    routine.ends memory input = .returned value ∨
      ∃ error, routine.ends memory input = .refused error

theorem gives_iff {α : Type} {routine : Routine PacketStatus α} {value : α} :
    Gives routine input value ↔ ∃ rest, routine.reader.run input = some (value, rest) := by
  rw [← returned_iff]
  exact and_iff_left_of_imp fun h memory => (returned_any h memory).imp_right And.right

/-- The words of a request round trip: they are decoded to what a packet carries, they are as many
as were reported, and their context is that of the operator program. -/
structure RoundTrips (request : RuntimeRequest) (words : List UInt32) (count : ℕ) : Prop where
  decoded : Gives decodeRequest (wordsToBytes words) request.carried
  count : words.length = count ∧ Gives (requestRequiredWords request) [] count
  context : Gives (requestContextFingerprintWords words) (wordsToBytes words)
    request.operatorProgram.contextFingerprint

theorem resultSize_carried (request : RuntimeRequest) : ∃ size,
    resultSize request.carried.fields.length request.carried.packetVersion = some size := by
  have hobject : request.fields.length * 160 ≤ objectLimit := request.fields_le
  have hlimit : objectLimit = 2 ^ 63 - 1 := rfl
  have hbound : (sizeMax - resultFixedBytes request.carried.packetVersion) / 8 =
      2305843009213693879 := by
    rw [resultFixedBytes_eq]
    rfl
  refine ⟨_, (if_pos (version_valid request)).trans (if_neg ?_)⟩
  rw [hbound]
  change ¬ request.fields.length > _
  omega

theorem run_requestContextFingerprintWords {decoded : DecodedRequest} {size : ℕ}
    (hrun : decodeRequest.reader.run (wordsToBytes words) = some (decoded, []))
    (hmax : words.length * 4 ≤ maxSize 1)
    (hsize : resultSize decoded.fields.length decoded.packetVersion = some size) :
    (requestContextFingerprintWords words).reader.run (wordsToBytes words) =
      some (decoded.operatorProgram.contextFingerprint, []) := by
  obtain ⟨-, hwritten, -⟩ := run_decodeRequest_iff.1 hrun
  obtain ⟨front, rest, hfront, hcontext⟩ := requestWritten_context decoded
  have hlimit : maxSize 1 ≤ sizeMax := by decide
  have hlength := congrArg List.length (hwritten.trans hcontext)
  rw [List.length_append, List.length_append, digestBytes_length, hfront, wordsToBytes_length]
    at hlength
  have hpositive : 0 < requestContextOffset := by decide
  have hcanonical : (canonicalRequest words.length).reader.run (wordsToBytes words) =
      some (size, []) := by
    unfold canonicalRequest requiredResultBytes
    rw [run_require_then, run_require_then, run_resize_then,
      run_bind_eq_some]
    refine ⟨by omega, ?_, hmax, decoded, [], hrun, ?_⟩
    · rw [Nat.le_div_iff_mul_le (by decide)]
      omega
    · rw [hsize]
      rfl
  unfold requestContextFingerprintWords
  rw [run_bind_eq_some]
  refine ⟨size, [], hcanonical, ?_⟩
  rw [run_require_then]
  refine ⟨?_, ?_⟩
  · rw [wordsToBytes_length]
    omega
  · rw [hwritten, hcontext, ← hfront, List.drop_left, loadDigest_append]
    rfl

theorem roundTrips_iff {wordCapacity : ℕ} {rest : List UInt8}
    (h : (encodeRequestWords request wordCapacity).reader.run input = some ((words, count), rest)) :
    RoundTrips request words count ↔
      request.operatorProgram.reserved = 0 ∧ request.solverProgram.reserved = 0 := by
  obtain ⟨hbytes, -, hmax, hlength, rfl, -⟩ := run_encodeRequestWords_iff.1 h
  have hsizable := requestBytes_sizable hbytes
  rw [← requestFits_iff hsizable.families hsizable.fields hsizable.constraints hsizable.initialState]
  have hround := wordsToBytes_bytesToWords hlength
  have hcount : (bytesToWords (requestWritten request.carried)).length = count := by
    rw [bytesToWords_length, hlength, Nat.mul_div_cancel _ (by decide)]
  constructor
  · intro hround'
    obtain ⟨rest, hrun⟩ := gives_iff.1 hround'.decoded
    exact (run_decodeRequest_iff.1 hrun).1
  · intro hfits
    have hdecode : decodeRequest.reader.run (requestWritten request.carried) =
        some (request.carried, []) := run_decodeRequest_iff.2 ⟨hfits, rfl, rfl⟩
    refine ⟨?_, ⟨hcount, ?_⟩, ?_⟩
    · rw [hround, gives_iff]
      exact ⟨[], hdecode⟩
    · rw [gives_iff]
      refine ⟨[], ?_⟩
      unfold requestRequiredWords
      rw [hbytes]
      dsimp only
      rw [run_require_then, Nat.mul_div_cancel _ (by decide)]
      exact ⟨Nat.mul_mod_left _ _, rfl⟩
    · rw [gives_iff]
      obtain ⟨size, hsize⟩ := resultSize_carried request
      rw [← hround] at hdecode
      exact ⟨[], run_requestContextFingerprintWords hdecode (hcount.symm ▸ hmax) hsize⟩

/-- **The codec.** The words of an encoded request round trip exactly where both reserved words are
zero, and the words of a result are decoded to the result. -/
theorem packet_codec (engine : Engine) : (∀ request wordCapacity memory input words count,
      (encodeRequestWords request wordCapacity).ends memory input = .returned (words, count) →
        (RoundTrips request words count ↔
          request.operatorProgram.reserved = 0 ∧ request.solverProgram.reserved = 0)) ∧
    ∀ words resultWordCapacity memory resultWords count,
      (executeWords engine words.length resultWordCapacity).ends memory (wordsToBytes words) =
        .returned (resultWords, count) →
      resultWords.length = count ∧ ∃ decoded, Gives decodeRequest (wordsToBytes words) decoded ∧
        (decoded.result engine).status = .ok ∧
        ∀ solutionCapacity, (decoded.result engine).solutionCount.toNat ≤ solutionCapacity →
          Gives (decodeResultWords count solutionCapacity) (wordsToBytes resultWords)
            (decoded.result engine) := by
  constructor
  · intro request wordCapacity memory input words count hends
    obtain ⟨rest, hrun⟩ := reader_of_run _ (Nat.zero_le _) hends
    exact roundTrips_iff hrun
  · intro words resultWordCapacity memory resultWords count hends
    obtain ⟨rest, hrun⟩ := reader_of_run _ (Nat.zero_le _) hends
    obtain ⟨hcount, decoded, hdecode, hok, hread⟩ := run_executeWords hrun
    exact ⟨hcount, decoded, gives_iff.2 ⟨[], hdecode⟩, hok, fun solutionCapacity hle =>
      gives_iff.2 ⟨[], hread solutionCapacity hle⟩⟩

/-! ### A request of one field -/

/-- A request of one family, field and constraint, with a reserved word of the operator program. -/
def oneFieldRequest (reserved : UInt32) : RuntimeRequest where
  operatorProgram := ⟨1, 2, 3, 4, 5, [6], 7, 0, 0, 1, reserved⟩
  fields := [⟨1, 2, 3, 4, 5, 0, 1, 0⟩]
  constraints := [⟨1, 2, 3, 4, 5, 6, 0, 0, 0, 0, 0, 0, 6, sourceStanding, 0, 0, 0, 0, {}⟩]
  boundaries := []
  initialState := [0]
  solverProgram := ⟨1, 2, 3, 10, 0, 0, 0, 1, 0, 1, 0⟩
  families_le := show 1 * 4 ≤ objectLimit by decide
  fields_le := by decide
  constraints_le := by decide
  initialState_le := by decide

def oneFieldWords (reserved : UInt32) : List UInt32 :=
  bytesToWords (requestWritten (oneFieldRequest reserved).carried)

theorem oneFieldRequest_ends (reserved : UInt32) :
    (encodeRequestWords (oneFieldRequest reserved) 255).ends unlimited [] =
      .returned (oneFieldWords reserved, 255) := by
  have hbytes : requestBytes (oneFieldRequest reserved) = some (255 * 4) := by
    simp [requestBytes, oneFieldRequest, addMul, addStanding, sizeMax, requestFixedBytes, fieldBytes,
      constraintBytes, standingStateBytes, guard]
  have hlength : (requestWritten (oneFieldRequest reserved).carried).length = 255 * 4 := by
    have hmagic : requestMagic.length = 8 := rfl
    rw [← requestPieces_flatten]
    simp [requestPieces, oneFieldRequest, operatorProgramPieces, solverProgramPieces, fieldPieces,
      constraintPieces, constraintBasePieces, standingStatePieces, hmagic]
  exact returned_iff.2
    ⟨[], run_encodeRequestWords_iff.2 ⟨hbytes, le_rfl, by decide, hlength, rfl, rfl⟩⟩

/-- An engine that creates no operator. -/
def noEngine : Engine where
  Operator := Unit
  create _ _ _ := (none, .zero)
  solve _ _ _ _ solution := (false, solution, .zero)
  solve_length _ _ _ _ _ := rfl

theorem packet_codec_oneField : RoundTrips (oneFieldRequest 0) (oneFieldWords 0) 255 :=
  ((packet_codec noEngine).1 (oneFieldRequest 0) 255 _ _ _ _ (oneFieldRequest_ends 0)).2 ⟨rfl, rfl⟩

theorem packet_codec_reserved : ¬ ∀ request wordCapacity memory input words count,
    (encodeRequestWords request wordCapacity).ends memory input = .returned (words, count) →
      RoundTrips request words count := by
  intro h
  have hround := h (oneFieldRequest 1) 255 _ _ _ _ (oneFieldRequest_ends 1)
  obtain ⟨rest, hrun⟩ := returned_iff.1 (oneFieldRequest_ends 1)
  exact absurd ((roundTrips_iff hrun).1 hround).1 (by decide)

end Laplace.Cognition.Packet
