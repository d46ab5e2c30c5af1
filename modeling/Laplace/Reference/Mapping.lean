import Laplace.Fields
import Laplace.Highway.Coordinate
import Laplace.Lib.Lists
import Laplace.Lib.Outcome
import Laplace.Lib.Pairs
import Laplace.Reference.Index

/-!
# Reference mapping (reference_mapping.c:18-421)

A candidate of a batch says that two coordinates are related. What it says is its proposition, and
where it says so its occurrence. The endpoints of a symmetric relation are put in order before they
are hashed; a kind and a version are hashed but not compared.
-/

namespace Laplace.ReferenceMapping

open Highway (Coordinate)
open Reference (CoordinateIndex DigestIndex countDistinct countDistinct_eq findCollision findDuplicate
  findCollision_eq_none findDuplicate_mapIdx map_mapIdx)

/-- `laplace_reference_mapping_status` -/
inductive Status
  | ok | invalidArgument | recordInvalid | boundaryMismatch | duplicateOccurrence
  | coordinateCollision | memoryFailure | overflow
deriving DecidableEq, Repr

/-- `mapping_field` -/
inductive Field
  | none | record | boundary | occurrence | coordinate
deriving DecidableEq, Repr

/-- A status with the `laplace_reference_mapping_error`; an index that was not written is
`UINT64_MAX`. -/
structure Failure where
  status : Status
  recordIndex : ℕ := 2 ^ 64 - 1
  field : Field := .none
deriving DecidableEq, Repr

/-- `laplace_reference_mapping_candidate` -/
structure Candidate where
  boundaryId : Digest256
  sourceProfileId : Digest256
  leftReferenceId : Digest256
  rightReferenceId : Digest256
  leftCoordinate : Coordinate
  rightCoordinate : Coordinate
  relationId : Id128
  rowEntityId : Id128
  leftFieldEntityId : Id128
  leftValueEntityId : Id128
  rightFieldEntityId : Id128
  rightValueEntityId : Id128
  sourceOrdinal : UInt64
  artifactOrdinal : UInt64
  rowOrdinal : UInt64
  relationVersion : UInt64
  relationKind : UInt32
  flags : UInt32
  leftDisposition : UInt32
  rightDisposition : UInt32
deriving DecidableEq

/-- `laplace_reference_mapping_record` -/
structure Record where
  candidate : Candidate
  propositionId : Digest256
  occurrenceId : Digest256
  mappingId : Digest256
  disposition : UInt32
  reserved : UInt32
deriving DecidableEq

/-- `laplace_reference_mapping_receipt` -/
structure Receipt where
  receiptId : Digest256
  boundaryId : Digest256
  inputFingerprint : Digest256
  outputFingerprint : Digest256
  occurrenceCount : UInt64
  propositionCount : UInt64
  resolvedCount : UInt64
  unresolvedCount : UInt64
  retiredCount : UInt64
  version : UInt32
  status : UInt32
deriving DecidableEq

def mappingVersion : UInt32 := 1
def flagDirected : UInt32 := 1
def flagSymmetric : UInt32 := 2
def flagKnownMask : UInt32 := flagDirected ||| flagSymmetric
def endpointPresent : UInt32 := 1
def endpointRetired : UInt32 := 2
def endpointUnresolved : UInt32 := 6
def dispositionResolved : UInt32 := 1
def dispositionLeftUnresolved : UInt32 := 2
def dispositionRightUnresolved : UInt32 := 3
def dispositionBothUnresolved : UInt32 := 4
def dispositionRetiredEndpoint : UInt32 := 5

/-- The largest count that is not refused: `SIZE_MAX` over the 40 bytes of a `digest_index`, which is
less than its half. -/
def maximumCount : ℕ := min ((2 ^ 64 - 1) / 2) ((2 ^ 64 - 1) / 40)

/-! ## Candidates -/

/-- What `coordinate_value_compare` compares, in its order. -/
def coordinateValue (coordinate : Coordinate) : ℕ ×ₗ ℕ :=
  toLex (coordinate.coordinate.toNat, coordinate.collisionFingerprint.toNat)

/-- `hash_coordinate` -/
def hashCoordinate (coordinate : Coordinate) : List UInt8 :=
  coordinate.coordinate.bytes ++ coordinate.collisionFingerprint.bytes ++ u32Bytes coordinate.kind ++
    u64Bytes coordinate.version

/-- `hash_candidate` -/
def hashCandidate (value : Candidate) : List UInt8 :=
  value.boundaryId.bytes ++ value.sourceProfileId.bytes ++ value.leftReferenceId.bytes ++
    value.rightReferenceId.bytes ++ hashCoordinate value.leftCoordinate ++
    hashCoordinate value.rightCoordinate ++ value.relationId.bytes ++ value.rowEntityId.bytes ++
    value.leftFieldEntityId.bytes ++ value.leftValueEntityId.bytes ++ value.rightFieldEntityId.bytes ++
    value.rightValueEntityId.bytes ++ u64Bytes value.sourceOrdinal ++ u64Bytes value.artifactOrdinal ++
    u64Bytes value.rowOrdinal ++ u64Bytes value.relationVersion ++ u32Bytes value.relationKind ++
    u32Bytes value.flags ++ u32Bytes value.leftDisposition ++ u32Bytes value.rightDisposition

/-- `disposition_valid` -/
def dispositionValid (disposition : UInt32) : Bool :=
  disposition = endpointPresent ∨ disposition = endpointRetired ∨ disposition = endpointUnresolved

/-- `coordinate_valid` -/
def coordinateValid (coordinate : Coordinate) : Bool :=
  coordinate.coordinate ≠ 0 ∧ coordinate.collisionFingerprint ≠ 0 ∧ coordinate.kind ≠ 0 ∧
    coordinate.reserved = 0 ∧ coordinate.version ≠ 0

/-- `candidate_valid` -/
def candidateValid (value : Candidate) : Bool :=
  let direction := value.flags &&& flagKnownMask
  value.boundaryId ≠ 0 ∧ value.sourceProfileId ≠ 0 ∧ value.leftReferenceId ≠ 0 ∧
    value.rightReferenceId ≠ 0 ∧ coordinateValid value.leftCoordinate ∧
    coordinateValid value.rightCoordinate ∧ value.relationId ≠ 0 ∧ value.rowEntityId ≠ 0 ∧
    value.leftFieldEntityId ≠ 0 ∧ value.leftValueEntityId ≠ 0 ∧ value.rightFieldEntityId ≠ 0 ∧
    value.rightValueEntityId ≠ 0 ∧ value.sourceOrdinal ≠ 0 ∧ value.artifactOrdinal ≠ 0 ∧
    value.rowOrdinal ≠ 0 ∧ value.relationVersion ≠ 0 ∧ value.relationKind ≠ 0 ∧
    value.flags &&& ~~~flagKnownMask = 0 ∧ (direction = flagDirected ∨ direction = flagSymmetric) ∧
    dispositionValid value.leftDisposition ∧ dispositionValid value.rightDisposition

/-- `resolve_disposition` -/
def resolveDisposition (value : Candidate) : UInt32 :=
  if value.leftDisposition = endpointRetired ∨ value.rightDisposition = endpointRetired then
    dispositionRetiredEndpoint
  else
    let leftUnresolved := value.leftDisposition = endpointUnresolved
    let rightUnresolved := value.rightDisposition = endpointUnresolved
    if leftUnresolved ∧ rightUnresolved then dispositionBothUnresolved
    else if leftUnresolved then dispositionLeftUnresolved
    else if rightUnresolved then dispositionRightUnresolved
    else dispositionResolved

/-- The endpoints in the order in which `identify_proposition` hashes them. -/
def propositionEndpoints (value : Candidate) : Coordinate × Coordinate :=
  if value.flags &&& flagSymmetric ≠ 0 ∧
      coordinateValue value.rightCoordinate < coordinateValue value.leftCoordinate then
    (value.rightCoordinate, value.leftCoordinate)
  else (value.leftCoordinate, value.rightCoordinate)

/-- What `identify_proposition` hashes. -/
def propositionBytes (value : Candidate) : List UInt8 :=
  domainBytes "laplace-reference-mapping-proposition-v1" ++ (u32Bytes value.relationKind ++
    (u64Bytes value.relationVersion ++ (value.relationId.bytes ++ (u32Bytes value.flags ++
      (hashCoordinate (propositionEndpoints value).1 ++ hashCoordinate (propositionEndpoints value).2)))))

section Functions

variable (blake3 : Blake3)

/-- `identify_proposition` -/
def identifyProposition (value : Candidate) : Digest256 := blake3 (propositionBytes value)

/-- `identify_occurrence` -/
def identifyOccurrence (value : Candidate) : Digest256 :=
  blake3 (domainBytes "laplace-reference-mapping-occurrence-v1" ++ value.sourceProfileId.bytes ++
    value.rowEntityId.bytes ++ value.leftFieldEntityId.bytes ++ value.leftValueEntityId.bytes ++
    value.rightFieldEntityId.bytes ++ value.rightValueEntityId.bytes ++ u64Bytes value.sourceOrdinal ++
    u64Bytes value.artifactOrdinal ++ u64Bytes value.rowOrdinal)

/-- `identify_record` -/
def identifyRecord (record : Record) : Record :=
  { record with
    mappingId := blake3 (domainBytes "laplace-reference-mapping-record-v1" ++
      record.propositionId.bytes ++ record.occurrenceId.bytes ++
      record.candidate.leftReferenceId.bytes ++ record.candidate.rightReferenceId.bytes ++
      u32Bytes record.disposition) }

/-- The record of a candidate. -/
def recordOf (value : Candidate) : Record :=
  identifyRecord blake3 {
    candidate := value
    propositionId := identifyProposition blake3 value
    occurrenceId := identifyOccurrence blake3 value
    mappingId := 0
    disposition := resolveDisposition value
    reserved := 0 }

/-- The loop over the candidates, for those from `index` on. -/
def readCandidates (boundary : Digest256) : ℕ → List Candidate → Except Failure (List Record)
  | _, [] => .ok []
  | index, value :: candidates =>
    if !candidateValid value then .error ⟨.recordInvalid, index, .record⟩
    else if index ≠ 0 ∧ boundary ≠ value.boundaryId then
      .error ⟨.boundaryMismatch, index, .boundary⟩
    else do
      let records ← readCandidates boundary (index + 1) candidates
      return recordOf blake3 value :: records

/-! ## The batch -/

/-- The two coordinates of a candidate. -/
def coordinatesAt (index : ℕ) (value : Candidate) : List CoordinateIndex :=
  [⟨value.leftCoordinate.coordinate, value.leftCoordinate.collisionFingerprint, index⟩,
    ⟨value.rightCoordinate.coordinate, value.rightCoordinate.collisionFingerprint, index⟩]

/-- The loop over the records that counts their dispositions. -/
def countDispositions (records : List Record) (receipt : Receipt) : Receipt :=
  records.foldl (fun receipt record =>
    if record.disposition = dispositionResolved then
      { receipt with resolvedCount := receipt.resolvedCount + 1 }
    else if record.disposition = dispositionRetiredEndpoint then
      { receipt with retiredCount := receipt.retiredCount + 1 }
    else { receipt with unresolvedCount := receipt.unresolvedCount + 1 }) receipt

/-- The receipt without its id. -/
def receiptOf (boundary : Digest256) (candidates : List Candidate) (records : List Record)
    (propositionCount : UInt64) : Receipt :=
  let count := UInt64.ofNat candidates.length
  countDispositions records {
    receiptId := 0
    boundaryId := boundary
    inputFingerprint := blake3 (domainBytes "laplace-reference-mapping-input-v1" ++ u64Bytes count ++
      candidates.flatMap hashCandidate)
    outputFingerprint := blake3 (domainBytes "laplace-reference-mapping-output-v1" ++
      u64Bytes count ++ records.flatMap fun record => record.mappingId.bytes)
    occurrenceCount := count
    propositionCount
    resolvedCount := 0
    unresolvedCount := 0
    retiredCount := 0
    version := mappingVersion
    status := 0 }

/-- The hash of a receipt. -/
def identifyReceipt (receipt : Receipt) : Receipt :=
  { receipt with
    receiptId := blake3 (domainBytes "laplace-reference-mapping-receipt-v1" ++
      receipt.boundaryId.bytes ++ receipt.inputFingerprint.bytes ++ receipt.outputFingerprint.bytes ++
      u64Bytes receipt.occurrenceCount ++ u64Bytes receipt.propositionCount ++
      u64Bytes receipt.resolvedCount ++ u64Bytes receipt.unresolvedCount ++
      u64Bytes receipt.retiredCount ++ u32Bytes receipt.version ++ u32Bytes receipt.status) }

/-- `laplace_reference_mapping_resolve_batch`, where `allocated` says whether there was memory. -/
def resolveBatch (allocated : Bool) (candidates : List Candidate) :
    Except Failure (List Record × Receipt) :=
  match candidates with
  | [] => .error { status := .invalidArgument }
  | first :: _ =>
    if maximumCount < candidates.length then .error { status := .invalidArgument }
    else if !allocated then .error { status := .memoryFailure }
    else do
      let records ← readCandidates blake3 first.boundaryId 0 candidates
      let occurrences : List DigestIndex := records.mapIdx fun index record =>
        ⟨record.occurrenceId, index⟩
      let propositions : List DigestIndex := records.mapIdx fun index record =>
        ⟨record.propositionId, index⟩
      let coordinates := (candidates.mapIdx coordinatesAt).flatten
      match findDuplicate occurrences with
      | some entry => .error ⟨.duplicateOccurrence, entry.inputIndex, .occurrence⟩
      | none =>
        match findCollision coordinates with
        | some entry => .error ⟨.coordinateCollision, entry.inputIndex, .coordinate⟩
        | none =>
          return (records, identifyReceipt blake3 (receiptOf blake3 first.boundaryId candidates records
            (UInt64.ofNat (countDistinct propositions))))

end Functions

/-! ## What a candidate says -/

/-- The endpoints of a proposition. -/
inductive Endpoints
  | directed (left right : Coordinate)
  | symmetric (pair : Sym2 Coordinate)
deriving DecidableEq

/-- What a candidate says, wherever it says so. -/
structure Proposition where
  relationKind : UInt32
  relationVersion : UInt64
  relationId : Id128
  flags : UInt32
  endpoints : Endpoints
deriving DecidableEq

/-- The proposition of a candidate. -/
def propositionOf (value : Candidate) : Proposition where
  relationKind := value.relationKind
  relationVersion := value.relationVersion
  relationId := value.relationId
  flags := value.flags
  endpoints :=
    if value.flags = flagSymmetric then .symmetric s(value.leftCoordinate, value.rightCoordinate)
    else .directed value.leftCoordinate value.rightCoordinate

/-- A candidate with its coordinates exchanged. -/
def Candidate.exchanged (value : Candidate) : Candidate :=
  { value with leftCoordinate := value.rightCoordinate, rightCoordinate := value.leftCoordinate }

/-- A symmetric candidate has one endpoint where what is compared of its endpoints is the same. -/
def Untied (value : Candidate) : Prop :=
  value.flags = flagSymmetric → coordinateValue value.leftCoordinate = coordinateValue value.rightCoordinate →
    value.leftCoordinate = value.rightCoordinate

instance decidableUntied (value : Candidate) : Decidable (Untied value) := by
  unfold Untied
  infer_instance

theorem hashCoordinate_append_inj {left right : Coordinate} {rest rest' : List UInt8}
    (hleft : left.reserved = 0) (hright : right.reserved = 0) :
    hashCoordinate left ++ rest = hashCoordinate right ++ rest' ↔ left = right ∧ rest = rest' := by
  simp only [hashCoordinate, List.append_assoc]
  rw [id_bytes_eq, id_bytes_eq, Layout.store_append_inj, digest_append_inj, u32_append_inj, u64_append_inj]
  cases left
  cases right
  dsimp only at hleft hright ⊢
  rw [hleft, hright, Coordinate.mk.injEq]
  tauto

section Candidates

variable {value other : Candidate}

theorem flags_cases (h : candidateValid value = true) :
    value.flags = flagDirected ∨ value.flags = flagSymmetric := by
  obtain ⟨-, -, -, -, -, -, -, -, -, -, -, -, -, -, -, -, -, hmask, hdirection, -, -⟩ :=
    of_decide_eq_true h
  have hflags : value.flags &&& flagKnownMask = value.flags := by
    have hsplit : value.flags &&& flagKnownMask ||| value.flags &&& ~~~flagKnownMask = value.flags := by
      rw [← UInt32.toBitVec_inj]
      simp only [UInt32.toBitVec_or, UInt32.toBitVec_and, UInt32.toBitVec_not]
      ext index hindex
      simp
      cases value.flags.toBitVec[index] <;> simp
    rw [hmask, UInt32.or_zero] at hsplit
    exact hsplit
  rwa [hflags] at hdirection

theorem reserved_of_valid (h : candidateValid value = true) :
    value.leftCoordinate.reserved = 0 ∧ value.rightCoordinate.reserved = 0 := by
  obtain ⟨-, -, -, -, hleft, hright, -⟩ := of_decide_eq_true h
  exact ⟨(of_decide_eq_true hleft).2.2.2.1, (of_decide_eq_true hright).2.2.2.1⟩

theorem propositionEndpoints_eq (h : candidateValid value = true) : propositionEndpoints value =
    if value.flags = flagSymmetric then
      Pairs.inOrder coordinateValue value.leftCoordinate value.rightCoordinate
    else (value.leftCoordinate, value.rightCoordinate) := by
  unfold propositionEndpoints Pairs.inOrder
  rcases flags_cases h with hflags | hflags <;> rw [hflags]
  · rw [if_neg fun hboth => hboth.1 rfl, if_neg (by decide)]
  · rw [if_pos rfl]
    exact if_congr (and_iff_right (by decide)) rfl rfl

theorem reserved_of_endpoints (h : candidateValid value = true) :
    (propositionEndpoints value).1.reserved = 0 ∧ (propositionEndpoints value).2.reserved = 0 := by
  obtain ⟨hleft, hright⟩ := reserved_of_valid h
  unfold propositionEndpoints
  split
  · exact ⟨hright, hleft⟩
  · exact ⟨hleft, hright⟩

theorem propositionBytes_inj (h : candidateValid value = true) (h' : candidateValid other = true) :
    propositionBytes value = propositionBytes other ↔ value.relationKind = other.relationKind ∧
      value.relationVersion = other.relationVersion ∧ value.relationId = other.relationId ∧
      value.flags = other.flags ∧ propositionEndpoints value = propositionEndpoints other := by
  obtain ⟨hleft, hright⟩ := reserved_of_endpoints h
  obtain ⟨hleft', hright'⟩ := reserved_of_endpoints h'
  have hlast := @hashCoordinate_append_inj _ _ [] [] hright hright'
  rw [List.append_nil, List.append_nil, and_iff_left rfl] at hlast
  rw [propositionBytes, propositionBytes, List.append_cancel_left_eq, u32_append_inj, u64_append_inj,
    id_bytes_eq, id_bytes_eq, Layout.store_append_inj, u32_append_inj,
    hashCoordinate_append_inj hleft hleft', hlast, Prod.ext_iff]

/-- **Without ties** the order of the endpoints is a normal form. -/
theorem propositionBytes_eq_iff (h : candidateValid value = true) (h' : candidateValid other = true)
    (htie : Untied value) :
    propositionBytes value = propositionBytes other ↔ propositionOf value = propositionOf other := by
  rw [propositionBytes_inj h h', propositionOf, propositionOf, Proposition.mk.injEq,
    propositionEndpoints_eq h, propositionEndpoints_eq h']
  refine and_congr_right fun _ => and_congr_right fun _ => and_congr_right fun _ =>
    and_congr_right fun hflags => ?_
  rw [← hflags]
  split
  · rename_i hsymmetric
    rw [Pairs.inOrder_eq_iff coordinateValue (htie hsymmetric), Endpoints.symmetric.injEq]
  · rw [Endpoints.directed.injEq, Prod.mk.injEq]

theorem exchanged_valid (h : candidateValid value = true) : candidateValid value.exchanged = true := by
  have hvalid := of_decide_eq_true h
  refine decide_eq_true ?_
  obtain ⟨h1, h2, h3, h4, hleft, hright, hrest⟩ := hvalid
  exact ⟨h1, h2, h3, h4, hright, hleft, hrest⟩

theorem propositionBytes_exchanged (h : candidateValid value = true)
    (hsymmetric : value.flags = flagSymmetric) :
    propositionBytes value.exchanged = propositionBytes value ↔ Untied value := by
  rw [propositionBytes_inj (exchanged_valid h) h, propositionEndpoints_eq (exchanged_valid h),
    propositionEndpoints_eq h, if_pos hsymmetric, if_pos (show value.exchanged.flags = _ from hsymmetric),
    Untied, imp_iff_right hsymmetric, ← Pairs.inOrder_comm_iff coordinateValue]
  exact ⟨fun hall => hall.2.2.2.2, fun hall => ⟨rfl, rfl, rfl, rfl, hall⟩⟩

end Candidates

/-! ## What is accepted -/

section Acceptance

variable (blake3 : Blake3)

/-- A candidate of a boundary that becomes a record. -/
structure Readable (boundary : Digest256) (value : Candidate) : Prop where
  valid : candidateValid value = true
  boundary : value.boundaryId = boundary

theorem readCandidates_ok {boundary : Digest256} : ∀ {index : ℕ} {candidates : List Candidate}
    {records : List Record}, (index = 0 → ∀ value ∈ candidates.head?, value.boundaryId = boundary) →
      (readCandidates blake3 boundary index candidates = .ok records ↔
        (∀ value ∈ candidates, Readable boundary value) ∧ records = candidates.map (recordOf blake3))
  | index, [], records, _ => by
    rw [readCandidates, Except.ok.injEq, List.map_nil, eq_comm]
    exact ⟨fun h => ⟨fun _ hmem => absurd hmem List.not_mem_nil, h⟩, fun h => h.2⟩
  | index, value :: candidates, records, hfirst => by
    have hboundary : ¬ (index ≠ 0 ∧ boundary ≠ value.boundaryId) ↔ value.boundaryId = boundary :=
      ⟨fun h => by_contra fun hne => h ⟨fun hzero => hne (hfirst hzero value rfl), Ne.symm hne⟩,
        fun h hboth => hboth.2 h.symm⟩
    simp only [readCandidates, refuse_eq_ok, bind_eq_ok, pure_eq_ok, hboundary, List.forall_mem_cons,
      readCandidates_ok fun hzero : index + 1 = 0 => absurd hzero (Nat.succ_ne_zero _), List.map_cons]
    constructor
    · rintro ⟨hvalid, hsame, _, ⟨hall, rfl⟩, rfl⟩
      exact ⟨⟨⟨by simpa using hvalid, hsame⟩, hall⟩, rfl⟩
    · rintro ⟨⟨hreadable, hall⟩, rfl⟩
      exact ⟨by simp [hreadable.valid], hreadable.boundary, _, ⟨hall, rfl⟩, rfl⟩

/-- The endpoints of a batch. -/
def endpointsOf (candidates : List Candidate) : List Coordinate :=
  candidates.flatMap fun value => [value.leftCoordinate, value.rightCoordinate]

/-- A batch that is accepted. -/
structure Acceptable (candidates : List Candidate) : Prop where
  nonempty : candidates ≠ []
  small : candidates.length ≤ maximumCount
  readable : ∀ value ∈ candidates, ∀ other ∈ candidates, Readable other.boundaryId value
  occurrences : (candidates.map (identifyOccurrence blake3)).Nodup
  fingerprints : ∀ left ∈ endpointsOf candidates, ∀ right ∈ endpointsOf candidates,
    left.coordinate = right.coordinate → left.collisionFingerprint = right.collisionFingerprint

variable {candidates : List Candidate}

theorem Acceptable.perm {candidates' : List Candidate} (h : Acceptable blake3 candidates)
    (hperm : candidates.Perm candidates') : Acceptable blake3 candidates' where
  nonempty hnil := h.nonempty (hnil ▸ hperm).eq_nil
  small := hperm.length_eq ▸ h.small
  readable value hvalue other hother :=
    h.readable value (hperm.mem_iff.2 hvalue) other (hperm.mem_iff.2 hother)
  occurrences := (hperm.map _).nodup_iff.1 h.occurrences
  fingerprints left hleft right hright := by
    have hmem (coordinate : Coordinate) :
        coordinate ∈ endpointsOf candidates ↔ coordinate ∈ endpointsOf candidates' :=
      (hperm.flatMap_right _).mem_iff
    exact h.fingerprints left ((hmem left).2 hleft) right ((hmem right).2 hright)

theorem findCollision_coordinates : findCollision (candidates.mapIdx coordinatesAt).flatten = none ↔
      ∀ left ∈ endpointsOf candidates, ∀ right ∈ endpointsOf candidates,
        left.coordinate = right.coordinate → left.collisionFingerprint = right.collisionFingerprint := by
  have hmap : (candidates.mapIdx coordinatesAt).flatten.map
      (fun entry => (entry.coordinate, entry.fingerprint)) = (endpointsOf candidates).map
        fun coordinate => (coordinate.coordinate, coordinate.collisionFingerprint) := by
    rw [List.map_flatten, endpointsOf, List.map_flatMap, List.flatMap_def]
    refine congrArg List.flatten (map_mapIdx _ ?_ candidates)
    exact fun _ _ => rfl
  have hall (P : Id128 × Digest256 → Prop) :
      (∀ entry ∈ (candidates.mapIdx coordinatesAt).flatten, P (entry.coordinate, entry.fingerprint)) ↔
        ∀ coordinate ∈ endpointsOf candidates,
          P (coordinate.coordinate, coordinate.collisionFingerprint) := by
    rw [← List.forall_mem_map (P := P) (f := fun entry : CoordinateIndex =>
      (entry.coordinate, entry.fingerprint)), hmap, List.forall_mem_map]
  rw [findCollision_eq_none, hall fun left => ∀ b ∈ (candidates.mapIdx coordinatesAt).flatten,
    left.1 = b.coordinate → left.2 = b.fingerprint]
  exact forall₂_congr fun left _ => hall fun right =>
    left.coordinate = right.1 → left.collisionFingerprint = right.2

theorem countDistinct_records (candidates : List Candidate) :
    countDistinct ((candidates.map (recordOf blake3)).mapIdx fun index record =>
      ⟨record.propositionId, index⟩) =
        (candidates.map (identifyProposition blake3)).toFinset.card := by
  refine (countDistinct_eq _).trans (congrArg (fun l => (List.toFinset l).card) ?_)
  refine (map_mapIdx Record.propositionId ?_ _).trans List.map_map
  exact fun _ _ => rfl

/-- The boundary of a batch. -/
def boundaryOf (candidates : List Candidate) : Digest256 :=
  (candidates.head?.map Candidate.boundaryId).getD 0

/-- **What is accepted**, and what the batch becomes. -/
theorem resolveBatch_ok {result : List Record × Receipt} :
    resolveBatch blake3 true candidates = .ok result ↔ Acceptable blake3 candidates ∧
      result = (candidates.map (recordOf blake3), identifyReceipt blake3
        (receiptOf blake3 (boundaryOf candidates) candidates (candidates.map (recordOf blake3))
          (UInt64.ofNat (candidates.map (identifyProposition blake3)).toFinset.card))) := by
  cases candidates with
  | nil => exact iff_of_false nofun fun h => h.1.nonempty rfl
  | cons first rest =>
    have hread (records : List Record) :
        readCandidates blake3 first.boundaryId 0 (first :: rest) = .ok records ↔
          (∀ value ∈ first :: rest, Readable first.boundaryId value) ∧
            records = (first :: rest).map (recordOf blake3) :=
      readCandidates_ok blake3 fun _ _ hhead =>
        congrArg Candidate.boundaryId (Option.some.inj hhead).symm
    have hboundary : boundaryOf (first :: rest) = first.boundaryId := rfl
    have hfirst : first ∈ first :: rest := List.mem_cons_self
    rw [resolveBatch, hboundary]
    generalize first :: rest = candidates at *
    simp only [refuse_eq_ok, Bool.not_true, Bool.false_eq_true, not_false_eq_true, true_and, bind_eq_ok]
    constructor
    · rintro ⟨hsmall, records, hrecords, h⟩
      obtain ⟨hall, rfl⟩ := (hread records).1 hrecords
      rw [countDistinct_records] at h
      split at h
      · cases h
      rename_i hduplicate
      split at h
      · cases h
      rename_i hcollision
      have hunique := (findDuplicate_mapIdx (recordOf blake3) Record.occurrenceId).1 hduplicate
      refine ⟨⟨fun hnil => absurd (hnil ▸ hfirst) List.not_mem_nil, not_lt.1 hsmall, ?_, hunique,
        findCollision_coordinates.1 hcollision⟩, pure_eq_ok.1 h⟩
      intro value hmem other hother
      rw [(hall other hother).boundary]
      exact hall value hmem
    · rintro ⟨h, rfl⟩
      have hall := (hread _).2 ⟨fun value hmem => h.readable value hmem first hfirst, rfl⟩
      refine ⟨not_lt.2 h.small, _, hall, ?_⟩
      rw [countDistinct_records, (findDuplicate_mapIdx (recordOf blake3) Record.occurrenceId).2 h.occurrences,
        findCollision_coordinates.2 h.fingerprints]
      rfl

end Acceptance

/-! ## Symmetry -/

/-- What is asked of the records of two accepted batches and of the receipt of the first. -/
structure RespectsSymmetry (blake3 : Blake3) (records others : List Record)
    (receipt : Receipt) : Prop where
  /-- An id stands for a proposition. -/
  ids : ∀ a ∈ records ++ others, ∀ b ∈ records ++ others,
    a.propositionId = b.propositionId ↔ propositionOf a.candidate = propositionOf b.candidate
  /-- An exchange of the coordinates is not seen. -/
  exchanged : ∀ a ∈ records ++ others, a.candidate.flags = flagSymmetric →
    identifyProposition blake3 a.candidate.exchanged = a.propositionId
  count : receipt.propositionCount.toNat =
    (records.map fun record => propositionOf record.candidate).toFinset.card
  /-- A coordinate with two fingerprints is not accepted. -/
  fingerprints : ∀ batch, ∀ left ∈ endpointsOf batch, ∀ right ∈ endpointsOf batch,
    left.coordinate = right.coordinate → left.collisionFingerprint ≠ right.collisionFingerprint →
      ∀ result, resolveBatch blake3 true batch ≠ .ok result
  /-- Neither what is accepted nor a record depends on the order. -/
  order : ∀ batch records receipt, resolveBatch blake3 true batch = .ok (records, receipt) →
    ∃ record : Candidate → Record, records = batch.map record ∧ ∀ batch', batch.Perm batch' →
      ∃ receipt', resolveBatch blake3 true batch' = .ok (batch'.map record, receipt')

theorem RespectsSymmetry.exchange_unseen {blake3 : Blake3} {records others : List Record}
    {receipt : Receipt} {value : Candidate} (h : RespectsSymmetry blake3 records others receipt)
    (hmem : recordOf blake3 value ∈ records) (hsymmetric : value.flags = flagSymmetric) :
    identifyProposition blake3 value.exchanged = identifyProposition blake3 value :=
  h.exchanged (recordOf blake3 value) (List.mem_append_left _ hmem) hsymmetric

section Symmetry

variable {blake3 : Blake3}

theorem resolveBatch_perm {candidates : List Candidate} {records : List Record} {receipt : Receipt}
    (h : resolveBatch blake3 true candidates = .ok (records, receipt)) :
    ∃ record : Candidate → Record, records = candidates.map record ∧
      ∀ candidates', candidates.Perm candidates' →
        ∃ receipt', resolveBatch blake3 true candidates' = .ok (candidates'.map record, receipt') := by
  obtain ⟨hacceptable, hresult⟩ := (resolveBatch_ok blake3).1 h
  refine ⟨recordOf blake3, (Prod.mk.inj hresult).1, fun candidates' hperm => ?_⟩
  exact ⟨_, (resolveBatch_ok blake3).2 ⟨hacceptable.perm blake3 hperm, rfl⟩⟩

theorem propositionCount_receiptOf (boundary : Digest256) (candidates : List Candidate)
    (records : List Record) (propositionCount : UInt64) :
    (receiptOf blake3 boundary candidates records propositionCount).propositionCount =
      propositionCount := by
  have hfold : ∀ (records : List Record) (receipt : Receipt),
      (countDispositions records receipt).propositionCount = receipt.propositionCount := by
    intro records
    induction records with
    | nil => exact fun _ => rfl
    | cons record records ih =>
      intro receipt
      rw [countDispositions, List.foldl_cons]
      change (countDispositions records _).propositionCount = _
      rw [ih]
      split
      · rfl
      · split <;> rfl
  exact hfold records _

/-- **Symmetry is respected exactly where there is no tie.** -/
theorem resolveBatch_respectsSymmetry_iff {candidates others : List Candidate}
    {records records' : List Record} {receipt receipt' : Receipt}
    (h : resolveBatch blake3 true candidates = .ok (records, receipt))
    (h' : resolveBatch blake3 true others = .ok (records', receipt'))
    (hinjective : Set.InjOn blake3 {bytes | ∃ value ∈ candidates ++ others,
      bytes = propositionBytes value ∨ bytes = propositionBytes value.exchanged}) :
    RespectsSymmetry blake3 records records' receipt ↔ ∀ value ∈ candidates ++ others, Untied value := by
  obtain ⟨hacceptable, hresult⟩ := (resolveBatch_ok blake3).1 h
  obtain ⟨hacceptable', hresult'⟩ := (resolveBatch_ok blake3).1 h'
  obtain ⟨hrecords, hreceipt⟩ := Prod.mk.inj hresult
  have hrecords' := (Prod.mk.inj hresult').1
  have hall : records ++ records' = (candidates ++ others).map (recordOf blake3) := by
    rw [hrecords, hrecords', List.map_append]
  have hvalid (value : Candidate) (hmem : value ∈ candidates ++ others) :
      candidateValid value = true := by
    rcases List.mem_append.1 hmem with hmem | hmem
    · exact (hacceptable.readable value hmem value hmem).valid
    · exact (hacceptable'.readable value hmem value hmem).valid
  have hmem_hashed (value : Candidate) (hmem : value ∈ candidates ++ others) :
      propositionBytes value ∈ {bytes | ∃ value ∈ candidates ++ others,
        bytes = propositionBytes value ∨ bytes = propositionBytes value.exchanged} :=
    ⟨value, hmem, .inl rfl⟩
  -- an exchange is seen in the id exactly where it is seen in what is hashed
  have hexchanged (value : Candidate) (hmem : value ∈ candidates ++ others)
      (hsymmetric : value.flags = flagSymmetric) :
      identifyProposition blake3 value.exchanged = identifyProposition blake3 value ↔ Untied value := by
    rw [← propositionBytes_exchanged (hvalid value hmem) hsymmetric]
    exact hinjective.eq_iff ⟨value, hmem, .inr rfl⟩ (hmem_hashed value hmem)
  constructor
  · intro hrespects value hmem hsymmetric
    have hid := hrespects.exchanged (recordOf blake3 value)
      (hall ▸ List.mem_map_of_mem hmem) hsymmetric
    exact (hexchanged value hmem hsymmetric).1 hid hsymmetric
  · intro huntied
    have hids (a : Candidate) (ha : a ∈ candidates ++ others) (b : Candidate)
        (hb : b ∈ candidates ++ others) : identifyProposition blake3 a = identifyProposition blake3 b ↔
          propositionOf a = propositionOf b := by
      rw [← propositionBytes_eq_iff (hvalid a ha) (hvalid b hb) (huntied a ha)]
      exact hinjective.eq_iff (hmem_hashed a ha) (hmem_hashed b hb)
    refine ⟨?_, ?_, ?_, ?_, fun batch records receipt hbatch => resolveBatch_perm hbatch⟩
    · rw [hall]
      intro a ha b hb
      obtain ⟨left, hleft, rfl⟩ := List.mem_map.1 ha
      obtain ⟨right, hright, rfl⟩ := List.mem_map.1 hb
      exact hids left hleft right hright
    · rw [hall]
      intro a ha hsymmetric
      obtain ⟨value, hmem, rfl⟩ := List.mem_map.1 ha
      exact (hexchanged value hmem hsymmetric).2 (huntied value hmem)
    · have hcard : (candidates.map (identifyProposition blake3)).toFinset.card =
          (candidates.map propositionOf).toFinset.card :=
        card_map_congr fun a ha b hb =>
          hids a (List.mem_append_left _ ha) b (List.mem_append_left _ hb)
      have hle : (candidates.map (identifyProposition blake3)).toFinset.card ≤ maximumCount :=
        (List.toFinset_card_le _).trans ((List.length_map _).le.trans hacceptable.small)
      have hsize : maximumCount < 2 ^ 64 := by decide
      rw [hreceipt, hrecords, List.map_map]
      change (receiptOf blake3 _ _ _ _).propositionCount.toNat = _
      rw [propositionCount_receiptOf, Checked.toNat_ofNat (hle.trans_lt hsize), hcard]
      rfl
    · intro batch left hleft right hright hsame hdifferent result hok
      exact hdifferent
        (((resolveBatch_ok blake3).1 hok).1.fingerprints left hleft right hright hsame)

end Symmetry

/-- A symmetric candidate with two endpoints. -/
def symmetricBetween (left right : Coordinate) : Candidate :=
  ⟨1, 2, 3, 4, left, right, 5, 6, 7, 8, 9, 10, 1, 1, 1, 1, 1, flagSymmetric, endpointPresent,
    endpointPresent⟩

theorem acceptable_symmetricBetween (blake3 : Blake3) {left right : Coordinate}
    (hvalid : candidateValid (symmetricBetween left right) = true)
    (hfingerprint : left.coordinate = right.coordinate →
      left.collisionFingerprint = right.collisionFingerprint) :
    Acceptable blake3 [symmetricBetween left right] where
  nonempty := nofun
  small := by
    rw [List.length_singleton]
    decide
  readable value hvalue other hother := by
    rw [List.mem_singleton.1 hvalue, List.mem_singleton.1 hother]
    exact ⟨hvalid, rfl⟩
  occurrences := List.nodup_singleton _
  fingerprints a ha b hb hsame := by
    have hmem (coordinate : Coordinate)
        (h : coordinate ∈ endpointsOf [symmetricBetween left right]) :
        coordinate = left ∨ coordinate = right := by
      simpa [endpointsOf, symmetricBetween] using h
    rcases hmem a ha with rfl | rfl <;> rcases hmem b hb with rfl | rfl
    · rfl
    · exact hfingerprint hsame
    · exact (hfingerprint hsame.symm).symm
    · rfl

theorem resolveBatch_respectsSymmetry_iff_twoCoordinates : ∃ records receipt,
    resolveBatch (fun _ => 1) true [symmetricBetween ⟨1, 1, 1, 0, 1⟩ ⟨2, 1, 1, 0, 1⟩] =
      .ok (records, receipt) ∧ RespectsSymmetry (fun _ => 1) records records receipt := by
  have hvalid : candidateValid (symmetricBetween ⟨1, 1, 1, 0, 1⟩ ⟨2, 1, 1, 0, 1⟩) = true := by decide
  have hok := (resolveBatch_ok fun _ => 1).2
    ⟨acceptable_symmetricBetween _ hvalid (by decide), rfl⟩
  have huntied : Untied (symmetricBetween ⟨1, 1, 1, 0, 1⟩ ⟨2, 1, 1, 0, 1⟩) := by decide
  have hsame := (propositionBytes_exchanged hvalid rfl).2 huntied
  refine ⟨_, _, hok, (resolveBatch_respectsSymmetry_iff hok hok ?_).2 ?_⟩
  · -- both strings are one
    have hone (bytes : List UInt8) : bytes ∈ {bytes | ∃ value ∈
        [symmetricBetween ⟨1, 1, 1, 0, 1⟩ ⟨2, 1, 1, 0, 1⟩] ++
          [symmetricBetween ⟨1, 1, 1, 0, 1⟩ ⟨2, 1, 1, 0, 1⟩],
        bytes = propositionBytes value ∨ bytes = propositionBytes value.exchanged} →
        bytes = propositionBytes (symmetricBetween ⟨1, 1, 1, 0, 1⟩ ⟨2, 1, 1, 0, 1⟩) := by
      rintro ⟨value, hvalue, hbytes⟩
      have heq : value = symmetricBetween ⟨1, 1, 1, 0, 1⟩ ⟨2, 1, 1, 0, 1⟩ := by
        simpa using hvalue
      rw [heq, hsame, or_self] at hbytes
      exact hbytes
    intro left hleft right hright _
    rw [hone left hleft, hone right hright]
  · simpa using huntied

/-- **An exchange is seen**: the endpoints are compared by their coordinates and fingerprints, and
hashed with their kinds. -/
theorem resolveBatch_sees_exchange : ∃ records receipt,
    resolveBatch digits true [symmetricBetween ⟨1, 1, 1, 0, 1⟩ ⟨1, 1, 2, 0, 1⟩] =
        .ok (records, receipt) ∧
      Set.InjOn digits {bytes | ∃ value ∈ [symmetricBetween ⟨1, 1, 1, 0, 1⟩ ⟨1, 1, 2, 0, 1⟩],
        bytes = propositionBytes value ∨ bytes = propositionBytes value.exchanged} ∧
      ¬ RespectsSymmetry digits records records receipt := by
  have hdifferent : identifyProposition digits
      (symmetricBetween ⟨1, 1, 1, 0, 1⟩ ⟨1, 1, 2, 0, 1⟩).exchanged ≠
        identifyProposition digits (symmetricBetween ⟨1, 1, 1, 0, 1⟩ ⟨1, 1, 2, 0, 1⟩) := by
    decide +kernel
  refine ⟨_, _, (resolveBatch_ok digits).2
    ⟨acceptable_symmetricBetween _ (by decide) (by decide), rfl⟩, ?_, fun h => ?_⟩
  · rintro left ⟨value, hvalue, hleft⟩ right ⟨value', hvalue', hright⟩ hhash
    rw [List.mem_singleton.1 hvalue] at hleft
    rw [List.mem_singleton.1 hvalue'] at hright
    rcases hleft with rfl | rfl <;> rcases hright with rfl | rfl
    · rfl
    · exact absurd hhash.symm hdifferent
    · exact absurd hhash hdifferent
    · rfl
  · exact hdifferent (h.exchange_unseen (List.mem_map_of_mem List.mem_cons_self) rfl)

end Laplace.ReferenceMapping
