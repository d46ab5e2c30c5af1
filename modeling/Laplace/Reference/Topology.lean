import Laplace.Highway.Coordinate
import Laplace.Lib.Outcome
import Laplace.Reference.Index

/-!
# Reference topology (reference_topology.c:82-390)

The candidates of a batch name what they refer to by scoped keys. A key is present or retired where
some candidate of the batch declares it so, and every candidate becomes a record with what is known of
its key. `qsort` compares the input index last, so that it has one answer. What the callers own is
written by a call that fails as well; here it has the status and the error only.
-/

namespace Laplace.ReferenceTopology

open Highway (Key Coordinate keyPayload coordinateCalculate)
open Neighbours (runs)
open Reference (CoordinateIndex DigestIndex findCollision findDuplicate findCollision_eq_none
  findDuplicate_mapIdx)

/-- `laplace_reference_topology_status` -/
inductive Status
  | ok | invalidArgument | recordInvalid | profileMismatch | declarationConflict
  | coordinateCollision | duplicateOccurrence | memoryFailure | overflow | highwayFailure
deriving DecidableEq, Repr

/-- `reference_field` -/
inductive Field
  | none | record | profile | declaration | coordinate | occurrence
deriving DecidableEq, Repr

/-- A status with the `laplace_reference_topology_error`; an index that was not written is
`UINT64_MAX`. -/
structure Failure where
  status : Status
  recordIndex : ℕ := 2 ^ 64 - 1
  field : Field := .none
deriving DecidableEq, Repr

/-- `laplace_reference_candidate` -/
structure Candidate where
  sourceProfileId : Digest256
  key : Key
  rowEntityId : Id128
  fieldEntityId : Id128
  valueEntityId : Id128
  sourceOrdinal : UInt64
  artifactOrdinal : UInt64
  rowOrdinal : UInt64
  columnOrdinal : UInt64
  ruleFlags : UInt32
  reserved : UInt32
deriving DecidableEq

/-- `laplace_reference_record` -/
structure Record where
  candidate : Candidate
  coordinate : Coordinate
  occurrenceId : Digest256
  referenceId : Digest256
  disposition : UInt32
  reserved : UInt32
deriving DecidableEq

/-- `laplace_reference_topology_receipt` -/
structure Receipt where
  receiptId : Digest256
  sourceProfileId : Digest256
  inputFingerprint : Digest256
  outputFingerprint : Digest256
  occurrenceCount : UInt64
  coordinateCount : UInt64
  presentCount : UInt64
  retiredCount : UInt64
  unresolvedCount : UInt64
  version : UInt32
  status : UInt32
deriving DecidableEq

def topologyVersion : UInt32 := 1
def ruleEndpoint : UInt32 := 1
def rulePresentDeclaration : UInt32 := 2
def ruleRetiredDeclaration : UInt32 := 4
def ruleKnownMask : UInt32 := ruleEndpoint ||| rulePresentDeclaration ||| ruleRetiredDeclaration
def dispositionPresent : UInt32 := 1
def dispositionRetired : UInt32 := 2
def dispositionUnresolved : UInt32 := 6

/-- The largest count of `reference_index` records of 96 bytes. -/
def maximumCount : ℕ := (2 ^ 64 - 1) / 96

/-- `reference_index` -/
structure ReferenceIndex where
  key : Key
  inputIndex : ℕ
  ruleFlags : UInt32

/-! ## Orders -/

/-- What `key_compare_value` compares, in its order. -/
def keyOrder (key : Key) : ℕ ×ₗ ℕ ×ₗ ℕ ×ₗ ℕ ×ₗ ℕ ×ₗ ℕ :=
  toLex (key.kind.toNat, toLex (key.authority.toNat, toLex (key.release.toNat,
    toLex (key.nameSpace.toNat, toLex (key.localIdentifier.toNat, key.version.toNat)))))

/-- `reference_index_compare` -/
def referenceOrder (entry : ReferenceIndex) : (ℕ ×ₗ ℕ ×ₗ ℕ ×ₗ ℕ ×ₗ ℕ ×ₗ ℕ) ×ₗ ℕ :=
  toLex (keyOrder entry.key, entry.inputIndex)

/-! ## Candidates -/

/-- `candidate_valid` -/
def candidateValid (candidate : Candidate) : Bool :=
  let declarations := candidate.ruleFlags &&& (rulePresentDeclaration ||| ruleRetiredDeclaration)
  candidate.sourceProfileId ≠ 0 ∧ candidate.rowEntityId ≠ 0 ∧ candidate.fieldEntityId ≠ 0 ∧
    candidate.valueEntityId ≠ 0 ∧ candidate.valueEntityId = candidate.key.localIdentifier ∧
    candidate.sourceOrdinal ≠ 0 ∧ candidate.rowOrdinal ≠ 0 ∧ candidate.columnOrdinal ≠ 0 ∧
    candidate.reserved = 0 ∧ candidate.ruleFlags &&& ruleEndpoint ≠ 0 ∧
    candidate.ruleFlags &&& ~~~ruleKnownMask = 0 ∧
    declarations ≠ rulePresentDeclaration ||| ruleRetiredDeclaration

section Functions

variable (blake3 : Blake3)

/-- What `identify_occurrence` and the input fingerprint hash of an occurrence. -/
def entityBytes (candidate : Candidate) : List UInt8 :=
  candidate.rowEntityId.bytes ++ candidate.fieldEntityId.bytes ++ candidate.valueEntityId.bytes ++
    u64Bytes candidate.sourceOrdinal ++ u64Bytes candidate.artifactOrdinal ++
    u64Bytes candidate.rowOrdinal ++ u64Bytes candidate.columnOrdinal

/-- `identify_occurrence` -/
def identifyOccurrence (candidate : Candidate) : Digest256 :=
  blake3 (domainBytes "laplace-reference-topology-occurrence-v1" ++ candidate.sourceProfileId.bytes ++
    entityBytes candidate)

/-- `identify_record` -/
def identifyRecord (record : Record) : Record :=
  { record with
    referenceId := blake3 (domainBytes "laplace-reference-topology-record-v1" ++
      record.occurrenceId.bytes ++ keyPayload record.candidate.key ++
      record.coordinate.coordinate.bytes ++ record.coordinate.collisionFingerprint.bytes ++
      u32Bytes record.disposition ++ u32Bytes record.candidate.ruleFlags) }

/-- What the input fingerprint hashes of a candidate. -/
def candidateBytes (candidate : Candidate) : List UInt8 :=
  candidate.sourceProfileId.bytes ++ keyPayload candidate.key ++ entityBytes candidate ++
    u32Bytes candidate.ruleFlags

/-- The first loop over the candidates, for those from `index` on. A disposition and a reference id
are not known yet. -/
def readCandidates (profile : Digest256) : ℕ → List Candidate → Except Failure (List Record)
  | _, [] => .ok []
  | index, candidate :: candidates =>
    if !candidateValid candidate then .error ⟨.recordInvalid, index, .record⟩
    else
      match coordinateCalculate blake3 candidate.key with
      | .error _ => .error ⟨.recordInvalid, index, .record⟩
      | .ok coordinate =>
        if index ≠ 0 ∧ profile ≠ candidate.sourceProfileId then
          .error ⟨.profileMismatch, index, .profile⟩
        else do
          let records ← readCandidates profile (index + 1) candidates
          return ⟨candidate, coordinate, identifyOccurrence blake3 candidate, 0, 0, 0⟩ :: records

end Functions

/-! ## Declarations -/

/-- The entries of a batch. -/
def entriesOf (candidates : List Candidate) : List ReferenceIndex :=
  candidates.mapIdx fun index candidate => ⟨candidate.key, index, candidate.ruleFlags⟩

/-- The runs of one key of a batch. -/
def runsOf (candidates : List Candidate) : List (List ReferenceIndex) :=
  runs (fun entry => keyOrder entry.key) ((Sorting.stable referenceOrder).sort (entriesOf candidates))

/-- Whether an entry of the run declares. -/
def declares (flag : UInt32) (run : List ReferenceIndex) : Bool :=
  run.any fun entry => entry.ruleFlags &&& flag ≠ 0

/-- The disposition of a key that is present, retired or neither. -/
def dispositionOf (present retired : Bool) : UInt32 :=
  if present then dispositionPresent else if retired then dispositionRetired else dispositionUnresolved

/-- The writes of a disposition to the records of a run. -/
def writeDisposition (disposition : UInt32) (run : List ReferenceIndex) (records : List Record) :
    List Record :=
  run.foldl (fun records entry =>
    records.modify entry.inputIndex fun record => { record with disposition }) records

/-- The loop over the runs of one key, with the records and the count of coordinates. -/
def resolveRuns : List (List ReferenceIndex) → List Record → UInt64 →
    Except Failure (List Record × UInt64)
  | [], records, coordinateCount => .ok (records, coordinateCount)
  | run :: rest, records, coordinateCount =>
    let present := declares rulePresentDeclaration run
    let retired := declares ruleRetiredDeclaration run
    if present ∧ retired then
      .error ⟨.declarationConflict, (run.head?.map ReferenceIndex.inputIndex).getD 0, .declaration⟩
    else
      resolveRuns rest (writeDisposition (dispositionOf present retired) run records)
        (coordinateCount + 1)

/-! ## The batch -/

section Functions

variable (blake3 : Blake3)

/-- The loop over the records that counts their dispositions. -/
def countDispositions (records : List Record) (receipt : Receipt) : Receipt :=
  records.foldl (fun receipt record =>
    if record.disposition = dispositionPresent then
      { receipt with presentCount := receipt.presentCount + 1 }
    else if record.disposition = dispositionRetired then
      { receipt with retiredCount := receipt.retiredCount + 1 }
    else { receipt with unresolvedCount := receipt.unresolvedCount + 1 }) receipt

/-- The receipt without its id. -/
def receiptOf (profile : Digest256) (candidates : List Candidate) (records : List Record)
    (coordinateCount : UInt64) : Receipt :=
  let count := UInt64.ofNat candidates.length
  countDispositions records {
    receiptId := 0
    sourceProfileId := profile
    inputFingerprint := blake3 (domainBytes "laplace-reference-topology-input-v1" ++ u64Bytes count ++
      candidates.flatMap candidateBytes)
    outputFingerprint := blake3 (domainBytes "laplace-reference-topology-output-v1" ++
      u64Bytes count ++ records.flatMap fun record => record.referenceId.bytes)
    occurrenceCount := count
    coordinateCount
    presentCount := 0
    retiredCount := 0
    unresolvedCount := 0
    version := topologyVersion
    status := 0 }

/-- The hash of a receipt. -/
def identifyReceipt (receipt : Receipt) : Receipt :=
  { receipt with
    receiptId := blake3 (domainBytes "laplace-reference-topology-receipt-v1" ++
      receipt.sourceProfileId.bytes ++ receipt.inputFingerprint.bytes ++
      receipt.outputFingerprint.bytes ++ u64Bytes receipt.occurrenceCount ++
      u64Bytes receipt.coordinateCount ++ u64Bytes receipt.presentCount ++
      u64Bytes receipt.retiredCount ++ u64Bytes receipt.unresolvedCount ++
      u32Bytes receipt.version ++ u32Bytes receipt.status) }

/-- `laplace_reference_topology_resolve_batch`, where `allocated` says whether there was memory. -/
def resolveBatch (allocated : Bool) (candidates : List Candidate) :
    Except Failure (List Record × Receipt) :=
  match candidates with
  | [] => .error { status := .invalidArgument }
  | first :: _ =>
    if maximumCount < candidates.length then .error { status := .invalidArgument }
    else if !allocated then .error { status := .memoryFailure }
    else do
      let records ← readCandidates blake3 first.sourceProfileId 0 candidates
      let coordinates : List CoordinateIndex := records.mapIdx fun index record =>
        ⟨record.coordinate.coordinate, record.coordinate.collisionFingerprint, index⟩
      let occurrences : List DigestIndex := records.mapIdx fun index record =>
        ⟨record.occurrenceId, index⟩
      let (records, coordinateCount) ← resolveRuns (runsOf candidates) records 0
      match findCollision coordinates with
      | some entry => .error ⟨.coordinateCollision, entry.inputIndex, .coordinate⟩
      | none =>
        match findDuplicate occurrences with
        | some entry => .error ⟨.duplicateOccurrence, entry.inputIndex, .occurrence⟩
        | none =>
          let records := records.map (identifyRecord blake3)
          return (records, identifyReceipt blake3
            (receiptOf blake3 first.sourceProfileId candidates records coordinateCount))

end Functions

/-! ## What a batch says of a key -/

/-- The disposition of a key. -/
inductive Disposition
  | present | retired | unresolved | conflict
deriving DecidableEq, Repr

/-- What a record says of a key without a conflict. -/
def Disposition.code : Disposition → UInt32
  | present => dispositionPresent
  | retired => dispositionRetired
  | unresolved => dispositionUnresolved
  | conflict => 0

/-- Whether some candidate of the batch declares for the key. -/
def declaredFor (candidates : List Candidate) (key : Key) (flag : UInt32) : Bool :=
  candidates.any fun candidate => candidate.key = key ∧ candidate.ruleFlags &&& flag ≠ 0

/-- The union of the declarations of a batch for a key. -/
def unionDisposition (candidates : List Candidate) (key : Key) : Disposition :=
  match declaredFor candidates key rulePresentDeclaration,
    declaredFor candidates key ruleRetiredDeclaration with
  | true, true => .conflict
  | true, false => .present
  | false, true => .retired
  | false, false => .unresolved

variable {candidates : List Candidate}

theorem declaredFor_perm {candidates' : List Candidate} (h : candidates.Perm candidates')
    (key : Key) (flag : UInt32) : declaredFor candidates key flag = declaredFor candidates' key flag := by
  rw [declaredFor, declaredFor, Bool.eq_iff_iff, List.any_eq_true, List.any_eq_true]
  simp only [h.mem_iff]

theorem unionDisposition_perm {candidates' : List Candidate} (h : candidates.Perm candidates') (key : Key) :
    unionDisposition candidates key = unionDisposition candidates' key := by
  rw [unionDisposition, unionDisposition, declaredFor_perm h, declaredFor_perm h]

theorem code_unionDisposition {key : Key} (h : unionDisposition candidates key ≠ .conflict) :
    (unionDisposition candidates key).code =
      dispositionOf (declaredFor candidates key rulePresentDeclaration)
        (declaredFor candidates key ruleRetiredDeclaration) := by
  unfold unionDisposition at h ⊢
  revert h
  cases declaredFor candidates key rulePresentDeclaration <;>
    cases declaredFor candidates key ruleRetiredDeclaration <;> intro h
  · rfl
  · rfl
  · rfl
  · exact absurd rfl h

theorem conflict_iff {key : Key} : unionDisposition candidates key = .conflict ↔
      declaredFor candidates key rulePresentDeclaration = true ∧
        declaredFor candidates key ruleRetiredDeclaration = true := by
  unfold unionDisposition
  cases declaredFor candidates key rulePresentDeclaration <;>
    cases declaredFor candidates key ruleRetiredDeclaration <;> simp

/-! ## Reading -/

section Reading

variable (blake3 : Blake3)

/-- The coordinate of a key that has one. -/
def coordinateOf (key : Key) : Coordinate :=
  match coordinateCalculate blake3 key with
  | .ok coordinate => coordinate
  | .error _ => ⟨0, 0, 0, 0, 0⟩

/-- A candidate of a profile that becomes a record. -/
structure Readable (profile : Digest256) (candidate : Candidate) : Prop where
  valid : candidateValid candidate = true
  coordinate : coordinateCalculate blake3 candidate.key = .ok (coordinateOf blake3 candidate.key)
  profile : candidate.sourceProfileId = profile

/-- The record of a candidate whose disposition is not known. -/
def recordRead (candidate : Candidate) : Record :=
  ⟨candidate, coordinateOf blake3 candidate.key, identifyOccurrence blake3 candidate, 0, 0, 0⟩

theorem readCandidates_ok {profile : Digest256} : ∀ {index : ℕ} {candidates : List Candidate}
    {records : List Record},
    (index = 0 → ∀ candidate ∈ candidates.head?, candidate.sourceProfileId = profile) →
      (readCandidates blake3 profile index candidates = .ok records ↔
        (∀ candidate ∈ candidates, Readable blake3 profile candidate) ∧
          records = candidates.map (recordRead blake3))
  | index, [], records, _ => by
    rw [readCandidates, Except.ok.injEq, List.map_nil, eq_comm]
    exact ⟨fun h => ⟨fun _ hmem => absurd hmem List.not_mem_nil, h⟩, fun h => h.2⟩
  | index, candidate :: candidates, records, hfirst => by
    have hprofile : ¬ (index ≠ 0 ∧ profile ≠ candidate.sourceProfileId) ↔
        candidate.sourceProfileId = profile :=
      ⟨fun h => by_contra fun hne => h ⟨fun hzero => hne (hfirst hzero candidate rfl), Ne.symm hne⟩,
        fun h hboth => hboth.2 h.symm⟩
    rw [readCandidates, refuse_eq_ok, List.forall_mem_cons, List.map_cons]
    cases hcoordinate : coordinateCalculate blake3 candidate.key with
    | error status =>
      refine iff_of_false (fun h => nomatch h.2) fun h => ?_
      have hok := h.1.1.coordinate
      rw [hcoordinate] at hok
      cases hok
    | ok coordinate =>
      have hof : coordinateOf blake3 candidate.key = coordinate := by
        rw [coordinateOf, hcoordinate]
      simp only [refuse_eq_ok, bind_eq_ok, pure_eq_ok, hprofile,
        readCandidates_ok fun hzero : index + 1 = 0 => absurd hzero (Nat.succ_ne_zero _)]
      rw [recordRead, hof]
      constructor
      · rintro ⟨hvalid, hsame, _, ⟨hall, rfl⟩, rfl⟩
        exact ⟨⟨⟨by simpa using hvalid, hcoordinate.trans (congrArg _ hof.symm), hsame⟩, hall⟩, rfl⟩
      · rintro ⟨⟨hreadable, hall⟩, rfl⟩
        exact ⟨by simp [hreadable.valid], hreadable.profile, _, ⟨hall, rfl⟩, rfl⟩

theorem readCandidates_batch {first : Candidate} {rest : List Candidate} {records : List Record} :
    readCandidates blake3 first.sourceProfileId 0 (first :: rest) = .ok records ↔
      (∀ candidate ∈ first :: rest, Readable blake3 first.sourceProfileId candidate) ∧
        records = (first :: rest).map (recordRead blake3) :=
  readCandidates_ok blake3 fun _ _ hhead =>
    congrArg Candidate.sourceProfileId (Option.some.inj hhead).symm

end Reading

/-! ## Writing the dispositions -/

/-- What the loop over runs writes. -/
def writeRuns (entries : List (List ReferenceIndex)) (records : List Record) : List Record :=
  entries.foldl (fun records run => writeDisposition (dispositionOf
    (declares rulePresentDeclaration run) (declares ruleRetiredDeclaration run)) run records) records

theorem resolveRuns_ok : ∀ {entries : List (List ReferenceIndex)} {records : List Record}
    {coordinateCount : UInt64} {result : List Record × UInt64},
    resolveRuns entries records coordinateCount = .ok result ↔
      (∀ run ∈ entries, ¬ (declares rulePresentDeclaration run = true ∧
        declares ruleRetiredDeclaration run = true)) ∧
      result = (writeRuns entries records, coordinateCount + UInt64.ofNat entries.length)
  | [], records, coordinateCount, result => by
    rw [resolveRuns, Except.ok.injEq, eq_comm]
    refine ⟨fun h => ⟨fun _ hmem => absurd hmem List.not_mem_nil, ?_⟩, fun h => ?_⟩
    · rw [h]
      exact Prod.ext rfl (UInt64.add_zero _).symm
    · rw [h.2]
      exact Prod.ext rfl (UInt64.add_zero _)
  | run :: entries, records, coordinateCount, result => by
    rw [resolveRuns, List.forall_mem_cons]
    split
    · rename_i hconflict
      exact iff_of_false nofun fun h => h.1.1 hconflict
    · rename_i hnone
      have hcount : coordinateCount + UInt64.ofNat (run :: entries).length =
          coordinateCount + 1 + UInt64.ofNat entries.length := by
        rw [List.length_cons, UInt64.ofNat_add, UInt64.add_assoc, UInt64.add_comm 1]
        rfl
      rw [resolveRuns_ok, and_iff_right hnone, hcount]
      rfl

theorem resolveRuns_error : ∀ {entries : List (List ReferenceIndex)} {records : List Record}
    {coordinateCount : UInt64} {failure : Failure},
    resolveRuns entries records coordinateCount = .error failure → failure.status = .declarationConflict ∧
        ¬ ∀ run ∈ entries, ¬ (declares rulePresentDeclaration run = true ∧
          declares ruleRetiredDeclaration run = true)
  | [], _, _, _, h => by cases h
  | run :: entries, records, coordinateCount, failure, h => by
    rw [resolveRuns] at h
    rw [List.forall_mem_cons]
    split at h
    · rename_i hconflict
      cases h
      exact ⟨rfl, fun hnone => hnone.1 hconflict⟩
    · obtain ⟨hstatus, hconflict⟩ := resolveRuns_error h
      exact ⟨hstatus, fun hnone => hconflict hnone.2⟩

section Writes

variable {disposition : UInt32} {run : List ReferenceIndex} {records : List Record} {index : ℕ}

/-- A record with a disposition. -/
def Record.withDisposition (disposition : UInt32) (record : Record) : Record :=
  { record with disposition }

theorem writeDisposition_getElem? (disposition : UInt32) (index : ℕ) :
    ∀ (run : List ReferenceIndex) (records : List Record),
      (writeDisposition disposition run records)[index]? = if index ∈ run.map ReferenceIndex.inputIndex then
          records[index]?.map (Record.withDisposition disposition)
        else records[index]?
  | [], _ => rfl
  | entry :: run, records => by
    rw [writeDisposition, List.foldl_cons]
    change (writeDisposition disposition run _)[index]? = _
    rw [writeDisposition_getElem? disposition index run, List.getElem?_modify]
    by_cases hentry : entry.inputIndex = index <;>
      by_cases hrun : index ∈ run.map ReferenceIndex.inputIndex <;>
      cases records[index]? <;> simp_all [Record.withDisposition, eq_comm]

theorem writeRuns_other : ∀ {entries : List (List ReferenceIndex)} {records : List Record},
    (∀ run ∈ entries, index ∉ run.map ReferenceIndex.inputIndex) →
      (writeRuns entries records)[index]? = records[index]?
  | [], _, _ => rfl
  | run :: entries, records, h => by
    rw [List.forall_mem_cons] at h
    rw [writeRuns, List.foldl_cons]
    change (writeRuns entries _)[index]? = _
    rw [writeRuns_other h.2, writeDisposition_getElem?, if_neg h.1]

theorem writeRuns_at : ∀ {entries : List (List ReferenceIndex)} {records : List Record},
    (∀ run ∈ entries, index ∈ run.map ReferenceIndex.inputIndex →
      dispositionOf (declares rulePresentDeclaration run) (declares ruleRetiredDeclaration run) =
        disposition) → (∃ run ∈ entries, index ∈ run.map ReferenceIndex.inputIndex) →
      (writeRuns entries records)[index]? = records[index]?.map (Record.withDisposition disposition)
  | [], _, _, hexists => by
    obtain ⟨run, hrun, -⟩ := hexists
    exact absurd hrun List.not_mem_nil
  | run :: entries, records, hall, hexists => by
    rw [List.forall_mem_cons] at hall
    rw [writeRuns, List.foldl_cons]
    change (writeRuns entries _)[index]? = _
    by_cases hlater : ∃ run ∈ entries, index ∈ run.map ReferenceIndex.inputIndex
    · rw [writeRuns_at hall.2 hlater, writeDisposition_getElem?]
      split
      · rw [Option.map_map]
        rfl
      · rfl
    · rw [writeRuns_other fun run hrun hindex => hlater ⟨run, hrun, hindex⟩, writeDisposition_getElem?]
      obtain ⟨found, hfound, hindex⟩ := hexists
      rcases List.mem_cons.1 hfound with rfl | hfound
      · rw [if_pos hindex, hall.1 hindex]
      · exact absurd ⟨found, hfound, hindex⟩ hlater

end Writes

/-! ## The runs of a batch -/

section Batch

variable {candidates : List Candidate}

theorem keyOrder_inj {left right : Key} (hleft : left.reserved = 0) (hright : right.reserved = 0) :
    keyOrder left = keyOrder right ↔ left = right := by
  refine ⟨fun h => ?_, fun h => h ▸ rfl⟩
  unfold keyOrder at h
  simp only [EmbeddingLike.apply_eq_iff_eq, Prod.mk.injEq, UInt32.toNat_inj, BitVec.toNat_inj,
    UInt64.toNat_inj] at h
  obtain ⟨hkind, hauthority, hrelease, hspace, hlocal, hversion⟩ := h
  cases left
  cases right
  rw [Key.mk.injEq]
  exact ⟨hkind, hleft.trans hright.symm, hauthority, hrelease, hspace, hlocal, hversion⟩

theorem mem_entriesOf {entry : ReferenceIndex} : entry ∈ entriesOf candidates ↔
    ∃ candidate, candidates[entry.inputIndex]? = some candidate ∧ entry.key = candidate.key ∧
      entry.ruleFlags = candidate.ruleFlags := by
  unfold entriesOf
  rw [List.mem_mapIdx]
  constructor
  · rintro ⟨index, hindex, rfl⟩
    exact ⟨candidates[index], List.getElem?_eq_getElem hindex, rfl, rfl⟩
  · rintro ⟨candidate, hat, hkey, hflags⟩
    obtain ⟨hindex, rfl⟩ := List.getElem?_eq_some_iff.1 hat
    refine ⟨entry.inputIndex, hindex, ?_⟩
    cases entry
    rw [ReferenceIndex.mk.injEq]
    exact ⟨hkey.symm, rfl, hflags.symm⟩

theorem sorted_entries : ((Sorting.stable referenceOrder).sort (entriesOf candidates)).Pairwise
    fun a b => keyOrder a.key ≤ keyOrder b.key :=
  ((Sorting.stable referenceOrder).sorted _).imp fun hle => by
    rcases Prod.Lex.toLex_le_toLex.1 hle with hlt | ⟨heq, -⟩
    · exact le_of_lt hlt
    · exact le_of_eq heq

theorem mem_sorted {entry : ReferenceIndex} :
    entry ∈ (Sorting.stable referenceOrder).sort (entriesOf candidates) ↔ entry ∈ entriesOf candidates :=
  ((Sorting.stable referenceOrder).perm _).mem_iff

variable (hreserved : ∀ candidate ∈ candidates, candidate.key.reserved = 0)
include hreserved

theorem runsOf_cases {run : List ReferenceIndex} (hrun : run ∈ runsOf candidates) :
    ∃ candidate ∈ candidates, (∀ flag, declares flag run = declaredFor candidates candidate.key flag) ∧
      ∀ index, index ∈ run.map ReferenceIndex.inputIndex ↔
        ∃ other, candidates[index]? = some other ∧ other.key = candidate.key := by
  obtain ⟨entry, hentry, rfl⟩ := (Neighbours.mem_runs_iff sorted_entries).1 hrun
  obtain ⟨candidate, hat, hkey, -⟩ := mem_entriesOf.1 (mem_sorted.1 hentry)
  have hcandidate := List.mem_of_getElem? hat
  have hmem {other : ReferenceIndex} : other ∈ ((Sorting.stable referenceOrder).sort
      (entriesOf candidates)).filter (fun b => keyOrder b.key = keyOrder entry.key) ↔
      ∃ found, candidates[other.inputIndex]? = some found ∧ other.key = found.key ∧
        other.ruleFlags = found.ruleFlags ∧ found.key = candidate.key := by
    rw [List.mem_filter, mem_sorted, mem_entriesOf, decide_eq_true_eq]
    constructor
    · rintro ⟨⟨found, hfound, hsame, hflags⟩, horder⟩
      rw [hsame, hkey, keyOrder_inj (hreserved found (List.mem_of_getElem? hfound))
        (hreserved candidate hcandidate)] at horder
      exact ⟨found, hfound, hsame, hflags, horder⟩
    · rintro ⟨found, hfound, hsame, hflags, horder⟩
      exact ⟨⟨found, hfound, hsame, hflags⟩, by rw [hsame, hkey, horder]⟩
  refine ⟨candidate, hcandidate, fun flag => ?_, fun index => ?_⟩
  · rw [declares, declaredFor, Bool.eq_iff_iff, List.any_eq_true, List.any_eq_true]
    constructor
    · rintro ⟨other, hother, hflag⟩
      obtain ⟨found, hfound, -, hflags, hsame⟩ := hmem.1 hother
      rw [hflags, decide_eq_true_eq] at hflag
      exact ⟨found, List.mem_of_getElem? hfound, decide_eq_true ⟨hsame, hflag⟩⟩
    · rintro ⟨found, hfound, hdeclares⟩
      obtain ⟨hsame, hflag⟩ := of_decide_eq_true hdeclares
      obtain ⟨index, hindex⟩ := List.mem_iff_getElem?.1 hfound
      exact ⟨⟨found.key, index, found.ruleFlags⟩, hmem.2 ⟨found, hindex, rfl, rfl, hsame⟩,
        decide_eq_true hflag⟩
  · rw [List.mem_map]
    constructor
    · rintro ⟨other, hother, rfl⟩
      obtain ⟨found, hfound, -, -, hsame⟩ := hmem.1 hother
      exact ⟨found, hfound, hsame⟩
    · rintro ⟨found, hfound, hsame⟩
      exact ⟨⟨found.key, index, found.ruleFlags⟩, hmem.2 ⟨found, hfound, rfl, rfl, hsame⟩, rfl⟩

omit hreserved in
theorem exists_runsOf {index : ℕ} {candidate : Candidate} (hat : candidates[index]? = some candidate) :
    ∃ run ∈ runsOf candidates, index ∈ run.map ReferenceIndex.inputIndex := by
  have hentry : (⟨candidate.key, index, candidate.ruleFlags⟩ : ReferenceIndex) ∈
      (Sorting.stable referenceOrder).sort (entriesOf candidates) :=
    mem_sorted.2 (mem_entriesOf.2 ⟨candidate, hat, rfl, rfl⟩)
  refine ⟨_, (Neighbours.mem_runs_iff sorted_entries).2 ⟨_, hentry, rfl⟩, ?_⟩
  exact List.mem_map.2 ⟨_, List.mem_filter.2 ⟨hentry, decide_eq_true rfl⟩, rfl⟩

theorem runsOf_conflict : (∀ run ∈ runsOf candidates, ¬ (declares rulePresentDeclaration run = true ∧
      declares ruleRetiredDeclaration run = true)) ↔
    ∀ candidate ∈ candidates, unionDisposition candidates candidate.key ≠ .conflict := by
  constructor
  · intro h candidate hcandidate hconflict
    obtain ⟨index, hat⟩ := List.mem_iff_getElem?.1 hcandidate
    obtain ⟨run, hrun, hindex⟩ := exists_runsOf hat
    obtain ⟨other, hother, hdeclares, hmem⟩ := runsOf_cases hreserved hrun
    obtain ⟨found, hfound, hkey⟩ := (hmem index).1 hindex
    rw [hat, Option.some_inj] at hfound
    rw [← hfound] at hkey
    refine h run hrun ?_
    rw [hdeclares, hdeclares, ← hkey]
    exact conflict_iff.1 hconflict
  · intro h run hrun hboth
    obtain ⟨candidate, hcandidate, hdeclares, -⟩ := runsOf_cases hreserved hrun
    rw [hdeclares, hdeclares] at hboth
    exact h candidate hcandidate (conflict_iff.2 hboth)

/-- **The runs give every record the disposition of its key.** -/
theorem writeRuns_runsOf
    (hconflict : ∀ candidate ∈ candidates, unionDisposition candidates candidate.key ≠ .conflict)
    (record : Candidate → Record) : writeRuns (runsOf candidates) (candidates.map record) =
      candidates.map fun candidate => (record candidate).withDisposition
        (unionDisposition candidates candidate.key).code := by
  refine List.ext_getElem? fun index => ?_
  rw [List.getElem?_map]
  cases hat : candidates[index]? with
  | none =>
    have hother : ∀ run ∈ runsOf candidates, index ∉ run.map ReferenceIndex.inputIndex := by
      intro run hrun hindex
      obtain ⟨other, -, -, hmem⟩ := runsOf_cases hreserved hrun
      obtain ⟨found, hfound, -⟩ := (hmem index).1 hindex
      rw [hat] at hfound
      cases hfound
    rw [writeRuns_other hother, List.getElem?_map, hat]
    rfl
  | some candidate =>
    have hdisposition := code_unionDisposition (hconflict candidate (List.mem_of_getElem? hat))
    have hruns : ∀ run ∈ runsOf candidates, index ∈ run.map ReferenceIndex.inputIndex →
        dispositionOf (declares rulePresentDeclaration run) (declares ruleRetiredDeclaration run) =
          (unionDisposition candidates candidate.key).code := by
      intro run hrun hindex
      obtain ⟨other, -, hdeclares, hmem⟩ := runsOf_cases hreserved hrun
      obtain ⟨found, hfound, hkey⟩ := (hmem index).1 hindex
      rw [hat, Option.some_inj] at hfound
      rw [hdeclares, hdeclares, ← hkey, ← hfound, hdisposition]
    rw [writeRuns_at hruns (exists_runsOf hat), List.getElem?_map, hat]
    rfl

end Batch

/-! ## Counts -/

theorem countDispositions_eq : ∀ (records : List Record) (receipt : Receipt),
    countDispositions records receipt = { receipt with
        presentCount := receipt.presentCount +
          UInt64.ofNat (records.countP fun record => record.disposition = dispositionPresent)
        retiredCount := receipt.retiredCount + UInt64.ofNat (records.countP fun record =>
          record.disposition ≠ dispositionPresent ∧ record.disposition = dispositionRetired)
        unresolvedCount := receipt.unresolvedCount + UInt64.ofNat (records.countP fun record =>
          record.disposition ≠ dispositionPresent ∧ record.disposition ≠ dispositionRetired) }
  | [], receipt => by
    simp [countDispositions]
  | record :: records, receipt => by
    have hstep (count : UInt64) (number : ℕ) : count + 1 + UInt64.ofNat number =
        count + UInt64.ofNat (number + 1) := by
      rw [UInt64.ofNat_add, UInt64.add_assoc, UInt64.add_comm 1]
      rfl
    rw [countDispositions, List.foldl_cons]
    change countDispositions records _ = _
    rw [countDispositions_eq]
    simp only [List.countP_cons]
    by_cases hpresent : record.disposition = dispositionPresent
    · simp [hpresent, hstep]
    · by_cases hretired : record.disposition = dispositionRetired
      · simp [hretired, hstep, show dispositionRetired ≠ dispositionPresent from by decide]
      · simp [hpresent, hretired, hstep]

/-! ## Acceptance -/

section Acceptance

variable (blake3 : Blake3)

/-- A batch that is accepted. -/
structure Acceptable (candidates : List Candidate) : Prop where
  nonempty : candidates ≠ []
  small : candidates.length ≤ maximumCount
  readable : ∀ candidate ∈ candidates, ∀ other ∈ candidates,
    Readable blake3 other.sourceProfileId candidate
  declarations : ∀ candidate ∈ candidates, unionDisposition candidates candidate.key ≠ .conflict
  fingerprints : ∀ candidate ∈ candidates, ∀ other ∈ candidates,
    (coordinateOf blake3 candidate.key).coordinate = (coordinateOf blake3 other.key).coordinate →
      (coordinateOf blake3 candidate.key).collisionFingerprint =
        (coordinateOf blake3 other.key).collisionFingerprint
  occurrences : (candidates.map (identifyOccurrence blake3)).Nodup

variable {candidates : List Candidate}

theorem Acceptable.perm {candidates' : List Candidate} (h : Acceptable blake3 candidates)
    (hperm : candidates.Perm candidates') : Acceptable blake3 candidates' where
  nonempty hnil := h.nonempty (hnil ▸ hperm).eq_nil
  small := hperm.length_eq ▸ h.small
  readable candidate hcandidate other hother :=
    h.readable candidate (hperm.mem_iff.2 hcandidate) other (hperm.mem_iff.2 hother)
  declarations candidate hcandidate := by
    rw [← unionDisposition_perm hperm]
    exact h.declarations candidate (hperm.mem_iff.2 hcandidate)
  fingerprints candidate hcandidate other hother :=
    h.fingerprints candidate (hperm.mem_iff.2 hcandidate) other (hperm.mem_iff.2 hother)
  occurrences := (hperm.map _).nodup_iff.1 h.occurrences

/-- The record of a candidate of a batch. -/
def recordOf (candidates : List Candidate) (candidate : Candidate) : Record :=
  identifyRecord blake3 ((recordRead blake3 candidate).withDisposition
    (unionDisposition candidates candidate.key).code)

theorem recordOf_perm {candidates' : List Candidate} (hperm : candidates.Perm candidates') :
    recordOf blake3 candidates = recordOf blake3 candidates' := by
  funext candidate
  rw [recordOf, recordOf, unionDisposition_perm hperm]

theorem reserved_of_coordinate {key : Key} {coordinate : Coordinate}
    (h : coordinateCalculate blake3 key = .ok coordinate) : key.reserved = 0 := by
  by_contra hne
  rw [coordinateCalculate, Highway.validateKey, if_pos hne] at h
  cases h

theorem findCollision_read : findCollision ((candidates.map (recordRead blake3)).mapIdx fun index record =>
        ⟨record.coordinate.coordinate, record.coordinate.collisionFingerprint, index⟩) = none ↔
      ∀ candidate ∈ candidates, ∀ other ∈ candidates,
        (coordinateOf blake3 candidate.key).coordinate = (coordinateOf blake3 other.key).coordinate →
          (coordinateOf blake3 candidate.key).collisionFingerprint =
            (coordinateOf blake3 other.key).collisionFingerprint := by
  rw [findCollision_eq_none]
  have hmem {entry : CoordinateIndex} : entry ∈ (candidates.map (recordRead blake3)).mapIdx
      (fun index record => (⟨record.coordinate.coordinate, record.coordinate.collisionFingerprint,
        index⟩ : CoordinateIndex)) ↔ ∃ candidate, candidates[entry.inputIndex]? = some candidate ∧
      entry.coordinate = (coordinateOf blake3 candidate.key).coordinate ∧
      entry.fingerprint = (coordinateOf blake3 candidate.key).collisionFingerprint := by
    rw [List.mem_mapIdx]
    constructor
    · rintro ⟨index, hindex, rfl⟩
      rw [List.length_map] at hindex
      rw [List.getElem_map]
      exact ⟨candidates[index], List.getElem?_eq_getElem hindex, rfl, rfl⟩
    · rintro ⟨candidate, hat, hcoordinate, hfingerprint⟩
      obtain ⟨hindex, rfl⟩ := List.getElem?_eq_some_iff.1 hat
      refine ⟨entry.inputIndex, by rwa [List.length_map], ?_⟩
      rw [List.getElem_map]
      cases entry
      rw [CoordinateIndex.mk.injEq]
      exact ⟨hcoordinate.symm, hfingerprint.symm, rfl⟩
  constructor
  · intro h candidate hcandidate other hother hsame
    obtain ⟨index, hat⟩ := List.mem_iff_getElem?.1 hcandidate
    obtain ⟨index', hat'⟩ := List.mem_iff_getElem?.1 hother
    exact h ⟨_, _, index⟩ (hmem.2 ⟨candidate, hat, rfl, rfl⟩) ⟨_, _, index'⟩
      (hmem.2 ⟨other, hat', rfl, rfl⟩) hsame
  · intro h a ha b hb hsame
    obtain ⟨candidate, hat, hcoordinate, hfingerprint⟩ := hmem.1 ha
    obtain ⟨other, hat', hcoordinate', hfingerprint'⟩ := hmem.1 hb
    rw [hfingerprint, hfingerprint']
    rw [hcoordinate, hcoordinate'] at hsame
    exact h candidate (List.mem_of_getElem? hat) other (List.mem_of_getElem? hat') hsame

/-- The profile of a batch. -/
def profileOf (candidates : List Candidate) : Digest256 :=
  (candidates.head?.map Candidate.sourceProfileId).getD 0

/-- **What is accepted**, and what the batch becomes. -/
theorem resolveBatch_ok {result : List Record × Receipt} :
    resolveBatch blake3 true candidates = .ok result ↔ Acceptable blake3 candidates ∧
      result = (candidates.map (recordOf blake3 candidates),
        identifyReceipt blake3 (receiptOf blake3 (profileOf candidates) candidates
          (candidates.map (recordOf blake3 candidates)) (UInt64.ofNat (runsOf candidates).length))) := by
  cases candidates with
  | nil => exact iff_of_false nofun fun h => h.1.nonempty rfl
  | cons first rest =>
    rw [resolveBatch]
    generalize hbatch : first :: rest = candidates
    have hfirst : first ∈ candidates := hbatch ▸ List.mem_cons_self
    have hprofile : profileOf candidates = first.sourceProfileId := by
      rw [← hbatch]
      rfl
    have hread (records : List Record) :
        readCandidates blake3 first.sourceProfileId 0 candidates = .ok records ↔
          (∀ candidate ∈ candidates, Readable blake3 first.sourceProfileId candidate) ∧
            records = candidates.map (recordRead blake3) := by
      rw [← hbatch]
      exact readCandidates_batch blake3
    simp only [refuse_eq_ok, Bool.not_true, Bool.false_eq_true, not_false_eq_true, true_and, bind_eq_ok,
      hread, resolveRuns_ok]
    constructor
    · rintro ⟨hsmall, _, ⟨hall, rfl⟩, _, ⟨hnone, rfl⟩, h⟩
      have hreserved (candidate : Candidate) (hmem : candidate ∈ candidates) :
          candidate.key.reserved = 0 := reserved_of_coordinate blake3 (hall candidate hmem).coordinate
      have hconflict := (runsOf_conflict hreserved).1 hnone
      dsimp only at h
      rw [writeRuns_runsOf hreserved hconflict, List.map_map] at h
      split at h
      · cases h
      rename_i hcollision
      split at h
      · cases h
      rename_i hduplicate
      have hunique := (findDuplicate_mapIdx (recordRead blake3) Record.occurrenceId).1 hduplicate
      rw [hprofile, ← UInt64.zero_add (UInt64.ofNat _)]
      refine ⟨⟨fun hnil => absurd (hnil ▸ hfirst) List.not_mem_nil, not_lt.1 hsmall, ?_, hconflict,
        (findCollision_read blake3).1 hcollision, hunique⟩, pure_eq_ok.1 h⟩
      intro candidate hmem other hother
      rw [(hall other hother).profile]
      exact hall candidate hmem
    · rintro ⟨h, rfl⟩
      have hall (candidate : Candidate) (hmem : candidate ∈ candidates) :=
        h.readable candidate hmem first hfirst
      have hreserved (candidate : Candidate) (hmem : candidate ∈ candidates) :
          candidate.key.reserved = 0 := reserved_of_coordinate blake3 (hall candidate hmem).coordinate
      have hnone := (runsOf_conflict hreserved).2 h.declarations
      refine ⟨not_lt.2 h.small, _, ⟨hall, rfl⟩, _, ⟨hnone, rfl⟩, ?_⟩
      dsimp only
      rw [writeRuns_runsOf hreserved h.declarations, List.map_map, hprofile,
        (findCollision_read blake3).2 h.fingerprints,
        (findDuplicate_mapIdx (recordRead blake3) Record.occurrenceId).2 h.occurrences, UInt64.zero_add]
      rfl

/-- A batch that can be read is not accepted for its declarations exactly where a key has a
conflict. -/
theorem resolveBatch_conflict (hnonempty : candidates ≠ []) (hsmall : candidates.length ≤ maximumCount)
    (hreadable : ∀ candidate ∈ candidates, ∀ other ∈ candidates,
      Readable blake3 other.sourceProfileId candidate) :
    (∃ failure, resolveBatch blake3 true candidates = .error failure ∧
      failure.status = .declarationConflict) ↔
    ∃ candidate ∈ candidates, unionDisposition candidates candidate.key = .conflict := by
  cases candidates with
  | nil => exact absurd rfl hnonempty
  | cons first rest =>
    have hrecords := (readCandidates_batch blake3).2
      ⟨fun candidate hmem => hreadable candidate hmem first List.mem_cons_self, rfl⟩
    have hreserved (candidate : Candidate) (hmem : candidate ∈ first :: rest) :
        candidate.key.reserved = 0 := reserved_of_coordinate blake3
      (hreadable candidate hmem first List.mem_cons_self).coordinate
    rw [resolveBatch, if_neg (not_lt.2 hsmall), Bool.not_true, if_neg Bool.false_ne_true, hrecords]
    simp only [bind, Except.bind, pure, Except.pure]
    cases hruns : resolveRuns (runsOf (first :: rest)) ((first :: rest).map (recordRead blake3)) 0 with
    | error failure =>
      obtain ⟨hstatus, hconflict⟩ := resolveRuns_error hruns
      refine iff_of_true ⟨failure, rfl, hstatus⟩ ?_
      by_contra hnone
      refine hconflict ((runsOf_conflict hreserved).2 fun candidate hmem hboth => ?_)
      exact hnone ⟨candidate, hmem, hboth⟩
    | ok resolved =>
      have hnone := (runsOf_conflict hreserved).1 (resolveRuns_ok.1 hruns).1
      refine iff_of_false ?_ fun ⟨candidate, hmem, hboth⟩ => hnone candidate hmem hboth
      rintro ⟨failure, herror, hstatus⟩
      dsimp only at herror
      split at herror
      · cases herror
        cases hstatus
      split at herror <;> cases herror
      cases hstatus

/-! ## The result -/

theorem toNat_count {count : ℕ} (h : count ≤ maximumCount) : (UInt64.ofNat count).toNat = count :=
  Checked.toNat_ofNat (lt_of_le_of_lt h (by decide))

theorem countP_dispositions (disposition : Candidate → Disposition) : ∀ {candidates : List Candidate},
    (∀ candidate ∈ candidates, disposition candidate ≠ .conflict) →
      (candidates.countP fun candidate => disposition candidate = .present) +
        (candidates.countP fun candidate => disposition candidate = .retired) +
        (candidates.countP fun candidate => disposition candidate = .unresolved) = candidates.length
  | [], _ => rfl
  | candidate :: candidates, h => by
    rw [List.forall_mem_cons] at h
    have ih := countP_dispositions disposition h.2
    simp only [List.countP_cons, List.length_cons]
    cases hof : disposition candidate with
    | conflict => exact absurd hof h.1
    | _ => simp; omega

theorem disposition_recordOf (candidates : List Candidate) (candidate : Candidate) :
    (recordOf blake3 candidates candidate).disposition =
      (unionDisposition candidates candidate.key).code := rfl

/-- **The counts of an accepted batch** are those of its dispositions. -/
theorem counts_receiptOf (h : Acceptable blake3 candidates) (profile : Digest256)
    (coordinateCount : UInt64) :
    let receipt := receiptOf blake3 profile candidates (candidates.map (recordOf blake3 candidates))
      coordinateCount
    receipt.presentCount.toNat = (candidates.countP fun candidate =>
        unionDisposition candidates candidate.key = .present) ∧
      receipt.retiredCount.toNat = (candidates.countP fun candidate =>
        unionDisposition candidates candidate.key = .retired) ∧
      receipt.unresolvedCount.toNat = candidates.countP fun candidate =>
        unionDisposition candidates candidate.key = .unresolved := by
  have hcount (p : Record → Bool) (disposition : Disposition)
      (hp : ∀ candidate ∈ candidates, p (recordOf blake3 candidates candidate) = true ↔
        unionDisposition candidates candidate.key = disposition) :
      (0 + UInt64.ofNat ((candidates.map (recordOf blake3 candidates)).countP p)).toNat =
        candidates.countP fun candidate => unionDisposition candidates candidate.key = disposition := by
    have hle : candidates.countP (p ∘ recordOf blake3 candidates) ≤ maximumCount :=
      List.countP_le_length.trans h.small
    rw [UInt64.zero_add, List.countP_map, toNat_count hle]
    refine List.countP_congr fun candidate hmem => ?_
    rw [decide_eq_true_eq]
    exact hp candidate hmem
  dsimp only
  rw [receiptOf, countDispositions_eq]
  refine ⟨hcount _ _ fun candidate hmem => ?_, hcount _ _ fun candidate hmem => ?_,
    hcount _ _ fun candidate hmem => ?_⟩ <;>
  · have hconflict := h.declarations candidate hmem
    rw [decide_eq_true_eq, disposition_recordOf]
    cases hof : unionDisposition candidates candidate.key with
    | conflict => exact absurd hof hconflict
    | _ => decide

/-- **Dispositions are of keys, not of places.** What is accepted does not depend on the order, and the
record of a candidate has the union of what the batch declares for its key; a conflict is an error of
its own. -/
theorem resolveBatch_union (allocated : Bool) {candidates candidates' : List Candidate}
    (hperm : candidates.Perm candidates') :
    ((∃ result, resolveBatch blake3 allocated candidates = .ok result) ↔
      ∃ result, resolveBatch blake3 allocated candidates' = .ok result) ∧
    (∀ records receipt, resolveBatch blake3 allocated candidates = .ok (records, receipt) →
      (∃ record : Candidate → Record, records = candidates.map record ∧
        (∀ records' receipt', resolveBatch blake3 allocated candidates' = .ok (records', receipt') →
          records' = candidates'.map record) ∧
        ∀ candidate ∈ candidates, (record candidate).candidate = candidate ∧
          unionDisposition candidates candidate.key ≠ .conflict ∧
          (record candidate).disposition = (unionDisposition candidates candidate.key).code) ∧
      (∀ a ∈ records, ∀ b ∈ records, a.candidate.key = b.candidate.key → a.disposition = b.disposition) ∧
      receipt.presentCount.toNat = (candidates.countP fun candidate =>
        unionDisposition candidates candidate.key = .present) ∧
      receipt.retiredCount.toNat = (candidates.countP fun candidate =>
        unionDisposition candidates candidate.key = .retired) ∧
      receipt.unresolvedCount.toNat = (candidates.countP fun candidate =>
        unionDisposition candidates candidate.key = .unresolved) ∧
      receipt.presentCount.toNat + receipt.retiredCount.toNat + receipt.unresolvedCount.toNat =
        candidates.length) ∧
    (allocated = true → candidates ≠ [] → candidates.length ≤ maximumCount →
      (∀ candidate ∈ candidates, ∀ other ∈ candidates, Readable blake3 other.sourceProfileId candidate) →
      ((∃ failure, resolveBatch blake3 allocated candidates = .error failure ∧
        failure.status = .declarationConflict) ↔
      ∃ candidate ∈ candidates, unionDisposition candidates candidate.key = .conflict)) := by
  cases allocated with
  | false =>
    have hfails (batch : List Candidate) (result : List Record × Receipt) :
        resolveBatch blake3 false batch ≠ .ok result := by
      intro h
      unfold resolveBatch at h
      split at h
      · cases h
      · split at h <;> cases h
    refine ⟨?_, fun records receipt h => absurd h (hfails _ _), nofun⟩
    exact iff_of_false (fun ⟨result, h⟩ => hfails _ result h) fun ⟨result, h⟩ => hfails _ result h
  | true =>
    refine ⟨?_, fun records receipt h => ?_, fun _ => resolveBatch_conflict blake3⟩
    · constructor
      · rintro ⟨result, h⟩
        exact ⟨_, (resolveBatch_ok blake3).2 ⟨((resolveBatch_ok blake3).1 h).1.perm blake3 hperm, rfl⟩⟩
      · rintro ⟨result, h⟩
        exact ⟨_, (resolveBatch_ok blake3).2 ⟨((resolveBatch_ok blake3).1 h).1.perm blake3 hperm.symm, rfl⟩⟩
    · obtain ⟨hacceptable, hresult⟩ := (resolveBatch_ok blake3).1 h
      obtain ⟨rfl, rfl⟩ := Prod.mk.inj hresult
      obtain ⟨hpresent, hretired, hunresolved⟩ := counts_receiptOf blake3 hacceptable
        (profileOf candidates) (UInt64.ofNat (runsOf candidates).length)
      refine ⟨⟨recordOf blake3 candidates, rfl, fun records' receipt' h' => ?_, fun candidate hmem => ?_⟩,
        ?_, hpresent, hretired, hunresolved, ?_⟩
      · rw [recordOf_perm blake3 hperm]
        exact (Prod.mk.inj ((resolveBatch_ok blake3).1 h').2).1
      · exact ⟨rfl, hacceptable.declarations candidate hmem, rfl⟩
      · intro a ha b hb hkey
        obtain ⟨left, -, rfl⟩ := List.mem_map.1 ha
        obtain ⟨right, -, rfl⟩ := List.mem_map.1 hb
        rw [disposition_recordOf, disposition_recordOf]
        exact congrArg (fun key => (unionDisposition candidates key).code) hkey
      · rw [← countP_dispositions (fun candidate => unionDisposition candidates candidate.key)
          hacceptable.declarations, ← hpresent, ← hretired, ← hunresolved]
        rfl

end Acceptance

/-- The mention of a key in a row. -/
def mention (row : UInt64) (ruleFlags : UInt32) : Candidate :=
  ⟨1, ⟨1, 0, 1, 1, 1, 3, 1⟩, 1, 2, 3, 1, 0, row, 1, ruleFlags, 0⟩

/-- A hash that tells two mentions apart. -/
def sumHash (bytes : List UInt8) : Digest256 :=
  BitVec.ofNat 256 (2 ^ 255 + (bytes.map UInt8.toNat).sum)

/-- Two mentions of one key, of which the second declares. -/
def twoMentions : List Candidate :=
  [mention 1 ruleEndpoint, mention 2 (ruleEndpoint ||| rulePresentDeclaration)]

theorem twoMentions_acceptable : Acceptable sumHash twoMentions where
  nonempty := nofun
  small := by decide
  readable candidate hcandidate other hother := by
    have hkey : candidate.key = ⟨1, 0, 1, 1, 1, 3, 1⟩ := by
      revert candidate
      decide
    have hprofile (c : Candidate) (hc : c ∈ twoMentions) : c.sourceProfileId = 1 := by
      revert c
      decide
    refine ⟨?_, ?_, (hprofile candidate hcandidate).trans (hprofile other hother).symm⟩
    · revert candidate
      decide
    · rw [hkey]
      decide +kernel
  declarations := by decide
  fingerprints candidate hcandidate other hother _ := by
    have hkey (c : Candidate) (hc : c ∈ twoMentions) : c.key = ⟨1, 0, 1, 1, 1, 3, 1⟩ := by
      revert c
      decide
    rw [hkey candidate hcandidate, hkey other hother]
  occurrences := by decide +kernel

theorem resolveBatch_union_twoMentions :
    ∃ result, resolveBatch sumHash true twoMentions.reverse = .ok result :=
  (resolveBatch_union sumHash true twoMentions.reverse_perm.symm).1.1
    ⟨_, (resolveBatch_ok sumHash).2 ⟨twoMentions_acceptable, rfl⟩⟩

end Laplace.ReferenceTopology
