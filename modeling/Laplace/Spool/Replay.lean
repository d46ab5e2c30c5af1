import Mathlib.Data.List.GetD
import Mathlib.Data.UInt
import Laplace.Framework.Refinement
import Laplace.Spool.Store

/-!
# A sealed spool replays what was appended (spool.cpp:145-166, 230-376)

A spool that has not failed is a function of the batches it has accepted: its file is their bytes
one after the other, and the entry of a batch stands at the number of bytes before it. So what is
mapped at the entries are the batches.
-/

namespace Laplace.Spool

open Framework (CanonicalBatch Context countBatches canonicalStreamFingerprint countBatches_append
  countBatches_singleton countBatches_cons_ok toNat_add_of_room)

/-- The entries of batches whose bytes stand from `offset` on. -/
def entriesFrom : UInt64 → List CanonicalBatch → List BatchMetadata
  | _, [] => []
  | offset, batch :: batches =>
    ⟨offset, batch.byteCount, batch.recordCount, batch.firstOrdinal⟩ ::
      entriesFrom (offset + batch.byteCount) batches

/-- The bytes of batches one after the other. -/
def fileOf (batches : List CanonicalBatch) : List UInt8 := batches.flatMap CanonicalBatch.bytes

theorem entriesFrom_length : ∀ (offset : UInt64) (batches : List CanonicalBatch),
    (entriesFrom offset batches).length = batches.length
  | _, [] => rfl
  | offset, batch :: batches => congrArg (· + 1) (entriesFrom_length (offset + batch.byteCount) batches)

/-! ## Batches that are counted -/

section Counting

variable {recordType : UInt32} {batch : CanonicalBatch} {batches : List CanonicalBatch}
  {records bytes records' bytes' : UInt64}

theorem bytes_length (h : batch.canonicalBytes.isSome) : batch.bytes.length = batch.byteCount.toNat := by
  obtain ⟨bytes, hbytes⟩ := Option.isSome_iff_exists.1 h
  rw [CanonicalBatch.bytes, hbytes]
  exact batch.sized bytes hbytes

theorem countBatches_sums : ∀ {batches : List CanonicalBatch} {records bytes : UInt64},
    countBatches recordType batches records bytes = .ok (records', bytes') →
    bytes'.toNat = bytes.toNat + (fileOf batches).length ∧
      records.toNat + batches.length ≤ records'.toNat ∧
      records' = records + (batches.map CanonicalBatch.recordCount).sum ∧
      bytes' = bytes + (batches.map CanonicalBatch.byteCount).sum
  | [], records, bytes, h => by
    cases h
    exact ⟨rfl, le_rfl, (UInt64.add_zero _).symm, (UInt64.add_zero _).symm⟩
  | batch :: batches, records, bytes, h => by
    obtain ⟨hfirst, hrest⟩ := countBatches_cons_ok h
    obtain ⟨⟨hsome, -, hrecords, -, -, -, hroom, hroom'⟩, -⟩ := countBatches_singleton.1 hfirst
    obtain ⟨hlength, hcount, hsum, hsum'⟩ := countBatches_sums hrest
    have hpos : batch.recordCount.toNat ≠ 0 := fun hzero => hrecords (UInt64.toNat_inj.1 hzero)
    rw [toNat_add_of_room hroom'] at hlength
    rw [toNat_add_of_room hroom] at hcount
    refine ⟨?_, ?_, ?_, ?_⟩
    · rw [hlength, fileOf, fileOf, List.flatMap_cons, List.length_append, bytes_length hsome,
        Nat.add_assoc]
    · rw [List.length_cons]
      omega
    · rw [hsum, List.map_cons, List.sum_cons, UInt64.add_assoc]
    · rw [hsum', List.map_cons, List.sum_cons, UInt64.add_assoc]

theorem entriesFrom_append : ∀ {batches : List CanonicalBatch} {records bytes : UInt64},
    countBatches recordType batches records bytes = .ok (records', bytes') →
    entriesFrom bytes (batches ++ [batch]) = entriesFrom bytes batches ++
      [⟨bytes', batch.byteCount, batch.recordCount, batch.firstOrdinal⟩]
  | [], _, _, h => by
    cases h
    rfl
  | _ :: _, _, _, h => congrArg (List.cons _) (entriesFrom_append (countBatches_cons_ok h).2)

/-! ## What is mapped -/

theorem mappedBatch_eq {front back : List UInt8} {offset : UInt64}
    (h : countBatches recordType [batch] records bytes = .ok (records', bytes'))
    (hoffset : front.length = offset.toNat) :
    mappedBatch (front ++ (batch.bytes ++ back)) recordType
      ⟨offset, batch.byteCount, batch.recordCount, batch.firstOrdinal⟩ = batch := by
  obtain ⟨⟨hsome, -, -, -, htype, hflags, -⟩, -⟩ := countBatches_singleton.1 h
  have hlength := bytes_length hsome
  have hbytes : (List.ofFn fun index : Fin batch.byteCount.toNat =>
      (front ++ (batch.bytes ++ back)).getD (offset.toNat + index) 0) = batch.bytes := by
    refine List.ext_getElem (by rw [List.length_ofFn, hlength]) fun index hindex hindex' => ?_
    rw [List.getElem_ofFn]
    change List.getD _ (offset.toNat + index) 0 = _
    rw [← hoffset, List.getD_append_right _ _ _ _ (Nat.le_add_right ..), Nat.add_sub_cancel_left,
      List.getD_append _ _ _ _ hindex', List.getD_eq_getElem _ _ hindex']
  obtain ⟨canonical, hcanonical⟩ := Option.isSome_iff_exists.1 hsome
  rw [CanonicalBatch.bytes, hcanonical, Option.getD_some] at hbytes
  obtain ⟨_, _, _, _, _, _, _⟩ := batch
  subst hcanonical htype hflags
  rw [mappedBatch, CanonicalBatch.mk.injEq]
  exact ⟨congrArg some hbytes, rfl, rfl, rfl, rfl, rfl⟩

theorem map_mappedBatch : ∀ {batches : List CanonicalBatch} {records bytes : UInt64} {front : List UInt8},
    countBatches recordType batches records bytes = .ok (records', bytes') →
    front.length = bytes.toNat →
    (entriesFrom bytes batches).map (mappedBatch (front ++ fileOf batches) recordType) = batches
  | [], _, _, _, _, _ => rfl
  | batch :: batches, records, bytes, front, h, hfront => by
    obtain ⟨hfirst, hrest⟩ := countBatches_cons_ok h
    obtain ⟨⟨hsome, -, -, -, -, -, -, hroom⟩, -⟩ := countBatches_singleton.1 hfirst
    have hlength : (front ++ batch.bytes).length = (bytes + batch.byteCount).toNat := by
      rw [List.length_append, hfront, bytes_length hsome, toNat_add_of_room hroom]
    rw [entriesFrom, List.map_cons]
    refine congrArg₂ List.cons (mappedBatch_eq hfirst hfront) ?_
    rw [fileOf, List.flatMap_cons, ← List.append_assoc]
    exact map_mappedBatch hrest hlength

end Counting

/-! ## What a spool keeps -/

/-- What a spool is created with. -/
def Summary.origin (summary : Summary) : Digest256 × Digest256 × UInt32 :=
  (summary.sourceFingerprint, summary.recipeFingerprint, summary.recordType)

/-- A spool that has not failed, and has accepted `batches`. -/
structure Holds (origin : Digest256 × Digest256 × UInt32) (spool : CanonicalSpool)
    (batches : List CanonicalBatch) : Prop where
  not_failed : spool.failed = false
  origin_eq : spool.summary.origin = origin
  type_ne : spool.summary.recordType ≠ 0
  file_eq : spool.file = fileOf batches
  metadata_eq : spool.metadata = entriesFrom 0 batches
  counted : countBatches spool.summary.recordType batches 0 0 =
    .ok (spool.summary.totalRecords, spool.summary.totalBytes)
  batchCount_eq : spool.summary.batchCount = UInt64.ofNat batches.length

/-- What else a sealed spool has. -/
structure Sealed (blake3 : Blake3) (spool : CanonicalSpool) (batches : List CanonicalBatch) :
    Prop where
  batches_eq : spool.batches = batches
  fingerprint_eq : canonicalStreamFingerprint blake3 batches = .ok {
    fingerprint := spool.summary.streamFingerprint
    recordType := spool.summary.recordType
    totalRecords := spool.summary.totalRecords
    totalBytes := spool.summary.totalBytes }

/-- A spool that takes no call any more. -/
def CanonicalSpool.Broken (spool : CanonicalSpool) : Prop := spool.failed = true ∧ spool.isSealed = false

/-- What every history of calls keeps. -/
def Kept (blake3 : Blake3) (origin : Digest256 × Digest256 × UInt32)
    (spool : CanonicalSpool) (batches : List CanonicalBatch) : Prop :=
  spool.Broken ∨ Holds origin spool batches ∧ (spool.isSealed = true → Sealed blake3 spool batches)

/-- What an append that is accepted makes of a spool. -/
def CanonicalSpool.append (spool : CanonicalSpool) (batch : CanonicalBatch) : CanonicalSpool :=
  { spool with
    metadata := spool.metadata ++ [spool.summary.metadata batch]
    file := spool.file ++ batch.bytes
    summary := spool.summary.count batch }

/-- The batches in the mapping of a spool. -/
def CanonicalSpool.mapped (spool : CanonicalSpool) : List CanonicalBatch :=
  spool.metadata.map (mappedBatch spool.file spool.summary.recordType)

/-- What a seal that succeeds makes of a spool. -/
def CanonicalSpool.close (blake3 : Blake3) (spool : CanonicalSpool)
    (streamFingerprint : Digest256) : CanonicalSpool :=
  { spool with
    mappingBytes := spool.summary.totalBytes
    batches := spool.mapped
    summary := { spool.summary with streamFingerprint }.fingerprinted blake3 spool.metadata
    isSealed := true }

section Steps

variable {blake3 : Blake3} {spool : CanonicalSpool} {batches : List CanonicalBatch}
  {batch : CanonicalBatch} {origin : Digest256 × Digest256 × UInt32}

theorem writeComplete_true : ∀ {answers : List WriteAnswer} {bytes file : List UInt8},
    (writeComplete answers bytes file).1 = true → (writeComplete answers bytes file).2 = file ++ bytes
  | [], bytes, file, h => by
    rw [writeComplete, List.isEmpty_iff] at h
    rw [writeComplete, h, List.append_nil]
  | answer :: answers, bytes, file, h => by
    rw [writeComplete.eq_def] at h ⊢
    dsimp only at h ⊢
    by_cases hbytes : bytes = []
    · rw [if_pos hbytes, hbytes, List.append_nil]
    rw [if_neg hbytes] at h ⊢
    cases answer with
    | interrupted => exact writeComplete_true h
    | failed => cases h
    | wrote count =>
      dsimp only at h ⊢
      split at h
      · cases h
      · rename_i hcount
        rw [if_neg hcount, writeComplete_true h, List.append_assoc, List.take_append_drop]

theorem batchInvalid_iff (summary : Summary) (batch : CanonicalBatch) :
    ¬ BatchInvalid summary batch ↔
      countBatches summary.recordType [batch] summary.totalRecords summary.totalBytes =
        .ok (summary.totalRecords + batch.recordCount, summary.totalBytes + batch.byteCount) := by
  rw [countBatches, countBatches]
  change _ ↔ (if BatchInvalid summary batch then _ else _) = _
  split
  · rename_i h
    exact ⟨fun hvalid => absurd h hvalid, fun heq => by cases heq⟩
  · rename_i h
    exact ⟨fun _ => rfl, fun _ => h⟩

theorem append_cases (answers : AppendAnswers) (spool : CanonicalSpool) (batch : CanonicalBatch) :
    ((canonicalSpoolAppend answers spool batch).1 ≠ .ok ∧
        (canonicalSpoolAppend answers spool batch).2 = spool) ∨
      (((canonicalSpoolAppend answers spool batch).1 = .memoryFailure ∨
        (canonicalSpoolAppend answers spool batch).1 = .fileIoFailed) ∧
        (canonicalSpoolAppend answers spool batch).2.Broken) ∨
      spool.isSealed = false ∧ spool.failed = false ∧ ¬ BatchInvalid spool.summary batch ∧
        canonicalSpoolAppend answers spool batch = (.ok, spool.append batch) := by
  rw [canonicalSpoolAppend]
  split
  · exact .inl ⟨nofun, rfl⟩
  rename_i hstate
  rw [Bool.or_eq_true, not_or, Bool.not_eq_true, Bool.not_eq_true] at hstate
  obtain ⟨hsealed, hfailed⟩ := hstate
  split
  · exact .inl ⟨nofun, rfl⟩
  rename_i hvalid
  split
  · exact .inr (.inl ⟨.inl rfl, rfl, hsealed⟩)
  have hfile := @writeComplete_true answers.writes batch.bytes spool.file
  rcases hwrite : writeComplete answers.writes batch.bytes spool.file with ⟨_ | _, file⟩
  · exact .inr (.inl ⟨.inr rfl, rfl, hsealed⟩)
  · rw [hwrite] at hfile
    obtain rfl : file = spool.file ++ batch.bytes := hfile rfl
    exact .inr (.inr ⟨hsealed, hfailed, hvalid, rfl⟩)

theorem Holds.append (h : Holds origin spool batches) (hvalid : ¬ BatchInvalid spool.summary batch) :
    Holds origin (spool.append batch) (batches ++ [batch]) where
  not_failed := h.not_failed
  origin_eq := h.origin_eq
  type_ne := h.type_ne
  file_eq := by
    rw [fileOf, List.flatMap_append, List.flatMap_singleton, ← fileOf, ← h.file_eq]
    rfl
  metadata_eq := by
    rw [entriesFrom_append h.counted, ← h.metadata_eq]
    rfl
  counted := by
    change countBatches spool.summary.recordType _ 0 0 = _
    rw [countBatches_append, h.counted]
    exact (batchInvalid_iff _ _).1 hvalid
  batchCount_eq := by
    change spool.summary.batchCount + 1 = _
    rw [h.batchCount_eq, List.length_append, List.length_singleton, UInt64.ofNat_add]
    rfl

theorem Holds.mapped_eq (h : Holds origin spool batches) : spool.mapped = batches := by
  have hmapped := @map_mappedBatch _ _ _ batches 0 0 [] h.counted rfl
  rwa [List.nil_append, ← h.file_eq, ← h.metadata_eq] at hmapped

theorem Holds.file_length (h : Holds origin spool batches) :
    spool.file.length = spool.summary.totalBytes.toNat := by
  rw [(countBatches_sums h.counted).1, h.file_eq]
  exact (Nat.zero_add _).symm

theorem Holds.fingerprint (blake3 : Blake3) (h : Holds origin spool batches) (hne : batches ≠ []) :
    ∃ fingerprint, canonicalStreamFingerprint blake3 batches = .ok {
      fingerprint
      recordType := spool.summary.recordType
      totalRecords := spool.summary.totalRecords
      totalBytes := spool.summary.totalBytes } := by
  obtain ⟨first, rest, rfl⟩ := List.exists_cons_of_ne_nil hne
  have htype : first.recordType = spool.summary.recordType :=
    (countBatches_singleton.1 (countBatches_cons_ok h.counted).1).1.2.2.2.2.1
  rw [canonicalStreamFingerprint, htype, if_neg h.type_ne, h.counted]
  exact ⟨_, rfl⟩

theorem seal_cases (blake3 : Blake3) (answers : SealAnswers) (spool : CanonicalSpool) :
    ((canonicalSpoolSeal blake3 answers spool).1 ≠ .ok ∧
        (canonicalSpoolSeal blake3 answers spool).2.2 = spool) ∨
      ((canonicalSpoolSeal blake3 answers spool).1 ≠ .ok ∧
        (canonicalSpoolSeal blake3 answers spool).2.2.Broken) ∨
      spool.failed = false ∧ ∃ verified,
        canonicalStreamFingerprint blake3 spool.mapped = .ok verified ∧
        verified.recordType = spool.summary.recordType ∧
        verified.totalRecords = spool.summary.totalRecords ∧
        verified.totalBytes = spool.summary.totalBytes ∧
        (canonicalSpoolSeal blake3 answers spool).1 = .ok ∧
        (canonicalSpoolSeal blake3 answers spool).2.2 = spool.close blake3 verified.fingerprint := by
  rw [canonicalSpoolSeal]
  split
  · exact .inl ⟨nofun, rfl⟩
  rename_i hstate
  simp only [Bool.or_eq_true, not_or, Bool.not_eq_true] at hstate
  obtain ⟨⟨⟨hsealed, hfailed⟩, -⟩, -⟩ := hstate
  split
  · exact .inr (.inl ⟨nofun, rfl, hsealed⟩)
  split
  · exact .inr (.inl ⟨nofun, rfl, hsealed⟩)
  split
  · exact .inr (.inl ⟨nofun, rfl, hsealed⟩)
  dsimp only
  split
  · exact .inr (.inl ⟨nofun, rfl, hsealed⟩)
  split
  · exact .inr (.inl ⟨nofun, rfl, hsealed⟩)
  rename_i verified hverified
  split
  · exact .inr (.inl ⟨nofun, rfl, hsealed⟩)
  rename_i hsame
  simp only [not_or, not_not] at hsame
  exact .inr (.inr ⟨hfailed, verified, hverified, hsame.1, hsame.2.1, hsame.2.2, rfl, rfl⟩)

theorem Holds.seal_ok (h : Holds origin spool batches) (hne : batches ≠ []) (hsealed : spool.isSealed = false) :
    (canonicalSpoolSeal blake3 ⟨true, true, true, true⟩ spool).1 = .ok := by
  obtain ⟨fingerprint, hfingerprint⟩ := h.fingerprint blake3 hne
  have hmetadata : spool.metadata.isEmpty = false := by
    rw [List.isEmpty_eq_false_iff, h.metadata_eq, ← List.length_pos_iff, entriesFrom_length]
    exact List.length_pos_of_ne_nil hne
  have hbytes : (spool.summary.totalBytes == 0) = false := by
    obtain ⟨first, rest, rfl⟩ := List.exists_cons_of_ne_nil hne
    obtain ⟨⟨hsome, hcount, -⟩, -⟩ := countBatches_singleton.1 (countBatches_cons_ok h.counted).1
    have hlength := h.file_length
    rw [h.file_eq, fileOf, List.flatMap_cons, List.length_append, bytes_length hsome] at hlength
    rw [beq_eq_false_iff_ne]
    intro hzero
    rw [hzero] at hlength
    exact hcount (UInt64.toNat_inj.1 (Nat.eq_zero_of_add_eq_zero_right hlength))
  have hmapped := h.mapped_eq
  rw [CanonicalSpool.mapped] at hmapped
  rw [canonicalSpoolSeal, hsealed, h.not_failed, hmetadata, hbytes, h.file_length]
  simp only [Bool.or_false, Bool.not_true, Bool.false_eq_true, if_false, bne_self_eq_false, hmapped,
    hfingerprint, ne_eq, not_true_eq_false, or_self]

theorem Holds.close (h : Holds origin spool batches) (fingerprint : Digest256) :
    Holds origin (spool.close blake3 fingerprint) batches :=
  ⟨h.not_failed, h.origin_eq, h.type_ne, h.file_eq, h.metadata_eq, h.counted, h.batchCount_eq⟩

/-! ## Histories -/

theorem apply_rejected {call : Call} (h : (call.apply blake3 spool).1 ≠ .ok) :
    (call.apply blake3 spool).2 = spool ∨ (call.apply blake3 spool).2.Broken := by
  cases call with
  | append answers batch =>
    obtain ⟨-, hsame⟩ | ⟨-, hbroken⟩ | ⟨-, -, -, haccepted⟩ := append_cases answers spool batch
    · exact .inl hsame
    · exact .inr hbroken
    · exact absurd (congrArg Prod.fst haccepted) h
  | sealSpool answers =>
    obtain ⟨-, hsame⟩ | ⟨-, hbroken⟩ | ⟨-, -, -, -, -, -, hok, -⟩ :=
      seal_cases blake3 answers spool
    · exact .inl hsame
    · exact .inr hbroken
    · exact absurd hok h

theorem Broken.apply (h : spool.Broken) (call : Call) : (call.apply blake3 spool).2 = spool := by
  cases call with
  | append answers batch => simp [Call.apply, canonicalSpoolAppend, h.1]
  | sealSpool answers => simp [Call.apply, canonicalSpoolSeal, h.1]

theorem Broken.after (h : spool.Broken) : ∀ calls, after blake3 spool calls = spool
  | [] => rfl
  | call :: calls => by rw [Spool.after, Broken.apply h, Broken.after h calls]

/-- One call keeps the invariant. -/
theorem Kept.apply (h : Kept blake3 origin spool batches) (call : Call) :
    Kept blake3 origin (call.apply blake3 spool).2 (batches ++ call.accepted spool) := by
  obtain hbroken | ⟨hholds, hsealed⟩ := h
  · rw [Broken.apply hbroken]
    exact .inl hbroken
  cases call with
  | append answers batch =>
    rw [Call.accepted, Call.apply]
    obtain ⟨hne, hsame⟩ | ⟨-, hbroken⟩ | ⟨hopen, -, hvalid, haccepted⟩ := append_cases answers spool batch
    · rw [if_neg hne, List.append_nil, hsame]
      exact .inr ⟨hholds, hsealed⟩
    · exact .inl hbroken
    · rw [haccepted, if_pos rfl]
      refine .inr ⟨hholds.append hvalid, fun hclosed => ?_⟩
      exact absurd (hopen.symm.trans hclosed) Bool.false_ne_true
  | sealSpool answers =>
    rw [Call.accepted, Call.apply, List.append_nil]
    obtain ⟨-, hsame⟩ | ⟨-, hbroken⟩ | ⟨-, verified, hverified, htype, hrecords, hbytes, -, hclosed⟩ :=
      seal_cases blake3 answers spool
    · dsimp only
      rw [hsame]
      exact .inr ⟨hholds, hsealed⟩
    · exact .inl hbroken
    · dsimp only
      rw [hclosed]
      refine .inr ⟨hholds.close _, fun _ => ⟨hholds.mapped_eq, ?_⟩⟩
      rw [← hholds.mapped_eq, hverified]
      obtain ⟨_, _, _, _⟩ := verified
      subst htype hrecords hbytes
      rfl

/-- Every history keeps the invariant. -/
theorem Kept.after : ∀ {calls : List Call} {spool : CanonicalSpool} {batches : List CanonicalBatch},
    Kept blake3 origin spool batches →
    Kept blake3 origin (after blake3 spool calls) (batches ++ accepted blake3 spool calls)
  | [], _, _, h => by rwa [accepted, List.append_nil]
  | call :: calls, spool, batches, h => by
    rw [accepted, ← List.append_assoc]
    exact Kept.after (h.apply call)

theorem after_append (left right : List Call) (spool : CanonicalSpool) :
    after blake3 spool (left ++ right) = after blake3 (after blake3 spool left) right := by
  induction left generalizing spool with
  | nil => rfl
  | cons call left ih => exact ih _

end Steps

theorem created_kept {blake3 : Blake3} {answers : CreateAnswers} {directory : String}
    {recordType : UInt32} {sourceFingerprint recipeFingerprint : Digest256} {created : CanonicalSpool}
    (h : canonicalSpoolCreate answers directory recordType sourceFingerprint recipeFingerprint =
      (.ok, some created)) :
    Kept blake3 (sourceFingerprint, recipeFingerprint, recordType) created [] := by
  rw [canonicalSpoolCreate] at h
  split at h
  · cases h
  rename_i hargument
  split at h
  · cases h
  split at h
  · cases h
  split at h
  · cases h
  cases h
  exact .inr ⟨⟨rfl, rfl, fun hzero => hargument (.inr hzero), rfl, rfl, rfl, rfl⟩, nofun⟩

/-! ## The producer of a sealed spool -/

/-- The callbacks of the producer that a spool is the state of. -/
def callbacks (blake3 : Blake3) (spool : CanonicalSpool) (context : Context)
    (sourceFingerprint recipeFingerprint : Digest256) (base : Framework.Environment) :
    Framework.Environment :=
  { base with
    prepare := fun _ => spoolPrepare blake3 spool context sourceFingerprint recipeFingerprint
    next := fun _ => spoolNext blake3 spool
    finish := fun _ => spoolFinish spool }

/-- The cursor after the batch at an index, by the records and the bytes up to it. -/
def cursorAfter (blake3 : Blake3) (summary : Summary) (batches : List CanonicalBatch)
    (index : ℕ) : Digest256 :=
  cursorFingerprint blake3 summary (UInt64.ofNat (index + 1))
    ((batches.take (index + 1)).map CanonicalBatch.recordCount).sum
    ((batches.take (index + 1)).map CanonicalBatch.byteCount).sum

/-- The plan of the producer. -/
def producerPlan (blake3 : Blake3) (summary : Summary) : Framework.ProducerPlan where
  producerFingerprint := summary.producerFingerprint
  initialCursorFingerprint := cursorFingerprint blake3 summary 0 0 0
  batchCount := summary.batchCount
  totalRecords := summary.totalRecords
  totalBytes := summary.totalBytes
  recordType := summary.recordType

/-- The producer of a spool yields the batches, in their order and with their bytes, ordinals and
record counts, and its plan says what they come to. -/
structure Replays (blake3 : Blake3) (sourceFingerprint recipeFingerprint : Digest256)
    (spool : CanonicalSpool) (batches : List CanonicalBatch) : Prop where
  producer : (canonicalSpoolProducer spool).1 = .ok ∧ (canonicalSpoolProducer spool).2.valid = true
  next : ∀ index : UInt64, spoolNext blake3 spool index =
    match batches[index.toNat]? with
    | some batch => (.ok, batch, cursorAfter blake3 spool.summary batches index.toNat)
    | none => (.producerBatchFailed, zeroBatch, 0)
  replayed_eq : replayed blake3 spool = batches
  counted : countBatches spool.summary.recordType batches 0 0 =
    .ok (spool.summary.totalRecords, spool.summary.totalBytes)
  fingerprint_eq : canonicalStreamFingerprint blake3 batches = .ok {
    fingerprint := spool.summary.streamFingerprint
    recordType := spool.summary.recordType
    totalRecords := spool.summary.totalRecords
    totalBytes := spool.summary.totalBytes }
  yields : ∀ context base, Framework.contextValidate context = .ok →
    (callbacks blake3 spool context sourceFingerprint recipeFingerprint base).Yields
      (producerPlan blake3 spool.summary) batches (cursorAfter blake3 spool.summary batches)
      spool.summary.spoolFingerprint

section Producing

variable {blake3 : Blake3} {spool : CanonicalSpool} {batches : List CanonicalBatch}
  {sourceFingerprint recipeFingerprint : Digest256} {recordType : UInt32}
  {origin : Digest256 × Digest256 × UInt32}

theorem entriesFrom_getElem? : ∀ {batches : List CanonicalBatch} {offset : UInt64} {index : ℕ}
    {batch : CanonicalBatch}, batches[index]? = some batch →
    (entriesFrom offset batches)[index]? = some
      ⟨offset + ((batches.take index).map CanonicalBatch.byteCount).sum, batch.byteCount,
        batch.recordCount, batch.firstOrdinal⟩
  | [], _, _, _, h => by cases h
  | first :: batches, offset, 0, batch, h => by
    cases h
    rw [entriesFrom]
    exact congrArg (fun offset => some (BatchMetadata.mk offset _ _ _)) (UInt64.add_zero offset).symm
  | first :: batches, offset, index + 1, batch, h => by
    rw [List.getElem?_cons_succ] at h
    rw [entriesFrom, List.getElem?_cons_succ, entriesFrom_getElem? h, List.take_succ_cons, List.map_cons,
      List.sum_cons, UInt64.add_assoc]

theorem sum_take_succ (count : CanonicalBatch → UInt64) {index : ℕ} {batch : CanonicalBatch}
    (h : batches[index]? = some batch) :
    ((batches.take index).map count).sum + count batch = ((batches.take (index + 1)).map count).sum := by
  rw [List.take_add_one, h, Option.toList_some, List.map_append, List.sum_append, List.map_singleton,
    List.sum_singleton]

theorem firstOrdinal_eq {records' bytes' : UInt64} :
    ∀ {batches : List CanonicalBatch} {records bytes : UInt64} {index : ℕ} {batch : CanonicalBatch},
    countBatches recordType batches records bytes = .ok (records', bytes') →
    batches[index]? = some batch →
    batch.firstOrdinal = records + ((batches.take index).map CanonicalBatch.recordCount).sum
  | [], _, _, _, _, _, h => by cases h
  | first :: batches, records, bytes, 0, batch, hcount, h => by
    cases h
    obtain ⟨⟨-, -, -, hordinal, -⟩, -⟩ := countBatches_singleton.1 (countBatches_cons_ok hcount).1
    rw [hordinal]
    exact (UInt64.add_zero records).symm
  | first :: batches, records, bytes, index + 1, batch, hcount, h => by
    rw [List.getElem?_cons_succ] at h
    rw [firstOrdinal_eq (countBatches_cons_ok hcount).2 h, List.take_succ_cons, List.map_cons,
      List.sum_cons, UInt64.add_assoc]

theorem Sealed.next (hsealed : Sealed blake3 spool batches) (h : Holds origin spool batches)
    (hclosed : spool.isSealed = true) (index : UInt64) :
    spoolNext blake3 spool index =
      match batches[index.toNat]? with
      | some batch => (.ok, batch, cursorAfter blake3 spool.summary batches index.toNat)
      | none => (.producerBatchFailed, zeroBatch, 0) := by
  rw [spoolNext, hclosed, h.not_failed, hsealed.batches_eq, h.metadata_eq]
  rcases hbatch : batches[index.toNat]? with _ | batch
  · rfl
  · have hrecords := sum_take_succ CanonicalBatch.recordCount hbatch
    have hbytes := sum_take_succ CanonicalBatch.byteCount hbatch
    have hindex : index + 1 = UInt64.ofNat (index.toNat + 1) := by
      rw [UInt64.ofNat_add, UInt64.ofNat_toNat]
      rfl
    rw [entriesFrom_getElem? hbatch]
    simp only [Bool.not_true, Bool.or_self, Bool.false_eq_true, if_false]
    rw [firstOrdinal_eq h.counted hbatch, UInt64.zero_add, UInt64.zero_add, hrecords, hbytes, hindex]
    rfl

theorem Holds.length_eq (h : Holds origin spool batches) :
    batches.length = spool.summary.batchCount.toNat := by
  have hrecords := (countBatches_sums h.counted).2.1
  have hlt := spool.summary.totalRecords.toNat_lt
  have hsize : batches.length < UInt64.size := by
    change _ < 2 ^ 64
    omega
  rw [h.batchCount_eq, Checked.toNat_ofNat hsize]

theorem Sealed.replays (hsealed : Sealed blake3 spool batches)
    (h : Holds (sourceFingerprint, recipeFingerprint, recordType) spool batches)
    (hclosed : spool.isSealed = true) :
    Replays blake3 sourceFingerprint recipeFingerprint spool batches where
  producer := by
    rw [canonicalSpoolProducer, hclosed, h.not_failed]
    exact ⟨rfl, rfl⟩
  next := hsealed.next h hclosed
  replayed_eq := by
    have hlt := spool.summary.batchCount.toNat_lt
    rw [replayed, ← h.length_eq]
    refine List.ext_getElem (by simp) fun index hindex hindex' => ?_
    rw [List.getElem_map, List.getElem_range, hsealed.next h hclosed,
      Checked.toNat_ofNat (by rw [← h.length_eq] at hlt; exact hindex'.trans hlt),
      List.getElem?_eq_getElem hindex']
  counted := h.counted
  fingerprint_eq := hsealed.fingerprint_eq
  yields context base hcontext :=
    { prepare := fun _ => by
        obtain ⟨hsource, horigin⟩ := Prod.mk.inj h.origin_eq
        obtain ⟨hrecipe, -⟩ := Prod.mk.inj horigin
        change spoolPrepare blake3 spool context sourceFingerprint recipeFingerprint = _
        rw [spoolPrepare, hclosed, h.not_failed, hcontext, ← hsource, ← hrecipe, bne_self_eq_false,
          bne_self_eq_false, bne_self_eq_false]
        rfl
      next := fun _ index batch hbatch => by
        change spoolNext blake3 spool index = _
        rw [hsealed.next h hclosed, hbatch]
      finish := fun _ => by
        change spoolFinish spool = _
        rw [spoolFinish, hclosed, h.not_failed]
        rfl
      count := h.length_eq }

theorem Replays.run {call : Framework.Invocation}
    (h : Replays blake3 call.sourceFingerprint call.recipeFingerprint spool batches)
    {base : Framework.Environment} (henvironment : call.environment =
      callbacks blake3 spool call.context call.sourceFingerprint call.recipeFingerprint base)
    (hcontext : Framework.contextValidate call.context = .ok)
    (hcancel : ∀ trace, base.cancelRequested trace = false) (hsinks : base.SinksAlone)
    (hok : (call.result blake3).1 = .ok) :
    (canonicalStreamFingerprint blake3 batches).map Framework.StreamFingerprint.fingerprint =
      .ok (call.run blake3).receipt.stream.streamFingerprint := by
  have hyields := h.yields call.context base hcontext
  rw [← henvironment] at hyields
  have hcancel' : ∀ trace, call.environment.cancelRequested trace = false := by
    rw [henvironment]
    exact hcancel
  have hsinks' : call.environment.SinksAlone := by
    rw [henvironment]
    exact ⟨hsinks.1, hsinks.2, hsinks.3⟩
  obtain ⟨hfingerprint, hrun⟩ := Framework.runProducerImpl_fingerprint hyields hcancel' hsinks' hok
  rw [hfingerprint, Framework.Invocation.run, Framework.Invocation.result, hrun]
  rfl

end Producing

/-- **A sealed spool replays what was appended**, whatever calls are made and whatever the system
answers. An append that is refused changes nothing. If the spool ends up sealed, every call that did not
succeed has changed nothing, its producer yields the batches that were accepted, and a run of the
framework finds in these the fingerprint of those. A spool that has not failed is sealed when the system
does what it is asked. -/
theorem spool_replays (blake3 : Blake3) (answers : CreateAnswers) (directory : String)
    (recordType : UInt32) (sourceFingerprint recipeFingerprint : Digest256) (calls : List Call)
    (created : CanonicalSpool)
    (hcreate : canonicalSpoolCreate answers directory recordType sourceFingerprint recipeFingerprint =
      (.ok, some created)) :
    (∀ answers spool batch, (canonicalSpoolAppend answers spool batch).1 = .stateInvalid ∨
        (canonicalSpoolAppend answers spool batch).1 = .batchInvalid →
      (canonicalSpoolAppend answers spool batch).2 = spool) ∧
    ((after blake3 created calls).isSealed = true →
      (∀ front call back, calls = front ++ call :: back →
        (call.apply blake3 (after blake3 created front)).1 ≠ .ok →
        (call.apply blake3 (after blake3 created front)).2 = after blake3 created front) ∧
      Replays blake3 sourceFingerprint recipeFingerprint (after blake3 created calls)
        (accepted blake3 created calls) ∧
      ∀ (call : Framework.Invocation) (base : Framework.Environment),
        call.sourceFingerprint = sourceFingerprint → call.recipeFingerprint = recipeFingerprint →
        Framework.contextValidate call.context = .ok → (∀ trace, base.cancelRequested trace = false) →
        base.SinksAlone →
        call.environment = callbacks blake3 (after blake3 created calls) call.context
          call.sourceFingerprint call.recipeFingerprint base →
        (call.result blake3).1 = .ok →
        (canonicalStreamFingerprint blake3 (accepted blake3 created calls)).map
            Framework.StreamFingerprint.fingerprint =
          .ok (call.run blake3).receipt.stream.streamFingerprint) ∧
    ((after blake3 created calls).failed = false → (after blake3 created calls).isSealed = false →
      accepted blake3 created calls ≠ [] →
      (canonicalSpoolSeal blake3 ⟨true, true, true, true⟩ (after blake3 created calls)).1 = .ok) := by
  have hkept : Kept blake3 (sourceFingerprint, recipeFingerprint, recordType)
      (after blake3 created calls) (accepted blake3 created calls) :=
    (created_kept hcreate).after
  have hreplays : (after blake3 created calls).isSealed = true →
      Replays blake3 sourceFingerprint recipeFingerprint (after blake3 created calls)
        (accepted blake3 created calls) := by
    intro hsealed
    obtain hbroken | ⟨hholds, hclosed⟩ := hkept
    · exact absurd (hbroken.2.symm.trans hsealed) Bool.false_ne_true
    · exact (hclosed hsealed).replays hholds hsealed
  refine ⟨fun answers spool batch hrefused => ?_, fun hsealed => ⟨?_, hreplays hsealed, ?_⟩,
    fun hfailed hopen hne => ?_⟩
  · obtain ⟨-, hsame⟩ | ⟨hstatus, -⟩ | ⟨-, -, -, haccepted⟩ := append_cases answers spool batch
    · exact hsame
    · rcases hstatus with hstatus | hstatus <;>
      rw [hstatus] at hrefused <;>
      exact absurd hrefused (by decide)
    · rw [haccepted] at hrefused
      exact absurd hrefused (by simp)
  · rintro front call back rfl hne
    obtain hsame | hbroken := apply_rejected hne
    · exact hsame
    · rw [after_append, after, Broken.after hbroken] at hsealed
      exact absurd (hbroken.2.symm.trans hsealed) Bool.false_ne_true
  · rintro call base rfl rfl hcontext hcancel hsinks henvironment hok
    exact (hreplays hsealed).run henvironment hcontext hcancel hsinks hok
  · obtain hbroken | ⟨hholds, -⟩ := hkept
    · exact absurd (hfailed.symm.trans hbroken.1) Bool.false_ne_true
    · exact hholds.seal_ok hne hopen

/-! A batch that is written in two parts, a batch out of its order, and the batch that follows. -/

def oneSpool : CanonicalSpool := { summary := { recordType := 1 } }

def secondBatch : Framework.CanonicalBatch where
  canonicalBytes := some [8, 9]
  byteCount := 2
  recordCount := 1
  firstOrdinal := 1
  recordType := 1
  flags := 0
  sized := by simp

def twoCalls : List Call :=
  [.append ⟨true, [.interrupted, .wrote 1]⟩ Framework.Invocation.oneBatch,
    .append ⟨true, []⟩ Framework.Invocation.oneBatch,
    .append ⟨true, [.wrote 2]⟩ secondBatch,
    .sealSpool ⟨true, true, true, true⟩]

theorem spool_replays_twice :
    replayed digits (after digits oneSpool twoCalls) = [Framework.Invocation.oneBatch, secondBatch] :=
  ((spool_replays digits ⟨true, true, true⟩ "spools" 1 0 0 twoCalls oneSpool
    rfl).2.1 (by decide +kernel)).2.1.replayed_eq

end Laplace.Spool
