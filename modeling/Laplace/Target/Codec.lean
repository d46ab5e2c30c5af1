import Laplace.Target.Package

/-!
# Packages are written and read in one way

What the decoder accepts is the header for the size and the digest of the input, the compile receipt
and the slots of an artifact that is valid, and this is what the encoder writes. The encoder and the
decoder validate by the same routine, of which only the counts are used here.
-/

namespace Laplace.Target

open Packets Reader Routine

variable {blake3 : Blake3}

/-! ## Records -/

theorem reads_compileReceipt :
    Reads readCompileReceipt.reader (fun receipt => (compileReceiptPieces receipt).flatten)
      fun _ => True := by
  unfold readCompileReceipt compileReceiptPieces
  simp only [reader_bind, reader_pure, List.flatten_cons, List.flatten_nil, List.append_nil]
  refine .fields ?_
  refine reads_digest.field CompileReceipt.receiptId fun _ => ?_
  refine reads_digest.field CompileReceipt.requestFingerprint fun _ => ?_
  refine reads_digest.field CompileReceipt.evidenceBoundary fun _ => ?_
  refine reads_digest.field CompileReceipt.evidenceEpoch fun _ => ?_
  refine reads_digest.field CompileReceipt.recipeFingerprint fun _ => ?_
  refine reads_digest.field CompileReceipt.targetContractFingerprint fun _ => ?_
  refine reads_u64.field CompileReceipt.slotCount fun _ => ?_
  refine reads_u64.field CompileReceipt.distinctOperatorCount fun _ => ?_
  refine reads_u64.field CompileReceipt.matrixValueCount fun _ => ?_
  refine reads_u64.field CompileReceipt.rhsValueCount fun _ => ?_
  refine reads_u32.field CompileReceipt.flags fun _ => ?_
  refine reads_u32.field CompileReceipt.status fun _ => ?_
  refine reads_u32.field CompileReceipt.version fun _ => ?_
  refine reads_u32.last CompileReceipt.reserved (fun _ _ => trivial) fun _ _ receipt => ?_
  simp only [CompileReceipt.ext_iff, true_and, and_assoc]

theorem reads_slotReceipt :
    Reads readSlotReceipt.reader (fun slot => (slotReceiptPieces slot).flatten) fun _ => True := by
  unfold readSlotReceipt slotReceiptPieces
  simp only [reader_bind, reader_pure, List.flatten_cons, List.flatten_nil, List.append_nil]
  refine .fields ?_
  refine reads_digest.field SlotReceipt.slotId fun _ => ?_
  refine reads_digest.field SlotReceipt.roleFingerprint fun _ => ?_
  refine reads_digest.field SlotReceipt.operatorId fun _ => ?_
  refine reads_digest.field SlotReceipt.operatorReceiptId fun _ => ?_
  refine reads_digest.field SlotReceipt.programFingerprint fun _ => ?_
  refine reads_digest.field SlotReceipt.fieldSetFingerprint fun _ => ?_
  refine reads_digest.field SlotReceipt.constraintSetFingerprint fun _ => ?_
  refine reads_digest.field SlotReceipt.materializationReceiptId fun _ => ?_
  refine reads_digest.field SlotReceipt.matrixFingerprint fun _ => ?_
  refine reads_u64.field SlotReceipt.fieldCount fun _ => ?_
  refine reads_u64.field SlotReceipt.selectedConstraintCount fun _ => ?_
  refine reads_u64.field SlotReceipt.matrixValueCount fun _ => ?_
  refine reads_u64.field SlotReceipt.rhsValueCount fun _ => ?_
  refine reads_u32.field SlotReceipt.targetRole fun _ => ?_
  refine reads_u32.field SlotReceipt.layerIndex fun _ => ?_
  refine reads_u32.field SlotReceipt.headIndex fun _ => ?_
  refine reads_u32.field SlotReceipt.expertIndex fun _ => ?_
  refine reads_u32.field SlotReceipt.relationPlaneCount fun _ => ?_
  refine reads_u32.last SlotReceipt.status (fun _ _ => trivial) fun _ _ slot => ?_
  simp only [SlotReceipt.ext_iff, true_and, and_assoc]

theorem compileReceiptPieces_length (receipt : CompileReceipt) :
    (compileReceiptPieces receipt).flatten.length = compileReceiptEncodedBytes := by
  simp [compileReceiptPieces, compileReceiptEncodedBytes]

theorem slotReceiptPieces_length (slot : SlotReceipt) :
    (slotReceiptPieces slot).flatten.length = slotReceiptEncodedBytes := by
  simp [slotReceiptPieces, slotReceiptEncodedBytes]

/-! ## Slots -/

/-- How many bytes a slot takes. -/
def rowBytes (row : Row) : ℕ := slotReceiptEncodedBytes + 8 * (row.2.1.length + row.2.2.length)

/-- What is written for the slots. -/
def rowsWritten (rows : List Row) : List UInt8 := rows.flatMap fun row => (rowPieces row).flatten

theorem rowPieces_flatten (row : Row) : (rowPieces row).flatten =
    (slotReceiptPieces row.1).flatten ++ (row.2.1.flatMap u64Bytes ++ row.2.2.flatMap u64Bytes) := by
  rw [rowPieces, List.flatten_append, List.flatten_append, List.append_assoc, List.flatMap_def,
    List.flatMap_def]

theorem rowPieces_length (row : Row) : (rowPieces row).flatten.length = rowBytes row := by
  rw [rowPieces_flatten, List.length_append, List.length_append, slotReceiptPieces_length,
    flatMap_u64_length, flatMap_u64_length, rowBytes, Nat.mul_add]

theorem rowsWritten_length (rows : List Row) : (rowsWritten rows).length = (rows.map rowBytes).sum := by
  rw [rowsWritten, List.length_flatMap]
  exact congrArg List.sum (List.map_congr_left fun row _ => rowPieces_length row)

/-- The counts of a slot are those of its values, and there are not too many. -/
structure RowFits (row : Row) : Prop where
  matrix : row.1.matrixValueCount.toNat = row.2.1.length
  rhs : row.1.rhsValueCount.toNat = row.2.2.length
  matrix_le : row.2.1.length ≤ maxSize 8
  rhs_le : row.2.2.length ≤ maxSize 8

theorem RowFits.bytes_le {row : Row} (h : RowFits row) :
    8 * (row.2.1.length + row.2.2.length) ≤ sizeMax := by
  have hmatrix : row.2.1.length ≤ (2 ^ 63 - 1) / 8 := h.matrix_le
  have hrhs : row.2.2.length ≤ (2 ^ 63 - 1) / 8 := h.rhs_le
  unfold sizeMax
  omega

variable {total : ℕ}

theorem targetPackageAdd_eq_some {left right : ℕ} :
    targetPackageAdd left right = some total ↔ total = left + right ∧ total ≤ sizeMax := by
  unfold targetPackageAdd
  split
  · exact iff_of_false nofun fun h => by omega
  · rw [Option.some.injEq]
    omega

theorem targetPackageMultiply_eq_some {left right : ℕ} :
    targetPackageMultiply left right = some total ↔ total = left * right ∧ total ≤ sizeMax := by
  unfold targetPackageMultiply
  split
  · exact iff_of_false nofun fun h => by
      obtain ⟨rfl, hle⟩ := h
      omega
  · rw [Option.some.injEq]
    constructor
    · rintro rfl
      exact ⟨rfl, by omega⟩
    · exact fun h => h.1.symm

theorem announcedBytes_eq {slot : SlotReceipt} {valueBytes : ℕ} : valueBytes ∈ announcedBytes slot ↔
      valueBytes = 8 * (slot.matrixValueCount.toNat + slot.rhsValueCount.toNat) ∧ valueBytes ≤ sizeMax := by
  unfold announcedBytes
  simp only [Option.mem_def, Option.bind_eq_bind, Option.bind_eq_some_iff,
    targetPackageAdd_eq_some, targetPackageMultiply_eq_some]
  constructor
  · rintro ⟨_, ⟨rfl, -⟩, rfl, hle⟩
    exact ⟨Nat.mul_comm _ _, hle⟩
  · rintro ⟨rfl, hle⟩
    exact ⟨_, ⟨rfl, by omega⟩, Nat.mul_comm _ _, hle⟩

theorem reads_row : Reads readRow.reader (fun row => (rowPieces row).flatten) RowFits := by
  unfold readRow
  simp only [reader_bind, reader_pure, reader_remaining,
    reader_require, reader_resize, reader_many, rowPieces_flatten]
  refine .fields ?_
  refine reads_slotReceipt.field (fun row : Row => row.1) fun slot => ?_
  refine .remaining_then ?_ fun row left h hleft => ?_
  · refine .guard_then (fun row h => ?_) fun hmatrix => .guard_then (fun row h => ?_) fun hrhs => ?_
    · exact h.2.2 ▸ h.1.matrix.trans_le h.1.matrix_le
    · exact h.2.2 ▸ h.1.rhs.trans_le h.1.rhs_le
    refine (reads_u64.many _).bind (fun row : Row => row.2.1)
      (fun row h => ⟨h.2.2 ▸ h.1.matrix.symm, fun _ _ => trivial⟩) fun matrix hmatrixLength => ?_
    refine (reads_u64.many _).last (fun row : Row => row.2.2)
      (fun row h => ⟨h.2.1.2 ▸ h.1.rhs.symm, fun _ _ => trivial⟩) fun rhs hrhsLength row => ?_
    constructor
    · rintro ⟨-, ⟨⟨-, rfl⟩, rfl⟩, rfl⟩
      rfl
    · rintro rfl
      exact ⟨⟨hmatrixLength.1.symm, hrhsLength.1.symm, hmatrixLength.1 ▸ hmatrix,
        hrhsLength.1 ▸ hrhs⟩, ⟨⟨trivial, rfl⟩, rfl⟩, rfl⟩
  · obtain ⟨hfits, -, rfl⟩ := h
    refine ⟨_, announcedBytes_eq.2 ⟨rfl, ?_⟩, ?_⟩
    · rw [hfits.matrix, hfits.rhs]
      exact hfits.bytes_le
    · rw [List.length_append, flatMap_u64_length, flatMap_u64_length] at hleft
      rw [hfits.matrix, hfits.rhs]
      omega

/-! ## Tables -/

/-- What is written for the compile receipt and the slots. -/
def tablesWritten (tables : CompileReceipt × List Row) : List UInt8 :=
  (compileReceiptPieces tables.1).flatten ++ rowsWritten tables.2

theorem tablesWritten_length (receipt : CompileReceipt) (rows : List Row) :
    (tablesWritten (receipt, rows)).length = compileReceiptEncodedBytes + (rows.map rowBytes).sum := by
  rw [tablesWritten, List.length_append, compileReceiptPieces_length, rowsWritten_length]

/-- As many slots as the receipt says, each of which fits. -/
structure TablesFit (tables : CompileReceipt × List Row) : Prop where
  count : tables.1.slotCount.toNat = tables.2.length
  nonempty : tables.1.slotCount ≠ 0
  count_le : tables.1.slotCount.toNat ≤ maxSize slotReceiptEncodedBytes
  rows : ∀ row ∈ tables.2, RowFits row

theorem reads_tables : Reads readTables.reader tablesWritten TablesFit := by
  unfold readTables tablesWritten rowsWritten
  simp only [reader_bind, reader_pure, reader_require,
    reader_resize, reader_many]
  refine .fields ?_
  refine .guard_then (fun _ _ => by decide) fun _ => ?_
  refine reads_compileReceipt.field Prod.fst fun receipt => ?_
  refine .guard_then (fun tables h => h.2.2 ▸ h.1.nonempty) fun hnonempty => ?_
  refine .guard_then (fun tables h => h.2.2 ▸ h.1.count_le) fun hcount => ?_
  have hsmaller : receipt.slotCount.toNat ≤ maxSize 24 := hcount.trans (by decide)
  refine .guard_then (fun _ _ => hsmaller) fun _ => .guard_then (fun _ _ => hsmaller) fun _ => ?_
  refine (reads_row.many _).last Prod.snd
    (fun tables h => ⟨h.2.2 ▸ h.1.count.symm, h.1.rows⟩) fun rows hrows tables => ?_
  constructor
  · rintro ⟨-, ⟨-, rfl⟩, rfl⟩
    rfl
  · rintro rfl
    exact ⟨⟨hrows.1.symm, hnonempty, hcount, hrows.2⟩, ⟨trivial, rfl⟩, rfl⟩

/-! ## The header -/

/-- The header of a package. -/
def headerWritten (size : ℕ) (packageId : List UInt8) : List UInt8 :=
  packageMagic ++ (u32Bytes packageVersion ++ (u32Bytes 0 ++ (u64Bytes (UInt64.ofNat size) ++ packageId)))

theorem reads_header (size : ℕ) (packageId : Digest256) :
    Reads (readHeader size packageId).reader (fun _ => headerWritten size packageId.bytes)
      fun _ => size < UInt64.size := by
  unfold readHeader headerWritten
  simp only [reader_bind, reader_require]
  refine .fields ?_
  refine (reads_bytes 8).bind (fun _ : Unit => packageMagic) (fun _ _ => rfl) fun magic _ => ?_
  refine reads_u32.field (fun _ : Unit => packageVersion) fun version => ?_
  refine reads_u32.field (fun _ : Unit => (0 : UInt32)) fun reserved => ?_
  refine reads_u64.field (fun _ : Unit => UInt64.ofNat size) fun encodedSize => ?_
  refine (reads_digest.field (fun _ : Unit => packageId) fun storedPackageId => ?_).congr
    (fun _ => Iff.rfl) fun _ _ => List.append_nil _
  refine .guard_then (fun _ h => ?_) fun hfields => .of_guard ?_
  · obtain ⟨hsize, ⟨⟨⟨⟨-, rfl⟩, rfl⟩, rfl⟩, rfl⟩, -⟩ := h
    exact ⟨rfl, rfl, rfl, Checked.toNat_ofNat hsize⟩
  · obtain ⟨rfl, rfl, rfl, rfl⟩ := hfields
    have hround : UInt64.ofNat encodedSize.toNat = encodedSize := UInt64.ofNat_toNat
    simp [encodedSize.toNat_lt_size, hround, eq_comm]

theorem headerWritten_length (size : ℕ) (packageId : Digest256) :
    (headerWritten size packageId.bytes).length = packageHeaderBytes := by
  have hmagic : packageMagic.length = 8 := rfl
  simp [headerWritten, packageHeaderBytes, hmagic]

/-! ## Artifacts -/

/-- The artifact is found valid. -/
def ArtifactValid (blake3 : Blake3) (result : CompileResult)
    (receipt : CompileReceipt) : Prop :=
  (validateCompileArtifact blake3 result receipt).reader.run [] = some ((), [])

instance (result : CompileResult) (receipt : CompileReceipt) :
    Decidable (ArtifactValid blake3 result receipt) :=
  inferInstanceAs (Decidable (_ = _))

theorem idle_validateRow (prior : Option SlotReceipt) (row : Row) (totals : Totals) :
    (validateRow blake3 prior row totals).Idle :=
  idle_require_then <| idle_quotient_then <| idle_require_then <|
    idle_require_then <| idle_require_then <| idle_require_then <|
      idle_require_then <| idle_pure _

theorem idle_validateRows : ∀ (rows : List Row) (prior : Option SlotReceipt) (totals : Totals),
    (validateRows blake3 prior rows totals).Idle
  | [], _, totals => idle_pure totals
  | row :: rows, prior, totals => idle_bind (idle_validateRow prior row totals)
      fun totals => idle_validateRows rows (some row.1) totals

theorem idle_validateCompileArtifact (result : CompileResult) (receipt : CompileReceipt) :
    (validateCompileArtifact blake3 result receipt).Idle :=
  idle_require_then <| idle_bind (idle_validateRows _ _ _) fun _ =>
    idle_require_then idle_require

variable {result : CompileResult} {receipt : CompileReceipt} {bytes rest : List UInt8}

theorem run_validate_iff :
    (validateCompileArtifact blake3 result receipt).reader.run bytes = some ((), rest) ↔
      ArtifactValid blake3 result receipt ∧ rest = bytes := by
  constructor
  · intro h
    obtain ⟨hrest, hany⟩ := idle_validateCompileArtifact _ _ bytes () rest h
    exact ⟨hany [], hrest⟩
  · rintro ⟨h, rfl⟩
    exact (idle_validateCompileArtifact _ _ [] () [] h).2 rest

theorem validateRows_counts : ∀ {rows : List Row} {prior : Option SlotReceipt} {totals : Totals}
    {bytes : List UInt8} {result : Totals × List UInt8},
    (validateRows blake3 prior rows totals).reader.run bytes = some result → ∀ row ∈ rows,
      row.1.matrixValueCount.toNat = row.2.1.length ∧ row.1.rhsValueCount.toNat = row.2.2.length
  | [], _, _, _, _, _ => nofun
  | row :: rows, prior, totals, bytes, result, h => by
    obtain ⟨totals', rest, hrow, hrows⟩ := run_bind_eq_some.1 h
    obtain ⟨hcounts, -⟩ := run_require_then.1 hrow
    exact List.forall_mem_cons.2 ⟨hcounts.2.2.2, validateRows_counts hrows⟩

theorem ArtifactValid.receiptValid (h : ArtifactValid blake3 result receipt) :
    receiptValid result receipt = true :=
  (run_require_then.1 h).1

theorem ArtifactValid.counts (h : ArtifactValid blake3 result receipt) : ∀ row ∈ result.rows,
      row.1.matrixValueCount.toNat = row.2.1.length ∧ row.1.rhsValueCount.toNat = row.2.2.length := by
  obtain ⟨_, hrest⟩ := run_require_then.1 h
  obtain ⟨_, _, hrows, -⟩ := run_bind_eq_some.1 hrest
  exact validateRows_counts hrows

theorem receiptValid_tables (h : receiptValid result receipt = true) : result.slots ≠ [] ∧
      result.slots.length = result.matrices.length ∧ result.slots.length = result.rhs.length ∧
      receipt.slotCount.toNat = result.slots.length := by
  unfold receiptValid at h
  exact (of_decide_eq_true h).2.2.2.2.2.2.2.2.2.2

theorem ofRows_rows (hmatrices : result.slots.length = result.matrices.length)
    (hrhs : result.slots.length = result.rhs.length) : CompileResult.ofRows result.rows = result := by
  have hzip : (result.matrices.zip result.rhs).length = result.slots.length := by
    rw [List.length_zip]
    omega
  ext1
  · exact List.map_fst_zip hzip.ge
  · change result.rows.map (Prod.fst ∘ Prod.snd) = _
    rw [← List.map_map, CompileResult.rows, List.map_snd_zip hzip.le, List.map_fst_zip (by omega)]
  · change result.rows.map (Prod.snd ∘ Prod.snd) = _
    rw [← List.map_map, CompileResult.rows, List.map_snd_zip hzip.le, List.map_snd_zip (by omega)]

theorem rows_ofRows : ∀ rows : List Row, (CompileResult.ofRows rows).rows = rows
  | [] => rfl
  | row :: rows => congrArg (row :: ·) (rows_ofRows rows)

theorem rows_length (hmatrices : result.slots.length = result.matrices.length)
    (hrhs : result.slots.length = result.rhs.length) : result.rows.length = result.slots.length := by
  rw [CompileResult.rows, List.length_zip, List.length_zip]
  omega

/-! ## Sizes -/

/-- How many bytes a package takes. -/
def packageSize (rows : List Row) : ℕ :=
  packageHeaderBytes + compileReceiptEncodedBytes + (rows.map rowBytes).sum

theorem measureRows_eq : ∀ {rows : List Row} {start total : ℕ}, start ≤ sizeMax →
    (measureRows rows start = some total ↔ total = start + (rows.map rowBytes).sum ∧ total ≤ sizeMax)
  | [], start, total, hstart => by
    rw [measureRows, Option.some.injEq, List.map_nil, List.sum_nil, Nat.add_zero]
    omega
  | row :: rows, start, total, hstart => by
    obtain ⟨slot, matrix, rhs⟩ := row
    have hbytes : rowBytes (slot, matrix, rhs) = 344 + 8 * (matrix.length + rhs.length) := rfl
    rw [measureRows, List.map_cons, List.sum_cons]
    simp only [Option.bind_eq_bind, Option.bind_eq_some_iff, targetPackageAdd_eq_some,
      targetPackageMultiply_eq_some, slotReceiptEncodedBytes]
    constructor
    · rintro ⟨_, ⟨rfl, -⟩, _, ⟨rfl, -⟩, _, ⟨rfl, -⟩, _, ⟨rfl, hle⟩, hrows⟩
      rw [measureRows_eq hle] at hrows
      omega
    · rintro ⟨rfl, hle⟩
      refine ⟨_, ⟨rfl, by omega⟩, _, ⟨rfl, by omega⟩, _, ⟨rfl, by omega⟩, _, ⟨rfl, by omega⟩, ?_⟩
      rw [measureRows_eq (by omega)]
      omega

/-! ## Packages -/

/-- The digest of the package of a compile receipt and slots. -/
def packageIdOf (blake3 : Blake3) (receipt : CompileReceipt) (rows : List Row) :
    Digest256 :=
  targetPackageDigest blake3 (headerWritten (packageSize rows) (List.replicate packageIdBytes 0) ++
    tablesWritten (receipt, rows))

/-- The package of a compile receipt and slots. -/
def packageWritten (blake3 : Blake3) (receipt : CompileReceipt) (rows : List Row) :
    List UInt8 :=
  headerWritten (packageSize rows) (packageIdOf blake3 receipt rows).bytes ++
    tablesWritten (receipt, rows)

variable {packageId tables : List UInt8}

theorem packageDigestInput_header {front : List UInt8} (hfront : front.length = packageIdOffset)
    (hid : packageId.length = packageIdBytes) : packageDigestInput (front ++ packageId ++ tables) =
      domainBytes "laplace-target-neutral-package-v1" ++ front ++ List.replicate packageIdBytes 0 ++
        tables := by
  have htake : (front ++ packageId ++ tables).take packageIdOffset = front := by
    rw [List.append_assoc, List.take_left' hfront]
  have hdrop : (front ++ packageId ++ tables).drop packageHeaderBytes = tables := by
    refine List.drop_left' ?_
    rw [List.length_append, hfront, hid]
    rfl
  rw [packageDigestInput, htake, hdrop]

/-- The header before the id. -/
def headerFront (size : ℕ) : List UInt8 :=
  packageMagic ++ (u32Bytes packageVersion ++ (u32Bytes 0 ++ u64Bytes (UInt64.ofNat size)))

theorem headerFront_length (size : ℕ) : (headerFront size).length = packageIdOffset := by
  have hmagic : packageMagic.length = 8 := rfl
  simp [headerFront, hmagic, packageIdOffset]

theorem headerWritten_eq (size : ℕ) (packageId : List UInt8) :
    headerWritten size packageId = headerFront size ++ packageId := by
  simp [headerWritten, headerFront]

theorem targetPackageDigest_header (blake3 : Blake3) (size : ℕ)
    {packageId' : List UInt8} (hid : packageId.length = packageIdBytes)
    (hid' : packageId'.length = packageIdBytes) :
    targetPackageDigest blake3 (headerWritten size packageId ++ tables) =
      targetPackageDigest blake3 (headerWritten size packageId' ++ tables) := by
  rw [targetPackageDigest, targetPackageDigest, headerWritten_eq, headerWritten_eq,
    packageDigestInput_header (headerFront_length size) hid,
    packageDigestInput_header (headerFront_length size) hid']

/-- `memcpy` of the id into the header. -/
theorem insert_packageId (size : ℕ) {zeros : List UInt8} (hzeros : zeros.length = packageIdBytes) :
    (headerWritten size zeros ++ tables).take packageIdOffset ++ packageId ++
        (headerWritten size zeros ++ tables).drop (packageIdOffset + packageIdBytes) =
      headerWritten size packageId ++ tables := by
  have hlength : (headerFront size ++ zeros).length = packageIdOffset + packageIdBytes := by
    rw [List.length_append, headerFront_length, hzeros]
  have htake : (headerFront size ++ zeros ++ tables).take packageIdOffset = headerFront size := by
    rw [List.append_assoc, List.take_left' (headerFront_length size)]
  rw [headerWritten_eq, headerWritten_eq, List.drop_left' hlength, htake]

theorem targetPackageDigest_written (receipt : CompileReceipt) (rows : List Row) :
    targetPackageDigest blake3 (packageWritten blake3 receipt rows) = packageIdOf blake3 receipt rows :=
  targetPackageDigest_header blake3 _ (digestBytes_length _) (List.length_replicate ..)

theorem packageWritten_length (receipt : CompileReceipt) (rows : List Row) :
    (packageWritten blake3 receipt rows).length = packageSize rows := by
  rw [packageWritten, List.length_append, headerWritten_length, tablesWritten_length, packageSize,
    Nat.add_assoc]

theorem packagePieces_flatten (required : ℕ) (packageId : List UInt8) (result : CompileResult)
    (receipt : CompileReceipt) : (packagePieces required packageId result receipt).flatten =
      headerWritten required packageId ++ tablesWritten (receipt, result.rows) := by
  have hrows : (result.rows.flatMap rowPieces).flatten = rowsWritten result.rows := by
    rw [rowsWritten]
    induction result.rows with
    | nil => rfl
    | cons row rows ih => rw [List.flatMap_cons, List.flatten_append, ih, List.flatMap_cons]
  rw [packagePieces, List.flatten_append, List.flatten_append, hrows]
  simp [headerWritten, tablesWritten]

theorem run_measure_iff :
    (measureCompileArtifact blake3 result receipt).reader.run bytes = some (total, rest) ↔
      ArtifactValid blake3 result receipt ∧ total = packageSize result.rows ∧
        packageSize result.rows ≤ sizeMax ∧ rest = bytes := by
  have hmeasure (total : ℕ) := @measureRows_eq result.rows
    (packageHeaderBytes + compileReceiptEncodedBytes) total (by decide)
  unfold measureCompileArtifact
  rw [run_bind_eq_some]
  constructor
  · rintro ⟨⟨⟩, middle, hvalidate, hrun⟩
    obtain ⟨hvalid, rfl⟩ := run_validate_iff.1 hvalidate
    cases hrows : measureRows result.rows (packageHeaderBytes + compileReceiptEncodedBytes) with
    | none =>
      rw [hrows] at hrun
      cases hrun
    | some measured =>
      rw [hrows] at hrun
      cases hrun
      obtain ⟨rfl, hle⟩ := (hmeasure _).1 hrows
      exact ⟨hvalid, rfl, hle, rfl⟩
  · rintro ⟨hvalid, rfl, hle, rfl⟩
    refine ⟨(), rest, run_validate_iff.2 ⟨hvalid, rfl⟩, ?_⟩
    rw [(hmeasure _).2 ⟨rfl, hle⟩]
    rfl

/-- **What the encoder writes.** -/
theorem run_encode_iff {capacity : ℕ} {output : List UInt8} {packageReceipt : PackageReceipt} :
    (encode blake3 result receipt capacity).reader.run bytes = some ((output, packageReceipt), rest) ↔
      ArtifactValid blake3 result receipt ∧ packageSize result.rows ≤ sizeMax ∧
        packageSize result.rows ≤ capacity ∧ output = packageWritten blake3 receipt result.rows ∧
        packageReceipt = fillPackageReceipt (packageIdOf blake3 receipt result.rows)
          (packageSize result.rows) receipt ∧ rest = bytes := by
  have hzeros : (List.replicate packageIdBytes (0 : UInt8)).length = packageIdBytes :=
    List.length_replicate ..
  have hpieces := packagePieces_flatten (packageSize result.rows) (List.replicate packageIdBytes 0)
    result receipt
  have hlength : (packagePieces (packageSize result.rows) (List.replicate packageIdBytes 0) result
      receipt).flatten.length = packageSize result.rows := by
    rw [hpieces, List.length_append, headerWritten_eq, List.length_append, headerFront_length,
      hzeros, tablesWritten_length, packageSize, Nat.add_assoc packageHeaderBytes]
    rfl
  unfold encode
  simp only [@run_bind_eq_some _ _ _ (measureCompileArtifact blake3 result receipt),
    run_measure_iff, run_require_then]
  constructor
  · rintro ⟨_, _, ⟨hvalid, rfl, hle, rfl⟩, hcapacity, hrun⟩
    split at hrun
    · cases hrun
    · rename_i written hwritten
      obtain ⟨-, hrun⟩ := run_require_then.1 hrun
      rw [writeAll_some hwritten, List.nil_append, hpieces, insert_packageId _ hzeros] at hrun
      cases hrun
      exact ⟨hvalid, hle, hcapacity, rfl, rfl, rfl⟩
  · rintro ⟨hvalid, hle, hcapacity, rfl, rfl, rfl⟩
    refine ⟨_, _, ⟨hvalid, rfl, hle, rfl⟩, hcapacity, ?_⟩
    rw [writeAll_eq (by rw [List.nil_append, hlength]; exact hcapacity), List.nil_append]
    dsimp only
    rw [run_require_then]
    refine ⟨hlength, ?_⟩
    rw [hpieces, insert_packageId _ hzeros]
    rfl

theorem run_decode_steps {input : List UInt8} {package : Package} :
    (decode blake3 input).reader.run input = some (package, rest) ↔
      packageHeaderBytes + compileReceiptEncodedBytes ≤ input.length ∧ ∃ middle,
        (readHeader input.length (targetPackageDigest blake3 input)).reader.run input =
          some ((), middle) ∧ ∃ receipt rows,
        readTables.reader.run middle = some ((receipt, rows), rest) ∧ rest.length = 0 ∧
        ArtifactValid blake3 (CompileResult.ofRows rows) receipt ∧
        package = ⟨CompileResult.ofRows rows, receipt,
          fillPackageReceipt (targetPackageDigest blake3 input) input.length receipt⟩ := by
  unfold decode
  rw [run_remaining_then, run_require_then, run_bind_eq_some]
  refine and_congr_right fun _ => ?_
  constructor
  · rintro ⟨⟨⟩, middle, hheader, hrun⟩
    obtain ⟨⟨receipt, rows⟩, last, htables, hrun⟩ := run_bind_eq_some.1 hrun
    dsimp only at hrun
    rw [run_remaining_then, run_require_then, run_bind_eq_some] at hrun
    obtain ⟨hlast, ⟨⟩, _, hvalidate, hrun⟩ := hrun
    obtain ⟨hvalid, rfl⟩ := run_validate_iff.1 hvalidate
    obtain ⟨rfl, rfl⟩ := Prod.mk.inj (Option.some.inj hrun)
    exact ⟨middle, hheader, receipt, rows, htables, hlast, hvalid, rfl⟩
  · rintro ⟨middle, hheader, receipt, rows, htables, hlast, hvalid, rfl⟩
    refine ⟨(), middle, hheader, run_bind_eq_some.2 ⟨(receipt, rows), rest, htables, ?_⟩⟩
    dsimp only
    rw [run_remaining_then, run_require_then, run_bind_eq_some]
    exact ⟨hlast, (), rest, run_validate_iff.2 ⟨hvalid, rfl⟩, rfl⟩

/-- **What the decoder accepts.** -/
theorem run_decode_iff {input : List UInt8} {package : Package} :
    (decode blake3 input).reader.run input = some (package, rest) ↔
      ∃ receipt rows, TablesFit (receipt, rows) ∧
        ArtifactValid blake3 (CompileResult.ofRows rows) receipt ∧ packageSize rows ≤ sizeMax ∧
        input = packageWritten blake3 receipt rows ∧ package = ⟨CompileResult.ofRows rows, receipt,
          fillPackageReceipt (packageIdOf blake3 receipt rows) (packageSize rows) receipt⟩ ∧ rest = [] := by
  have hheader := reads_header input.length (targetPackageDigest blake3 input)
  rw [run_decode_steps]
  constructor
  · rintro ⟨-, middle, hfirst, receipt, rows, hsecond, hlast, hvalid, rfl⟩
    obtain rfl := List.length_eq_zero_iff.1 hlast
    obtain ⟨hsize, hinput⟩ := hheader.canonical _ _ _ hfirst
    obtain ⟨hfit, rfl⟩ := reads_tables.canonical _ _ _ hsecond
    rw [List.append_nil] at hinput
    have hlength : input.length = packageSize rows := by
      rw [hinput, List.length_append, headerWritten_length, tablesWritten_length, packageSize,
        Nat.add_assoc]
    have hid : targetPackageDigest blake3 input = packageIdOf blake3 receipt rows := by
      conv_lhs => rw [hinput, hlength]
      exact targetPackageDigest_header blake3 _ (digestBytes_length _) (List.length_replicate ..)
    rw [hlength] at hsize
    rw [hlength, hid] at hinput
    rw [hlength, hid]
    exact ⟨receipt, rows, hfit, hvalid, Nat.le_of_lt_succ hsize, hinput, rfl, rfl⟩
  · rintro ⟨receipt, rows, hfit, hvalid, hle, rfl, rfl, rfl⟩
    have hsecond := reads_tables.accepts (receipt, rows) [] hfit
    rw [packageWritten_length, targetPackageDigest_written] at hheader ⊢
    rw [List.append_nil] at hsecond
    exact ⟨Nat.le_add_right _ _, _, hheader.accepts () _ (Nat.lt_succ_of_le hle), receipt, rows,
      hsecond, rfl, hvalid, rfl⟩

/-! ## The codec -/

theorem rowBytes_le_sum {row : Row} {rows : List Row} (h : row ∈ rows) :
    rowBytes row ≤ (rows.map rowBytes).sum := List.le_sum_of_mem (List.mem_map_of_mem h)

theorem length_le_sum : ∀ rows : List Row, slotReceiptEncodedBytes * rows.length ≤ (rows.map rowBytes).sum
  | [] => Nat.zero_le _
  | row :: rows => by
    have hrest := length_le_sum rows
    have hrow : slotReceiptEncodedBytes ≤ rowBytes row := Nat.le_add_right _ _
    rw [List.length_cons, List.map_cons, List.sum_cons, Nat.mul_succ]
    omega

theorem ArtifactValid.tablesFit (h : ArtifactValid blake3 result receipt)
    (hsize : packageSize result.rows ≤ objectLimit) : TablesFit (receipt, result.rows) := by
  obtain ⟨hnonempty, hmatrices, hrhs, hcount⟩ := receiptValid_tables h.receiptValid
  have hlength := rows_length hmatrices hrhs
  have hsum := length_le_sum result.rows
  unfold packageSize at hsize
  refine ⟨?_, ?_, ?_, fun row hrow => ?_⟩
  · rw [hcount, hlength]
  · intro hzero
    have hzero : receipt.slotCount = 0 := hzero
    rw [hzero] at hcount
    exact hnonempty (List.length_eq_zero_iff.1 hcount.symm)
  · change receipt.slotCount.toNat ≤ objectLimit / slotReceiptEncodedBytes
    rw [hcount, ← hlength, Nat.le_div_iff_mul_le (by decide), Nat.mul_comm]
    omega
  · obtain ⟨hmatrix, hvalues⟩ := h.counts row hrow
    have hrowBytes : slotReceiptEncodedBytes + 8 * (row.2.1.length + row.2.2.length) ≤
        (result.rows.map rowBytes).sum := rowBytes_le_sum hrow
    refine ⟨hmatrix, hvalues, ?_, ?_⟩
    · rw [maxSize, Nat.le_div_iff_mul_le (by decide)]
      omega
    · rw [maxSize, Nat.le_div_iff_mul_le (by decide)]
      omega

/-- A package is accepted. -/
def Accepted (blake3 : Blake3) (bytes : List UInt8) : Prop :=
  ∃ memory package, (decode blake3 bytes).ends memory bytes = .returned package

/-- The id in the header. -/
def storedPackageId (bytes : List UInt8) : List UInt8 :=
  (bytes.drop packageIdOffset).take packageIdBytes

theorem Accepted.written (h : Accepted blake3 bytes) :
    ∃ receipt rows, packageSize rows ≤ sizeMax ∧ bytes = packageWritten blake3 receipt rows := by
  obtain ⟨memory, package, hends⟩ := h
  obtain ⟨rest, hrun⟩ := reader_of_run _ (Nat.zero_le _) hends
  obtain ⟨receipt, rows, -, -, hsize, hbytes, -⟩ := run_decode_iff.1 hrun
  exact ⟨receipt, rows, hsize, hbytes⟩

theorem Accepted.storedPackageId_eq (h : Accepted blake3 bytes) :
    storedPackageId bytes = (targetPackageDigest blake3 bytes).bytes := by
  obtain ⟨receipt, rows, -, rfl⟩ := h.written
  rw [targetPackageDigest_written, storedPackageId, packageWritten, headerWritten_eq,
    List.append_assoc, List.drop_left' (headerFront_length _),
    List.take_left' (show _ = packageIdBytes from digestBytes_length _)]

theorem Accepted.length_le (h : Accepted blake3 bytes) : packageHeaderBytes ≤ bytes.length := by
  obtain ⟨receipt, rows, -, rfl⟩ := h.written
  rw [packageWritten_length, packageSize, Nat.add_assoc]
  exact Nat.le_add_right _ _

theorem headerFront_inj {size size' : ℕ} {rest' : List UInt8} (hsize : size ≤ sizeMax)
    (hsize' : size' ≤ sizeMax) (h : headerFront size ++ rest = headerFront size' ++ rest') :
    size = size' := by
  unfold headerFront at h
  simp only [List.append_assoc, List.append_cancel_left_eq, u64_append_inj] at h
  have hlt : size < UInt64.size := Nat.lt_succ_of_le hsize
  have hlt' : size' < UInt64.size := Nat.lt_succ_of_le hsize'
  rw [← Checked.toNat_ofNat hlt, ← Checked.toNat_ofNat hlt', h.1]

theorem Accepted.append_eq {more : List UInt8} (h : Accepted blake3 bytes)
    (hlonger : Accepted blake3 (bytes ++ more)) : more = [] := by
  obtain ⟨receipt, rows, hsize, hbytes⟩ := h.written
  obtain ⟨receipt', rows', hsize', hbytes'⟩ := hlonger.written
  have hlength := congrArg List.length hbytes
  have hlength' := congrArg List.length hbytes'
  rw [List.length_append] at hlength'
  rw [packageWritten_length] at hlength hlength'
  rw [hbytes, packageWritten, packageWritten, headerWritten_eq, headerWritten_eq] at hbytes'
  simp only [List.append_assoc] at hbytes'
  have heq := headerFront_inj hsize hsize' hbytes'
  exact List.length_eq_zero_iff.1 (by omega)

theorem split_package : bytes = bytes.take packageIdOffset ++
    (storedPackageId bytes ++ bytes.drop packageHeaderBytes) := by
  have hdrop : bytes.drop packageHeaderBytes = (bytes.drop packageIdOffset).drop packageIdBytes := by
    rw [List.drop_drop]
    rfl
  rw [hdrop, storedPackageId, List.take_append_drop, List.take_append_drop]

theorem packageDigestInput_inj {bytes' : List UInt8} (hlength : packageHeaderBytes ≤ bytes.length)
    (hlength' : packageHeaderBytes ≤ bytes'.length)
    (h : packageDigestInput bytes = packageDigestInput bytes') :
    bytes.take packageIdOffset = bytes'.take packageIdOffset ∧
      bytes.drop packageHeaderBytes = bytes'.drop packageHeaderBytes := by
  unfold packageHeaderBytes at hlength hlength'
  unfold packageDigestInput at h
  simp only [List.append_assoc, List.append_cancel_left_eq] at h
  have htake : (bytes.take packageIdOffset).length = (bytes'.take packageIdOffset).length := by
    rw [List.length_take, List.length_take, packageIdOffset]
    omega
  obtain ⟨hfront, hrest⟩ := List.append_inj h htake
  exact ⟨hfront, List.append_cancel_left hrest⟩

theorem Accepted.eq_of {bytes' : List UInt8} (h : Accepted blake3 bytes) (h' : Accepted blake3 bytes')
    (hfree : blake3 (packageDigestInput bytes) = blake3 (packageDigestInput bytes') →
      packageDigestInput bytes = packageDigestInput bytes')
    (hsame : storedPackageId bytes' = storedPackageId bytes ∨
      packageDigestInput bytes' = packageDigestInput bytes) : bytes' = bytes := by
  have hboth : storedPackageId bytes' = storedPackageId bytes ∧
      packageDigestInput bytes' = packageDigestInput bytes := by
    rcases hsame with hid | hinput
    · refine ⟨hid, (hfree ?_).symm⟩
      rw [h.storedPackageId_eq, h'.storedPackageId_eq] at hid
      have hdigests := Layout.store_injective _ ((digest_bytes_eq _).symm.trans
        (hid.symm.trans (digest_bytes_eq _)))
      exact hdigests
    · refine ⟨?_, hinput⟩
      rw [h.storedPackageId_eq, h'.storedPackageId_eq, targetPackageDigest, targetPackageDigest, hinput]
  obtain ⟨hfront, hrest⟩ := packageDigestInput_inj h'.length_le h.length_le hboth.2
  rw [@split_package bytes', @split_package bytes, hfront, hrest, hboth.1]

/-- **The codec.** What is encoded is decoded as it was, what is decoded is encoded as it was. No
beginning and no continuation of an accepted package is accepted, and where the hash does not
collide, no package that differs from it in the id alone or keeps the id. -/
theorem package_codec (blake3 : Blake3) :
    (∀ result receipt (capacity : Routine.ObjectSize) memory input bytes packageReceipt,
      (encode blake3 result receipt capacity).ends memory input = .returned (bytes, packageReceipt) →
        (decode blake3 bytes).ends unlimited bytes = .returned ⟨result, receipt, packageReceipt⟩ ∧
          ∀ memory', (decode blake3 bytes).ends memory' bytes =
              .returned ⟨result, receipt, packageReceipt⟩ ∨
            ∃ error, (decode blake3 bytes).ends memory' bytes = .refused error) ∧
    (∀ bytes memory package, (decode blake3 bytes).ends memory bytes = .returned package →
      ∀ (capacity : Routine.ObjectSize) input, bytes.length ≤ capacity →
        (encode blake3 package.compiled package.compileReceipt capacity).ends unlimited
          input = .returned (bytes, package.receipt)) ∧ (∀ bytes, Accepted blake3 bytes →
      (∀ count < bytes.length, ¬ Accepted blake3 (bytes.take count)) ∧
      (∀ more, more ≠ [] → ¬ Accepted blake3 (bytes ++ more)) ∧ ∀ bytes', bytes' ≠ bytes →
        (blake3 (packageDigestInput bytes) = blake3 (packageDigestInput bytes') →
          packageDigestInput bytes = packageDigestInput bytes') →
        (storedPackageId bytes' = storedPackageId bytes ∨
          packageDigestInput bytes' = packageDigestInput bytes) → ¬ Accepted blake3 bytes') := by
  refine ⟨?_, ?_, fun bytes h => ⟨fun count hcount hshorter => ?_, fun more hmore hlonger => ?_,
    fun bytes' hne hfree hsame h' => hne (h.eq_of h' hfree hsame)⟩⟩
  · intro result receipt capacity memory input bytes packageReceipt hends
    obtain ⟨rest, hrun⟩ := reader_of_run _ (Nat.zero_le _) hends
    obtain ⟨hvalid, hsize, hcapacity, rfl, rfl, rfl⟩ := run_encode_iff.1 hrun
    obtain ⟨-, hmatrices, hrhs, -⟩ := receiptValid_tables hvalid.receiptValid
    have hround := ofRows_rows hmatrices hrhs
    have hdecode := run_decode_iff.2 ⟨receipt, result.rows,
      hvalid.tablesFit (hcapacity.trans capacity.2), hround.symm ▸ hvalid, hsize, rfl, rfl, rfl⟩
    rw [hround] at hdecode
    have hreturned := returned_iff.2 ⟨_, hdecode⟩
    exact ⟨hreturned, fun memory' => (returned_any hreturned memory').imp_right And.right⟩
  · intro bytes memory package hends capacity input hcapacity
    obtain ⟨rest, hrun⟩ := reader_of_run _ (Nat.zero_le _) hends
    obtain ⟨receipt, rows, -, hvalid, hsize, rfl, rfl, -⟩ := run_decode_iff.1 hrun
    rw [packageWritten_length] at hcapacity
    have hencode : (encode blake3 (CompileResult.ofRows rows) receipt capacity).reader.run input =
        some ((packageWritten blake3 receipt rows,
          fillPackageReceipt (packageIdOf blake3 receipt rows) (packageSize rows) receipt), input) := by
      rw [run_encode_iff, rows_ofRows]
      exact ⟨hvalid, hsize, hcapacity, rfl, rfl, rfl⟩
    exact returned_iff.2 ⟨_, hencode⟩
  · have hdrop := @Accepted.append_eq _ _ (bytes.drop count) hshorter
      (by rw [List.take_append_drop]; exact h)
    rw [List.drop_eq_nil_iff] at hdrop
    omega
  · exact hmore (h.append_eq hlonger)

/-! ### One package and another -/

/-- A hash that adds up the bytes. -/
def sumHash (bytes : List UInt8) : Digest256 :=
  BitVec.ofNat 256 (1 + (bytes.map UInt8.toNat).sum)

/-- A slot with one field, of a layer. -/
def oneFieldSlot (layer : UInt32) : SlotReceipt :=
  let slot : SlotReceipt := ⟨0, 0, 0, 0, 0, 0, 0, 0, 0, 1, 1, 1, 1, 1, layer, 0, 0, 1, compileOk⟩
  targetSlotIdentify sumHash
    { slot with matrixFingerprint := targetMatrixFingerprint sumHash slot [0x3ff0000000000000] [0] }

def oneFieldRows (layers : List UInt32) : List Row :=
  layers.map fun layer => (oneFieldSlot layer, [0x3ff0000000000000], [0])

/-- The receipt of the slots of the layers, for an evidence boundary. -/
def oneFieldReceipt (layers : List UInt32) (boundary : Digest256) : CompileReceipt :=
  let count := UInt64.ofNat layers.length
  let receipt : CompileReceipt :=
    ⟨0, 1, boundary, 1, 1, 1, count, 1, count, count, 0, compileOk, compileVersion, 0⟩
  { receipt with receiptId := reidentifyCompileReceipt sumHash receipt (layers.map oneFieldSlot) }

theorem oneField_accepted {boundary : Digest256}
    (hvalid : ArtifactValid sumHash (CompileResult.ofRows (oneFieldRows [0, 1]))
      (oneFieldReceipt [0, 1] boundary)) :
    Accepted sumHash (packageWritten sumHash (oneFieldReceipt [0, 1] boundary) (oneFieldRows [0, 1])) :=
  ⟨_, _, returned_iff.2 ⟨_, run_decode_iff.2 ⟨_, _, hvalid.tablesFit (by decide), hvalid,
    by decide, rfl, rfl, rfl⟩⟩⟩

theorem package_codec_extended :
    ¬ Accepted sumHash (packageWritten sumHash (oneFieldReceipt [0, 1] 1) (oneFieldRows [0, 1]) ++ [0]) :=
  ((package_codec sumHash).2.2 _ (oneField_accepted (by decide +kernel))).2.1 [0] (by decide)

/-- The evidence boundary is under no digest but the id of the package: with another boundary and
the id that belongs to it, a package is accepted. -/
theorem package_codec_altered : ¬ ∀ (blake3 : Blake3) (bytes bytes' : List UInt8),
    Accepted blake3 bytes → bytes' ≠ bytes →
      (blake3 (packageDigestInput bytes) = blake3 (packageDigestInput bytes') →
        packageDigestInput bytes = packageDigestInput bytes') → ¬ Accepted blake3 bytes' := by
  intro h
  refine h sumHash _ _ (@oneField_accepted 1 (by decide +kernel)) ?_ ?_
    (@oneField_accepted 2 (by decide +kernel))
  · decide +kernel
  · exact fun heq => absurd heq (by decide +kernel)

end Laplace.Target
