import Laplace.Target.Codec

/-!
# Where the decoder of packages does harm (target_package.inc:454-597)

The number of slots is not compared with what is left of the input before the three tables are made
so long, and the overflow check of a slot divides by its number of fields before anything says that
there are any. Nothing else goes wrong.
-/

namespace Laplace.Target

open Packets Reader Routine

variable {blake3 : Blake3}

/-! ## Slots without fields -/

/-- What is checked of a slot before the division. -/
def CountsMatch (row : Row) : Prop :=
  targetRoleValid row.1.targetRole = true ∧ row.1.status = compileOk ∧
    row.1.fieldCount.toNat = row.2.2.length ∧ row.1.matrixValueCount.toNat = row.2.1.length ∧
    row.1.rhsValueCount.toNat = row.2.2.length

/-- The validation comes to a slot without fields whose counts match: the slots before it are
valid. -/
def ReachesEmptySlot (blake3 : Blake3) : Option SlotReceipt → List Row → Totals → Prop
  | _, [], _ => False
  | prior, row :: rows, totals =>
    CountsMatch row ∧ row.1.fieldCount = 0 ∨ ∃ totals' rest,
      (validateRow blake3 prior row totals).reader.run [] = some (totals', rest) ∧
        ReachesEmptySlot blake3 (some row.1) rows totals'

variable {bytes : List UInt8}

theorem sound_validateRow {prior : Option SlotReceipt} {row : Row} {totals : Totals} :
    (validateRow blake3 prior row totals).Sound bytes ↔ ¬ (CountsMatch row ∧ row.1.fieldCount = 0) := by
  unfold validateRow CountsMatch
  dsimp only
  rw [sound_require_then, sound_quotient_then, not_and]
  refine forall_congr' fun _ => and_iff_left ?_
  simp only [sound_require_then, sound_pure, implies_true]

theorem sound_validateRows : ∀ {rows : List Row} {prior : Option SlotReceipt} {totals : Totals}
    {bytes : List UInt8}, (validateRows blake3 prior rows totals).Sound bytes ↔
      ¬ ReachesEmptySlot blake3 prior rows totals
  | [], _, _, _ => iff_of_true trivial fun h => h
  | row :: rows, prior, totals, bytes => by
    rw [validateRows, sound_bind, sound_validateRow, ReachesEmptySlot, not_or]
    refine and_congr_right fun _ => ?_
    simp only [sound_validateRows]
    constructor
    · rintro h ⟨totals', rest, hrun, hreaches⟩
      exact h totals' bytes ((idle_validateRow prior row totals _ _ _ hrun).2 bytes) hreaches
    · intro h totals' rest hrun hreaches
      exact h ⟨totals', [], (idle_validateRow prior row totals _ _ _ hrun).2 [], hreaches⟩

theorem sound_validateCompileArtifact {result : CompileResult} {receipt : CompileReceipt} :
    (validateCompileArtifact blake3 result receipt).Sound bytes ↔
      (receiptValid result receipt = true → ¬ ReachesEmptySlot blake3 none result.rows {}) := by
  unfold validateCompileArtifact
  rw [sound_require_then, sound_bind, sound_validateRows]
  refine forall_congr' fun _ => and_iff_left fun _ _ _ => ?_
  exact sound_require_then.2 fun _ => sound_require ..

/-! ## Reading -/

theorem sound_readCompileReceipt (bytes : List UInt8) : readCompileReceipt.Sound bytes := by
  unfold readCompileReceipt
  simp

theorem sound_readSlotReceipt (bytes : List UInt8) : readSlotReceipt.Sound bytes := by
  unfold readSlotReceipt
  simp

theorem sound_readHeader (size : ℕ) (packageId : Digest256) (input : List UInt8) :
    (readHeader size packageId).Sound input := by
  unfold readHeader
  simp

theorem sound_readRow (h : bytes.length ≤ objectLimit) : readRow.Sound bytes := by
  unfold readRow
  refine sound_bind.2 ⟨sound_readSlotReceipt _, fun slot rest hrun => ?_⟩
  have hrest := length_of_reader _ hrun
  rw [sound_remaining_then, sound_require_then, sound_resize_then,
    sound_resize_then]
  rintro ⟨valueBytes, hvalueBytes, hleft⟩
  obtain ⟨rfl, -⟩ := announcedBytes_eq.1 hvalueBytes
  have hvalues (count : ℕ) (left : List UInt8) :
      (many (u64 PackageStatus.invalidFormat) count).Sound left :=
    @sound_many _ _ _ left.length (fun _ _ => sound_u64 _ _) count _ le_rfl
  refine ⟨by omega, ?_, by omega, ?_, sound_bind.2 ⟨hvalues _ _, fun _ _ _ =>
    sound_bind.2 ⟨hvalues _ _, fun _ _ _ => sound_pure ..⟩⟩⟩
  · rw [maxSize, Nat.le_div_iff_mul_le (by decide)]
    omega
  · rw [maxSize, Nat.le_div_iff_mul_le (by decide)]
    omega

/-- The slot count is bounded by what is left behind the compile receipt, and by what a vector can
hold. -/
def SlotCountBounded (receipt : CompileReceipt) (left : ℕ) : Prop :=
  receipt.slotCount.toNat ≤ left ∧ receipt.slotCount.toNat ≤ maxSize slotReceiptEncodedBytes

theorem sound_readTables (hobject : bytes.length ≤ objectLimit) (hnonempty : bytes ≠ []) :
    readTables.Sound bytes ↔ ∀ receipt rest,
      bytes = (compileReceiptPieces receipt).flatten ++ rest → receipt.slotCount ≠ 0 →
        SlotCountBounded receipt rest.length := by
  have hone : 1 ≤ bytes.length := List.length_pos_of_ne_nil hnonempty
  unfold readTables
  rw [sound_resize_then, sound_bind, and_iff_right hone,
    and_iff_right (show 1 ≤ maxSize packageObjectBytes by decide),
    and_iff_right (sound_readCompileReceipt bytes)]
  constructor
  · rintro h receipt rest rfl hcount
    have hrest := h receipt rest (reads_compileReceipt.accepts receipt rest trivial)
    rw [sound_require_then, sound_resize_then] at hrest
    exact ⟨(hrest hcount).1, (hrest hcount).2.1⟩
  · intro h receipt rest hrun
    obtain ⟨-, rfl⟩ := reads_compileReceipt.canonical _ _ _ hrun
    rw [sound_require_then, sound_resize_then, sound_resize_then,
      sound_resize_then]
    intro hcount
    obtain ⟨hleft, hmax⟩ := h receipt rest rfl hcount
    have hsmaller : receipt.slotCount.toNat ≤ maxSize 24 := hmax.trans (by decide)
    rw [List.length_append] at hobject
    exact ⟨hleft, hmax, hleft, hsmaller, hleft, hsmaller, sound_bind.2
      ⟨@sound_many _ _ _ objectLimit (fun _ => sound_readRow) _ _ (by omega),
        fun _ _ _ => sound_pure ..⟩⟩

/-! ## The decoder -/

/-- A header that is accepted stands before something. -/
def Headed (blake3 : Blake3) (input rest : List UInt8) : Prop :=
  packageHeaderBytes + compileReceiptEncodedBytes ≤ input.length ∧
    input = headerWritten input.length (targetPackageDigest blake3 input).bytes ++ rest

/-- The inputs that the decoder can bear: behind an accepted header and a compile receipt, the slot
count is bounded; and a package with a valid receipt is not one in which the validation comes to a
slot without fields. -/
structure Bearable (blake3 : Blake3) (input : List UInt8) : Prop where
  count : ∀ receipt rest, Headed blake3 input ((compileReceiptPieces receipt).flatten ++ rest) →
    receipt.slotCount ≠ 0 → SlotCountBounded receipt rest.length
  fields : ∀ receipt rows, input = packageWritten blake3 receipt rows → TablesFit (receipt, rows) →
    receiptValid (CompileResult.ofRows rows) receipt = true →
      ¬ ReachesEmptySlot blake3 none rows {}

variable {input : List UInt8}

theorem headed_iff {rest : List UInt8} (hobject : input.length ≤ objectLimit) :
    Headed blake3 input rest ↔ packageHeaderBytes + compileReceiptEncodedBytes ≤ input.length ∧
      (readHeader input.length (targetPackageDigest blake3 input)).reader.run input = some ((), rest) := by
  have hheader := reads_header input.length (targetPackageDigest blake3 input)
  have hsize : input.length < UInt64.size := hobject.trans_lt (by decide)
  refine and_congr_right fun _ => ⟨fun h => ?_, fun h => (hheader.canonical _ _ _ h).2⟩
  have haccepts := hheader.accepts () rest hsize
  rwa [← h] at haccepts

theorem sound_decode_steps (hobject : input.length ≤ objectLimit) :
    (decode blake3 input).Sound input ↔ ∀ rest, Headed blake3 input rest → readTables.Sound rest ∧
      ∀ receipt rows, readTables.reader.run rest = some ((receipt, rows), []) →
        receiptValid (CompileResult.ofRows rows) receipt = true →
          ¬ ReachesEmptySlot blake3 none rows {} := by
  unfold decode
  rw [sound_remaining_then, sound_require_then, sound_bind,
    and_iff_right (sound_readHeader _ _ _)]
  simp only [headed_iff hobject, and_imp, @sound_bind _ _ _ _ readTables]
  refine ⟨fun h rest hlength hrun => ⟨(h hlength () rest hrun).1, fun receipt rows htables => ?_⟩,
    fun h hlength _ rest hrun => ⟨(h rest hlength hrun).1, ?_⟩⟩
  · have hlast := (h hlength () rest hrun).2 (receipt, rows) [] htables
    dsimp only at hlast
    rw [sound_remaining_then, sound_require_then, sound_bind,
      sound_validateCompileArtifact, rows_ofRows] at hlast
    exact (hlast rfl).1
  · rintro ⟨receipt, rows⟩ last htables
    dsimp only
    rw [sound_remaining_then, sound_require_then, sound_bind,
      sound_validateCompileArtifact, rows_ofRows]
    intro hlast
    obtain rfl := List.length_eq_zero_iff.1 hlast
    exact ⟨(h rest hlength hrun).2 receipt rows htables, fun _ _ _ => sound_pure ..⟩

/-- **Where the decoder does no harm.** -/
theorem decode_total_iff (hobject : input.length ≤ objectLimit) :
    (decode blake3 input).Total input ↔ Bearable blake3 input := by
  rw [total_iff, sound_decode_steps hobject]
  have hrest {rest : List UInt8} (h : Headed blake3 input rest) :
      rest.length ≤ objectLimit ∧ rest ≠ [] := by
    have hlength := congrArg List.length h.2
    rw [List.length_append, headerWritten_length] at hlength
    have hle := h.1
    refine ⟨by omega, fun hnil => ?_⟩
    rw [hlength, hnil] at hle
    exact absurd hle (by decide)
  constructor
  · intro h
    refine ⟨fun receipt rest hheaded => ?_, fun receipt rows hinput hfit => ?_⟩
    · obtain ⟨hobject', hnonempty⟩ := hrest hheaded
      exact (sound_readTables hobject' hnonempty).1 (h _ hheaded).1 receipt rest rfl
    · have htables := reads_tables.accepts (receipt, rows) [] hfit
      rw [List.append_nil] at htables
      refine (h (tablesWritten (receipt, rows)) ⟨?_, ?_⟩).2 receipt rows htables
      · rw [hinput, packageWritten_length, packageSize]
        exact Nat.le_add_right _ _
      · rw [hinput, packageWritten_length, targetPackageDigest_written, packageWritten]
  · intro h rest hheaded
    obtain ⟨hobject', hnonempty⟩ := hrest hheaded
    refine ⟨(sound_readTables hobject' hnonempty).2 fun receipt left hleft => ?_,
      fun receipt rows hrun => ?_⟩
    · exact h.count receipt left (hleft ▸ hheaded)
    · obtain ⟨hfit, rfl⟩ := reads_tables.canonical _ _ _ hrun
      rw [List.append_nil] at hheaded
      refine h.fields receipt rows ?_ hfit
      have hlength : input.length = packageSize rows := by
        rw [hheaded.2, List.length_append, headerWritten_length, tablesWritten_length, packageSize,
          Nat.add_assoc]
      have hid : targetPackageDigest blake3 input = packageIdOf blake3 receipt rows := by
        conv_lhs => rw [hheaded.2, hlength]
        exact targetPackageDigest_header blake3 _ (digestBytes_length _) (List.length_replicate ..)
      rw [packageWritten, ← hlength, ← hid]
      exact hheaded.2

end Laplace.Target
