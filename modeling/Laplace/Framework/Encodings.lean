import Laplace.Fields
import Laplace.Framework.Run

/-!
# The hashed strings tell their values apart

Every field has a fixed width, except for two: the epochs of a context, which its mask says, and
the bytes of a batch, which its byte count says.
-/

namespace Laplace.Framework

/-! ## Contexts -/

theorem u16Bytes_eq (value : UInt16) : u16Bytes value = storeU16 value := by
  rw [u16Bytes, storeU16, List.cons.injEq]
  refine ⟨?_, rfl⟩
  rw [← UInt8.toNat_inj, UInt16.toNat_toUInt8, UInt16.toNat_toUInt8, UInt16.toNat_and]
  exact (congrArg (· % 2 ^ 8) (Nat.and_two_pow_sub_one_eq_mod value.toNat 8)).trans
    (Nat.mod_mod _ _)

variable {rest rest' : List UInt8}

theorem u16Bytes_append_inj {left right : UInt16} :
    u16Bytes left ++ rest = u16Bytes right ++ rest' ↔ left = right ∧ rest = rest' := by
  rw [u16Bytes_eq, u16Bytes_eq, u16_append_inj]

/-- The epochs that a mask has bits for, among some. -/
def epochBytes (mask : UInt64) (epochs : Fin epochCount → Digest256)
    (indices : List (Fin epochCount)) : List UInt8 :=
  indices.flatMap fun index : Fin epochCount =>
    if mask &&& ((1 : UInt64) <<< UInt64.ofNat index) ≠ 0 then
      u32Bytes (UInt32.ofNat index) ++ (epochs index).bytes
    else []

theorem epochBytes_append_inj {mask : UInt64} {left right : Fin epochCount → Digest256} :
    ∀ {indices : List (Fin epochCount)},
    epochBytes mask left indices ++ rest = epochBytes mask right indices ++ rest' →
      (∀ index ∈ indices, mask &&& ((1 : UInt64) <<< UInt64.ofNat index) ≠ 0 →
        left index = right index) ∧ rest = rest'
  | [], h => ⟨fun _ hmem => absurd hmem List.not_mem_nil, h⟩
  | index :: indices, h => by
    rw [epochBytes, epochBytes, List.flatMap_cons, List.flatMap_cons] at h
    by_cases hpresent : mask &&& ((1 : UInt64) <<< UInt64.ofNat index) ≠ 0
    · rw [if_pos hpresent, if_pos hpresent] at h
      simp only [List.append_assoc, List.append_cancel_left_eq, digest_append_inj] at h
      obtain ⟨hindices, hrest⟩ := epochBytes_append_inj h.2
      exact ⟨List.forall_mem_cons.2 ⟨fun _ => h.1, hindices⟩, hrest⟩
    · rw [if_neg hpresent, if_neg hpresent] at h
      obtain ⟨hindices, hrest⟩ := epochBytes_append_inj h
      exact ⟨List.forall_mem_cons.2 ⟨fun hbit => absurd hbit hpresent, hindices⟩, hrest⟩

theorem absent_eq_zero {context : Context} (h : contextValidate context = .ok)
    (index : Fin epochCount) (habsent : context.present index = false) : context.epochs index = 0 := by
  rw [contextValidate] at h
  split at h
  · cases h
  split at h
  · cases h
  split at h
  · cases h
  · rename_i hany
    by_contra hne
    refine hany (List.any_eq_true.2 ⟨index, List.mem_finRange index, ?_⟩)
    rw [habsent, Bool.not_false, Bool.true_and, decide_eq_true_eq]
    exact hne

theorem reserved_eq_zero {context : Context} (h : contextValidate context = .ok) :
    context.reserved = 0 := by
  rw [contextValidate] at h
  split at h
  · cases h
  split at h
  · cases h
  · rename_i hfields
    by_contra hne
    exact hfields (.inr (.inl hne))

theorem contextBytes_injective {left right : Context} (hleft : contextValidate left = .ok)
    (hright : contextValidate right = .ok) (h : contextBytes left = contextBytes right) : left = right := by
  have hreserved := (reserved_eq_zero hleft).trans (reserved_eq_zero hright).symm
  have habsent := absent_eq_zero hleft
  have habsent' := absent_eq_zero hright
  obtain ⟨epochs, authority, ⟨memory, cpu, io⟩, mask, major, minor, flags, reserved⟩ := left
  obtain ⟨epochs', authority', ⟨memory', cpu', io'⟩, mask', major', minor', flags', reserved'⟩ := right
  simp only [contextBytes, List.append_assoc, List.append_cancel_left_eq, u16Bytes_append_inj,
    u32_append_inj, u64_append_inj] at h
  obtain ⟨rfl, rfl, rfl, rfl, h⟩ := h
  simp only [Context.present, decide_eq_true_eq] at h
  obtain ⟨hepochs, h⟩ := epochBytes_append_inj h
  simp only [digest_append_inj, u32_append_inj, u64_append_inj, u32Bytes_inj] at h
  obtain ⟨rfl, rfl, rfl, rfl⟩ := h
  obtain rfl : reserved = reserved' := hreserved
  obtain rfl : epochs = epochs' := by
    funext index
    by_cases hpresent : mask &&& ((1 : UInt64) <<< UInt64.ofNat index) ≠ 0
    · exact hepochs index (List.mem_finRange index) hpresent
    · exact (habsent index (by simpa [Context.present] using hpresent)).trans
        (habsent' index (by simpa [Context.present] using hpresent)).symm
  rfl

/-! ## Plans and checkpoints -/

theorem producerPlanBytes_injective {contextFingerprint contextFingerprint' sourceFingerprint
      sourceFingerprint' recipeFingerprint recipeFingerprint' : Digest256}
    {left right : ProducerPlan} (hreserved : left.reserved = right.reserved)
    (h : producerPlanBytes contextFingerprint sourceFingerprint recipeFingerprint left =
      producerPlanBytes contextFingerprint' sourceFingerprint' recipeFingerprint' right) :
    contextFingerprint = contextFingerprint' ∧ sourceFingerprint = sourceFingerprint' ∧
      recipeFingerprint = recipeFingerprint' ∧ left = right := by
  obtain ⟨_, _, _, _, _, _, _, _⟩ := left
  obtain ⟨_, _, _, _, _, _, _, _⟩ := right
  simp only [producerPlanBytes, List.append_assoc, List.append_cancel_left_eq, digest_append_inj,
    u64_append_inj, u32_append_inj, u32Bytes_inj] at h
  obtain ⟨rfl, rfl, rfl, rfl, rfl, rfl, rfl, rfl, rfl, rfl⟩ := h
  obtain rfl := hreserved
  exact ⟨rfl, rfl, rfl, rfl⟩

theorem checkpointBytes_inj {left right : ReplayCheckpoint}
    (h : checkpointBytes left = checkpointBytes right) :
    left.contextFingerprint = right.contextFingerprint ∧ left.sourceFingerprint = right.sourceFingerprint ∧
      left.recipeFingerprint = right.recipeFingerprint ∧ left.planFingerprint = right.planFingerprint ∧
      left.prefixFingerprint = right.prefixFingerprint ∧
      left.completedBatches = right.completedBatches := by
  simp only [checkpointBytes, List.append_assoc, List.append_cancel_left_eq, digest_append_inj,
    u64_append_inj] at h
  exact ⟨h.1, h.2.1, h.2.2.1, h.2.2.2.2.1, h.2.2.2.2.2.1, h.2.2.2.2.2.2.2.1⟩

/-! ## Batches -/

/-- What a batch adds to the prefix hasher. -/
def entryBytes (index : UInt64) (batch : CanonicalBatch) : List UInt8 :=
  u64Bytes index ++ u64Bytes batch.firstOrdinal ++ u64Bytes batch.recordCount ++
  u64Bytes batch.byteCount ++ batch.bytes

def batchesBytes : UInt64 → List CanonicalBatch → List UInt8
  | _, [] => []
  | index, batch :: batches => entryBytes index batch ++ batchesBytes (index + 1) batches

/-- What the prefix hasher has been fed after some batches. -/
def prefixBytes (recordType : UInt32) (batches : List CanonicalBatch) : List UInt8 :=
  prefixHasher recordType ++ batchesBytes 0 batches

theorem batchesBytes_append (batch : CanonicalBatch) : ∀ (index : UInt64) (batches : List CanonicalBatch),
      batchesBytes index (batches ++ [batch]) =
        batchesBytes index batches ++ entryBytes (index + UInt64.ofNat batches.length) batch
  | index, [] => by
    change entryBytes index batch ++ [] = [] ++ _
    rw [List.append_nil, List.nil_append]
    exact congrArg (entryBytes · batch) (UInt64.add_zero index).symm
  | index, first :: batches => by
    rw [List.cons_append, batchesBytes, batchesBytes_append batch, batchesBytes, List.append_assoc]
    congr 3
    rw [List.length_cons, UInt64.ofNat_add, UInt64.add_assoc]
    congr 1
    exact UInt64.add_comm _ _

theorem updatePrefixHasher_prefixBytes (recordType : UInt32) (batches : List CanonicalBatch)
    (batch : CanonicalBatch) :
    updatePrefixHasher (prefixBytes recordType batches) (UInt64.ofNat batches.length) batch =
      prefixBytes recordType (batches ++ [batch]) := by
  rw [prefixBytes, prefixBytes, batchesBytes_append, UInt64.zero_add, ← List.append_assoc]
  simp only [updatePrefixHasher, entryBytes, List.append_assoc]

/-- A batch as a producer run accepts it, but for its ordinals and counts. -/
def CanonicalBatch.OfType (recordType : UInt32) (batch : CanonicalBatch) : Prop :=
  batch.canonicalBytes.isSome ∧ batch.recordType = recordType ∧ batch.flags = knownBatchFlags

variable {recordType : UInt32}

theorem entryBytes_append_inj {index index' : UInt64} {left right : CanonicalBatch}
    (hleft : left.OfType recordType) (hright : right.OfType recordType)
    (h : entryBytes index left ++ rest = entryBytes index' right ++ rest') :
    left = right ∧ rest = rest' := by
  obtain ⟨hsome, htype, hflags⟩ := hleft
  obtain ⟨hsome', htype', hflags'⟩ := hright
  simp only [entryBytes, List.append_assoc, u64_append_inj] at h
  obtain ⟨-, hordinal, hrecords, hcount, h⟩ := h
  obtain ⟨bytes, hbytes⟩ := Option.isSome_iff_exists.1 hsome
  obtain ⟨bytes', hbytes'⟩ := Option.isSome_iff_exists.1 hsome'
  rw [CanonicalBatch.bytes, CanonicalBatch.bytes, hbytes, hbytes'] at h
  have hlength : bytes.length = bytes'.length := by
    rw [left.sized bytes hbytes, right.sized bytes' hbytes', hcount]
  obtain ⟨heq, hrest⟩ := List.append_inj h hlength
  refine ⟨?_, hrest⟩
  obtain ⟨_, _, _, _, _, _, _⟩ := left
  obtain ⟨_, _, _, _, _, _, _⟩ := right
  simp only at hbytes hbytes' heq hordinal hrecords hcount htype htype' hflags hflags'
  subst hbytes hbytes' heq hordinal hrecords hcount htype htype' hflags
  rw [CanonicalBatch.mk.injEq]
  exact ⟨rfl, rfl, rfl, rfl, rfl, hflags'.symm⟩

theorem batchesBytes_injective : ∀ {index : UInt64} {left right : List CanonicalBatch},
      (∀ batch ∈ left, batch.OfType recordType) → (∀ batch ∈ right, batch.OfType recordType) →
      batchesBytes index left = batchesBytes index right → left = right
  | _, [], [], _, _, _ => rfl
  | index, [], batch :: right, _, _, h => by
    have hlength := congrArg List.length h
    simp only [batchesBytes, entryBytes, u64Bytes, List.length_append, List.length_map,
      List.length_range, List.length_nil] at hlength
    omega
  | index, batch :: left, [], _, _, h => by
    have hlength := congrArg List.length h
    simp only [batchesBytes, entryBytes, u64Bytes, List.length_append, List.length_map,
      List.length_range, List.length_nil] at hlength
    omega
  | index, first :: left, second :: right, hleft, hright, h => by
    rw [List.forall_mem_cons] at hleft hright
    obtain ⟨hfirst, hrest⟩ := entryBytes_append_inj hleft.1 hright.1 h
    rw [hfirst, batchesBytes_injective hleft.2 hright.2 hrest]

/-- **The prefix encoding is injective.** -/
theorem prefixBytes_injective {recordType' : UInt32} {left right : List CanonicalBatch}
    (hleft : ∀ batch ∈ left, batch.OfType recordType) (hright : ∀ batch ∈ right, batch.OfType recordType')
    (h : prefixBytes recordType left = prefixBytes recordType' right) :
    recordType = recordType' ∧ left = right := by
  simp only [prefixBytes, prefixHasher, List.append_assoc, List.append_cancel_left_eq, u32_append_inj] at h
  obtain ⟨rfl, h⟩ := h
  exact ⟨rfl, batchesBytes_injective hleft hright h⟩

end Laplace.Framework
