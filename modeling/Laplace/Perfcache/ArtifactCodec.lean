import Laplace.Perfcache.Artifact

/-!
# The codec of artifacts

The header is a layout of fields that are read at their offsets. The writer and the validator accept
the same specifications, and an artifact is what its specification is written as.
-/

namespace Laplace.Perfcache

open Guarded Checked Layout

/-! ## The header -/

abbrev HeaderFields := BitVec (8 * 8) × UInt32 × UInt32 × UInt64 × Id128 × Id128 × Id128 × Id128 ×
  Digest256 × Digest256 × Digest256 × Digest256 × Digest256 × UInt64 × UInt32 × UInt32 × UInt32 ×
  UInt32 × UInt64 × UInt64 × UInt64 × UInt64 × UInt64

def headerLayout : Layout HeaderFields :=
  (bits 8).pair <| word32.pair <| word32.pair <| word64.pair <|
    (bits 16).pair <| (bits 16).pair <| (bits 16).pair <|
    (bits 16).pair <| (bits 32).pair <| (bits 32).pair <|
    (bits 32).pair <| (bits 32).pair <| (bits 32).pair <|
    word64.pair <| word32.pair <| word32.pair <| word32.pair <|
    word32.pair <| word64.pair <| word64.pair <| word64.pair <|
    word64.pair <| word64

def headerFields (contract : Contract) (recordCount : UInt64) (recordStride : UInt32)
    (recordsBytes metadataOffset metadataBytes digestOffset : UInt64) : HeaderFields :=
  ((bits 8).load artifactMagic, formatVersion, UInt32.ofNat artifactHeaderBytes,
    contract.flags, contract.moduleId, contract.keySchemaId, contract.valueSchemaId,
    contract.activationEpochId, contract.activationEpochFingerprint,
    contract.moduleContractFingerprint, contract.sourceFingerprint, contract.recipeFingerprint,
    contract.dependencyFingerprint, recordCount, contract.keyBytes, contract.valueBytes,
    recordStride, contract.accessLaw, UInt64.ofNat artifactHeaderBytes, recordsBytes,
    metadataOffset, metadataBytes, digestOffset)

theorem artifactMagic_length : artifactMagic.length = 8 := rfl

theorem store_load_magic : (bits 8).store ((bits 8).load artifactMagic) = artifactMagic := by
  rw [(bits 8).store_load artifactMagic (show 8 ≤ _ from artifactMagic_length.ge)]
  exact List.take_of_length_le artifactMagic_length.le

theorem headerWritten_eq (contract : Contract) (recordCount : UInt64) (recordStride : UInt32)
    (recordsBytes metadataOffset metadataBytes digestOffset : UInt64) :
    headerWritten contract recordCount recordStride recordsBytes metadataOffset metadataBytes digestOffset =
      headerLayout.store (headerFields contract recordCount recordStride recordsBytes metadataOffset
        metadataBytes digestOffset) ++ List.replicate 40 0 := by
  unfold headerWritten
  simp only [digest_bytes_eq, id_bytes_eq, u32Bytes_eq, u64Bytes_eq]
  unfold headerLayout headerFields
  dsimp only [pair]
  rw [store_load_magic]
  simp only [List.append_assoc]

theorem headerLayout_width : headerLayout.width = 312 := rfl

theorem headerLayout_load (artifact : List UInt8) : headerLayout.load artifact =
    ((bits 8).load artifact, loadU32 (artifact.drop 8), loadU32 (artifact.drop 12),
      (readContract artifact).flags, (readContract artifact).moduleId,
      (readContract artifact).keySchemaId, (readContract artifact).valueSchemaId,
      (readContract artifact).activationEpochId, (readContract artifact).activationEpochFingerprint,
      (readContract artifact).moduleContractFingerprint, (readContract artifact).sourceFingerprint,
      (readContract artifact).recipeFingerprint, (readContract artifact).dependencyFingerprint,
      loadU64 (artifact.drop 248), (readContract artifact).keyBytes,
      (readContract artifact).valueBytes, loadU32 (artifact.drop 264),
      (readContract artifact).accessLaw, loadU64 (artifact.drop 272), loadU64 (artifact.drop 280),
      loadU64 (artifact.drop 288), loadU64 (artifact.drop 296), loadU64 (artifact.drop 304)) := by
  simp only [readContract, loadU32_eq, loadU64_eq, loadDigest_eq, loadId_eq]
  simp only [headerLayout, pair, List.drop_drop]
  rfl

/-! ## Contracts -/

/-- A contract that `contract_valid` accepts. -/
def Usable (contract : Contract) : Prop :=
  contract.valueBytes ≠ 0 ∧ contract.keyBytes.toNat + contract.valueBytes.toNat ≤ uint32Max ∧
    contract.flags = 0 ∧
    (contract.accessLaw = accessSortedUniqueFixed → contract.keyBytes ≠ 0) ∧
    (contract.accessLaw = accessDenseU32ZeroBased → contract.keyBytes = 4) ∧
    (contract.accessLaw = accessSortedUniqueFixed ∨ contract.accessLaw = accessDenseU32ZeroBased ∨
      contract.accessLaw = accessModuleDefined)

instance (contract : Contract) : Decidable (Usable contract) := by
  unfold Usable
  infer_instance

/-- The bytes of a record. -/
def strideOf (contract : Contract) : ℕ := contract.keyBytes.toNat + contract.valueBytes.toNat

theorem strideOf_lt (contract : Contract) : strideOf contract < 2 ^ 33 := by
  have hkey := contract.keyBytes.toNat_lt
  have hvalue := contract.valueBytes.toNat_lt
  unfold strideOf
  omega

theorem add_stride (contract : Contract) :
    (add contract.keyBytes.toUInt64 contract.valueBytes.toUInt64 : Guarded ArtifactStatus UInt64) =
      .ok (UInt64.ofNat (strideOf contract)) := by
  have hstride := strideOf_lt contract
  have hsum : contract.keyBytes.toUInt64.toNat + contract.valueBytes.toUInt64.toNat =
      strideOf contract := rfl
  rw [add_ok (by omega), ← UInt64.toNat_inj.1 ((toNat_add_of_lt (by omega)).trans hsum |>.trans
    (toNat_ofNat (by omega)).symm)]

theorem toNat_strideOf (contract : Contract) :
    (UInt64.ofNat (strideOf contract)).toNat = strideOf contract := by
  have hstride := strideOf_lt contract
  exact toNat_ofNat (by omega)

variable {contract : Contract}

theorem strideOf_pos (h : contract.valueBytes ≠ 0) : 0 < strideOf contract := by
  have hvalue : contract.valueBytes.toNat ≠ 0 := fun hzero => h (UInt32.toNat_inj.1 hzero)
  unfold strideOf
  omega

theorem contractValid_eq (contract : Contract) :
    contractValid contract = .ok (decide (Usable contract)) := by
  unfold contractValid
  rw [add_stride, ok_bind]
  refine congrArg Except.ok (decide_eq_decide.2 ?_)
  rw [toNat_strideOf]
  unfold Usable
  refine and_congr_right fun hvalue => ?_
  have hstride : UInt64.ofNat (strideOf contract) ≠ 0 := fun hzero => by
    have hnat := congrArg UInt64.toNat hzero
    rw [toNat_strideOf] at hnat
    exact (strideOf_pos hvalue).ne' hnat
  rw [and_iff_right hstride]
  rfl

theorem toNat_stride (h : Usable contract) :
    (contract.keyBytes + contract.valueBytes).toNat = strideOf contract := by
  have hstride : strideOf contract ≤ uint32Max := h.2.1
  rw [UInt32.toNat_add, Nat.mod_eq_of_lt]
  · rfl
  · unfold strideOf uint32Max at hstride
    omega

/-! ## Measuring -/

/-- The size of an artifact. -/
def artifactSize (contract : Contract) (recordCount metadataBytes : UInt64) : ℕ :=
  artifactHeaderBytes + recordCount.toNat * strideOf contract + metadataBytes.toNat +
    artifactDigestBytes

theorem measureLayout_eq (contract : Contract) (recordCount metadataBytes : UInt64) :
    measureLayout contract recordCount metadataBytes = if Usable contract then
        if artifactSize contract recordCount metadataBytes < 2 ^ 64 then
          .ok ⟨UInt64.ofNat (strideOf contract), UInt64.ofNat (recordCount.toNat * strideOf contract),
            UInt64.ofNat (artifactSize contract recordCount metadataBytes)⟩
        else .error (.fails .sizeOverflow)
      else .error (.fails .invalidArgument) := by
  unfold measureLayout
  rw [contractValid_eq, ok_bind]
  by_cases husable : Usable contract
  swap
  · rw [if_neg husable, require_fails (by simpa using husable), error_bind]
  rw [if_pos husable, require_ok (by simpa using husable), ok_bind, add_stride, ok_bind]
  have hstride := toNat_strideOf contract
  have hne : UInt64.ofNat (strideOf contract) ≠ 0 := fun hzero => by
    rw [hzero] at hstride
    exact (strideOf_pos husable.1).ne hstride
  have hheader : (UInt64.ofNat artifactHeaderBytes).toNat = artifactHeaderBytes := rfl
  have hdigest : (UInt64.ofNat artifactDigestBytes).toNat = artifactDigestBytes := rfl
  rw [scale_eq hne, hstride]
  unfold artifactSize
  split
  swap
  · rw [if_neg (by omega)]
  rename_i hrecords
  dsimp only
  rw [grow_eq, hheader, toNat_ofNat hrecords]
  split
  swap
  · rw [if_neg (by omega)]
  rename_i hbody
  rw [grow_eq, toNat_ofNat hbody]
  split
  swap
  · rw [if_neg (by omega)]
  rename_i hmetadata
  rw [grow_eq, toNat_ofNat hmetadata, hdigest]
  rfl

/-! ## The access law -/

section AccessLaw

variable {records : List UInt8} {recordCount : UInt64} {contract : Contract} {recordStride : UInt32}

variable {index : ℕ}

theorem mul_offset (hindex : index ≤ recordCount.toNat)
    (hfits : recordCount.toNat * recordStride.toNat < 2 ^ 64) :
    (mul (UInt64.ofNat index) recordStride.toUInt64 : Guarded ArtifactStatus UInt64) =
      .ok (UInt64.ofNat (index * recordStride.toNat)) := by
  have hcount := recordCount.toNat_lt
  have hle := Nat.mul_le_mul_right recordStride.toNat hindex
  have hnumber : (UInt64.ofNat index).toNat = index :=
    toNat_ofNat (by omega)
  have hstride : recordStride.toUInt64.toNat = recordStride.toNat := rfl
  have hproduct : index * recordStride.toNat < 2 ^ 64 := by omega
  rw [mul_ok (by rw [hnumber, hstride]; omega)]
  refine congrArg Except.ok (UInt64.toNat_inj.1 ?_)
  rw [toNat_mul_of_lt (by rw [hnumber, hstride]; omega), hnumber, hstride,
    toNat_ofNat hproduct]

theorem sub_index (hpos : 1 ≤ index) (hindex : index ≤ recordCount.toNat) :
    (sub (UInt64.ofNat index) 1 : Guarded ArtifactStatus UInt64) = .ok (UInt64.ofNat (index - 1)) := by
  have hcount := recordCount.toNat_lt
  have hnumber : (UInt64.ofNat index).toNat = index :=
    toNat_ofNat (by omega)
  have hone : (1 : UInt64).toNat = 1 := rfl
  rw [sub_ok (by rw [hnumber, hone]; omega)]
  refine congrArg Except.ok (UInt64.toNat_inj.1 ?_)
  rw [toNat_sub_of_le (by rw [hnumber, hone]; omega), hnumber, hone,
    toNat_ofNat (by omega)]

theorem toNat_offset (hindex : index ≤ recordCount.toNat)
    (hfits : recordCount.toNat * recordStride.toNat < 2 ^ 64) :
    (UInt64.ofNat (index * recordStride.toNat)).toNat = index * recordStride.toNat := by
  have hle := Nat.mul_le_mul_right recordStride.toNat hindex
  exact toNat_ofNat (by omega)

theorem recordsSortedUnique_eq {keyBytes : UInt32}
    (hfits : recordCount.toNat * recordStride.toNat < 2 ^ 64) :
    recordsSortedUnique records recordCount keyBytes recordStride = all (fun index => .ok (decide
        ((records.drop ((index - 1) * recordStride.toNat)).take keyBytes.toNat <
          (records.drop (index * recordStride.toNat)).take keyBytes.toNat)))
        (List.range' 1 (recordCount.toNat - 1)) := by
  refine all_congr fun index hindex => ?_
  rw [List.mem_range'_1] at hindex
  have hprevious : index - 1 ≤ recordCount.toNat := by omega
  have hcurrent : index ≤ recordCount.toNat := by omega
  rw [sub_index hindex.1 hcurrent, ok_bind, mul_offset hprevious hfits, ok_bind,
    mul_offset hcurrent hfits, ok_bind, toNat_offset hprevious hfits, toNat_offset hcurrent hfits]
  rfl

theorem denseU32ZeroBasedKeys_eq (hfits : recordCount.toNat * recordStride.toNat < 2 ^ 64) :
    denseU32ZeroBasedKeys records recordCount recordStride =
      if recordCount.toNat > uint32Max + 1 then .ok false
      else all (fun index => .ok (decide (loadU32 (records.drop (index * recordStride.toNat)) =
        (UInt64.ofNat index).toUInt32))) (List.range recordCount.toNat) := by
  unfold denseU32ZeroBasedKeys
  split
  · rfl
  · refine all_congr fun index hindex => ?_
    have hle : index ≤ recordCount.toNat := (List.mem_range.1 hindex).le
    rw [mul_offset hle hfits, ok_bind, toNat_offset hle hfits]
    rfl

theorem safe_accessLaw (hfits : recordCount.toNat * recordStride.toNat < 2 ^ 64) :
    Safe (recordsAccessLawValid records recordCount contract recordStride) fun _ => True := by
  have hall {values : List ℕ} {holds : ℕ → Bool} {error : ArtifactStatus} :
      Safe (all (fun index => .ok (holds index)) values >>= fun valid => require valid error)
        fun _ => True := by
    refine Safe.bind (safe_all fun index _ => ?_) fun valid _ => ?_
    · exact True.intro
    · unfold require
      split <;> trivial
  unfold recordsAccessLawValid
  split
  · trivial
  split
  · rw [recordsSortedUnique_eq hfits]
    exact hall
  split
  · rw [denseU32ZeroBasedKeys_eq hfits]
    split
    · trivial
    · exact hall
  split <;> trivial

theorem drop_append_take {width : ℕ} (hindex : index < recordCount.toNat)
    (hwidth : width ≤ recordStride.toNat)
    (hrecords : recordCount.toNat * recordStride.toNat ≤ records.length) (tail : List UInt8) :
    ∃ slice, records.drop (index * recordStride.toNat) = slice ∧
      (records ++ tail).drop (index * recordStride.toNat) = slice ++ tail ∧ width ≤ slice.length := by
  have hle := Nat.mul_le_mul_right recordStride.toNat (show index + 1 ≤ recordCount.toNat from hindex)
  rw [Nat.add_mul, Nat.one_mul] at hle
  refine ⟨_, rfl, List.drop_append_of_le_length (by omega), ?_⟩
  rw [List.length_drop]
  omega

theorem accessLaw_append (hkey : contract.keyBytes.toNat ≤ recordStride.toNat)
    (hdense : contract.accessLaw = accessDenseU32ZeroBased → contract.keyBytes = 4)
    (hrecords : recordCount.toNat * recordStride.toNat ≤ records.length)
    (hfits : recordCount.toNat * recordStride.toNat < 2 ^ 64) (tail : List UInt8) :
    recordsAccessLawValid (records ++ tail) recordCount contract recordStride =
      recordsAccessLawValid records recordCount contract recordStride := by
  unfold recordsAccessLawValid
  split
  · rfl
  split
  · have hsorted : recordsSortedUnique (records ++ tail) recordCount contract.keyBytes recordStride =
        recordsSortedUnique records recordCount contract.keyBytes recordStride := by
      rw [recordsSortedUnique_eq hfits, recordsSortedUnique_eq hfits]
      refine all_congr fun index hindex => ?_
      rw [List.mem_range'_1] at hindex
      obtain ⟨previous, hprevious, hprevious', hlength⟩ := drop_append_take
        (show index - 1 < recordCount.toNat by omega) hkey hrecords tail
      obtain ⟨current, hcurrent, hcurrent', hlength'⟩ := drop_append_take
        (show index < recordCount.toNat by omega) hkey hrecords tail
      rw [hprevious, hprevious', hcurrent, hcurrent', List.take_append_of_le_length hlength,
        List.take_append_of_le_length hlength']
    rw [hsorted]
  split
  · rename_i hlaw
    have hfour : 4 ≤ recordStride.toNat := by
      rw [hdense hlaw] at hkey
      exact hkey
    have hkeys : denseU32ZeroBasedKeys (records ++ tail) recordCount recordStride =
        denseU32ZeroBasedKeys records recordCount recordStride := by
      rw [denseU32ZeroBasedKeys_eq hfits, denseU32ZeroBasedKeys_eq hfits]
      split
      · rfl
      refine all_congr fun index hindex => ?_
      obtain ⟨slice, hslice, hslice', hlength⟩ := drop_append_take (List.mem_range.1 hindex) hfour
        hrecords tail
      rw [hslice, hslice', loadU32_eq, loadU32_eq, load_append _ hlength]
    rw [hkeys]
  · rfl

end AccessLaw

/-! ## Writing -/

section Writing

variable (blake3 : Blake3)

namespace ArtifactSpec

variable (spec : ArtifactSpec)

def recordStride : UInt32 := spec.contract.keyBytes + spec.contract.valueBytes

def metadataOffset : ℕ := artifactHeaderBytes + spec.records.length

def digestOffset : ℕ := spec.metadataOffset + spec.metadata.length

def header : List UInt8 :=
  headerWritten spec.contract spec.recordCount spec.recordStride (UInt64.ofNat spec.records.length)
    (UInt64.ofNat spec.metadataOffset) spec.metadataBytes (UInt64.ofNat spec.digestOffset)

/-- What the digest is taken of. -/
def body : List UInt8 := spec.header ++ spec.records ++ spec.metadata

/-- The artifact of a specification. -/
def artifact : List UInt8 := spec.body ++ (blake3 spec.body).bytes

/-- The view of the artifact. -/
def view : ArtifactView :=
  ⟨spec.contract, spec.records, spec.recordCount, spec.recordStride, spec.metadata,
    spec.metadataBytes, blake3 spec.body⟩

/-- A specification that is accepted. -/
structure Admissible : Prop where
  usable : Usable spec.contract
  size : spec.digestOffset + artifactDigestBytes < 2 ^ 64
  law : recordsAccessLawValid spec.records spec.recordCount spec.contract spec.recordStride = .ok ()

theorem header_length : spec.header.length = artifactHeaderBytes := by
  rw [header, headerWritten_eq, List.length_append, headerLayout.length_store, headerLayout_width,
    List.length_replicate]
  rfl

theorem body_length : spec.body.length = spec.digestOffset := by
  rw [body, List.length_append, List.length_append, header_length, digestOffset, metadataOffset]

theorem artifact_length : (spec.artifact blake3).length = spec.digestOffset + artifactDigestBytes := by
  rw [artifact, List.length_append, body_length, Packets.digestBytes_length]
  rfl

theorem size_eq : artifactSize spec.contract spec.recordCount spec.metadataBytes =
    spec.digestOffset + artifactDigestBytes := by
  rw [artifactSize, digestOffset, metadataOffset, spec.records_length, spec.metadata_length]
  rfl

theorem toNat_recordStride {spec : ArtifactSpec} (h : Usable spec.contract) :
    spec.recordStride.toNat = strideOf spec.contract := toNat_stride h

theorem narrow_stride {spec : ArtifactSpec} (h : Usable spec.contract) :
    (narrow (UInt64.ofNat (strideOf spec.contract)) : Guarded ArtifactStatus UInt32) =
      .ok spec.recordStride := by
  have hstride : strideOf spec.contract ≤ uint32Max := h.2.1
  have hlt : strideOf spec.contract < 2 ^ 32 := by
    unfold uint32Max at hstride
    omega
  rw [narrow_ok (by rwa [toNat_strideOf])]
  refine congrArg Except.ok (UInt32.toNat_inj.1 ?_)
  rw [toNat_recordStride h, UInt64.toNat_toUInt32, toNat_strideOf, Nat.mod_eq_of_lt hlt]

end ArtifactSpec

theorem overwrite_eq {front old piece back : List UInt8} {offset : ℕ} (hfront : front.length = offset)
    (hpiece : old.length = piece.length) :
    overwrite (front ++ old ++ back) offset piece = front ++ piece ++ back := by
  subst hfront
  have htake : (front ++ old ++ back).take front.length = front := by
    rw [List.append_assoc, List.take_left]
  have hdrop : (front ++ old ++ back).drop (front.length + piece.length) = back := by
    rw [← hpiece, ← List.length_append, List.drop_left]
  rw [overwrite, htake, hdrop]

theorem add_offset {left right : ℕ} (h : left + right < 2 ^ 64) :
    (add (UInt64.ofNat left) (UInt64.ofNat right) : Guarded ArtifactStatus UInt64) =
      .ok (UInt64.ofNat (left + right)) := by
  have hleft : (UInt64.ofNat left).toNat = left :=
    toNat_ofNat (by omega)
  have hright : (UInt64.ofNat right).toNat = right :=
    toNat_ofNat (by omega)
  rw [add_ok (by rwa [hleft, hright])]
  refine congrArg Except.ok (UInt64.toNat_inj.1 ?_)
  rw [toNat_add_of_lt (by rwa [hleft, hright]), hleft, hright, toNat_ofNat h]

namespace ArtifactSpec

variable {spec : ArtifactSpec}

theorem records_eq (spec : ArtifactSpec) :
    spec.recordCount.toNat * strideOf spec.contract = spec.records.length :=
  spec.records_length.symm

theorem metadataBytes_eq (spec : ArtifactSpec) :
    spec.metadataBytes = UInt64.ofNat spec.metadata.length := by
  rw [spec.metadata_length, UInt64.ofNat_toNat]

theorem add_metadataOffset (hsize : spec.digestOffset + artifactDigestBytes < 2 ^ 64) :
    (add (UInt64.ofNat artifactHeaderBytes) (UInt64.ofNat spec.records.length) :
      Guarded ArtifactStatus UInt64) = .ok (UInt64.ofNat spec.metadataOffset) := by
  unfold digestOffset metadataOffset at hsize
  exact add_offset (by omega)

theorem add_digestOffset (hsize : spec.digestOffset + artifactDigestBytes < 2 ^ 64) :
    (add (UInt64.ofNat spec.metadataOffset) spec.metadataBytes : Guarded ArtifactStatus UInt64) =
      .ok (UInt64.ofNat spec.digestOffset) := by
  rw [metadataBytes_eq]
  unfold digestOffset at hsize
  exact add_offset (by omega)

theorem law_append (husable : Usable spec.contract)
    (hsize : spec.digestOffset + artifactDigestBytes < 2 ^ 64) (tail : List UInt8) :
    recordsAccessLawValid (spec.records ++ tail) spec.recordCount spec.contract spec.recordStride =
      recordsAccessLawValid spec.records spec.recordCount spec.contract spec.recordStride := by
  have hstride := toNat_recordStride husable
  have hrecords : spec.recordCount.toNat * spec.recordStride.toNat = spec.records.length := by
    rw [hstride, records_eq]
  unfold digestOffset metadataOffset at hsize
  refine accessLaw_append ?_ husable.2.2.2.2.1 hrecords.le (by omega) tail
  rw [hstride]
  exact Nat.le_add_right _ _

end ArtifactSpec

theorem layoutSeal_eq {spec : ArtifactSpec} (husable : Usable spec.contract)
    (hsize : spec.digestOffset + artifactDigestBytes < 2 ^ 64) {artifactCapacity : ℕ}
    (hcapacity : spec.digestOffset + artifactDigestBytes ≤ artifactCapacity)
    {front back : List UInt8} (hfront : front.length = artifactHeaderBytes)
    (hback : back.length = artifactDigestBytes) :
    layoutSeal blake3 spec.contract spec.recordCount spec.metadataBytes
        (front ++ spec.records ++ spec.metadata ++ back) artifactCapacity =
      (recordsAccessLawValid spec.records spec.recordCount spec.contract spec.recordStride >>=
        fun _ => .ok (spec.artifact blake3, blake3 spec.body)) := by
  have hdrop : (front ++ spec.records ++ spec.metadata ++ back).drop artifactHeaderBytes =
      spec.records ++ (spec.metadata ++ back) := by
    rw [List.append_assoc, List.append_assoc, ← hfront, List.drop_left]
  have hsizeWord := toNat_ofNat hsize
  have hdigestWord : (UInt64.ofNat spec.digestOffset).toNat = spec.digestOffset :=
    toNat_ofNat (by omega)
  unfold layoutSeal
  rw [measureLayout_eq, if_pos husable, spec.size_eq, if_pos hsize, ok_bind]
  dsimp only
  rw [require_ok (by rwa [hsizeWord]), ok_bind, ArtifactSpec.narrow_stride husable, ok_bind, hdrop,
    ArtifactSpec.law_append husable hsize, spec.records_eq, ArtifactSpec.add_metadataOffset hsize,
    ok_bind, ArtifactSpec.add_digestOffset hsize, ok_bind, hdigestWord]
  refine congrArg _ (funext fun _ => congrArg Except.ok ?_)
  have hheader : overwrite ([] ++ front ++ (spec.records ++ spec.metadata ++ back)) 0 spec.header =
      [] ++ spec.header ++ (spec.records ++ spec.metadata ++ back) :=
    overwrite_eq rfl (hfront.trans spec.header_length.symm)
  have hbuffer : front ++ spec.records ++ spec.metadata ++ back =
      [] ++ front ++ (spec.records ++ spec.metadata ++ back) := by
    simp only [List.nil_append, List.append_assoc]
  have hbody : [] ++ spec.header ++ (spec.records ++ spec.metadata ++ back) =
      spec.body ++ back ++ [] := by
    simp only [ArtifactSpec.body, List.nil_append, List.append_nil, List.append_assoc]
  have hdigest (digest : Digest256) : overwrite (spec.body ++ back ++ []) spec.digestOffset
      digest.bytes = spec.body ++ digest.bytes ++ [] :=
    overwrite_eq spec.body_length (hback.trans (Packets.digestBytes_length digest).symm)
  have htake : (spec.body ++ back ++ []).take spec.digestOffset = spec.body := by
    rw [List.append_nil, List.take_left' spec.body_length]
  rw [show headerWritten spec.contract spec.recordCount spec.recordStride
    (UInt64.ofNat spec.records.length) (UInt64.ofNat spec.metadataOffset) spec.metadataBytes
    (UInt64.ofNat spec.digestOffset) = spec.header from rfl, hbuffer, hheader, hbody, htake, hdigest,
    List.append_nil]
  rfl

theorem buffer_eq (spec : ArtifactSpec) :
    overwrite (overwrite (List.replicate (spec.digestOffset + artifactDigestBytes) 0)
      artifactHeaderBytes spec.records) spec.metadataOffset spec.metadata =
      List.replicate artifactHeaderBytes 0 ++ spec.records ++ spec.metadata ++
        List.replicate artifactDigestBytes 0 := by
  have hzeros : List.replicate (spec.digestOffset + artifactDigestBytes) (0 : UInt8) =
      List.replicate artifactHeaderBytes 0 ++ List.replicate spec.records.length 0 ++
        List.replicate (spec.metadata.length + artifactDigestBytes) 0 := by
    rw [List.replicate_append_replicate, List.replicate_append_replicate]
    refine congrArg (List.replicate · 0) ?_
    unfold ArtifactSpec.digestOffset ArtifactSpec.metadataOffset
    omega
  have hmetadata : List.replicate artifactHeaderBytes 0 ++ spec.records ++
      List.replicate (spec.metadata.length + artifactDigestBytes) 0 =
      (List.replicate artifactHeaderBytes 0 ++ spec.records) ++
        List.replicate spec.metadata.length 0 ++ List.replicate artifactDigestBytes 0 := by
    rw [← List.replicate_append_replicate, List.append_assoc _ _ (List.replicate _ _)]
  rw [hzeros, overwrite_eq (List.length_replicate ..) (List.length_replicate ..), hmetadata,
    overwrite_eq ?_ (List.length_replicate ..)]
  rw [List.length_append, List.length_replicate]
  rfl

/-- **What the writer does.** -/
theorem write_eq (spec : ArtifactSpec) (artifactCapacity : ℕ) : write blake3 spec artifactCapacity =
    if Usable spec.contract then
      if spec.digestOffset + artifactDigestBytes < 2 ^ 64 then
        if spec.digestOffset + artifactDigestBytes ≤ artifactCapacity then
          recordsAccessLawValid spec.records spec.recordCount spec.contract spec.recordStride >>=
            fun _ => .ok (spec.artifact blake3)
        else .error (.fails .bufferTooSmall)
      else .error (.fails .sizeOverflow)
    else .error (.fails .invalidArgument) := by
  unfold write
  rw [measureLayout_eq, spec.size_eq]
  split
  swap
  · rfl
  rename_i husable
  split
  swap
  · rfl
  rename_i hsize
  have hsizeWord := toNat_ofNat hsize
  rw [ok_bind]
  dsimp only
  split
  swap
  · rename_i hcapacity
    rw [require_fails (by rwa [hsizeWord]), error_bind]
  rename_i hcapacity
  have hrecordsWord : (UInt64.ofNat spec.records.length).toNat = spec.records.length := by
    unfold ArtifactSpec.digestOffset ArtifactSpec.metadataOffset at hsize
    exact toNat_ofNat (by omega)
  have hmetadataWord : (UInt64.ofNat spec.metadataOffset).toNat = spec.metadataOffset := by
    unfold ArtifactSpec.digestOffset at hsize
    exact toNat_ofNat (by omega)
  rw [require_ok (by rwa [hsizeWord]), ok_bind, ArtifactSpec.narrow_stride husable, ok_bind,
    spec.records_eq, ArtifactSpec.add_metadataOffset hsize, hsizeWord, hrecordsWord,
    List.take_of_length_le le_rfl, List.take_of_length_le spec.metadata_length.le]
  simp only [ok_bind, hmetadataWord, buffer_eq]
  rw [layoutSeal_eq blake3 husable hsize hcapacity (List.length_replicate ..) (List.length_replicate ..)]
  cases recordsAccessLawValid spec.records spec.recordCount spec.contract spec.recordStride with
  | error stop => rfl
  | ok value => rfl

end Writing

/-! ## Validating -/

theorem foldl_or_eq_zero : ∀ {bytes : List UInt8} {combined : UInt8},
    bytes.foldl (fun combined byte => combined ||| byte) combined = 0 ↔
      combined = 0 ∧ bytes = List.replicate bytes.length 0
  | [], combined => by simp
  | byte :: bytes, combined => by
    rw [List.foldl_cons, foldl_or_eq_zero, UInt8.or_eq_zero_iff, List.length_cons,
      List.replicate_succ, List.cons.injEq, and_assoc]

theorem bytesZero_iff {bytes : List UInt8} :
    bytesZero bytes = true ↔ bytes = List.replicate bytes.length 0 := by
  rw [bytesZero, decide_eq_true_eq, foldl_or_eq_zero, and_iff_right rfl]

variable {artifact : List UInt8}

theorem load_magic (h : artifact.take 8 = artifactMagic) :
    (bits 8).load artifact = (bits 8).load artifactMagic := by
  have hsplit : artifact = artifactMagic ++ artifact.drop 8 := by
    rw [← h, List.take_append_drop]
  conv_lhs => rw [hsplit]
  exact (bits 8).load_append (show 8 ≤ _ from artifactMagic_length.ge) _

theorem take_header (hlength : artifactHeaderBytes ≤ artifact.length) {recordCount : UInt64}
    {recordStride : UInt32} {recordsBytes metadataOffset metadataBytes digestOffset : UInt64}
    (hload : headerLayout.load artifact = headerFields contract recordCount recordStride
      recordsBytes metadataOffset metadataBytes digestOffset)
    (hzero : bytesZero ((artifact.drop 312).take 40)) :
    artifact.take artifactHeaderBytes = headerWritten contract recordCount recordStride recordsBytes
      metadataOffset metadataBytes digestOffset := by
  have hheader : artifactHeaderBytes = 312 + 40 := rfl
  have hzeros : ((artifact.drop 312).take 40).length = 40 := by
    rw [List.length_take, List.length_drop]
    omega
  rw [bytesZero_iff, hzeros] at hzero
  rw [headerWritten_eq, ← hload, headerLayout.store_load artifact (show 312 ≤ _ by omega), ← hzero,
    hheader, List.take_add, headerLayout_width]

theorem artifact_of_checks (blake3 : Blake3) {recordCount metadataBytes : UInt64}
    {recordsBytes digestOffset : ℕ} (husable : Usable contract)
    (hrecords : recordsBytes = recordCount.toNat * strideOf contract)
    (hdigestOffset : digestOffset = artifactHeaderBytes + recordsBytes + metadataBytes.toNat)
    (hlength : digestOffset + artifactDigestBytes = artifact.length)
    (hsize : artifact.length < 2 ^ 64)
    (hheader : artifact.take artifactHeaderBytes = headerWritten contract recordCount
      (contract.keyBytes + contract.valueBytes) (UInt64.ofNat recordsBytes)
      (UInt64.ofNat (artifactHeaderBytes + recordsBytes)) metadataBytes (UInt64.ofNat digestOffset))
    (hdigest : (blake3 (artifact.take digestOffset)).bytes =
      (artifact.drop digestOffset).take artifactDigestBytes)
    (hlaw : recordsAccessLawValid (artifact.drop artifactHeaderBytes) recordCount contract
      (contract.keyBytes + contract.valueBytes) = .ok ()) :
    ∃ spec : ArtifactSpec, spec.contract = contract ∧ spec.Admissible ∧
      artifact = spec.artifact blake3 ∧
      (⟨contract, (artifact.drop artifactHeaderBytes).take recordsBytes, recordCount,
        contract.keyBytes + contract.valueBytes,
        (artifact.drop (artifactHeaderBytes + recordsBytes)).take metadataBytes.toNat, metadataBytes,
        loadDigest (artifact.drop digestOffset)⟩ : ArtifactView) = spec.view blake3 := by
  have hrecordsLength : ((artifact.drop artifactHeaderBytes).take recordsBytes).length =
      recordsBytes := by
    rw [List.length_take, List.length_drop]
    omega
  have hmetadataLength :
      ((artifact.drop (artifactHeaderBytes + recordsBytes)).take metadataBytes.toNat).length =
        metadataBytes.toNat := by
    rw [List.length_take, List.length_drop]
    omega
  let spec : ArtifactSpec := ⟨contract, (artifact.drop artifactHeaderBytes).take recordsBytes,
    recordCount, (artifact.drop (artifactHeaderBytes + recordsBytes)).take metadataBytes.toNat,
    metadataBytes, hrecordsLength.trans hrecords, hmetadataLength⟩
  have hoffset : spec.metadataOffset = artifactHeaderBytes + recordsBytes :=
    congrArg (artifactHeaderBytes + ·) hrecordsLength
  have hend : spec.digestOffset = digestOffset :=
    (congrArg₂ (· + ·) hoffset hmetadataLength).trans hdigestOffset.symm
  have hspecHeader : spec.header = artifact.take artifactHeaderBytes := by
    rw [hheader, ArtifactSpec.header, hoffset, hend]
    exact congrArg (fun length => headerWritten contract recordCount _ (UInt64.ofNat length) _ _ _)
      hrecordsLength
  have hbody : spec.body = artifact.take digestOffset := by
    rw [ArtifactSpec.body, hspecHeader, hdigestOffset, List.take_add, List.take_add]
  have hdigestSlice : (blake3 spec.body).bytes = artifact.drop digestOffset := by
    rw [hbody, hdigest, List.take_of_length_le]
    rw [List.length_drop]
    omega
  refine ⟨spec, rfl, ⟨husable, ?_, ?_⟩, ?_, ?_⟩
  · rw [hend, hlength]
    exact hsize
  · rw [← ArtifactSpec.law_append husable (by rw [hend, hlength]; exact hsize)
      (artifact.drop (artifactHeaderBytes + recordsBytes))]
    rw [← List.drop_drop]
    exact (congrArg (recordsAccessLawValid · recordCount contract _) (List.take_append_drop _ _)).trans hlaw
  · rw [ArtifactSpec.artifact, hdigestSlice, hbody, List.take_append_drop]
  · rw [← hdigestSlice]
    have hload := Packets.loadDigest_append (blake3 spec.body) []
    rw [List.append_nil] at hload
    rw [hload]
    rfl

theorem safe_validate (blake3 : Blake3) (artifact : List UInt8)
    (expectedContract : Contract) : Safe (validate blake3 artifact expectedContract) fun view =>
      ∃ spec : ArtifactSpec, spec.contract = expectedContract ∧ spec.Admissible ∧
        artifact = spec.artifact blake3 ∧ view = spec.view blake3 := by
  unfold validate
  rw [contractValid_eq, ok_bind]
  refine safe_require_then fun _ => safe_require_then fun hlength => safe_require_then fun hmagic =>
    safe_require_then fun hversion => safe_require_then fun hzero => ?_
  dsimp only
  rw [contractValid_eq, ok_bind]
  refine safe_require_then fun husable => safe_require_then fun hcontract => ?_
  rw [hcontract, decide_eq_true_eq] at husable
  rw [hcontract]
  have hstrideNat := toNat_stride husable
  have hpos := strideOf_pos husable.1
  have hmax : strideOf expectedContract ≤ uint32Max := husable.2.1
  have hmaxNat : uint32Max = 2 ^ 32 - 1 := rfl
  have hheaderWord : (UInt64.ofNat artifactHeaderBytes).toNat = artifactHeaderBytes := rfl
  have hdigestWord : (UInt64.ofNat artifactDigestBytes).toNat = artifactDigestBytes := rfl
  rw [add32_ok (by change strideOf expectedContract < _; omega), ok_bind]
  refine safe_require_then fun hstride => ?_
  rw [hstride]
  have hstrideWord : (expectedContract.keyBytes + expectedContract.valueBytes).toUInt64.toNat =
      strideOf expectedContract := hstrideNat
  have hne : (expectedContract.keyBytes + expectedContract.valueBytes).toUInt64 ≠ 0 := fun hzero => by
    rw [hzero] at hstrideWord
    exact hpos.ne hstrideWord
  rw [scale_eq hne, hstrideWord]
  split
  swap
  · trivial
  rename_i hrecords
  rw [grow_eq, hheaderWord, toNat_ofNat hrecords]
  split
  swap
  · trivial
  rename_i hmetadata
  rw [grow_eq, toNat_ofNat hmetadata]
  split
  swap
  · trivial
  rename_i hdigestOffset
  rw [grow_eq, toNat_ofNat hdigestOffset, hdigestWord]
  split
  swap
  · trivial
  rename_i hend
  refine safe_require_then fun hoffsets => safe_require_then fun hdigest => ?_
  obtain ⟨hartifact, hrecordsOffset, hrecordsBytes, hmetadataOffset, hdigestOffset'⟩ := hoffsets
  rw [toNat_ofNat hend] at hartifact
  rw [hdigestOffset', toNat_ofNat hdigestOffset] at hdigest
  rw [hrecordsOffset, hrecordsBytes, hmetadataOffset, hdigestOffset', hheaderWord,
    toNat_ofNat hrecords, toNat_ofNat hmetadata,
    toNat_ofNat hdigestOffset]
  refine (safe_accessLaw (by rwa [hstrideNat])).self.bind fun _ hlaw => safe_pure ?_
  refine artifact_of_checks blake3 husable rfl rfl hartifact (hartifact ▸ hend)
    (take_header (by omega) ?_ hzero.2) hdigest hlaw.1
  rw [headerLayout_load, load_magic hmagic, hversion, hzero.1, hcontract, hstride, hrecordsOffset,
    hrecordsBytes, hmetadataOffset, hdigestOffset']
  rfl

theorem artifact_fields (blake3 : Blake3) (spec : ArtifactSpec) :
    headerLayout.load (spec.artifact blake3) = headerFields spec.contract spec.recordCount
      spec.recordStride (UInt64.ofNat spec.records.length) (UInt64.ofNat spec.metadataOffset)
      spec.metadataBytes (UInt64.ofNat spec.digestOffset) := by
  rw [ArtifactSpec.artifact, ArtifactSpec.body, ArtifactSpec.header, headerWritten_eq]
  simp only [List.append_assoc]
  exact headerLayout.load_store _ _

theorem readContract_artifact (blake3 : Blake3) (spec : ArtifactSpec) :
    readContract (spec.artifact blake3) = spec.contract := by
  have hfields := artifact_fields blake3 spec
  rw [headerLayout_load, headerFields] at hfields
  simp only [Prod.mk.injEq] at hfields
  obtain ⟨-, -, -, hflags, hmodule, hkeySchema, hvalueSchema, hepoch, hepochFingerprint,
    hmoduleContract, hsource, hrecipe, hdependency, -, hkeyBytes, hvalueBytes, -, hlaw, -⟩ := hfields
  exact Contract.ext hmodule hkeySchema hvalueSchema hepoch hepochFingerprint hmoduleContract
    hsource hrecipe hdependency hkeyBytes hvalueBytes hlaw hflags

theorem artifact_magic (blake3 : Blake3) (spec : ArtifactSpec) :
    (spec.artifact blake3).take 8 = artifactMagic := by
  unfold ArtifactSpec.artifact ArtifactSpec.body ArtifactSpec.header headerWritten
  generalize (blake3 _).bytes = digest
  simp only [List.append_assoc]
  generalize u32Bytes formatVersion ++ _ = rest
  rw [List.take_left' artifactMagic_length]

theorem artifact_zero (blake3 : Blake3) (spec : ArtifactSpec) :
    bytesZero (((spec.artifact blake3).drop 312).take 40) = true := by
  have hwidth (fields : HeaderFields) : (headerLayout.store fields).length = 312 :=
    (headerLayout.length_store fields).trans headerLayout_width
  have hzeros : (List.replicate 40 (0 : UInt8)).length = 40 := List.length_replicate ..
  rw [ArtifactSpec.artifact, ArtifactSpec.body, ArtifactSpec.header, headerWritten_eq]
  simp only [List.append_assoc]
  rw [List.drop_left' (hwidth _), List.take_left' hzeros, bytesZero_iff, hzeros]

variable {spec : ArtifactSpec}

/-- **What the validator accepts.** -/
theorem validate_artifact (blake3 : Blake3) (h : spec.Admissible) :
    validate blake3 (spec.artifact blake3) spec.contract = .ok (spec.view blake3) := by
  have hfields := artifact_fields blake3 spec
  rw [headerLayout_load, headerFields] at hfields
  simp only [Prod.mk.injEq] at hfields
  obtain ⟨-, hversion, hheaderBytes, -, -, -, -, -, -, -, -, -, -, hrecordCount, -, -, hstride, -,
    hrecordsOffset, hrecordsBytes, hmetadataOffset, hmetadataBytes, hdigestOffset⟩ := hfields
  have hsize := h.size
  have hrecords := spec.records_eq
  have hlength := spec.artifact_length blake3
  unfold validate
  rw [contractValid_eq, ok_bind, require_ok (by simpa using h.usable), ok_bind, require_ok (by
    rw [hlength, ArtifactSpec.digestOffset, ArtifactSpec.metadataOffset]
    omega), ok_bind, require_ok (artifact_magic blake3 spec), ok_bind, require_ok hversion, ok_bind,
    require_ok ⟨hheaderBytes, artifact_zero blake3 spec⟩, ok_bind]
  dsimp only
  rw [readContract_artifact, contractValid_eq, ok_bind, require_ok (by simpa using h.usable),
    ok_bind, require_ok rfl, ok_bind, hrecordCount, hstride, hrecordsOffset, hrecordsBytes,
    hmetadataOffset, hmetadataBytes, hdigestOffset]
  have hstrideNat := toNat_stride h.usable
  have hpos := strideOf_pos h.usable.1
  have hmax : strideOf spec.contract ≤ uint32Max := h.usable.2.1
  have hmaxNat : uint32Max = 2 ^ 32 - 1 := rfl
  have hheaderWord : (UInt64.ofNat artifactHeaderBytes).toNat = artifactHeaderBytes := rfl
  have hdigestWord : (UInt64.ofNat artifactDigestBytes).toNat = artifactDigestBytes := rfl
  have hstrideWord : spec.recordStride.toUInt64.toNat = strideOf spec.contract := hstrideNat
  have hne : spec.recordStride.toUInt64 ≠ 0 := fun hzero => by
    rw [hzero] at hstrideWord
    exact hpos.ne hstrideWord
  have hmetadataLength := spec.metadata_length
  have hdigestOffsetNat : spec.digestOffset =
      artifactHeaderBytes + spec.records.length + spec.metadataBytes.toNat := by
    rw [ArtifactSpec.digestOffset, ArtifactSpec.metadataOffset, hmetadataLength]
  have hmetadataOffsetNat : spec.metadataOffset = artifactHeaderBytes + spec.records.length := rfl
  have hrecordsFit : spec.records.length < 2 ^ 64 := by omega
  have hmetadataFits : artifactHeaderBytes + spec.records.length < 2 ^ 64 := by omega
  have hdigestFits : artifactHeaderBytes + spec.records.length + spec.metadataBytes.toNat < 2 ^ 64 := by
    omega
  rw [add32_ok (by change strideOf spec.contract < _; omega), ok_bind,
    require_ok (show spec.recordStride = spec.contract.keyBytes + spec.contract.valueBytes from rfl),
    ok_bind, scale_eq hne, hstrideWord, hrecords, if_pos hrecordsFit, grow_eq, hheaderWord,
    toNat_ofNat hrecordsFit, if_pos hmetadataFits, grow_eq,
    toNat_ofNat hmetadataFits, if_pos hdigestFits, grow_eq,
    toNat_ofNat hdigestFits, hdigestWord, if_pos (by omega)]
  have hdropRecords : (spec.artifact blake3).drop artifactHeaderBytes =
      spec.records ++ (spec.metadata ++ (blake3 spec.body).bytes) := by
    rw [ArtifactSpec.artifact]
    generalize (blake3 spec.body).bytes = digest
    rw [ArtifactSpec.body, List.append_assoc, List.append_assoc, List.drop_left' spec.header_length]
  have hdropMetadata : (spec.artifact blake3).drop spec.metadataOffset =
      spec.metadata ++ (blake3 spec.body).bytes := by
    rw [ArtifactSpec.metadataOffset, ← List.drop_drop, hdropRecords, List.drop_left]
  have hdropDigest : (spec.artifact blake3).drop spec.digestOffset = (blake3 spec.body).bytes :=
    List.drop_left' spec.body_length
  have htakeBody : (spec.artifact blake3).take spec.digestOffset = spec.body :=
    List.take_left' spec.body_length
  have hdigestLength : (blake3 spec.body).bytes.length = artifactDigestBytes :=
    Packets.digestBytes_length _
  have hload := Packets.loadDigest_append (blake3 spec.body) []
  rw [List.append_nil] at hload
  have hdigestNat : (UInt64.ofNat spec.digestOffset).toNat = spec.digestOffset :=
    toNat_ofNat (by omega)
  have hmetadataNat : (UInt64.ofNat spec.metadataOffset).toNat = spec.metadataOffset :=
    toNat_ofNat (by omega)
  have hartifactNat : (UInt64.ofNat (artifactHeaderBytes + spec.records.length +
      spec.metadataBytes.toNat + artifactDigestBytes)).toNat = (spec.artifact blake3).length := by
    rw [hlength, hdigestOffsetNat]
    exact toNat_ofNat (by omega)
  rw [require_ok ⟨hartifactNat, rfl, rfl, congrArg _ hmetadataOffsetNat, congrArg _ hdigestOffsetNat⟩, ok_bind,
    hdigestNat, hmetadataNat, htakeBody, hdropDigest, hdropMetadata, hdropRecords,
    require_ok (List.take_of_length_le hdigestLength.le).symm, ok_bind,
    ArtifactSpec.law_append h.usable hsize, h.law, ok_bind, hload, List.take_left,
    List.take_left' hmetadataLength]
  rfl

/-! ## The codec -/

theorem write_ok_iff (blake3 : Blake3) {artifactCapacity : ℕ} :
    write blake3 spec artifactCapacity = .ok artifact ↔
      spec.Admissible ∧ artifact.length ≤ artifactCapacity ∧ artifact = spec.artifact blake3 := by
  have hlength := spec.artifact_length blake3
  rw [write_eq]
  constructor
  · intro h
    split at h
    swap
    · cases h
    rename_i husable
    split at h
    swap
    · cases h
    rename_i hsize
    split at h
    swap
    · cases h
    rename_i hcapacity
    cases hlaw : recordsAccessLawValid spec.records spec.recordCount spec.contract
        spec.recordStride with
    | error stop =>
      rw [hlaw] at h
      cases h
    | ok value =>
      rw [hlaw, ok_bind] at h
      obtain rfl := Except.ok.inj h
      exact ⟨⟨husable, hsize, hlaw⟩, hlength.trans_le hcapacity, rfl⟩
  · rintro ⟨hadmissible, hcapacity, hartifact⟩
    rw [hartifact, hlength] at hcapacity
    rw [if_pos hadmissible.usable, if_pos hadmissible.size, if_pos hcapacity, hadmissible.law,
      ok_bind, hartifact]

theorem write_ne_trap (blake3 : Blake3) (spec : ArtifactSpec)
    (artifactCapacity : ℕ) : write blake3 spec artifactCapacity ≠ .error .trap := by
  rw [write_eq]
  split
  swap
  · nofun
  rename_i husable
  split
  swap
  · nofun
  rename_i hsize
  split
  swap
  · nofun
  have hfits : spec.recordCount.toNat * spec.recordStride.toNat < 2 ^ 64 := by
    unfold ArtifactSpec.digestOffset ArtifactSpec.metadataOffset at hsize
    rw [ArtifactSpec.toNat_recordStride husable, spec.records_eq]
    omega
  exact ((safe_accessLaw hfits).bind fun _ _ =>
    show Safe (.ok (spec.artifact blake3)) fun _ => True from trivial).ne_trap

/-- The view shows the specification. -/
structure ArtifactView.Shows (view : ArtifactView) (spec : ArtifactSpec) : Prop where
  contract : view.contract = spec.contract
  records : view.records = spec.records
  recordCount : view.recordCount = spec.recordCount
  recordStride : view.recordStride.toNat =
    spec.contract.keyBytes.toNat + spec.contract.valueBytes.toNat
  metadata : view.metadata = spec.metadata
  metadataBytes : view.metadataBytes = spec.metadataBytes

theorem view_shows (blake3 : Blake3) (h : spec.Admissible) :
    (spec.view blake3).Shows spec :=
  ⟨rfl, rfl, rfl, toNat_stride h.usable, rfl, rfl⟩

/-- **The codec.** What is written is validated and shown as it was specified; what is validated is
what the writer writes from its view; and nothing wraps around on either side. -/
theorem artifact_codec (blake3 : Blake3) :
    (∀ spec artifactCapacity artifact, write blake3 spec artifactCapacity = .ok artifact →
      ∃ view, validate blake3 artifact spec.contract = .ok view ∧ view.Shows spec) ∧
    (∀ artifact expectedContract view, validate blake3 artifact expectedContract = .ok view →
      ∃ spec, view.Shows spec ∧ ∀ artifactCapacity, artifact.length ≤ artifactCapacity →
        write blake3 spec artifactCapacity = .ok artifact) ∧
    (∀ spec artifactCapacity, write blake3 spec artifactCapacity ≠ .error .trap) ∧
    ∀ artifact expectedContract, validate blake3 artifact expectedContract ≠ .error .trap := by
  refine ⟨?_, ?_, write_ne_trap blake3, fun artifact contract =>
    (safe_validate blake3 artifact contract).ne_trap⟩
  · intro spec artifactCapacity artifact hwrite
    obtain ⟨hadmissible, -, hartifact⟩ := (write_ok_iff blake3).1 hwrite
    refine ⟨spec.view blake3, ?_, view_shows blake3 hadmissible⟩
    rw [hartifact]
    exact validate_artifact blake3 hadmissible
  · intro artifact expectedContract view hvalidate
    obtain ⟨spec, -, hadmissible, hartifact, hview⟩ := (safe_validate blake3 _ _).of_ok hvalidate
    refine ⟨spec, ?_, fun artifactCapacity hcapacity =>
      (write_ok_iff blake3).2 ⟨hadmissible, hcapacity, hartifact⟩⟩
    rw [hview]
    exact view_shows blake3 hadmissible

/-! ### An artifact of two records -/

/-- Two records of a key and a value byte. -/
def twoRecords : ArtifactSpec where
  contract := { keyBytes := 1, valueBytes := 1, accessLaw := accessSortedUniqueFixed }
  records := [1, 5, 2, 6]
  recordCount := 2
  metadata := [7]
  metadataBytes := 1
  records_length := rfl
  metadata_length := rfl

theorem twoRecords_admissible : twoRecords.Admissible := ⟨by decide, by decide, by decide⟩

theorem artifact_codec_twoRecords (blake3 : Blake3) : ∃ view,
    validate blake3 (twoRecords.artifact blake3) twoRecords.contract = .ok view ∧ view.Shows twoRecords :=
  (artifact_codec blake3).1 twoRecords _ _
    ((write_ok_iff blake3).2 ⟨twoRecords_admissible, le_rfl, rfl⟩)

end Laplace.Perfcache
