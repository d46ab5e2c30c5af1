import Laplace.Perfcache.ArtifactCodec

/-!
# Reference epochs (perfcache.c:614-652)

The digest that an artifact would have in another epoch. The header is copied and the epoch is put
in its place; the records and the metadata are read where they are.
-/

namespace Laplace.Perfcache

open Guarded Checked Packets

/-- The epoch arguments of `laplace_perfcache_reference_epoch_digest`. -/
structure ReferenceEpoch where
  epochId : Id128
  epochFingerprint : Digest256
  dependencyFingerprint : Digest256

def offsetActivationEpochId : ℕ := 72
def offsetActivationEpochFingerprint : ℕ := 88
def offsetDependencyFingerprint : ℕ := 216

/-- `laplace_perfcache_reference_epoch_digest` -/
def referenceEpochDigest (blake3 : Blake3) (artifact : List UInt8)
    (expectedContract : Contract) (reference : ReferenceEpoch) :
    Guarded ArtifactStatus Digest256 := do
  let _ ← validate blake3 artifact expectedContract
  let header := artifact.take artifactHeaderBytes
  let header := overwrite header offsetActivationEpochId reference.epochId.bytes
  let header := overwrite header offsetActivationEpochFingerprint reference.epochFingerprint.bytes
  let header := overwrite header offsetDependencyFingerprint reference.dependencyFingerprint.bytes
  let afterHeader ← sub (UInt64.ofNat artifact.length) (UInt64.ofNat artifactHeaderBytes)
  let bodyBytes ← sub afterHeader (UInt64.ofNat artifactDigestBytes)
  return blake3 (header ++ (artifact.drop artifactHeaderBytes).take bodyBytes.toNat)

/-! ## The same specification in another epoch -/

/-- A contract whose epoch is the reference. -/
def Contract.under (contract : Contract) (reference : ReferenceEpoch) : Contract :=
  { contract with
    activationEpochId := reference.epochId
    activationEpochFingerprint := reference.epochFingerprint
    dependencyFingerprint := reference.dependencyFingerprint }

namespace ArtifactSpec

variable {spec : ArtifactSpec} {reference : ReferenceEpoch}

/-- The specification whose epoch is the reference. -/
def under (spec : ArtifactSpec) (reference : ReferenceEpoch) : ArtifactSpec :=
  { spec with contract := spec.contract.under reference }

theorem admissible_under (h : spec.Admissible) : (spec.under reference).Admissible :=
  ⟨h.usable, h.size, h.law⟩

theorem artifact_length_under (blake3 : Blake3) :
    ((spec.under reference).artifact blake3).length = (spec.artifact blake3).length := by
  rw [artifact_length, artifact_length]
  rfl

theorem drop_digestOffset (spec : ArtifactSpec) (blake3 : Blake3) :
    (spec.artifact blake3).drop spec.digestOffset = (blake3 spec.body).bytes :=
  List.drop_left' spec.body_length

end ArtifactSpec

/-! ## The header around its epoch -/

/-- The header before the epoch. -/
def beforeEpoch (contract : Contract) : List UInt8 :=
  artifactMagic ++ u32Bytes formatVersion ++ u32Bytes (UInt32.ofNat artifactHeaderBytes) ++
    u64Bytes contract.flags ++ contract.moduleId.bytes ++ contract.keySchemaId.bytes ++
    contract.valueSchemaId.bytes

/-- The header between the fingerprint of the epoch and that of the dependencies. -/
def insideEpoch (contract : Contract) : List UInt8 :=
  contract.moduleContractFingerprint.bytes ++ contract.sourceFingerprint.bytes ++
    contract.recipeFingerprint.bytes

theorem beforeEpoch_length (contract : Contract) :
    (beforeEpoch contract).length = offsetActivationEpochId := by
  simp only [beforeEpoch, List.length_append, artifactMagic_length, u32Bytes_length,
    u64Bytes_length, idBytes_length, offsetActivationEpochId]

theorem insideEpoch_length (contract : Contract) : (insideEpoch contract).length = 96 := by
  simp only [insideEpoch, List.length_append, digestBytes_length]

theorem header_under (spec : ArtifactSpec) : ∃ afterEpoch, ∀ reference : ReferenceEpoch,
    (spec.under reference).header = beforeEpoch spec.contract ++ reference.epochId.bytes ++
      reference.epochFingerprint.bytes ++ insideEpoch spec.contract ++
      reference.dependencyFingerprint.bytes ++ afterEpoch := by
  refine ⟨u64Bytes spec.recordCount ++ u32Bytes spec.contract.keyBytes ++
    u32Bytes spec.contract.valueBytes ++ u32Bytes spec.recordStride ++
    u32Bytes spec.contract.accessLaw ++ u64Bytes (UInt64.ofNat artifactHeaderBytes) ++
    u64Bytes (UInt64.ofNat spec.records.length) ++ u64Bytes (UInt64.ofNat spec.metadataOffset) ++
    u64Bytes spec.metadataBytes ++ u64Bytes (UInt64.ofNat spec.digestOffset) ++
    List.replicate 40 0, fun reference => ?_⟩
  change headerWritten (spec.contract.under reference) spec.recordCount spec.recordStride
    (UInt64.ofNat spec.records.length) (UInt64.ofNat spec.metadataOffset) spec.metadataBytes
    (UInt64.ofNat spec.digestOffset) = _
  unfold headerWritten beforeEpoch insideEpoch Contract.under
  simp only [List.append_assoc]

/-- The epoch that the specification is in. -/
def ArtifactSpec.epoch (spec : ArtifactSpec) : ReferenceEpoch :=
  ⟨spec.contract.activationEpochId, spec.contract.activationEpochFingerprint,
    spec.contract.dependencyFingerprint⟩

theorem under_epoch (spec : ArtifactSpec) : spec.under spec.epoch = spec := rfl

theorem overwrite_of_eq {bytes front old piece back : List UInt8} {offset : ℕ}
    (hbytes : bytes = front ++ (old ++ back)) (hfront : front.length = offset)
    (hpiece : old.length = piece.length) :
    overwrite bytes offset piece = front ++ piece ++ back := by
  rw [hbytes, ← List.append_assoc, overwrite_eq hfront hpiece]

/-- **The patched header is the header of the reference.** -/
theorem overwrite_header (spec : ArtifactSpec) (reference : ReferenceEpoch) :
    overwrite (overwrite (overwrite spec.header offsetActivationEpochId reference.epochId.bytes)
        offsetActivationEpochFingerprint reference.epochFingerprint.bytes)
      offsetDependencyFingerprint reference.dependencyFingerprint.bytes =
      (spec.under reference).header := by
  obtain ⟨afterEpoch, hunder⟩ := header_under spec
  have hheader := hunder spec.epoch
  rw [under_epoch] at hheader
  have hid (id : Id128) : id.bytes.length = 16 := idBytes_length id
  have hdigest (digest : Digest256) : digest.bytes.length = 32 := digestBytes_length digest
  have hbefore := beforeEpoch_length spec.contract
  have hinside := insideEpoch_length spec.contract
  generalize beforeEpoch spec.contract = before at *
  generalize insideEpoch spec.contract = inside at *
  have hepochId : overwrite spec.header offsetActivationEpochId reference.epochId.bytes =
      before ++ reference.epochId.bytes ++ (spec.epoch.epochFingerprint.bytes ++ (inside ++
        (spec.epoch.dependencyFingerprint.bytes ++ afterEpoch))) :=
    overwrite_of_eq (hheader.trans (by simp only [List.append_assoc])) hbefore
      ((hid spec.epoch.epochId).trans (hid _).symm)
  have hfingerprint : overwrite (before ++ reference.epochId.bytes ++
      (spec.epoch.epochFingerprint.bytes ++ (inside ++
        (spec.epoch.dependencyFingerprint.bytes ++ afterEpoch))))
      offsetActivationEpochFingerprint reference.epochFingerprint.bytes =
      before ++ reference.epochId.bytes ++ reference.epochFingerprint.bytes ++ (inside ++
        (spec.epoch.dependencyFingerprint.bytes ++ afterEpoch)) :=
    overwrite_of_eq rfl (by rw [List.length_append, hbefore, hid]; rfl)
      ((hdigest _).trans (hdigest _).symm)
  have hdependency : overwrite (before ++ reference.epochId.bytes ++
      reference.epochFingerprint.bytes ++ (inside ++
        (spec.epoch.dependencyFingerprint.bytes ++ afterEpoch)))
      offsetDependencyFingerprint reference.dependencyFingerprint.bytes =
      before ++ reference.epochId.bytes ++ reference.epochFingerprint.bytes ++ inside ++
        reference.dependencyFingerprint.bytes ++ afterEpoch := by
    refine overwrite_of_eq (List.append_assoc _ _ _).symm ?_ ((hdigest _).trans (hdigest _).symm)
    simp only [List.length_append, hbefore, hid, hdigest, hinside]
    rfl
  rw [hepochId, hfingerprint, hdependency, hunder]

/-! ## The digest -/

theorem sub_bodyBytes {size : ℕ} (hsize : artifactHeaderBytes + artifactDigestBytes ≤ size)
    (hlt : size < 2 ^ 64) :
    (do
      let afterHeader ← sub (UInt64.ofNat size) (UInt64.ofNat artifactHeaderBytes)
      sub afterHeader (UInt64.ofNat artifactDigestBytes) : Guarded ArtifactStatus UInt64) =
      .ok (UInt64.ofNat (size - artifactHeaderBytes - artifactDigestBytes)) := by
  have hheader : (UInt64.ofNat artifactHeaderBytes).toNat = artifactHeaderBytes := rfl
  have hdigest : (UInt64.ofNat artifactDigestBytes).toNat = artifactDigestBytes := rfl
  have hword : (UInt64.ofNat size).toNat = size := toNat_ofNat hlt
  have hafter : UInt64.ofNat size - UInt64.ofNat artifactHeaderBytes =
      UInt64.ofNat (size - artifactHeaderBytes) := by
    refine UInt64.toNat_inj.1 ?_
    rw [toNat_sub_of_le (by omega), hword, hheader,
      toNat_ofNat (by omega)]
  have hafterWord : (UInt64.ofNat (size - artifactHeaderBytes)).toNat =
      size - artifactHeaderBytes := toNat_ofNat (by omega)
  rw [sub_ok (by omega), ok_bind, hafter, sub_ok (by omega)]
  refine congrArg Except.ok (UInt64.toNat_inj.1 ?_)
  rw [toNat_sub_of_le (by omega), hafterWord, hdigest,
    toNat_ofNat (by omega)]

theorem referenceEpochDigest_artifact (blake3 : Blake3) {spec : ArtifactSpec}
    (h : spec.Admissible) (reference : ReferenceEpoch) :
    referenceEpochDigest blake3 (spec.artifact blake3) spec.contract reference =
      .ok (blake3 (spec.under reference).body) := by
  have hlength := spec.artifact_length blake3
  have hsize := h.size
  have hoffset : spec.digestOffset =
      artifactHeaderBytes + spec.records.length + spec.metadata.length := rfl
  have hbody : artifactHeaderBytes + artifactDigestBytes ≤ (spec.artifact blake3).length := by omega
  have hcount : (UInt64.ofNat ((spec.artifact blake3).length - artifactHeaderBytes -
      artifactDigestBytes)).toNat = (spec.records ++ spec.metadata).length := by
    rw [toNat_ofNat (by omega), List.length_append]
    omega
  have hartifact : spec.artifact blake3 = spec.header ++ (spec.records ++ spec.metadata ++
      (blake3 spec.body).bytes) := by
    rw [ArtifactSpec.artifact]
    generalize (blake3 spec.body).bytes = digest
    rw [ArtifactSpec.body]
    simp only [List.append_assoc]
  have hheader : (spec.artifact blake3).take artifactHeaderBytes = spec.header := by
    rw [hartifact, List.take_left' spec.header_length]
  have hrest : (spec.artifact blake3).drop artifactHeaderBytes =
      spec.records ++ spec.metadata ++ (blake3 spec.body).bytes := by
    rw [hartifact, List.drop_left' spec.header_length]
  have hsub := sub_bodyBytes hbody (hlength.trans_lt hsize)
  unfold referenceEpochDigest
  rw [validate_artifact blake3 h, ok_bind]
  dsimp only
  rw [hheader, overwrite_header, hrest]
  generalize (blake3 spec.body).bytes = digest
  rw [← bind_assoc, hsub, ok_bind, hcount, List.take_left, ArtifactSpec.body, List.append_assoc]
  rfl

/-- **The reference is the rewriting.** What is written under one epoch has under every other one
the digest of the artifact that is written there. -/
theorem referenceEpochDigest_eq_rewriting (blake3 : Blake3) {spec : ArtifactSpec}
    {artifactCapacity : ℕ} {artifact : List UInt8}
    (hwrite : write blake3 spec artifactCapacity = .ok artifact) (reference : ReferenceEpoch) :
    ∃ rewritten view, write blake3 (spec.under reference) artifactCapacity = .ok rewritten ∧
      validate blake3 rewritten (spec.contract.under reference) = .ok view ∧
      rewritten.drop (rewritten.length - artifactDigestBytes) = view.artifactDigest.bytes ∧
      referenceEpochDigest blake3 artifact spec.contract reference = .ok view.artifactDigest := by
  obtain ⟨hadmissible, hcapacity, hartifact⟩ := (write_ok_iff blake3).1 hwrite
  rw [hartifact] at hcapacity ⊢
  have hunder : (spec.under reference).Admissible := ArtifactSpec.admissible_under hadmissible
  have hlength := (spec.under reference).artifact_length blake3
  have hrewritten : write blake3 (spec.under reference) artifactCapacity =
      .ok ((spec.under reference).artifact blake3) := by
    refine (write_ok_iff blake3).2 ⟨hunder, ?_, rfl⟩
    rwa [ArtifactSpec.artifact_length_under]
  refine ⟨(spec.under reference).artifact blake3, (spec.under reference).view blake3, hrewritten,
    validate_artifact blake3 hunder, ?_, referenceEpochDigest_artifact blake3 hadmissible reference⟩
  rw [hlength, Nat.add_sub_cancel]
  exact (spec.under reference).drop_digestOffset blake3

theorem referenceEpochDigest_eq_rewriting_twoRecords :
    ∃ rewritten view, write (fun _ => 0) (twoRecords.under ⟨3, 4, 5⟩)
        (twoRecords.artifact fun _ => 0).length = .ok rewritten ∧
      validate (fun _ => 0) rewritten (twoRecords.contract.under ⟨3, 4, 5⟩) = .ok view ∧
      rewritten.drop (rewritten.length - artifactDigestBytes) = view.artifactDigest.bytes ∧
      referenceEpochDigest (fun _ => 0) (twoRecords.artifact fun _ => 0) twoRecords.contract
        ⟨3, 4, 5⟩ = .ok view.artifactDigest :=
  referenceEpochDigest_eq_rewriting _
    ((write_ok_iff _).2 ⟨twoRecords_admissible, le_rfl, rfl⟩) ⟨3, 4, 5⟩

end Laplace.Perfcache
