import Laplace.Perfcache.Manifest

/-!
# Manifests are written and read in one way (perfcache_registry.cpp:736-819, 913-1082)

Both directions are described by the same condition: a manifest is valid, and the bytes are its
payload and the digest of the payload. A string that is read cannot go on, since no payload is the
beginning of another one.
-/

namespace Laplace.Perfcache

open Framework (Context StreamReceipt)

/-! ## What is written and what is accepted -/

theorem appendArtifacts_eq_some : ∀ {artifacts : List GenerationArtifact} {output result : List UInt8},
    appendArtifacts artifacts output = some result ↔
      (∀ artifact ∈ artifacts, artifact.Fits) ∧ result = output ++ artifacts.flatMap appendArtifact
  | [], output, result => by
    rw [appendArtifacts, Option.some.injEq, List.flatMap_nil, List.append_nil, eq_comm]
    exact ⟨fun h => ⟨by rintro _ ⟨⟩, h⟩, fun h => h.2⟩
  | artifact :: artifacts, output, result => by
    rw [appendArtifacts]
    split
    · rename_i hcounts
      refine iff_of_false (by simp) fun h => ?_
      have hfits := h.1 artifact List.mem_cons_self
      rcases hcounts with h | h | h
      · exact hfits.path_ne h
      · exact Nat.not_lt.2 h hfits.path_lt
      · exact Nat.not_lt.2 h hfits.dependencies_lt
    · rename_i hcounts
      simp only [not_or, not_le] at hcounts
      rw [appendArtifacts_eq_some, List.forall_mem_cons, List.flatMap_cons, List.append_assoc,
        and_iff_right (a := artifact.Fits) ⟨hcounts.1, hcounts.2.1, hcounts.2.2⟩]

section Codec

variable {blake3 : Blake3}

/-- A manifest that can be written. -/
structure GenerationManifest.Valid (blake3 : Blake3)
    (manifest : GenerationManifest) : Prop where
  shape : requestShapeValid manifest.request = true
  receipt : stagedReceiptMatches blake3 manifest.context manifest.stagedReceipt manifest.request =
    true
  artifacts_lt : manifest.request.artifacts.length < UInt32.size
  artifacts_fit : ∀ artifact ∈ manifest.request.artifacts, artifact.Fits

variable {manifest : GenerationManifest}

theorem encodeManifest_eq_some {bytes : List UInt8} {fingerprint : Digest256} :
    encodeManifest blake3 manifest = some (bytes, fingerprint) ↔ manifest.Valid blake3 ∧
        fingerprint = encodedManifestFingerprint blake3 (appendPayload manifest) ∧
        bytes = appendPayload manifest ++ fingerprint.bytes := by
  rw [encodeManifest]
  split
  · rename_i hinvalid
    refine iff_of_false (by simp) fun ⟨hvalid, _⟩ => ?_
    simp only [hvalid.shape, hvalid.receipt, Bool.not_true, Bool.false_eq_true, false_or] at hinvalid
    exact Nat.not_lt.2 hinvalid hvalid.artifacts_lt
  · rename_i hvalid
    simp only [not_or, Bool.not_eq_true, Bool.not_eq_false', not_le] at hvalid
    simp only [Option.bind_eq_bind, Option.bind_eq_some_iff, appendArtifacts_eq_some, Option.pure_def,
      Option.some.injEq, Prod.mk.injEq]
    constructor
    · rintro ⟨_, ⟨hfits, rfl⟩, rfl, rfl⟩
      exact ⟨⟨hvalid.1, hvalid.2.1, hvalid.2.2, hfits⟩, rfl, rfl⟩
    · rintro ⟨hmanifest, rfl, rfl⟩
      exact ⟨_, ⟨hmanifest.artifacts_fit, rfl⟩, rfl, rfl⟩

theorem le_length_appendArtifact (artifact : GenerationArtifact) :
    64 ≤ (appendArtifact artifact).length := by
  simp only [appendArtifact, contractBytes, List.length_append, ManifestReader.length_digest_bytes]
  omega

theorem le_length_appendPayload (manifest : GenerationManifest) :
    16 + 64 * manifest.request.artifacts.length ≤ (appendPayload manifest).length := by
  have hartifacts : ∀ artifacts : List GenerationArtifact,
      64 * artifacts.length ≤ (artifacts.flatMap appendArtifact).length := by
    intro artifacts
    induction artifacts with
    | nil => exact Nat.le_refl _
    | cons artifact artifacts ih =>
      have hfirst := le_length_appendArtifact artifact
      rw [List.flatMap_cons, List.length_append, List.length_cons]
      omega
  have hmagic : encodedManifestMagic.length = 8 := rfl
  have hword : ∀ value, (u32Bytes value).length = 4 := fun _ => rfl
  have hrest := hartifacts manifest.request.artifacts
  simp only [appendPayload, appendHead, List.length_append, hmagic, hword]
  omega

theorem GenerationManifest.Valid.fits (h : manifest.Valid blake3) :
    manifest.Fits (appendPayload manifest).length := by
  have hshape := h.shape
  have hreceipt := h.receipt
  have hlength := le_length_appendPayload manifest
  simp only [requestShapeValid, Bool.and_eq_true, decide_eq_true_eq] at hshape
  obtain ⟨⟨hartifacts, -⟩, hindex⟩ := hshape
  have hne : manifest.request.artifacts ≠ [] := by
    intro hnil
    simp [artifactRequestShapeValid, hnil] at hartifacts
  have hcount : manifest.stagedReceipt.sinkCount.toNat =
      manifest.request.stagedSinkArtifactFingerprints.length := by
    simp only [stagedReceiptMatches, decide_eq_true_eq] at hreceipt
    exact hreceipt.2.2.2.2.2.2.1
  exact {
    artifacts_ne := fun hzero => hne (List.length_eq_zero_iff.1 hzero)
    artifacts_lt := h.artifacts_lt
    artifacts_le := by omega
    sinks_lt := hcount ▸ UInt64.toNat_lt _
    index_lt := hindex
    artifacts_fit := h.artifacts_fit }

theorem decodeManifest_eq_some {bytes : List UInt8} {fingerprint : Digest256} :
    decodeManifest blake3 bytes = some (manifest, fingerprint) ↔ manifest.Valid blake3 ∧
        fingerprint = encodedManifestFingerprint blake3 (appendPayload manifest) ∧
        bytes = appendPayload manifest ++ fingerprint.bytes := by
  constructor
  · intro h
    rw [decodeManifest] at h
    split at h
    · cases h
    dsimp only at h
    split at h
    · cases h
    rename_i hlength hdigest
    rw [not_not] at hdigest
    split at h
    · rename_i read hread
      split at h
      · rename_i hvalid
        obtain ⟨rfl, rfl⟩ := Prod.mk.inj (Option.some.inj h)
        obtain ⟨hfits, hpayload⟩ := (ManifestReader.reads_manifest _).canonical _ _ _ hread
        rw [List.append_nil] at hpayload
        refine ⟨⟨hvalid.1, hvalid.2, hfits.artifacts_lt, hfits.artifacts_fit⟩, by rw [hpayload], ?_⟩
        rw [← hpayload, hdigest, List.take_append_drop]
      · cases h
    · cases h
  · rintro ⟨hvalid, rfl, rfl⟩
    generalize hfingerprint : encodedManifestFingerprint blake3 (appendPayload manifest) = fingerprint
    have hdigest := ManifestReader.length_digest_bytes fingerprint
    have hpayload := le_length_appendPayload manifest
    have hlength : (appendPayload manifest ++ fingerprint.bytes).length - 32 =
        (appendPayload manifest).length := by
      rw [List.length_append]
      omega
    have hread := (ManifestReader.reads_manifest _).accepts manifest [] hvalid.fits
    rw [List.append_nil] at hread
    rw [decodeManifest, if_neg (by rw [List.length_append]; omega)]
    simp only [hlength, List.take_left, List.drop_left, hfingerprint, ne_eq, not_true_eq_false,
      if_false, hread, hvalid.shape, hvalid.receipt, and_self, if_true]

/-! ## The codec -/

/-- Writing and reading a manifest undo one another: what is written is read as it was, what is
read is written as it was, and no other string that begins with an encoded manifest or that an
encoded manifest begins with is read. -/
theorem manifest_codec (blake3 : Blake3) :
    (∀ manifest bytes fingerprint, encodeManifest blake3 manifest = some (bytes, fingerprint) ↔
      decodeManifest blake3 bytes = some (manifest, fingerprint)) ∧
    (∀ manifest, (encodeManifest blake3 manifest).isSome ↔ manifest.Valid blake3) ∧
    (∀ manifest bytes fingerprint, encodeManifest blake3 manifest = some (bytes, fingerprint) →
      (∀ count < bytes.length, decodeManifest blake3 (bytes.take count) = none) ∧
      (∀ more, more ≠ [] → decodeManifest blake3 (bytes ++ more) = none)) := by
  have hlonger : ∀ {shorter longer more : List UInt8} {left right : GenerationManifest × Digest256},
      decodeManifest blake3 shorter = some left → decodeManifest blake3 longer = some right →
      longer = shorter ++ more → more = [] := by
    intro shorter longer more left right hshorter hlonger heq
    obtain ⟨hleft, -, rfl⟩ := decodeManifest_eq_some.1 hshorter
    obtain ⟨hright, -, rfl⟩ := decodeManifest_eq_some.1 hlonger
    rw [List.append_assoc] at heq
    obtain ⟨-, hrest⟩ := (ManifestReader.reads_manifest (max _ _)).write_append_inj
      (hright.fits.mono (le_max_left _ _)) (hleft.fits.mono (le_max_right _ _)) heq
    have hlength := congrArg List.length hrest
    rw [List.length_append, ManifestReader.length_digest_bytes,
      ManifestReader.length_digest_bytes] at hlength
    exact List.length_eq_zero_iff.1 (by omega)
  refine ⟨fun manifest bytes fingerprint => ?_, fun manifest => ?_,
    fun manifest bytes fingerprint hencode => ⟨fun count hcount => ?_, fun more hmore => ?_⟩⟩
  · rw [encodeManifest_eq_some, decodeManifest_eq_some]
  · rw [Option.isSome_iff_exists]
    constructor
    · rintro ⟨⟨bytes, fingerprint⟩, hencode⟩
      exact (encodeManifest_eq_some.1 hencode).1
    · exact fun hvalid => ⟨_, encodeManifest_eq_some.2 ⟨hvalid, rfl, rfl⟩⟩
  · have hdecode := decodeManifest_eq_some.2 (encodeManifest_eq_some.1 hencode)
    refine Option.eq_none_iff_forall_ne_some.2 fun result hresult => ?_
    have hdrop := hlonger hresult hdecode (List.take_append_drop count bytes).symm
    rw [List.drop_eq_nil_iff] at hdrop
    omega
  · have hdecode := decodeManifest_eq_some.2 (encodeManifest_eq_some.1 hencode)
    exact Option.eq_none_iff_forall_ne_some.2 fun result hresult =>
      hmore (hlonger hdecode hresult rfl)

end Codec

/-! ### One manifest -/

/-- A manifest of one artifact, valid for the hash that is always zero. -/
def oneArtifactManifest : GenerationManifest where
  context := {
    epochs := fun _ => 0
    authorityFingerprint := 0
    resourceGrant := ⟨1, 1, 1⟩
    epochMask := 1
    major := Framework.major
    minor := Framework.minor
    flags := 0
    reserved := 0 }
  stagedReceipt := {
    totalRecords := 1
    totalBytes := 1
    batchCount := 1
    sinkCount := 1
    failedBatchIndex := Framework.noIndex
    failedSinkIndex := Framework.noIndex
    recordType := 1
    effectDisposition := Framework.effectStagedInert }
  request := {
    artifacts := [⟨⟨[97], by decide⟩, {}, 0, [⟨3, 4⟩], generationArtifactRequired, 0⟩]
    stagedSinkArtifactFingerprints := [0]
    perfcacheSinkIndex := 0
    activationEpochId := 0
    epochFingerprint := 0
    stagedReceiptId := 0
    streamFingerprint := 0
    stagedSinkArtifactsFingerprint := 0
    sinkArtifactSetFingerprint := 0
    requiredModuleSetFingerprint := 0
    flags := 0
    reserved := 0 }

theorem manifest_codec_once : decodeManifest (fun _ => 0)
        (appendPayload oneArtifactManifest ++ Digest256.bytes 0 ++ [0]) = none :=
  ((manifest_codec fun _ => 0).2.2 oneArtifactManifest _ 0 (by decide +kernel)).2 [0] (by decide)

end Laplace.Perfcache
