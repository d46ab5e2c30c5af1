import Laplace.Lib.Reader
import Laplace.Perfcache.Types

/-!
# The encoded generation manifest (perfcache_registry.cpp:656-1082)

The writer appends the fields one after another and closes with a digest of all of them; the reader
takes them off in the same order. Every count is written before what it counts, so the format is
read in one way only, whatever the hash is.
-/

namespace Laplace.Perfcache

open Execution (ExecutionGrant)
open Framework (Context StreamReceipt Status epochCount)

def encodedManifestMagic : List UInt8 := [76, 80, 67, 77, 78, 70, 48, 50]
def encodedManifestVersion : UInt32 := 2

/-- `laplace_perfcache_generation_manifest` -/
@[ext] structure GenerationManifest where
  context : Context
  stagedReceipt : StreamReceipt
  request : GenerationRequest
deriving DecidableEq

/-! ## The writer -/

def appendContext (context : Context) : List UInt8 :=
  (List.ofFn context.epochs).flatMap Digest256.bytes ++ context.authorityFingerprint.bytes ++
  u64Bytes context.resourceGrant.memoryBytes ++ u32Bytes context.resourceGrant.cpuSlots ++
  u32Bytes context.resourceGrant.ioSlots ++ u64Bytes context.epochMask ++
  storeU16 context.major ++ storeU16 context.minor ++ u32Bytes context.flags ++
  u32Bytes context.reserved

def appendStagedReceipt (receipt : StreamReceipt) : List UInt8 :=
  receipt.receiptId.bytes ++ receipt.contextFingerprint.bytes ++ receipt.sourceFingerprint.bytes ++
  receipt.recipeFingerprint.bytes ++ receipt.streamFingerprint.bytes ++
  receipt.sinkArtifactsFingerprint.bytes ++ u64Bytes receipt.totalRecords ++
  u64Bytes receipt.totalBytes ++ u64Bytes receipt.batchCount ++ u64Bytes receipt.sinkCount ++
  u64Bytes receipt.failedBatchIndex ++ u64Bytes receipt.failedSinkIndex ++
  u32Bytes receipt.recordType ++ u32Bytes receipt.effectDisposition ++
  u32Bytes receipt.status.code ++ u32Bytes receipt.reserved

def appendArtifact (artifact : GenerationArtifact) : List UInt8 :=
  u32Bytes (UInt32.ofNat artifact.path.bytes.length) ++ artifact.path.bytes ++
  contractBytes artifact.contract ++ artifact.expectedArtifactDigest.bytes ++
  u32Bytes (UInt32.ofNat artifact.dependencies.length) ++ u32Bytes artifact.flags ++
  u32Bytes artifact.reserved ++ artifact.dependencies.flatMap dependencyBytes

/-- The loop over the artifacts, which stops at one whose counts do not fit 32 bits. -/
def appendArtifacts : List GenerationArtifact → List UInt8 → Option (List UInt8)
  | [], output => some output
  | artifact :: artifacts, output =>
    if artifact.path.bytes.length = 0 ∨ UInt32.size ≤ artifact.path.bytes.length ∨
        UInt32.size ≤ artifact.dependencies.length then none
    else appendArtifacts artifacts (output ++ appendArtifact artifact)

/-- What precedes the artifacts. -/
def appendHead (manifest : GenerationManifest) : List UInt8 :=
  encodedManifestMagic ++ u32Bytes encodedManifestVersion ++
  u32Bytes (UInt32.ofNat manifest.request.artifacts.length) ++ appendContext manifest.context ++
  appendStagedReceipt manifest.stagedReceipt ++ manifest.request.activationEpochId.bytes ++
  manifest.request.epochFingerprint.bytes ++ manifest.request.stagedReceiptId.bytes ++
  manifest.request.streamFingerprint.bytes ++
  manifest.request.stagedSinkArtifactsFingerprint.bytes ++
  manifest.request.sinkArtifactSetFingerprint.bytes ++
  sizeBytes manifest.request.stagedSinkArtifactFingerprints.length ++
  u64Bytes manifest.request.perfcacheSinkIndex ++
  manifest.request.stagedSinkArtifactFingerprints.flatMap Digest256.bytes ++
  manifest.request.requiredModuleSetFingerprint.bytes ++ u32Bytes manifest.request.flags ++
  u32Bytes manifest.request.reserved

section Functions

variable (blake3 : Blake3)

/-- `EncodedManifestFingerprint` -/
def encodedManifestFingerprint (bytes : List UInt8) : Digest256 :=
  blake3 (domainBytes "laplace-perfcache-encoded-generation-manifest-v2" ++ bytes)

/-- `EncodeManifest`: the bytes and their fingerprint. -/
def encodeManifest (manifest : GenerationManifest) : Option (List UInt8 × Digest256) :=
  if !requestShapeValid manifest.request ∨
      !stagedReceiptMatches blake3 manifest.context manifest.stagedReceipt manifest.request ∨
      UInt32.size ≤ manifest.request.artifacts.length then none
  else do
    let output ← appendArtifacts manifest.request.artifacts (appendHead manifest)
    let fingerprint := encodedManifestFingerprint blake3 output
    return (output ++ fingerprint.bytes, fingerprint)

end Functions

/-! ## The reader -/

namespace ManifestReader

open Reader

def u16 : Reader UInt16 := load 2 loadU16
def u32 : Reader UInt32 := load 4 loadU32
def u64 : Reader UInt64 := load 8 loadU64
def readDigest : Reader Digest256 := load 32 loadDigest
def readId : Reader Id128 := load 16 loadId

/-- `ReadContract` -/
def readContract : Reader Contract := do
  let moduleId ← readId
  let keySchemaId ← readId
  let valueSchemaId ← readId
  let activationEpochId ← readId
  let activationEpochFingerprint ← readDigest
  let moduleContractFingerprint ← readDigest
  let sourceFingerprint ← readDigest
  let recipeFingerprint ← readDigest
  let dependencyFingerprint ← readDigest
  let keyBytes ← u32
  let valueBytes ← u32
  let accessLaw ← u32
  let flags ← u64
  return ⟨moduleId, keySchemaId, valueSchemaId, activationEpochId, activationEpochFingerprint,
    moduleContractFingerprint, sourceFingerprint, recipeFingerprint, dependencyFingerprint,
    keyBytes, valueBytes, accessLaw, flags⟩

def readContext : Reader Context := do
  let epochs ← readDigest.many epochCount
  let authorityFingerprint ← readDigest
  let memoryBytes ← u64
  let cpuSlots ← u32
  let ioSlots ← u32
  let epochMask ← u64
  let major ← u16
  let minor ← u16
  let flags ← u32
  let reserved ← u32
  return ⟨fun index => epochs.getD index 0, authorityFingerprint,
    ⟨memoryBytes, cpuSlots, ioSlots⟩, epochMask, major, minor, flags, reserved⟩

def readStatus : Reader Status := do
  let status ← u32
  guard (status ≤ Status.replayMismatch.code)
  return Status.ofNat status.toNat

def readStagedReceipt : Reader StreamReceipt := do
  let receiptId ← readDigest
  let contextFingerprint ← readDigest
  let sourceFingerprint ← readDigest
  let recipeFingerprint ← readDigest
  let streamFingerprint ← readDigest
  let sinkArtifactsFingerprint ← readDigest
  let totalRecords ← u64
  let totalBytes ← u64
  let batchCount ← u64
  let sinkCount ← u64
  let failedBatchIndex ← u64
  let failedSinkIndex ← u64
  let recordType ← u32
  let effectDisposition ← u32
  let status ← readStatus
  let reserved ← u32
  return ⟨receiptId, contextFingerprint, sourceFingerprint, recipeFingerprint, streamFingerprint,
    sinkArtifactsFingerprint, totalRecords, totalBytes, batchCount, sinkCount, failedBatchIndex,
    failedSinkIndex, recordType, effectDisposition, status, reserved⟩

/-- Bytes without a zero among them (`memchr`). -/
def readPath (count : ℕ) : Reader CString := do
  let bytes ← take count
  if h : 0 ∉ bytes then return ⟨bytes, h⟩ else failure

def readDependency : Reader GenerationDependency := do
  let moduleId ← readId
  let artifactDigest ← readDigest
  return ⟨moduleId, artifactDigest⟩

def readArtifact : Reader GenerationArtifact := do
  let pathBytes ← u32
  guard (pathBytes ≠ 0)
  let path ← readPath pathBytes.toNat
  let contract ← readContract
  let expectedArtifactDigest ← readDigest
  let dependencyCount ← u32
  let left ← remaining
  guard (dependencyCount.toNat ≤ left / 48)
  let flags ← u32
  let reserved ← u32
  let dependencies ← readDependency.many dependencyCount.toNat
  return ⟨path, contract, expectedArtifactDigest, dependencies, flags, reserved⟩

/-- The fields of a manifest, from a payload of `payloadBytes` bytes. -/
def readManifest (payloadBytes : ℕ) : Reader GenerationManifest := do
  let magic ← take 8
  guard (magic = encodedManifestMagic)
  let version ← u32
  guard (version = encodedManifestVersion)
  let artifactCount ← u32
  guard (artifactCount ≠ 0 ∧ artifactCount.toNat ≤ payloadBytes / 64)
  let context ← readContext
  let stagedReceipt ← readStagedReceipt
  let activationEpochId ← readId
  let epochFingerprint ← readDigest
  let stagedReceiptId ← readDigest
  let streamFingerprint ← readDigest
  let stagedSinkArtifactsFingerprint ← readDigest
  let sinkArtifactSetFingerprint ← readDigest
  let stagedSinkCount ← u64
  let perfcacheSinkIndex ← u64
  guard (stagedSinkCount ≠ 0 ∧ perfcacheSinkIndex < stagedSinkCount)
  let left ← remaining
  guard (stagedSinkCount.toNat ≤ left / 32)
  let stagedSinkArtifactFingerprints ← readDigest.many stagedSinkCount.toNat
  let requiredModuleSetFingerprint ← readDigest
  let flags ← u32
  let reserved ← u32
  let artifacts ← readArtifact.many artifactCount.toNat
  return ⟨context, stagedReceipt,
    ⟨artifacts, stagedSinkArtifactFingerprints, perfcacheSinkIndex, activationEpochId,
      epochFingerprint, stagedReceiptId, streamFingerprint, stagedSinkArtifactsFingerprint,
      sinkArtifactSetFingerprint, requiredModuleSetFingerprint, flags, reserved⟩⟩

end ManifestReader

/-- `DecodeManifest`: the manifest and the fingerprint of its bytes. -/
def decodeManifest (blake3 : Blake3) (bytes : List UInt8) :
    Option (GenerationManifest × Digest256) :=
  if bytes.length < 8 + 8 + 32 then none
  else
    let payloadBytes := bytes.length - 32
    let fingerprint := encodedManifestFingerprint blake3 (bytes.take payloadBytes)
    if fingerprint.bytes ≠ bytes.drop payloadBytes then none
    else
      match (ManifestReader.readManifest payloadBytes).run (bytes.take payloadBytes) with
      | some (manifest, []) =>
        if requestShapeValid manifest.request ∧
            stagedReceiptMatches blake3 manifest.context manifest.stagedReceipt manifest.request then
          some (manifest, fingerprint)
        else none
      | _ => none

/-! ## The readers undo the writers -/

namespace ManifestReader

open Reader

theorem reads_u16 : Reads u16 storeU16 fun _ => True :=
  reads_load Layout.word16 loadU16_eq storeU16_eq

theorem reads_u32 : Reads u32 u32Bytes fun _ => True :=
  reads_load Layout.word32 loadU32_eq u32Bytes_eq

theorem reads_u64 : Reads u64 u64Bytes fun _ => True :=
  reads_load Layout.word64 loadU64_eq u64Bytes_eq

theorem reads_digest : Reads readDigest Digest256.bytes fun _ => True :=
  reads_load (Layout.bits 32) loadDigest_eq digest_bytes_eq

theorem reads_id : Reads readId Id128.bytes fun _ => True :=
  reads_load (Layout.bits 16) loadId_eq id_bytes_eq

theorem reads_contract : Reads readContract contractBytes fun _ => True := by
  unfold contractBytes
  simp only [List.append_assoc]
  refine .fields ?_
  refine reads_id.field Contract.moduleId fun moduleId => ?_
  refine reads_id.field Contract.keySchemaId fun keySchemaId => ?_
  refine reads_id.field Contract.valueSchemaId fun valueSchemaId => ?_
  refine reads_id.field Contract.activationEpochId fun epochId => ?_
  refine reads_digest.field Contract.activationEpochFingerprint fun epoch => ?_
  refine reads_digest.field Contract.moduleContractFingerprint fun law => ?_
  refine reads_digest.field Contract.sourceFingerprint fun source => ?_
  refine reads_digest.field Contract.recipeFingerprint fun recipe => ?_
  refine reads_digest.field Contract.dependencyFingerprint fun needs => ?_
  refine reads_u32.field Contract.keyBytes fun keyBytes => ?_
  refine reads_u32.field Contract.valueBytes fun valueBytes => ?_
  refine reads_u32.field Contract.accessLaw fun accessLaw => ?_
  refine reads_u64.last Contract.flags (fun _ _ => trivial) fun flags _ contract => ?_
  simp only [Contract.ext_iff, true_and, and_assoc]

theorem epochs_eq_iff (epochs : Fin epochCount → Digest256) {list : List Digest256}
    (hlength : list.length = epochCount) :
    List.ofFn epochs = list ↔ epochs = fun index : Fin epochCount => list.getD index 0 := by
  constructor
  · rintro rfl
    funext index
    simp
  · rintro rfl
    refine List.ext_getElem (by simp [hlength]) fun index _ hright => ?_
    simp [hright]

theorem reads_context : Reads readContext appendContext fun _ => True := by
  unfold appendContext
  simp only [List.append_assoc]
  refine .fields ?_
  refine (reads_digest.many epochCount).bind (fun context : Context => List.ofFn context.epochs)
    (fun _ _ => ⟨List.length_ofFn, fun _ _ => trivial⟩) fun epochs hepochs => ?_
  refine reads_digest.field Context.authorityFingerprint fun authority => ?_
  refine reads_u64.field (fun context : Context => context.resourceGrant.memoryBytes) fun memoryBytes => ?_
  refine reads_u32.field (fun context : Context => context.resourceGrant.cpuSlots) fun cpuSlots => ?_
  refine reads_u32.field (fun context : Context => context.resourceGrant.ioSlots) fun ioSlots => ?_
  refine reads_u64.field Context.epochMask fun epochMask => ?_
  refine reads_u16.field Context.major fun major => ?_
  refine reads_u16.field Context.minor fun minor => ?_
  refine reads_u32.field Context.flags fun flags => ?_
  refine reads_u32.last Context.reserved (fun _ _ => trivial) fun reserved _ context => ?_
  rw [epochs_eq_iff _ hepochs.1]
  obtain ⟨_, _, ⟨_, _, _⟩, _, _, _, _, _⟩ := context
  simp only [Context.mk.injEq, ExecutionGrant.mk.injEq, true_and, and_assoc]

theorem status_code_iff {code : UInt32} (hcode : code ≤ Status.replayMismatch.code)
    (status : Status) : status.code = code ↔ status = Status.ofNat code.toNat := by
  have hround : ∀ number < 23, (Status.ofNat number).code = UInt32.ofNat number := by decide
  have hlt : code.toNat < 23 := Nat.lt_succ_of_le hcode
  constructor
  · rintro rfl
    cases status <;> rfl
  · rintro rfl
    rw [hround _ hlt, UInt32.ofNat_toNat]

theorem reads_status : Reads readStatus (fun status => u32Bytes status.code) fun _ => True := by
  have hknown : ∀ status : Status, status.code ≤ Status.replayMismatch.code := by
    intro status
    cases status <;> decide
  refine .fields ((reads_u32.field Status.code fun code => ?_).congr
    (fun _ => Iff.rfl) fun _ _ => List.append_nil _)
  refine .guard_then (fun status hstatus => hstatus.2.2 ▸ hknown status) fun hcode => ?_
  exact .pure fun status => by rw [true_and, true_and, status_code_iff hcode]

theorem reads_stagedReceipt : Reads readStagedReceipt appendStagedReceipt fun _ => True := by
  unfold appendStagedReceipt
  simp only [List.append_assoc]
  refine .fields ?_
  refine reads_digest.field StreamReceipt.receiptId fun receiptId => ?_
  refine reads_digest.field StreamReceipt.contextFingerprint fun context => ?_
  refine reads_digest.field StreamReceipt.sourceFingerprint fun source => ?_
  refine reads_digest.field StreamReceipt.recipeFingerprint fun recipe => ?_
  refine reads_digest.field StreamReceipt.streamFingerprint fun stream => ?_
  refine reads_digest.field StreamReceipt.sinkArtifactsFingerprint fun sinkArtifacts => ?_
  refine reads_u64.field StreamReceipt.totalRecords fun totalRecords => ?_
  refine reads_u64.field StreamReceipt.totalBytes fun totalBytes => ?_
  refine reads_u64.field StreamReceipt.batchCount fun batchCount => ?_
  refine reads_u64.field StreamReceipt.sinkCount fun sinkCount => ?_
  refine reads_u64.field StreamReceipt.failedBatchIndex fun batchIndex => ?_
  refine reads_u64.field StreamReceipt.failedSinkIndex fun sinkIndex => ?_
  refine reads_u32.field StreamReceipt.recordType fun recordType => ?_
  refine reads_u32.field StreamReceipt.effectDisposition fun effect => ?_
  refine reads_status.field StreamReceipt.status fun status => ?_
  refine reads_u32.last StreamReceipt.reserved (fun _ _ => trivial) fun reserved _ receipt => ?_
  obtain ⟨_, _, _, _, _, _, _, _, _, _, _, _, _, _, _, _⟩ := receipt
  simp only [StreamReceipt.mk.injEq, true_and, and_assoc]

theorem reads_path (count : ℕ) :
    Reads (readPath count) CString.bytes fun path => path.bytes.length = count := by
  refine ⟨fun path rest hlength => ?_, fun bytes path rest hrun => ?_⟩
  · rw [readPath, run_bind, (reads_take count).accepts path.bytes rest hlength, Option.bind_some,
      dif_pos path.nonzero]
    rfl
  · rw [readPath, run_bind] at hrun
    obtain ⟨⟨front, middle⟩, hfirst, hsecond⟩ := Option.bind_eq_some_iff.1 hrun
    obtain ⟨hlength, rfl⟩ := (reads_take count).canonical bytes front middle hfirst
    dsimp only at hsecond
    split at hsecond
    · obtain ⟨rfl, rfl⟩ := Prod.mk.inj (Option.some.inj hsecond)
      exact ⟨hlength, rfl⟩
    · cases hsecond

theorem reads_dependency : Reads readDependency dependencyBytes fun _ => True := by
  refine .fields ?_
  refine reads_id.field GenerationDependency.moduleId fun moduleId => ?_
  refine reads_digest.last GenerationDependency.artifactDigest (fun _ _ => trivial)
    fun artifactDigest _ dependency => ?_
  rw [GenerationDependency.ext_iff, true_and, true_and]

end ManifestReader

/-- The counts of an artifact that `EncodeManifest` checks. -/
structure GenerationArtifact.Fits (artifact : GenerationArtifact) : Prop where
  path_ne : artifact.path.bytes.length ≠ 0
  path_lt : artifact.path.bytes.length < UInt32.size
  dependencies_lt : artifact.dependencies.length < UInt32.size

namespace ManifestReader

open Reader

theorem word_iff {count : ℕ} {word : UInt32} (hcount : count < UInt32.size) :
    UInt32.ofNat count = word ↔ count = word.toNat := by
  rw [← UInt32.toNat_inj, UInt32.toNat_ofNat_of_lt' hcount]

theorem length_flatMap_dependencies (dependencies : List GenerationDependency) :
    (dependencies.flatMap dependencyBytes).length = 48 * dependencies.length := by
  rw [List.length_flatMap, List.map_congr_left (g := fun _ => 48), List.map_const',
    List.sum_replicate, smul_eq_mul, Nat.mul_comm]
  intro dependency _
  simp [dependencyBytes, Digest256.bytes, Id128.bytes, bigEndianBytes]

theorem reads_artifact : Reads readArtifact appendArtifact GenerationArtifact.Fits := by
  unfold appendArtifact
  simp only [List.append_assoc]
  refine .fields ?_
  refine reads_u32.bind
    (fun artifact : GenerationArtifact => UInt32.ofNat artifact.path.bytes.length)
    (fun _ _ => trivial) fun pathBytes _ => ?_
  refine .guard_then (fun artifact h => ?_) fun hpathBytes => ?_
  · rintro rfl
    exact h.1.path_ne ((word_iff h.1.path_lt).1 h.2.2)
  refine (reads_path pathBytes.toNat).bind GenerationArtifact.path
    (fun artifact h => (word_iff h.1.path_lt).1 h.2.2) fun path hpath => ?_
  refine reads_contract.field GenerationArtifact.contract fun contract => ?_
  refine reads_digest.field GenerationArtifact.expectedArtifactDigest fun digest => ?_
  refine reads_u32.bind
    (fun artifact : GenerationArtifact => UInt32.ofNat artifact.dependencies.length)
    (fun _ _ => trivial) fun dependencyCount _ => ?_
  refine .remaining_then ?_ fun artifact left h hleft => ?_
  · refine reads_u32.field GenerationArtifact.flags fun flags => ?_
    refine reads_u32.field GenerationArtifact.reserved fun reserved => ?_
    refine (reads_dependency.many dependencyCount.toNat).last GenerationArtifact.dependencies
      (fun artifact h => ⟨(word_iff h.1.dependencies_lt).1 h.2.1.1.2, fun _ _ => trivial⟩)
      fun dependencies hdependencies artifact => ?_
    constructor
    · rintro ⟨-, ⟨⟨⟨⟨⟨⟨⟨-, -⟩, rfl⟩, rfl⟩, rfl⟩, -⟩, rfl⟩, rfl⟩, rfl⟩
      rfl
    · rintro rfl
      have hpathLt : path.bytes.length < UInt32.size := hpath ▸ pathBytes.toNat_lt
      have hcountLt : dependencies.length < UInt32.size :=
        hdependencies.1 ▸ dependencyCount.toNat_lt
      have hne : path.bytes.length ≠ 0 := fun h =>
        hpathBytes (UInt32.toNat_inj.1 (hpath.symm.trans h))
      exact ⟨⟨hne, hpathLt, hcountLt⟩, ⟨⟨⟨⟨⟨⟨⟨trivial, (word_iff hpathLt).2 hpath⟩, rfl⟩, rfl⟩, rfl⟩,
        (word_iff hcountLt).2 hdependencies.1⟩, rfl⟩, rfl⟩, rfl⟩
  · have hcount := (word_iff h.1.dependencies_lt).1 h.2.2
    simp only [List.length_append, length_flatMap_dependencies] at hleft
    omega

end ManifestReader

/-- What the reader demands of the counts of a manifest in a payload of `payloadBytes` bytes. -/
structure GenerationManifest.Fits (payloadBytes : ℕ) (manifest : GenerationManifest) : Prop where
  artifacts_ne : manifest.request.artifacts.length ≠ 0
  artifacts_lt : manifest.request.artifacts.length < UInt32.size
  artifacts_le : manifest.request.artifacts.length ≤ payloadBytes / 64
  sinks_lt : manifest.request.stagedSinkArtifactFingerprints.length < UInt64.size
  index_lt : manifest.request.perfcacheSinkIndex.toNat <
    manifest.request.stagedSinkArtifactFingerprints.length
  artifacts_fit : ∀ artifact ∈ manifest.request.artifacts, artifact.Fits

/-- Everything before the digest. -/
def appendPayload (manifest : GenerationManifest) : List UInt8 :=
  appendHead manifest ++ manifest.request.artifacts.flatMap appendArtifact

namespace ManifestReader

open Reader

theorem size_iff {count : ℕ} {word : UInt64} (hcount : count < UInt64.size) :
    UInt64.ofNat count = word ↔ count = word.toNat := by
  rw [← UInt64.toNat_inj, Checked.toNat_ofNat hcount]

theorem length_digest_bytes (digest : Digest256) : digest.bytes.length = 32 := by
  simp [Digest256.bytes, bigEndianBytes]

theorem length_flatMap_digests (digests : List Digest256) :
    (digests.flatMap Digest256.bytes).length = 32 * digests.length := by
  rw [List.length_flatMap, List.map_congr_left (g := fun _ => 32)
    fun digest _ => length_digest_bytes digest, List.map_const', List.sum_replicate, smul_eq_mul,
    Nat.mul_comm]

theorem reads_manifest (payloadBytes : ℕ) : Reads (readManifest payloadBytes) appendPayload
    (GenerationManifest.Fits payloadBytes) := by
  unfold appendPayload appendHead sizeBytes
  simp only [List.append_assoc]
  refine .fields ?_
  refine (reads_take 8).bind (fun _ : GenerationManifest => encodedManifestMagic)
    (fun _ _ => rfl) fun magic _ => ?_
  refine .guard_then (fun _ h => h.2.2.symm) fun hmagic => ?_
  refine reads_u32.field (fun _ : GenerationManifest => encodedManifestVersion) fun version => ?_
  refine .guard_then (fun _ h => h.2.2.symm) fun hversion => ?_
  refine reads_u32.bind
    (fun manifest : GenerationManifest => UInt32.ofNat manifest.request.artifacts.length)
    (fun _ _ => trivial) fun artifactCount _ => ?_
  refine .guard_then (fun manifest h => ?_) fun hartifacts => ?_
  · have hcount := (word_iff h.1.artifacts_lt).1 h.2.2
    refine ⟨?_, hcount ▸ h.1.artifacts_le⟩
    rintro rfl
    exact h.1.artifacts_ne hcount
  refine reads_context.field GenerationManifest.context fun context => ?_
  refine reads_stagedReceipt.field GenerationManifest.stagedReceipt fun stagedReceipt => ?_
  refine reads_id.field (fun manifest : GenerationManifest => manifest.request.activationEpochId)
    fun activationEpochId => ?_
  refine reads_digest.field (fun manifest : GenerationManifest => manifest.request.epochFingerprint)
    fun epochFingerprint => ?_
  refine reads_digest.field (fun manifest : GenerationManifest => manifest.request.stagedReceiptId)
    fun stagedReceiptId => ?_
  refine reads_digest.field (fun manifest : GenerationManifest => manifest.request.streamFingerprint)
    fun streamFingerprint => ?_
  refine reads_digest.bind
    (fun manifest : GenerationManifest => manifest.request.stagedSinkArtifactsFingerprint)
    (fun _ _ => trivial) fun sinkArtifacts _ => ?_
  refine reads_digest.bind
    (fun manifest : GenerationManifest => manifest.request.sinkArtifactSetFingerprint)
    (fun _ _ => trivial) fun artifactSet _ => ?_
  refine reads_u64.bind
    (fun manifest : GenerationManifest =>
      UInt64.ofNat manifest.request.stagedSinkArtifactFingerprints.length)
    (fun _ _ => trivial) fun stagedSinkCount _ => ?_
  refine reads_u64.field (fun manifest : GenerationManifest => manifest.request.perfcacheSinkIndex)
    fun perfcacheSinkIndex => ?_
  refine .guard_then (fun manifest h => ?_) fun hsinks => ?_
  · have hcount := (size_iff h.1.sinks_lt).1 h.2.1.2
    have hindex : manifest.request.perfcacheSinkIndex = perfcacheSinkIndex := h.2.2
    have hlt : perfcacheSinkIndex < stagedSinkCount := by
      rw [UInt64.lt_iff_toNat_lt, ← hindex, ← hcount]
      exact h.1.index_lt
    refine ⟨?_, hlt⟩
    rintro rfl
    exact UInt64.not_lt_zero hlt
  refine .remaining_then ?_ fun manifest left h hleft => ?_
  swap
  · have hcount := (size_iff h.1.sinks_lt).1 h.2.1.2
    simp only [List.length_append, length_flatMap_digests] at hleft
    omega
  refine (reads_digest.many stagedSinkCount.toNat).bind
    (fun manifest : GenerationManifest => manifest.request.stagedSinkArtifactFingerprints)
    (fun manifest h => ⟨(size_iff h.1.sinks_lt).1 h.2.1.2, fun _ _ => trivial⟩)
    fun sinks hsinksLength => ?_
  refine reads_digest.bind
    (fun manifest : GenerationManifest => manifest.request.requiredModuleSetFingerprint)
    (fun _ _ => trivial) fun moduleSet _ => ?_
  refine reads_u32.field (fun manifest : GenerationManifest => manifest.request.flags)
    fun flags => ?_
  refine reads_u32.field (fun manifest : GenerationManifest => manifest.request.reserved)
    fun reserved => ?_
  refine (reads_artifact.many artifactCount.toNat).last
    (fun manifest : GenerationManifest => manifest.request.artifacts) (fun manifest h => ?_)
    fun artifacts hartifactsFit manifest => ?_
  · obtain ⟨hfits, hknown⟩ := h
    simp only [and_assoc] at hknown
    obtain ⟨-, -, -, hcount, -⟩ := hknown
    exact ⟨(word_iff hfits.artifacts_lt).1 hcount, hfits.artifacts_fit⟩
  · simp only [and_assoc]
    constructor
    · rintro ⟨-, -, -, -, -, rfl, rfl, rfl, rfl, rfl, rfl, rfl, rfl, -, rfl, rfl, rfl, rfl, rfl, rfl⟩
      rfl
    · rintro rfl
      have hcountLt : artifacts.length < UInt32.size := hartifactsFit.1 ▸ artifactCount.toNat_lt
      have hsinksLt : sinks.length < UInt64.size := hsinksLength.1 ▸ stagedSinkCount.toNat_lt
      have hne : artifacts.length ≠ 0 := fun h =>
        hartifacts.1 (UInt32.toNat_inj.1 (hartifactsFit.1.symm.trans h))
      have hindex : perfcacheSinkIndex.toNat < sinks.length := by
        rw [hsinksLength.1, ← UInt64.lt_iff_toNat_lt]
        exact hsinks.2
      exact ⟨⟨hne, hcountLt, hartifactsFit.1 ▸ hartifacts.2, hsinksLt, hindex, hartifactsFit.2⟩,
        trivial, hmagic.symm, hversion.symm, (word_iff hcountLt).2 hartifactsFit.1, rfl, rfl, rfl, rfl,
        rfl, rfl, rfl, rfl, (size_iff hsinksLt).2 hsinksLength.1, rfl, rfl, rfl, rfl, rfl, rfl⟩

end ManifestReader

theorem GenerationManifest.Fits.mono {manifest : GenerationManifest} {fewer more : ℕ}
    (h : manifest.Fits fewer) (hle : fewer ≤ more) : manifest.Fits more :=
  { h with artifacts_le := h.artifacts_le.trans (Nat.div_le_div_right hle) }

end Laplace.Perfcache
