import Laplace.Framework.Types
import Laplace.Fields

/-!
# Generation requests (perfcache.h:15-29, perfcache_registry.h:66-111, perfcache_registry.cpp:59-310, 580-655)

A `laplace_id128` is compared with `memcmp`, so its order is the order of the big-endian numbers. A
pointer and a count are a list. A C string has no zero byte.
-/

namespace Laplace.Perfcache

open Framework


/-- `laplace_perfcache_registry_status` -/
inductive RegistryStatus
  | ok | invalidArgument | providerInvalid | moduleInvalid | moduleSetMismatch | artifactOpenFailed
  | prefaultFailed | epochMismatch | noActiveGeneration | moduleNotFound | busy | allocationFailed
  | internalError | manifestMismatch | dependencyInvalid | alreadyReserved | notAuthorized
  | manifestInvalid | bufferTooSmall
deriving DecidableEq, Repr

def RegistryStatus.code (status : RegistryStatus) : UInt32 := UInt32.ofNat status.ctorIdx

def moduleRequired : UInt32 := 1
def generationArtifactRequired : UInt32 := 1
def artifactProviderAbiMajor : UInt16 := 1
def artifactProviderAbiMinor : UInt16 := 1

/-- `laplace_perfcache_contract` -/
@[ext] structure Contract where
  moduleId : Id128 := 0
  keySchemaId : Id128 := 0
  valueSchemaId : Id128 := 0
  activationEpochId : Id128 := 0
  activationEpochFingerprint : Digest256 := 0
  moduleContractFingerprint : Digest256 := 0
  sourceFingerprint : Digest256 := 0
  recipeFingerprint : Digest256 := 0
  dependencyFingerprint : Digest256 := 0
  keyBytes : UInt32 := 0
  valueBytes : UInt32 := 0
  accessLaw : UInt32 := 0
  flags : UInt64 := 0
deriving DecidableEq

/-- A string that a `const char*` points to. -/
@[ext] structure CString where
  bytes : List UInt8
  nonzero : 0 ∉ bytes
deriving DecidableEq

/-- `laplace_perfcache_generation_dependency` -/
@[ext] structure GenerationDependency where
  moduleId : Id128
  artifactDigest : Digest256
deriving DecidableEq

/-- `laplace_perfcache_generation_artifact` -/
@[ext] structure GenerationArtifact where
  path : CString
  contract : Contract
  expectedArtifactDigest : Digest256
  dependencies : List GenerationDependency
  flags : UInt32
  reserved : UInt32
deriving DecidableEq

/-- `laplace_perfcache_generation_request` -/
@[ext] structure GenerationRequest where
  artifacts : List GenerationArtifact
  stagedSinkArtifactFingerprints : List Digest256
  perfcacheSinkIndex : UInt64
  activationEpochId : Id128
  epochFingerprint : Digest256
  stagedReceiptId : Digest256
  streamFingerprint : Digest256
  stagedSinkArtifactsFingerprint : Digest256
  sinkArtifactSetFingerprint : Digest256
  requiredModuleSetFingerprint : Digest256
  flags : UInt32
  reserved : UInt32
deriving DecidableEq

/-! ## Byte strings -/

/-- `HashContract` and `AppendContract` -/
def contractBytes (contract : Contract) : List UInt8 :=
  contract.moduleId.bytes ++ contract.keySchemaId.bytes ++ contract.valueSchemaId.bytes ++
  contract.activationEpochId.bytes ++ contract.activationEpochFingerprint.bytes ++
  contract.moduleContractFingerprint.bytes ++ contract.sourceFingerprint.bytes ++
  contract.recipeFingerprint.bytes ++ contract.dependencyFingerprint.bytes ++
  u32Bytes contract.keyBytes ++ u32Bytes contract.valueBytes ++ u32Bytes contract.accessLaw ++
  u64Bytes contract.flags

/-- The two fields of a dependency, as they are hashed and written. -/
def dependencyBytes (dependency : GenerationDependency) : List UInt8 :=
  dependency.moduleId.bytes ++ dependency.artifactDigest.bytes

/-- A `size_t` as it is hashed and written. -/
def sizeBytes (size : ℕ) : List UInt8 := u64Bytes (UInt64.ofNat size)

section Functions

variable (blake3 : Blake3)

/-- `DependencyFingerprint` -/
def dependencyFingerprint (dependencies : List GenerationDependency) : Digest256 :=
  blake3 (domainBytes "laplace-perfcache-module-dependencies-v1" ++
    sizeBytes dependencies.length ++ dependencies.flatMap dependencyBytes)

/-- `ManifestFingerprint` -/
def manifestFingerprint (request : GenerationRequest) : Digest256 :=
  blake3 (domainBytes "laplace-perfcache-generation-manifest-v1" ++
    request.activationEpochId.bytes ++ request.epochFingerprint.bytes ++
    request.stagedReceiptId.bytes ++ request.streamFingerprint.bytes ++
    request.stagedSinkArtifactsFingerprint.bytes ++ request.sinkArtifactSetFingerprint.bytes ++
    sizeBytes request.stagedSinkArtifactFingerprints.length ++
    u64Bytes request.perfcacheSinkIndex ++
    request.stagedSinkArtifactFingerprints.flatMap Digest256.bytes ++
    request.requiredModuleSetFingerprint.bytes ++ sizeBytes request.artifacts.length ++
    request.artifacts.flatMap fun artifact =>
      contractBytes artifact.contract ++ artifact.expectedArtifactDigest.bytes ++
      sizeBytes artifact.path.bytes.length ++ artifact.path.bytes ++
      sizeBytes artifact.dependencies.length ++ artifact.dependencies.flatMap dependencyBytes ++
      u32Bytes artifact.flags)

/-! ## Checks -/

/-- The ids of the modules of a list grow strictly. -/
def modulesGrow : List Id128 → Bool
  | first :: second :: rest => decide (first < second) && modulesGrow (second :: rest)
  | _ => true

/-- `ArtifactRequestShapeValid` -/
def artifactRequestShapeValid (request : GenerationRequest) : Bool :=
  if request.artifacts = [] ∨ request.flags ≠ 0 ∨ request.reserved ≠ 0 then false
  else
    (request.artifacts.all fun artifact =>
      decide (artifact.path.bytes ≠ []) &&
      decide (artifact.flags &&& ~~~generationArtifactRequired = 0) &&
      decide (artifact.reserved = 0) &&
      modulesGrow (artifact.dependencies.map GenerationDependency.moduleId)) &&
    modulesGrow (request.artifacts.map fun artifact => artifact.contract.moduleId)

/-- `RequestShapeValid` -/
def requestShapeValid (request : GenerationRequest) : Bool :=
  artifactRequestShapeValid request && decide (request.stagedSinkArtifactFingerprints ≠ []) &&
  decide (request.perfcacheSinkIndex.toNat < request.stagedSinkArtifactFingerprints.length)

/-- `StagedReceiptMatches` -/
def stagedReceiptMatches (context : Context) (stagedReceipt : StreamReceipt)
    (request : GenerationRequest) : Bool :=
  let expectedSink :=
    sinkArtifactsFingerprint blake3 request.stagedSinkArtifactFingerprints
  let sinkEvidenceMatches :=
    expectedSink.1 = .ok ∧
    request.stagedSinkArtifactFingerprints[request.perfcacheSinkIndex.toNat]?.getD 0 =
      request.sinkArtifactSetFingerprint ∧
    stagedReceipt.sinkArtifactsFingerprint = expectedSink.2
  let fingerprint := contextFingerprint blake3 context
  streamReceiptValidate blake3 context stagedReceipt = .ok ∧ fingerprint.1 = .ok ∧
    stagedReceipt.status = .ok ∧ stagedReceipt.effectDisposition = effectStagedInert ∧
    stagedReceipt.failedBatchIndex = noIndex ∧
    stagedReceipt.failedSinkIndex = noIndex ∧
    stagedReceipt.sinkCount.toNat = request.stagedSinkArtifactFingerprints.length ∧
    stagedReceipt.contextFingerprint = fingerprint.2 ∧
    stagedReceipt.receiptId = request.stagedReceiptId ∧
    stagedReceipt.streamFingerprint = request.streamFingerprint ∧
    stagedReceipt.sinkArtifactsFingerprint = request.stagedSinkArtifactsFingerprint ∧
    sinkEvidenceMatches

end Functions

end Laplace.Perfcache
