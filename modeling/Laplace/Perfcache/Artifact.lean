import Laplace.Lib.Guarded
import Laplace.Packets.Fields
import Laplace.Perfcache.Types

/-!
# Artifacts (perfcache.c:78-612)

An artifact is a header of 352 bytes, the records, the metadata and a digest of all of it. A
pointer and what it points to are a list. Every calculation of a size or an offset is one that
traps where it would wrap around.
-/

namespace Laplace.Perfcache

open Guarded
open Checked (maxWord)

/-- `laplace_perfcache_status`, for what these functions return besides OK. -/
inductive ArtifactStatus
  | invalidArgument | sizeOverflow | bufferTooSmall | badMagic | unsupportedVersion | headerInvalid
  | sectionInvalid | digestMismatch | contractMismatch | keysNotSortedUnique | denseKeyMismatch
deriving DecidableEq, Repr

/-- `laplace_perfcache_spec`, whose records and metadata are as long as it says. -/
structure ArtifactSpec where
  contract : Contract
  records : List UInt8
  recordCount : UInt64
  metadata : List UInt8
  metadataBytes : UInt64
  records_length : records.length =
    recordCount.toNat * (contract.keyBytes.toNat + contract.valueBytes.toNat)
  metadata_length : metadata.length = metadataBytes.toNat

/-- `laplace_perfcache_view`, with what its pointers point to; the artifact is the one that was
validated. -/
@[ext] structure ArtifactView where
  contract : Contract
  records : List UInt8
  recordCount : UInt64
  recordStride : UInt32
  metadata : List UInt8
  metadataBytes : UInt64
  artifactDigest : Digest256

def formatVersion : UInt32 := 3
def artifactHeaderBytes : ℕ := 352
def artifactDigestBytes : ℕ := 32
def accessSortedUniqueFixed : UInt32 := 1
def accessDenseU32ZeroBased : UInt32 := 2
def accessModuleDefined : UInt32 := 3
def uint32Max : ℕ := 2 ^ 32 - 1

def artifactMagic : List UInt8 := domainBytes "LAPCACHE"

/-- `bytes_zero` -/
def bytesZero (bytes : List UInt8) : Bool := bytes.foldl (fun combined byte => combined ||| byte) 0 = 0

/-! ## Contracts and records -/

/-- `contract_valid` -/
def contractValid (contract : Contract) : Guarded ArtifactStatus Bool := do
  let stride ← add contract.keyBytes.toUInt64 contract.valueBytes.toUInt64
  return contract.valueBytes ≠ 0 ∧ stride ≠ 0 ∧ stride.toNat ≤ uint32Max ∧ contract.flags = 0 ∧
    (contract.accessLaw = accessSortedUniqueFixed → contract.keyBytes ≠ 0) ∧
    (contract.accessLaw = accessDenseU32ZeroBased → contract.keyBytes = 4) ∧
    (contract.accessLaw = accessSortedUniqueFixed ∨ contract.accessLaw = accessDenseU32ZeroBased ∨
      contract.accessLaw = accessModuleDefined)

/-- `records_sorted_unique` -/
def recordsSortedUnique (records : List UInt8) (recordCount : UInt64) (keyBytes recordStride : UInt32) :
    Guarded ArtifactStatus Bool :=
  all (fun index => do
    let before ← sub (UInt64.ofNat index) 1
    let previous ← mul before recordStride.toUInt64
    let current ← mul (UInt64.ofNat index) recordStride.toUInt64
    return decide ((records.drop previous.toNat).take keyBytes.toNat <
      (records.drop current.toNat).take keyBytes.toNat))
    (List.range' 1 (recordCount.toNat - 1))

/-- `dense_u32_zero_based_keys` -/
def denseU32ZeroBasedKeys (records : List UInt8) (recordCount : UInt64) (recordStride : UInt32) :
    Guarded ArtifactStatus Bool :=
  if recordCount.toNat > uint32Max + 1 then return false
  else
    all (fun index => do
      let offset ← mul (UInt64.ofNat index) recordStride.toUInt64
      return loadU32 (records.drop offset.toNat) = (UInt64.ofNat index).toUInt32)
      (List.range recordCount.toNat)

/-- `records_access_law_valid` -/
def recordsAccessLawValid (records : List UInt8) (recordCount : UInt64) (contract : Contract)
    (recordStride : UInt32) : Guarded ArtifactStatus Unit :=
  if recordCount = 0 then return ()
  else if contract.accessLaw = accessSortedUniqueFixed then do
    let valid ← recordsSortedUnique records recordCount contract.keyBytes recordStride
    require valid .keysNotSortedUnique
  else if contract.accessLaw = accessDenseU32ZeroBased then do
    let valid ← denseU32ZeroBasedKeys records recordCount recordStride
    require valid .denseKeyMismatch
  else if contract.accessLaw = accessModuleDefined then return ()
  else .error (.fails .invalidArgument)

/-! ## Measuring and writing -/

/-- The outputs of `measure_layout_internal`. -/
structure Measured where
  recordStride : UInt64
  recordsBytes : UInt64
  artifactBytes : UInt64

/-- `measure_layout_internal`, without the comparison with `SIZE_MAX`, which is as large as the
size. -/
def measureLayout (contract : Contract) (recordCount metadataBytes : UInt64) :
    Guarded ArtifactStatus Measured := do
  let valid ← contractValid contract
  require valid .invalidArgument
  let recordStride ← add contract.keyBytes.toUInt64 contract.valueBytes.toUInt64
  let limit ← div maxWord recordStride
  require (recordCount ≤ limit) .sizeOverflow
  let recordsBytes ← mul recordCount recordStride
  let size := UInt64.ofNat artifactHeaderBytes
  let left ← sub maxWord size
  require (recordsBytes ≤ left) .sizeOverflow
  let size ← add size recordsBytes
  let left ← sub maxWord size
  require (metadataBytes ≤ left) .sizeOverflow
  let size ← add size metadataBytes
  let left ← sub maxWord size
  require (UInt64.ofNat artifactDigestBytes ≤ left) .sizeOverflow
  let artifactBytes ← add size (UInt64.ofNat artifactDigestBytes)
  return ⟨recordStride, recordsBytes, artifactBytes⟩

/-- `memcpy` to an offset of a buffer. -/
def overwrite (bytes : List UInt8) (offset : ℕ) (piece : List UInt8) : List UInt8 :=
  bytes.take offset ++ piece ++ bytes.drop (offset + piece.length)

/-- The header that `laplace_perfcache_layout_seal` writes: the fields stand at their offsets, from
the magic at 0 to the digest offset at 304, and zeros from 312. -/
def headerWritten (contract : Contract) (recordCount : UInt64) (recordStride : UInt32)
    (recordsBytes metadataOffset metadataBytes digestOffset : UInt64) : List UInt8 :=
  artifactMagic ++ u32Bytes formatVersion ++ u32Bytes (UInt32.ofNat artifactHeaderBytes) ++
  u64Bytes contract.flags ++ contract.moduleId.bytes ++ contract.keySchemaId.bytes ++
  contract.valueSchemaId.bytes ++ contract.activationEpochId.bytes ++
  contract.activationEpochFingerprint.bytes ++ contract.moduleContractFingerprint.bytes ++
  contract.sourceFingerprint.bytes ++ contract.recipeFingerprint.bytes ++
  contract.dependencyFingerprint.bytes ++ u64Bytes recordCount ++ u32Bytes contract.keyBytes ++
  u32Bytes contract.valueBytes ++ u32Bytes recordStride ++ u32Bytes contract.accessLaw ++
  u64Bytes (UInt64.ofNat artifactHeaderBytes) ++ u64Bytes recordsBytes ++ u64Bytes metadataOffset ++
  u64Bytes metadataBytes ++ u64Bytes digestOffset ++ List.replicate 40 0

section Functions

variable (blake3 : Blake3)

/-- `laplace_perfcache_layout_seal`, for a buffer of `artifactCapacity` bytes that begins with
`artifact`. -/
def layoutSeal (contract : Contract) (recordCount metadataBytes : UInt64) (artifact : List UInt8)
    (artifactCapacity : ℕ) : Guarded ArtifactStatus (List UInt8 × Digest256) := do
  let measured ← measureLayout contract recordCount metadataBytes
  require (measured.artifactBytes.toNat ≤ artifactCapacity) .bufferTooSmall
  let recordStride ← narrow measured.recordStride
  recordsAccessLawValid (artifact.drop artifactHeaderBytes) recordCount contract recordStride
  let metadataOffset ← add (UInt64.ofNat artifactHeaderBytes) measured.recordsBytes
  let digestOffset ← add metadataOffset metadataBytes
  let artifact := overwrite artifact 0 (headerWritten contract recordCount recordStride
    measured.recordsBytes metadataOffset metadataBytes digestOffset)
  let digest := blake3 (artifact.take digestOffset.toNat)
  return (overwrite artifact digestOffset.toNat digest.bytes, digest)

/-- `laplace_perfcache_write`: the bytes that it puts into a buffer of `artifactCapacity`. -/
def write (spec : ArtifactSpec) (artifactCapacity : ℕ) : Guarded ArtifactStatus (List UInt8) := do
  let measured ← measureLayout spec.contract spec.recordCount spec.metadataBytes
  require (measured.artifactBytes.toNat ≤ artifactCapacity) .bufferTooSmall
  let recordStride ← narrow measured.recordStride
  recordsAccessLawValid spec.records spec.recordCount spec.contract recordStride
  let metadataOffset ← add (UInt64.ofNat artifactHeaderBytes) measured.recordsBytes
  let artifact := List.replicate measured.artifactBytes.toNat 0
  let artifact := overwrite artifact artifactHeaderBytes
    (spec.records.take measured.recordsBytes.toNat)
  let artifact := overwrite artifact metadataOffset.toNat
    (spec.metadata.take spec.metadataBytes.toNat)
  let sealed ← layoutSeal blake3 spec.contract spec.recordCount spec.metadataBytes artifact
    artifactCapacity
  return sealed.1

/-! ## Validating -/

/-- `read_contract` -/
def readContract (artifact : List UInt8) : Contract where
  moduleId := loadId (artifact.drop 24)
  keySchemaId := loadId (artifact.drop 40)
  valueSchemaId := loadId (artifact.drop 56)
  activationEpochId := loadId (artifact.drop 72)
  activationEpochFingerprint := loadDigest (artifact.drop 88)
  moduleContractFingerprint := loadDigest (artifact.drop 120)
  sourceFingerprint := loadDigest (artifact.drop 152)
  recipeFingerprint := loadDigest (artifact.drop 184)
  dependencyFingerprint := loadDigest (artifact.drop 216)
  keyBytes := loadU32 (artifact.drop 256)
  valueBytes := loadU32 (artifact.drop 260)
  accessLaw := loadU32 (artifact.drop 268)
  flags := loadU64 (artifact.drop 16)

/-- `laplace_perfcache_validate` -/
def validate (artifact : List UInt8) (expectedContract : Contract) :
    Guarded ArtifactStatus ArtifactView := do
  let expectedValid ← contractValid expectedContract
  require expectedValid .invalidArgument
  require (artifactHeaderBytes + artifactDigestBytes ≤ artifact.length) .sectionInvalid
  require (artifact.take 8 = artifactMagic) .badMagic
  require (loadU32 (artifact.drop 8) = formatVersion) .unsupportedVersion
  require (loadU32 (artifact.drop 12) = UInt32.ofNat artifactHeaderBytes ∧
    bytesZero ((artifact.drop 312).take 40)) .headerInvalid
  let actualContract := readContract artifact
  let actualValid ← contractValid actualContract
  require actualValid .headerInvalid
  require (actualContract = expectedContract) .contractMismatch
  let recordCount := loadU64 (artifact.drop 248)
  let recordStride := loadU32 (artifact.drop 264)
  let recordsOffset := loadU64 (artifact.drop 272)
  let recordsBytes := loadU64 (artifact.drop 280)
  let metadataOffset := loadU64 (artifact.drop 288)
  let metadataBytes := loadU64 (artifact.drop 296)
  let digestOffset := loadU64 (artifact.drop 304)
  let expectedStride ← add32 actualContract.keyBytes actualContract.valueBytes
  require (recordStride = expectedStride) .sectionInvalid
  let limit ← div maxWord recordStride.toUInt64
  require (recordCount ≤ limit) .sectionInvalid
  let expectedRecordsBytes ← mul recordCount recordStride.toUInt64
  let left ← sub maxWord (UInt64.ofNat artifactHeaderBytes)
  require (expectedRecordsBytes ≤ left) .sectionInvalid
  let expectedMetadataOffset ← add (UInt64.ofNat artifactHeaderBytes) expectedRecordsBytes
  let left ← sub maxWord expectedMetadataOffset
  require (metadataBytes ≤ left) .sectionInvalid
  let expectedDigestOffset ← add expectedMetadataOffset metadataBytes
  let left ← sub maxWord expectedDigestOffset
  require (UInt64.ofNat artifactDigestBytes ≤ left) .sectionInvalid
  let expectedArtifactBytes ← add expectedDigestOffset (UInt64.ofNat artifactDigestBytes)
  require (expectedArtifactBytes.toNat = artifact.length ∧
    recordsOffset = UInt64.ofNat artifactHeaderBytes ∧ recordsBytes = expectedRecordsBytes ∧
    metadataOffset = expectedMetadataOffset ∧ digestOffset = expectedDigestOffset) .sectionInvalid
  require ((blake3 (artifact.take digestOffset.toNat)).bytes =
    (artifact.drop digestOffset.toNat).take artifactDigestBytes) .digestMismatch
  recordsAccessLawValid (artifact.drop recordsOffset.toNat) recordCount actualContract recordStride
  return {
    contract := actualContract
    records := (artifact.drop recordsOffset.toNat).take recordsBytes.toNat
    recordCount
    recordStride
    metadata := (artifact.drop metadataOffset.toNat).take metadataBytes.toNat
    metadataBytes
    artifactDigest := loadDigest (artifact.drop digestOffset.toNat) }

end Functions

end Laplace.Perfcache
