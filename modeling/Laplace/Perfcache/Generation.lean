import Laplace.Perfcache.Types

/-!
# Generations and how they are loaded (perfcache_registry.cpp:72-310, 311-379, 433-575, 1367-1558)

`registry_prepare` builds a generation on its own, before it takes the lock. What the provider and
the module validators answer for an artifact is given by its index. An exit that fails leaves the
generation as far as it was built, for `CloseGeneration`.
-/

namespace Laplace.Perfcache

open Framework (Context StreamReceipt)

/-! ## Records -/

/-- `laplace_perfcache_module_v2` behind the checks of `laplace_perfcache_registry_create` -/
structure RegisteredModule where
  moduleId : Id128
  keySchemaId : Id128
  valueSchemaId : Id128
  moduleContractFingerprint : Digest256
  accessLaw : UInt32
  keyBytes : UInt32
  valueBytes : UInt32
  flags : UInt32
deriving DecidableEq

/-- `laplace_perfcache_artifact_provider_v1` without its state -/
structure ArtifactProvider where
  providerFingerprint : Digest256 := 0
  callbacks : Bool
  abiMajor : UInt16
  abiMinor : UInt16
  flags : UInt32
  reserved : UInt32
deriving DecidableEq

/-- What a `laplace_perfcache_artifact_handle` says of the artifact. -/
structure ArtifactHandle where
  contract : Contract := {}
  artifactBytes : UInt64 := 0
  artifactDigest : Digest256 := 0
  loadedIdentity : Digest256 := 0
deriving DecidableEq

/-- What `open`, `validate_view` and `prefault` answer for one artifact. -/
structure ArtifactAnswers where
  opened : Bool
  handle : ArtifactHandle
  viewValid : Bool
  prefaulted : Bool
  touchedBytes : UInt64
  touchedPages : UInt64
deriving DecidableEq

structure LoadedArtifact where
  module : RegisteredModule
  path : CString
  contract : Contract
  expectedArtifactDigest : Digest256
  dependencies : List GenerationDependency
  flags : UInt32
  handle : ArtifactHandle := {}
  opened : Bool := false
deriving DecidableEq

structure LoadedGeneration where
  provider : ArtifactProvider
  artifacts : List LoadedArtifact := []
  contextFingerprint : Digest256 := 0
  contextFlags : UInt32 := 0
  activationEpochId : Id128 := 0
  epochFingerprint : Digest256 := 0
  stagedReceiptId : Digest256 := 0
  streamFingerprint : Digest256 := 0
  stagedSinkArtifactsFingerprint : Digest256 := 0
  sinkArtifactSetFingerprint : Digest256 := 0
  requiredModuleSetFingerprint : Digest256 := 0
  manifestFingerprint : Digest256 := 0
  artifactSetFingerprint : Digest256 := 0
  loadedObjectsFingerprint : Digest256 := 0
  mappedBytes : UInt64 := 0
  prefaultedBytes : UInt64 := 0
  prefaultedPages : UInt64 := 0
  readers : UInt64 := 0
  stagedSinkCount : UInt64 := 0
  perfcacheSinkIndex : UInt64 := 0
  retired : Bool := false
deriving DecidableEq

/-- `laplace_perfcache_epoch` -/
structure Epoch where
  activationEpochId : Id128
  epochFingerprint : Digest256
deriving DecidableEq

def LoadedGeneration.epoch (generation : LoadedGeneration) : Epoch :=
  ⟨generation.activationEpochId, generation.epochFingerprint⟩

inductive Disposition
  | prepared | reserved | activated | rejected | aborted | materialized
deriving DecidableEq, Repr

def Disposition.code (disposition : Disposition) : UInt32 :=
  UInt32.ofNat (disposition.ctorIdx + 1)

/-- `laplace_perfcache_generation_receipt` -/
structure GenerationReceipt where
  receiptId : Digest256 := 0
  contextFingerprint : Digest256 := 0
  activationEpochId : Id128 := 0
  epochFingerprint : Digest256 := 0
  providerFingerprint : Digest256 := 0
  manifestFingerprint : Digest256 := 0
  artifactSetFingerprint : Digest256 := 0
  loadedObjectsFingerprint : Digest256 := 0
  stagedReceiptId : Digest256 := 0
  streamFingerprint : Digest256 := 0
  stagedSinkArtifactsFingerprint : Digest256 := 0
  sinkArtifactSetFingerprint : Digest256 := 0
  requiredModuleSetFingerprint : Digest256 := 0
  artifactCount : UInt64 := 0
  mappedBytes : UInt64 := 0
  prefaultedBytes : UInt64 := 0
  prefaultedPages : UInt64 := 0
  activeReaderCount : UInt64 := 0
  stagedSinkCount : UInt64 := 0
  perfcacheSinkIndex : UInt64 := 0
  disposition : UInt32 := 0
  status : UInt32 := 0
deriving DecidableEq

/-! ## Modules, artifacts and their order -/

/-- The first of the elements whose id is not less than the given one, when it has that id
(`std::lower_bound`, then `IdEqual`). -/
def findById {α : Type} (id : α → Id128) (elements : List α) (key : Id128) : Option α :=
  (elements.find? fun element => !decide (id element < key)).filter fun element => id element = key

/-- `FindModule` -/
def findModule (modules : List RegisteredModule) (moduleId : Id128) : Option RegisteredModule :=
  findById RegisteredModule.moduleId modules moduleId

/-- `FindArtifact` -/
def findArtifact (artifacts : List LoadedArtifact) (moduleId : Id128) : Option LoadedArtifact :=
  findById (fun artifact => artifact.contract.moduleId) artifacts moduleId

/-- `ModuleContractMatches` -/
def moduleContractMatches (module : RegisteredModule) (contract : Contract) : Bool :=
  module.moduleId = contract.moduleId ∧ module.keySchemaId = contract.keySchemaId ∧
    module.valueSchemaId = contract.valueSchemaId ∧
    module.moduleContractFingerprint = contract.moduleContractFingerprint ∧
    module.accessLaw = contract.accessLaw ∧ module.keyBytes = contract.keyBytes ∧
    module.valueBytes = contract.valueBytes

/-- `ProviderValid` -/
def ArtifactProvider.valid (provider : ArtifactProvider) : Bool :=
  provider.callbacks && provider.abiMajor == artifactProviderAbiMajor &&
  provider.abiMinor ≤ artifactProviderAbiMinor && provider.flags == 0 && provider.reserved == 0

section Functions

variable (blake3 : Blake3)

/-- `RequiredModuleSetFingerprint` -/
def requiredModuleSetFingerprint (modules : List RegisteredModule) : Digest256 :=
  let required := modules.filter fun module => module.flags &&& moduleRequired ≠ 0
  blake3 (domainBytes "laplace-perfcache-required-module-set-v1" ++ sizeBytes required.length ++
    required.flatMap fun module => module.moduleId.bytes ++ module.moduleContractFingerprint.bytes)

/-- `ArtifactSetFingerprint` -/
def artifactSetFingerprint (generation : LoadedGeneration) : Digest256 :=
  blake3 (domainBytes "laplace-perfcache-artifact-set-v1" ++ generation.activationEpochId.bytes ++
    generation.epochFingerprint.bytes ++ sizeBytes generation.artifacts.length ++
    generation.artifacts.flatMap fun artifact =>
      contractBytes artifact.contract ++ artifact.handle.artifactDigest.bytes)

/-- `LoadedObjectsFingerprint` -/
def loadedObjectsFingerprint (generation : LoadedGeneration) : Digest256 :=
  blake3 (domainBytes "laplace-perfcache-loaded-objects-v1" ++
    sizeBytes generation.artifacts.length ++ generation.artifacts.flatMap fun artifact =>
      artifact.contract.moduleId.bytes ++ artifact.handle.loadedIdentity.bytes)

/-- What `FillReceipt` hashes. -/
def generationReceiptBytes (receipt : GenerationReceipt) : List UInt8 :=
  domainBytes "laplace-perfcache-generation-receipt-v1" ++ receipt.activationEpochId.bytes ++
  receipt.contextFingerprint.bytes ++ receipt.epochFingerprint.bytes ++
  receipt.providerFingerprint.bytes ++ receipt.manifestFingerprint.bytes ++
  receipt.artifactSetFingerprint.bytes ++ receipt.loadedObjectsFingerprint.bytes ++
  receipt.stagedReceiptId.bytes ++ receipt.streamFingerprint.bytes ++
  receipt.stagedSinkArtifactsFingerprint.bytes ++ receipt.sinkArtifactSetFingerprint.bytes ++
  receipt.requiredModuleSetFingerprint.bytes ++ u64Bytes receipt.artifactCount ++
  u64Bytes receipt.mappedBytes ++ u64Bytes receipt.prefaultedBytes ++
  u64Bytes receipt.prefaultedPages ++ u64Bytes receipt.activeReaderCount ++
  u64Bytes receipt.stagedSinkCount ++ u64Bytes receipt.perfcacheSinkIndex ++
  u32Bytes receipt.disposition ++ u32Bytes receipt.status

/-- `FillReceipt` -/
def fillReceipt (generation : LoadedGeneration) (disposition : Disposition)
    (status : RegistryStatus) : GenerationReceipt :=
  let receipt : GenerationReceipt :=
    { activationEpochId := generation.activationEpochId
      contextFingerprint := generation.contextFingerprint
      epochFingerprint := generation.epochFingerprint
      providerFingerprint := generation.provider.providerFingerprint
      manifestFingerprint := generation.manifestFingerprint
      artifactSetFingerprint := generation.artifactSetFingerprint
      loadedObjectsFingerprint := generation.loadedObjectsFingerprint
      stagedReceiptId := generation.stagedReceiptId
      streamFingerprint := generation.streamFingerprint
      stagedSinkArtifactsFingerprint := generation.stagedSinkArtifactsFingerprint
      sinkArtifactSetFingerprint := generation.sinkArtifactSetFingerprint
      requiredModuleSetFingerprint := generation.requiredModuleSetFingerprint
      artifactCount := UInt64.ofNat generation.artifacts.length
      mappedBytes := generation.mappedBytes
      prefaultedBytes := generation.prefaultedBytes
      prefaultedPages := generation.prefaultedPages
      activeReaderCount := generation.readers
      stagedSinkCount := generation.stagedSinkCount
      perfcacheSinkIndex := generation.perfcacheSinkIndex
      disposition := disposition.code
      status := status.code }
  { receipt with receiptId := blake3 (generationReceiptBytes receipt) }

/-! ## Dependencies -/

/-- What the first loop of `DependenciesValid` checks of one artifact. -/
def artifactDependenciesValid (artifacts : List LoadedArtifact) (artifact : LoadedArtifact) : Bool :=
  modulesGrow (artifact.dependencies.map GenerationDependency.moduleId) &&
  (artifact.dependencies.all fun dependency =>
    decide (artifact.contract.moduleId ≠ dependency.moduleId) &&
    (findArtifact artifacts dependency.moduleId).any fun target =>
      target.expectedArtifactDigest = dependency.artifactDigest) &&
  decide (dependencyFingerprint blake3 artifact.dependencies = artifact.contract.dependencyFingerprint)

/-- An artifact in the removal loop: whether it is removed, and its dependencies that are not. -/
structure Removal where
  artifact : LoadedArtifact
  removed : Bool
  remaining : UInt64
deriving DecidableEq

/-- The body of the removal loop for the artifact at `index`; the flag is `progress`. -/
def removeArtifact (state : List Removal × Bool) (index : ℕ) : List Removal × Bool :=
  match state.1[index]? with
  | none => state
  | some entry =>
    if entry.removed ∨ entry.remaining ≠ 0 then state
    else
      let marked := state.1.set index { entry with removed := true }
      (marked.map fun dependent =>
        if !dependent.removed && dependent.artifact.dependencies.any fun dependency =>
            dependency.moduleId = entry.artifact.contract.moduleId then
          { dependent with remaining := dependent.remaining - 1 }
        else dependent, true)

/-- `while (progress)`; every round that makes progress removes an artifact. -/
def removeRounds : ℕ → List Removal → List Removal
  | 0, entries => entries
  | fuel + 1, entries =>
    let (entries, progress) := (List.range entries.length).foldl removeArtifact (entries, false)
    if progress then removeRounds fuel entries else entries

/-- `DependenciesValid` -/
def dependenciesValid (artifacts : List LoadedArtifact) : Bool :=
  (artifacts.all (artifactDependenciesValid blake3 artifacts)) &&
  (removeRounds (artifacts.length + 1) (artifacts.map fun artifact =>
    ⟨artifact, false, UInt64.ofNat artifact.dependencies.length⟩)).all Removal.removed

/-! ## Loading -/

/-- An exit of `registry_prepare` that fails: the status, the generation to close, and whether a
receipt was filled. -/
structure LoadFailure where
  status : RegistryStatus
  generation : LoadedGeneration
  receipted : Bool
deriving DecidableEq

/-- The loop that turns the artifacts of the request into those of the generation. -/
def admitArtifacts (modules : List RegisteredModule) (stagedReceipt : StreamReceipt)
    (request : GenerationRequest) :
    List GenerationArtifact → LoadedGeneration → Except LoadFailure LoadedGeneration
  | [], generation => .ok generation
  | source :: sources, generation =>
    match findModule modules source.contract.moduleId with
    | none => .error ⟨.moduleSetMismatch, generation, false⟩
    | some module =>
      if !moduleContractMatches module source.contract ∨
          (module.flags &&& moduleRequired ≠ 0) ≠ (source.flags &&& generationArtifactRequired ≠ 0) ∨
          source.contract.activationEpochId ≠ request.activationEpochId ∨
          source.contract.activationEpochFingerprint ≠ request.epochFingerprint ∨
          source.contract.sourceFingerprint ≠ stagedReceipt.sourceFingerprint ∨
          source.contract.recipeFingerprint ≠ stagedReceipt.recipeFingerprint then
        .error ⟨.moduleSetMismatch, generation, false⟩
      else
        admitArtifacts modules stagedReceipt request sources
          { generation with
            artifacts := generation.artifacts ++
              [{ module
                 path := source.path
                 contract := source.contract
                 expectedArtifactDigest := source.expectedArtifactDigest
                 dependencies := source.dependencies
                 flags := source.flags }] }

/-- The loop that opens and prefaults the artifacts, from `index` on. -/
def openArtifacts (memoryBytes : UInt64) (answers : ℕ → ArtifactAnswers) :
    List LoadedArtifact → ℕ → LoadedGeneration → Except LoadFailure LoadedGeneration
  | [], _, generation => .ok generation
  | artifact :: artifacts, index, generation =>
    let answer := answers index
    let generation :=
      { generation with
        artifacts := generation.artifacts.set index
          { artifact with handle := answer.handle, opened := answer.opened } }
    if !answer.opened ∨ answer.handle.contract ≠ artifact.contract ∨
        answer.handle.artifactDigest ≠ artifact.expectedArtifactDigest ∨ !answer.viewValid then
      .error ⟨.artifactOpenFailed, generation, true⟩
    else if Checked.maxWord - generation.mappedBytes < answer.handle.artifactBytes ∨
        generation.mappedBytes + answer.handle.artifactBytes > memoryBytes then
      .error ⟨.prefaultFailed, generation, true⟩
    else
      let generation :=
        { generation with mappedBytes := generation.mappedBytes + answer.handle.artifactBytes }
      if !answer.prefaulted ∨ answer.touchedBytes ≠ answer.handle.artifactBytes ∨
          answer.touchedPages = 0 ∨
          Checked.maxWord - generation.prefaultedBytes < answer.touchedBytes ∨
          Checked.maxWord - generation.prefaultedPages < answer.touchedPages then
        .error ⟨.prefaultFailed, generation, true⟩
      else
        openArtifacts memoryBytes answers artifacts (index + 1)
          { generation with
            prefaultedBytes := generation.prefaultedBytes + answer.touchedBytes
            prefaultedPages := generation.prefaultedPages + answer.touchedPages }

/-- The arguments of `laplace_perfcache_registry_prepare` and what its callbacks answer. -/
structure PrepareCall where
  context : Context
  stagedReceipt : StreamReceipt
  provider : ArtifactProvider
  request : GenerationRequest
  answers : ℕ → ArtifactAnswers

/-- The checks of the arguments. -/
def PrepareCall.valid (call : PrepareCall) : Bool :=
  requestShapeValid call.request && call.provider.valid &&
  stagedReceiptMatches blake3 call.context call.stagedReceipt call.request

/-- The body of `laplace_perfcache_registry_prepare` up to the lock. Without `memory` for the
artifacts, `artifacts.reserve` throws. -/
def loadGeneration (modules : List RegisteredModule) (call : PrepareCall) (memory : Bool) :
    Except LoadFailure LoadedGeneration :=
  let request := call.request
  let fingerprint := Framework.contextFingerprint blake3 call.context
  if fingerprint.1 ≠ .ok then .error ⟨.invalidArgument, { provider := call.provider }, false⟩
  else
    let generation : LoadedGeneration :=
      { provider := call.provider
        contextFingerprint := fingerprint.2
        contextFlags := call.context.flags
        activationEpochId := request.activationEpochId
        epochFingerprint := request.epochFingerprint
        stagedReceiptId := request.stagedReceiptId
        streamFingerprint := request.streamFingerprint
        stagedSinkArtifactsFingerprint := request.stagedSinkArtifactsFingerprint
        sinkArtifactSetFingerprint := request.sinkArtifactSetFingerprint
        stagedSinkCount := UInt64.ofNat request.stagedSinkArtifactFingerprints.length
        perfcacheSinkIndex := request.perfcacheSinkIndex
        requiredModuleSetFingerprint := request.requiredModuleSetFingerprint
        manifestFingerprint := manifestFingerprint blake3 request }
    if requiredModuleSetFingerprint blake3 modules ≠ request.requiredModuleSetFingerprint then
      .error ⟨.manifestMismatch, generation, false⟩
    else if !memory then .error ⟨.allocationFailed, generation, false⟩
    else do
      let generation ← admitArtifacts modules call.stagedReceipt request request.artifacts generation
      if modules.any fun module => decide (module.flags &&& moduleRequired ≠ 0) &&
          (findArtifact generation.artifacts module.moduleId).isNone then
        .error ⟨.moduleSetMismatch, generation, false⟩
      else if !dependenciesValid blake3 generation.artifacts then
        .error ⟨.dependencyInvalid, generation, false⟩
      else do
        let generation ← openArtifacts call.context.resourceGrant.memoryBytes call.answers
          generation.artifacts 0 generation
        let generation :=
          { generation with artifactSetFingerprint := artifactSetFingerprint blake3 generation }
        let generation :=
          { generation with loadedObjectsFingerprint := loadedObjectsFingerprint blake3 generation }
        if generation.artifactSetFingerprint ≠ request.sinkArtifactSetFingerprint then
          .error ⟨.manifestMismatch, generation, true⟩
        else .ok generation

end Functions

/-! ### What loading leaves as it is -/

/-- What a load leaves behind when it ends, whether it succeeds or not. -/
def loadResult : Except LoadFailure LoadedGeneration → LoadedGeneration
  | .ok generation => generation
  | .error failure => failure.generation

/-- No load fails with an internal error. -/
def LoadFailure.Plain (failure : LoadFailure) : Prop := failure.status ≠ .internalError

theorem admitArtifacts_result (modules : List RegisteredModule) (stagedReceipt : StreamReceipt)
    (request : GenerationRequest) : ∀ (sources : List GenerationArtifact) (generation : LoadedGeneration),
    let result := admitArtifacts modules stagedReceipt request sources generation
    (loadResult result).readers = generation.readers ∧
      (loadResult result).artifacts.length ≤ generation.artifacts.length + sources.length ∧
      ∀ failure, result = .error failure → failure.Plain
  | [], generation => ⟨rfl, Nat.le_refl _, fun _ h => by cases h⟩
  | source :: sources, generation => by
    simp only [admitArtifacts]
    cases findModule modules source.contract.moduleId with
    | none =>
      refine ⟨rfl, Nat.le_add_right _ _, fun failure h => ?_⟩
      cases h
      exact RegistryStatus.noConfusion
    | some module =>
      dsimp only
      split
      · refine ⟨rfl, Nat.le_add_right _ _, fun failure h => ?_⟩
        cases h
        exact RegistryStatus.noConfusion
      · obtain ⟨hreaders, hlength, hplain⟩ :=
          admitArtifacts_result modules stagedReceipt request sources
            { generation with
              artifacts := generation.artifacts ++
                [{ module
                   path := source.path
                   contract := source.contract
                   expectedArtifactDigest := source.expectedArtifactDigest
                   dependencies := source.dependencies
                   flags := source.flags }] }
        refine ⟨hreaders, ?_, hplain⟩
        rw [List.length_append, List.length_singleton] at hlength
        rw [List.length_cons]
        omega

theorem openArtifacts_result (memoryBytes : UInt64) (answers : ℕ → ArtifactAnswers) :
    ∀ (artifacts : List LoadedArtifact) (index : ℕ) (generation : LoadedGeneration),
    let result := openArtifacts memoryBytes answers artifacts index generation
    (loadResult result).readers = generation.readers ∧
      (loadResult result).artifacts.length = generation.artifacts.length ∧
      ∀ failure, result = .error failure → failure.Plain
  | [], index, generation => ⟨rfl, rfl, fun _ h => by cases h⟩
  | artifact :: artifacts, index, generation => by
    simp only [openArtifacts]
    split
    · refine ⟨rfl, List.length_set, fun failure h => ?_⟩
      cases h
      exact RegistryStatus.noConfusion
    · split
      · refine ⟨rfl, List.length_set, fun failure h => ?_⟩
        cases h
        exact RegistryStatus.noConfusion
      · split
        · refine ⟨rfl, List.length_set, fun failure h => ?_⟩
          cases h
          exact RegistryStatus.noConfusion
        · obtain ⟨hreaders, hlength, hplain⟩ :=
            openArtifacts_result memoryBytes answers artifacts (index + 1) _
          exact ⟨hreaders, hlength.trans List.length_set, hplain⟩

/-- A load ends with no readers, with no more artifacts than there was memory for, and with no
internal error. -/
theorem loadGeneration_result (blake3 : Blake3) (modules : List RegisteredModule)
    (call : PrepareCall) (memory : Bool) : let result := loadGeneration blake3 modules call memory
    (loadResult result).readers = 0 ∧
      (loadResult result).artifacts.length ≤ (if memory then call.request.artifacts.length else 0) ∧
      ∀ failure, result = .error failure → failure.Plain := by
  have hfail : ∀ (status : RegistryStatus) (generation : LoadedGeneration) (receipted : Bool),
      status ≠ .internalError → ∀ failure, (.error ⟨status, generation, receipted⟩ :
        Except LoadFailure LoadedGeneration) = .error failure → failure.Plain := by
    rintro status generation receipted hstatus failure ⟨⟩
    exact hstatus
  simp only [loadGeneration]
  split
  · exact ⟨rfl, Nat.zero_le _, hfail _ _ _ RegistryStatus.noConfusion⟩
  split
  · exact ⟨rfl, Nat.zero_le _, hfail _ _ _ RegistryStatus.noConfusion⟩
  split
  · exact ⟨rfl, Nat.zero_le _, hfail _ _ _ RegistryStatus.noConfusion⟩
  rename_i hmemory
  rw [Bool.not_eq_true', Bool.not_eq_false] at hmemory
  rw [hmemory, if_pos rfl]
  have hadmit := admitArtifacts_result modules call.stagedReceipt call.request
    call.request.artifacts
    { provider := call.provider
      contextFingerprint := (Framework.contextFingerprint blake3 call.context).2
      contextFlags := call.context.flags
      activationEpochId := call.request.activationEpochId
      epochFingerprint := call.request.epochFingerprint
      stagedReceiptId := call.request.stagedReceiptId
      streamFingerprint := call.request.streamFingerprint
      stagedSinkArtifactsFingerprint := call.request.stagedSinkArtifactsFingerprint
      sinkArtifactSetFingerprint := call.request.sinkArtifactSetFingerprint
      stagedSinkCount := UInt64.ofNat call.request.stagedSinkArtifactFingerprints.length
      perfcacheSinkIndex := call.request.perfcacheSinkIndex
      requiredModuleSetFingerprint := call.request.requiredModuleSetFingerprint
      manifestFingerprint := manifestFingerprint blake3 call.request }
  revert hadmit
  generalize admitArtifacts _ _ _ _ _ = admitted
  rintro ⟨hreaders, hlength, hplain⟩
  cases admitted with
  | error failure => exact ⟨hreaders, hlength.trans (by simp), hplain⟩
  | ok generation =>
    replace hlength : generation.artifacts.length ≤ call.request.artifacts.length :=
      hlength.trans (by simp)
    dsimp only [bind, Except.bind]
    split
    · exact ⟨hreaders, hlength, hfail _ _ _ RegistryStatus.noConfusion⟩
    split
    · exact ⟨hreaders, hlength, hfail _ _ _ RegistryStatus.noConfusion⟩
    have hopen := openArtifacts_result call.context.resourceGrant.memoryBytes call.answers
      generation.artifacts 0 generation
    revert hopen
    generalize openArtifacts _ _ _ _ _ = opened
    rintro ⟨hreaders', hlength', hplain'⟩
    cases opened with
    | error failure =>
      exact ⟨hreaders'.trans hreaders, hlength'.le.trans hlength, hplain'⟩
    | ok opened =>
      dsimp only
      split
      · exact ⟨hreaders'.trans hreaders, hlength'.le.trans hlength, hfail _ _ _ RegistryStatus.noConfusion⟩
      · exact ⟨hreaders'.trans hreaders, hlength'.le.trans hlength, fun _ h => by cases h⟩

end Laplace.Perfcache
