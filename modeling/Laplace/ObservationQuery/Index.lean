import Laplace.Lib.Outcome
import Laplace.Lib.Sorting
import Laplace.Persistence.Compositions
import Laplace.Trajectory.CompositionCodec

/-!
# Observation indexes (observation_query_part00.inc, observation_query_base_index.inc)

An index holds physicalities, each with the runs of its trajectory, in the order of their ids. The
bindings of the older form of creation are checked and kept beside them.
-/

namespace Laplace.ObservationQuery

open Trajectory
open Persistence (PhysicalityRecord TrajectorySegmentRecord physicalityIdentify trajectoryFingerprint)

/-! ## Indexes -/

/-- `laplace_observation_query_status` -/
inductive Status
  | invalidArgument | physicalityInvalid | trajectoryInvalid | referenceInvalid | duplicate
  | collision | bindingInvalid | overflow
deriving DecidableEq, Repr

/-- `Container` -/
structure Container where
  physicality : PhysicalityRecord
  segments : List TrajectorySegmentRecord := []
  occurrences : List CompositionOccurrence := []

/-- `container.occurrences[index]` -/
def Container.occurrence (container : Container) (index : ℕ) : CompositionOccurrence :=
  container.occurrences.getD index .zero

/-- `Location`, with the container for its index. -/
structure Location where
  container : Container
  occurrenceIndex : ℕ

/-- `laplace_observation_query_index`. The two maps are filled container by container. -/
structure Index where
  maximumCandidateRecordsPerExpansion : UInt64
  containers : List Container

def Index.occurrencesByEntity (index : Index) (entityId : Id128) : List Location :=
  index.containers.flatMap fun container =>
    ((List.range container.occurrences.length).filter fun j =>
      (container.occurrence j).entityId = entityId).map (Location.mk container)

def Index.containersByEntity (index : Index) (entityId : Id128) : List Container :=
  index.containers.filter fun container => container.physicality.entityId = entityId

/-! ## Creation -/

section Creation

variable (blake3 : Blake3)

def entityCoordinateDomain : List UInt8 :=
  domainBytes "laplace-observation-query-entity-coordinate-v1"

/-- The parts of the index that the containers share while they are added. -/
structure Registry where
  coordinateToEntity : Digest256 → Option Id128 := fun _ => none
  logicalOccurrenceCount : UInt64 := 0
  occurrenceRunCount : UInt64 := 0

/-- `RegisterEntity` -/
def registerEntity (registry : Registry) (entityId : Id128) : Except Status Registry :=
  let coordinate := blake3 (entityCoordinateDomain ++ entityId.bytes)
  match registry.coordinateToEntity coordinate with
  | some found => if found = entityId then .ok registry else .error .collision
  | none => .ok { registry with
      coordinateToEntity := Function.update registry.coordinateToEntity coordinate (some entityId) }

/-- The loop over the physicalities, in the order of their ids. -/
def addPhysicality (state : List Container × Registry) (physicality : PhysicalityRecord) :
    Except Status (List Container × Registry) :=
  if physicalityIdentify blake3 physicality ≠ .ok physicality.physicalityId then
    .error .physicalityInvalid
  else if state.1.any (·.physicality.physicalityId = physicality.physicalityId) then
    .error .duplicate
  else do
    let registry ← registerEntity blake3 state.2 physicality.entityId
    return (state.1 ++ [⟨physicality, [], []⟩], registry)

/-- The loop over the segments. -/
def addSegment (containers : List Container) (segment : TrajectorySegmentRecord) :
    Except Status (List Container) :=
  if containers.any (·.physicality.physicalityId = segment.physicalityId) then
    .ok (containers.map fun container =>
      if container.physicality.physicalityId = segment.physicalityId then
        { container with segments := container.segments ++ [segment] } else container)
  else .error .referenceInvalid

/-- `SegmentLess` -/
def segmentOrder (segment : TrajectorySegmentRecord) : ℕ := segment.vertexIndex.toNat

variable (sort : Sorting segmentOrder)

/-- `ValidateAndDecodeContainer` up to the occurrences and their number. -/
def decodeTrajectory (container : Container) :
    Except Status (List CompositionOccurrence × UInt64) :=
  let segments := sort.sort container.segments
  let carriers := segments.map TrajectorySegmentRecord.carrier
  if segments.length ≠ container.physicality.vertexCount.toNat then .error .trajectoryInvalid
  else if ¬ ∀ entry ∈ segments.zipIdx, entry.1.vertexIndex.toNat = entry.2 ∧
      entry.1.physicalityId = container.physicality.physicalityId then .error .trajectoryInvalid
  else if trajectoryFingerprint blake3 carriers ≠
      .ok container.physicality.trajectoryFingerprint then .error .trajectoryInvalid
  else match compositionDecode carriers carriers.length with
    | .error _ => .error .trajectoryInvalid
    | .ok (occurrences, logicalCount) =>
      if logicalCount ≠ container.physicality.logicalCount then .error .trajectoryInvalid
      else .ok (occurrences, logicalCount)

/-- The counts of the index with those of a container. -/
def addTotals (registry : Registry) (logicalCount runCount : UInt64) : Except Status Registry :=
  match Checked.checkedAdd registry.logicalOccurrenceCount logicalCount,
    Checked.checkedAdd registry.occurrenceRunCount runCount with
  | some logicalTotal, some runTotal =>
    .ok { registry with logicalOccurrenceCount := logicalTotal, occurrenceRunCount := runTotal }
  | _, _ => .error .overflow

/-- `ValidateAndDecodeContainer` -/
def validateAndDecodeContainer (registry : Registry) (container : Container) :
    Except Status (Container × Registry) :=
  if container.physicality.vertexCount = 0 then
    if container.segments = [] then .ok (container, registry) else .error .trajectoryInvalid
  else do
    let (occurrences, logicalCount) ← decodeTrajectory blake3 sort container
    let registry ← addTotals registry logicalCount (UInt64.ofNat occurrences.length)
    let registry ← occurrences.foldlM
      (fun registry occurrence => registerEntity blake3 registry occurrence.entityId) registry
    return ({ container with occurrences }, registry)

/-- The loop over the containers. -/
def decodeContainers : List Container → Registry → Except Status (List Container)
  | [], _ => .ok []
  | container :: containers, registry => do
    let (container, registry) ← validateAndDecodeContainer blake3 sort registry container
    return container :: (← decodeContainers containers registry)

/-- `PhysicalityLess` -/
def physicalityOrder (physicality : PhysicalityRecord) : ℕ := physicality.physicalityId.toNat

/-- `laplace_observation_query_index_create_base` -/
def indexCreateBase (sortPhysicalities : Sorting physicalityOrder)
    (physicalities : List PhysicalityRecord) (segments : List TrajectorySegmentRecord)
    (boundaryId evidenceEpoch : Digest256) (maximum : UInt64) : Except Status Index :=
  if physicalities = [] ∨ maximum = 0 ∨ boundaryId = 0 ∨ evidenceEpoch = 0 then
    .error .invalidArgument
  else do
    let (containers, registry) ←
      (sortPhysicalities.sort physicalities).foldlM (addPhysicality blake3) ([], {})
    let containers ← segments.foldlM addSegment containers
    return ⟨maximum, ← decodeContainers blake3 sort containers registry⟩

end Creation

/-! ## What creation guarantees -/

/-- Runs that follow each other from an ordinal on. -/
def Consecutive : List CompositionOccurrence → ℕ → Prop
  | [], _ => True
  | occurrence :: occurrences, ordinal => occurrence.logicalOrdinal.toNat = ordinal ∧
      0 < occurrence.runLength.toNat ∧ ordinal + occurrence.runLength.toNat < 2 ^ 64 ∧
      Consecutive occurrences (ordinal + occurrence.runLength.toNat)

/-- No physicality is there twice, and the runs of each cover its trajectory. -/
structure Index.Sound (index : Index) : Prop where
  nodup : (index.containers.map (·.physicality.physicalityId)).Nodup
  runs : ∀ container ∈ index.containers, Consecutive container.occurrences 1

theorem logicalOrdinal_of_decode {carrier : Trajectory.Carrier} {ordinal : UInt64}
    {occurrence : CompositionOccurrence}
    (h : compositionDecodeOne carrier ordinal = .ok occurrence) :
    occurrence.logicalOrdinal = ordinal := by
  unfold compositionDecodeOne at h
  split at h
  · cases h
  · split at h
    · cases h
    · split_ifs at h <;> · cases h; rfl

theorem consecutive_of_decode {carriers : List Trajectory.Carrier} :
    ∀ {ordinal total : UInt64} {occurrences : List CompositionOccurrence},
      validateComposition carriers ordinal = .ok total →
      decodeOccurrences carriers ordinal = .ok occurrences →
      Consecutive occurrences ordinal.toNat := by
  induction carriers with
  | nil =>
    intro ordinal total occurrences _ h
    cases h
    trivial
  | cons carrier carriers ih =>
    intro ordinal total occurrences hvalid h
    obtain ⟨occurrence, hone, hlt, hrest⟩ := validateComposition_head hvalid
    obtain ⟨o, tail, hone', htail, rfl⟩ := decodeOccurrences_head h
    obtain rfl : occurrence = o := Except.ok.inj (hone.symm.trans hone')
    have hnext : (ordinal + occurrence.runLength.toUInt64).toNat =
        ordinal.toNat + occurrence.runLength.toNat := by
      rw [Checked.toNat_add_of_lt (by simpa using hlt), UInt16.toNat_toUInt64]
    refine ⟨by rw [logicalOrdinal_of_decode hone], ?_, hlt, hnext ▸ ih hrest htail⟩
    exact Nat.pos_of_ne_zero (compositionDecodeOne_ok hone).nonempty

theorem foldlM_keeps {σ α ε : Type} {step : σ → α → Except ε σ} {P : σ → Prop} {l : List α}
    (hstep : ∀ s, ∀ a ∈ l, ∀ t, step s a = .ok t → P s → P t) :
    ∀ {s t : σ}, l.foldlM step s = .ok t → P s → P t := by
  induction l with
  | nil =>
    intro s t h hs
    exact Except.ok.inj h ▸ hs
  | cons a l ih =>
    intro s t h hs
    rw [List.foldlM_cons] at h
    obtain ⟨u, hu, h⟩ := bind_eq_ok.1 h
    exact ih (fun s b hb => hstep s b (List.mem_cons_of_mem a hb)) h (hstep s a List.mem_cons_self u hu hs)

/-- What holds of the containers while they are added. -/
def Added (containers : List Container) : Prop :=
  (containers.map (·.physicality.physicalityId)).Nodup ∧ ∀ c ∈ containers, c.occurrences = []

section

variable {blake3 : Blake3} {sort : Sorting segmentOrder}

theorem addPhysicality_keeps {s t : List Container × Registry} {physicality : PhysicalityRecord}
    (h : addPhysicality blake3 s physicality = .ok t) (hs : Added s.1) : Added t.1 := by
  unfold addPhysicality at h
  split_ifs at h with _ hany
  obtain ⟨registry, -, h⟩ := bind_eq_ok.1 h
  cases h
  simp only [List.any_eq_true, decide_eq_true_eq, not_exists, not_and] at hany
  simp [Added, List.nodup_append, hs.1, or_imp, forall_and]
  exact ⟨hany, hs.2⟩

theorem addSegment_keeps {s t : List Container} {segment : TrajectorySegmentRecord}
    (h : addSegment s segment = .ok t) (hs : Added s) : Added t := by
  unfold addSegment at h
  split_ifs at h
  cases h
  refine ⟨?_, ?_⟩
  · rw [List.map_map]
    convert hs.1 using 2
    ext container
    simp only [Function.comp_apply]
    split <;> rfl
  · simp only [List.mem_map]
    rintro _ ⟨container, hc, rfl⟩
    split <;> exact hs.2 container hc

theorem decodeTrajectory_consecutive {container : Container}
    {occurrences : List CompositionOccurrence} {logicalCount : UInt64}
    (h : decodeTrajectory blake3 sort container = .ok (occurrences, logicalCount)) :
    Consecutive occurrences 1 := by
  unfold decodeTrajectory at h
  simp only at h
  split_ifs at h
  split at h
  · cases h
  · rename_i os count hdecode
    split_ifs at h
    cases h
    unfold compositionDecode at hdecode
    rw [if_neg (lt_irrefl _)] at hdecode
    obtain ⟨total, hvalid, h⟩ := bind_eq_ok.1 hdecode
    obtain ⟨os, hos, h⟩ := bind_eq_ok.1 h
    cases h
    exact consecutive_of_decode hvalid hos

theorem validateAndDecodeContainer_consecutive {registry registry' : Registry}
    {container decoded : Container} (hempty : container.occurrences = [])
    (h : validateAndDecodeContainer blake3 sort registry container = .ok (decoded, registry')) :
    decoded.physicality = container.physicality ∧ Consecutive decoded.occurrences 1 := by
  unfold validateAndDecodeContainer at h
  split_ifs at h
  · cases h
    simp [hempty, Consecutive]
  · obtain ⟨⟨occurrences, logicalCount⟩, hdecode, h⟩ := bind_eq_ok.1 h
    obtain ⟨registry, -, h⟩ := bind_eq_ok.1 h
    obtain ⟨registry', -, h⟩ := bind_eq_ok.1 h
    cases h
    exact ⟨rfl, decodeTrajectory_consecutive hdecode⟩

theorem decodeContainers_sound {containers : List Container} :
    ∀ {registry : Registry} {decoded : List Container},
      decodeContainers blake3 sort containers registry = .ok decoded →
      (∀ c ∈ containers, c.occurrences = []) →
      decoded.map (·.physicality) = containers.map (·.physicality) ∧
        ∀ c ∈ decoded, Consecutive c.occurrences 1 := by
  induction containers with
  | nil =>
    intro registry decoded h _
    cases h
    simp
  | cons container containers ih =>
    intro registry decoded h hempty
    obtain ⟨⟨head, next⟩, hhead, h⟩ := bind_eq_ok.1 h
    obtain ⟨rest, hrest, h⟩ := bind_eq_ok.1 h
    cases h
    obtain ⟨hsame, hruns⟩ := validateAndDecodeContainer_consecutive (by simp [hempty]) hhead
    obtain ⟨hsames, hrest⟩ := ih hrest fun c hc => hempty c (by simp [hc])
    simp [hsame, hsames, hruns]
    exact hrest

theorem indexCreateBase_sound {sortPhysicalities : Sorting physicalityOrder}
    {physicalities : List PhysicalityRecord} {segments : List TrajectorySegmentRecord}
    {boundaryId evidenceEpoch : Digest256} {maximum : UInt64} {index : Index}
    (h : indexCreateBase blake3 sort sortPhysicalities physicalities segments boundaryId
      evidenceEpoch maximum = .ok index) : index.Sound := by
  unfold indexCreateBase at h
  split_ifs at h
  obtain ⟨⟨containers, registry⟩, hadd, h⟩ := bind_eq_ok.1 h
  obtain ⟨segmented, hsegments, h⟩ := bind_eq_ok.1 h
  obtain ⟨decoded, hdecoded, h⟩ := bind_eq_ok.1 h
  cases h
  have hcontainers : Added containers :=
    foldlM_keeps (P := fun s : List Container × Registry => Added s.1)
      (fun _ _ _ _ => addPhysicality_keeps) hadd (by simp [Added])
  obtain ⟨hnodup, hempty⟩ := foldlM_keeps (fun _ _ _ _ => addSegment_keeps) hsegments hcontainers
  obtain ⟨hsame, hruns⟩ := decodeContainers_sound hdecoded hempty
  refine ⟨?_, hruns⟩
  have := congrArg (List.map PhysicalityRecord.physicalityId) hsame
  rw [List.map_map, List.map_map] at this
  exact this ▸ hnodup

end

end Laplace.ObservationQuery
