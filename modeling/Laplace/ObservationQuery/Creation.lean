import Laplace.Fields
import Laplace.ObservationQuery.Index

/-!
# Creation of an index with bindings (observation_query_part00.inc:303-553)

Physicalities and bindings are sorted by the digests they carry, segments by their place, and each
table is checked as it is read. The order in which the tables come leaves no trace in an index, and
none in a failing status either while no two strings that are hashed have one hash.
-/

namespace Laplace.ObservationQuery

open Trajectory
open Persistence (PhysicalityRecord TrajectorySegmentRecord physicalityIdentify physicalityDomain
  physicalityPayload)

def bindingGoalPresent : UInt32 := 1
def bindingKnownFlags : UInt32 := 3
def relationMask : UInt32 := 63

/-- `laplace_observation_query_binding` -/
structure Binding where
  bindingFingerprint : Digest256
  anchorEntityId : Id128
  goalEntityId : Id128
  relationMask : UInt32
  maximumResults : UInt32
  flags : UInt32
  reserved : UInt32
deriving DecidableEq

/-- `laplace_observation_query_index_input` -/
structure IndexInput where
  physicalities : List PhysicalityRecord
  segments : List TrajectorySegmentRecord
  bindings : List Binding
  boundaryId : Digest256
  evidenceEpoch : Digest256
  maximumCandidateRecordsPerExpansion : UInt64
  flags : UInt32
  reserved : UInt32

/-- An index with its bindings, the map of coordinates and the summary. -/
structure BoundIndex extends Index where
  bindings : List Binding
  coordinateToEntity : Digest256 → Option Id128
  boundaryId : Digest256
  evidenceEpoch : Digest256
  physicalityCount : UInt64
  trajectorySegmentCount : UInt64
  occurrenceRunCount : UInt64
  logicalOccurrenceCount : UInt64
  bindingCount : UInt64
  indexedEntityCount : UInt64
  indexFingerprint : Digest256

section Creation

variable (blake3 : Blake3)

/-- `BindingFieldsValid` -/
def bindingFieldsValid (binding : Binding) : Bool :=
  if binding.relationMask = 0 ∨ binding.relationMask &&& ~~~relationMask ≠ 0 ∨
      binding.maximumResults = 0 ∨ binding.flags &&& ~~~bindingKnownFlags ≠ 0 ∨
      binding.reserved ≠ 0 then false
  else if binding.flags &&& bindingGoalPresent = 0 ∧ binding.goalEntityId ≠ 0 then false
  else true

def bindingString (binding : Binding) : List UInt8 :=
  domainBytes "laplace-observation-query-binding-v1" ++ (binding.anchorEntityId.bytes ++
    (binding.goalEntityId.bytes ++ (u32Bytes binding.relationMask ++
    (u32Bytes binding.maximumResults ++ u32Bytes binding.flags))))

/-- `BindingFingerprint` -/
def bindingFingerprint (binding : Binding) : Except Status Digest256 :=
  if ¬bindingFieldsValid binding then .error .bindingInvalid
  else .ok (blake3 (bindingString binding))

/-- The entities that a binding names. -/
def Binding.entities (binding : Binding) : List Id128 :=
  if binding.flags &&& bindingGoalPresent ≠ 0 then [binding.anchorEntityId, binding.goalEntityId]
  else [binding.anchorEntityId]

/-- The loop over the bindings, in the order of their fingerprints. -/
def addBinding (maximum : UInt64) (state : List Binding × Registry) (binding : Binding) :
    Except Status (List Binding × Registry) :=
  if binding.maximumResults.toUInt64 > maximum then .error .bindingInvalid
  else if bindingFingerprint blake3 binding ≠ .ok binding.bindingFingerprint then
    .error .bindingInvalid
  else if state.1.any (·.bindingFingerprint = binding.bindingFingerprint) then .error .duplicate
  else do
    let registry ← binding.entities.foldlM (registerEntity blake3) state.2
    return (state.1 ++ [binding], registry)

/-- `HashIndex` of an index that is created. -/
def hashIndex (index : BoundIndex) : Digest256 :=
  blake3 (domainBytes "laplace-observation-query-index-v1" ++ index.boundaryId.bytes ++
    index.evidenceEpoch.bytes ++ u64Bytes index.physicalityCount ++
    u64Bytes index.trajectorySegmentCount ++ u64Bytes index.occurrenceRunCount ++
    u64Bytes index.logicalOccurrenceCount ++ u64Bytes index.bindingCount ++
    u64Bytes index.maximumCandidateRecordsPerExpansion ++
    (index.containers.flatMap fun container => container.physicality.physicalityId.bytes ++
      container.physicality.entityId.bytes ++ container.physicality.trajectoryFingerprint.bytes ++
      u64Bytes container.physicality.logicalCount ++ u64Bytes container.physicality.vertexCount) ++
    index.bindings.flatMap fun binding => binding.bindingFingerprint.bytes)

/-- `coordinate_to_entity.size()` -/
def indexedEntities (containers : List Container) (bindings : List Binding) : ℕ :=
  ((containers.flatMap (fun container =>
      container.physicality.entityId :: container.occurrences.map (·.entityId)) ++
    bindings.flatMap Binding.entities).map fun id =>
      blake3 (entityCoordinateDomain ++ id.bytes)).dedup.length

/-- `BindingLess` -/
def bindingOrder (binding : Binding) : ℕ := binding.bindingFingerprint.toNat

variable (sort : Sorting segmentOrder) (sortPhysicalities : Sorting physicalityOrder)
  (sortBindings : Sorting bindingOrder)

/-- The loop over the containers; the segments are sorted in place. -/
def decodeContainer (state : List Container × Registry) (container : Container) :
    Except Status (List Container × Registry) := do
  let (decoded, registry) ← validateAndDecodeContainer blake3 sort state.2 container
  return (state.1 ++ [{ decoded with segments := sort.sort decoded.segments }], registry)

/-- Creation up to the bindings, from the sorted physicalities. -/
def decodeTables (physicalities : List PhysicalityRecord) (segments : List TrajectorySegmentRecord) :
    Except Status (List Container × Registry) := do
  let (containers, registry) ← physicalities.foldlM (addPhysicality blake3) ([], {})
  let containers ← segments.foldlM addSegment containers
  containers.foldlM (decodeContainer blake3 sort) ([], registry)

/-- `laplace_observation_query_index_create` -/
def indexCreate (input : IndexInput) : Except Status BoundIndex :=
  if input.physicalities = [] ∨ input.bindings = [] ∨
      input.maximumCandidateRecordsPerExpansion = 0 ∨ input.flags ≠ 0 ∨ input.reserved ≠ 0 ∨
      input.boundaryId = 0 ∨ input.evidenceEpoch = 0 then .error .invalidArgument
  else do
    let (containers, registry) ←
      decodeTables blake3 sort (sortPhysicalities.sort input.physicalities) input.segments
    let (bindings, registry) ← (sortBindings.sort input.bindings).foldlM
      (addBinding blake3 input.maximumCandidateRecordsPerExpansion) ([], registry)
    let created : BoundIndex :=
      { maximumCandidateRecordsPerExpansion := input.maximumCandidateRecordsPerExpansion
        containers, bindings
        coordinateToEntity := registry.coordinateToEntity
        boundaryId := input.boundaryId
        evidenceEpoch := input.evidenceEpoch
        physicalityCount := UInt64.ofNat input.physicalities.length
        trajectorySegmentCount := UInt64.ofNat input.segments.length
        occurrenceRunCount := registry.occurrenceRunCount
        logicalOccurrenceCount := registry.logicalOccurrenceCount
        bindingCount := UInt64.ofNat input.bindings.length
        indexedEntityCount := UInt64.ofNat (indexedEntities blake3 containers bindings)
        indexFingerprint := 0 }
    return { created with indexFingerprint := hashIndex blake3 created }

end Creation

/-- The same tables in other orders. -/
structure IndexInput.Permuted (input input' : IndexInput) : Prop where
  physicalities : input.physicalities.Perm input'.physicalities
  segments : input.segments.Perm input'.segments
  bindings : input.bindings.Perm input'.bindings
  rest : { input' with
    physicalities := input.physicalities
    segments := input.segments
    bindings := input.bindings } = input

/-- The entities of the tables. -/
inductive IndexInput.Mentions (input : IndexInput) : Id128 → Prop
  | physicality {physicality} (h : physicality ∈ input.physicalities) :
      input.Mentions physicality.entityId
  | segment {segment ordinal occurrence} (h : segment ∈ input.segments)
      (hdecode : compositionDecodeOne segment.carrier ordinal = .ok occurrence) :
      input.Mentions occurrence.entityId
  | binding {binding entityId} (h : binding ∈ input.bindings) (hid : entityId ∈ binding.entities) :
      input.Mentions entityId

/-- The strings that creation hashes to identify records and entities. -/
inductive IndexInput.Hashes (input : IndexInput) : List UInt8 → Prop
  | physicality {physicality} (h : physicality ∈ input.physicalities) :
      input.Hashes (physicalityDomain ++ (physicalityPayload physicality).drop 32)
  | binding {binding} (h : binding ∈ input.bindings) : input.Hashes (bindingString binding)
  | entity {entityId} (h : input.Mentions entityId) :
      input.Hashes (entityCoordinateDomain ++ entityId.bytes)

/-! ## Loops over a sorted table -/

section Loops

variable {σ α ε : Type} {step : σ → α → Except ε σ} {key : α → ℕ}

theorem foldlM_error {good : α → Prop} {e : ε} {P : List α → σ → Prop}
    (hbad : ∀ {s a}, ¬good a → step s a = .error e) :
    ∀ {l done : List α} {s : σ}, (∀ {done s a}, P done s → a ∈ l → good a → a ∉ done →
      ∃ t, step s a = .ok t ∧ P (a :: done) t) →
    P done s → (∀ a ∈ l, a ∉ done) → l.Nodup → (∃ a ∈ l, ¬good a) → l.foldlM step s = .error e := by
  intro l
  induction l with
  | nil => simp
  | cons a l ih =>
    intro done s hgood hs hnew hnodup hexists
    rw [List.foldlM_cons]
    by_cases ha : good a
    · obtain ⟨t, ht, hP⟩ := hgood hs List.mem_cons_self ha (hnew a List.mem_cons_self)
      obtain ⟨hnot, hnodup⟩ := List.nodup_cons.1 hnodup
      rw [ht]
      refine ih (fun hs hmem => hgood hs (List.mem_cons_of_mem a hmem)) hP (fun b hb => ?_) hnodup ?_
      · rw [List.mem_cons, not_or]
        exact ⟨fun heq => hnot (heq ▸ hb), hnew b (List.mem_cons_of_mem a hb)⟩
      · simpa [ha] using hexists
    · rw [hbad ha]
      rfl

theorem foldlM_sort {good : α → Prop} {e : ε} {P : List α → σ → Prop} {sort : Sorting key}
    {l l' : List α} {s : σ} (hbad : ∀ {s a}, ¬good a → step s a = .error e)
    (hgood : ∀ {done s a}, P done s → a ∈ l → good a → a ∉ done → ∃ t, step s a = .ok t ∧ P (a :: done) t)
    (hkey : ∀ a ∈ l, ∀ b ∈ l, good a → good b → key a = key b → a = b)
    (hs : P [] s) (hnodup : l.Nodup) (hperm : l.Perm l') :
    (sort.sort l).foldlM step s = (sort.sort l').foldlM step s := by
  by_cases hall : ∀ a ∈ l, good a
  · have hkeys : (l.map key).Nodup := hnodup.map_on fun a ha b hb =>
      hkey a ha b hb (hall a ha) (hall b hb)
    rw [sort.sort_congr sort hperm hkeys]
  · push Not at hall
    have herror : ∀ {l'}, l.Perm l' → (sort.sort l').foldlM step s = .error e := by
      intro l' hperm
      have hsorted := hperm.trans (sort.perm l').symm
      refine foldlM_error (P := P) hbad (fun hs hmem => hgood hs (hsorted.mem_iff.2 hmem)) hs (by simp)
        (hsorted.nodup_iff.1 hnodup) ?_
      simpa [hsorted.mem_iff] using hall
    rw [herror (.refl l), herror hperm]

theorem nodup_of_foldlM {keys : σ → List ℕ}
    (hstep : ∀ {s a t}, step s a = .ok t → key a ∉ keys s ∧ keys t = keys s ++ [key a]) :
    ∀ {l : List α} {s t : σ}, l.foldlM step s = .ok t → (keys s).Nodup → (keys s ++ l.map key).Nodup := by
  intro l
  induction l with
  | nil => simp
  | cons a l ih =>
    intro s t h hs
    rw [List.foldlM_cons] at h
    obtain ⟨u, hu, h⟩ := bind_eq_ok.1 h
    obtain ⟨hnew, hkeys⟩ := hstep hu
    have hnext := ih h (by simp [hkeys, List.nodup_append, hs]; exact fun b hb heq => hnew (heq ▸ hb))
    simpa [hkeys] using hnext

end Loops

section Tables

variable {blake3 : Blake3} {sort : Sorting segmentOrder}
  {sortPhysicalities : Sorting physicalityOrder} {sortBindings : Sorting bindingOrder}
  {input input' : IndexInput} {registry registry' : Registry}

/-! ## Segments -/

/-- A container with more segments. -/
def Container.with (container : Container) (segments : List TrajectorySegmentRecord) : Container :=
  { container with segments := container.segments ++ segments.filter fun segment =>
      container.physicality.physicalityId = segment.physicalityId }

theorem addSegment_eq {containers : List Container} {segment : TrajectorySegmentRecord} :
    addSegment containers segment =
      if containers.any (·.physicality.physicalityId = segment.physicalityId) then
        .ok (containers.map (·.with [segment])) else .error .referenceInvalid := by
  unfold addSegment
  congr 3
  funext container
  simp only [Container.with, List.filter_singleton]
  split <;> simp_all

theorem addSegments_eq {segments : List TrajectorySegmentRecord} : ∀ {containers : List Container},
    segments.foldlM addSegment containers = if segments.all fun segment =>
          containers.any (·.physicality.physicalityId = segment.physicalityId) then
        .ok (containers.map (·.with segments)) else .error .referenceInvalid := by
  induction segments with
  | nil => simp [Container.with, pure, Except.pure]
  | cons segment segments ih =>
    intro containers
    have hany : ∀ id : Digest256, (containers.map (·.with [segment])).any
        (·.physicality.physicalityId = id) = containers.any (·.physicality.physicalityId = id) := by
      simp [List.any_map, Function.comp_def, Container.with]
    rw [List.foldlM_cons, addSegment_eq, List.all_cons]
    by_cases h : containers.any (·.physicality.physicalityId = segment.physicalityId)
    · rw [if_pos h, h, Bool.true_and]
      refine (@ih (containers.map (·.with [segment]))).trans ?_
      simp only [hany, List.map_map]
      congr 3
      funext container
      simp only [Function.comp_apply, Container.with, List.append_assoc, ← List.filter_append,
        List.singleton_append]
    · rw [if_neg h, Bool.eq_false_iff.2 h]
      rfl

theorem decodeTrajectory_repeated {container : Container}
    (h : ¬(container.segments.map segmentOrder).Nodup) :
    decodeTrajectory blake3 sort container = .error .trajectoryInvalid := by
  have hplaces : ¬∀ entry ∈ (sort.sort container.segments).zipIdx, entry.1.vertexIndex.toNat = entry.2 ∧
      entry.1.physicalityId = container.physicality.physicalityId := by
    intro hplaces
    have hrange : (sort.sort container.segments).map segmentOrder =
        List.range (sort.sort container.segments).length := by
      refine List.ext_getElem (by simp) fun i hi _ => ?_
      rw [List.length_map] at hi
      have hentry := hplaces ((sort.sort container.segments)[i], i)
        (List.mem_zipIdx_iff_getElem?.2 (by simp [hi]))
      simpa [segmentOrder] using hentry.1
    exact h (((sort.perm _).map segmentOrder).nodup_iff.1 (hrange ▸ List.nodup_range))
  unfold decodeTrajectory
  simp only [if_pos hplaces, ite_self]

theorem decodeContainer_perm {state : List Container × Registry} {container : Container}
    {segments segments' : List TrajectorySegmentRecord} (hperm : segments.Perm segments') :
    decodeContainer blake3 sort state { container with segments } =
      decodeContainer blake3 sort state { container with segments := segments' } := by
  have hempty : segments = [] ↔ segments' = [] :=
    ⟨fun h => (h ▸ hperm).symm.eq_nil, fun h => (h ▸ hperm).eq_nil⟩
  unfold decodeContainer validateAndDecodeContainer
  by_cases hnodup : (segments.map segmentOrder).Nodup
  · have hsort := sort.sort_congr sort hperm hnodup
    have hdecode : decodeTrajectory blake3 sort { container with segments } =
        decodeTrajectory blake3 sort { container with segments := segments' } := by
      unfold decodeTrajectory
      simp only [hsort]
    simp only [hdecode, hempty]
    by_cases hcount : container.physicality.vertexCount = 0
    · simp only [if_pos hcount]
      split_ifs
      · simp only [bind, Except.bind, hsort]
      · simp only [bind, Except.bind]
    · simp only [if_neg hcount]
      cases decodeTrajectory blake3 sort { container with segments := segments' } with
      | error status => simp only [bind, Except.bind]
      | ok decoded => simp [hsort]
  · have hnodup' := mt ((hperm.map segmentOrder).nodup_iff).2 hnodup
    have hne : segments ≠ [] := by rintro rfl; simp at hnodup
    rw [decodeTrajectory_repeated hnodup, decodeTrajectory_repeated hnodup']
    simp only [if_neg hne, if_neg (mt hempty.2 hne), bind, Except.bind]

theorem decodeTables_perm {physicalities : List PhysicalityRecord}
    {segments segments' : List TrajectorySegmentRecord} (hperm : segments.Perm segments') :
    decodeTables blake3 sort physicalities segments = decodeTables blake3 sort physicalities segments' := by
  unfold decodeTables
  cases physicalities.foldlM (addPhysicality blake3) ([], {}) with
  | error status => rfl
  | ok added =>
    obtain ⟨containers, registry⟩ := added
    have hall : (segments.all fun segment =>
        containers.any (·.physicality.physicalityId = segment.physicalityId)) = segments'.all fun segment =>
        containers.any (·.physicality.physicalityId = segment.physicalityId) := by
      rw [Bool.eq_iff_iff]
      simp only [List.all_eq_true, hperm.mem_iff]
    simp only [bind, Except.bind, addSegments_eq, ← hall]
    by_cases h : segments.all fun segment =>
        containers.any (·.physicality.physicalityId = segment.physicalityId)
    · simp only [if_pos h, List.foldlM_map]
      refine congrArg (fun step => List.foldlM step _ containers) ?_
      funext state container
      exact decodeContainer_perm ((hperm.filter _).append_left _)
    · simp only [if_neg h]

end Tables

/-! ## Entities -/

/-- The map holds entities of a set under their coordinates. -/
def Registered (blake3 : Blake3) (E : Id128 → Prop) (registry : Registry) : Prop :=
  ∀ coordinate id, registry.coordinateToEntity coordinate = some id →
    E id ∧ blake3 (entityCoordinateDomain ++ id.bytes) = coordinate

section Entities

variable {blake3 : Blake3} {sort : Sorting segmentOrder} {E : Id128 → Prop}
  {registry registry' : Registry} {id : Id128}

theorem registerEntity_keeps (h : registerEntity blake3 registry id = .ok registry')
    (hregistry : Registered blake3 E registry) (hid : E id) : Registered blake3 E registry' := by
  unfold registerEntity at h
  simp only at h
  split at h
  · split_ifs at h
    exact Except.ok.inj h ▸ hregistry
  · cases h
    intro coordinate other hother
    by_cases heq : coordinate = blake3 (entityCoordinateDomain ++ id.bytes)
    · subst heq
      simp only [Function.update_self, Option.some.injEq] at hother
      exact hother ▸ ⟨hid, rfl⟩
    · exact hregistry _ _ (by simpa [heq] using hother)

theorem registerEntities_ok (hfree : ∀ a b, E a → E b → blake3 (entityCoordinateDomain ++ a.bytes) =
      blake3 (entityCoordinateDomain ++ b.bytes) → a = b) : ∀ {ids : List Id128} {registry},
    Registered blake3 E registry → (∀ id ∈ ids, E id) →
    ∃ registry', ids.foldlM (registerEntity blake3) registry = .ok registry' ∧
      Registered blake3 E registry' := by
  intro ids
  induction ids with
  | nil => exact fun hregistry _ => ⟨_, rfl, hregistry⟩
  | cons id ids ih =>
    intro registry hregistry hids
    obtain ⟨hid, hids⟩ := List.forall_mem_cons.1 hids
    have hok : ∃ registry', registerEntity blake3 registry id = .ok registry' := by
      unfold registerEntity
      simp only
      split
      · rename_i found hfound
        obtain ⟨hE, hcoordinate⟩ := hregistry _ _ hfound
        simp [hfree found id hE hid hcoordinate]
      · simp
    obtain ⟨registry', hregister⟩ := hok
    obtain ⟨last, hlast, hregistered⟩ := ih (registerEntity_keeps hregister hregistry hid) hids
    exact ⟨last, by rw [List.foldlM_cons, hregister]; exact hlast, hregistered⟩

theorem addTotals_keeps {logicalCount runCount : UInt64}
    (h : addTotals registry logicalCount runCount = .ok registry')
    (hregistry : Registered blake3 E registry) : Registered blake3 E registry' := by
  -- the function is opened without its arguments: with them the sums of words would be evaluated
  obtain ⟨totals, htotals⟩ : ∃ totals, totals = addTotals := ⟨_, rfl⟩
  rw [← htotals] at h
  delta addTotals at htotals
  subst htotals
  dsimp only at h
  generalize Checked.checkedAdd registry.logicalOccurrenceCount logicalCount = logicalTotal at h
  generalize Checked.checkedAdd registry.occurrenceRunCount runCount = runTotal at h
  cases logicalTotal with
  | none => cases h
  | some logicalTotal =>
    cases runTotal with
    | none => cases h
    | some runTotal => exact Except.ok.inj h ▸ hregistry

theorem decodeOne_of_mem {carriers : List Trajectory.Carrier} : ∀ {ordinal : UInt64}
    {occurrences : List CompositionOccurrence},
    decodeOccurrences carriers ordinal = .ok occurrences → ∀ occurrence ∈ occurrences,
      ∃ carrier ∈ carriers, ∃ ordinal, compositionDecodeOne carrier ordinal = .ok occurrence := by
  induction carriers with
  | nil =>
    intro ordinal occurrences h
    cases h
    simp
  | cons carrier carriers ih =>
    intro ordinal occurrences h
    obtain ⟨first, tail, hfirst, htail, rfl⟩ := decodeOccurrences_head h
    rw [List.forall_mem_cons]
    refine ⟨⟨carrier, List.mem_cons_self, ordinal, hfirst⟩, fun occurrence ho => ?_⟩
    obtain ⟨other, hother, hdecode⟩ := ih htail occurrence ho
    exact ⟨other, List.mem_cons_of_mem carrier hother, hdecode⟩

theorem decodeContainer_keeps {state state' : List Container × Registry} {container : Container}
    (h : decodeContainer blake3 sort state container = .ok state') (hregistry : Registered blake3 E state.2)
    (hsegments : ∀ segment ∈ container.segments, ∀ ordinal occurrence,
      compositionDecodeOne segment.carrier ordinal = .ok occurrence → E occurrence.entityId) :
    Registered blake3 E state'.2 := by
  unfold decodeContainer at h
  obtain ⟨⟨decoded, registry⟩, hvalid, h⟩ := bind_eq_ok.1 h
  cases h
  unfold validateAndDecodeContainer at hvalid
  split_ifs at hvalid
  · cases hvalid
    exact hregistry
  obtain ⟨⟨occurrences, count⟩, hdecode, h⟩ := bind_eq_ok.1 hvalid
  obtain ⟨totals, htotals, h⟩ := bind_eq_ok.1 h
  obtain ⟨last, hregister, h⟩ := bind_eq_ok.1 h
  cases h
  have hoccurrences : ∀ occurrence ∈ occurrences, E occurrence.entityId := by
    unfold decodeTrajectory at hdecode
    simp only at hdecode
    split_ifs at hdecode
    split at hdecode
    · cases hdecode
    · rename_i os total hcomposition
      split_ifs at hdecode
      cases hdecode
      unfold compositionDecode at hcomposition
      rw [if_neg (lt_irrefl _)] at hcomposition
      obtain ⟨total, -, h⟩ := bind_eq_ok.1 hcomposition
      obtain ⟨os, hos, h⟩ := bind_eq_ok.1 h
      cases h
      intro occurrence ho
      obtain ⟨carrier, hcarrier, ordinal, hone⟩ := decodeOne_of_mem hos occurrence ho
      obtain ⟨segment, hsegment, rfl⟩ := List.mem_map.1 hcarrier
      exact hsegments segment ((sort.perm _).mem_iff.1 hsegment) ordinal occurrence hone
  have htotals := addTotals_keeps htotals hregistry
  exact foldlM_keeps (fun _ occurrence ho _ hstep hs => registerEntity_keeps hstep hs (hoccurrences occurrence ho))
    hregister htotals

theorem decodeTables_registered {physicalities : List PhysicalityRecord}
    {segments : List TrajectorySegmentRecord} {state : List Container × Registry}
    (h : decodeTables blake3 sort physicalities segments = .ok state)
    (hphysicalities : ∀ physicality ∈ physicalities, E physicality.entityId)
    (hsegments : ∀ segment ∈ segments, ∀ ordinal occurrence,
      compositionDecodeOne segment.carrier ordinal = .ok occurrence → E occurrence.entityId) :
    Registered blake3 E state.2 := by
  unfold decodeTables at h
  obtain ⟨⟨containers, registry⟩, hadd, h⟩ := bind_eq_ok.1 h
  obtain ⟨delivered, hdeliver, h⟩ := bind_eq_ok.1 h
  obtain ⟨hempty, hregistry⟩ := foldlM_keeps
    (P := fun s : List Container × Registry => (∀ c ∈ s.1, c.segments = []) ∧ Registered blake3 E s.2)
    (fun s physicality hp t hstep hs => by
      unfold addPhysicality at hstep
      split_ifs at hstep
      obtain ⟨registry, hregister, hstep⟩ := bind_eq_ok.1 hstep
      cases hstep
      refine ⟨fun c hc => ?_, registerEntity_keeps hregister hs.2 (hphysicalities physicality hp)⟩
      rcases List.mem_append.1 hc with hc | hc
      · exact hs.1 c hc
      · rw [List.mem_singleton.1 hc]) hadd ⟨by simp, nofun⟩
  rw [addSegments_eq] at hdeliver
  split_ifs at hdeliver
  cases hdeliver
  refine foldlM_keeps (P := fun s => Registered blake3 E s.2) (fun s container hc t hstep hs => ?_) h hregistry
  obtain ⟨empty, hmem, rfl⟩ := List.mem_map.1 hc
  refine decodeContainer_keeps hstep hs fun segment hsegment => hsegments segment ?_
  simp only [Container.with, hempty empty hmem, List.nil_append] at hsegment
  exact List.mem_of_mem_filter hsegment

end Entities

/-! ## The order of the tables -/

theorem id_append_inj {left right : Id128} {rest rest' : List UInt8} :
    left.bytes ++ rest = right.bytes ++ rest' ↔ left = right ∧ rest = rest' := by
  rw [id_bytes_eq, id_bytes_eq, Layout.store_append_inj]

theorem physicality_inj {physicality other : PhysicalityRecord}
    (hid : physicality.physicalityId = other.physicalityId)
    (h : (physicalityPayload physicality).drop 32 = (physicalityPayload other).drop 32) :
    physicality = other := by
  unfold physicalityPayload at h
  have hlength : ∀ digest : Digest256, digest.bytes.length = 32 := fun digest => by
    simp [Digest256.bytes, bigEndianBytes]
  rw [List.drop_left' (hlength _), List.drop_left' (hlength _)] at h
  simp only [id_append_inj, u32_append_inj, digest_append_inj, storeDoubles_eq,
    Layout.store_append_inj, u64Bytes_eq, Layout.word64.store_injective.eq_iff] at h
  cases physicality
  cases other
  simp_all

theorem bindingString_inj {binding other : Binding} (h : bindingString binding = bindingString other) :
    binding.anchorEntityId = other.anchorEntityId ∧ binding.goalEntityId = other.goalEntityId ∧
      binding.relationMask = other.relationMask ∧ binding.maximumResults = other.maximumResults ∧
      binding.flags = other.flags := by
  unfold bindingString at h
  simpa only [List.append_cancel_left_eq, id_append_inj, u32_append_inj, u32Bytes_inj] using h

theorem bindingFingerprint_ok {blake3 : Blake3} {binding : Binding} {fingerprint : Digest256}
    (h : bindingFingerprint blake3 binding = .ok fingerprint) :
    binding.reserved = 0 ∧ blake3 (bindingString binding) = fingerprint := by
  unfold bindingFingerprint at h
  split_ifs at h with hvalid
  refine ⟨?_, Except.ok.inj h⟩
  by_contra hreserved
  simp [bindingFieldsValid, hreserved] at hvalid

section Order

variable {blake3 : Blake3} {sort : Sorting segmentOrder}
  {sortPhysicalities : Sorting physicalityOrder} {sortBindings : Sorting bindingOrder}
  {input input' : IndexInput}

theorem physicalities_nodup {physicalities : List PhysicalityRecord} {state : List Container × Registry}
    (h : physicalities.foldlM (addPhysicality blake3) ([], {}) = .ok state) :
    (physicalities.map physicalityOrder).Nodup := by
  refine @nodup_of_foldlM _ _ _ _ _ (fun s : List Container × Registry =>
    s.1.map fun c => physicalityOrder c.physicality) (fun {s a t} hstep => ?_) _ _ _ h (by simp)
  unfold addPhysicality at hstep
  split_ifs at hstep with _ hany
  obtain ⟨registry, -, hstep⟩ := bind_eq_ok.1 hstep
  cases hstep
  refine ⟨fun hmem => hany (List.any_eq_true.2 ?_), by simp⟩
  obtain ⟨c, hc, hid⟩ := List.mem_map.1 hmem
  exact ⟨c, hc, decide_eq_true (BitVec.toNat_inj.1 hid)⟩

theorem bindings_nodup {maximum : UInt64} {bindings : List Binding} {registry : Registry}
    {state : List Binding × Registry}
    (h : bindings.foldlM (addBinding blake3 maximum) ([], registry) = .ok state) :
    (bindings.map bindingOrder).Nodup := by
  refine @nodup_of_foldlM _ _ _ _ _ (fun s : List Binding × Registry => s.1.map bindingOrder)
    (fun {s a t} hstep => ?_) _ _ _ h (by simp)
  unfold addBinding at hstep
  split_ifs at hstep with _ _ hany
  obtain ⟨registry, -, hstep⟩ := bind_eq_ok.1 hstep
  cases hstep
  refine ⟨fun hmem => hany (List.any_eq_true.2 ?_), by simp⟩
  obtain ⟨b, hb, hid⟩ := List.mem_map.1 hmem
  exact ⟨b, hb, decide_eq_true (BitVec.toNat_inj.1 hid)⟩

theorem physicalities_perm (hperm : input.physicalities.Perm input'.physicalities)
    (hnodup : input.physicalities.Nodup) (hfree : Set.InjOn blake3 {bytes | input.Hashes bytes}) :
    (sortPhysicalities.sort input.physicalities).foldlM (addPhysicality blake3) ([], {}) =
      (sortPhysicalities.sort input'.physicalities).foldlM (addPhysicality blake3) ([], {}) := by
  have hidentity : ∀ physicality ∈ input.physicalities, ∀ other ∈ input.physicalities,
      physicalityIdentify blake3 physicality = .ok physicality.physicalityId →
      physicalityIdentify blake3 other = .ok other.physicalityId →
      physicality.physicalityId = other.physicalityId → physicality = other := by
    intro physicality hp other ho hvalid hvalid' hid
    unfold physicalityIdentify at hvalid hvalid'
    split_ifs at hvalid hvalid'
    have hstring := hfree (.physicality hp) (.physicality ho)
      ((Except.ok.inj hvalid).trans (hid.trans (Except.ok.inj hvalid').symm))
    exact physicality_inj hid (List.append_cancel_left hstring)
  refine @foldlM_sort _ _ _ _ _
    (fun physicality => physicalityIdentify blake3 physicality = .ok physicality.physicalityId)
    Status.physicalityInvalid (fun done s => (∀ c ∈ s.1, c.physicality ∈ done) ∧
      (∀ p ∈ done, p ∈ input.physicalities ∧ physicalityIdentify blake3 p = .ok p.physicalityId) ∧
        Registered blake3 input.Mentions s.2) _ _ _ _
    (fun hbad => if_pos hbad) (fun {done s a} hs ha hgood hnew => ?_)
    (fun a ha b hb hgood hgood' hkey => hidentity a ha b hb hgood hgood' (BitVec.toNat_inj.1 hkey))
    ⟨by simp, by simp, nofun⟩ hnodup hperm
  obtain ⟨hcontainers, hdone, hregistry⟩ := hs
  obtain ⟨registry, hregister, hregistered⟩ := @registerEntities_ok _ _
    (fun x y hx hy heq => by
      have h := List.append_cancel_left (hfree (.entity hx) (.entity hy) heq)
      exact (id_append_inj.1 (congrArg (· ++ []) h)).1) [a.entityId] _ hregistry (by simpa using .physicality ha)
  have hany : ¬s.1.any (·.physicality.physicalityId = a.physicalityId) := by
    simp only [List.any_eq_true, decide_eq_true_eq, not_exists, not_and]
    intro c hc hid
    obtain ⟨hmem, hvalid⟩ := hdone _ (hcontainers c hc)
    exact hnew (hidentity _ hmem a ha hvalid hgood hid ▸ hcontainers c hc)
  have hregister : registerEntity blake3 s.2 a.entityId = .ok registry := by
    simpa using hregister
  refine ⟨(s.1 ++ [⟨a, [], []⟩], registry), ?_, ?_, ?_, hregistered⟩
  · unfold addPhysicality
    rw [if_neg (not_not.2 hgood), if_neg hany, hregister]
    rfl
  · simp only [List.mem_append, List.mem_singleton]
    rintro c (hc | rfl)
    · exact List.mem_cons_of_mem a (hcontainers c hc)
    · exact List.mem_cons_self
  · exact List.forall_mem_cons.2 ⟨⟨ha, hgood⟩, hdone⟩

theorem bindings_perm {maximum : UInt64} {registry : Registry} (hperm : input.bindings.Perm input'.bindings)
    (hnodup : input.bindings.Nodup) (hfree : Set.InjOn blake3 {bytes | input.Hashes bytes})
    (hregistry : Registered blake3 input.Mentions registry) :
    (sortBindings.sort input.bindings).foldlM (addBinding blake3 maximum) ([], registry) =
      (sortBindings.sort input'.bindings).foldlM (addBinding blake3 maximum) ([], registry) := by
  have hidentity : ∀ binding ∈ input.bindings, ∀ other ∈ input.bindings,
      bindingFingerprint blake3 binding = .ok binding.bindingFingerprint →
      bindingFingerprint blake3 other = .ok other.bindingFingerprint →
      binding.bindingFingerprint = other.bindingFingerprint → binding = other := by
    intro binding hb other ho hvalid hvalid' hid
    obtain ⟨hreserved, hstring⟩ := bindingFingerprint_ok hvalid
    obtain ⟨hreserved', hstring'⟩ := bindingFingerprint_ok hvalid'
    have h := bindingString_inj (hfree (.binding hb) (.binding ho) (hstring.trans (hid.trans hstring'.symm)))
    cases binding
    cases other
    simp_all
  refine @foldlM_sort _ _ _ _ _ (fun binding => ¬binding.maximumResults.toUInt64 > maximum ∧
      bindingFingerprint blake3 binding = .ok binding.bindingFingerprint)
    Status.bindingInvalid (fun done s => (∀ b ∈ s.1, b ∈ done) ∧ (∀ b ∈ done, b ∈ input.bindings ∧
      bindingFingerprint blake3 b = .ok b.bindingFingerprint) ∧ Registered blake3 input.Mentions s.2) _ _ _ _
    (fun {s a} hbad => ?_) (fun {done s a} hs ha hgood hnew => ?_)
    (fun a ha b hb hgood hgood' hkey => hidentity a ha b hb hgood.2 hgood'.2 (BitVec.toNat_inj.1 hkey))
    ⟨by simp, by simp, hregistry⟩ hnodup hperm
  · unfold addBinding
    by_cases hmaximum : a.maximumResults.toUInt64 > maximum
    · rw [if_pos hmaximum]
    · rw [if_neg hmaximum, if_pos fun hvalid => hbad ⟨hmaximum, hvalid⟩]
  · obtain ⟨hbindings, hdone, hregistry⟩ := hs
    obtain ⟨registry, hregister, hregistered⟩ := @registerEntities_ok _ _
      (fun x y hx hy heq => by
        have h := List.append_cancel_left (hfree (.entity hx) (.entity hy) heq)
        exact (id_append_inj.1 (congrArg (· ++ []) h)).1) a.entities _ hregistry fun id hid => .binding ha hid
    have hany : ¬s.1.any (·.bindingFingerprint = a.bindingFingerprint) := by
      simp only [List.any_eq_true, decide_eq_true_eq, not_exists, not_and]
      intro b hb hid
      obtain ⟨hmem, hvalid⟩ := hdone _ (hbindings b hb)
      exact hnew (hidentity _ hmem a ha hvalid hgood.2 hid ▸ hbindings b hb)
    refine ⟨(s.1 ++ [a], registry), ?_, ?_, ?_, hregistered⟩
    · unfold addBinding
      rw [if_neg hgood.1, if_neg (not_not.2 hgood.2), if_neg hany, hregister]
      rfl
    · simp only [List.mem_append, List.mem_singleton]
      rintro b (hb | rfl)
      · exact List.mem_cons_of_mem a (hbindings b hb)
      · exact List.mem_cons_self
    · exact List.forall_mem_cons.2 ⟨⟨ha, hgood.2⟩, hdone⟩

theorem IndexInput.Permuted.symm (h : input.Permuted input') : input'.Permuted input := by
  refine ⟨h.physicalities.symm, h.segments.symm, h.bindings.symm, ?_⟩
  rw [← h.rest]

theorem indexCreate_congr (h : input.Permuted input')
    (htables : decodeTables blake3 sort (sortPhysicalities.sort input.physicalities) input.segments =
      decodeTables blake3 sort (sortPhysicalities.sort input'.physicalities) input'.segments)
    (hbindings : ∀ state, decodeTables blake3 sort (sortPhysicalities.sort input.physicalities)
        input.segments = .ok state →
      (sortBindings.sort input.bindings).foldlM (addBinding blake3 input.maximumCandidateRecordsPerExpansion)
        ([], state.2) = (sortBindings.sort input'.bindings).foldlM
        (addBinding blake3 input.maximumCandidateRecordsPerExpansion) ([], state.2)) :
    indexCreate blake3 sort sortPhysicalities sortBindings input =
      indexCreate blake3 sort sortPhysicalities sortBindings input' := by
  obtain ⟨hphysicalities, hsegments, hbind, hrest⟩ := h
  obtain ⟨physicalities, segments, bindings, _, _, _, _, _⟩ := input
  obtain ⟨physicalities', segments', bindings', _, _, _, _, _⟩ := input'
  simp only [IndexInput.mk.injEq, true_and] at hrest hphysicalities hsegments hbind htables hbindings
  obtain ⟨rfl, rfl, rfl, rfl, rfl⟩ := hrest
  have hempty : physicalities = [] ↔ physicalities' = [] :=
    ⟨fun h => (h ▸ hphysicalities).symm.eq_nil, fun h => (h ▸ hphysicalities).eq_nil⟩
  have hempty' : bindings = [] ↔ bindings' = [] :=
    ⟨fun h => (h ▸ hbind).symm.eq_nil, fun h => (h ▸ hbind).eq_nil⟩
  unfold indexCreate
  simp only [hempty, hempty', ← htables, hphysicalities.length_eq, hsegments.length_eq, hbind.length_eq]
  split_ifs
  · rfl
  · cases hstate : decodeTables blake3 sort (sortPhysicalities.sort physicalities) segments with
    | error status => rfl
    | ok state =>
      simp only [bind, Except.bind, hbindings state hstate]

theorem foldlM_decodeContainer {containers : List Container} :
    ∀ {done : List Container} {registry : Registry} {state : List Container × Registry},
      containers.foldlM (decodeContainer blake3 sort) (done, registry) = .ok state →
      ∃ decoded, decodeContainers blake3 sort containers registry = .ok decoded ∧
        state.1 = done ++ decoded.map fun c => { c with segments := sort.sort c.segments } := by
  induction containers with
  | nil =>
    intro done registry state h
    cases h
    exact ⟨[], rfl, (List.append_nil _).symm⟩
  | cons container containers ih =>
    intro done registry state h
    rw [List.foldlM_cons] at h
    obtain ⟨next, hnext, h⟩ := bind_eq_ok.1 h
    obtain ⟨⟨head, registry'⟩, hhead, hnext⟩ := bind_eq_ok.1 hnext
    cases hnext
    obtain ⟨decoded, hdecoded, hstate⟩ := ih h
    refine ⟨head :: decoded, ?_, by simpa using hstate⟩
    simp only [decodeContainers, hhead, bind, Except.bind, hdecoded]
    rfl

/-- The index with bindings has the containers of the index without, its segments sorted. -/
theorem indexCreate_base {index : BoundIndex}
    (h : indexCreate blake3 sort sortPhysicalities sortBindings input = .ok index) :
    ∃ base, indexCreateBase blake3 sort sortPhysicalities input.physicalities input.segments
        input.boundaryId input.evidenceEpoch input.maximumCandidateRecordsPerExpansion = .ok base ∧
      index.containers = base.containers.map fun c => { c with segments := sort.sort c.segments } := by
  unfold indexCreate at h
  split_ifs at h with hargument
  obtain ⟨⟨containers, registry⟩, htables, h⟩ := bind_eq_ok.1 h
  obtain ⟨bound, -, h⟩ := bind_eq_ok.1 h
  cases h
  obtain ⟨⟨added, registered⟩, hadd, htables⟩ := bind_eq_ok.1 htables
  obtain ⟨delivered, hdeliver, htables⟩ := bind_eq_ok.1 htables
  obtain ⟨decoded, hdecoded, hcontainers⟩ := foldlM_decodeContainer htables
  refine ⟨⟨input.maximumCandidateRecordsPerExpansion, decoded⟩, ?_,
    hcontainers.trans (List.nil_append _)⟩
  unfold indexCreateBase
  rw [if_neg (by tauto), hadd]
  simp only [bind, Except.bind, hdeliver, hdecoded]
  rfl

theorem indexCreate_sound {index : BoundIndex}
    (h : indexCreate blake3 sort sortPhysicalities sortBindings input = .ok index) :
    index.toIndex.Sound := by
  obtain ⟨base, hbase, hcontainers⟩ := indexCreate_base h
  obtain ⟨hnodup, hruns⟩ := indexCreateBase_sound hbase
  refine ⟨?_, ?_⟩
  · rw [hcontainers, List.map_map]
    exact hnodup
  · rw [hcontainers]
    simpa using hruns

theorem indexCreate_nodup {index : BoundIndex}
    (h : indexCreate blake3 sort sortPhysicalities sortBindings input = .ok index) :
    (input.physicalities.map physicalityOrder).Nodup ∧ (input.bindings.map bindingOrder).Nodup := by
  unfold indexCreate at h
  split_ifs at h
  obtain ⟨tables, htables, h⟩ := bind_eq_ok.1 h
  obtain ⟨bound, hbound, -⟩ := bind_eq_ok.1 h
  obtain ⟨added, hadd, -⟩ := bind_eq_ok.1 htables
  exact ⟨((sortPhysicalities.perm _).map _).nodup_iff.1 (physicalities_nodup hadd),
    ((sortBindings.perm _).map _).nodup_iff.1 (bindings_nodup hbound)⟩

/-- **Creation does not depend on the order of the tables**: an index is the same, and without
collisions so is the status of what is refused, where no record is there twice. -/
theorem indexCreate_perm (blake3 : Blake3) (sort : Sorting segmentOrder)
    (sortPhysicalities : Sorting physicalityOrder) (sortBindings : Sorting bindingOrder)
    (input input' : IndexInput) : (∀ index, input.Permuted input' →
      (indexCreate blake3 sort sortPhysicalities sortBindings input = .ok index ↔
        indexCreate blake3 sort sortPhysicalities sortBindings input' = .ok index)) ∧
    (input.Permuted input' → input.physicalities.Nodup → input.bindings.Nodup →
      Set.InjOn blake3 {bytes | input.Hashes bytes} →
      indexCreate blake3 sort sortPhysicalities sortBindings input =
        indexCreate blake3 sort sortPhysicalities sortBindings input') := by
  have hsuccess : ∀ {input input' : IndexInput} {index}, input.Permuted input' →
      indexCreate blake3 sort sortPhysicalities sortBindings input = .ok index →
      indexCreate blake3 sort sortPhysicalities sortBindings input' = .ok index := by
    intro input input' index h hindex
    obtain ⟨hphysicalities, hbindings⟩ := indexCreate_nodup hindex
    refine (indexCreate_congr h ?_ fun state _ => ?_).symm.trans hindex
    · rw [sortPhysicalities.sort_congr sortPhysicalities h.physicalities hphysicalities,
        decodeTables_perm h.segments]
    · rw [sortBindings.sort_congr sortBindings h.bindings hbindings]
  refine ⟨fun index h => ⟨hsuccess h, hsuccess h.symm⟩, fun h hphysicalities hbindings hfree => ?_⟩
  refine indexCreate_congr h ?_ fun state hstate => ?_
  · rw [← decodeTables_perm h.segments]
    unfold decodeTables
    rw [physicalities_perm h.physicalities hphysicalities hfree]
  · refine bindings_perm h.bindings hbindings hfree (decodeTables_registered hstate
      (fun p hp => .physicality (((sortPhysicalities.perm _).mem_iff).1 hp))
      fun segment hsegment _ _ hdecode => .segment hsegment hdecode)

end Order

def pointRecord (entityId : Id128) (component : UInt64) : PhysicalityRecord :=
  let record (physicalityId : Digest256) : PhysicalityRecord :=
    ⟨physicalityId, entityId, 2, 0, 1, 2, 4, 0, 0, 0, 0, fun _ => component, 0, 1, 0⟩
  record (digits (physicalityDomain ++ (physicalityPayload (record 0)).drop 32))

def anchorBinding (anchorEntityId : Id128) (maximumResults : UInt32) : Binding :=
  let binding (fingerprint : Digest256) : Binding :=
    ⟨fingerprint, anchorEntityId, 0, relationMask, maximumResults, 0, 0⟩
  binding (digits (bindingString (binding 0)))

/-- Two points and two bindings; one of these asks for more than one result. -/
def twoPoints (maximum : UInt64) : IndexInput where
  physicalities := [pointRecord 1 0, pointRecord 2 4607182418800017408]
  segments := []
  bindings := [anchorBinding 1 1, anchorBinding 2 2]
  boundaryId := 1
  evidenceEpoch := 1
  maximumCandidateRecordsPerExpansion := maximum
  flags := 0
  reserved := 0

def IndexInput.reversed (input : IndexInput) : IndexInput :=
  { input with
    physicalities := input.physicalities.reverse
    segments := input.segments.reverse
    bindings := input.bindings.reverse }

def createTwoPoints (input : IndexInput) : Except Status BoundIndex :=
  indexCreate digits (.insertion _) (.insertion _) (.insertion _) input

theorem twoPoints_hashes {maximum : UInt64} :
    Set.InjOn digits {bytes | (twoPoints maximum).Hashes bytes} := by
  let strings :=
    (twoPoints 2).physicalities.map (fun p => physicalityDomain ++ (physicalityPayload p).drop 32) ++
    (twoPoints 2).bindings.map bindingString ++
    [(1 : Id128), 2].map fun id => entityCoordinateDomain ++ id.bytes
  have hnodup : (strings.map digits).Nodup := by decide +kernel
  have hmem : ∀ bytes, (twoPoints maximum).Hashes bytes → bytes ∈ strings := by
    rintro _ (hp | hb | hentity)
    · exact List.mem_append_left _ (List.mem_append_left _ (List.mem_map_of_mem hp))
    · exact List.mem_append_left _ (List.mem_append_right _ (List.mem_map_of_mem hb))
    · refine List.mem_append_right _ (List.mem_map_of_mem ?_)
      cases hentity with
      | physicality h =>
        simp only [twoPoints, List.mem_cons, List.not_mem_nil, or_false] at h
        rcases h with rfl | rfl <;> simp [pointRecord]
      | segment h => cases h
      | binding h hid =>
        simp only [twoPoints, List.mem_cons, List.not_mem_nil, or_false] at h
        rcases h with rfl | rfl <;> simp_all [Binding.entities, anchorBinding]
  exact fun a ha b hb => List.inj_on_of_nodup_map hnodup (hmem a ha) (hmem b hb)

/-- Both calls answer alike in either order: one is refused for a binding, one returns an index. -/
theorem indexCreate_perm_twoPoints :
    createTwoPoints (twoPoints 1) = createTwoPoints (twoPoints 1).reversed ∧
      createTwoPoints (twoPoints 2) = createTwoPoints (twoPoints 2).reversed ∧
      (createTwoPoints (twoPoints 1)).toOption.isSome = false ∧
      (createTwoPoints (twoPoints 2)).toOption.isSome = true := by
  have hpermuted : ∀ maximum, (twoPoints maximum).Permuted (twoPoints maximum).reversed := fun _ =>
    ⟨(List.reverse_perm _).symm, (List.reverse_perm _).symm, (List.reverse_perm _).symm, rfl⟩
  have hphysicalities : (twoPoints 2).physicalities.Nodup := by decide +kernel
  have hbindings : (twoPoints 2).bindings.Nodup := by decide +kernel
  have hequal : ∀ maximum, createTwoPoints (twoPoints maximum) =
      createTwoPoints (twoPoints maximum).reversed := fun maximum =>
    (indexCreate_perm _ _ _ _ _ _).2 (hpermuted maximum) hphysicalities hbindings twoPoints_hashes
  exact ⟨hequal 1, hequal 2, by decide +kernel, by decide +kernel⟩

end Laplace.ObservationQuery
