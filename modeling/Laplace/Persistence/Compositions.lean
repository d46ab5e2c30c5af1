import Laplace.Persistence.Batches

/-!
# Compositions are complete

Behind each composition come its segments, all of them: the state that is carried over the frames
describes the segments seen so far, and it is closed wherever something else may follow.
-/

namespace Laplace.Persistence

open Trajectory Framework

/-- The number of occurrences that a carrier stands for. -/
def runLength (carrier : Carrier) : ℕ :=
  match carrierDecode carrier with
  | .ok payload => payload.runLength.toNat
  | .error _ => 0

def logicalLength (segments : List TrajectorySegmentRecord) : ℕ :=
  (segments.map fun segment => runLength segment.carrier).sum

variable (blake3 : Blake3)

/-- `laplace_persistence_trajectory_fingerprint` (persistence.c:183-201) -/
def trajectoryFingerprint (carriers : List Carrier) : Except Status Digest256 :=
  if carriers = [] then .error .invalidArgument
  else .ok (blake3 (carriers.foldl (fun hasher carrier => hasher ++ storeDoubles carrier)
    trajectoryDomain))

/-- Segments of a physicality from the first one on, in order and read at their ordinals. -/
structure Follow (physicality : PhysicalityRecord) (segments : List TrajectorySegmentRecord) :
    Prop where
  owner : ∀ segment ∈ segments, segment.physicalityId = physicality.physicalityId
  index : ∀ index (h : index < segments.length), segments[index].vertexIndex.toNat = index
  ordinal : ∀ index (h : index < segments.length), ReadsAt segments[index].carrier
    (logicalLength (segments.take index) + 1) (runLength segments[index].carrier)

/-- All the segments that a composition declares. -/
structure CompleteComposition (physicality : PhysicalityRecord)
    (segments : List TrajectorySegmentRecord) : Prop extends Follow physicality segments where
  vertices : segments.length = physicality.vertexCount.toNat
  logical : logicalLength segments = physicality.logicalCount.toNat
  fingerprint : trajectoryFingerprint blake3 (segments.map TrajectorySegmentRecord.carrier) =
    .ok physicality.trajectoryFingerprint

/-- Neither a segment nor a composition. -/
def Value.Single : Value → Prop
  | .physicality record => record.physicalityType ≠ physicalityComposition
  | .trajectorySegment _ => False
  | _ => True

/-- Records in which every composition is complete and every segment is part of one. -/
inductive Blocks : List Value → Prop
  | nil : Blocks []
  | single {records : List Value} {value : Value} (blocks : Blocks records)
      (single : value.Single) : Blocks (records ++ [value])
  | composition {records : List Value} {physicality : PhysicalityRecord}
      {segments : List TrajectorySegmentRecord} (blocks : Blocks records)
      (complete : CompleteComposition blake3 physicality segments) :
      Blocks (records ++ .physicality physicality :: segments.map .trajectorySegment)

/-! ## The state describes the open physicality -/

structure OpenAfter (state : ValidationState) (before : List Value)
    (segments : List TrajectorySegmentRecord) : Prop where
  blocks : Blocks blake3 before
  follow : Follow state.currentPhysicality segments
  atomic : state.currentPhysicality.physicalityType ≠ physicalityComposition → segments = []
  vertices : state.currentVertices.toNat = segments.length
  logical : state.currentLogicalCount.toNat = logicalLength segments
  nonempty : segments.length ≤ logicalLength segments
  hasher : state.trajectoryHasher = (segments.map TrajectorySegmentRecord.carrier).foldl
    (fun hasher carrier => hasher ++ storeDoubles carrier) trajectoryDomain

structure Describes (records : List Value) (state : ValidationState) : Prop where
  phase : state.currentOpen → state.phase = recordPhysicality
  accepted : state.currentOpen →
    (Value.physicality state.currentPhysicality).Accepted blake3
  closed : ¬ state.currentOpen → Blocks blake3 records
  opened : state.currentOpen → ∃ before segments,
    records = before ++ .physicality state.currentPhysicality ::
      segments.map .trajectorySegment ∧ OpenAfter blake3 state before segments

variable {physicality : PhysicalityRecord}

theorem scalarsValid_of_accepted (h : (Value.physicality physicality).Accepted blake3) :
    physicalityScalarsValid physicality := by
  by_contra hinvalid
  have hid : physicalityIdentify blake3 physicality = .error .recordInvalid := if_pos hinvalid
  simp only [Value.Accepted, hid, identityMatches] at h
  cases h

theorem variant_of_accepted (h : (Value.physicality physicality).Accepted blake3) :
    physicality.physicalityType = physicalityComposition ∧ physicality.vertexCount ≠ 0 ∨
      physicality.physicalityType = physicalityAtomicPoint := by
  have hvalid := scalarsValid_of_accepted blake3 h
  unfold physicalityScalarsValid at hvalid
  split_ifs at hvalid with h1 h2 hcomposition hatomic
  · exact .inl ⟨hcomposition, (of_decide_eq_true hvalid).2.2.2.1⟩
  · exact .inr hatomic

variable {records : List Value} {state : ValidationState}

theorem Describes.blocks (h : Describes blake3 records state) (hclosable : Closable blake3 state) :
    Blocks blake3 records := by
  by_cases hopen : state.currentOpen
  · obtain ⟨before, segments, rfl, hafter⟩ := h.opened hopen
    rcases variant_of_accepted blake3 (h.accepted hopen) with ⟨htype, hvertices⟩ | htype
    · have hnot : state.currentPhysicality.physicalityType ≠ physicalityAtomicPoint := by
        rw [htype]
        decide
      obtain ⟨hcount, hlogical, hhash⟩ := hclosable.composition hopen hnot
      refine hafter.blocks.composition
        { hafter.follow with
          vertices := by rw [← hafter.vertices, hcount]
          logical := by rw [← hafter.logical, hlogical]
          fingerprint := ?_ }
      have hsegments : segments.map TrajectorySegmentRecord.carrier ≠ [] := fun hnil => by
        have hzero := hafter.vertices
        rw [List.map_eq_nil_iff.1 hnil, hcount, List.length_nil] at hzero
        exact hvertices (UInt64.toNat_inj.1 hzero)
      rw [trajectoryFingerprint, if_neg hsegments, ← hafter.hasher, hhash]
    · have hnot : state.currentPhysicality.physicalityType ≠ physicalityComposition := by
        rw [htype]
        decide
      rw [hafter.atomic hnot, List.map_nil]
      exact hafter.blocks.single hnot
  · exact h.closed hopen

theorem logicalLength_append (segments : List TrajectorySegmentRecord)
    (segment : TrajectorySegmentRecord) : logicalLength (segments ++ [segment]) =
      logicalLength segments + runLength segment.carrier := by
  rw [logicalLength, List.map_append, List.sum_append, List.map_singleton, List.sum_singleton]
  rfl

theorem Follow.snoc {segments : List TrajectorySegmentRecord} (h : Follow physicality segments)
    {segment : TrajectorySegmentRecord} (howner : segment.physicalityId = physicality.physicalityId)
    (hindex : segment.vertexIndex.toNat = segments.length)
    (hordinal : ReadsAt segment.carrier (logicalLength segments + 1) (runLength segment.carrier)) :
    Follow physicality (segments ++ [segment]) where
  owner other hother := by
    rcases List.mem_append.1 hother with hother | hother
    · exact h.owner other hother
    · rwa [List.mem_singleton.1 hother]
  index index hlt := by
    rw [List.getElem_append]
    split
    · exact h.index index _
    · rw [List.length_append, List.length_singleton] at hlt
      rw [List.getElem_singleton]
      omega
  ordinal index hlt := by
    rw [List.getElem_append]
    split
    · rename_i hinside
      rw [List.take_append_of_le_length hinside.le]
      exact h.ordinal index _
    · rw [List.length_append, List.length_singleton] at hlt
      rw [List.getElem_singleton, List.take_append_of_le_length (by omega),
        List.take_of_length_le (by omega)]
      exact hordinal

theorem runLength_of_readsAt {carrier : Carrier} {ordinal length : ℕ}
    (h : ReadsAt carrier ordinal length) : runLength carrier = length := by
  obtain ⟨payload, hdecode, hlength, -⟩ := h.payload
  rw [runLength, hdecode]
  exact hlength

theorem Describes.step {next : ValidationState} {value : Value} (h : Describes blake3 records state)
    (haccepted : value.Accepted blake3) (hstep : Step blake3 state value next) :
    Describes blake3 (records ++ [value]) next := by
  cases hstep with
  | entity hphase horder =>
    have hclosed : ¬ state.currentOpen := fun hopen => by
      rw [h.phase hopen] at hphase
      exact absurd hphase (by decide)
    exact
      { phase := fun hopen => absurd hopen hclosed
        accepted := fun hopen => absurd hopen hclosed
        closed := fun _ => (h.closed hclosed).single trivial
        opened := fun hopen => absurd hopen hclosed }
  | physicality hphase hclosable horder =>
    exact
      { phase := fun _ => rfl
        accepted := fun _ => haccepted
        closed := fun hclosed => absurd rfl hclosed
        opened := fun _ => ⟨records, [], rfl,
          { blocks := h.blocks blake3 hclosable
            follow := ⟨nofun, nofun, nofun⟩
            atomic := fun _ => rfl
            vertices := rfl
            logical := rfl
            nonempty := le_rfl
            hasher := rfl }⟩ }
  | @trajectorySegment segment occurrence hopen hcomposition howner hindex hdecoded hfits =>
    obtain ⟨before, segments, rfl, hafter⟩ := h.opened hopen
    have hreads := compositionDecodeOne_ok hdecoded
    have hlength := runLength_of_readsAt hreads
    have hpositive := hreads.nonempty
    have hvertices := hafter.vertices
    have hlogical := hafter.logical
    have hnonempty := hafter.nonempty
    have hnextLogical :
        (state.currentLogicalCount + occurrence.runLength.toUInt64).toNat =
          logicalLength (segments ++ [segment]) := by
      rw [logicalLength_append, hlength, ← hlogical,
        Checked.toNat_add_of_lt (by rwa [UInt16.toNat_toUInt64]), UInt16.toNat_toUInt64]
    have hone : (1 : UInt64).toNat = 1 := rfl
    have hordinal : (state.currentLogicalCount + 1).toNat = logicalLength segments + 1 := by
      rw [Checked.toNat_add_of_lt (by rw [hone]; omega), hone, hlogical]
    rw [hordinal, ← hlength] at hreads
    exact
      { phase := fun _ => h.phase hopen
        accepted := fun _ => h.accepted hopen
        closed := fun hclosed => absurd hopen hclosed
        opened := fun _ => ⟨before, segments ++ [segment], by simp,
          { blocks := hafter.blocks
            follow := hafter.follow.snoc howner.symm (by rw [hindex, hvertices]) hreads
            atomic := fun hnot => absurd hcomposition hnot
            vertices := by
              rw [List.length_append, List.length_singleton,
                Checked.toNat_add_of_lt (by rw [hone]; omega), hone, hvertices]
            logical := hnextLogical
            nonempty := by
              rw [logicalLength_append, List.length_append, List.length_singleton, hlength]
              omega
            hasher := by
              rw [List.map_append, List.foldl_append, ← hafter.hasher]
              rfl }⟩ }
  | attestation hclosable horder =>
    exact
      { phase := nofun
        accepted := nofun
        closed := fun _ => (h.blocks blake3 hclosable).single trivial
        opened := nofun }
  | consensus hclosable horder =>
    exact
      { phase := nofun
        accepted := nofun
        closed := fun _ => (h.blocks blake3 hclosable).single trivial
        opened := nofun }

theorem describes (h : Reached blake3 records state) : Describes blake3 records state := by
  induction h with
  | start => exact ⟨nofun, nofun, fun _ => .nil, nofun⟩
  | step _ haccepted hstep ih => exact ih.step blake3 haccepted hstep
  | counted _ summary ih =>
    exact ⟨ih.phase, ih.accepted, ih.closed, fun hopen => by
      obtain ⟨before, segments, hrecords, hafter⟩ := ih.opened hopen
      exact ⟨before, segments, hrecords, { hafter with }⟩⟩

/-! ## Complete compositions inside the records -/

/-- Behind the composition come its segments, and behind them no other segment. -/
def CompleteBehind (physicality : PhysicalityRecord) (after : List Value) : Prop :=
  ∃ segments rest, after = segments.map Value.trajectorySegment ++ rest ∧
    CompleteComposition blake3 physicality segments ∧
    ∀ segment, rest.head? ≠ some (.trajectorySegment segment)

theorem CompleteBehind.append {after more : List Value}
    (h : CompleteBehind blake3 physicality after)
    (hmore : ∀ segment, more.head? ≠ some (.trajectorySegment segment)) :
    CompleteBehind blake3 physicality (after ++ more) := by
  obtain ⟨segments, rest, rfl, hcomplete, hrest⟩ := h
  refine ⟨segments, rest ++ more, List.append_assoc .., hcomplete, fun segment => ?_⟩
  cases rest with
  | nil => exact hmore segment
  | cons value rest => exact hrest segment

theorem Blocks.completeBehind (h : Blocks blake3 records) :
    ∀ {before after : List Value} {physicality : PhysicalityRecord},
    records = before ++ .physicality physicality :: after →
    physicality.physicalityType = physicalityComposition →
    CompleteBehind blake3 physicality after := by
  induction h with
  | nil => exact fun hsplit _ => absurd hsplit (by simp)
  | @single records value _ hsingle ih =>
    intro before after physicality hsplit htype
    rcases List.eq_nil_or_concat after with rfl | ⟨inner, last, rfl⟩
    · obtain ⟨-, hvalue⟩ := List.append_inj' hsplit rfl
      rw [List.cons.injEq] at hvalue
      rw [hvalue.1] at hsingle
      exact absurd htype hsingle
    · rw [List.concat_eq_append, ← List.cons_append, ← List.append_assoc] at hsplit
      obtain ⟨hrecords, hvalue⟩ := List.append_inj' hsplit rfl
      rw [List.cons.injEq] at hvalue
      rw [List.concat_eq_append]
      refine (ih hrecords htype).append blake3 fun segment hhead => ?_
      rw [← hvalue.1] at hhead
      rw [Option.some.inj hhead] at hsingle
      exact hsingle
  | @composition records opened segments _ hcomplete ih =>
    intro before after physicality hsplit htype
    rcases List.append_eq_append_iff.1 hsplit with ⟨inner, hbefore, hrest⟩ | ⟨inner, hrecords, hrest⟩
    · cases inner with
      | nil =>
        rw [List.nil_append, List.cons.injEq, Value.physicality.injEq] at hrest
        obtain ⟨rfl, rfl⟩ := hrest
        exact ⟨segments, [], (List.append_nil _).symm, hcomplete, nofun⟩
      | cons value inner =>
        -- a segment would be a physicality
        rw [List.cons_append, List.cons.injEq] at hrest
        have hmem : Value.physicality physicality ∈ segments.map Value.trajectorySegment := by
          rw [hrest.2]
          exact List.mem_append_right _ List.mem_cons_self
        obtain ⟨segment, -, hsegment⟩ := List.mem_map.1 hmem
        cases hsegment
    · cases inner with
      | nil =>
        rw [List.nil_append, List.cons.injEq, Value.physicality.injEq] at hrest
        obtain ⟨rfl, rfl⟩ := hrest
        exact ⟨segments, [], (List.append_nil _).symm, hcomplete, nofun⟩
      | cons value inner =>
        rw [List.cons_append, List.cons.injEq] at hrest
        obtain ⟨rfl, rfl⟩ := hrest
        exact (ih hrecords htype).append blake3 nofun

/-- **Accepted streams carry complete compositions**, and how the frames are split into batches
does not matter. -/
theorem complete_compositions :
    (∀ batches summary, validateStream blake3 batches = .ok summary →
      ∃ records, Records blake3 batches records ∧ ∀ before physicality after,
        records = before ++ .physicality physicality :: after →
        physicality.physicalityType = physicalityComposition →
        ∃ segments rest, after = segments.map Value.trajectorySegment ++ rest ∧
          CompleteComposition blake3 physicality segments ∧
          ∀ segment, rest.head? ≠ some (.trajectorySegment segment)) ∧
    (∀ batches batches' parts parts', List.Forall₂ BatchOf batches parts →
      List.Forall₂ BatchOf batches' parts' → parts.flatten = parts'.flatten →
      (∀ summary, validateStream blake3 batches = .ok summary ↔
        validateStream blake3 batches' = .ok summary) ∧
      (parts.flatten.flatten.length < 2 ^ 64 →
        validateStream blake3 batches = validateStream blake3 batches')) := by
  refine ⟨fun batches summary h => ?_,
    fun _ _ _ _ h h' hframes => validateStream_frames blake3 h h' hframes⟩
  obtain ⟨records, state, hrecords, hreached, hclosable⟩ := validateStream_ok blake3 h
  have hblocks := (describes blake3 hreached).blocks blake3 hclosable
  exact ⟨records, hrecords, fun _ _ _ hsplit htype => hblocks.completeBehind blake3 hsplit htype⟩

end Laplace.Persistence
