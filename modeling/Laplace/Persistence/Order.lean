import Laplace.Persistence.Compositions

/-!
# The order of a stream

The contract orders entities, then physicalities each with its segments, then attestations, then
consensus, by id within each phase. The case of the attestations does not look at the phase, so
attestations behind consensus records are accepted: the order holds exactly where there are none.
-/

namespace Laplace.Persistence

open Trajectory Framework

namespace Value

/-- The phase of a record; a segment is in the phase of its physicality. -/
def phase : Value → ℕ
  | .entity _ => 1
  | .physicality _ => 2
  | .trajectorySegment _ => 2
  | .attestation _ => 4
  | .consensus _ => 5

/-- The id as a big-endian number, which is how `memcmp` compares. -/
def identifier : Value → ℕ
  | .entity record => record.entityId.toNat
  | .physicality record => record.physicalityId.toNat
  | .trajectorySegment record => record.physicalityId.toNat
  | .attestation record => record.attestationId.toNat
  | .consensus record => record.consensusId.toNat

/-- The place behind the physicality. -/
def position : Value → ℕ
  | .trajectorySegment record => record.vertexIndex.toNat + 1
  | _ => 0

/-- The canonical order of two records. -/
def Precedes (earlier later : Value) : Prop :=
  earlier.phase < later.phase ∨ earlier.phase = later.phase ∧
    (earlier.identifier < later.identifier ∨ earlier.identifier = later.identifier ∧
      earlier.position < later.position)

theorem Precedes.asymm {left right : Value} (h : Precedes left right) : ¬ Precedes right left := by
  unfold Precedes at *
  omega

end Value

/-- The order of the contract: phases in turn, ids strictly increasing inside each phase, and every
segment behind its physicality, by index. -/
structure Canonical (records : List Value) : Prop where
  order : records.Pairwise Value.Precedes
  owned : ∀ segment, .trajectorySegment segment ∈ records →
    ∃ physicality, .physicality physicality ∈ records ∧
      physicality.physicalityId = segment.physicalityId

/-- No attestation comes behind a consensus record. -/
def NoLateAttestation (records : List Value) : Prop :=
  records.Pairwise fun earlier later => ¬ (earlier.phase = 5 ∧ later.phase = 4)

theorem eq_of_canonical {left right : List Value} (hleft : left.Pairwise Value.Precedes)
    (hright : right.Pairwise Value.Precedes) (h : ∀ value, value ∈ left ↔ value ∈ right) :
    left = right := by
  have hnodup {records : List Value} (hrecords : records.Pairwise Value.Precedes) :
      records.Nodup := hrecords.imp fun hprecedes heq => (heq ▸ hprecedes).asymm (heq ▸ hprecedes)
  exact ((List.perm_ext_iff_of_nodup (hnodup hleft) (hnodup hright)).2 h).eq_of_pairwise
    (fun _ _ _ _ hab hba => absurd hba hab.asymm) hleft hright

/-! ## What the state remembers of the ids -/

/-- The last id of a phase. -/
def ValidationState.previous (state : ValidationState) : ℕ → Option ℕ
  | 1 => state.previousEntity.map BitVec.toNat
  | 2 => state.previousPhysicality.map BitVec.toNat
  | 4 => state.previousAttestation.map BitVec.toNat
  | 5 => state.previousConsensus.map BitVec.toNat
  | _ => none

theorem follows_lt {width : ℕ} {previous : Option (BitVec width)} {next : BitVec width}
    (h : follows previous next) {last : ℕ} (hlast : previous.map BitVec.toNat = some last) :
    last < next.toNat := by
  obtain ⟨id, rfl, rfl⟩ := Option.map_eq_some_iff.1 hlast
  exact BitVec.lt_def.1 (of_decide_eq_true h)

structure Bounds (records : List Value) (state : ValidationState) : Prop where
  last : ∀ value ∈ records, ∃ last, state.previous value.phase = some last ∧
    value.identifier ≤ last
  entities : state.phase ≤ recordEntity → ∀ value ∈ records, value.phase = 1
  physicalities : state.phase < recordAttestation → ∀ value ∈ records, value.phase ≤ 2
  current : state.currentOpen → state.phase = recordPhysicality ∧
    .physicality state.currentPhysicality ∈ records ∧
    state.previousPhysicality = some state.currentPhysicality.physicalityId
  position : state.currentOpen → ∀ value ∈ records, value.phase = 2 →
    value.identifier = state.currentPhysicality.physicalityId.toNat →
    value.position ≤ state.currentVertices.toNat
  owned : ∀ segment, .trajectorySegment segment ∈ records →
    ∃ physicality, .physicality physicality ∈ records ∧
      physicality.physicalityId = segment.physicalityId

variable (blake3 : Blake3)

variable {records : List Value} {state : ValidationState}

theorem Bounds.before_same (h : Bounds records state) (value : Value)
    (hfollows : ∀ last, state.previous value.phase = some last → last < value.identifier) :
    ∀ earlier ∈ records, earlier.phase = value.phase → earlier.identifier < value.identifier := by
  intro earlier hearlier hphase
  obtain ⟨last, hlast, hle⟩ := h.last earlier hearlier
  exact hle.trans_lt (hfollows last (hphase ▸ hlast))

theorem phase_cases (value : Value) :
    value.phase = 1 ∨ value.phase = 2 ∨ value.phase = 4 ∨ value.phase = 5 := by
  cases value <;> simp [Value.phase]

variable {next : ValidationState} {value : Value}

/-- **One round**: the new record is behind all earlier ones, unless it is an attestation behind a
consensus record. -/
theorem Bounds.precedes (h : Bounds records state) (hstep : Step blake3 state value next)
    (hlate : ∀ earlier ∈ records, ¬ (earlier.phase = 5 ∧ value.phase = 4)) :
    ∀ earlier ∈ records, earlier.Precedes value := by
  intro earlier hearlier
  cases hstep with
  | @entity record hphase horder =>
    have hone := h.entities hphase earlier hearlier
    exact .inr ⟨hone, .inl (h.before_same (.entity record) (fun _ => follows_lt horder) earlier hearlier hone)⟩
  | @physicality record hphase _ horder =>
    have htwo := h.physicalities hphase earlier hearlier
    rcases Nat.lt_or_ge earlier.phase 2 with hlt | hge
    · exact .inl hlt
    · have hsame : earlier.phase = 2 := le_antisymm htwo hge
      exact .inr ⟨hsame,
        .inl (h.before_same (.physicality record) (fun _ => follows_lt horder) earlier hearlier hsame)⟩
  | @trajectorySegment record occurrence hopen _ howner hindex _ _ =>
    obtain ⟨hphase, -, hprevious⟩ := h.current hopen
    have htwo := h.physicalities (by rw [hphase]; decide) earlier hearlier
    rcases Nat.lt_or_ge earlier.phase 2 with hlt | hge
    · exact .inl hlt
    · have hsame : earlier.phase = 2 := le_antisymm htwo hge
      refine .inr ⟨hsame, ?_⟩
      obtain ⟨last, hlast, hle⟩ := h.last earlier hearlier
      have hid : last = state.currentPhysicality.physicalityId.toNat := by
        rw [hsame, ValidationState.previous, hprevious] at hlast
        exact (Option.some.inj hlast).symm
      have hvalue : (Value.trajectorySegment record).identifier =
          state.currentPhysicality.physicalityId.toNat := by
        rw [howner]
        rfl
      rcases Nat.lt_or_ge earlier.identifier last with hlt | hge
      · exact .inl (by omega)
      · have hposition := h.position hopen earlier hearlier hsame (by omega)
        refine .inr ⟨by omega, ?_⟩
        rw [Value.position, hindex]
        omega
  | @attestation record _ horder =>
    rcases phase_cases earlier with hphase | hphase | hphase | hphase
    · exact .inl (hphase ▸ (by decide : (1 : ℕ) < 4))
    · exact .inl (hphase ▸ (by decide : (2 : ℕ) < 4))
    · exact .inr ⟨hphase,
        .inl (h.before_same (.attestation record) (fun _ => follows_lt horder) earlier hearlier hphase)⟩
    · exact absurd ⟨hphase, rfl⟩ (hlate earlier hearlier)
  | @consensus record _ horder =>
    rcases phase_cases earlier with hphase | hphase | hphase | hphase
    · exact .inl (hphase ▸ (by decide : (1 : ℕ) < 5))
    · exact .inl (hphase ▸ (by decide : (2 : ℕ) < 5))
    · exact .inl (hphase ▸ (by decide : (4 : ℕ) < 5))
    · exact .inr ⟨hphase,
        .inl (h.before_same (.consensus record) (fun _ => follows_lt horder) earlier hearlier hphase)⟩

theorem Bounds.last_step (h : Bounds records state)
    (hset : next.previous value.phase = some value.identifier)
    (hkeep : ∀ phase, phase ≠ value.phase → next.previous phase = state.previous phase)
    (hfollows : ∀ last, state.previous value.phase = some last → last < value.identifier) :
    ∀ other ∈ records ++ [value], ∃ last, next.previous other.phase = some last ∧
      other.identifier ≤ last := by
  intro other hother
  rcases List.mem_append.1 hother with hother | hother
  · obtain ⟨last, hlast, hle⟩ := h.last other hother
    by_cases hphase : other.phase = value.phase
    · exact ⟨_, hphase ▸ hset, (hle.trans_lt (hfollows last (hphase ▸ hlast))).le⟩
    · exact ⟨last, (hkeep _ hphase).trans hlast, hle⟩
  · rw [List.mem_singleton.1 hother]
    exact ⟨_, hset, le_rfl⟩

theorem Bounds.owned_step (h : Bounds records state)
    (hnot : ∀ segment, value ≠ .trajectorySegment segment) :
    ∀ segment, .trajectorySegment segment ∈ records ++ [value] →
      ∃ physicality, .physicality physicality ∈ records ++ [value] ∧
        physicality.physicalityId = segment.physicalityId := by
  intro segment hsegment
  rcases List.mem_append.1 hsegment with hsegment | hsegment
  · obtain ⟨physicality, hmem, hid⟩ := h.owned segment hsegment
    exact ⟨physicality, List.mem_append_left _ hmem, hid⟩
  · exact absurd (List.mem_singleton.1 hsegment).symm (hnot segment)

theorem Bounds.step (h : Bounds records state) (hdescribes : Describes blake3 records state)
    (hstep : Step blake3 state value next) : Bounds (records ++ [value]) next := by
  cases hstep with
  | @entity record hphase horder =>
    have hclosed : ¬ state.currentOpen := fun hopen => by
      rw [(h.current hopen).1] at hphase
      exact absurd hphase (by decide)
    have hall : ∀ other ∈ records ++ [Value.entity record], other.phase = 1 :=
      List.forall_mem_append.2 ⟨h.entities hphase, List.forall_mem_singleton.2 rfl⟩
    exact
      { last := h.last_step rfl (fun phase hne => by
          match phase with
          | 1 => exact absurd rfl hne
          | 0 | 2 | 3 | 4 | 5 | _ + 6 => rfl) fun _ => follows_lt horder
        entities := fun _ => hall
        physicalities := fun _ other hother => by rw [hall other hother]; decide
        current := fun hopen => absurd hopen hclosed
        position := fun hopen => absurd hopen hclosed
        owned := h.owned_step nofun }
  | @physicality record hphase _ horder =>
    have hsame := h.before_same (.physicality record) fun _ => follows_lt horder
    exact
      { last := h.last_step rfl (fun phase hne => by
          match phase with
          | 2 => exact absurd rfl hne
          | 0 | 1 | 3 | 4 | 5 | _ + 6 => rfl) fun _ => follows_lt horder
        entities := fun hle => absurd hle (by decide : ¬ recordPhysicality ≤ recordEntity)
        physicalities := fun _ =>
          List.forall_mem_append.2 ⟨h.physicalities hphase, List.forall_mem_singleton.2 le_rfl⟩
        current := fun _ => ⟨rfl, List.mem_append_right _ (List.mem_singleton.2 rfl), rfl⟩
        position := fun _ => List.forall_mem_append.2
          ⟨fun other hother hphase hid => absurd hid (hsame other hother hphase).ne,
            List.forall_mem_singleton.2 fun _ _ => le_rfl⟩
        owned := h.owned_step nofun }
  | @trajectorySegment record occurrence hopen _ howner hindex hdecoded hfits =>
    obtain ⟨hphase, hcurrent, hprevious⟩ := h.current hopen
    have hbelow : state.phase < recordAttestation := by rw [hphase]; decide
    obtain ⟨before, segments, -, hafter⟩ := hdescribes.opened hopen
    have hpositive := (compositionDecodeOne_ok hdecoded).nonempty
    have hadd : (state.currentVertices + 1).toNat = state.currentVertices.toNat + 1 := by
      have hvertices := hafter.vertices
      have hlogical := hafter.logical
      have hnonempty := hafter.nonempty
      have hone : (1 : UInt64).toNat = 1 := rfl
      rw [Checked.toNat_add_of_lt (by rw [hone]; omega), hone]
    have hid : (Value.trajectorySegment record).identifier =
        state.currentPhysicality.physicalityId.toNat := by
      rw [howner]
      rfl
    exact
      { last := List.forall_mem_append.2 ⟨h.last,
          List.forall_mem_singleton.2 ⟨_, congrArg (Option.map BitVec.toNat) hprevious, hid.le⟩⟩
        entities := fun hle => by
          rw [show _ ≤ recordEntity ↔ state.phase ≤ recordEntity from Iff.rfl, hphase] at hle
          exact absurd hle (by decide)
        physicalities := fun _ =>
          List.forall_mem_append.2 ⟨h.physicalities hbelow, List.forall_mem_singleton.2 le_rfl⟩
        current := fun _ => ⟨hphase, List.mem_append_left _ hcurrent, hprevious⟩
        position := fun _ other hother htwo hsame => by
          change _ ≤ (state.currentVertices + 1).toNat
          rw [hadd]
          rcases List.mem_append.1 hother with hother | hother
          · have := h.position hopen other hother htwo hsame
            omega
          · rw [List.mem_singleton.1 hother, Value.position, hindex]
        owned := fun segment hsegment => by
          rcases List.mem_append.1 hsegment with hsegment | hsegment
          · obtain ⟨physicality, hmem, hid⟩ := h.owned segment hsegment
            exact ⟨physicality, List.mem_append_left _ hmem, hid⟩
          · cases List.mem_singleton.1 hsegment
            exact ⟨_, List.mem_append_left _ hcurrent, howner⟩ }
  | @attestation record _ horder =>
    exact
      { last := h.last_step rfl (fun phase hne => by
          match phase with
          | 4 => exact absurd rfl hne
          | 0 | 1 | 2 | 3 | 5 | _ + 6 => rfl) fun _ => follows_lt horder
        entities := fun hle => absurd hle (by decide : ¬ recordAttestation ≤ recordEntity)
        physicalities := fun hlt =>
          absurd hlt (by decide : ¬ recordAttestation < recordAttestation)
        current := nofun
        position := nofun
        owned := h.owned_step nofun }
  | @consensus record _ horder =>
    exact
      { last := h.last_step rfl (fun phase hne => by
          match phase with
          | 5 => exact absurd rfl hne
          | 0 | 1 | 2 | 3 | 4 | _ + 6 => rfl) fun _ => follows_lt horder
        entities := fun hle => absurd hle (by decide : ¬ recordConsensus ≤ recordEntity)
        physicalities := fun hlt =>
          absurd hlt (by decide : ¬ recordConsensus < recordAttestation)
        current := nofun
        position := nofun
        owned := h.owned_step nofun }

theorem bounds (h : Reached blake3 records state) : Bounds records state := by
  induction h with
  | start => exact ⟨nofun, nofun, nofun, nofun, nofun, nofun⟩
  | step hreached _ hstep ih => exact ih.step blake3 (describes blake3 hreached) hstep
  | @counted records state _ summary ih =>
    exact ⟨fun value hvalue => by
      obtain ⟨last, hlast, hle⟩ := ih.last value hvalue
      refine ⟨last, ?_, hle⟩
      rw [← hlast]
      rcases phase_cases value with hphase | hphase | hphase | hphase <;> rw [hphase] <;> rfl,
      ih.entities, ih.physicalities, ih.current, ih.position, ih.owned⟩

/-- **A run without late attestations is in order.** -/
theorem ordered (h : Reached blake3 records state) (hlate : NoLateAttestation records) :
    records.Pairwise Value.Precedes := by
  induction h with
  | start => exact .nil
  | step hreached _ hstep ih =>
    obtain ⟨hbefore, -, hnew⟩ := List.pairwise_append.1 hlate
    refine List.pairwise_append.2 ⟨ih hbefore, List.pairwise_singleton .., ?_⟩
    intro earlier hearlier later hlater
    rw [List.mem_singleton.1 hlater]
    exact (bounds blake3 hreached).precedes blake3 hstep (fun other hother =>
      hnew other hother _ (List.mem_singleton.2 rfl)) earlier hearlier
  | counted _ _ ih => exact ih hlate

theorem noLateAttestation_of_canonical (h : Canonical records) : NoLateAttestation records :=
  h.order.imp fun hprecedes ⟨hearlier, hlater⟩ => by
    unfold Value.Precedes at hprecedes
    omega

/-- **The order holds exactly where no attestation comes behind a consensus record**, and there the
set of the records determines the bytes. -/
theorem canonical_order_iff {batches : List CanonicalBatch} {summary : Summary}
    (h : validateStream blake3 batches = .ok summary) : ∃ records, Records blake3 batches records ∧
      (Canonical records ↔ NoLateAttestation records) ∧
      ∀ batches' summary' records', validateStream blake3 batches' = .ok summary' →
        Records blake3 batches' records' → NoLateAttestation records →
        NoLateAttestation records' → (∀ value, value ∈ records ↔ value ∈ records') →
        streamBytes batches = streamBytes batches' := by
  obtain ⟨records, state, hrecords, hreached, -⟩ := validateStream_ok blake3 h
  refine ⟨records, hrecords, ⟨noLateAttestation_of_canonical,
    fun hlate => ⟨ordered blake3 hreached hlate, (bounds blake3 hreached).owned⟩⟩, ?_⟩
  intro batches' summary' records' h' hrecords' hlate hlate' hsame
  obtain ⟨others, state', hothers, hreached', -⟩ := validateStream_ok blake3 h'
  rw [hrecords'.unique blake3 hothers] at hlate' hsame
  rw [hrecords.bytes, hothers.bytes,
    eq_of_canonical (ordered blake3 hreached hlate) (ordered blake3 hreached' hlate') hsame]

/-! ## An attestation behind a consensus record -/

/-- One batch that holds the frames of some records. -/
def batchOf (records : List Value)
    (h : (records.map Value.frame).flatten.length < 2 ^ 64) : CanonicalBatch where
  canonicalBytes := some (records.map Value.frame).flatten
  byteCount := UInt64.ofNat (records.map Value.frame).flatten.length
  recordCount := UInt64.ofNat records.length
  firstOrdinal := 0
  recordType := streamRecordType
  flags := 0
  sized := fun bytes hbytes => by
    rw [← Option.some.inj hbytes]
    exact (Checked.toNat_ofNat h).symm

theorem batchOf_frames (hne : records ≠ []) (h : (records.map Value.frame).flatten.length < 2 ^ 64) :
    BatchOf (batchOf records h) (records.map Value.frame) where
  canonicalBytes := rfl
  nonempty := fun hnil => hne (List.map_eq_nil_iff.1 hnil)
  recordCount := by
    have hcomplete : ∀ frame ∈ records.map Value.frame, CompleteFrame frame := fun frame hframe => by
      obtain ⟨value, -, rfl⟩ := List.mem_map.1 hframe
      exact completeFrame_frame value
    have hlen := CompleteFrame.length_flatten hcomplete
    rw [List.length_map] at hlen ⊢
    exact Checked.toNat_ofNat (hlen.trans_lt h)
  recordType := rfl
  flags := rfl
  complete := fun frame hframe => by
    obtain ⟨value, -, rfl⟩ := List.mem_map.1 hframe
    exact completeFrame_frame value

/-- A consensus record and an attestation with the identities that the hash gives them. -/
def lateConsensus : ConsensusRecord :=
  let unnamed : ConsensusRecord := ⟨0, 0, 0, 0, 0, 1, 0, 1, 0, 0⟩
  { unnamed with
    consensusId := blake3 (consensusDomain ++ (consensusPayload unnamed).drop 32) }

def lateAttestation : AttestationRecord :=
  let unnamed : AttestationRecord := ⟨0, 0, 0, 0, 0, 1, 0, 1⟩
  { unnamed with
    attestationId := blake3 (attestationDomain ++ (attestationPayload unnamed).drop 32) }

def lateRecords : List Value :=
  [.consensus (lateConsensus blake3), .attestation (lateAttestation blake3)]

theorem lateRecords_length : ((lateRecords blake3).map Value.frame).flatten.length < 2 ^ 64 := by
  have hconsensus := (Value.consensus (lateConsensus blake3)).frame_length
  have hattestation := (Value.attestation (lateAttestation blake3)).frame_length
  have hbytes : frameBytes recordConsensus + frameBytes recordAttestation < 2 ^ 64 := by decide
  simp only [lateRecords, List.map_cons, List.map_nil, List.flatten_cons, List.flatten_nil,
    List.append_nil, List.length_append, hconsensus, hattestation]
  exact hbytes

def lateBatches : List CanonicalBatch := [batchOf (lateRecords blake3) (lateRecords_length blake3)]

theorem digest_bytes_length (digest : Digest256) : digest.bytes.length = 32 := by
  rw [digest_bytes_eq]
  exact (Layout.bits 32).length_store digest

theorem lateRecords_accepted : ∀ value ∈ lateRecords blake3, value.Accepted blake3 := by
  have hconsensus : (Value.consensus (lateConsensus blake3)).Accepted blake3 := by
    have hvalid : consensusScalarsValid (lateConsensus blake3) :=
      (by decide : consensusScalarsValid ⟨0, 0, 0, 0, 0, 1, 0, 1, 0, 0⟩)
    have hid : consensusIdentify blake3 (lateConsensus blake3) =
        .ok (lateConsensus blake3).consensusId := by
      rw [consensusIdentify, if_neg (not_not.2 hvalid)]
      simp only [consensusPayload, List.drop_left' (digest_bytes_length _)]
      rfl
    rw [Value.Accepted, hid]
    exact decide_eq_true rfl
  have hattestation : (Value.attestation (lateAttestation blake3)).Accepted blake3 := by
    have hvalid : attestationScalarsValid (lateAttestation blake3) :=
      (by decide : attestationScalarsValid ⟨0, 0, 0, 0, 0, 1, 0, 1⟩)
    have hid : attestationIdentify blake3 (lateAttestation blake3) =
        .ok (lateAttestation blake3).attestationId := by
      rw [attestationIdentify, if_neg (not_not.2 hvalid)]
      simp only [attestationPayload, List.drop_left' (digest_bytes_length _)]
      rfl
    rw [Value.Accepted, hid]
    exact decide_eq_true rfl
  intro value hvalue
  rcases List.mem_cons.1 hvalue with rfl | hvalue
  · exact hconsensus
  · rwa [List.mem_singleton.1 hvalue]

theorem lateBatches_accepted : ∃ summary, validateStream blake3 (lateBatches blake3) = .ok summary := by
  have hbatch := @batchOf_frames (lateRecords blake3) nofun (lateRecords_length blake3)
  have hparts : [(lateRecords blake3).map Value.frame].flatten =
      (lateRecords blake3).map Value.frame := by
    rw [List.flatten_cons, List.flatten_nil, List.append_nil]
  have hconsensus := lateRecords_accepted blake3 _ List.mem_cons_self
  have hattestation := lateRecords_accepted blake3 _ (List.mem_cons_of_mem _ List.mem_cons_self)
  have hsteps := (@Steps.cons _ .zero) hconsensus (.consensus ⟨nofun, nofun⟩ rfl)
    (.cons hattestation (.attestation ⟨nofun, nofun⟩ rfl) .nil)
  exact ⟨_, validateStream_of_steps blake3 hsteps ⟨nofun, nofun⟩
    (by decide : (0 : UInt64) + 1 + 1 ≠ 0) (.cons hbatch .nil)
    hparts nofun (hparts ▸ lateRecords_length blake3)⟩

theorem lateRecords_records : Records blake3 (lateBatches blake3) (lateRecords blake3) where
  accepted := lateRecords_accepted blake3
  bytes := List.append_nil _

theorem canonical_order_iff_late : ∃ records, Records (fun _ => 0) (lateBatches fun _ => 0) records ∧
      (Canonical records ↔ NoLateAttestation records) ∧
      ∀ batches' summary' records', validateStream (fun _ => 0) batches' = .ok summary' →
        Records (fun _ => 0) batches' records' → NoLateAttestation records →
        NoLateAttestation records' → (∀ value, value ∈ records ↔ value ∈ records') →
        streamBytes (lateBatches fun _ => 0) = streamBytes batches' := by
  obtain ⟨summary, h⟩ := lateBatches_accepted fun _ => 0
  exact canonical_order_iff (fun _ => 0) h

/-- Whatever the hash, the stream of a consensus record and then an attestation is accepted, and it is
out of order. -/
theorem late_attestation_accepted : ¬ ∃ blake3 : Blake3, ∀ batches summary records,
    validateStream blake3 batches = .ok summary → Records blake3 batches records → Canonical records := by
  rintro ⟨blake3, hclaim⟩
  obtain ⟨summary, h⟩ := lateBatches_accepted blake3
  have hcanonical := hclaim _ summary _ h (lateRecords_records blake3)
  have hlate := noLateAttestation_of_canonical hcanonical
  exact List.rel_of_pairwise_cons hlate List.mem_cons_self ⟨rfl, rfl⟩

end Laplace.Persistence
