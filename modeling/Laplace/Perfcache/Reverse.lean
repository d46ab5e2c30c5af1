import Laplace.Lib.Outcome
import Laplace.Lib.Probing
import Laplace.Perfcache.Generation
import Laplace.Perfcache.Lookup
import Laplace.Persistence.PhysicalityEntity

/-!
# The reverse identity table (perfcache_modules.c:314-526, 590-633)

The records of the table are slots, a power of two of them. A slot is empty or holds the identity of
a code position, and an identity is sought from its home on. A read outside of the records is a trap.
-/

namespace Laplace.Perfcache

open Guarded

def reverseCapacity : ℕ := 2097152
def reversePopulation : ℕ := 1114112
def reverseKeyBytes : UInt32 := 48
def reverseValueBytes : UInt32 := 8

/-- `laplace_perfcache_unicode_identity_reverse_module` -/
def unicodeIdentityReverseModule : RegisteredModule where
  moduleId := 0x7eb954d41423919d2ffa04bc5e41483b
  keySchemaId := 0x49bd054506262933ea754514330d0c60
  valueSchemaId := 0x92c44b7d8c0aba06265b397dce3fd6ee
  moduleContractFingerprint := 0xf6d1a0db56270ed66e4032be928386401f0f10c02f29f64c903eaebb7c8520c2
  accessLaw := accessModuleDefined
  keyBytes := reverseKeyBytes
  valueBytes := reverseValueBytes
  flags := moduleRequired

/-- `laplace_unicode_identity_key` -/
structure IdentityKey where
  contentId : Id128
  identityPreimageFingerprint : Digest256
deriving DecidableEq

def IdentityKey.bytes (key : IdentityKey) : List UInt8 :=
  key.contentId.bytes ++ key.identityPreimageFingerprint.bytes

/-- `laplace_perfcache_status`, for what the search returns besides OK. -/
inductive ReverseStatus
  | invalidArgument | semanticMismatch
deriving DecidableEq, Repr

/-- `LAPLACE_PERFCACHE_SEMANTIC_MISMATCH`, with what stands in `invalid_record_index` where it was
written. -/
structure SemanticMismatch where
  invalidRecordIndex : Option ℕ
deriving DecidableEq, Repr

/-- The outputs of `laplace_perfcache_unicode_identity_reverse_resolve_batch` for one identity. -/
structure ResolvedPosition where
  found : Bool
  codepointPosition : UInt32
deriving DecidableEq, Repr

/-! ## Slots -/

/-- The byte that says whether a slot is occupied. -/
def occupiedByte (record : List UInt8) : UInt8 := byteAt record (reverseKeyBytes.toNat + 4)

def keyOf (record : List UInt8) : List UInt8 := record.take reverseKeyBytes.toNat

def positionOf (record : List UInt8) : UInt32 := loadU32 (record.drop reverseKeyBytes.toNat)

/-- `unicode_identity_reverse_home` -/
def reverseHome (key : List UInt8) : ℕ := (loadU64 (key.drop 16)).toNat &&& (reverseCapacity - 1)

def nextSlot (slot : ℕ) : ℕ := (slot + 1) &&& (reverseCapacity - 1)

/-- The record of a slot. -/
def readSlot {ε : Type} (view : ArtifactView) (slot : ℕ) : Guarded ε (List UInt8) := do
  let offset ← mul (UInt64.ofNat slot) view.recordStride.toUInt64
  readBytes view.records offset.toNat view.recordStride.toNat

section Validating

variable (blake3 : Blake3) (view : ArtifactView)

/-- `validate_unicode_identity_reverse_record` -/
def reverseRecordValid (recordIndex : ℕ) (record : List UInt8) (recordStride : UInt32) : Bool :=
  if recordStride ≠ reverseKeyBytes + reverseValueBytes ∨ reverseCapacity ≤ recordIndex then false
  else
    let value := record.drop reverseKeyBytes.toNat
    let position := loadU32 value
    let occupied := byteAt value 4
    if occupied = 0 then record.all (· = 0)
    else if occupied ≠ 1 ∨ byteAt value 5 ≠ 0 ∨ byteAt value 6 ≠ 0 ∨ byteAt value 7 ≠ 0 then false
    else if reversePopulation ≤ position.toNat then false
    else
      match Identity.codepointWitness blake3 position with
      | .error _ => false
      | .ok (expectedId, expectedWitness) =>
        record.take 16 = expectedId.bytes ∧ (record.drop 16).take 32 = expectedWitness.bytes

/-- The probes of `unicode_identity_reverse_validate_view` for the record of one slot. -/
def probeRecord (record : List UInt8) (recordIndex : ℕ) : ℕ → ℕ → Guarded SemanticMismatch Unit
  | 0, _ => .error (.fails ⟨some recordIndex⟩)
  | probes + 1, slot => do
    let candidate ← readSlot view slot
    require (¬ (occupiedByte candidate = 0 ∨ slot ≠ recordIndex ∧ keyOf candidate = keyOf record))
      ⟨some recordIndex⟩
    if slot = recordIndex then return () else probeRecord record recordIndex probes (nextSlot slot)

/-- One round of `unicode_identity_reverse_validate_view`: whether the slot is occupied. -/
def validateSlot (recordIndex : ℕ) : Guarded SemanticMismatch Bool := do
  let record ← readSlot view recordIndex
  require (reverseRecordValid blake3 recordIndex record view.recordStride) ⟨some recordIndex⟩
  if occupiedByte record ≠ 0 then do
    probeRecord view record recordIndex reverseCapacity (reverseHome (keyOf record))
    return true
  else return false

def validateSlots : List ℕ → ℕ → Guarded SemanticMismatch ℕ
  | [], occupiedCount => return occupiedCount
  | recordIndex :: recordIndexes, occupiedCount => do
    let occupied ← validateSlot blake3 view recordIndex
    validateSlots recordIndexes (if occupied then occupiedCount + 1 else occupiedCount)

/-- `laplace_perfcache_unicode_identity_reverse_validate_view` -/
def reverseValidateView : Guarded SemanticMismatch Unit := do
  require (view.metadataBytes = 0 ∧ view.recordCount.toNat = reverseCapacity ∧
    moduleContractMatches unicodeIdentityReverseModule view.contract) ⟨none⟩
  let stride ← add32 unicodeIdentityReverseModule.keyBytes unicodeIdentityReverseModule.valueBytes
  require (view.recordStride = stride) ⟨none⟩
  let occupiedCount ← validateSlots blake3 view (List.range view.recordCount.toNat) 0
  require (occupiedCount = reversePopulation) ⟨some view.recordCount.toNat⟩

end Validating

section Finding

variable (view : ArtifactView)

/-- The loop of `unicode_identity_reverse_find`. -/
def findSlot (key : List UInt8) : ℕ → ℕ → Guarded ReverseStatus (Option ℕ)
  | 0, _ => .error (.fails .semanticMismatch)
  | probes + 1, slot => do
    let record ← readSlot view slot
    if occupiedByte record = 0 then return none
    else do
      require (occupiedByte record = 1) .semanticMismatch
      if keyOf record = key then return some slot else findSlot key probes (nextSlot slot)

/-- `unicode_identity_reverse_find`: the record index, where the key is found. -/
def reverseFind (key : List UInt8) : Guarded ReverseStatus (Option ℕ) := do
  require (view.recordCount.toNat = reverseCapacity ∧
    view.recordStride = reverseKeyBytes + reverseValueBytes) .invalidArgument
  findSlot view key reverseCapacity (reverseHome key)

/-- A search whose failure is an internal error. -/
def orInternalError {α : Type} : Guarded ReverseStatus α → Guarded RegistryStatus α
  | .ok value => .ok value
  | .error (.fails _) => .error (.fails .internalError)
  | .error .trap => .error .trap

/-- The body of the loop of `laplace_perfcache_unicode_identity_reverse_resolve_batch`. -/
def resolveIdentity (identity : IdentityKey) : Guarded RegistryStatus ResolvedPosition := do
  let recordIndex ← orInternalError (reverseFind view identity.bytes)
  match recordIndex with
  | none => return ⟨false, 0xffffffff⟩
  | some slot => do
    let record ← readSlot view slot
    return ⟨true, positionOf record⟩

/-- `laplace_perfcache_unicode_identity_reverse_resolve_batch`, for the view of the pin. -/
def reverseResolveBatch (identities : List IdentityKey) :
    Guarded RegistryStatus (List ResolvedPosition) := do
  require (moduleContractMatches unicodeIdentityReverseModule view.contract) .invalidArgument
  identities.mapM (resolveIdentity view)

end Finding

/-! ## What is read -/

/-- The bytes of a slot. -/
def ArtifactView.recordAt (view : ArtifactView) (slot : ℕ) : List UInt8 :=
  (view.records.drop (slot * view.recordStride.toNat)).take view.recordStride.toNat

/-- The key of a slot that is occupied. -/
def ArtifactView.slotKey (view : ArtifactView) (slot : ℕ) : Option (List UInt8) :=
  if occupiedByte (view.recordAt slot) = 0 then none else some (keyOf (view.recordAt slot))

theorem reverseCapacity_eq : reverseCapacity = 2 ^ 21 := rfl

theorem nextSlot_eq (slot : ℕ) : nextSlot slot = (slot + 1) % reverseCapacity := by
  rw [nextSlot, reverseCapacity_eq, Nat.and_two_pow_sub_one_eq_mod]

theorem reverseHome_lt (key : List UInt8) : reverseHome key < reverseCapacity := by
  rw [reverseHome, reverseCapacity_eq, Nat.and_two_pow_sub_one_eq_mod]
  exact Nat.mod_lt _ (by decide)

theorem readSlot_ok {ε ε' : Type} {view : ArtifactView} {slot : ℕ} {record : List UInt8}
    (hslot : slot < 2 ^ 64) (h : (readSlot view slot : Guarded ε (List UInt8)) = .ok record) :
    record = view.recordAt slot ∧
      (readSlot view slot : Guarded ε' (List UInt8)) = .ok (view.recordAt slot) := by
  have hnumber : (UInt64.ofNat slot).toNat = slot := Checked.toNat_ofNat hslot
  have hword : view.recordStride.toUInt64.toNat = view.recordStride.toNat := rfl
  obtain ⟨offset, hoffset, hread⟩ := bind_eq_ok.1 h
  unfold mul at hoffset
  split at hoffset
  swap
  · cases hoffset
  rename_i hfits
  obtain rfl := Except.ok.inj hoffset
  have hproduct := toNat_mul_of_lt hfits
  rw [hnumber, hword] at hproduct
  rw [hproduct] at hread
  unfold readBytes at hread
  split at hread
  swap
  · cases hread
  rename_i hin
  refine ⟨(Except.ok.inj hread).symm, ?_⟩
  unfold readSlot
  rw [mul_ok hfits, ok_bind, hproduct, readBytes, if_pos hin]
  rfl

/-! ## Accepted tables -/

section Accepted

variable {blake3 : Blake3} {view : ArtifactView}

/-- What the rounds of the validator establish of a slot. -/
structure SlotValid (blake3 : Blake3) (view : ArtifactView) (slot : ℕ) : Prop where
  read : ∀ ε, (readSlot view slot : Guarded ε (List UInt8)) = .ok (view.recordAt slot)
  record : reverseRecordValid blake3 slot (view.recordAt slot) view.recordStride = true
  probed : occupiedByte (view.recordAt slot) ≠ 0 → probeRecord view (view.recordAt slot) slot
    reverseCapacity (reverseHome (keyOf (view.recordAt slot))) = .ok ()

theorem validateSlot_ok {slot : ℕ} {occupied : Bool} (hslot : slot < 2 ^ 64)
    (h : validateSlot blake3 view slot = .ok occupied) :
    SlotValid blake3 view slot ∧ occupied = (view.slotKey slot).isSome := by
  obtain ⟨record, hread, h⟩ := bind_eq_ok.1 h
  obtain ⟨rfl, -⟩ := @readSlot_ok _ ReverseStatus _ _ _ hslot hread
  obtain ⟨_, hrequire, h⟩ := bind_eq_ok.1 h
  have hrecord := of_require hrequire
  have hreads (ε : Type) := (@readSlot_ok _ ε _ _ _ hslot hread).2
  unfold ArtifactView.slotKey
  split at h
  · rename_i hoccupied
    obtain ⟨_, hprobed, h⟩ := bind_eq_ok.1 h
    refine ⟨⟨hreads, hrecord, fun _ => hprobed⟩, ?_⟩
    rw [if_neg hoccupied]
    exact (Except.ok.inj h).symm
  · rename_i hempty
    refine ⟨⟨hreads, hrecord, fun hoccupied => absurd hoccupied hempty⟩, ?_⟩
    rw [if_pos (not_not.1 hempty)]
    exact (Except.ok.inj h).symm

theorem validateSlots_ok : ∀ {slots : List ℕ} {occupiedCount result : ℕ}, (∀ slot ∈ slots, slot < 2 ^ 64) →
    validateSlots blake3 view slots occupiedCount = .ok result →
      (∀ slot ∈ slots, SlotValid blake3 view slot) ∧
        result = occupiedCount + slots.countP fun slot => (view.slotKey slot).isSome
  | [], occupiedCount, result, _, h => by
    obtain rfl := Except.ok.inj h
    exact ⟨fun _ hmem => absurd hmem List.not_mem_nil, rfl⟩
  | slot :: slots, occupiedCount, result, hlt, h => by
    rw [List.forall_mem_cons] at hlt
    obtain ⟨occupied, hslot, hrest⟩ := bind_eq_ok.1 h
    obtain ⟨hvalid, rfl⟩ := validateSlot_ok hlt.1 hslot
    obtain ⟨hslots, hcount⟩ := validateSlots_ok hlt.2 hrest
    refine ⟨List.forall_mem_cons.2 ⟨hvalid, hslots⟩, ?_⟩
    rw [hcount, List.countP_cons]
    split <;> omega

/-- An accepted table. -/
structure ReverseTable (blake3 : Blake3) (view : ArtifactView) : Prop where
  recordCount : view.recordCount.toNat = reverseCapacity
  recordStride : view.recordStride = reverseKeyBytes + reverseValueBytes
  contract : moduleContractMatches unicodeIdentityReverseModule view.contract = true
  slots : ∀ slot < reverseCapacity, SlotValid blake3 view slot
  population : (List.range reverseCapacity).countP (fun slot => (view.slotKey slot).isSome) =
    reversePopulation

theorem reverseValidateView_ok (h : reverseValidateView blake3 view = .ok ()) :
    ReverseTable blake3 view := by
  obtain ⟨_, hview, h⟩ := bind_eq_ok.1 h
  obtain ⟨-, hcount, hcontract⟩ := of_require hview
  obtain ⟨stride, hstride, h⟩ := bind_eq_ok.1 h
  have hsum : stride = reverseKeyBytes + reverseValueBytes := (Except.ok.inj hstride).symm
  obtain ⟨_, hequal, h⟩ := bind_eq_ok.1 h
  have hequal := of_require hequal
  obtain ⟨occupiedCount, hslots, h⟩ := bind_eq_ok.1 h
  have hpopulation := of_require h
  rw [hcount] at hslots
  have hcapacity := reverseCapacity_eq
  obtain ⟨hvalid, hcounted⟩ := validateSlots_ok (fun slot hmem => by
    have := List.mem_range.1 hmem
    omega) hslots
  refine ⟨hcount, hequal.trans hsum, hcontract, fun slot hslot => hvalid slot (List.mem_range.2 hslot), ?_⟩
  rw [← hpopulation, hcounted, Nat.zero_add]

theorem byteAt_drop (bytes : List UInt8) (count index : ℕ) :
    byteAt (bytes.drop count) index = byteAt bytes (count + index) := by
  unfold byteAt
  rw [List.getD_eq_getElem?_getD, List.getD_eq_getElem?_getD, List.getElem?_drop]

theorem record_occupied {slot : ℕ} {record : List UInt8} {stride : UInt32}
    (h : reverseRecordValid blake3 slot record stride = true) (hoccupied : occupiedByte record ≠ 0) :
    occupiedByte record = 1 ∧ (positionOf record).toNat < reversePopulation ∧
      ∃ identity : IdentityKey, keyOf record = identity.bytes ∧
        Identity.codepointWitness blake3 (positionOf record) =
          .ok (identity.contentId, identity.identityPreimageFingerprint) := by
  unfold reverseRecordValid at h
  split at h
  · cases h
  dsimp only at h
  rw [byteAt_drop] at h
  split at h
  · rename_i hempty
    exact absurd hempty hoccupied
  split at h
  · cases h
  rename_i hreserved
  split at h
  · cases h
  rename_i hposition
  rw [not_or, not_not] at hreserved
  refine ⟨hreserved.1, not_le.1 hposition, ?_⟩
  change (match Identity.codepointWitness blake3 (positionOf record) with
    | .error _ => false
    | .ok (expectedId, expectedWitness) => decide (record.take 16 = expectedId.bytes ∧
      (record.drop 16).take 32 = expectedWitness.bytes)) = true at h
  cases hwitness : Identity.codepointWitness blake3 (positionOf record) with
  | error status =>
    rw [hwitness] at h
    cases h
  | ok identity =>
    obtain ⟨expectedId, expectedWitness⟩ := identity
    rw [hwitness, decide_eq_true_eq] at h
    refine ⟨⟨expectedId, expectedWitness⟩, ?_, rfl⟩
    rw [IdentityKey.bytes, ← h.1, ← h.2]
    exact List.take_add (i := 16) (j := 32)

theorem slotKey_eq_some {slot : ℕ} {key : List UInt8} : view.slotKey slot = some key ↔
    occupiedByte (view.recordAt slot) ≠ 0 ∧ keyOf (view.recordAt slot) = key := by
  unfold ArtifactView.slotKey
  split
  · rename_i hempty
    exact iff_of_false nofun fun h => h.1 hempty
  · rename_i hoccupied
    rw [Option.some_inj, and_iff_right hoccupied]

section Table

variable (h : ReverseTable blake3 view)
include h

theorem reaches_of_probeRecord {record : List UInt8} {recordIndex : ℕ} : ∀ {probes slot : ℕ},
    slot < reverseCapacity → probeRecord view record recordIndex probes slot = .ok () →
      Probing.reaches reverseCapacity view.slotKey (keyOf record) recordIndex probes slot = true
  | 0, _, _, hprobe => nomatch hprobe
  | probes + 1, slot, hslot, hprobe => by
    rw [probeRecord, (h.slots slot hslot).read, ok_bind] at hprobe
    obtain ⟨_, hrequire, hprobe⟩ := bind_eq_ok.1 hprobe
    have hcandidate := of_require hrequire
    rw [not_or] at hcandidate
    have hkey := slotKey_eq_some.2 ⟨hcandidate.1, rfl⟩
    rw [Probing.reaches, hkey]
    dsimp only
    rw [if_neg hcandidate.2]
    split at hprobe
    · rename_i hreached
      exact if_pos hreached
    · rename_i hother
      rw [if_neg hother]
      rw [nextSlot_eq] at hprobe
      exact reaches_of_probeRecord (Nat.mod_lt _ (by decide)) hprobe

theorem ReverseTable.seated : Probing.Seated reverseCapacity view.slotKey reverseHome := by
  intro slot hslot key hkey
  obtain ⟨hoccupied, rfl⟩ := slotKey_eq_some.1 hkey
  exact reaches_of_probeRecord h (reverseHome_lt _) ((h.slots slot hslot).probed hoccupied)

theorem ReverseTable.empty : ∃ slot < reverseCapacity, view.slotKey slot = none := by
  by_contra hfull
  push Not at hfull
  have hall : (List.range reverseCapacity).countP (fun slot => (view.slotKey slot).isSome) =
      (List.range reverseCapacity).length :=
    List.countP_eq_length.2 fun slot hslot =>
      Option.isSome_iff_ne_none.2 (hfull slot (List.mem_range.1 hslot))
  rw [h.population, List.length_range] at hall
  exact absurd hall (by decide)

theorem findSlot_eq (key : List UInt8) : ∀ (probes : ℕ) {slot : ℕ}, slot < reverseCapacity →
    findSlot view key probes slot = match Probing.probe reverseCapacity view.slotKey key probes slot with
      | .found found => .ok (some found)
      | .absent => .ok none
      | .full => .error (.fails .semanticMismatch)
  | 0, _, _ => rfl
  | probes + 1, slot, hslot => by
    rw [findSlot, (h.slots slot hslot).read, ok_bind, Probing.probe]
    by_cases hempty : occupiedByte (view.recordAt slot) = 0
    · rw [if_pos hempty, ArtifactView.slotKey, if_pos hempty]
      rfl
    · rw [if_neg hempty, slotKey_eq_some.2 ⟨hempty, rfl⟩,
        require_ok (record_occupied (h.slots slot hslot).record hempty).1, ok_bind]
      dsimp only
      split
      · rfl
      · rw [nextSlot_eq]
        exact findSlot_eq key probes (Nat.mod_lt _ (by decide))

/-- **The search for a key ends, and finds it where it is stored.** -/
theorem ReverseTable.find_cases (key : List UInt8) :
    (∃ slot < reverseCapacity, view.slotKey slot = some key ∧ reverseFind view key = .ok (some slot)) ∨
      ((∀ slot < reverseCapacity, view.slotKey slot ≠ some key) ∧ reverseFind view key = .ok none) := by
  obtain ⟨empty, hempty, hnone⟩ := h.empty
  have hfind := findSlot_eq h key reverseCapacity (reverseHome_lt key)
  unfold reverseFind
  rw [require_ok ⟨h.recordCount, h.recordStride⟩, ok_bind, hfind]
  rcases h.seated.probe_cases (reverseHome_lt key) hempty hnone with
    ⟨slot, hslot, hkey, hprobe⟩ | ⟨hmissing, hprobe⟩
  · exact .inl ⟨slot, hslot, hkey, by rw [hprobe]⟩
  · exact .inr ⟨hmissing, by rw [hprobe]⟩

end Table

end Accepted

end Laplace.Perfcache
