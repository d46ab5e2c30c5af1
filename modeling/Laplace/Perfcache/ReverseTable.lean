import Laplace.Perfcache.Reverse
import Laplace.Unicode.Utf8Decoders

/-!
# What the reverse table answers

A validated table stores the identity of every code position once, and the lookup answers from it.
-/

namespace Laplace.Perfcache

open Guarded Identity Finset Packets Utf8

/-! ## What is stored -/

/-- A slot that holds the position. -/
def ArtifactView.HoldsPosition (view : ArtifactView) (slot : ℕ) (position : UInt32) : Prop :=
  slot < reverseCapacity ∧ (view.slotKey slot).isSome ∧ positionOf (view.recordAt slot) = position

/-- Some slot holds the key. -/
def ArtifactView.Stores (view : ArtifactView) (key : IdentityKey) : Prop :=
  ∃ slot < reverseCapacity, view.slotKey slot = some key.bytes

theorem IdentityKey.bytes_inj {left right : IdentityKey} (h : left.bytes = right.bytes) : left = right := by
  unfold bytes at h
  rw [id_bytes_eq, id_bytes_eq, Layout.store_append_inj, digest_bytes_eq, digest_bytes_eq] at h
  obtain ⟨contentId, fingerprint⟩ := left
  obtain ⟨hid, hfingerprint⟩ := h
  rw [IdentityKey.mk.injEq]
  exact ⟨hid, (Layout.bits 32).store_injective hfingerprint⟩

theorem contentId_of_witness {blake3 : Blake3} {position : UInt32} {contentId : Id128}
    {witness : Digest256} (h : codepointWitness blake3 position = .ok (contentId, witness)) :
    contentId = identityOf witness := by
  unfold codepointWitness at h
  obtain ⟨code, -, hpair⟩ := bind_eq_ok.1 h
  cases hpair
  rfl

theorem card_filter_range (holds : ℕ → Bool) (count : ℕ) :
    ((range count).filter fun slot => holds slot).card = (List.range count).countP holds := by
  rw [List.countP_eq_length_filter]
  change ((List.range count).filter fun slot => decide (holds slot = true)).length = _
  simp only [Bool.decide_eq_true]

section Stored

variable {blake3 : Blake3} {view : ArtifactView} (h : ReverseTable blake3 view)
include h

variable {position : UInt32}

theorem ReverseTable.holds {slot : ℕ} (hholds : view.HoldsPosition slot position) :
    position.toNat < reversePopulation ∧ ∃ identity : IdentityKey,
      view.slotKey slot = some identity.bytes ∧ codepointWitness blake3 position =
        .ok (identity.contentId, identity.identityPreimageFingerprint) := by
  obtain ⟨hslot, hsome, rfl⟩ := hholds
  obtain ⟨key, hkey⟩ := Option.isSome_iff_exists.1 hsome
  obtain ⟨hoccupied, rfl⟩ := slotKey_eq_some.1 hkey
  obtain ⟨-, hposition, identity, hbytes, hwitness⟩ :=
    record_occupied (h.slots slot hslot).record hoccupied
  exact ⟨hposition, identity, hbytes ▸ hkey, hwitness⟩

/-- A position is in one slot, since its identity is. -/
theorem ReverseTable.holds_unique {first second : ℕ} (hfirst : view.HoldsPosition first position)
    (hsecond : view.HoldsPosition second position) : first = second := by
  obtain ⟨-, identity, hkey, hwitness⟩ := h.holds hfirst
  obtain ⟨-, identity', hkey', hwitness'⟩ := h.holds hsecond
  rw [hwitness, Except.ok.injEq, Prod.mk.injEq] at hwitness'
  obtain ⟨contentId, fingerprint⟩ := identity
  obtain ⟨contentId', fingerprint'⟩ := identity'
  obtain ⟨rfl, rfl⟩ := hwitness'
  exact h.seated.slot_unique hfirst.1 hsecond.1 hkey hkey'

theorem ReverseTable.exists_holds (hposition : position.toNat < reversePopulation) :
    ∃ slot, view.HoldsPosition slot position := by
  let occupied := (range reverseCapacity).filter fun slot => (view.slotKey slot).isSome
  let positionAt := fun slot => (positionOf (view.recordAt slot)).toNat
  have hholds {slot : ℕ} (hmem : slot ∈ occupied) :
      view.HoldsPosition slot (positionOf (view.recordAt slot)) := by
    obtain ⟨hslot, hsome⟩ := mem_filter.1 hmem
    exact ⟨mem_range.1 hslot, hsome, rfl⟩
  have hcard : occupied.card = reversePopulation := (card_filter_range _ _).trans h.population
  have hinto : occupied.image positionAt ⊆ range reversePopulation := by
    intro number hnumber
    obtain ⟨slot, hmem, rfl⟩ := mem_image.1 hnumber
    exact mem_range.2 (h.holds (hholds hmem)).1
  have hinjective : Set.InjOn positionAt occupied := fun first hfirst second hsecond heq => by
    have hsame := hholds hsecond
    rw [← UInt32.toNat_inj.1 heq] at hsame
    exact h.holds_unique (hholds hfirst) hsame
  have himage : occupied.image positionAt = range reversePopulation := by
    refine eq_of_subset_of_card_le hinto ?_
    rw [card_range, card_image_of_injOn hinjective, hcard]
  obtain ⟨slot, hmem, hat⟩ := mem_image.1 (himage ▸ mem_range.2 hposition)
  have hslot := hholds hmem
  rw [UInt32.toNat_inj.1 hat] at hslot
  exact ⟨slot, hslot⟩

theorem ReverseTable.stores_contentId {key : IdentityKey} (hstores : view.Stores key) :
    key.contentId = identityOf key.identityPreimageFingerprint := by
  obtain ⟨slot, hslot, hkey⟩ := hstores
  obtain ⟨-, identity, hkey', hwitness⟩ :=
    h.holds ⟨hslot, Option.isSome_iff_exists.2 ⟨_, hkey⟩, rfl⟩
  rw [hkey, Option.some_inj] at hkey'
  obtain rfl := IdentityKey.bytes_inj hkey'
  exact contentId_of_witness hwitness

theorem ReverseTable.resolveIdentity_cases (key : IdentityKey) :
    (∃ slot position, view.slotKey slot = some key.bytes ∧ view.HoldsPosition slot position ∧
      resolveIdentity view key = .ok ⟨true, position⟩) ∨
    (¬ view.Stores key ∧ resolveIdentity view key = .ok ⟨false, 0xffffffff⟩) := by
  unfold resolveIdentity
  rcases h.find_cases key.bytes with ⟨slot, hslot, hkey, hfind⟩ | ⟨hmissing, hfind⟩
  · refine .inl ⟨slot, _, hkey, ⟨hslot, Option.isSome_iff_exists.2 ⟨_, hkey⟩, rfl⟩, ?_⟩
    rw [hfind, orInternalError, ok_bind]
    dsimp only
    rw [(h.slots slot hslot).read, ok_bind]
    rfl
  · refine .inr ⟨fun ⟨slot, hslot, hkey⟩ => hmissing slot hslot hkey, ?_⟩
    rw [hfind, orInternalError, ok_bind]
    rfl

end Stored

/-- **The reverse table.** In an accepted view every identity is answered, with the position that it is
the identity of where the table stores it, and the table stores every position once. -/
theorem reverse_table {blake3 : Blake3} {view : ArtifactView}
    (hvalidate : reverseValidateView blake3 view = .ok ()) : (∃ answer : IdentityKey → ResolvedPosition,
      (∀ identities, reverseResolveBatch view identities = .ok (identities.map answer)) ∧
      (∀ key, (answer key).found = true ↔ view.Stores key) ∧
      ∀ key position, answer key = ⟨true, position⟩ ↔ position.toNat < reversePopulation ∧
        codepointWitness blake3 position = .ok (key.contentId, key.identityPreimageFingerprint)) ∧
    (∀ position : UInt32, position.toNat < reversePopulation → ∃! slot, view.HoldsPosition slot position) ∧
    ∀ slot position, view.HoldsPosition slot position → position.toNat < reversePopulation := by
  have h := reverseValidateView_ok hvalidate
  refine ⟨?_, fun position hposition => ?_, fun slot position hholds => (h.holds hholds).1⟩
  swap
  · obtain ⟨slot, hslot⟩ := h.exists_holds hposition
    exact ⟨slot, hslot, fun other hother => h.holds_unique hother hslot⟩
  have hanswers : ∀ key, ∃ answer, resolveIdentity view key = .ok answer ∧
      (answer.found = true ↔ view.Stores key) ∧
      ∀ position, answer = ⟨true, position⟩ ↔ position.toNat < reversePopulation ∧
        codepointWitness blake3 position =
          .ok (key.contentId, key.identityPreimageFingerprint) := by
    intro key
    -- a position whose identity is the key is stored under it
    have hstored {position : UInt32} (hposition : position.toNat < reversePopulation)
        (hwitness : codepointWitness blake3 position =
          .ok (key.contentId, key.identityPreimageFingerprint)) :
        ∃ slot, view.HoldsPosition slot position ∧ view.slotKey slot = some key.bytes := by
      obtain ⟨slot, hslot⟩ := h.exists_holds hposition
      obtain ⟨-, identity, hkey, hwitness'⟩ := h.holds hslot
      rw [hwitness, Except.ok.injEq, Prod.mk.injEq] at hwitness'
      obtain rfl : identity = key := by
        rw [IdentityKey.mk.injEq]
        exact ⟨hwitness'.1.symm, hwitness'.2.symm⟩
      exact ⟨slot, hslot, hkey⟩
    rcases h.resolveIdentity_cases key with ⟨slot, found, hkey, hholds, hresolve⟩ | ⟨hmissing, hresolve⟩
    · refine ⟨_, hresolve, iff_of_true rfl ⟨slot, hholds.1, hkey⟩, fun position => ?_⟩
      rw [ResolvedPosition.mk.injEq, and_iff_right rfl]
      constructor
      · rintro rfl
        obtain ⟨hposition, identity, hkey', hwitness⟩ := h.holds hholds
        rw [hkey, Option.some_inj] at hkey'
        rw [IdentityKey.bytes_inj hkey']
        exact ⟨hposition, hwitness⟩
      · rintro ⟨hposition, hwitness⟩
        obtain ⟨other, hother, hkey'⟩ := hstored hposition hwitness
        rw [← hholds.2.2, ← hother.2.2, h.seated.slot_unique hholds.1 hother.1 hkey hkey']
    · refine ⟨_, hresolve, iff_of_false Bool.false_ne_true hmissing, fun position => ?_⟩
      refine iff_of_false nofun fun ⟨hposition, hwitness⟩ => ?_
      obtain ⟨slot, hslot, hkey⟩ := hstored hposition hwitness
      exact hmissing ⟨slot, hslot.1, hkey⟩
  choose answer hanswer using hanswers
  refine ⟨answer, fun identities => ?_, fun key => (hanswer key).2.1, fun key => (hanswer key).2.2⟩
  unfold reverseResolveBatch
  rw [require_ok h.contract, ok_bind]
  exact mapM_ok fun identity _ => (hanswer identity).1

/-! ## A table whose homes are the positions -/

/-- A witness whose home is the position. -/
def seatedWitness (position : ℕ) : Digest256 :=
  loadDigest (u64Bytes (UInt64.ofNat position) ++ List.replicate 24 0)

/-- A hash that reads the position back from its code. -/
def seatedHash (code : List UInt8) : Digest256 :=
  seatedWitness (((List.range reversePopulation).find? fun position =>
    encode position = code).getD 0)

def seatedKey (position : ℕ) : IdentityKey :=
  ⟨identityOf (seatedWitness position), seatedWitness position⟩

/-- A slot of the table: the first ones are occupied, each by its own position. -/
def seatedRecord (slot : ℕ) : List UInt8 :=
  if slot < reversePopulation then
    (seatedKey slot).bytes ++ (u32Bytes (UInt32.ofNat slot) ++ [1, 0, 0, 0])
  else List.replicate 56 0

def seatedContract : Contract where
  moduleId := unicodeIdentityReverseModule.moduleId
  keySchemaId := unicodeIdentityReverseModule.keySchemaId
  valueSchemaId := unicodeIdentityReverseModule.valueSchemaId
  moduleContractFingerprint := unicodeIdentityReverseModule.moduleContractFingerprint
  keyBytes := unicodeIdentityReverseModule.keyBytes
  valueBytes := unicodeIdentityReverseModule.valueBytes
  accessLaw := unicodeIdentityReverseModule.accessLaw

/-- The first slots of the table. -/
@[irreducible] def seatedRecords (count : ℕ) : List UInt8 := (List.range count).flatMap seatedRecord

def seatedView : ArtifactView where
  contract := seatedContract
  records := seatedRecords reverseCapacity
  recordCount := UInt64.ofNat reverseCapacity
  recordStride := 56
  metadata := []
  metadataBytes := 0
  artifactDigest := 0

theorem reversePopulation_le : reversePopulation ≤ reverseCapacity := by decide

theorem find?_range {holds : ℕ → Bool} {count index : ℕ} (hindex : index < count)
    (hholds : holds index = true) (hunique : ∀ other < count, holds other = true → other = index) :
    (List.range count).find? holds = some index := by
  cases hfind : (List.range count).find? holds with
  | none => exact absurd hholds (List.find?_eq_none.1 hfind index (List.mem_range.2 hindex))
  | some other =>
    have hother := List.mem_range.1 (List.mem_of_find?_eq_some hfind)
    rw [hunique other hother (List.find?_some hfind)]

theorem seatedHash_encode {position : ℕ} (h : position < reversePopulation) :
    seatedHash (encode position) = seatedWitness position := by
  have hpopulation : reversePopulation = 0x10ffff + 1 := rfl
  unfold seatedHash
  rw [find?_range h (decide_eq_true rfl) fun other hother hsame => ?_, Option.getD_some]
  have hcodes : encode other ++ [] = encode position ++ [] := by
    rw [of_decide_eq_true hsame]
  exact (encode_append_inj (by omega) (by omega) hcodes).1

theorem codepointWitness_seated {position : ℕ} (h : position < reversePopulation) :
    codepointWitness seatedHash (UInt32.ofNat position) =
      .ok ((seatedKey position).contentId, (seatedKey position).identityPreimageFingerprint) := by
  have hpopulation : reversePopulation = 0x10ffff + 1 := rfl
  have hnumber : (UInt32.ofNat position).toNat = position :=
    UInt32.toNat_ofNat_of_lt' (by unfold UInt32.size; omega)
  have hcode := Unicode.unicodePositionEncode_ok.2 (show (UInt32.ofNat position).toNat ≤ 0x10ffff ∧
    encode position = encode (UInt32.ofNat position).toNat by
    rw [hnumber]
    exact ⟨by omega, rfl⟩)
  unfold codepointWitness
  rw [hcode]
  change Except.ok (identityOf (seatedHash (encode position)),
    seatedHash (encode position)) = _
  rw [seatedHash_encode h]
  rfl

theorem seatedKey_length (position : ℕ) : (seatedKey position).bytes.length = 48 := by
  rw [IdentityKey.bytes, List.length_append, idBytes_length, digestBytes_length]

theorem seatedRecord_length (slot : ℕ) : (seatedRecord slot).length = 56 := by
  unfold seatedRecord
  split
  · rw [List.length_append, seatedKey_length]
    rfl
  · exact List.length_replicate ..

theorem take_drop_flatMap {α : Type} {piece : ℕ → List α} {width : ℕ}
    (hwidth : ∀ index, (piece index).length = width) : ∀ {count first slot : ℕ}, slot < count →
      (((List.range' first count).flatMap piece).drop (slot * width)).take width = piece (first + slot)
  | 0, _, _, h => absurd h (Nat.not_lt_zero _)
  | count + 1, first, 0, _ => by
    rw [List.range'_succ, List.flatMap_cons, Nat.zero_mul, List.drop_zero, List.take_left' (hwidth first)]
    rfl
  | count + 1, first, slot + 1, h => by
    rw [List.range'_succ, List.flatMap_cons, Nat.succ_mul, Nat.add_comm (slot * width),
      ← List.drop_drop, List.drop_left' (hwidth first),
      take_drop_flatMap hwidth (Nat.lt_of_succ_lt_succ h), Nat.add_assoc, Nat.add_comm 1]

theorem length_flatMap_const {α : Type} {piece : ℕ → List α} {width : ℕ}
    (hwidth : ∀ index, (piece index).length = width) (slots : List ℕ) :
    (slots.flatMap piece).length = slots.length * width := by
  rw [List.length_flatMap, List.map_congr_left fun slot _ => hwidth slot, List.map_const',
    List.sum_replicate, smul_eq_mul]

theorem seatedView_records : seatedView.records = seatedRecords reverseCapacity := rfl

theorem seatedView_stride : seatedView.recordStride.toNat = 56 := rfl

theorem seatedView_records_length : seatedView.records.length = reverseCapacity * 56 := by
  rw [seatedView_records, seatedRecords, length_flatMap_const seatedRecord_length, List.length_range]

variable {slot : ℕ}

theorem recordAt_seated (hslot : slot < reverseCapacity) :
    seatedView.recordAt slot = seatedRecord slot := by
  rw [ArtifactView.recordAt, seatedView_records, seatedView_stride, seatedRecords,
    List.range_eq_range', take_drop_flatMap seatedRecord_length hslot, Nat.zero_add]

theorem readSlot_seated {ε : Type} (hslot : slot < reverseCapacity) :
    (readSlot seatedView slot : Guarded ε (List UInt8)) = .ok (seatedRecord slot) := by
  have hcapacity := reverseCapacity_eq
  have hnumber : (UInt64.ofNat slot).toNat = slot :=
    Checked.toNat_ofNat (by omega)
  have hword : seatedView.recordStride.toUInt64.toNat = 56 := rfl
  have hlength := seatedView_records_length
  unfold readSlot
  rw [mul_ok (by rw [hnumber, hword]; omega), ok_bind,
    toNat_mul_of_lt (by rw [hnumber, hword]; omega), hnumber, hword, seatedView_stride, readBytes,
    if_pos (by rw [hlength]; omega)]
  exact congrArg Except.ok (recordAt_seated hslot)

section Seated

variable {slot : ℕ} (hslot : slot < reversePopulation)
include hslot

theorem seatedRecord_eq : seatedRecord slot =
    (seatedKey slot).bytes ++ (u32Bytes (UInt32.ofNat slot) ++ [1, 0, 0, 0]) := if_pos hslot

theorem seatedRecord_drop : (seatedRecord slot).drop 48 = u32Bytes (UInt32.ofNat slot) ++ [1, 0, 0, 0] := by
  rw [seatedRecord_eq hslot, List.drop_left' (seatedKey_length slot)]

theorem keyOf_seated : keyOf (seatedRecord slot) = (seatedKey slot).bytes := by
  rw [seatedRecord_eq hslot]
  exact List.take_left' (seatedKey_length slot)

theorem positionOf_seated : positionOf (seatedRecord slot) = UInt32.ofNat slot := by
  change loadU32 ((seatedRecord slot).drop 48) = _
  rw [seatedRecord_drop hslot, loadU32_eq, u32Bytes_eq]
  exact Layout.word32.load_store _ _

theorem byteAt_seated (index : ℕ) :
    byteAt ((seatedRecord slot).drop 48) (4 + index) = byteAt [1, 0, 0, 0] index := by
  rw [← byteAt_drop, seatedRecord_drop hslot, List.drop_left' (u32Bytes_length _)]

theorem occupiedByte_seated : occupiedByte (seatedRecord slot) = 1 := by
  have hbyte := byteAt_seated hslot 0
  rwa [byteAt_drop] at hbyte

theorem reverseHome_seated : reverseHome (seatedKey slot).bytes = slot := by
  have hlt := hslot.trans_le reversePopulation_le
  have hcapacity := reverseCapacity_eq
  have hwidth : (u64Bytes (UInt64.ofNat slot) ++ List.replicate 24 (0 : UInt8)).length = 32 := by
    rw [List.length_append, u64Bytes_length, List.length_replicate]
  have hwitness : (seatedWitness slot).bytes =
      u64Bytes (UInt64.ofNat slot) ++ List.replicate 24 0 := by
    rw [seatedWitness, loadDigest_eq, digest_bytes_eq,
      (Layout.bits 32).store_load _ (show 32 ≤ _ from hwidth.ge)]
    exact List.take_of_length_le hwidth.le
  have hload : loadU64 ((seatedKey slot).bytes.drop 16) = UInt64.ofNat slot := by
    rw [IdentityKey.bytes, List.drop_left' (idBytes_length _)]
    change loadU64 (seatedWitness slot).bytes = _
    rw [hwitness, loadU64_eq, u64Bytes_eq]
    exact Layout.word64.load_store _ _
  rw [reverseHome, hload, Checked.toNat_ofNat (by omega), hcapacity,
    Nat.and_two_pow_sub_one_eq_mod, Nat.mod_eq_of_lt (by omega)]

theorem reverseRecordValid_seated :
    reverseRecordValid seatedHash slot (seatedRecord slot) seatedView.recordStride = true := by
  have hlt := hslot.trans_le reversePopulation_le
  have hnumber : (UInt32.ofNat slot).toNat = slot := by
    have hcapacity := reverseCapacity_eq
    exact UInt32.toNat_ofNat_of_lt' (by unfold UInt32.size; omega)
  have hposition : loadU32 ((seatedRecord slot).drop 48) = UInt32.ofNat slot := positionOf_seated hslot
  have hkey : (seatedRecord slot).take 48 = (seatedKey slot).bytes := keyOf_seated hslot
  have hid : (seatedRecord slot).take 16 = (seatedKey slot).contentId.bytes := by
    rw [seatedRecord_eq hslot, IdentityKey.bytes, List.append_assoc,
      List.take_left' (idBytes_length _)]
  have hfingerprint : ((seatedRecord slot).drop 16).take 32 =
      (seatedKey slot).identityPreimageFingerprint.bytes := by
    rw [seatedRecord_eq hslot, IdentityKey.bytes, List.append_assoc,
      List.drop_left' (idBytes_length _), List.take_left' (digestBytes_length _)]
  have hbytes := byteAt_seated hslot
  unfold reverseRecordValid
  rw [if_neg (by rintro (hstride | hindex); exacts [hstride rfl, absurd hlt (not_lt.2 hindex)])]
  change (if byteAt ((seatedRecord slot).drop 48) (4 + 0) = 0 then _ else
    if byteAt ((seatedRecord slot).drop 48) (4 + 0) ≠ 1 ∨
      byteAt ((seatedRecord slot).drop 48) (4 + 1) ≠ 0 ∨
      byteAt ((seatedRecord slot).drop 48) (4 + 2) ≠ 0 ∨
      byteAt ((seatedRecord slot).drop 48) (4 + 3) ≠ 0 then _
    else if reversePopulation ≤ (loadU32 ((seatedRecord slot).drop 48)).toNat then _ else _) = true
  rw [hbytes 0, hbytes 1, hbytes 2, hbytes 3, if_neg (by decide), if_neg (by decide), hposition,
    hnumber, if_neg (not_le.2 hslot)]
  have hwitness : codepointWitness seatedHash
      (loadU32 ((seatedRecord slot).drop reverseKeyBytes.toNat)) = _ :=
    (congrArg _ hposition).trans (codepointWitness_seated hslot)
  rw [hwitness]
  exact decide_eq_true ⟨hid, hfingerprint⟩

end Seated

theorem seatedRecord_empty (hslot : ¬ slot < reversePopulation) :
    seatedRecord slot = List.replicate 56 0 := if_neg hslot

theorem reverseRecordValid_empty (hslot : slot < reverseCapacity) :
    reverseRecordValid seatedHash slot (List.replicate 56 0) seatedView.recordStride = true := by
  unfold reverseRecordValid
  rw [if_neg (by rintro (hstride | hindex); exacts [hstride rfl, absurd hslot (not_lt.2 hindex)])]
  rfl

theorem validateSlot_seated (hslot : slot < reverseCapacity) :
    validateSlot seatedHash seatedView slot = .ok (decide (slot < reversePopulation)) := by
  unfold validateSlot
  rw [readSlot_seated hslot, ok_bind]
  by_cases hoccupied : slot < reversePopulation
  · rw [require_ok (reverseRecordValid_seated hoccupied), ok_bind, occupiedByte_seated hoccupied,
      if_pos (by decide), keyOf_seated hoccupied, reverseHome_seated hoccupied]
    have hprobe : probeRecord seatedView (seatedRecord slot) slot reverseCapacity slot = .ok () := by
      rw [show reverseCapacity = 2097151 + 1 from rfl, probeRecord, readSlot_seated hslot, ok_bind,
        occupiedByte_seated hoccupied, require_ok (by simp), ok_bind, if_pos rfl]
      rfl
    rw [hprobe, ok_bind, decide_eq_true hoccupied]
    rfl
  · rw [seatedRecord_empty hoccupied, require_ok (reverseRecordValid_empty hslot), ok_bind,
      if_neg (by decide), decide_eq_false hoccupied]
    rfl

theorem validateSlots_eq {blake3 : Blake3} {view : ArtifactView}
    {occupied : ℕ → Bool} : ∀ {slots : List ℕ} {occupiedCount : ℕ},
      (∀ slot ∈ slots, validateSlot blake3 view slot = .ok (occupied slot)) →
        validateSlots blake3 view slots occupiedCount = .ok (occupiedCount + slots.countP occupied)
  | [], _, _ => rfl
  | slot :: slots, occupiedCount, h => by
    rw [List.forall_mem_cons] at h
    rw [validateSlots, h.1, ok_bind, validateSlots_eq h.2, List.countP_cons]
    refine congrArg Except.ok ?_
    split <;> omega

theorem countP_lt (bound : ℕ) : ∀ {count : ℕ}, bound ≤ count →
    (List.range count).countP (fun slot => decide (slot < bound)) = bound := by
  intro count hle
  obtain ⟨rest, rfl⟩ := Nat.exists_eq_add_of_le hle
  rw [List.range_add, List.countP_append, List.countP_eq_length.2 fun slot hslot =>
    decide_eq_true (List.mem_range.1 hslot), List.length_range, List.countP_eq_zero.2 ?_, Nat.add_zero]
  intro slot hslot
  obtain ⟨offset, -, rfl⟩ := List.mem_map.1 hslot
  simp

theorem reverseValidateView_seated : reverseValidateView seatedHash seatedView = .ok () := by
  have hcount : seatedView.recordCount.toNat = reverseCapacity := by decide
  have hslots : validateSlots seatedHash seatedView (List.range reverseCapacity) 0 =
      .ok reversePopulation := by
    rw [validateSlots_eq fun slot hslot => validateSlot_seated (List.mem_range.1 hslot),
      countP_lt _ reversePopulation_le, Nat.zero_add]
  unfold reverseValidateView
  rw [require_ok ⟨rfl, hcount, by decide⟩, ok_bind, add32_ok (by decide), ok_bind,
    require_ok (by decide), ok_bind, hcount, hslots, ok_bind, require_ok rfl]

theorem population_pos : 0 < reversePopulation := by decide

theorem stores_seated : seatedView.Stores (seatedKey 0) := by
  have hzero : 0 < reverseCapacity := by decide
  refine ⟨0, hzero, slotKey_eq_some.2 ?_⟩
  rw [recordAt_seated hzero, occupiedByte_seated population_pos, keyOf_seated population_pos]
  exact ⟨by decide, rfl⟩

/-- The identity of a position under a witness that is not its own. -/
def strayKey : IdentityKey := ⟨(seatedKey 0).contentId, BitVec.allOnes 256⟩

theorem resolveIdentity_stray : resolveIdentity seatedView strayKey = .ok ⟨false, 0xffffffff⟩ := by
  have h := reverseValidateView_ok reverseValidateView_seated
  rcases h.resolveIdentity_cases strayKey with ⟨slot, position, hkey, hholds, -⟩ | ⟨-, hmissing⟩
  · exact absurd (h.stores_contentId ⟨slot, hholds.1, hkey⟩) (by decide +kernel)
  · exact hmissing

/-- **The witness is a part of the key.** An identity that the table stores is not found under
another witness. -/
theorem reverse_misses_identity : ∃ key stored : IdentityKey,
    reverseValidateView seatedHash seatedView = .ok () ∧ seatedView.Stores stored ∧
      stored.contentId = key.contentId ∧
      reverseResolveBatch seatedView [key] = .ok [⟨false, 0xffffffff⟩] := by
  refine ⟨strayKey, seatedKey 0, reverseValidateView_seated, stores_seated, rfl, ?_⟩
  have hcontract := (reverseValidateView_ok reverseValidateView_seated).contract
  unfold reverseResolveBatch
  rw [require_ok hcontract, ok_bind, List.mapM_cons, resolveIdentity_stray, ok_bind, List.mapM_nil]
  rfl

theorem reverse_table_seated : (∃ answer : IdentityKey → ResolvedPosition,
      reverseResolveBatch seatedView [seatedKey 0] = .ok [answer (seatedKey 0)] ∧
        answer (seatedKey 0) = ⟨true, 0⟩) ∧ ∃! slot, seatedView.HoldsPosition slot 0 := by
  obtain ⟨⟨answer, hbatch, -, hposition⟩, hunique, -⟩ := reverse_table reverseValidateView_seated
  refine ⟨⟨answer, hbatch _, (hposition _ 0).2 ⟨by decide, ?_⟩⟩, hunique 0 (by decide)⟩
  exact codepointWitness_seated population_pos

end Laplace.Perfcache
