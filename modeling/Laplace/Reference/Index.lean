import Laplace.Digest
import Laplace.Lib.Neighbours

/-!
# Sorted indexes of a batch (reference_topology.c:30-55, 97-128, reference_mapping.c:24-88)

What must be distinct, or belong together, is copied with its input index and sorted. `qsort` compares
the input index last, so that it has one answer.
-/

namespace Laplace.Reference

open Sorting
open Neighbours (findBad countRuns findBad_same findBad_collision countRuns_eq)

/-- `occurrence_index` and `digest_index` -/
structure DigestIndex where
  digest : Digest256
  inputIndex : ℕ

/-- `coordinate_index` -/
structure CoordinateIndex where
  coordinate : Id128
  fingerprint : Digest256
  inputIndex : ℕ

/-- `occurrence_index_compare` and `digest_compare` -/
def digestOrder (entry : DigestIndex) : ℕ ×ₗ ℕ := toLex (entry.digest.toNat, entry.inputIndex)

/-- `coordinate_index_compare` and `coordinate_compare` -/
def coordinateOrder (entry : CoordinateIndex) : ℕ ×ₗ ℕ ×ₗ ℕ :=
  toLex (entry.coordinate.toNat, toLex (entry.fingerprint.toNat, entry.inputIndex))

/-- The loop that finds the second entry with the digest of its neighbour. -/
def findDuplicate (entries : List DigestIndex) : Option DigestIndex :=
  findBad (fun before after => decide (before.digest = after.digest))
    ((stable digestOrder).sort entries)

/-- The loop that finds an entry with the coordinate of its neighbour and another fingerprint. -/
def findCollision (entries : List CoordinateIndex) : Option CoordinateIndex :=
  findBad (fun before after => decide (before.coordinate = after.coordinate) &&
    decide (before.fingerprint ≠ after.fingerprint)) ((stable coordinateOrder).sort entries)

/-- The loop that counts the digests. -/
def countDistinct (entries : List DigestIndex) : ℕ :=
  countRuns (fun entry => entry.digest.toNat) ((stable digestOrder).sort entries)

theorem map_mapIdx {α β γ : Type*} {read : ℕ → α → β} {field : β → γ} (value : α → γ)
    (h : ∀ index a, field (read index a) = value a) (l : List α) :
    (l.mapIdx read).map field = l.map value := by
  refine List.ext_getElem? fun index => ?_
  rw [List.getElem?_map, List.getElem?_mapIdx, List.getElem?_map]
  cases l[index]? with
  | none => rfl
  | some a => exact congrArg some (h index a)

theorem toNat_digest_injective : Function.Injective (BitVec.toNat : Digest256 → ℕ) :=
  fun _ _ => BitVec.eq_of_toNat_eq

theorem sorted_digests (entries : List DigestIndex) :
    ((stable digestOrder).sort entries).Pairwise fun a b => a.digest.toNat ≤ b.digest.toNat :=
  ((stable digestOrder).sorted entries).imp fun hle => by
    rcases Prod.Lex.toLex_le_toLex.1 hle with hlt | ⟨heq, -⟩
    · exact hlt.le
    · exact heq.le

/-- **Duplicates are found.** -/
theorem findDuplicate_eq_none {entries : List DigestIndex} :
    findDuplicate entries = none ↔ (entries.map DigestIndex.digest).Nodup := by
  have hnat : (fun before after : DigestIndex => decide (before.digest = after.digest)) =
      fun before after => decide (before.digest.toNat = after.digest.toNat) := by
    funext before after
    exact decide_eq_decide.2 BitVec.toNat_inj.symm
  have hmap : (entries.map DigestIndex.digest).Nodup ↔
      (entries.map fun entry => entry.digest.toNat).Nodup := by
    rw [← List.nodup_map_iff toNat_digest_injective, List.map_map]
    rfl
  have hperm := ((stable digestOrder).perm entries).map fun entry => entry.digest.toNat
  rw [findDuplicate, hnat, findBad_same, hmap, ← hperm.nodup_iff]
  exact ⟨fun h => nodup_of_increasing (increasing_of_repeats (sorted_digests entries) h), repeats_of_nodup⟩

theorem findDuplicate_mapIdx {α β : Type} {l : List α} (record : α → β) (field : β → Digest256) :
    findDuplicate ((l.map record).mapIdx fun index b => ⟨field b, index⟩) = none ↔
      (l.map fun a => field (record a)).Nodup := by
  refine findDuplicate_eq_none.trans (iff_of_eq (congrArg List.Nodup ?_))
  refine (map_mapIdx field ?_ _).trans List.map_map
  exact fun _ _ => rfl

/-- **Collisions are found.** -/
theorem findCollision_eq_none {entries : List CoordinateIndex} : findCollision entries = none ↔
    ∀ a ∈ entries, ∀ b ∈ entries, a.coordinate = b.coordinate → a.fingerprint = b.fingerprint := by
  have hnat : (fun before after : CoordinateIndex => decide (before.coordinate = after.coordinate) &&
      decide (before.fingerprint ≠ after.fingerprint)) = fun before after =>
        decide (before.coordinate.toNat = after.coordinate.toNat) &&
          decide (before.fingerprint.toNat ≠ after.fingerprint.toNat) := by
    funext before after
    rw [decide_eq_decide.2 BitVec.toNat_inj.symm, decide_eq_decide.2 (not_congr BitVec.toNat_inj.symm)]
  have hsorted : ((stable coordinateOrder).sort entries).Pairwise fun a b =>
      toLex (a.coordinate.toNat, a.fingerprint.toNat) ≤ toLex (b.coordinate.toNat, b.fingerprint.toNat) :=
    ((stable coordinateOrder).sorted entries).imp fun hle => by
      rw [Prod.Lex.toLex_le_toLex]
      rcases Prod.Lex.toLex_le_toLex.1 hle with hlt | ⟨heq, hle⟩
      · exact .inl hlt
      rcases Prod.Lex.toLex_le_toLex.1 hle with hlt | ⟨heq', -⟩
      · exact .inr ⟨heq, hlt.le⟩
      · exact .inr ⟨heq, heq'.le⟩
  rw [findCollision, hnat, findBad_collision hsorted]
  simp only [((stable coordinateOrder).perm entries).mem_iff, BitVec.toNat_inj]

/-- **The digests are counted.** -/
theorem countDistinct_eq (entries : List DigestIndex) :
    countDistinct entries = (entries.map DigestIndex.digest).toFinset.card := by
  have hmap : (entries.map fun entry => entry.digest.toNat).toFinset =
      (entries.map DigestIndex.digest).toFinset.image BitVec.toNat := by
    ext number
    simp only [List.mem_toFinset, List.mem_map, Finset.mem_image, exists_exists_and_eq_and]
  have hperm := ((stable digestOrder).perm entries).map fun entry => entry.digest.toNat
  rw [countDistinct, countRuns_eq (sorted_digests entries), List.toFinset_eq_of_perm _ _ hperm, hmap,
    Finset.card_image_of_injective _ toNat_digest_injective]

end Laplace.Reference
