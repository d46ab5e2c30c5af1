import Mathlib.Data.List.Basic
import Mathlib.Tactic

/-!
# Counting sort

The positions of a list of keys, put in the order of their keys in three loops: one counts the keys,
one adds the counts up to the offset of each bucket, and one writes each position where its bucket
has come to. `countingSort_eq`: the buckets stand one after the other, and in each of them the
positions are in order.
-/

namespace Laplace.Buckets

/-! ## The loops -/

/-- Counts the keys; the count of a key stands behind its place. -/
def tally (keys counts : List ℕ) : List ℕ :=
  keys.foldl (fun counts key => counts.modify (key + 1) (· + 1)) counts

/-- Adds to each element the sum of those before it. -/
def accumulate : ℕ → List ℕ → List ℕ
  | _, [] => []
  | sum, count :: counts => (sum + count) :: accumulate (sum + count) counts

/-- Writes the positions, from `index` on, at the cursors of their keys. -/
def place : List ℕ → ℕ → List ℕ → List ℕ → List ℕ
  | [], _, _, placed => placed
  | key :: keys, index, cursors, placed =>
    place keys (index + 1) (cursors.modify key (· + 1)) (placed.set (cursors.getD key 0) index)

/-- Where the buckets of `bound` keys begin, and where the last one ends. -/
def offsets (keys : List ℕ) (bound : ℕ) : List ℕ :=
  accumulate 0 (tally keys (List.replicate (bound + 1) 0))

def countingSort (keys : List ℕ) (bound : ℕ) : List ℕ :=
  place keys 0 (offsets keys bound) (List.replicate keys.length 0)

/-! ## Buckets -/

/-- The positions of a key in a list of keys that begins at position `index`. -/
def bucket (key : ℕ) : List ℕ → ℕ → List ℕ
  | [], _ => []
  | first :: keys, index =>
    if first = key then index :: bucket key keys (index + 1) else bucket key keys (index + 1)

theorem bucket_length (key : ℕ) : ∀ (keys : List ℕ) (index : ℕ),
    (bucket key keys index).length = keys.count key
  | [], _ => rfl
  | first :: keys, index => by
    rw [bucket, List.count_cons]
    by_cases h : first = key
    · rw [if_pos h, if_pos (beq_iff_eq.2 h), List.length_cons, bucket_length]
    · rw [if_neg h, if_neg (mt beq_iff_eq.1 h), bucket_length, Nat.add_zero]

theorem bucket_eq (key : ℕ) : ∀ (keys : List ℕ) (index : ℕ), bucket key keys index =
    (List.range' index keys.length).filter fun i => keys[i - index]? = some key
  | [], _ => rfl
  | first :: keys, index => by
    have hrest : (List.range' (index + 1) keys.length).filter
        (fun i => (first :: keys)[i - index]? = some key) = bucket key keys (index + 1) := by
      rw [bucket_eq key keys]
      refine List.filter_congr fun i hi => ?_
      have hle := (List.mem_range'_1.1 hi).1
      rw [show i - index = i - (index + 1) + 1 by omega, List.getElem?_cons_succ]
    rw [List.length_cons, List.range'_succ, List.filter_cons, hrest, bucket, Nat.sub_self,
      List.getElem?_cons_zero]
    simp only [Option.some.injEq, decide_eq_true_eq]

theorem bucket_zero (key : ℕ) (keys : List ℕ) :
    bucket key keys 0 = (List.range keys.length).filter fun i => keys[i]? = some key := by
  rw [bucket_eq, List.range_eq_range']
  rfl

/-! ## Offsets -/

section Offsets

variable {keys : List ℕ} {bound : ℕ}

theorem tally_length : ∀ (keys counts : List ℕ), (tally keys counts).length = counts.length
  | [], _ => rfl
  | _ :: keys, _ => (tally_length keys _).trans (List.length_modify _ _ _)

theorem tally_getElem? : ∀ (keys counts : List ℕ) (place : ℕ), (tally keys counts)[place]? =
    counts[place]?.map fun count => count + (keys.map (· + 1)).count place
  | [], counts, place => by
    rw [tally, List.foldl_nil, List.map_nil, List.count_nil]
    cases counts[place]? <;> rfl
  | key :: keys, counts, place => by
    have ih := tally_getElem? keys (counts.modify (key + 1) (· + 1)) place
    rw [show tally (key :: keys) counts = tally keys (counts.modify (key + 1) (· + 1)) from rfl, ih,
      List.getElem?_modify, List.map_cons, List.count_cons]
    cases counts[place]? with
    | none => rfl
    | some count =>
      by_cases h : key + 1 = place
      · simp only [if_pos h, if_pos (beq_iff_eq.2 h), Option.map_some, Option.map_eq_map, Option.some.injEq]
        omega
      · simp only [if_neg h, if_neg (mt beq_iff_eq.1 h), Option.map_some, Option.map_eq_map,
          Option.some.injEq]
        rfl

theorem accumulate_length : ∀ (sum : ℕ) (counts : List ℕ), (accumulate sum counts).length = counts.length
  | _, [] => rfl
  | sum, count :: counts => congrArg (· + 1) (accumulate_length (sum + count) counts)

theorem accumulate_getElem? : ∀ (sum : ℕ) (counts : List ℕ) (place : ℕ), place < counts.length →
    (accumulate sum counts)[place]? = some (sum + (counts.take (place + 1)).sum)
  | _, [], _, h => absurd h (Nat.not_lt_zero _)
  | sum, count :: counts, 0, _ => by
    rw [accumulate, List.getElem?_cons_zero, List.take_succ_cons, List.take_zero, List.sum_cons,
      List.sum_nil, Nat.add_zero]
  | sum, count :: counts, place + 1, h => by
    rw [accumulate, List.getElem?_cons_succ, accumulate_getElem? _ _ _ (Nat.lt_of_succ_lt_succ h),
      List.take_succ_cons, List.sum_cons, Nat.add_assoc]

theorem countP_lt_succ (keys : List ℕ) (key : ℕ) :
    keys.countP (· < key + 1) = keys.countP (· < key) + keys.count key := by
  induction keys with
  | nil => rfl
  | cons first keys ih =>
    simp only [List.countP_cons, List.count_cons, decide_eq_true_eq, beq_iff_eq] at ih ⊢
    split_ifs <;> omega

theorem countP_lt_all (h : ∀ key ∈ keys, key < bound) : keys.countP (· < bound) = keys.length :=
  List.countP_eq_length.2 fun key hkey => decide_eq_true (h key hkey)

/-- **The offsets.** A bucket begins behind the positions with smaller keys. -/
theorem offsets_getElem? (keys : List ℕ) {bound key : ℕ} (h : key ≤ bound) :
    (offsets keys bound)[key]? = some (keys.countP (· < key)) := by
  have hlength : (tally keys (List.replicate (bound + 1) 0)).length = bound + 1 := by
    rw [tally_length, List.length_replicate]
  have hcount : ∀ place ≤ bound, (tally keys (List.replicate (bound + 1) 0))[place]? =
      some ((keys.map (· + 1)).count place) := by
    intro place hplace
    rw [tally_getElem?, List.getElem?_replicate, if_pos (by omega), Option.map_some, Nat.zero_add]
  rw [offsets, accumulate_getElem? _ _ _ (by omega), Nat.zero_add]
  congr 1
  induction key with
  | zero =>
    have hzero : (keys.map (· + 1)).count 0 = 0 := by
      refine List.count_eq_zero.2 fun hmem => ?_
      obtain ⟨key, -, heq⟩ := List.mem_map.1 hmem
      exact Nat.succ_ne_zero key heq
    rw [List.take_add_one, List.take_zero, hcount 0 (Nat.zero_le _), hzero]
    exact (List.countP_eq_zero.2 fun key _ => by simp).symm
  | succ key ih =>
    have hsucc : (keys.map (· + 1)).count (key + 1) = keys.count key :=
      List.count_map_of_injective keys (· + 1) (add_left_injective 1) key
    rw [List.take_add_one, List.sum_append, ih (by omega), hcount _ h, hsucc, countP_lt_succ,
      Option.toList_some, List.sum_singleton]

theorem offsets_length (keys : List ℕ) (bound : ℕ) : (offsets keys bound).length = bound + 1 := by
  rw [offsets, accumulate_length, tally_length, List.length_replicate]

theorem offsets_getD (keys : List ℕ) {bound key : ℕ} (h : key ≤ bound) :
    (offsets keys bound).getD key 0 = keys.countP (· < key) := by
  rw [List.getD_eq_getElem?_getD, offsets_getElem? keys h, Option.getD_some]

end Offsets

/-! ## Writing -/

/-- From its cursor on, each key has room for the positions that are left, and the rooms are apart. -/
structure Room (keys cursors : List ℕ) (size : ℕ) : Prop where
  keyed : ∀ key ∈ keys, key < cursors.length
  apart : ∀ key key', key < key' → key' < cursors.length →
    cursors.getD key 0 + keys.count key ≤ cursors.getD key' 0
  fits : ∀ key < cursors.length, cursors.getD key 0 + keys.count key ≤ size

section Writing

variable {key index size : ℕ} {keys cursors placed : List ℕ}

theorem getD_modify_succ {cursors : List ℕ} {key key' : ℕ} (h : key < cursors.length) :
    (cursors.modify key (· + 1)).getD key' 0 = cursors.getD key' 0 + if key = key' then 1 else 0 := by
  rw [List.getD_eq_getElem?_getD, List.getD_eq_getElem?_getD, List.getElem?_modify]
  by_cases heq : key = key'
  · subst heq
    rw [List.getElem?_eq_getElem h]
    simp
  · cases cursors[key']? <;> simp [heq]

theorem count_cons_eq (first key : ℕ) (keys : List ℕ) :
    (first :: keys).count key = keys.count key + if first = key then 1 else 0 := by
  rw [List.count_cons]
  simp only [beq_iff_eq]

theorem cursor_add_count (h : key < cursors.length) (key' : ℕ) :
    (cursors.modify key (· + 1)).getD key' 0 + keys.count key' =
      cursors.getD key' 0 + (key :: keys).count key' := by
  rw [getD_modify_succ h, count_cons_eq]
  omega

theorem Room.step (h : Room (key :: keys) cursors size) : Room keys (cursors.modify key (· + 1)) size := by
  have hkey := h.keyed key List.mem_cons_self
  refine ⟨fun key' hkey' => ?_, fun low high hlt hhigh => ?_, fun key' hkey' => ?_⟩
  · rw [List.length_modify]
    exact h.keyed key' (List.mem_cons_of_mem _ hkey')
  · rw [List.length_modify] at hhigh
    have := h.apart low high hlt hhigh
    rw [cursor_add_count hkey, getD_modify_succ hkey]
    omega
  · rw [List.length_modify] at hkey'
    rw [cursor_add_count hkey]
    exact h.fits key' hkey'

theorem place_length : ∀ (keys : List ℕ) (index : ℕ) (cursors placed : List ℕ),
    (place keys index cursors placed).length = placed.length
  | [], _, _, _ => rfl
  | _ :: keys, _, _, _ => (place_length keys _ _ _).trans (List.length_set)

theorem place_outside {position : ℕ} : ∀ {keys cursors placed : List ℕ} {index : ℕ},
    Room keys cursors size → (∀ key < cursors.length, position < cursors.getD key 0 ∨
      cursors.getD key 0 + keys.count key ≤ position) →
    (place keys index cursors placed)[position]? = placed[position]?
  | [], _, _, _, _, _ => rfl
  | key :: keys, cursors, placed, index, hroom, hout => by
    have hkey := hroom.keyed key List.mem_cons_self
    rw [place, place_outside hroom.step, List.getElem?_set_ne]
    · have := hout key hkey
      rw [count_cons_eq, if_pos rfl] at this
      omega
    · intro key' hkey'
      rw [List.length_modify] at hkey'
      have := hout key' hkey'
      rw [cursor_add_count hkey, getD_modify_succ hkey]
      omega

/-- **The positions of a key** are written one after the other from its cursor on. -/
theorem place_bucket : ∀ {keys cursors placed : List ℕ} (index rank : ℕ) {key : ℕ},
    Room keys cursors placed.length → key < cursors.length → rank < keys.count key →
      (place keys index cursors placed)[cursors.getD key 0 + rank]? = (bucket key keys index)[rank]?
  | [], _, _, _, _, _, _, _, hrank => absurd hrank (Nat.not_lt_zero _)
  | first :: keys, cursors, placed, index, rank, key, hroom, hkey, hrank => by
    have hfirst := hroom.keyed first List.mem_cons_self
    have hstep := hroom.step
    have hlength : (cursors.modify first (· + 1)).length = cursors.length := List.length_modify _ _ _
    have hroom' : Room keys (cursors.modify first (· + 1))
        (placed.set (cursors.getD first 0) index).length := by rwa [List.length_set]
    rw [count_cons_eq] at hrank
    rw [place, bucket]
    by_cases heq : first = key
    · subst heq
      rw [if_pos rfl] at hrank ⊢
      cases rank with
      | zero =>
        have hfits := hroom.fits first hkey
        rw [count_cons_eq, if_pos rfl] at hfits
        -- the position just written lies in front of each room of the rest, or behind it
        rw [Nat.add_zero (cursors.getD first 0), place_outside hroom',
          List.getElem?_set_self (by omega), List.getElem?_cons_zero]
        intro key' hkey'
        rw [hlength] at hkey'
        rw [cursor_add_count hfirst, getD_modify_succ hfirst]
        rcases Nat.lt_trichotomy first key' with hlt | rfl | hgt
        · have := hroom.apart first key' hlt hkey'
          rw [count_cons_eq, if_pos rfl] at this
          omega
        · rw [if_pos rfl]
          omega
        · have := hroom.apart key' first hgt hfirst
          omega
      | succ rank =>
        have ih := place_bucket (index + 1) rank hroom' (hlength ▸ hkey)
          (by omega)
        rw [getD_modify_succ hfirst, if_pos rfl] at ih
        rw [List.getElem?_cons_succ, ← ih]
        congr 1
        omega
    · rw [if_neg heq] at hrank ⊢
      have ih := place_bucket (index + 1) rank hroom' (hlength ▸ hkey) (by omega)
      rwa [getD_modify_succ hfirst, if_neg heq, Nat.add_zero] at ih

end Writing

/-! ## The sort -/

section Sorted

variable {keys : List ℕ} {bound : ℕ}

theorem room_offsets (h : ∀ key ∈ keys, key < bound) : Room keys (offsets keys bound) keys.length := by
  have hmono : ∀ low high, low ≤ high → keys.countP (· < low) ≤ keys.countP (· < high) :=
    fun low high hle => List.countP_mono_left fun key _ hkey =>
      decide_eq_true (Nat.lt_of_lt_of_le (of_decide_eq_true hkey) hle)
  refine ⟨fun key hkey => ?_, fun low high hlt hhigh => ?_, fun key hkey => ?_⟩
  · rw [offsets_length]
    exact Nat.lt_succ_of_lt (h key hkey)
  · rw [offsets_length] at hhigh
    rw [offsets_getD keys (by omega), offsets_getD keys (by omega), ← countP_lt_succ]
    exact hmono _ _ hlt
  · rw [offsets_length] at hkey
    rw [offsets_getD keys (by omega), ← countP_lt_succ]
    exact List.countP_le_length

theorem countingSort_bucket (h : ∀ key ∈ keys, key < bound) {key : ℕ} (hkey : key < bound) :
    ((countingSort keys bound).drop (keys.countP (· < key))).take (keys.count key) = bucket key keys 0 := by
  have hroom := room_offsets h
  have hlength : (countingSort keys bound).length = keys.length := by
    rw [countingSort, place_length, List.length_replicate]
  refine List.ext_getElem? fun rank => ?_
  rcases Nat.lt_or_ge rank (keys.count key) with hrank | hrank
  · have hplaced := place_bucket 0 rank
      (by rwa [List.length_replicate] : Room keys _ (List.replicate keys.length 0).length)
      (by rw [offsets_length]; omega : key < _) hrank
    rw [offsets_getD keys (by omega)] at hplaced
    rw [List.getElem?_take_of_lt hrank, List.getElem?_drop]
    exact hplaced
  · rw [List.getElem?_take_eq_none hrank, List.getElem?_eq_none (by rw [bucket_length]; exact hrank)]

/-- **Counting sort** puts the buckets one after the other. -/
theorem countingSort_eq (h : ∀ key ∈ keys, key < bound) :
    countingSort keys bound = (List.range bound).flatMap fun key => bucket key keys 0 := by
  have htake : ∀ key ≤ bound, (countingSort keys bound).take (keys.countP (· < key)) =
      (List.range key).flatMap fun key => bucket key keys 0 := by
    intro key hkey
    induction key with
    | zero =>
      rw [show keys.countP (· < 0) = 0 from List.countP_eq_zero.2 fun key _ => by simp]
      rfl
    | succ key ih =>
      rw [countP_lt_succ, List.take_add, ih (by omega), countingSort_bucket h (by omega),
        List.range_succ, List.flatMap_append, List.flatMap_singleton]
  have hlength : (countingSort keys bound).length = keys.length := by
    rw [countingSort, place_length, List.length_replicate]
  rw [← htake bound (Nat.le_refl _), countP_lt_all h, ← hlength, List.take_length]

theorem countingSort_perm (h : ∀ key ∈ keys, key < bound) :
    (countingSort keys bound).Perm (List.range keys.length) := by
  have hmem : ∀ {i key : ℕ}, i ∈ bucket key keys 0 ↔ i < keys.length ∧ keys[i]? = some key := by
    intro i key
    rw [bucket_zero, List.mem_filter, List.mem_range, decide_eq_true_eq]
  have hnodup : ((List.range bound).flatMap fun key => bucket key keys 0).Nodup := by
    refine List.nodup_flatMap.2 ⟨fun key _ => ?_, List.nodup_range.imp fun hne => ?_⟩
    · rw [bucket_zero]
      exact List.nodup_range.filter _
    · intro i hi hi'
      exact hne (Option.some.inj ((hmem.1 hi).2.symm.trans (hmem.1 hi').2))
  rw [countingSort_eq h, List.perm_ext_iff_of_nodup hnodup List.nodup_range]
  intro i
  rw [List.mem_flatMap, List.mem_range]
  constructor
  · rintro ⟨key, -, hi⟩
    exact (hmem.1 hi).1
  · intro hi
    have hkey := h keys[i] (List.getElem_mem hi)
    exact ⟨keys[i], List.mem_range.2 hkey, hmem.2 ⟨hi, List.getElem?_eq_getElem hi⟩⟩

end Sorted

end Laplace.Buckets
