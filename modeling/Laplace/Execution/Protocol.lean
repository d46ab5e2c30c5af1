import Laplace.Execution.Work

/-!
# The protocol of a run (execution.cpp:1314-1454)

The chunks tile the items. The provider is asked to prepare, to run and to finish in this order,
each only if the step before went well, and is told to abort once if the run fails after it was
asked to prepare.
-/

namespace Laplace.Execution

/-! ## Chunks -/

/-- The chunks follow each other from one item to another, and none is empty. -/
def Tiles : ℕ → ℕ → List Chunk → Prop
  | first, last, [] => first = last
  | first, last, chunk :: chunks =>
    chunk.firstItem.toNat = first ∧ 0 < chunk.itemCount.toNat ∧
      Tiles (first + chunk.itemCount.toNat) last chunks

/-- The chunks of the items from 0 on, each with its own index. -/
structure Tiling (itemCount : ℕ) (chunks : List Chunk) : Prop where
  tiles : Tiles 0 itemCount chunks
  indices : ∀ index, (h : index < chunks.length) → chunks[index].chunkIndex.toNat = index

theorem makeChunks_length (itemCount chunkItems : UInt64) : ∀ (count index : ℕ) (firstItem : UInt64),
    (makeChunks itemCount chunkItems count index firstItem).1.length = count
  | 0, _, _ => rfl
  | count + 1, index, firstItem => by
    unfold makeChunks
    rw [List.length_cons, makeChunks_length]

theorem makeChunks_indices (itemCount chunkItems : UInt64) :
    ∀ (count index : ℕ) (firstItem : UInt64), index + count ≤ 2 ^ 64 →
      ∀ place, (h : place < (makeChunks itemCount chunkItems count index firstItem).1.length) →
        (makeChunks itemCount chunkItems count index firstItem).1[place].chunkIndex.toNat =
          index + place
  | 0, _, _, _, place, h => absurd h (Nat.not_lt_zero place)
  | count + 1, index, firstItem, hbound, 0, _ => by
    have hsize : UInt64.size = 2 ^ 64 := rfl
    exact Checked.toNat_ofNat (by omega)
  | count + 1, index, firstItem, hbound, place + 1, h => by
    have hrest := makeChunks_indices itemCount chunkItems count (index + 1)
      (firstItem + min chunkItems (itemCount - firstItem)) (by omega) place
      (by
        rw [makeChunks_length] at h ⊢
        omega)
    rw [show index + (place + 1) = index + 1 + place by omega, ← hrest]
    rfl

theorem makeChunks_tiles (itemCount : UInt64) {chunkItems : UInt64} (hsize : chunkItems ≠ 0) :
    ∀ (count index : ℕ) (firstItem : UInt64), firstItem ≤ itemCount →
      count = (itemCount.toNat - firstItem.toNat + chunkItems.toNat - 1) / chunkItems.toNat →
      let made := makeChunks itemCount chunkItems count index firstItem
      Tiles firstItem.toNat itemCount.toNat made.1 ∧ made.2 = itemCount
  | 0, index, firstItem, hle, hcount => by
    have hpos : 0 < chunkItems.toNat := Nat.pos_of_ne_zero fun heq => hsize (UInt64.toNat_inj.1 heq)
    have hle := UInt64.le_iff_toNat_le.1 hle
    have hless := (Nat.div_eq_zero_iff_lt hpos).1 hcount.symm
    have heq : firstItem.toNat = itemCount.toNat := by omega
    exact ⟨heq, UInt64.toNat_inj.1 heq⟩
  | count + 1, index, firstItem, hle, hcount => by
    have hpos : 0 < chunkItems.toNat := Nat.pos_of_ne_zero fun heq => hsize (UInt64.toNat_inj.1 heq)
    have hle' := UInt64.le_iff_toNat_le.1 hle
    have hbound := itemCount.toNat_lt
    have hremaining : (itemCount - firstItem).toNat = itemCount.toNat - firstItem.toNat :=
      UInt64.toNat_sub_of_le _ _ hle
    have hitems : (min chunkItems (itemCount - firstItem)).toNat =
        min chunkItems.toNat (itemCount.toNat - firstItem.toNat) := by
      show (if chunkItems ≤ itemCount - firstItem then chunkItems else itemCount - firstItem).toNat = _
      split
      · rename_i hfull
        rw [min_eq_left]
        exact hremaining ▸ UInt64.le_iff_toNat_le.1 hfull
      · rename_i hlast
        rw [UInt64.le_iff_toNat_le, hremaining] at hlast
        rw [hremaining, min_eq_right (Nat.le_of_not_le hlast)]
    have hnext : (firstItem + min chunkItems (itemCount - firstItem)).toNat =
        firstItem.toNat + min chunkItems.toNat (itemCount.toNat - firstItem.toNat) := by
      rw [UInt64.toNat_add, hitems, Nat.mod_eq_of_lt (by omega)]
    have hmore : chunkItems.toNat ≤ itemCount.toNat - firstItem.toNat + chunkItems.toNat - 1 := by
      by_contra hless
      rw [Nat.div_eq_of_lt (by omega)] at hcount
      omega
    have hrest := makeChunks_tiles itemCount hsize count (index + 1)
      (firstItem + min chunkItems (itemCount - firstItem))
      (UInt64.le_iff_toNat_le.2 (by rw [hnext]; omega))
      (by
        rw [Nat.div_eq_sub_div hpos hmore] at hcount
        rw [hnext]
        rcases le_total chunkItems.toNat (itemCount.toNat - firstItem.toNat) with hfull | hlast
        · rw [min_eq_left hfull]
          have hshift : itemCount.toNat - firstItem.toNat + chunkItems.toNat - 1 - chunkItems.toNat =
              itemCount.toNat - (firstItem.toNat + chunkItems.toNat) + chunkItems.toNat - 1 := by
            omega
          rw [← hshift]
          omega
        · rw [min_eq_right hlast, Nat.div_eq_of_lt (by omega)]
          rw [Nat.div_eq_of_lt (by omega)] at hcount
          omega)
    rw [hnext, ← hitems] at hrest
    refine ⟨⟨rfl, ?_, hrest.1⟩, hrest.2⟩
    rw [hitems]
    omega

/-! ## Results -/

/-- How many chunks are complete. -/
def completeCount (results : List ChunkResult) : ℕ := results.countP ChunkResult.complete

/-- The items of the chunks that are complete. -/
def completeItems : List Chunk → List ChunkResult → ℕ
  | chunk :: chunks, result :: results =>
    (if result.complete then chunk.itemCount.toNat else 0) + completeItems chunks results
  | _, _ => 0

theorem ChunkResult.valid_of_complete {result : ChunkResult} (h : result.complete) : result.valid := by
  unfold ChunkResult.valid
  exact decide_eq_true (.inl h)

theorem countResults_eq : ∀ {chunks : List Chunk} {results : List ChunkResult}
    (receipt : WorkReceipt), chunks.length = results.length →
    countResults chunks results receipt =
      ({ receipt with
          completedChunks := receipt.completedChunks + UInt64.ofNat (completeCount results)
          completedItems := receipt.completedItems + UInt64.ofNat (completeItems chunks results) },
        results.all ChunkResult.valid)
  | [], [], receipt, _ => by
    show (receipt, true) = ({ receipt with
      completedChunks := receipt.completedChunks + 0
      completedItems := receipt.completedItems + 0 }, true)
    rw [UInt64.add_zero, UInt64.add_zero]
  | chunk :: chunks, result :: results, receipt, hlength => by
    have hlength : chunks.length = results.length := Nat.succ.inj hlength
    unfold countResults
    by_cases hcomplete : result.complete
    · have hcount : completeCount (result :: results) = completeCount results + 1 := by
        unfold completeCount
        rw [List.countP_cons, if_pos hcomplete]
      have hitems : completeItems (chunk :: chunks) (result :: results) =
          chunk.itemCount.toNat + completeItems chunks results := by
        rw [completeItems, if_pos hcomplete]
      rw [if_pos hcomplete, countResults_eq _ hlength, hcount, hitems, List.all_cons,
        ChunkResult.valid_of_complete hcomplete, Bool.true_and, UInt64.ofNat_add, UInt64.ofNat_add,
        UInt64.ofNat_toNat]
      simp only [UInt64.add_assoc, UInt64.add_comm (UInt64.ofNat (completeCount results))]
      rfl
    · have hcount : completeCount (result :: results) = completeCount results := by
        unfold completeCount
        rw [List.countP_cons, if_neg hcomplete, Nat.add_zero]
      have hitems : completeItems (chunk :: chunks) (result :: results) =
          completeItems chunks results := by
        rw [completeItems, if_neg hcomplete, Nat.zero_add]
      rw [if_neg hcomplete, countResults_eq _ hlength, hcount, hitems, List.all_cons]

theorem completeItems_all : ∀ {first last : ℕ} {chunks : List Chunk} {results : List ChunkResult},
    Tiles first last chunks → chunks.length = results.length →
      (∀ result ∈ results, result.complete) → first + completeItems chunks results = last
  | first, last, [], [], h, _, _ => h
  | first, last, chunk :: chunks, result :: results, ⟨_, _, h⟩, hlength, hall => by
    obtain ⟨hcomplete, hall⟩ := List.forall_mem_cons.1 hall
    have hrest := completeItems_all h (Nat.succ.inj hlength) hall
    rw [completeItems, if_pos hcomplete]
    omega

theorem completeCount_eq {results : List ChunkResult} :
    completeCount results = results.length ↔ ∀ result ∈ results, result.complete :=
  List.countP_eq_length

/-! ## Traces -/

theorem planWork_error {grant : ExecutionGrant} {request : WorkRequest} {status : Status}
    (h : planWork grant request = .error status) : status ≠ .ok := by
  unfold planWork at h
  dsimp only at h
  repeat' split at h
  all_goals cases h
  all_goals exact nofun

variable (blake3 : Blake3) {σ τ : Type*}

theorem planWork_tiling {grant : ExecutionGrant} {request : WorkRequest} {plan : WorkPlan}
    (h : planWork grant request = .ok plan) :
    let made := makeChunks request.itemCount plan.chunkItems plan.chunkCount.toNat 0 0
    Tiling request.itemCount.toNat made.1 ∧ made.2 = request.itemCount := by
  obtain ⟨hsize, hcount⟩ := planWork_ok h
  have htiles := makeChunks_tiles request.itemCount hsize plan.chunkCount.toNat 0 0
    (UInt64.le_iff_toNat_le.2 (Nat.zero_le _))
    (by rw [hcount, ceilDivide_toNat _ hsize, UInt64.toNat_zero, Nat.sub_zero])
  refine ⟨⟨htiles.1, fun index hindex => ?_⟩, htiles.2⟩
  rw [makeChunks_indices _ _ _ _ _ (by rw [Nat.zero_add]; exact (UInt64.toNat_lt _).le),
    Nat.zero_add]

/-- A provider that completes every chunk and yet says that its run failed. -/
def contraryProvider : RuntimeProvider Unit Unit where
  providerFingerprint := 0
  prepare := some fun _ _ state => (.ok, state)
  run := some fun _ _ _ states => ((.providerRunFailed, fun _ => { state := chunkComplete }), states)
  finish := some fun state => (.ok, state)
  abort := some id
  abiMajor := abiMajor
  abiMinor := abiMinor
  flags := knownProviderFlags
  reserved := 0

-- it is never asked to finish
example :
    let ended := runWork (fun _ => 0) ⟨0, 1, 0⟩ ⟨1, 0, 0, 1, 1, 1, 0, 0⟩ contraryProvider
      (fun _ state => ((.ok, 0), state)) .done () ()
    ended.calls = [.prepare .ok, .run [⟨0, 0, 1⟩] .providerRunFailed [⟨0, chunkComplete, statusOk⟩],
      .abort] ∧ ended.status = some .providerRunFailed := by decide

end Laplace.Execution
