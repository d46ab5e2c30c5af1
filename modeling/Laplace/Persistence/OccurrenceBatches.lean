import Laplace.Persistence.Occurrences

/-!
# Batches of occurrence bindings (physicality_occurrence_binding.cpp:82-215)

Parents in the order of their ids, and the bindings of each in that order. `slots` is the capacity
of `parent_receipts` where the pointer is not null; `memory` says for which parents the validator
can reserve its vectors.
-/

namespace Laplace.PhysicalityOccurrence

open Persistence

/-! ## Receipts -/

section Receipts

variable (blake3 : Blake3)

def Binding.hashed (binding : Binding) : List UInt8 :=
  binding.parentPhysicalityId.bytes ++ binding.entityId.bytes ++
    binding.selectedPhysicalityId.bytes ++ u64Bytes binding.firstLogicalOrdinal ++
    u64Bytes binding.logicalCount ++ u64Bytes binding.metadata ++ u32Bytes binding.version ++
    u32Bytes binding.reserved

/-- `ParentReceipt` -/
def parentReceipt (parent : Digest256) (bindings : List Binding) : Digest256 :=
  blake3 (domainBytes "laplace-physicality-occurrence-parent-v1" ++ u32Bytes bindingVersion ++
    parent.bytes ++ u64Bytes (UInt64.ofNat bindings.length) ++ bindings.flatMap Binding.hashed)

def batchReceipt (parentCount bindingCount : ℕ) (receipts : List Digest256) : Digest256 :=
  blake3 (domainBytes "laplace-physicality-occurrence-batch-v1" ++ u32Bytes bindingVersion ++
    u64Bytes (UInt64.ofNat parentCount) ++ u64Bytes (UInt64.ofNat bindingCount) ++
    receipts.flatMap Digest256.bytes)

end Receipts

/-! ## `validate_batch` -/

structure Limits where
  maximumParents : UInt64
  maximumCarriers : UInt64
  maximumBindings : UInt64
  maximumLogicalCount : UInt64

/-- `SIZE_MAX / sizeof(..)` -/
def sizeLimit (bytes : ℕ) : ℕ := (2 ^ 64 - 1) / bytes

def countsFit (limits : Limits) (parents : List Parent) (bindings : List Binding)
    (slots : Option ℕ) : Bool :=
  ¬ (parents.length > limits.maximumParents.toNat ∨
    bindings.length > limits.maximumBindings.toNat ∨ parents.length > sizeLimit 24 ∨
    bindings.length > sizeLimit 112 ∨
    ∃ capacity ∈ slots, capacity > sizeLimit 32 ∨ capacity < parents.length)

/-- The loop that admits the work of all parents together. -/
def totalsFit (limits : Limits) : ℕ → ℕ → List Parent → Bool
  | _, _, [] => true
  | totalCarriers, totalLogical, parent :: parents =>
    if parent.carriers.length > limits.maximumCarriers.toNat - totalCarriers ∨
      parent.physicality.logicalCount.toNat > limits.maximumLogicalCount.toNat - totalLogical then
      false
    else totalsFit limits (totalCarriers + parent.carriers.length)
      (totalLogical + parent.physicality.logicalCount.toNat) parents

/-- The loop over the types and the order; `previous` is the parent before. -/
def parentsOrdered : Option Parent → List Parent → Bool
  | _, [] => true
  | previous, parent :: parents =>
    if parent.physicality.physicalityType ≠ physicalityComposition ∨ parent.carriers.length = 0 ∨
      ∃ before ∈ previous,
        ¬ before.physicality.physicalityId < parent.physicality.physicalityId then false
    else parentsOrdered (some parent) parents

def owned (parent : Parent) (binding : Binding) : Bool :=
  binding.parentPhysicalityId = parent.physicality.physicalityId

section Batch

variable (blake3 : Blake3) (memory : Parent → Bool)

def validateParent (limits : Limits) (parent : Parent) : Except Status Unit :=
  match PhysicalityEntity.recordValidate blake3 (memory parent) parent.physicality parent.carriers
      limits.maximumCarriers limits.maximumLogicalCount with
  | .error status => .error (mapStatus status)
  | .ok _ => .ok ()

/-- The loop over the parents; the bindings from `cursor` on are handed through it. -/
def validateParents (limits : Limits) : List Parent → List Binding → Except Status (List Binding)
  | [], bindings => .ok bindings
  | parent :: parents, bindings => do
    validateParent blake3 memory limits parent
    let slice := bindings.takeWhile (owned parent)
    if slice = [] ∨ ¬ intervalsMatch parent slice then throw .bindingInvalid
    validateParents limits parents (bindings.dropWhile (owned parent))

/-- The loop over the receipts. -/
def parentReceipts : List Parent → List Binding → List Digest256
  | [], _ => []
  | parent :: parents, bindings =>
    parentReceipt blake3 parent.physicality.physicalityId (bindings.takeWhile (owned parent)) ::
      parentReceipts parents (bindings.dropWhile (owned parent))

/-- `laplace_physicality_occurrence_bindings_validate_batch`: the batch receipt, and the parents'
where there are slots. -/
def validateBatch (limits : Limits) (parents : List Parent) (bindings : List Binding)
    (slots : Option ℕ) : Except Status (Digest256 × Option (List Digest256)) :=
  if ¬ countsFit limits parents bindings slots then .error .limit
  else if ¬ totalsFit limits 0 0 parents then .error .limit
  else if ¬ parentsOrdered none parents then .error .parentInvalid
  else
    match validateParents blake3 memory limits parents bindings with
    | .error status => .error status
    | .ok rest =>
      if rest ≠ [] then .error .bindingInvalid
      else
        let receipts := parentReceipts blake3 parents bindings
        .ok (batchReceipt blake3 parents.length bindings.length receipts, slots.map fun _ => receipts)

/-- `laplace_physicality_occurrence_bindings_validate` -/
def validateOne (limits : Limits) (parent : Parent) (bindings : List Binding) :
    Except Status Digest256 :=
  (validateBatch blake3 memory { limits with maximumParents := 1 } [parent] bindings none).map
    Prod.fst

end Batch

/-! ## Totals and order -/

structure TotalsFit (limits : Limits) (parents : List Parent) : Prop where
  carriers : (parents.map fun parent => parent.carriers.length).sum ≤
    limits.maximumCarriers.toNat
  logical : (parents.map fun parent => parent.physicality.logicalCount.toNat).sum ≤
    limits.maximumLogicalCount.toNat

theorem totalsFit_iff (limits : Limits) (parents : List Parent) :
    totalsFit limits 0 0 parents = true ↔ TotalsFit limits parents := by
  have hloop (carriers logical : ℕ) (hcarriers : carriers ≤ limits.maximumCarriers.toNat)
      (hlogical : logical ≤ limits.maximumLogicalCount.toNat) :
      totalsFit limits carriers logical parents = true ↔
        carriers + (parents.map fun parent => parent.carriers.length).sum ≤
            limits.maximumCarriers.toNat ∧
          logical + (parents.map fun parent => parent.physicality.logicalCount.toNat).sum ≤
            limits.maximumLogicalCount.toNat := by
    induction parents generalizing carriers logical with
    | nil => simp [totalsFit, hcarriers, hlogical]
    | cons parent parents ih =>
      rw [totalsFit, List.map_cons, List.map_cons, List.sum_cons, List.sum_cons]
      split
      · simp only [Bool.false_eq_true, false_iff]
        omega
      · rw [ih _ _ (by omega) (by omega)]
        omega
  rw [hloop 0 0 (Nat.zero_le _) (Nat.zero_le _), Nat.zero_add, Nat.zero_add]
  exact ⟨fun h => ⟨h.1, h.2⟩, fun h => ⟨h.carriers, h.logical⟩⟩

/-- A parent with carriers of its own. -/
def Parent.Composed (parent : Parent) : Prop :=
  parent.physicality.physicalityType = physicalityComposition ∧ parent.carriers ≠ []

def Before (before parent : Parent) : Prop :=
  before.physicality.physicalityId < parent.physicality.physicalityId

/-- Strictly increasing in their ids. -/
def Increasing (parents : List Parent) : Prop := parents.Pairwise Before

instance : IsTrans Parent Before := ⟨fun _ _ _ h h' => BitVec.lt_trans h h'⟩

theorem parentsOrdered_iff (parents : List Parent) : parentsOrdered none parents = true ↔
    (∀ parent ∈ parents, parent.Composed) ∧ Increasing parents := by
  have hloop (previous : Option Parent) : parentsOrdered previous parents = true ↔
      (∀ parent ∈ parents, parent.Composed) ∧ (previous.toList ++ parents).IsChain Before := by
    induction parents generalizing previous with
    | nil => cases previous <;> simp [parentsOrdered]
    | cons parent parents ih =>
      have hchain : (previous.toList ++ parent :: parents).IsChain Before ↔
          (∀ before ∈ previous, Before before parent) ∧ (parent :: parents).IsChain Before := by
        cases previous <;> simp
      rw [parentsOrdered, hchain, List.forall_mem_cons]
      split
      · rename_i h
        simp only [Bool.false_eq_true, false_iff]
        rintro ⟨⟨⟨htype, hcarriers⟩, -⟩, hbefore, -⟩
        rcases h with h | h | ⟨before, hmem, h⟩
        · exact h htype
        · exact hcarriers (List.length_eq_zero_iff.1 h)
        · exact h (hbefore before hmem)
      · rename_i h
        simp only [not_or, not_not, not_exists, not_and] at h
        obtain ⟨htype, hcarriers, hbefore⟩ := h
        have hcomposed : parent.Composed :=
          ⟨htype, fun hnil => hcarriers (List.length_eq_zero_iff.2 hnil)⟩
        rw [ih (some parent)]
        simp only [hcomposed, true_and, Option.toList_some, List.singleton_append]
        exact ⟨fun ⟨hall, hrest⟩ => ⟨hall, hbefore, hrest⟩, fun ⟨hall, _, hrest⟩ => ⟨hall, hrest⟩⟩
  rw [hloop none, Option.toList_none, List.nil_append, List.isChain_iff_pairwise]
  rfl

/-! ## Slices -/

section Slices

variable {blake3 : Blake3} {memory : Parent → Bool} {limits : Limits}

/-- A slice that the loop over the parents takes. -/
structure Accepts (blake3 : Blake3) (memory : Parent → Bool) (limits : Limits)
    (parent : Parent) (slice : List Binding) : Prop where
  valid : validateParent blake3 memory limits parent = .ok ()
  nonempty : slice ≠ []
  owned : ∀ binding ∈ slice, owned parent binding = true
  intervals : intervalsMatch parent slice = true

/-- A parent with its slice of the bindings and its receipt. -/
structure Part where
  parent : Parent
  slice : List Binding
  receipt : Digest256

def partBindings (parts : List Part) : List Binding := parts.flatMap Part.slice

structure PartAccepted (blake3 : Blake3) (memory : Parent → Bool)
    (limits : Limits) (part : Part) : Prop where
  accepts : Accepts blake3 memory limits part.parent part.slice
  receipt : part.receipt =
    parentReceipt blake3 part.parent.physicality.physicalityId part.slice

theorem owned_iff {parent : Parent} {binding : Binding} : owned parent binding = true ↔
    binding.parentPhysicalityId = parent.physicality.physicalityId := decide_eq_true_iff

variable {parts : List Part}

theorem takeWhile_rest {part : Part} (hbefore : ∀ later ∈ parts, Before part.parent later.parent)
    (hparts : ∀ later ∈ parts, PartAccepted blake3 memory limits later) :
    (partBindings parts).takeWhile (owned part.parent) = [] := by
  have hother : ∀ binding ∈ partBindings parts, ¬ owned part.parent binding = true := by
    intro binding hmem
    obtain ⟨later, hlater, hmem⟩ := List.mem_flatMap.1 hmem
    have howned := owned_iff.1 ((hparts later hlater).accepts.owned binding hmem)
    have hlt := hbefore later hlater
    rw [owned_iff, howned]
    intro heq
    rw [Before, heq] at hlt
    exact BitVec.lt_irrefl _ hlt
  cases hlist : partBindings parts with
  | nil => rfl
  | cons binding bindings =>
    exact List.takeWhile_cons_of_neg (hother binding (hlist ▸ List.mem_cons_self))

theorem slice_split {part : Part} (hincreasing : Increasing ((part :: parts).map Part.parent))
    (hparts : ∀ later ∈ part :: parts, PartAccepted blake3 memory limits later) :
    (partBindings (part :: parts)).takeWhile (owned part.parent) = part.slice ∧
      (partBindings (part :: parts)).dropWhile (owned part.parent) = partBindings parts := by
  obtain ⟨hpart, hrest⟩ := List.forall_mem_cons.1 hparts
  have hbefore : ∀ later ∈ parts, Before part.parent later.parent := fun later hlater =>
    (List.pairwise_cons.1 hincreasing).1 _ (List.mem_map_of_mem hlater)
  have htake := takeWhile_rest hbefore hrest
  have hslice : partBindings (part :: parts) = part.slice ++ partBindings parts := rfl
  constructor
  · rw [hslice, List.takeWhile_append_of_pos hpart.accepts.owned, htake, List.append_nil]
  · rw [hslice, List.dropWhile_append_of_pos hpart.accepts.owned]
    have hsplit := List.takeWhile_append_dropWhile (p := owned part.parent)
      (l := partBindings parts)
    rwa [htake, List.nil_append] at hsplit

theorem validateParents_of_parts (hincreasing : Increasing (parts.map Part.parent))
    (hparts : ∀ part ∈ parts, PartAccepted blake3 memory limits part) :
    validateParents blake3 memory limits (parts.map Part.parent) (partBindings parts) = .ok [] ∧
      parentReceipts blake3 (parts.map Part.parent) (partBindings parts) = parts.map Part.receipt := by
  induction parts with
  | nil => exact ⟨rfl, rfl⟩
  | cons part parts ih =>
    obtain ⟨htake, hdrop⟩ := slice_split hincreasing hparts
    obtain ⟨hpart, hrest⟩ := List.forall_mem_cons.1 hparts
    obtain ⟨hvalid, hreceipts⟩ := ih (List.pairwise_cons.1 hincreasing).2 hrest
    obtain ⟨⟨hparent, hnonempty, -, hintervals⟩, hreceipt⟩ := hpart
    rw [List.map_cons, validateParents, parentReceipts, htake, hdrop, hreceipts, ← hreceipt, List.map_cons]
    refine ⟨?_, rfl⟩
    rw [hparent]
    simp only [hnonempty, hintervals, not_true, or_self, if_false]
    exact hvalid

theorem parts_of_validateParents {parents : List Parent} {bindings : List Binding}
    (h : validateParents blake3 memory limits parents bindings = .ok []) :
    ∃ parts : List Part, parts.map Part.parent = parents ∧ partBindings parts = bindings ∧
      (∀ part ∈ parts, PartAccepted blake3 memory limits part) ∧
      parentReceipts blake3 parents bindings = parts.map Part.receipt := by
  induction parents generalizing bindings with
  | nil =>
    cases h
    exact ⟨[], rfl, rfl, by simp, rfl⟩
  | cons parent parents ih =>
    rw [validateParents] at h
    cases hparent : validateParent blake3 memory limits parent with
    | error status =>
      rw [hparent] at h
      cases h
    | ok _ =>
      rw [hparent] at h
      by_cases hslice : bindings.takeWhile (owned parent) = [] ∨
          ¬ intervalsMatch parent (bindings.takeWhile (owned parent)) = true
      · simp only [hslice, if_true] at h
        cases h
      · simp only [hslice, if_false] at h
        obtain ⟨parts, hparents, hbindings, hparts, hreceipts⟩ := ih h
        rw [not_or, not_not] at hslice
        refine ⟨⟨parent, bindings.takeWhile (owned parent), parentReceipt blake3
            parent.physicality.physicalityId (bindings.takeWhile (owned parent))⟩ :: parts, ?_, ?_,
          List.forall_mem_cons.2 ⟨⟨⟨hparent, hslice.1, ?_, hslice.2⟩, rfl⟩, hparts⟩, ?_⟩
        · rw [List.map_cons, hparents]
        · change bindings.takeWhile (owned parent) ++ partBindings parts = bindings
          rw [hbindings, List.takeWhile_append_dropWhile]
        · exact fun binding hmem => (List.all_eq_true.1 List.all_takeWhile) binding hmem
        · rw [parentReceipts, hreceipts, List.map_cons]

end Slices

/-! ## Batches and their slices alone -/

/-- The counts and the totals of a batch are within the limits. -/
def Fits (limits : Limits) (parents : List Parent) (bindings : List Binding)
    (slots : Option ℕ) : Prop :=
  countsFit limits parents bindings slots = true ∧ TotalsFit limits parents

theorem validateBatch_ok_iff (blake3 : Blake3) (memory : Parent → Bool)
    (limits : Limits) (parents : List Parent) (bindings : List Binding) (slots : Option ℕ)
    (output : Digest256 × Option (List Digest256)) :
    validateBatch blake3 memory limits parents bindings slots = .ok output ↔
      Fits limits parents bindings slots ∧ (∀ parent ∈ parents, parent.Composed) ∧
      Increasing parents ∧ ∃ parts : List Part, parts.map Part.parent = parents ∧
        partBindings parts = bindings ∧ (∀ part ∈ parts, PartAccepted blake3 memory limits part) ∧
        output = (batchReceipt blake3 parents.length bindings.length (parts.map Part.receipt),
          slots.map fun _ => parts.map Part.receipt) := by
  rw [validateBatch, Fits, ← totalsFit_iff]
  by_cases hcounts : countsFit limits parents bindings slots = true
  swap
  · rw [if_pos hcounts]
    exact ⟨nofun, fun h => absurd h.1.1 hcounts⟩
  by_cases htotals : totalsFit limits 0 0 parents = true
  swap
  · rw [if_neg (not_not.2 hcounts), if_pos htotals]
    exact ⟨nofun, fun h => absurd h.1.2 htotals⟩
  by_cases hordered : parentsOrdered none parents = true
  swap
  · rw [if_neg (not_not.2 hcounts), if_neg (not_not.2 htotals), if_pos hordered]
    rw [parentsOrdered_iff] at hordered
    exact ⟨nofun, fun h => absurd ⟨h.2.1, h.2.2.1⟩ hordered⟩
  rw [if_neg (not_not.2 hcounts), if_neg (not_not.2 htotals), if_neg (not_not.2 hordered)]
  obtain ⟨hcomposed, hincreasing⟩ := (parentsOrdered_iff parents).1 hordered
  constructor
  · intro h
    cases hvalid : validateParents blake3 memory limits parents bindings with
    | error status =>
      rw [hvalid] at h
      cases h
    | ok rest =>
      rw [hvalid] at h
      dsimp only at h
      by_cases hrest : rest = []
      · rw [if_neg (not_not.2 hrest), Except.ok.injEq] at h
        rw [hrest] at hvalid
        obtain ⟨parts, hparents, hbindings, hparts, hreceipts⟩ := parts_of_validateParents hvalid
        exact ⟨⟨hcounts, htotals⟩, hcomposed, hincreasing, parts, hparents, hbindings, hparts,
          hreceipts ▸ h.symm⟩
      · rw [if_pos hrest] at h
        cases h
  · rintro ⟨-, -, -, parts, rfl, rfl, hparts, rfl⟩
    obtain ⟨hvalid, hreceipts⟩ := validateParents_of_parts hincreasing hparts
    rw [hvalid, hreceipts]
    rfl

section Alone

variable (blake3 : Blake3) (memory : Parent → Bool) (limits : Limits)

/-- The slice validates as a batch of its parent only, with this receipt for the parent. -/
def Alone (part : Part) : Prop :=
  ∃ receipt, validateBatch blake3 memory limits [part.parent] part.slice (some 1) =
    .ok (receipt, some [part.receipt])

theorem alone_iff (part : Part) : Alone blake3 memory limits part ↔
    Fits limits [part.parent] part.slice (some 1) ∧ part.parent.Composed ∧
      PartAccepted blake3 memory limits part := by
  constructor
  · rintro ⟨receipt, h⟩
    obtain ⟨hfits, hcomposed, -, parts, hparents, hbindings, hparts, houtput⟩ :=
      (validateBatch_ok_iff _ _ _ _ _ _ _).1 h
    obtain ⟨found, hfound, hparent⟩ : ∃ found, parts = [found] ∧ found.parent = part.parent := by
      obtain ⟨found, rest, rfl, hparent, hrest⟩ := List.map_eq_cons_iff.1 hparents
      exact ⟨found, by rw [List.map_eq_nil_iff.1 hrest], hparent⟩
    subst hfound
    have hslice : found.slice = part.slice := by simpa [partBindings] using hbindings
    have hreceipt : part.receipt = found.receipt := by simpa using (Prod.mk.inj houtput).2
    have haccepted := hparts found List.mem_cons_self
    refine ⟨hfits, hcomposed _ List.mem_cons_self, ?_, ?_⟩
    · rw [← hparent, ← hslice]
      exact haccepted.accepts
    · rw [hreceipt, ← hparent, ← hslice]
      exact haccepted.receipt
  · rintro ⟨hfits, hcomposed, hpart⟩
    refine ⟨_, (validateBatch_ok_iff _ _ _ _ _ _ _).2 ⟨hfits, by simpa using hcomposed,
      List.pairwise_singleton _ _, [part], rfl, by simp [partBindings], by simpa using hpart, rfl⟩⟩

theorem le_sum_parents (measure : Parent → ℕ) {parts : List Part} {part : Part} (hpart : part ∈ parts) :
    measure part.parent ≤ ((parts.map Part.parent).map measure).sum := by
  rw [List.map_map]
  exact List.single_le_sum (fun _ _ => Nat.zero_le _) _
    (List.mem_map_of_mem (f := measure ∘ Part.parent) hpart)

theorem Fits.part {limits : Limits} {parts : List Part} {slots : Option ℕ}
    (h : Fits limits (parts.map Part.parent) (partBindings parts) slots) {part : Part}
    (hpart : part ∈ parts) : Fits limits [part.parent] part.slice (some 1) := by
  obtain ⟨hcounts, htotals⟩ := h
  have hlen : 0 < parts.length := List.length_pos_of_mem hpart
  have hslice : part.slice.length ≤ (partBindings parts).length := by
    rw [partBindings, List.length_flatMap]
    exact List.single_le_sum (by simp) _ (List.mem_map_of_mem hpart)
  refine ⟨?_, ?_, ?_⟩
  · rw [countsFit, decide_eq_true_iff, not_or, not_or, not_or, not_or, List.length_map] at hcounts
    obtain ⟨hparents, hbindings, hsize, hsizeBindings, -⟩ := hcounts
    rw [countsFit, decide_eq_true_iff, not_or, not_or, not_or, not_or, List.length_singleton]
    refine ⟨by omega, by omega, by omega, by omega, ?_⟩
    rintro ⟨capacity, hcapacity, h⟩
    cases hcapacity
    revert h
    decide
  · simpa using (le_sum_parents (fun parent => parent.carriers.length) hpart).trans htotals.carriers
  · simpa using (le_sum_parents (fun parent => parent.physicality.logicalCount.toNat) hpart).trans
      htotals.logical

/-- **Occurrence bindings cover their parents exactly.** The interval walk accepts well-formed
bindings that follow each other and expand to the occurrences of the parent; a batch within its
limits is the concatenation, in the strict order of the parents, of slices that validate alone with
the receipts that the batch gives. -/
theorem occurrence_bindings_cover :
    (∀ (parent : Parent) (bindings : List Binding), intervalsMatch parent bindings = true ↔
      (∀ binding ∈ bindings, WellFormed parent.physicality binding) ∧ Contiguous 0 bindings ∧
        parent.expanded = some (expandBindings bindings)) ∧ ∀ parents bindings slots output,
      validateBatch blake3 memory limits parents bindings slots = .ok output ↔
        Fits limits parents bindings slots ∧ Increasing parents ∧
        ∃ parts : List Part, parts.map Part.parent = parents ∧ partBindings parts = bindings ∧
          (∀ part ∈ parts, Alone blake3 memory limits part) ∧
          output = (batchReceipt blake3 parents.length bindings.length (parts.map Part.receipt),
            slots.map fun _ => parts.map Part.receipt) := by
  refine ⟨intervalsMatch_iff, fun parents bindings slots output => ?_⟩
  rw [validateBatch_ok_iff]
  constructor
  · rintro ⟨hfits, hcomposed, hincreasing, parts, rfl, rfl, hparts, houtput⟩
    refine ⟨hfits, hincreasing, parts, rfl, rfl, fun part hpart => ?_, houtput⟩
    exact (alone_iff _ _ _ _).2
      ⟨hfits.part hpart, hcomposed _ (List.mem_map_of_mem hpart), hparts part hpart⟩
  · rintro ⟨hfits, hincreasing, parts, rfl, rfl, halone, houtput⟩
    have hparts := fun part hpart => (alone_iff blake3 memory limits part).1 (halone part hpart)
    refine ⟨hfits, ?_, hincreasing, parts, rfl, rfl, fun part hpart => (hparts part hpart).2.2, houtput⟩
    intro parent hparent
    obtain ⟨part, hpart, rfl⟩ := List.mem_map.1 hparent
    exact (hparts part hpart).2.1

end Alone

/-! ## A binding that covers nothing -/

/-- One occurrence of the entity 0. -/
def singleParent : Parent where
  physicality :=
    { physicalityId := 0, entityId := 0, physicalityType := physicalityComposition
      vertexClass := vertexTrajectoryCarrier, recipeVersion := 1
      structuralForm := structuralOrderedComposition, dimensionCount := geometryComponents
      flags := 0, recipeFingerprint := 0, geometryEpoch := 0, trajectoryFingerprint := 0
      centroid := fun _ => 0, radius := 0, logicalCount := 1, vertexCount := 1 }
  carriers := [![0x3ff0000000000000, 0x3ff0000000000000, 0x3ff0000000000000, 0x3ff0000000010001]]

def bindingOf (logicalCount : UInt64) : Binding :=
  { parentPhysicalityId := 0, entityId := 0, selectedPhysicalityId := 1, firstLogicalOrdinal := 1
    logicalCount := logicalCount, metadata := 0, version := bindingVersion, reserved := 0 }

/-- The expansions agree and the ordinals follow each other, but a binding without an occurrence
is refused. -/
theorem intervalsMatch_empty_binding :
    validateParent (fun _ => 0) (fun _ => true) ⟨1, 1, 2, 1⟩ singleParent = .ok () ∧
      Contiguous 0 [bindingOf 0, bindingOf 1] ∧
      singleParent.expanded = some (expandBindings [bindingOf 0, bindingOf 1]) ∧
      intervalsMatch singleParent [bindingOf 0, bindingOf 1] = false := by
  refine ⟨by decide +kernel, ⟨rfl, rfl, trivial⟩, by decide +kernel, ?_⟩
  rw [Bool.eq_false_iff]
  intro h
  exact ((intervalsMatch_iff _ _).1 h).1 _ List.mem_cons_self |>.nonempty rfl

end Laplace.PhysicalityOccurrence
