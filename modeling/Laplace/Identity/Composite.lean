import Laplace.Digest
import Laplace.Lib.Checked

/-!
# Composite identities (identity.c:13-31, 140-286)

An identity is the first half of a BLAKE3 digest, the witness. A list of children can be given in
full or as runs. `out_witness` may be null: the flag `wantsWitness` says whether it is not.
-/

namespace Laplace.Identity

open Checked

/-- `laplace_identity_status` -/
inductive Status
  | ok | invalidArgument | positionOutOfRange | emptyComposition | zeroRun | countOverflow
  | witnessMismatch
deriving DecidableEq, Repr

/-- `laplace_id_run` -/
structure IdRun where
  id : Id128
  count : UInt64
deriving DecidableEq

/-- What is written to `out_id` and `out_witness`. -/
structure Composite where
  id : Id128
  witness : Option Digest256
deriving DecidableEq

/-- `LAPLACE_RUN_BLOCK_IDENTITIES` -/
def runBlockIdentities : UInt64 := 4096

/-- `LAPLACE_COMPOSITE_DOMAIN_BYTE` -/
def compositeDomain : UInt8 := 1

/-- `SIZE_MAX / sizeof(*child_ids)`: no array has more children. -/
def maximumChildren : ℕ := (2 ^ 64 - 1) / 16

/-- The first sixteen bytes of a witness. -/
def identityOf (witness : Digest256) : Id128 := witness.extractLsb' 128 128

def witnessMatchesIdentity (id : Id128) : Option Digest256 → Bool
  | none => false
  | some witness => identityOf witness = id

section Functions

variable (blake3 : Blake3)

def finalizeIdentity (hasher : List UInt8) (wantsWitness : Bool) : Composite :=
  let witness := blake3 hasher
  ⟨identityOf witness, if wantsWitness then some witness else none⟩

def compositeWitness (childIds : List Id128) (collapsedChildWitness : Option Digest256)
    (wantsWitness : Bool) : Except Status Composite :=
  match childIds with
  | [] => .error .emptyComposition
  | [child] =>
    if !wantsWitness then .error .invalidArgument
    else if !witnessMatchesIdentity child collapsedChildWitness then .error .witnessMismatch
    else .ok ⟨child, collapsedChildWitness⟩
  | childIds =>
    if childIds.length > maximumChildren then .error .countOverflow
    else
      .ok (finalizeIdentity blake3 (compositeDomain :: childIds.flatMap Id128.bytes) wantsWitness)

def composite (childIds : List Id128) : Except Status Id128 :=
  match childIds with
  | [] => .error .emptyComposition
  | [child] => .ok child
  | childIds =>
    if childIds.length > maximumChildren then .error .countOverflow
    else (compositeWitness blake3 childIds none false).map Composite.id

/-- The loop that checks and counts the runs. -/
def countRuns : List IdRun → UInt64 → Except Status UInt64
  | [], logicalCount => .ok logicalCount
  | run :: runs, logicalCount =>
    if run.count = 0 then .error .zeroRun
    else if maxWord - logicalCount < run.count then .error .countOverflow
    else countRuns runs (logicalCount + run.count)

/-- The loop that feeds one run to the hasher, a block at a time. -/
def feedBlocks (block : List Id128) : ℕ → UInt64 → List UInt8 → List UInt8
  | 0, _, hasher => hasher
  | rounds + 1, remaining, hasher =>
    if remaining = 0 then hasher
    else
      let emitted := if remaining > runBlockIdentities then runBlockIdentities else remaining
      feedBlocks block rounds (remaining - emitted)
        (hasher ++ (block.take emitted.toNat).flatMap Id128.bytes)

/-- As many rounds as there are blocks in the run. -/
def feedRun (hasher : List UInt8) (run : IdRun) : List UInt8 :=
  feedBlocks (List.replicate runBlockIdentities.toNat run.id) (run.count.toNat / 4096 + 1)
    run.count hasher

def compositeRunsWitness (runs : List IdRun) (collapsedChildWitness : Option Digest256)
    (wantsWitness : Bool) : Except Status (UInt64 × Composite) :=
  match runs with
  | [] => .error .emptyComposition
  | first :: _ => do
    let logicalCount ← countRuns runs 0
    if logicalCount = 1 then
      if !wantsWitness then .error .invalidArgument
      else if !witnessMatchesIdentity first.id collapsedChildWitness then .error .witnessMismatch
      else .ok (logicalCount, ⟨first.id, collapsedChildWitness⟩)
    else
      .ok (logicalCount, finalizeIdentity blake3 (runs.foldl feedRun [compositeDomain]) wantsWitness)

def compositeRuns (runs : List IdRun) : Except Status (UInt64 × Id128) :=
  match runs with
  | [] => .error .emptyComposition
  | first :: _ => do
    let logicalCount ← countRuns runs 0
    if logicalCount = 1 then .ok (logicalCount, first.id)
    else
      let (count, result) ← compositeRunsWitness blake3 runs none false
      .ok (count, result.id)

end Functions

/-- The children that the runs stand for. -/
def expand (runs : List IdRun) : List Id128 :=
  runs.flatMap fun run => List.replicate run.count.toNat run.id

@[simp] theorem expand_nil : expand [] = [] := rfl

@[simp] theorem expand_cons (run : IdRun) (runs : List IdRun) :
    expand (run :: runs) = List.replicate run.count.toNat run.id ++ expand runs := rfl

/-! ## The loops -/

/-- Enough rounds feed the whole run, however it is cut into blocks. -/
theorem feedBlocks_eq (id : Id128) : ∀ (rounds : ℕ) (remaining : UInt64) (hasher : List UInt8),
    remaining.toNat < 4096 * rounds →
    feedBlocks (List.replicate runBlockIdentities.toNat id) rounds remaining hasher =
      hasher ++ (List.replicate remaining.toNat id).flatMap Id128.bytes
  | 0, _, _, h => by omega
  | rounds + 1, remaining, hasher, h => by
    rw [feedBlocks]
    by_cases hzero : remaining = 0
    · simp [hzero]
    rw [if_neg hzero]
    have hblock : runBlockIdentities.toNat = 4096 := rfl
    by_cases hmore : remaining > runBlockIdentities
    · rw [gt_iff_lt, UInt64.lt_iff_toNat_lt, hblock] at hmore
      have hsub : (remaining - runBlockIdentities).toNat = remaining.toNat - 4096 :=
        toNat_sub_of_le (by omega)
      have hsplit : remaining.toNat = 4096 + (remaining.toNat - 4096) := by omega
      simp only [if_pos (show remaining > runBlockIdentities from
        UInt64.lt_iff_toNat_lt.2 hmore)]
      rw [feedBlocks_eq id rounds _ _ (by omega), hsub, hblock, List.take_replicate, Nat.min_self,
        List.append_assoc, ← List.flatMap_append, List.replicate_append_replicate, ← hsplit]
    · have hle : remaining.toNat ≤ 4096 := by
        rw [gt_iff_lt, UInt64.lt_iff_toNat_lt, hblock] at hmore
        omega
      simp only [if_neg hmore, hblock]
      rw [List.take_replicate, Nat.min_eq_left hle, UInt64.sub_self]
      cases rounds <;> simp [feedBlocks]

theorem feedRun_eq (hasher : List UInt8) (run : IdRun) : feedRun hasher run =
    hasher ++ (List.replicate run.count.toNat run.id).flatMap Id128.bytes :=
  feedBlocks_eq run.id _ run.count hasher (by omega)

theorem foldl_feedRun : ∀ (runs : List IdRun) (hasher : List UInt8),
    runs.foldl feedRun hasher = hasher ++ (expand runs).flatMap Id128.bytes
  | [], hasher => by simp
  | run :: runs, hasher => by
    rw [List.foldl_cons, foldl_feedRun runs, feedRun_eq, expand_cons, List.flatMap_append,
      List.append_assoc]

theorem countRuns_eq : ∀ (runs : List IdRun) (logicalCount : UInt64),
    (∀ run ∈ runs, run.count ≠ 0) → logicalCount.toNat + (expand runs).length < 2 ^ 64 →
    countRuns runs logicalCount =
      .ok (UInt64.ofNat (logicalCount.toNat + (expand runs).length))
  | [], logicalCount, _, _ => by simp [countRuns]
  | run :: runs, logicalCount, hcounts, htotal => by
    rw [expand_cons, List.length_append, List.length_replicate] at htotal ⊢
    have hfits : ¬ maxWord - logicalCount < run.count := by
      rw [UInt64.lt_iff_toNat_lt, toNat_sub_of_le (by simp; omega)]
      simp
      omega
    have hadd : (logicalCount + run.count).toNat = logicalCount.toNat + run.count.toNat :=
      toNat_add_of_lt (by omega)
    rw [countRuns, if_neg (hcounts run List.mem_cons_self), if_neg hfits,
      countRuns_eq runs _ (fun r hr => hcounts r (List.mem_cons_of_mem _ hr)) (by omega), hadd,
      Nat.add_assoc]

/-! ## Runs and children in full -/

/-- The identity of a list of children, without regard to whether an array can hold it. -/
def childrenWitness (blake3 : Blake3) (childIds : List Id128)
    (collapsedChildWitness : Option Digest256) (wantsWitness : Bool) : Except Status Composite :=
  match childIds with
  | [] => .error .emptyComposition
  | [child] =>
    if !wantsWitness then .error .invalidArgument
    else if !witnessMatchesIdentity child collapsedChildWitness then .error .witnessMismatch
    else .ok ⟨child, collapsedChildWitness⟩
  | childIds =>
    .ok (finalizeIdentity blake3 (compositeDomain :: childIds.flatMap Id128.bytes) wantsWitness)

def childrenIdentity (blake3 : Blake3) (childIds : List Id128) :
    Except Status Id128 :=
  match childIds with
  | [] => .error .emptyComposition
  | [child] => .ok child
  | childIds =>
    .ok (finalizeIdentity blake3 (compositeDomain :: childIds.flatMap Id128.bytes) false).id

variable {blake3 : Blake3} {collapsed : Option Digest256} {wants : Bool}

theorem compositeWitness_eq {childIds : List Id128} (h : childIds.length ≤ maximumChildren) :
    compositeWitness blake3 childIds collapsed wants =
      childrenWitness blake3 childIds collapsed wants := by
  match childIds, h with
  | [], _ => rfl
  | [_], _ => rfl
  | _ :: _ :: _, h => simp only [compositeWitness, childrenWitness, if_neg (Nat.not_lt.2 h)]

theorem composite_eq {childIds : List Id128} (h : childIds.length ≤ maximumChildren) :
    composite blake3 childIds = childrenIdentity blake3 childIds := by
  match childIds, h with
  | [], _ => rfl
  | [_], _ => rfl
  | first :: second :: rest, h =>
    simp only [composite, if_neg (Nat.not_lt.2 h)]
    rw [compositeWitness_eq h]
    rfl

/-- The count of the runs is one exactly where they hold one child. -/
theorem expand_cases {first : IdRun} {rest : List IdRun} (hcounts : ∀ run ∈ first :: rest, run.count ≠ 0)
    (htotal : (expand (first :: rest)).length < 2 ^ 64) :
    (UInt64.ofNat (expand (first :: rest)).length = 1 ∧ expand (first :: rest) = [first.id]) ∨
    (UInt64.ofNat (expand (first :: rest)).length ≠ 1 ∧
      ∃ child other children, expand (first :: rest) = child :: other :: children) := by
  have hone : UInt64.ofNat (expand (first :: rest)).length = 1 ↔ (expand (first :: rest)).length = 1 := by
    rw [← UInt64.toNat_inj, toNat_ofNat htotal]
    rfl
  obtain ⟨n, hn⟩ := Nat.exists_eq_succ_of_ne_zero fun h : first.count.toNat = 0 =>
    hcounts first List.mem_cons_self (UInt64.toNat_inj.1 h)
  rw [Ne, hone, expand_cons, hn, List.replicate_succ, List.cons_append]
  cases List.replicate n first.id ++ expand rest with
  | nil => exact .inl ⟨rfl, rfl⟩
  | cons other children => exact .inr ⟨by simp, _, other, children, rfl⟩

theorem compositeRunsWitness_eq {runs : List IdRun} (hcounts : ∀ run ∈ runs, run.count ≠ 0)
    (htotal : (expand runs).length < 2 ^ 64) :
    compositeRunsWitness blake3 runs collapsed wants =
      (childrenWitness blake3 (expand runs) collapsed wants).map
        (UInt64.ofNat (expand runs).length, ·) := by
  match runs, hcounts, htotal with
  | [], _, _ => rfl
  | first :: rest, hcounts, htotal =>
    have hcount := countRuns_eq (first :: rest) 0 hcounts (by simpa using htotal)
    have hfeed := foldl_feedRun (first :: rest) [compositeDomain]
    rw [UInt64.toNat_zero, Nat.zero_add] at hcount
    simp only [compositeRunsWitness, hcount, bind, Except.bind, hfeed]
    rcases expand_cases hcounts htotal with ⟨hone, hchildren⟩ | ⟨hone, child, other, children, hchildren⟩
    · rw [if_pos hone, hchildren]
      simp only [childrenWitness]
      split
      · rfl
      · split <;> rfl
    · rw [if_neg hone, hchildren]
      rfl

theorem compositeRuns_eq {runs : List IdRun} (hcounts : ∀ run ∈ runs, run.count ≠ 0)
    (htotal : (expand runs).length < 2 ^ 64) :
    compositeRuns blake3 runs =
      (childrenIdentity blake3 (expand runs)).map (UInt64.ofNat (expand runs).length, ·) := by
  match runs, hcounts, htotal with
  | [], _, _ => rfl
  | first :: rest, hcounts, htotal =>
    have hcount := countRuns_eq (first :: rest) 0 hcounts (by simpa using htotal)
    have hwitness := (@compositeRunsWitness_eq blake3 none false)
      hcounts htotal
    rw [UInt64.toNat_zero, Nat.zero_add] at hcount
    simp only [compositeRuns, hcount, bind, Except.bind, hwitness]
    rcases expand_cases hcounts htotal with ⟨hone, hchildren⟩ | ⟨hone, child, other, children, hchildren⟩
    · rw [if_pos hone, hchildren]
      rfl
    · rw [if_neg hone, hchildren]
      rfl

/-- **Runs and full lists have one identity.** The runs functions compute the identity and the
witness of the children in full, which is what the other functions compute whenever an array can
hold these; so it does not matter how the children are cut into runs. -/
theorem compositeRuns_expanded (blake3 : Blake3) (runs : List IdRun)
    (collapsed : Option Digest256) (wants : Bool) (hcounts : ∀ run ∈ runs, run.count ≠ 0)
    (htotal : (expand runs).length < 2 ^ 64) :
    (compositeRunsWitness blake3 runs collapsed wants =
        (childrenWitness blake3 (expand runs) collapsed wants).map
          (UInt64.ofNat (expand runs).length, ·) ∧
      compositeRuns blake3 runs =
        (childrenIdentity blake3 (expand runs)).map (UInt64.ofNat (expand runs).length, ·)) ∧
    ((expand runs).length ≤ maximumChildren →
      compositeRunsWitness blake3 runs collapsed wants =
        (compositeWitness blake3 (expand runs) collapsed wants).map
          (UInt64.ofNat (expand runs).length, ·) ∧
      compositeRuns blake3 runs =
        (composite blake3 (expand runs)).map (UInt64.ofNat (expand runs).length, ·)) ∧
    ∀ other : List IdRun, (∀ run ∈ other, run.count ≠ 0) → expand other = expand runs →
      compositeRunsWitness blake3 other collapsed wants =
        compositeRunsWitness blake3 runs collapsed wants ∧
      compositeRuns blake3 other = compositeRuns blake3 runs := by
  refine ⟨⟨compositeRunsWitness_eq hcounts htotal, compositeRuns_eq hcounts htotal⟩,
    fun harray => ?_, fun other hother hexpand => ?_⟩
  · rw [compositeWitness_eq harray, composite_eq harray]
    exact ⟨compositeRunsWitness_eq hcounts htotal, compositeRuns_eq hcounts htotal⟩
  · have htotal' : (expand other).length < 2 ^ 64 := by rwa [hexpand]
    rw [compositeRunsWitness_eq hother htotal', compositeRunsWitness_eq hcounts htotal,
      compositeRuns_eq hother htotal', compositeRuns_eq hcounts htotal, hexpand]
    exact ⟨rfl, rfl⟩

theorem compositeRuns_expanded_split :
    let blake3 : Blake3 := fun bytes =>
      BitVec.ofNat 256 (bytes.foldl (fun state byte => state * 257 + byte.toNat + 1) 0)
    compositeRunsWitness blake3 [⟨7, 1⟩, ⟨7, 1⟩, ⟨9, 1⟩] none true =
        compositeRunsWitness blake3 [⟨7, 2⟩, ⟨9, 1⟩] none true ∧
      compositeRunsWitness blake3 [⟨7, 2⟩, ⟨9, 1⟩] none true =
        (compositeWitness blake3 [7, 7, 9] none true).map (3, ·) :=
  let result := compositeRuns_expanded _ [⟨7, 2⟩, ⟨9, 1⟩] none true (by decide) (by decide)
  ⟨(result.2.2 [⟨7, 1⟩, ⟨7, 1⟩, ⟨9, 1⟩] (by decide) (by decide)).1, (result.2.1 (by decide)).1⟩

end Laplace.Identity
