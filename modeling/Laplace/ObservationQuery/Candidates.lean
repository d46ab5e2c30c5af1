import Laplace.Lib.Program
import Laplace.ObservationQuery.Creation

/-!
# Candidates of an entity (observation_query_part01.inc)

The neighbours of an entity are read off the runs of the trajectories. Counted by target and
physicality, they are those in the sequences that the runs stand for.
-/

namespace Laplace.ObservationQuery

open Checked Program
open Persistence (PhysicalityRecord TrajectorySegmentRecord)
open Trajectory (CompositionOccurrence)

/-! ## Candidates -/

def relationContainer : UInt32 := 1
def relationConstituent : UInt32 := 2
def relationPredecessor : UInt32 := 4
def relationSuccessor : UInt32 := 8
def relationCooccur : UInt32 := 16

/-- `Candidate` -/
structure Candidate where
  targetEntityId : Id128
  physicalityId : Digest256
  sourceLogicalOrdinal : UInt64
  targetLogicalOrdinal : UInt64
  multiplicity : UInt64 := 1
  gap : UInt64 := 0
  relation : UInt32
deriving DecidableEq

/-- What a call has found so far. -/
structure Generation where
  candidates : List Candidate := []
  rowsExamined : UInt64 := 0
  indexPlanCount : UInt64 := 0

/-- `*limited` is set and the loops are left, or the call returns `false`. -/
inductive Exit
  | limited | failed
deriving DecidableEq

/-- `AbsoluteDistance` -/
def absoluteDistance (left right : UInt64) : UInt64 :=
  if right ≤ left then left - right else right - left

/-- `laplace_trajectory_occurrence_precedes` of runs of the container, `none` where it fails. -/
def occurrencePrecedes (left right : CompositionOccurrence) : Option Bool :=
  if left.runLength = 0 ∨ right.runLength = 0 then none
  else if maxWord - left.logicalOrdinal < left.runLength.toUInt64 - 1 then none
  else some (left.logicalOrdinal + left.runLength.toUInt64 - 1 < right.logicalOrdinal)

/-- `ImmediatePrecedes` -/
def immediatePrecedes (left right : CompositionOccurrence) : Bool :=
  if occurrencePrecedes left right ≠ some true then false
  else if left.runLength = 0 ∨
      maxWord - left.runLength.toUInt64 < left.logicalOrdinal then false
  else left.logicalOrdinal + left.runLength.toUInt64 = right.logicalOrdinal

/-- `laplace_trajectory_entities_cooccur` -/
def entitiesCooccur (occurrences : List CompositionOccurrence) (left right : Id128) : Bool :=
  occurrences.any (·.entityId = left) && occurrences.any (·.entityId = right)

section Candidates

variable (container : Container) (source target : CompositionOccurrence)

def containerCandidate : Candidate where
  targetEntityId := container.physicality.entityId
  physicalityId := container.physicality.physicalityId
  sourceLogicalOrdinal := source.logicalOrdinal
  targetLogicalOrdinal := 0
  multiplicity := source.runLength.toUInt64
  relation := relationContainer

def constituentCandidate : Candidate where
  targetEntityId := target.entityId
  physicalityId := container.physicality.physicalityId
  sourceLogicalOrdinal := 0
  targetLogicalOrdinal := target.logicalOrdinal
  multiplicity := target.runLength.toUInt64
  relation := relationConstituent

def internalPredecessor : Candidate where
  targetEntityId := source.entityId
  physicalityId := container.physicality.physicalityId
  sourceLogicalOrdinal := source.logicalOrdinal + 1
  targetLogicalOrdinal := source.logicalOrdinal
  multiplicity := source.runLength.toUInt64 - 1
  relation := relationPredecessor

def previousCandidate (previous source : CompositionOccurrence) : Candidate where
  targetEntityId := previous.entityId
  physicalityId := container.physicality.physicalityId
  sourceLogicalOrdinal := source.logicalOrdinal
  targetLogicalOrdinal := previous.logicalOrdinal + previous.runLength.toUInt64 - 1
  relation := relationPredecessor

def internalSuccessor : Candidate where
  targetEntityId := source.entityId
  physicalityId := container.physicality.physicalityId
  sourceLogicalOrdinal := source.logicalOrdinal
  targetLogicalOrdinal := source.logicalOrdinal + 1
  multiplicity := source.runLength.toUInt64 - 1
  relation := relationSuccessor

def nextCandidate (source next : CompositionOccurrence) : Candidate where
  targetEntityId := next.entityId
  physicalityId := container.physicality.physicalityId
  sourceLogicalOrdinal := source.logicalOrdinal + source.runLength.toUInt64 - 1
  targetLogicalOrdinal := next.logicalOrdinal
  relation := relationSuccessor

/-- `same` where the target is the run itself. -/
def cooccurringCandidate (same : Bool) : Candidate :=
  let targetLogicalOrdinal := if same then source.logicalOrdinal + 1 else target.logicalOrdinal
  { targetEntityId := target.entityId
    physicalityId := container.physicality.physicalityId
    sourceLogicalOrdinal := source.logicalOrdinal
    targetLogicalOrdinal
    multiplicity := if same then source.runLength.toUInt64 - 1 else target.runLength.toUInt64
    gap := absoluteDistance source.logicalOrdinal targetLogicalOrdinal
    relation := relationCooccur }

end Candidates

section Generate

variable (index : Index) (maximumOutputRecords : ℕ)

/-- `ChargeWork` -/
def chargeWork : Program Generation Exit Unit := do
  let s ← get
  require (s.rowsExamined < index.maximumCandidateRecordsPerExpansion) Exit.limited
  modify fun s => { s with rowsExamined := s.rowsExamined + 1 }

/-- `AppendCandidate`, behind the check of the caller's bound. -/
def appendCandidate (candidate : Candidate) : Program Generation Exit Unit := do
  let s ← get
  require (s.candidates.length < maximumOutputRecords) Exit.limited
  require
    (s.candidates.length < index.maximumCandidateRecordsPerExpansion.toNat) Exit.limited
  modify fun s => { s with candidates := s.candidates ++ [candidate] }

/-- An `if` without `else`. -/
def when (condition : Prop) [Decidable condition] (program : Program Generation Exit Unit) :
    Program Generation Exit Unit :=
  if condition then program else pure ()

variable (entityId : Id128)

def generateContainers : Program Generation Exit Unit :=
  (index.occurrencesByEntity entityId).forM fun location => do
    chargeWork index
    appendCandidate index maximumOutputRecords
      (containerCandidate location.container (location.container.occurrence location.occurrenceIndex))

def generateConstituents : Program Generation Exit Unit :=
  (index.containersByEntity entityId).forM fun container =>
    container.occurrences.forM fun target => do
      chargeWork index
      appendCandidate index maximumOutputRecords (constituentCandidate container target)

def generatePredecessors : Program Generation Exit Unit :=
  (index.occurrencesByEntity entityId).forM fun location => do
    let container := location.container
    let source := container.occurrence location.occurrenceIndex
    chargeWork index
    when (1 < source.runLength)
      (appendCandidate index maximumOutputRecords (internalPredecessor container source))
    when (location.occurrenceIndex ≠ 0) do
      let previous := container.occurrence (location.occurrenceIndex - 1)
      require (immediatePrecedes previous source) Exit.failed
      appendCandidate index maximumOutputRecords (previousCandidate container previous source)

def generateSuccessors : Program Generation Exit Unit :=
  (index.occurrencesByEntity entityId).forM fun location => do
    let container := location.container
    let source := container.occurrence location.occurrenceIndex
    chargeWork index
    when (1 < source.runLength)
      (appendCandidate index maximumOutputRecords (internalSuccessor container source))
    when (location.occurrenceIndex + 1 < container.occurrences.length) do
      let next := container.occurrence (location.occurrenceIndex + 1)
      require (immediatePrecedes source next) Exit.failed
      appendCandidate index maximumOutputRecords (nextCandidate container source next)

def generateCooccurring : Program Generation Exit Unit :=
  (index.occurrencesByEntity entityId).forM fun location => do
    let container := location.container
    let source := container.occurrence location.occurrenceIndex
    (List.range container.occurrences.length).forM fun targetIndex => do
      chargeWork index
      let target := container.occurrence targetIndex
      let same : Bool := targetIndex = location.occurrenceIndex
      when ((same && source.runLength ≤ 1) = false ∧
          entitiesCooccur container.occurrences entityId target.entityId)
        (appendCandidate index maximumOutputRecords (cooccurringCandidate container source target same))

/-- A part of the call, where the mask asks for it. -/
def whereMasked (mask relation : UInt32) (program : Program Generation Exit Unit) :
    Program Generation Exit Unit :=
  when (mask &&& relation ≠ 0) do
    modify fun s => { s with indexPlanCount := s.indexPlanCount + 1 }
    program

/-- The five loops. -/
def generate (mask : UInt32) : Program Generation Exit Unit := do
  whereMasked mask relationContainer (generateContainers index maximumOutputRecords entityId)
  whereMasked mask relationConstituent (generateConstituents index maximumOutputRecords entityId)
  whereMasked mask relationPredecessor (generatePredecessors index maximumOutputRecords entityId)
  whereMasked mask relationSuccessor (generateSuccessors index maximumOutputRecords entityId)
  whereMasked mask relationCooccur (generateCooccurring index maximumOutputRecords entityId)

/-- `CandidateLess` -/
def candidateOrder (candidate : Candidate) : ℕ ×ₗ ℕ ×ₗ ℕ ×ₗ ℕ ×ₗ ℕ ×ₗ ℕ ×ₗ ℕ :=
  toLex (candidate.relation.toNat, toLex (candidate.physicalityId.toNat,
    toLex (candidate.sourceLogicalOrdinal.toNat, toLex (candidate.targetLogicalOrdinal.toNat,
      toLex (candidate.targetEntityId.toNat, toLex (candidate.multiplicity.toNat, candidate.gap.toNat))))))

/-- What the call returns and writes. -/
structure Generated extends Generation where
  returned : Bool
  limited : Bool

/-- `GenerateCandidates` -/
def generateCandidates (sort : Sorting candidateOrder) (mask : UInt32) : Generated :=
  match (generate index maximumOutputRecords entityId mask).eval {} with
  | (.ok _, s) => { s with candidates := sort.sort s.candidates, returned := true, limited := false }
  | (.error .limited, s) => { s with candidates := [], returned := true, limited := true }
  | (.error .failed, s) => { s with returned := false, limited := false }

end Generate

/-! ## The sequences that the runs stand for -/

/-- The elements of a trajectory, one by one. -/
def expanded (occurrences : List CompositionOccurrence) : List Id128 :=
  occurrences.flatMap fun occurrence =>
    List.replicate occurrence.runLength.toNat occurrence.entityId

/-- How often `a` stands directly before `b`. -/
def adjacent (l : List Id128) (a b : Id128) : ℕ := (l.zip l.tail).count (a, b)

/-- The relations between elements and trajectories. -/
inductive Relation
  | container | constituent | predecessor | successor
deriving DecidableEq

namespace Relation

def flag : Relation → UInt32
  | container => relationContainer
  | constituent => relationConstituent
  | predecessor => relationPredecessor
  | successor => relationSuccessor

def converse : Relation → Relation
  | container => constituent
  | constituent => container
  | predecessor => successor
  | successor => predecessor

/-- How often the target is in the relation to the source in a container. -/
def count (container : Container) (source target : Id128) : Relation → ℕ
  | .container =>
    if container.physicality.entityId = target then (expanded container.occurrences).count source
    else 0
  | constituent =>
    if container.physicality.entityId = source then (expanded container.occurrences).count target
    else 0
  | predecessor => adjacent (expanded container.occurrences) target source
  | successor => adjacent (expanded container.occurrences) source target

theorem count_converse (container : Container) (source target : Id128) (relation : Relation) :
    relation.converse.count container target source = relation.count container source target := by
  cases relation <;> rfl

end Relation

section Adjacent

variable {a b : Id128}

@[simp] theorem adjacent_nil : adjacent [] a b = 0 := rfl

@[simp] theorem adjacent_singleton (x : Id128) : adjacent [x] a b = 0 := rfl

theorem adjacent_cons_cons (x y : Id128) (l : List Id128) :
    adjacent (x :: y :: l) a b = (if x = a ∧ y = b then 1 else 0) + adjacent (y :: l) a b := by
  simp [adjacent, List.count_cons, Nat.add_comm]

theorem adjacent_replicate (x : Id128) (k : ℕ) (l : List Id128) :
    adjacent (List.replicate (k + 1) x ++ l) a b =
      (if x = a ∧ x = b then k else 0) + adjacent (x :: l) a b := by
  induction k with
  | zero => simp
  | succ k ih =>
    have : List.replicate (k + 1 + 1) x ++ l = x :: x :: (List.replicate k x ++ l) := by
      simp [List.replicate_succ]
    rw [this, adjacent_cons_cons, ← List.cons_append, ← List.replicate_succ, ih]
    split_ifs <;> omega

theorem adjacent_expanded {occurrences : List CompositionOccurrence} :
    (∀ o ∈ occurrences, 0 < o.runLength.toNat) → adjacent (expanded occurrences) a b =
      (occurrences.map fun o =>
        if o.entityId = a ∧ o.entityId = b then o.runLength.toNat - 1 else 0).sum +
      (List.zipWith (fun o o' => if o.entityId = a ∧ o'.entityId = b then 1 else 0)
        occurrences occurrences.tail).sum := by
  induction occurrences with
  | nil => simp [expanded]
  | cons o os ih =>
    intro hpos
    obtain ⟨k, hk⟩ := Nat.exists_eq_succ_of_ne_zero (hpos o (by simp)).ne'
    have ih := ih fun o' ho' => hpos o' (by simp [ho'])
    cases os with
    | nil => simpa [expanded, hk] using adjacent_replicate o.entityId k []
    | cons o' os =>
      obtain ⟨k', hk'⟩ := Nat.exists_eq_succ_of_ne_zero (hpos o' (by simp)).ne'
      have hexp : expanded (o :: o' :: os) =
          List.replicate (k + 1) o.entityId ++ expanded (o' :: os) := by
        simp [expanded, hk]
      have hhead : expanded (o' :: os) = o'.entityId :: (expanded (o' :: os)).tail := by
        simp [expanded, hk', List.replicate_succ]
      rw [hexp, adjacent_replicate, hhead, adjacent_cons_cons, ← hhead, ih]
      simp [hk]
      omega

theorem count_expanded (occurrences : List CompositionOccurrence) : (expanded occurrences).count a =
      (occurrences.map fun o => if o.entityId = a then o.runLength.toNat else 0).sum := by
  simp [expanded, List.count_flatMap, List.count_replicate, Function.comp_def]

end Adjacent

/-! ## What a call finds -/

/-- The program adds these candidates, if the limits let it. -/
def Emits (program : Program Generation Exit Unit) (candidates : List Candidate) : Prop :=
  ∀ s, program.Ends s (fun _ t => t.candidates = s.candidates ++ candidates)
    fun e _ => e = Exit.limited

namespace Emits

variable {program next : Program Generation Exit Unit} {candidates candidates' : List Candidate}
  {index : Index} {maximum : ℕ}

theorem nothing : Emits (pure ()) [] := fun _ => by simp

theorem charge : Emits (chargeWork index) [] := fun _ => by simp [chargeWork]

theorem append (candidate : Candidate) : Emits (appendCandidate index maximum candidate) [candidate] :=
  fun _ => by simp [appendCandidate]

theorem then_ (h : Emits program candidates) (h' : Emits next candidates') :
    Emits (program >>= fun _ => next) (candidates ++ candidates') := by
  intro s
  refine (h s).bind fun _ t ht => (h' t).mono (fun _ u hu => ?_) fun _ _ he => he
  rw [hu, ht, List.append_assoc]

theorem charged (h : Emits program candidates) :
    Emits (chargeWork index >>= fun _ => program) candidates := charge.then_ h

theorem required {condition : Prop} [Decidable condition] (hc : condition) (h : Emits program candidates) :
    Emits (require condition Exit.failed >>= fun _ => program) candidates := by
  intro s
  rw [ends_require_then]
  exact ⟨fun _ => h s, fun hn => absurd hc hn⟩

theorem ite {condition : Prop} [Decidable condition] (h : condition → Emits program candidates) :
    Emits (when condition program) (if condition then candidates else []) := by
  unfold when
  split
  · exact h ‹_›
  · exact nothing

theorem forM {α : Type} {body : α → Program Generation Exit Unit} {out : α → List Candidate} :
    ∀ {l : List α}, (∀ a ∈ l, Emits (body a) (out a)) → Emits (l.forM body) (l.flatMap out)
  | [], _ => nothing
  | a :: l, h => by
    rw [List.forM_eq_forM, List.forM_cons, List.flatMap_cons]
    exact (h a (by simp)).then_ (forM fun b hb => h b (by simp [hb]))

theorem masked {mask relation : UInt32} (h : Emits program candidates) :
    Emits (whereMasked mask relation program) (if mask &&& relation ≠ 0 then candidates else []) :=
  ite fun _ s => by
    rw [ends_modify_then]
    exact h _

end Emits

/-! ### The complete list -/

section Complete

variable (index : Index) (entityId : Id128)

def predecessorsAt (location : Location) : List Candidate :=
  let container := location.container
  let source := container.occurrence location.occurrenceIndex
  (if 1 < source.runLength then [internalPredecessor container source] else []) ++
    if location.occurrenceIndex ≠ 0 then
      [previousCandidate container (container.occurrence (location.occurrenceIndex - 1)) source]
    else []

def successorsAt (location : Location) : List Candidate :=
  let container := location.container
  let source := container.occurrence location.occurrenceIndex
  (if 1 < source.runLength then [internalSuccessor container source] else []) ++
    if location.occurrenceIndex + 1 < container.occurrences.length then
      [nextCandidate container source (container.occurrence (location.occurrenceIndex + 1))]
    else []

def cooccurringAt (location : Location) : List Candidate :=
  let container := location.container
  let source := container.occurrence location.occurrenceIndex
  (List.range container.occurrences.length).flatMap fun targetIndex =>
    let target := container.occurrence targetIndex
    let same : Bool := targetIndex = location.occurrenceIndex
    if (same && source.runLength ≤ 1) = false ∧
        entitiesCooccur container.occurrences entityId target.entityId then
      [cooccurringCandidate container source target same]
    else []

/-- All the candidates of a relation. -/
def allRelated : Relation → List Candidate
  | .container => (index.occurrencesByEntity entityId).flatMap fun location =>
      [containerCandidate location.container (location.container.occurrence location.occurrenceIndex)]
  | .constituent => (index.containersByEntity entityId).flatMap fun container =>
      container.occurrences.flatMap fun target => [constituentCandidate container target]
  | .predecessor => (index.occurrencesByEntity entityId).flatMap predecessorsAt
  | .successor => (index.occurrencesByEntity entityId).flatMap successorsAt

/-- All the candidates that a mask asks for. -/
def allCandidates (mask : UInt32) : List Candidate :=
  [Relation.container, .constituent, .predecessor, .successor].flatMap (fun relation =>
    if mask &&& relation.flag ≠ 0 then allRelated index entityId relation else []) ++
  if mask &&& relationCooccur ≠ 0 then
    (index.occurrencesByEntity entityId).flatMap (cooccurringAt entityId)
  else []

end Complete

section Sound

variable {index : Index} {maximum : ℕ} {entityId : Id128}

theorem mem_occurrencesByEntity {location : Location}
    (h : location ∈ index.occurrencesByEntity entityId) : location.container ∈ index.containers ∧
      location.occurrenceIndex < location.container.occurrences.length := by
  simp only [Index.occurrencesByEntity, List.mem_flatMap, List.mem_map, List.mem_filter,
    List.mem_range] at h
  obtain ⟨container, hc, j, ⟨hj, -⟩, rfl⟩ := h
  exact ⟨hc, hj⟩

theorem immediatePrecedes_of_next {left right : CompositionOccurrence}
    (hleft : 0 < left.runLength.toNat) (hright : 0 < right.runLength.toNat)
    (hnext : right.logicalOrdinal.toNat = left.logicalOrdinal.toNat + left.runLength.toNat) :
    immediatePrecedes left right := by
  have hlt := right.logicalOrdinal.toNat_lt
  have hrun : left.runLength.toUInt64.toNat = left.runLength.toNat := UInt16.toNat_toUInt64 _
  have hadd : (left.logicalOrdinal + left.runLength.toUInt64).toNat =
      left.logicalOrdinal.toNat + left.runLength.toNat := by
    rw [toNat_add_of_lt (by omega), hrun]
  have hsub : (left.logicalOrdinal + left.runLength.toUInt64 - 1).toNat =
      left.logicalOrdinal.toNat + left.runLength.toNat - 1 := by
    rw [toNat_sub_of_le (by rw [hadd]; simp; omega), hadd]
    rfl
  have hleft' : left.runLength ≠ 0 := fun h => by simp [h] at hleft
  have hright' : right.runLength ≠ 0 := fun h => by simp [h] at hright
  have hcount : ¬ maxWord - left.logicalOrdinal < left.runLength.toUInt64 - 1 := by
    rw [UInt64.lt_iff_toNat_lt, toNat_sub_of_le (by simp; omega),
      toNat_sub_of_le (by simp; omega), toNat_maxWord, hrun]
    omega
  have hwrap : ¬ maxWord - left.runLength.toUInt64 < left.logicalOrdinal := by
    rw [UInt64.lt_iff_toNat_lt, toNat_sub_of_le (by simp; omega), toNat_maxWord, hrun]
    omega
  have hlast : left.logicalOrdinal + left.runLength.toUInt64 - 1 < right.logicalOrdinal := by
    rw [UInt64.lt_iff_toNat_lt, hsub]
    omega
  have heq : left.logicalOrdinal + left.runLength.toUInt64 = right.logicalOrdinal :=
    UInt64.toNat_inj.1 (hadd.trans hnext.symm)
  have hprecedes : occurrencePrecedes left right = some true := by
    rw [occurrencePrecedes, if_neg (by simp [hleft', hright']), if_neg hcount, decide_eq_true hlast]
  rw [immediatePrecedes, if_neg (by simp [hprecedes]), if_neg (by simp [hleft', hwrap])]
  exact decide_eq_true heq

theorem immediatePrecedes_of_consecutive {occurrences : List CompositionOccurrence} :
    ∀ {ordinal j : ℕ}, Consecutive occurrences ordinal → j + 1 < occurrences.length →
      immediatePrecedes (occurrences.getD j .zero) (occurrences.getD (j + 1) .zero) := by
  induction occurrences with
  | nil => simp
  | cons o os ih =>
    rintro ordinal j ⟨ho, hrun, -, hos⟩ hj
    cases j with
    | zero =>
      obtain _ | ⟨o', os⟩ := os
      · simp at hj
      · exact immediatePrecedes_of_next hrun hos.2.1 (ho ▸ hos.1)
    | succ j => simpa using ih hos (by simpa using hj)

theorem generate_emits (hindex : index.Sound) (mask : UInt32) :
    Emits (generate index maximum entityId mask) (allCandidates index entityId mask) := by
  have hruns : ∀ location ∈ index.occurrencesByEntity entityId,
      Consecutive location.container.occurrences 1 ∧
        location.occurrenceIndex < location.container.occurrences.length := by
    intro location h
    obtain ⟨hc, hj⟩ := mem_occurrencesByEntity h
    exact ⟨hindex.runs _ hc, hj⟩
  have hcontainers : Emits (generateContainers index maximum entityId)
      (allRelated index entityId .container) :=
    .forM fun location _ => .charged (.append _)
  have hconstituents : Emits (generateConstituents index maximum entityId)
      (allRelated index entityId .constituent) :=
    .forM fun container _ => .forM fun target _ => .charged (.append _)
  have hpredecessors : Emits (generatePredecessors index maximum entityId)
      (allRelated index entityId .predecessor) := by
    refine .forM fun location h => .charged (.then_ (.ite fun _ => .append _) (.ite fun h0 => ?_))
    obtain ⟨hc, hj⟩ := hruns location h
    have := immediatePrecedes_of_consecutive hc (j := location.occurrenceIndex - 1) (by omega)
    rw [Nat.sub_add_cancel (by omega)] at this
    exact .required this (.append _)
  have hsuccessors : Emits (generateSuccessors index maximum entityId)
      (allRelated index entityId .successor) := by
    refine .forM fun location h => .charged (.then_ (.ite fun _ => .append _) (.ite fun h0 => ?_))
    exact .required (immediatePrecedes_of_consecutive (hruns location h).1 h0) (.append _)
  have hcooccurring : Emits (generateCooccurring index maximum entityId)
      ((index.occurrencesByEntity entityId).flatMap (cooccurringAt entityId)) :=
    .forM fun location _ => .forM fun target _ => .charged (.ite fun _ => .append _)
  simp only [allCandidates, List.flatMap_cons, List.flatMap_nil, List.append_nil, List.append_assoc]
  exact hcontainers.masked.then_ (hconstituents.masked.then_ (hpredecessors.masked.then_
    (hsuccessors.masked.then_ hcooccurring.masked)))

end Sound

/-! ## Counting -/

/-- The multiplicities of a relation's candidates, summed for a target in a physicality. -/
def multiplicity (candidates : List Candidate) (relation : Relation) (target : Id128)
    (physicality : Digest256) : ℕ :=
  (candidates.map fun candidate => if candidate.relation = relation.flag ∧
    candidate.targetEntityId = target ∧ candidate.physicalityId = physicality then
      candidate.multiplicity.toNat else 0).sum

section Counting

variable {relation : Relation} {target : Id128} {physicality : Digest256} {α : Type}

theorem multiplicity_perm {l l' : List Candidate} (h : l.Perm l') :
    multiplicity l relation target physicality = multiplicity l' relation target physicality :=
  (h.map _).sum_eq

@[simp] theorem multiplicity_append (l l' : List Candidate) :
    multiplicity (l ++ l') relation target physicality =
      multiplicity l relation target physicality + multiplicity l' relation target physicality := by
  simp [multiplicity]

theorem multiplicity_flatMap (l : List α) (out : α → List Candidate) :
    multiplicity (l.flatMap out) relation target physicality =
      (l.map fun a => multiplicity (out a) relation target physicality).sum := by
  induction l with
  | nil => rfl
  | cons a l ih => simp [ih]

theorem multiplicity_other {l : List Candidate} (h : ∀ c ∈ l, c.relation ≠ relation.flag) :
    multiplicity l relation target physicality = 0 := by
  refine List.sum_eq_zero fun n hn => ?_
  obtain ⟨c, hc, rfl⟩ := List.mem_map.1 hn
  simp [h c hc]

theorem sum_map_filter (p : α → Bool) (f : α → ℕ) (l : List α) :
    ((l.filter p).map f).sum = (l.map fun a => if p a then f a else 0).sum := by
  induction l with
  | nil => rfl
  | cons a l ih => cases h : p a <;> simp [h, ih]

theorem sum_range_getD (f : α → ℕ) (d : α) (l : List α) :
    ((List.range l.length).map fun j => f (l.getD j d)).sum = (l.map f).sum := by
  induction l with
  | nil => rfl
  | cons a l ih => simp [List.range_succ_eq_map, Function.comp_def, ← ih]

theorem sum_range_zipWith (f : α → α → ℕ) (d : α) (l' : List α) : ∀ {l : List α},
    l'.length ≤ l.length → ((List.range l'.length).map fun j => f (l.getD j d) (l'.getD j d)).sum =
      (List.zipWith f l l').sum := by
  induction l' with
  | nil => simp
  | cons a' l' ih =>
    intro l h
    cases l with
    | nil => simp at h
    | cons a l =>
      simp [List.range_succ_eq_map, Function.comp_def, ← ih (Nat.le_of_succ_le_succ h)]

theorem sum_range_previous (f : α → α → ℕ) (d : α) (l : List α) : ((List.range l.length).map fun j =>
      if j ≠ 0 then f (l.getD (j - 1) d) (l.getD j d) else 0).sum =
      (List.zipWith f l l.tail).sum := by
  cases l with
  | nil => rfl
  | cons a l =>
    rw [List.tail_cons, ← sum_range_zipWith f d l (by simp)]
    simp [List.range_succ_eq_map, Function.comp_def]

theorem sum_range_next (f : α → α → ℕ) (d : α) (l : List α) : ((List.range l.length).map fun j =>
      if j + 1 < l.length then f (l.getD j d) (l.getD (j + 1) d) else 0).sum =
      (List.zipWith f l l.tail).sum := by
  cases l with
  | nil => rfl
  | cons a l =>
    rw [List.tail_cons, ← sum_range_zipWith f d l (by simp), List.length_cons, List.range_succ,
      List.map_append, List.sum_append]
    simp only [List.map_cons, List.map_nil, lt_irrefl, if_false, List.sum_singleton, add_zero]
    refine congrArg List.sum (List.map_congr_left fun j hj => ?_)
    rw [if_pos (by simpa using List.mem_range.1 hj), List.getD_cons_succ]

end Counting

section Related

variable {index : Index} {entityId target : Id128} {physicality : Digest256} {relation : Relation}

theorem multiplicity_locations (out : Location → List Candidate) :
    multiplicity ((index.occurrencesByEntity entityId).flatMap out) relation target physicality =
      (index.containers.map fun c => ((List.range c.occurrences.length).map fun j =>
        if (c.occurrence j).entityId = entityId then
          multiplicity (out ⟨c, j⟩) relation target physicality else 0).sum).sum := by
  rw [Index.occurrencesByEntity, List.flatMap_assoc, multiplicity_flatMap]
  congr 2
  ext c
  simp [List.flatMap_map, multiplicity_flatMap, sum_map_filter]

theorem Consecutive.pos {occurrences : List CompositionOccurrence} :
    ∀ {ordinal : ℕ}, Consecutive occurrences ordinal → ∀ o ∈ occurrences, 0 < o.runLength.toNat := by
  induction occurrences with
  | nil => simp
  | cons o os ih =>
    rintro ordinal ⟨-, hrun, -, hos⟩
    simpa [hrun] using ih hos

theorem internal_toNat (run : UInt16) : (1 < run → (run.toUInt64 - 1).toNat = run.toNat - 1) ∧
    (¬ 1 < run → run.toNat - 1 = 0) := by
  constructor
  · intro h
    have : 1 < run.toNat := UInt16.lt_iff_toNat_lt.1 h
    rw [toNat_sub_of_le (by simp; omega), UInt16.toNat_toUInt64]
    rfl
  · intro h
    have : ¬ 1 < run.toNat := fun hlt => h (UInt16.lt_iff_toNat_lt.2 hlt)
    omega

theorem multiplicity_if {condition : Prop} [Decidable condition] {candidate : Candidate}
    (h : candidate.relation = relation.flag) :
    multiplicity (if condition then [candidate] else []) relation target physicality =
      if condition ∧ candidate.targetEntityId = target ∧ candidate.physicalityId = physicality then
        candidate.multiplicity.toNat else 0 := by
  by_cases hc : condition <;> simp [multiplicity, hc, h]

theorem sum_neighbours {c : Container} (hc : Consecutive c.occurrences 1) (a b : Id128)
    (link : ℕ → ℕ) (hlink : ((List.range c.occurrences.length).map link).sum = (List.zipWith
      (fun o o' : CompositionOccurrence => if o.entityId = a ∧ o'.entityId = b then 1 else 0)
        c.occurrences c.occurrences.tail).sum) : ((List.range c.occurrences.length).map fun j =>
      (if (c.occurrence j).entityId = a ∧ (c.occurrence j).entityId = b then
        (c.occurrence j).runLength.toNat - 1 else 0) + link j).sum =
      adjacent (expanded c.occurrences) a b := by
  rw [List.sum_map_add, hlink, adjacent_expanded hc.pos, ← sum_range_getD _ CompositionOccurrence.zero]
  rfl

theorem multiplicity_predecessorsAt (c : Container) (j : ℕ) :
    multiplicity (predecessorsAt ⟨c, j⟩) .predecessor target physicality =
      (if 1 < (c.occurrence j).runLength ∧ (c.occurrence j).entityId = target ∧
        c.physicality.physicalityId = physicality then
          ((c.occurrence j).runLength.toUInt64 - 1).toNat else 0) +
      if j ≠ 0 ∧ (c.occurrence (j - 1)).entityId = target ∧
        c.physicality.physicalityId = physicality then 1 else 0 := by
  rw [predecessorsAt, multiplicity_append, multiplicity_if rfl, multiplicity_if rfl]
  rfl

theorem multiplicity_successorsAt (c : Container) (j : ℕ) :
    multiplicity (successorsAt ⟨c, j⟩) .successor target physicality =
      (if 1 < (c.occurrence j).runLength ∧ (c.occurrence j).entityId = target ∧
        c.physicality.physicalityId = physicality then
          ((c.occurrence j).runLength.toUInt64 - 1).toNat else 0) +
      if j + 1 < c.occurrences.length ∧ (c.occurrence (j + 1)).entityId = target ∧
        c.physicality.physicalityId = physicality then 1 else 0 := by
  rw [successorsAt, multiplicity_append, multiplicity_if rfl, multiplicity_if rfl]
  rfl

theorem multiplicity_allRelated (hindex : index.Sound) :
    multiplicity (allRelated index entityId relation) relation target physicality =
      (index.containers.map fun c => if c.physicality.physicalityId = physicality then
        relation.count c entityId target else 0).sum := by
  cases relation with
  | container =>
    rw [allRelated, multiplicity_locations]
    refine congrArg List.sum (List.map_congr_left fun c _ => ?_)
    refine (sum_range_getD (fun o => if o.entityId = entityId then
      multiplicity [containerCandidate c o] .container target physicality else 0) .zero _).trans ?_
    by_cases hp : c.physicality.physicalityId = physicality <;>
      by_cases ht : c.physicality.entityId = target <;>
      simp [multiplicity, containerCandidate, Relation.flag, Relation.count, count_expanded, hp, ht]
  | constituent =>
    rw [allRelated, multiplicity_flatMap, Index.containersByEntity, sum_map_filter]
    refine congrArg List.sum (List.map_congr_left fun c _ => ?_)
    rw [multiplicity_flatMap]
    by_cases hp : c.physicality.physicalityId = physicality <;>
      by_cases ht : c.physicality.entityId = entityId <;>
      simp [multiplicity, constituentCandidate, Relation.flag, Relation.count, count_expanded, hp, ht]
  | predecessor =>
    rw [allRelated, multiplicity_locations]
    refine congrArg List.sum (List.map_congr_left fun c hc => ?_)
    by_cases hp : c.physicality.physicalityId = physicality
    · rw [if_pos hp, Relation.count, ← sum_neighbours (hindex.runs c hc) _ _ _
        (sum_range_previous _ CompositionOccurrence.zero _)]
      refine congrArg List.sum (List.map_congr_left fun j _ => ?_)
      have := internal_toNat (c.occurrence j).runLength
      rw [multiplicity_predecessorsAt]
      simp only [Container.occurrence] at this ⊢
      grind
    · simp [multiplicity_predecessorsAt, hp]
  | successor =>
    rw [allRelated, multiplicity_locations]
    refine congrArg List.sum (List.map_congr_left fun c hc => ?_)
    by_cases hp : c.physicality.physicalityId = physicality
    · rw [if_pos hp, Relation.count, ← sum_neighbours (hindex.runs c hc) _ _ _
        (sum_range_next _ CompositionOccurrence.zero _)]
      refine congrArg List.sum (List.map_congr_left fun j _ => ?_)
      have := internal_toNat (c.occurrence j).runLength
      rw [multiplicity_successorsAt]
      simp only [Container.occurrence] at this ⊢
      grind
    · simp [multiplicity_successorsAt, hp]

theorem multiplicity_allCandidates (mask : UInt32) :
    multiplicity (allCandidates index entityId mask) relation target physicality =
      if mask &&& relation.flag ≠ 0 then
        multiplicity (allRelated index entityId relation) relation target physicality else 0 := by
  have hrelated : ∀ other : Relation, ∀ c ∈ allRelated index entityId other,
      c.relation = other.flag := by
    intro other c h
    cases other <;> simp only [allRelated, predecessorsAt, successorsAt, List.mem_flatMap] at h <;>
      grind [containerCandidate, constituentCandidate, internalPredecessor, previousCandidate,
        internalSuccessor, nextCandidate, Relation.flag]
  have hcooccurring : ∀ c ∈ (index.occurrencesByEntity entityId).flatMap (cooccurringAt entityId),
      c.relation = relationCooccur := by
    simp only [cooccurringAt, List.mem_flatMap]
    grind [cooccurringCandidate]
  have hrelation : ∀ other : Relation,
      multiplicity (if mask &&& other.flag ≠ 0 then allRelated index entityId other else [])
        relation target physicality = if other = relation then if mask &&& relation.flag ≠ 0 then
          multiplicity (allRelated index entityId relation) relation target physicality else 0
        else 0 := by
    intro other
    by_cases h : other = relation
    · subst h
      rw [if_pos rfl]
      split <;> rfl
    · have hne : other.flag ≠ relation.flag := by
        cases other <;> cases relation <;> first | exact absurd rfl h | decide
      rw [if_neg h]
      split
      · exact multiplicity_other fun c hc => hrelated other c hc ▸ hne
      · rfl
  have hco : multiplicity (if mask &&& relationCooccur ≠ 0 then
      (index.occurrencesByEntity entityId).flatMap (cooccurringAt entityId) else [])
      relation target physicality = 0 := by
    have hne : relationCooccur ≠ relation.flag := by cases relation <;> decide
    split
    · exact multiplicity_other fun c hc => hcooccurring c hc ▸ hne
    · rfl
  rw [allCandidates, multiplicity_append, multiplicity_flatMap, hco]
  simp only [hrelation]
  cases relation <;> simp

end Related

/-! ## The candidates of a request -/

/-- The index is one that creation returns, without bindings or with them. -/
inductive Created (blake3 : Blake3) : Index → Prop
  | base {sort sortPhysicalities physicalities segments boundaryId evidenceEpoch maximum index}
    (h : indexCreateBase blake3 sort sortPhysicalities physicalities segments boundaryId evidenceEpoch
      maximum = .ok index) : Created blake3 index
  | bound {sort sortPhysicalities sortBindings input} {index : BoundIndex}
    (h : indexCreate blake3 sort sortPhysicalities sortBindings input = .ok index) :
    Created blake3 index.toIndex

theorem Created.sound {blake3 : Blake3} {index : Index}
    (h : Created blake3 index) : index.Sound := by
  cases h with
  | base h => exact indexCreateBase_sound h
  | bound h => exact indexCreate_sound h

section Calls

variable {index : Index} {maximum : ℕ} {entityId target : Id128} {sort : Sorting candidateOrder}
  {mask : UInt32} {relation : Relation}

theorem generateCandidates_complete (hindex : index.Sound) :
    let call := generateCandidates index maximum entityId sort mask
    call.returned = true ∧ (call.limited = true → call.candidates = []) ∧
      (call.limited = false → call.candidates.Perm (allCandidates index entityId mask)) := by
  have hrun := (generate_emits hindex mask : Emits (generate index maximum entityId mask) _) {}
  unfold Program.Ends at hrun
  unfold generateCandidates
  rcases heq : (generate index maximum entityId mask).eval {} with ⟨e | _, s⟩
  · rw [heq] at hrun
    obtain rfl : e = Exit.limited := hrun
    simp
  · rw [heq] at hrun
    have hs : s.candidates = allCandidates index entityId mask := by simpa using hrun
    simpa [← hs] using sort.perm _

theorem multiplicity_call (hindex : index.Sound) (hmask : mask &&& relation.flag ≠ 0)
    (hlimited : (generateCandidates index maximum entityId sort mask).limited = false)
    (physicality : Digest256) :
    multiplicity (generateCandidates index maximum entityId sort mask).candidates relation target
      physicality = (index.containers.map fun c => if c.physicality.physicalityId = physicality then
        relation.count c entityId target else 0).sum := by
  rw [multiplicity_perm ((generateCandidates_complete hindex).2.2 hlimited),
    multiplicity_allCandidates, if_pos hmask, multiplicity_allRelated hindex]

theorem sum_of_mem {f : Container → ℕ} {c : Container} {containers : List Container}
    (hnodup : (containers.map (·.physicality.physicalityId)).Nodup) (hc : c ∈ containers) :
    (containers.map fun c' =>
      if c'.physicality.physicalityId = c.physicality.physicalityId then f c' else 0).sum = f c := by
  induction containers with
  | nil => simp at hc
  | cons d ds ih =>
    simp only [List.map_cons, List.nodup_cons, List.mem_map, not_exists, not_and] at hnodup
    rcases List.mem_cons.1 hc with rfl | hc
    · have hzero : (ds.map fun c' => if c'.physicality.physicalityId = c.physicality.physicalityId
          then f c' else 0).sum = 0 := by
        refine List.sum_eq_zero fun n hn => ?_
        obtain ⟨c', hc', rfl⟩ := List.mem_map.1 hn
        exact if_neg (hnodup.1 c' hc')
      simp [hzero]
    · simp [ih hnodup.2 hc, Ne.symm (hnodup.1 c hc)]

end Calls

/-- On every index that is created, a call finds all the candidates, or it is limited and gives
none. Summed by target and physicality, their multiplicities are the counts in the expanded
sequences. So two physicalities of one entity whose runs expand to one sequence give the same
counts, and the converse relation gives a target the count that the relation gave the entity. -/
theorem generateCandidates_counts {blake3 : Blake3} {index index' : Index}
    (hindex : Created blake3 index) (hindex' : Created blake3 index')
    (sort : Sorting candidateOrder) (maximum maximum' : ℕ) (entityId target : Id128)
    (mask mask' : UInt32) (relation : Relation) :
    (let call := generateCandidates index maximum entityId sort mask;
      call.returned = true ∧ (call.limited = true → call.candidates = []) ∧
      (call.limited = false → call.candidates.Perm (allCandidates index entityId mask) ∧
        (mask &&& relation.flag ≠ 0 → ∀ physicality,
          multiplicity call.candidates relation target physicality =
            (index.containers.map fun c => if c.physicality.physicalityId = physicality then
              relation.count c entityId target else 0).sum))) ∧
    (let call := generateCandidates index maximum entityId sort mask;
      let call' := generateCandidates index' maximum' entityId sort mask';
      call.limited = false → call'.limited = false → mask &&& relation.flag ≠ 0 →
      mask' &&& relation.flag ≠ 0 → ∀ c ∈ index.containers, ∀ c' ∈ index'.containers,
        c.physicality.entityId = c'.physicality.entityId →
        expanded c.occurrences = expanded c'.occurrences →
        multiplicity call.candidates relation target c.physicality.physicalityId =
          multiplicity call'.candidates relation target c'.physicality.physicalityId) ∧
    (let call := generateCandidates index maximum entityId sort mask;
      let call' := generateCandidates index maximum' target sort mask';
      call.limited = false → call'.limited = false → mask &&& relation.flag ≠ 0 →
      mask' &&& relation.converse.flag ≠ 0 → ∀ physicality,
        multiplicity call.candidates relation target physicality =
          multiplicity call'.candidates relation.converse entityId physicality) := by
  refine ⟨?_, ?_, ?_⟩
  · intro call
    obtain ⟨hreturned, hlimited, hcomplete⟩ : call.returned = true ∧ _ :=
      generateCandidates_complete hindex.sound
    exact ⟨hreturned, hlimited, fun h => ⟨hcomplete h, fun hmask =>
      multiplicity_call hindex.sound hmask h⟩⟩
  · intro call call' h h' hmask hmask' c hc c' hc' hentity hexpanded
    rw [multiplicity_call hindex.sound hmask h, multiplicity_call hindex'.sound hmask' h',
      sum_of_mem hindex.sound.nodup hc, sum_of_mem hindex'.sound.nodup hc']
    cases relation <;> simp [Relation.count, hentity, hexpanded]
  · intro call call' h h' hmask hmask' physicality
    rw [multiplicity_call hindex.sound hmask h, multiplicity_call hindex.sound hmask' h']
    simp only [Relation.count_converse]

/-- Three elements in two runs. -/
def twoRuns : List Trajectory.Carrier :=
  [![4607182418800017408, 4607182418800017448, 4607182418800017408, 4607182418800148481],
    ![4607182418800017408, 4607182418800017464, 4607182418800017408, 4607182418800082947]]

def twoRunsRecord (physicalityId : Digest256) : PhysicalityRecord :=
  ⟨physicalityId, 9, 1, 1, 1, 1, 4, 0, 0, 0, match Persistence.trajectoryFingerprint digits twoRuns
    with | .ok digest => digest | .error _ => 0, fun _ => 0, 0, 3, 2⟩

def twoRunsId : Digest256 := match Persistence.physicalityIdentify digits (twoRunsRecord 0) with
  | .ok digest => digest | .error _ => 0

def twoRunsSegments : List TrajectorySegmentRecord :=
  twoRuns.zipIdx.map fun (carrier, index) => ⟨twoRunsId, UInt64.ofNat index, carrier, .zero⟩

def twoRunsCreation : Except Status Index :=
  indexCreateBase digits (.insertion _) (.insertion _) [twoRunsRecord twoRunsId] twoRunsSegments 1 1
    100

theorem twoRunsCreation_succeeds : (match twoRunsCreation with
    | .ok index => (index.containers.map fun c => expanded c.occurrences,
        (generateCandidates index 10 5 (.insertion _) 8).limited)
    | .error _ => ([], true)) = ([[5, 5, 7]], false) := by
  decide +kernel

/-- Two neighbours of one entity, and the call for them is not limited. -/
theorem generateCandidates_counts_twoRuns : ∃ index, Created digits index ∧
    (index.containers.map fun c => expanded c.occurrences) = [[5, 5, 7]] ∧ ∀ physicality,
      multiplicity (generateCandidates index 10 5 (.insertion _) 8).candidates .successor 7
        physicality = (index.containers.map fun c => if c.physicality.physicalityId = physicality then
          Relation.successor.count c 5 7 else 0).sum := by
  have hcreation := twoRunsCreation_succeeds
  cases h : twoRunsCreation with
  | error status => simp [h] at hcreation
  | ok index =>
    have hcreated : Created digits index := .base h
    simp only [h, Prod.mk.injEq] at hcreation
    exact ⟨index, hcreated, hcreation.1, ((generateCandidates_counts hcreated hcreated (.insertion _)
      10 10 5 7 8 8 .successor).1.2.2 hcreation.2).2 (by decide)⟩

end Laplace.ObservationQuery
