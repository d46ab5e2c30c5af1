import Laplace.Cognition.Operator

/-!
# Dependent evidence counts once

The loop keeps one constraint for each piece of evidence: the first. That its answer is a refusal
or a conflict depends on the constraints before the first one that is refused.
-/

namespace Laplace.CognitionOperator

open Sorting
open Cognition.Packet (OperatorProgram OperatorField OperatorConstraint OperatorReceipt)

variable {blake3 : Blake3} {sort : Sorting constraintOrder}
  {program : OperatorProgram} {fields : List OperatorField} {fieldCount : ℕ}
  {done constraints constraints' : List OperatorConstraint} {constraint : OperatorConstraint}
  {left middle right : OperatorConstraint} {s s' : Selection} {status : OperatorStatus}

/-! ## The comparison of semantics -/

theorem doubleSame_iff {a b : UInt64} : doubleSame a b = true ↔
    a = b ∨ Standing.doubleIsZero a = true ∧ Standing.doubleIsZero b = true := by
  simp [doubleSame]

theorem sameEvidenceSemantic_iff : sameEvidenceSemantic left right = true ↔
    left.unitsFingerprint = right.unitsFingerprint ∧
      doubleSame left.transportScale right.transportScale = true ∧
      doubleSame left.transportOffset right.transportOffset = true ∧
      doubleSame left.targetValue right.targetValue = true ∧
      doubleSame left.precision right.precision = true ∧ left.sourceClass = right.sourceClass ∧
      left.flags = right.flags ∧
      (left.sourceClass ≠ sourceStanding ∨ left.standing.stateId = right.standing.stateId) := by
  simp [sameEvidenceSemantic, and_assoc]

theorem sameEvidenceSemantic_refl (left : OperatorConstraint) : sameEvidenceSemantic left left = true := by
  simp [sameEvidenceSemantic_iff, doubleSame_iff]

theorem sameEvidenceSemantic_symm (h : sameEvidenceSemantic left right = true) :
    sameEvidenceSemantic right left = true := by
  rw [sameEvidenceSemantic_iff] at h ⊢
  simp only [doubleSame_iff] at h ⊢
  grind

theorem sameEvidenceSemantic_trans (h : sameEvidenceSemantic left middle = true)
    (h' : sameEvidenceSemantic middle right = true) : sameEvidenceSemantic left right = true := by
  rw [sameEvidenceSemantic_iff] at h h' ⊢
  simp only [doubleSame_iff] at h h' ⊢
  grind

/-! ## What is asked of the constraints -/

/-- A selected constraint that is subject to the comparison of evidence. -/
def Dependent (program : OperatorProgram) (constraint : OperatorConstraint) : Prop :=
  constraintEligible program constraint = true ∧ constraint.sourceClass ≠ sourcePhysicality

instance Dependent.decidable : Decidable (Dependent program constraint) :=
  inferInstanceAs (Decidable (_ ∧ _))

/-- Two constraints with one evidence dependence key and different semantic content. -/
structure Conflicting (program : OperatorProgram) (left right : OperatorConstraint) : Prop where
  dependent_left : Dependent program left
  dependent_right : Dependent program right
  key : makeEvidenceKey left = makeEvidenceKey right
  semantic : sameEvidenceSemantic left right = false

/-- No constraint is refused. -/
structure Sound (blake3 : Blake3) (fieldCount : ℕ)
    (constraints : List OperatorConstraint) : Prop where
  valid : ∀ constraint ∈ constraints, constraintValid blake3 fieldCount constraint = true
  nodup : (constraints.map OperatorConstraint.constraintId).Nodup

/-- No evidence dependence key is that of two constraints. -/
def KeysDistinct (program : OperatorProgram) (constraints : List OperatorConstraint) : Prop :=
  ∀ left ∈ constraints, ∀ right ∈ constraints, Dependent program left → Dependent program right →
    makeEvidenceKey left = makeEvidenceKey right → left = right

theorem sound_concat : Sound blake3 fieldCount (done ++ [constraint]) ↔
    Sound blake3 fieldCount done ∧ constraintValid blake3 fieldCount constraint = true ∧
      constraint.constraintId ∉ done.map OperatorConstraint.constraintId := by
  constructor
  · rintro ⟨hvalid, hnodup⟩
    simp only [List.mem_append, List.mem_singleton, List.map_append, List.map_cons, List.map_nil,
      List.nodup_append, List.nodup_singleton, true_and] at hvalid hnodup
    exact ⟨⟨fun c hc => hvalid c (.inl hc), hnodup.1⟩, hvalid _ (.inr rfl),
      fun hmem => hnodup.2 _ hmem _ rfl rfl⟩
  · rintro ⟨⟨hvalid, hnodup⟩, hconstraint, hfresh⟩
    refine ⟨List.forall_mem_append.2 ⟨hvalid, List.forall_mem_singleton.2 hconstraint⟩, ?_⟩
    · simp only [List.map_append, List.map_cons, List.map_nil, List.nodup_append,
        List.nodup_singleton, List.mem_singleton, true_and]
      exact ⟨hnodup, fun id hid _ heq hsame => hfresh (heq ▸ hsame ▸ hid)⟩

theorem KeysDistinct.of_concat (h : KeysDistinct program (done ++ [constraint])) :
    KeysDistinct program done := fun left hleft right hright =>
  h left (List.mem_append_left _ hleft) right (List.mem_append_left _ hright)

/-! ## Counters -/

def tally (sourceClass : UInt32) (constraints : List OperatorConstraint) : UInt64 :=
  UInt64.ofNat (constraints.countP fun constraint => constraint.sourceClass = sourceClass)

theorem tally_concat (sourceClass : UInt32) : tally sourceClass (constraints ++ [constraint]) =
    if constraint.sourceClass = sourceClass then tally sourceClass constraints + 1
    else tally sourceClass constraints := by
  unfold tally
  split <;> simp [*, UInt64.ofNat_add]

/-- The counters are those of the constraints that are kept. -/
structure Counted (s : Selection) : Prop where
  planes_nodup : s.planes.Nodup
  mem_planes : ∀ plane, plane ∈ s.planes ↔ plane ∈ s.selected.map OperatorConstraint.planeId
  physicality : s.physicalityConstraintCount = tally sourcePhysicality s.selected
  testimony : s.testimonyConstraintCount = tally sourceTestimony s.selected
  derived : s.derivedConstraintCount = tally sourceDerived s.selected

theorem Counted.select (h : Counted s) : Counted (s.select constraint) where
  planes_nodup := h.planes_nodup.insert
  mem_planes plane := by simp [Selection.select, h.mem_planes, or_comm]
  physicality := by simp [Selection.select, tally_concat, h.physicality]
  testimony := by simp [Selection.select, tally_concat, h.testimony]
  derived := by simp [Selection.select, tally_concat, h.derived]

/-! ## The loop -/

/-- What the loop keeps of the constraints before it. -/
structure Summary (blake3 : Blake3) (program : OperatorProgram) (fieldCount : ℕ)
    (done : List OperatorConstraint) (s : Selection) : Prop where
  sound : Sound blake3 fieldCount done
  ids : ∀ id, id ∈ s.constraintIds ↔ id ∈ done.map OperatorConstraint.constraintId
  sublist : s.selected.Sublist (done.filter (constraintEligible program))
  roots : ∀ key found, s.dependentRoots key = some found ↔
    found ∈ s.selected ∧ found.sourceClass ≠ sourcePhysicality ∧ makeEvidenceKey found = key
  kept : ∀ constraint ∈ done, Dependent program constraint →
    ∃ found, s.dependentRoots (makeEvidenceKey constraint) = some found ∧
      sameEvidenceSemantic found constraint = true
  first : ∀ key found, s.dependentRoots key = some found →
    done.find? (fun c => Dependent program c ∧ makeEvidenceKey c = key) = some found
  whole : KeysDistinct program done → s.selected = done.filter (constraintEligible program)
  deduplicated : ∃ count, s.deduplicatedDependentCount = UInt64.ofNat count ∧
    s.selected.length + count = (done.filter (constraintEligible program)).length
  counted : Counted s

theorem summary_nil : Summary blake3 program fieldCount [] {} where
  sound := ⟨nofun, .nil⟩
  ids := by simp
  sublist := .slnil
  roots := by simp
  kept := nofun
  first := by simp
  whole _ := rfl
  deduplicated := ⟨0, rfl, rfl⟩
  counted := ⟨.nil, by simp, rfl, rfl, rfl⟩

namespace Summary

variable (h : Summary blake3 program fieldCount done s)
include h

theorem mem {found : OperatorConstraint} (hfound : found ∈ s.selected) :
    found ∈ done ∧ constraintEligible program found = true :=
  List.mem_filter.1 (h.sublist.subset hfound)

theorem agree : ¬ ∃ left ∈ done, ∃ right ∈ done, Conflicting program left right := by
  rintro ⟨left, hleft, right, hright, hconflict⟩
  obtain ⟨found, hfound, hsame⟩ := h.kept left hleft hconflict.dependent_left
  obtain ⟨found', hfound', hsame'⟩ := h.kept right hright hconflict.dependent_right
  rw [← hconflict.key, hfound, Option.some_inj] at hfound'
  rw [← hfound'] at hsame'
  have htrue := sameEvidenceSemantic_trans (sameEvidenceSemantic_symm hsame) hsame'
  exact absurd (htrue.symm.trans hconflict.semantic) Bool.noConfusion

theorem keys_nodup :
    ((s.selected.filter fun c => c.sourceClass ≠ sourcePhysicality).map makeEvidenceKey).Nodup := by
  have hnodup : s.selected.Nodup := (h.sublist.trans List.filter_sublist).nodup h.sound.nodup.of_map
  refine (hnodup.filter _).map_on fun left hleft right hright hkey => ?_
  simp only [List.mem_filter, decide_eq_true_eq] at hleft hright
  have hroot := (h.roots _ left).2 ⟨hleft.1, hleft.2, rfl⟩
  have hroot' := (h.roots _ right).2 ⟨hright.1, hright.2, hkey.symm⟩
  exact Option.some_inj.1 (hroot.symm.trans hroot')

/-! A constraint that is not refused -/

variable (hsound : Sound blake3 fieldCount (done ++ [constraint]))
include hsound

theorem skip (heligible : ¬ constraintEligible program constraint = true) :
    Summary blake3 program fieldCount (done ++ [constraint])
      { s with constraintIds := constraint.constraintId :: s.constraintIds } where
  sound := hsound
  ids := by simp [h.ids, or_comm]
  sublist := by simpa [heligible] using h.sublist
  roots := h.roots
  kept := List.forall_mem_append.2
    ⟨h.kept, List.forall_mem_singleton.2 fun hdependent => absurd hdependent.1 heligible⟩
  first key found hfound := by rw [List.find?_append, h.first key found hfound]; rfl
  whole hkeys := by simpa [heligible] using h.whole hkeys.of_concat
  deduplicated := by simpa [heligible] using h.deduplicated
  counted := ⟨h.counted.1, h.counted.2, h.counted.3, h.counted.4, h.counted.5⟩

theorem select (heligible : constraintEligible program constraint = true)
    (dependentRoots : EvidenceKey → Option OperatorConstraint)
    (hroots : ∀ key found, dependentRoots key = some found ↔ s.dependentRoots key = some found ∨
      found = constraint ∧ constraint.sourceClass ≠ sourcePhysicality ∧ makeEvidenceKey constraint = key) :
    Summary blake3 program fieldCount (done ++ [constraint]) (Selection.select
      { s with constraintIds := constraint.constraintId :: s.constraintIds, dependentRoots }
      constraint) where
  sound := hsound
  ids := by simp [Selection.select, h.ids, or_comm]
  sublist := by simpa [heligible, Selection.select] using h.sublist
  roots key found := by
    rw [Selection.select, hroots, h.roots]
    simp only [List.mem_append, List.mem_singleton]
    constructor
    · rintro (⟨hmem, hrest⟩ | ⟨rfl, hrest⟩)
      exacts [⟨.inl hmem, hrest⟩, ⟨.inr rfl, hrest⟩]
    · rintro ⟨hmem | rfl, hrest⟩
      exacts [.inl ⟨hmem, hrest⟩, .inr ⟨rfl, hrest⟩]
  kept c hc hdependent := by
    rcases List.mem_append.1 hc with hc | hc
    · obtain ⟨found, hfound, hsame⟩ := h.kept c hc hdependent
      exact ⟨found, (hroots _ _).2 (.inl hfound), hsame⟩
    · obtain rfl := List.mem_singleton.1 hc
      exact ⟨c, (hroots _ _).2 (.inr ⟨rfl, hdependent.2, rfl⟩), sameEvidenceSemantic_refl c⟩
  first key found hfound := by
    rw [List.find?_append]
    cases hbefore : done.find? fun c => Dependent program c ∧ makeEvidenceKey c = key with
    | none =>
      rcases (hroots key found).1 hfound with hroot | ⟨rfl, hclass, hkey⟩
      · exact absurd (hbefore.symm.trans (h.first key found hroot)) nofun
      · simp [Dependent, heligible, hclass, hkey]
    | some before =>
      obtain ⟨hdependent, rfl⟩ := by simpa using List.find?_some hbefore
      obtain ⟨root, hroot, -⟩ := h.kept before (List.mem_of_find?_eq_some hbefore) hdependent
      have hsame : root = found :=
        Option.some_inj.1 (((hroots _ root).2 (.inl hroot)).symm.trans hfound)
      rw [← hbefore, h.first _ root hroot, hsame]
      rfl
  whole hkeys := by simpa [heligible, Selection.select] using h.whole hkeys.of_concat
  deduplicated := by
    obtain ⟨count, hcount, hlength⟩ := h.deduplicated
    refine ⟨count, hcount, ?_⟩
    simp [Selection.select, heligible]
    omega
  counted := Counted.select ⟨h.counted.1, h.counted.2, h.counted.3, h.counted.4, h.counted.5⟩

theorem drop (hdependent : Dependent program constraint) {found : OperatorConstraint}
    (hfound : s.dependentRoots (makeEvidenceKey constraint) = some found)
    (hsame : sameEvidenceSemantic found constraint = true) :
    Summary blake3 program fieldCount (done ++ [constraint]) { s with
        constraintIds := constraint.constraintId :: s.constraintIds
        deduplicatedDependentCount := s.deduplicatedDependentCount + 1 } where
  sound := hsound
  ids := by simp [h.ids, or_comm]
  sublist := by simpa [hdependent.1] using h.sublist.trans (List.sublist_append_left _ _)
  roots := h.roots
  kept := List.forall_mem_append.2
    ⟨h.kept, List.forall_mem_singleton.2 fun _ => ⟨found, hfound, hsame⟩⟩
  first key found hfound := by rw [List.find?_append, h.first key found hfound]; rfl
  whole hkeys := by
    -- The constraint that was kept first has another id.
    obtain ⟨hmem, hclass, hkey⟩ := (h.roots _ _).1 hfound
    obtain ⟨hdone, heligible⟩ := h.mem hmem
    have heq := hkeys found (List.mem_append_left _ hdone) constraint (by simp)
      ⟨heligible, hclass⟩ hdependent hkey
    exact absurd (List.mem_map_of_mem (heq ▸ hdone)) (sound_concat.1 hsound).2.2
  deduplicated := by
    obtain ⟨count, hcount, hlength⟩ := h.deduplicated
    refine ⟨count + 1, by simp [hcount, UInt64.ofNat_add], ?_⟩
    simp [hdependent.1]
    omega
  counted := ⟨h.counted.1, h.counted.2, h.counted.3, h.counted.4, h.counted.5⟩

end Summary

theorem consider_cases (h : Summary blake3 program fieldCount done s) (constraint : OperatorConstraint) :
    (consider blake3 program fieldCount s constraint = .error .constraintInvalid ∧
      ¬ Sound blake3 fieldCount (done ++ [constraint])) ∨ Sound blake3 fieldCount (done ++ [constraint]) ∧
      ((consider blake3 program fieldCount s constraint = .error .evidenceConflict ∧
        ∃ found ∈ done, Conflicting program found constraint) ∨
      ∃ s', consider blake3 program fieldCount s constraint = .ok s' ∧
        Summary blake3 program fieldCount (done ++ [constraint]) s') := by
  unfold consider
  by_cases hvalid : constraintValid blake3 fieldCount constraint = true
  swap
  · exact .inl ⟨by simp [hvalid], fun hsound => hvalid (sound_concat.1 hsound).2.1⟩
  by_cases hid : constraint.constraintId ∈ s.constraintIds
  · exact .inl ⟨by simp [hid], fun hsound => (sound_concat.1 hsound).2.2 ((h.ids _).1 hid)⟩
  have hsound := sound_concat.2 ⟨h.sound, hvalid, fun hmem => hid ((h.ids _).2 hmem)⟩
  refine .inr ⟨hsound, ?_⟩
  by_cases heligible : constraintEligible program constraint = true
  swap
  · exact .inr ⟨_, by simp [hvalid, hid, heligible], h.skip hsound heligible⟩
  by_cases hclass : constraint.sourceClass = sourcePhysicality
  · exact .inr ⟨_, by simp [hvalid, hid, heligible, hclass],
      h.select hsound heligible s.dependentRoots fun key found => by simp [hclass]⟩
  cases hroot : s.dependentRoots (makeEvidenceKey constraint) with
  | none =>
    refine .inr ⟨_, by simp [hvalid, hid, heligible, hclass, hroot],
      h.select hsound heligible
      (Function.update s.dependentRoots (makeEvidenceKey constraint) (some constraint))
      fun key found => ?_⟩
    by_cases hkey : key = makeEvidenceKey constraint
    · simp [hkey, hroot, hclass, eq_comm]
    · simp [Function.update_of_ne hkey, Ne.symm hkey]
  | some found =>
    by_cases hsame : sameEvidenceSemantic found constraint = true
    · exact .inr ⟨_, by simp [hvalid, hid, heligible, hclass, hroot, hsame],
        h.drop hsound ⟨heligible, hclass⟩ hroot hsame⟩
    · obtain ⟨hmem, hfound, hkey⟩ := (h.roots _ _).1 hroot
      exact .inl ⟨by simp [hvalid, hid, heligible, hclass, hroot, hsame], found, (h.mem hmem).1,
        ⟨(h.mem hmem).2, hfound⟩, ⟨heligible, hclass⟩, hkey, by simpa using hsame⟩

/-! ## Runs -/

/-- Two constraints conflict before any is refused. -/
def ConflictFirst (blake3 : Blake3) (program : OperatorProgram) (fieldCount : ℕ)
    (constraints : List OperatorConstraint) : Prop :=
  ∃ before after, constraints = before ++ after ∧ Sound blake3 fieldCount before ∧
    ∃ left ∈ before, ∃ right ∈ before, Conflicting program left right

theorem considerAll_concat : considerAll blake3 program fields (done ++ [constraint]) =
    (considerAll blake3 program fields done).bind
      fun s => consider blake3 program fields.length s constraint := by
  simp only [considerAll, List.foldlM_append, List.foldlM_cons, List.foldlM_nil, bind_pure]
  rfl

theorem considerAll_cases (blake3 : Blake3) (program : OperatorProgram)
    (fields : List OperatorField) (constraints : List OperatorConstraint) :
    (considerAll blake3 program fields constraints = .error .constraintInvalid ∧
      ¬ Sound blake3 fields.length constraints) ∨
    (considerAll blake3 program fields constraints = .error .evidenceConflict ∧
      ConflictFirst blake3 program fields.length constraints) ∨
    ∃ s, considerAll blake3 program fields constraints = .ok s ∧
      Summary blake3 program fields.length constraints s := by
  induction constraints using List.reverseRecOn with
  | nil => exact .inr (.inr ⟨_, rfl, summary_nil⟩)
  | append_singleton done constraint ih =>
    rw [considerAll_concat]
    rcases ih with ⟨hrun, hsound⟩ | ⟨hrun, before, after, rfl, hbefore⟩ | ⟨s, hrun, hs⟩
    · exact .inl ⟨by rw [hrun]; rfl, fun h => hsound (sound_concat.1 h).1⟩
    · exact .inr (.inl ⟨by rw [hrun]; rfl, before, after ++ [constraint], List.append_assoc _ _ _, hbefore⟩)
    · rw [hrun]
      rcases consider_cases hs constraint with h | ⟨hsound, ⟨h, found, hfound, hconflict⟩ | h⟩
      · exact .inl h
      · exact .inr (.inl ⟨h, _, [], (List.append_nil _).symm, hsound, found,
          List.mem_append_left _ hfound, constraint, by simp, hconflict⟩)
      · exact .inr (.inr h)

theorem considerAll_append_error (constraints : List OperatorConstraint)
    (h : considerAll blake3 program fields done = .error status) :
    considerAll blake3 program fields (done ++ constraints) = .error status := by
  induction constraints using List.reverseRecOn with
  | nil => simpa using h
  | append_singleton before constraint ih =>
    rw [← List.append_assoc, considerAll_concat, ih]
    rfl

theorem considerAll_conflict_iff :
    considerAll blake3 program fields constraints = .error .evidenceConflict ↔
      ConflictFirst blake3 program fields.length constraints := by
  constructor
  · intro h
    rcases considerAll_cases blake3 program fields constraints with
      h' | ⟨-, hconflict⟩ | ⟨s, h', -⟩
    · simp [h] at h'
    · exact hconflict
    · simp [h] at h'
  · rintro ⟨before, after, rfl, hsound, hconflict⟩
    rcases considerAll_cases blake3 program fields before with ⟨-, h⟩ | ⟨h, -⟩ | ⟨s, -, hs⟩
    · exact absurd hsound h
    · exact considerAll_append_error _ h
    · exact absurd hconflict hs.agree

theorem considerAll_ok (h : considerAll blake3 program fields constraints = .ok s) :
    Summary blake3 program fields.length constraints s := by
  rcases considerAll_cases blake3 program fields constraints with
    ⟨h', -⟩ | ⟨h', -⟩ | ⟨s', h', hs⟩
  · simp [h] at h'
  · simp [h] at h'
  · rw [h, Except.ok.injEq] at h'
    rwa [h']

/-! ## The answer -/

/-- The program and the fields are not refused. -/
structure Admitted (program : OperatorProgram) (fields : List OperatorField) : Prop where
  nonempty : fields ≠ []
  program_valid : programValid program = true
  fields_valid : ∀ field ∈ fields, fieldValid field = true
  nodup : (fields.map OperatorField.fieldId).Nodup

/-- What is made of the loop's answer. -/
def answer (blake3 : Blake3) (sort : Sorting constraintOrder)
    (program : OperatorProgram) (fields : List OperatorField) (constraintCount : ℕ) :
    Except OperatorStatus Selection → OperatorStatus × OperatorReceipt × Option Operator
  | .error status =>
    (status, emptyReceipt (if status = .invalidArgument then 0 else status.code), none)
  | .ok s =>
    if s.selected = [] then (.empty, emptyReceipt OperatorStatus.empty.code, none)
    else
      let value := assemble blake3 sort program fields constraintCount s
      (.ok, value.receipt, some value)

theorem operatorCreate_eq (h : Admitted program fields) (hne : constraints ≠ []) :
    operatorCreate blake3 sort program fields constraints = answer blake3 sort program fields
      constraints.length (considerAll blake3 program fields constraints) := by
  have hfields : fields.all fieldValid = true := List.all_eq_true.2 h.fields_valid
  simp only [operatorCreate, build, List.isEmpty_iff, h.nonempty, hne, h.program_valid, hfields,
    h.nodup, Bool.or_eq_true, or_self, decide_true, Bool.and_self, Bool.not_true,
    Bool.false_eq_true, if_false]
  cases considerAll blake3 program fields constraints with
  | error status => rfl
  | ok s => by_cases hs : s.selected = [] <;> simp [answer, hs]

theorem operatorCreate_of_not_admitted (blake3 : Blake3)
    (sort : Sorting constraintOrder) (h : ¬ Admitted program fields)
    (hempty : constraints = [] ↔ constraints' = []) :
    operatorCreate blake3 sort program fields constraints =
      operatorCreate blake3 sort program fields constraints' ∧
    (operatorCreate blake3 sort program fields constraints).1 ≠ .evidenceConflict ∧
    (operatorCreate blake3 sort program fields constraints).2.2 = none := by
  have hisEmpty : constraints.isEmpty = constraints'.isEmpty := by
    rw [Bool.eq_iff_iff, List.isEmpty_iff, List.isEmpty_iff, hempty]
  unfold operatorCreate build
  rw [hisEmpty]
  split_ifs with hnone hprogram hfields
  · simp
  · simp
  · simp
  · simp only [Bool.or_eq_true, List.isEmpty_iff, not_or, Bool.not_eq_true', Bool.not_eq_false,
      Bool.and_eq_true, List.all_eq_true, decide_eq_true_eq] at hnone hprogram hfields
    exact absurd ⟨hnone.1, hprogram, hfields.1, hfields.2⟩ h

theorem operatorCreate_conflict_iff :
    (operatorCreate blake3 sort program fields constraints).1 = .evidenceConflict ↔
      Admitted program fields ∧ ConflictFirst blake3 program fields.length constraints := by
  rw [← considerAll_conflict_iff]
  by_cases hadmitted : Admitted program fields
  swap
  · simp [hadmitted, (operatorCreate_of_not_admitted blake3 sort hadmitted
      (Iff.refl (constraints = []))).2.1]
  by_cases hne : constraints = []
  · simp [hne, operatorCreate, build, considerAll, pure, Except.pure]
  · rw [operatorCreate_eq hadmitted hne]
    cases considerAll blake3 program fields constraints with
    | error status => simp [answer, hadmitted]
    | ok s => by_cases hs : s.selected = [] <;> simp [answer, hs]

theorem operatorCreate_some {value : Operator}
    (h : (operatorCreate blake3 sort program fields constraints).2.2 = some value) :
    ∃ s, Summary blake3 program fields.length constraints s ∧
      value = assemble blake3 sort program fields constraints.length s := by
  by_cases hadmitted : Admitted program fields
  swap
  · simp [(operatorCreate_of_not_admitted blake3 sort hadmitted (Iff.refl (constraints = []))).2.2] at h
  by_cases hne : constraints = []
  · simp [hne, operatorCreate, build] at h
  rw [operatorCreate_eq hadmitted hne] at h
  cases hrun : considerAll blake3 program fields constraints with
  | error status => simp [hrun, answer] at h
  | ok s =>
    by_cases hs : s.selected = []
    · simp [hrun, answer, hs] at h
    · exact ⟨s, considerAll_ok hrun, by simpa [hrun, answer, hs, eq_comm] using h⟩

/-- **Dependent evidence is counted once**, and a conflict is one between two selected constraints
of which neither is of a physicality, before any constraint is refused. -/
theorem operatorCreate_dependent_once (hcount : constraints.length < 2 ^ 64) :
    ((operatorCreate blake3 sort program fields constraints).1 = .evidenceConflict ↔
      Admitted program fields ∧ ConflictFirst blake3 program fields.length constraints) ∧
    ∀ value, (operatorCreate blake3 sort program fields constraints).2.2 = some value →
      ((value.constraints.filter fun c => c.sourceClass ≠ sourcePhysicality).map makeEvidenceKey).Nodup ∧
      value.receipt.selectedConstraintCount.toNat = value.constraints.length ∧
      value.receipt.selectedConstraintCount.toNat + value.receipt.deduplicatedDependentCount.toNat =
          constraints.countP (constraintEligible program) := by
  refine ⟨operatorCreate_conflict_iff, fun value hvalue => ?_⟩
  obtain ⟨s, hs, rfl⟩ := operatorCreate_some hvalue
  have hperm := sort.perm s.selected
  obtain ⟨count, hdeduplicated, hlength⟩ := hs.deduplicated
  rw [← List.countP_eq_length_filter] at hlength
  have hle : constraints.countP (constraintEligible program) ≤ constraints.length :=
    List.countP_le_length
  have hselected : (UInt64.ofNat s.selected.length).toNat = s.selected.length :=
    Checked.toNat_ofNat (by omega)
  have hcountNat : (UInt64.ofNat count).toNat = count :=
    Checked.toNat_ofNat (by omega)
  refine ⟨(((hperm.filter _).map _).nodup_iff).2 hs.keys_nodup, ?_, ?_⟩
  · exact hselected.trans hperm.length_eq.symm
  · change (UInt64.ofNat s.selected.length).toNat + s.deduplicatedDependentCount.toNat = _
    rw [hdeduplicated, hselected, hcountNat, hlength]

def oneFamily : OperatorProgram := ⟨1, 1, 1, 1, 1, [11], 7, 0, one, operatorVersion, 0⟩

def twoFields : List OperatorField := [⟨1, 1, 0, 0, 1, 0, 1, 0⟩, ⟨2, 1, 0, 0, 1, 0, 1, 0⟩]

/-- A constraint of the two fields; the pattern of its target is `target`. -/
def between (id receipt : Digest256) (sourceClass : UInt32) (root : Digest256) (target : UInt64) :
    OperatorConstraint :=
  ⟨id, 1, 1, 1, root, receipt, 0, 1, one, 0, target, one, 11, sourceClass, 1, transportIdentity,
    constraintHasTarget, 0, {}⟩

def copies : List OperatorConstraint :=
  [between 1 1 sourceTestimony 5 0, between 2 2 sourceTestimony 5 0]

/-- Two testimonies of one root for two targets, and two copies of one. -/
theorem operatorCreate_dependent_once_copies :
    ((operatorCreate (fun _ => 0) (stable _) oneFamily twoFields
        [between 1 1 sourceTestimony 5 0, between 2 1 sourceTestimony 5 one]).1 =
          .evidenceConflict ↔ Admitted oneFamily twoFields ∧ ConflictFirst (fun _ => 0) oneFamily 2
          [between 1 1 sourceTestimony 5 0, between 2 1 sourceTestimony 5 one]) ∧
    ∃ value, (operatorCreate (fun _ => 0) (stable _) oneFamily twoFields copies).2.2 = some value ∧
      ((value.constraints.filter fun c => c.sourceClass ≠ sourcePhysicality).map makeEvidenceKey).Nodup ∧
      value.receipt.selectedConstraintCount.toNat = value.constraints.length ∧
      value.receipt.selectedConstraintCount.toNat + value.receipt.deduplicatedDependentCount.toNat = 2 := by
  obtain ⟨value, hvalue⟩ : ∃ value, (operatorCreate (fun _ => 0) (stable _) oneFamily twoFields
      copies).2.2 = some value := ⟨_, rfl⟩
  have hcopies : copies.countP (constraintEligible oneFamily) = 2 := by decide
  have hcount : copies.length < 2 ^ 64 := by decide
  refine ⟨(operatorCreate_dependent_once (by decide)).1, value, hvalue, ?_⟩
  rw [← hcopies]
  exact (operatorCreate_dependent_once hcount).2 value hvalue

/-- Constraints of a physicality with one key and two targets are both accepted. -/
theorem physicality_not_compared : constraintEligible oneFamily (between 1 1 sourcePhysicality 0 0) = true ∧
    constraintEligible oneFamily (between 2 1 sourcePhysicality 0 one) = true ∧
    makeEvidenceKey (between 1 1 sourcePhysicality 0 0) =
      makeEvidenceKey (between 2 1 sourcePhysicality 0 one) ∧
    sameEvidenceSemantic (between 1 1 sourcePhysicality 0 0) (between 2 1 sourcePhysicality 0 one) = false ∧
    (operatorCreate (fun _ => 0) (stable _) oneFamily twoFields
      [between 1 1 sourcePhysicality 0 0, between 2 1 sourcePhysicality 0 one]).1 = .ok := by
  decide +kernel

/-! ## Orders -/

theorem Sound.perm (h : Sound blake3 fieldCount constraints) (hperm : constraints.Perm constraints') :
    Sound blake3 fieldCount constraints' :=
  ⟨fun c hc => h.valid c (hperm.mem_iff.2 hc), (hperm.map _).nodup_iff.1 h.nodup⟩

/-- Two constraints that neither is refused by itself nor repeats the other's id conflict. -/
def Contradiction (blake3 : Blake3) (program : OperatorProgram) (fieldCount : ℕ)
    (constraints : List OperatorConstraint) : Prop :=
  ∃ left ∈ constraints, ∃ right ∈ constraints, Sound blake3 fieldCount [left, right] ∧
    Conflicting program left right

theorem ConflictFirst.contradiction (h : ConflictFirst blake3 program fieldCount constraints) :
    Contradiction blake3 program fieldCount constraints := by
  obtain ⟨before, after, rfl, hsound, left, hleft, right, hright, hconflict⟩ := h
  refine ⟨left, List.mem_append_left _ hleft, right, List.mem_append_left _ hright, ⟨?_, ?_⟩, hconflict⟩
  · simp [hsound.valid left hleft, hsound.valid right hright]
  · have hne : left.constraintId ≠ right.constraintId := by
      intro heq
      have hsame := List.inj_on_of_nodup_map hsound.nodup hleft hright heq
      have htrue := sameEvidenceSemantic_refl left
      rw [← hsame] at hconflict
      exact absurd (htrue.symm.trans hconflict.semantic) Bool.noConfusion
    simpa using hne

/-- The conditions under which the order of the constraints does not matter. -/
def OrderFree (blake3 : Blake3) (program : OperatorProgram) (fieldCount : ℕ)
    (constraints : List OperatorConstraint) : Prop :=
  (Sound blake3 fieldCount constraints ↔ Contradiction blake3 program fieldCount constraints) ∨
    Sound blake3 fieldCount constraints ∧ KeysDistinct program constraints

theorem exists_perm_of_not_nodup : ∀ {constraints : List OperatorConstraint},
    ¬ (constraints.map OperatorConstraint.constraintId).Nodup → ∃ first second rest,
      first.constraintId = second.constraintId ∧ constraints.Perm (first :: second :: rest)
  | [], h => absurd List.nodup_nil h
  | constraint :: constraints, h => by
    by_cases hmem : constraint.constraintId ∈ constraints.map OperatorConstraint.constraintId
    · obtain ⟨other, hother, heq⟩ := List.mem_map.1 hmem
      exact ⟨constraint, other, constraints.erase other, heq.symm, (List.perm_cons_erase hother).cons _⟩
    · obtain ⟨first, second, rest, heq, hperm⟩ := exists_perm_of_not_nodup
        fun hnodup => h (List.nodup_cons.2 ⟨hmem, hnodup⟩)
      exact ⟨first, second, constraint :: rest, heq, (hperm.cons _).trans
        ((List.Perm.swap _ _ _).trans ((List.Perm.swap _ _ _).cons _))⟩

theorem considerAll_invalid (hsound : ¬ Sound blake3 fields.length constraints)
    (hnone : ¬ Contradiction blake3 program fields.length constraints) :
    considerAll blake3 program fields constraints = .error .constraintInvalid := by
  rcases considerAll_cases blake3 program fields constraints with
    ⟨hrun, -⟩ | ⟨-, hconflict⟩ | ⟨s, -, hs⟩
  · exact hrun
  · exact absurd hconflict.contradiction hnone
  · exact absurd hs.sound hsound

theorem exists_perm_invalid (h : ¬ Sound blake3 fields.length constraints) :
    ∃ other, constraints.Perm other ∧
      considerAll blake3 program fields other = .error .constraintInvalid := by
  -- A refused constraint comes first, or two with one id do.
  have hprefix (before after : List OperatorConstraint) (hperm : constraints.Perm (before ++ after))
      (hsound : ¬ Sound blake3 fields.length before)
      (hids : ∀ left ∈ before, ∀ right ∈ before, left.constraintId = right.constraintId) :
      ∃ other, constraints.Perm other ∧
        considerAll blake3 program fields other = .error .constraintInvalid := by
    refine ⟨_, hperm, considerAll_append_error after (considerAll_invalid hsound ?_)⟩
    rintro ⟨left, hleft, right, hright, hpair, -⟩
    exact absurd hpair.nodup (by simp [hids left hleft right hright])
  by_cases hnodup : (constraints.map OperatorConstraint.constraintId).Nodup
  · have hinvalid : ∃ c ∈ constraints, ¬ constraintValid blake3 fields.length c = true := by
      by_contra hall
      push Not at hall
      exact h ⟨hall, hnodup⟩
    obtain ⟨c, hc, hinvalid⟩ := hinvalid
    exact hprefix [c] _ (List.perm_cons_erase hc) (fun hs => hinvalid (hs.valid c (by simp)))
      (by simp)
  · obtain ⟨first, second, rest, heq, hperm⟩ := exists_perm_of_not_nodup hnodup
    exact hprefix [first, second] rest hperm (fun hs => by simpa [heq] using hs.nodup)
      (by simp [heq])

theorem exists_perm_conflict (h : Contradiction blake3 program fields.length constraints) :
    ∃ other, constraints.Perm other ∧
      considerAll blake3 program fields other = .error .evidenceConflict := by
  obtain ⟨left, hleft, right, hright, hsound, hconflict⟩ := h
  have hne : right ≠ left := fun heq => by simpa [heq] using hsound.nodup
  have hrest := (List.perm_cons_erase ((List.mem_erase_of_ne hne).2 hright)).cons left
  refine ⟨_, (List.perm_cons_erase hleft).trans hrest, considerAll_conflict_iff.2
    ⟨[left, right], _, rfl, hsound, left, by simp, right, by simp, hconflict⟩⟩

theorem KeysDistinct.perm (h : KeysDistinct program constraints)
    (hperm : constraints.Perm constraints') : KeysDistinct program constraints' :=
  fun left hleft right hright => h left (hperm.mem_iff.2 hleft) right (hperm.mem_iff.2 hright)

theorem Contradiction.perm (h : Contradiction blake3 program fieldCount constraints)
    (hperm : constraints.Perm constraints') : Contradiction blake3 program fieldCount constraints' := by
  obtain ⟨left, hleft, right, hright, h⟩ := h
  exact ⟨left, hperm.mem_iff.1 hleft, right, hperm.mem_iff.1 hright, h⟩

theorem considerAll_sound (hsound : Sound blake3 fields.length constraints)
    (hnone : ¬ Contradiction blake3 program fields.length constraints) :
    ∃ s, considerAll blake3 program fields constraints = .ok s ∧
      Summary blake3 program fields.length constraints s := by
  rcases considerAll_cases blake3 program fields constraints with ⟨-, h⟩ | ⟨-, h⟩ | h
  · exact absurd hsound h
  · exact absurd h.contradiction hnone
  · exact h

theorem tally_perm (hperm : constraints.Perm constraints') (sourceClass : UInt32) :
    tally sourceClass constraints = tally sourceClass constraints' :=
  congrArg UInt64.ofNat (hperm.countP_eq _)

theorem assemble_congr (h : Summary blake3 program fieldCount constraints s)
    (h' : Summary blake3 program fieldCount constraints' s') (hperm : constraints.Perm constraints')
    (hkeys : KeysDistinct program constraints) : assemble blake3 sort program fields constraints.length s =
      assemble blake3 sort program fields constraints'.length s' := by
  have hwhole := h.whole hkeys
  have hwhole' := h'.whole (hkeys.perm hperm)
  have hselected : s.selected.Perm s'.selected := by
    rw [hwhole, hwhole']
    exact hperm.filter _
  have hzero {done : List OperatorConstraint} {s : Selection}
      (h : Summary blake3 program fieldCount done s)
      (hwhole : s.selected = done.filter (constraintEligible program)) :
      s.deduplicatedDependentCount = 0 := by
    obtain ⟨count, hcount, hlength⟩ := h.deduplicated
    rw [hwhole, Nat.add_eq_left] at hlength
    rw [hcount, hlength]
    rfl
  have hids : (s.selected.map constraintOrder).Nodup := by
    have hnodup := (h.sublist.trans List.filter_sublist).map OperatorConstraint.constraintId
    have hmap := (hnodup.nodup h.sound.nodup).map fun _ _ => BitVec.eq_of_toNat_eq
    rwa [List.map_map] at hmap
  have hplanes : s.planes.length = s'.planes.length :=
    ((List.perm_ext_iff_of_nodup h.counted.planes_nodup h'.counted.planes_nodup).2 fun plane => by
      rw [h.counted.mem_planes, h'.counted.mem_planes, (hselected.map _).mem_iff]).length_eq
  unfold assemble
  rw [sort.sort_congr sort hselected hids, hselected.length_eq, hperm.length_eq, hplanes,
    hzero h hwhole, hzero h' hwhole', h.counted.physicality, h.counted.testimony,
    h.counted.derived, h'.counted.physicality, h'.counted.testimony, h'.counted.derived,
    tally_perm hselected, tally_perm hselected, tally_perm hselected]

theorem KeysDistinct.not_contradiction (h : KeysDistinct program constraints) :
    ¬ Contradiction blake3 program fieldCount constraints := by
  rintro ⟨left, hleft, right, hright, -, hconflict⟩
  have heq := h left hleft right hright hconflict.dependent_left hconflict.dependent_right
    hconflict.key
  have hsemantic := hconflict.semantic
  rw [← heq, sameEvidenceSemantic_refl] at hsemantic
  cases hsemantic

theorem operatorCreate_perm (h : Admitted program fields)
    (hfree : OrderFree blake3 program fields.length constraints) (hperm : constraints.Perm constraints') :
    operatorCreate blake3 sort program fields constraints' =
      operatorCreate blake3 sort program fields constraints := by
  by_cases hne : constraints = []
  · rw [hne, List.nil_perm] at hperm
    rw [hne, hperm]
  have hne' : constraints' ≠ [] := fun hnil => hne (by simpa [hnil] using hperm)
  rw [operatorCreate_eq h hne, operatorCreate_eq h hne']
  rcases hfree with hiff | ⟨hsound, hkeys⟩
  · rw [hperm.length_eq]
    congr 1
    by_cases hsound : Sound blake3 fields.length constraints
    · obtain ⟨left, hleft, right, hright, -, hconflict⟩ := hiff.1 hsound
      rw [considerAll_conflict_iff.2 ⟨constraints, [], (List.append_nil _).symm, hsound, left,
        hleft, right, hright, hconflict⟩, considerAll_conflict_iff.2 ⟨constraints', [],
        (List.append_nil _).symm, hsound.perm hperm, left, hperm.mem_iff.1 hleft, right,
        hperm.mem_iff.1 hright, hconflict⟩]
    · rw [considerAll_invalid hsound fun hc => hsound (hiff.2 hc),
        considerAll_invalid (fun hs => hsound (hs.perm hperm.symm))
          fun hc => hsound (hiff.2 (hc.perm hperm.symm))]
  · obtain ⟨s, hrun, hs⟩ := considerAll_sound hsound hkeys.not_contradiction
    obtain ⟨s', hrun', hs'⟩ :=
      considerAll_sound (hsound.perm hperm) (hkeys.perm hperm).not_contradiction
    have hselected : s.selected = [] ↔ s'.selected = [] := by
      rw [hs.whole hkeys, hs'.whole (hkeys.perm hperm), ← List.length_eq_zero_iff,
        (hperm.filter _).length_eq, List.length_eq_zero_iff]
    simp only [hrun, hrun', answer, hselected, assemble_congr hs hs' hperm hkeys]

theorem first_kept (hs : Summary blake3 program fieldCount constraints s)
    (hs' : Summary blake3 program fieldCount (constraint :: constraints') s')
    (hdependent : Dependent program constraint) {count count' : ℕ}
    (hsame : answer blake3 sort program fields count' (.ok s') =
      answer blake3 sort program fields count (.ok s)) :
    s.dependentRoots (makeEvidenceKey constraint) = some constraint := by
  obtain ⟨found, hfound, -⟩ := hs'.kept constraint List.mem_cons_self hdependent
  obtain rfl : constraint = found := by simpa [hdependent] using hs'.first _ _ hfound
  have hmem := ((hs'.roots _ _).1 hfound).1
  by_cases hempty : s.selected = []
  · simp [answer, hempty, List.ne_nil_of_mem hmem] at hsame
  · simp only [answer, hempty, List.ne_nil_of_mem hmem, if_false, Prod.mk.injEq,
      Option.some.injEq, true_and] at hsame
    have hsort : sort.sort s'.selected = sort.sort s.selected :=
      congrArg Operator.constraints hsame.2
    rw [← (sort.perm _).mem_iff, hsort, (sort.perm _).mem_iff] at hmem
    exact (hs.roots _ _).2 ⟨hmem, hdependent.2, rfl⟩

/-- **The order of the constraints matters** where two of them that the program selects share a
dependence key, and where a conflict and a refusal race. -/
theorem operatorCreate_orderFree_iff : (∀ constraints', constraints.Perm constraints' →
      operatorCreate blake3 sort program fields constraints' =
        operatorCreate blake3 sort program fields constraints) ↔
    ¬ Admitted program fields ∨ OrderFree blake3 program fields.length constraints := by
  constructor
  · intro hall
    by_contra hboth
    obtain ⟨hadmitted, hfree⟩ := not_or.1 hboth
    rw [not_not] at hadmitted
    have hne : constraints ≠ [] := by
      rintro rfl
      exact hfree (.inr ⟨⟨nofun, .nil⟩, nofun⟩)
    have hanswer {other : List OperatorConstraint} (hperm : constraints.Perm other) :=
      (show operatorCreate blake3 sort program fields other = _ from operatorCreate_eq hadmitted
        fun hnil => hne (by simpa [hnil] using hperm)).symm.trans (hall other hperm)
    by_cases hsound : Sound blake3 fields.length constraints
    · have hnone : ¬ Contradiction blake3 program fields.length constraints :=
        fun hc => hfree (.inl ⟨fun _ => hc, fun _ => hsound⟩)
      obtain ⟨s, hrun, hs⟩ := considerAll_sound hsound hnone
      refine hfree (.inr ⟨hsound, fun left hleft right hright hdependent hdependent' hkey => ?_⟩)
      have hkept {c : OperatorConstraint} (hc : c ∈ constraints) (hdependent : Dependent program c) :
          s.dependentRoots (makeEvidenceKey c) = some c := by
        have hperm := List.perm_cons_erase hc
        obtain ⟨s', hrun', hs'⟩ := considerAll_sound (hsound.perm hperm)
          fun hcontradiction => hnone (hcontradiction.perm hperm.symm)
        have hsame := (hanswer hperm).trans (hanswer (.refl _)).symm
        rw [hrun, hrun'] at hsame
        exact first_kept hs hs' hdependent hsame
      exact Option.some_inj.1 ((hkept hleft hdependent).symm.trans (hkey ▸ hkept hright hdependent'))
    · have hconflict : Contradiction blake3 program fields.length constraints := by
        by_contra hnone
        exact hfree (.inl ⟨fun h => absurd h hsound, fun h => absurd h hnone⟩)
      obtain ⟨first, hfirst, hrun⟩ := exists_perm_conflict hconflict
      obtain ⟨second, hsecond, hrun'⟩ : ∃ other, constraints.Perm other ∧
          considerAll blake3 program fields other = .error .constraintInvalid :=
        exists_perm_invalid hsound
      have hsame := (hanswer hfirst).trans (hanswer hsecond).symm
      rw [hrun, hrun'] at hsame
      exact absurd (congrArg Prod.fst hsame) (by simp [answer])
  · rintro (hrefused | hfree) constraints' hperm
    · refine (operatorCreate_of_not_admitted blake3 sort hrefused ?_).1
      rw [← List.length_eq_zero_iff, ← hperm.length_eq, List.length_eq_zero_iff]
    · by_cases hadmitted : Admitted program fields
      · exact operatorCreate_perm hadmitted hfree hperm
      · refine (operatorCreate_of_not_admitted blake3 sort hadmitted ?_).1
        rw [← List.length_eq_zero_iff, ← hperm.length_eq, List.length_eq_zero_iff]

/-- Of two copies of a testimony the first to arrive is kept. -/
theorem first_copy_kept : ¬ ∀ constraints',
    [between 1 1 sourceTestimony 5 0, between 2 2 sourceTestimony 5 0].Perm constraints' →
      operatorCreate (fun _ => 0) (stable _) oneFamily twoFields constraints' =
        operatorCreate (fun _ => 0) (stable _) oneFamily twoFields
          [between 1 1 sourceTestimony 5 0, between 2 2 sourceTestimony 5 0] := by
  intro h
  have hsame := congrArg (fun result => result.2.2.map Operator.constraints) (h _ (.swap _ _ _))
  have hkept : some ((stable constraintOrder).sort [between 2 2 sourceTestimony 5 0]) =
      some ((stable constraintOrder).sort [between 1 1 sourceTestimony 5 0]) := hsame
  rw [stable_sort (List.pairwise_singleton _ _),
    stable_sort (List.pairwise_singleton _ _)] at hkept
  exact absurd hkept (by decide)

end Laplace.CognitionOperator
