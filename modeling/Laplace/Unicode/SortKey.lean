import Laplace.Lib.Lexicographic
import Laplace.Lib.Utf8
import Laplace.Unicode.Contractions

/-!
# Sort keys (unicode_ducet.cpp:735-842)

The levels of a key end with a weight of zero, and the last part of it is the normalized sequence
itself, each position with the length of its code in front. Comparing two keys byte by byte compares
the levels in turn and then the normalized sequences.
-/

namespace Laplace.Unicode

open Utf8

/-! ## The program -/

/-- `LAPLACE_UNICODE_POSITION_MAXIMUM` -/
def positionMaximum : ℕ := 0x10ffff

/-- `laplace_unicode_position_encode` (identity.c:42) -/
def positionEncode (position : ℕ) : Option (List UInt8) :=
  if position > positionMaximum then none else some (encodeWord (UInt32.ofNat position))

/-- `AppendU16Be` -/
def appendU16Be (value : UInt16) : List UInt8 := [(value >>> 8).toUInt8, value.toUInt8]

/-- The body of the loop of `AppendIdenticalPositions`. -/
def appendIdenticalPosition (position : ℕ) : Option (List UInt8) :=
  match positionEncode position with
  | none => none
  | some encoded =>
    if encoded.length = 0 ∨ encoded.length > 4 then none
    else some (UInt8.ofNat encoded.length :: encoded)

/-- `AppendIdenticalPositions` -/
def appendIdenticalPositions (normalized : PositionSequence) : Option (List UInt8) := do
  let parts ← normalized.mapM appendIdenticalPosition
  return parts.flatten

/-- `LAPLACE_UNICODE_UCA_NON_IGNORABLE` -/
def ucaNonIgnorable : UInt8 := 0

/-- `LAPLACE_UNICODE_UCA_SHIFTED` -/
def ucaShifted : UInt8 := 1

/-- `WeightedElement` -/
structure WeightedElement where
  primary : UInt16
  secondary : UInt16
  tertiary : UInt16
  quaternary : UInt16
deriving DecidableEq, Repr

/-- `weight[level]` -/
def WeightedElement.weight (value : WeightedElement) : ℕ → UInt16
  | 0 => value.primary
  | 1 => value.secondary
  | 2 => value.tertiary
  | _ => value.quaternary

/-- The weights of an element, and whether the next one follows a variable element. -/
def weighElement (alternateHandling : UInt8) (followingVariable : Bool) (source : CollationElement) :
    WeightedElement × Bool :=
  if alternateHandling = ucaShifted then
    if source.isVariable ∧ source.primary ≠ 0 then (⟨0, 0, 0, source.primary⟩, true)
    else if source.primary = 0 ∧ followingVariable then (⟨0, 0, 0, 0⟩, followingVariable)
    else
      (⟨source.primary, source.secondary, source.tertiary,
        if source.primary ≠ 0 ∨ source.secondary ≠ 0 ∨ source.tertiary ≠ 0 then 0xffff else 0⟩,
        if source.primary ≠ 0 then false else followingVariable)
  else (⟨source.primary, source.secondary, source.tertiary, 0⟩, followingVariable)

/-- The first loop of `FormSortKey`. -/
def weighElements (alternateHandling : UInt8) :
    Bool → List CollationElement → List WeightedElement
  | _, [] => []
  | followingVariable, source :: rest =>
    let weighed := weighElement alternateHandling followingVariable source
    weighed.1 :: weighElements alternateHandling weighed.2 rest

/-- The weights that are not zero of a level. -/
def levelWeights (alternateHandling : UInt8) (elements : List CollationElement) (level : ℕ) :
    List UInt16 :=
  ((weighElements alternateHandling false elements).map fun value => value.weight level).filter
    fun weight => weight ≠ 0

/-- `FormSortKey` -/
def formSortKey (normalized : PositionSequence) (sourceElements : List CollationElement)
    (alternateHandling : UInt8) : Option (List UInt8) :=
  if alternateHandling ≠ ucaNonIgnorable ∧ alternateHandling ≠ ucaShifted then none
  else
    let levels := if alternateHandling = ucaShifted then 4 else 3
    let weights := (List.range levels).flatMap fun level =>
      (if level ≠ 0 then appendU16Be 0 else []) ++
        (levelWeights alternateHandling sourceElements level).flatMap appendU16Be
    match appendIdenticalPositions normalized with
    | none => none
    | some identical => some (weights ++ appendU16Be 0 ++ identical)

/-- `LAPLACE_UNICODE_DUCET_EXPLICIT` and the following. -/
inductive Provenance
  | explicit | implicit | hangul | lupSurrogateExtension
deriving DecidableEq, Repr

/-- `CalculatedCollation` -/
structure CalculatedCollation where
  normalized : PositionSequence
  elements : List CollationElement
  key : List UInt8
  provenance : Provenance
deriving DecidableEq, Repr

/-- The provenance that `CalculateCollation` gives. -/
def provenanceOf (sequence : PositionSequence) (usedImplicit : Bool) : Provenance :=
  match sequence with
  | [position] =>
    if 0xac00 ≤ position ∧ position ≤ 0xd7a3 then .hangul
    else if 0xd800 ≤ position ∧ position ≤ 0xdfff then .lupSurrogateExtension
    else if usedImplicit then .implicit else .explicit
  | _ => if usedImplicit then .implicit else .explicit

/-- `CalculateCollation` -/
def calculateCollation (table : DucetTable) (core : CoreTable) (sequence : PositionSequence)
    (alternateHandling : UInt8) : Option CalculatedCollation := do
  let normalized ← normalizeNfd core sequence
  let (elements, usedImplicit) ← produceCollationElements table core normalized
  let key ← formSortKey normalized elements alternateHandling
  if normalized.length ≤ 0xffffffff ∧ elements.length ≤ 0xffffffff then
    some ⟨normalized, elements, key, provenanceOf sequence usedImplicit⟩
  else none

/-! ## Weights -/

theorem compare_u16_toNat (left right : UInt16) : compare left right = compare left.toNat right.toNat := by
  show compareOfLessAndEq left right = compareOfLessAndEq left.toNat right.toNat
  unfold compareOfLessAndEq
  simp only [UInt16.lt_iff_toNat_lt, UInt16.toNat_inj]

theorem appendU16Be_eq (value : UInt16) : appendU16Be value =
    [UInt8.ofNat (value.toNat / 256), UInt8.ofNat (value.toNat % 256)] := by
  have hlt := value.toNat_lt
  unfold appendU16Be
  congr 1
  · rw [← UInt8.toNat_inj, UInt16.toNat_toUInt8, UInt16.toNat_shiftRight, UInt8.toNat_ofNat']
    rw [Nat.shiftRight_eq_div_pow]
    rfl
  · congr 1
    rw [← UInt8.toNat_inj, UInt16.toNat_toUInt8, UInt8.toNat_ofNat']
    omega

theorem orderedCode_u16 : OrderedCode appendU16Be fun _ => True := by
  intro left right _ _ rest rest'
  have hleft := left.toNat_lt
  have hright := right.toNat_lt
  rw [appendU16Be_eq, appendU16Be_eq, List.cons_append, List.cons_append, List.cons_append,
    List.cons_append, List.nil_append, List.nil_append, List.compare_cons_cons,
    List.compare_cons_cons, compare_ofNat (by omega) (by omega),
    compare_ofNat (Nat.mod_lt _ (by decide)) (Nat.mod_lt _ (by decide)), ← Ordering.then_assoc,
    compare_div_mod (by decide), compare_u16_toNat]

/-- A level with its end. -/
def levelCode (weights : List UInt16) : List UInt8 := weights.flatMap appendU16Be ++ appendU16Be 0

theorem compare_zero_lt {weight : UInt16} (h : weight ≠ 0) : compare 0 weight = .lt := by
  rw [compare_u16_toNat, Nat.compare_eq_lt]
  exact Nat.pos_of_ne_zero fun hzero => h (UInt16.toNat_inj.1 hzero)

theorem orderedCode_level : OrderedCode levelCode fun weights => ∀ weight ∈ weights, weight ≠ 0 := by
  have hcode : OrderedCode appendU16Be fun weight => weight ≠ 0 :=
    fun _ _ _ _ => orderedCode_u16 trivial trivial
  refine hcode.terminated (fun weight hne rest rest' => ?_) fun weight hne rest rest' => ?_
  · rw [orderedCode_u16 trivial trivial, compare_zero_lt hne]
    rfl
  · rw [orderedCode_u16 trivial trivial, Std.OrientedOrd.eq_swap, compare_zero_lt hne]
    rfl

/-! ## Positions -/

theorem compare_continuation (left right : ℕ) :
    compare (continuation left) (continuation right) = compare (left % 64) (right % 64) := by
  have hleft := Nat.mod_lt left (show 0 < 64 by decide)
  have hright := Nat.mod_lt right (show 0 < 64 by decide)
  rw [continuation, continuation, compare_ofNat (by omega) (by omega), compare_add_left]

/-- How many bytes the code of a position has. -/
def positionLength (position : ℕ) : ℕ :=
  if position ≤ 0x7f then 1 else if position ≤ 0x7ff then 2 else if position ≤ 0xffff then 3 else 4

theorem encode_length (position : ℕ) : (encode position).length = positionLength position := by
  unfold encode positionLength
  split_ifs <;> rfl

variable {position : ℕ}

theorem positionEncode_eq (h : position ≤ positionMaximum) :
    positionEncode position = some (encode position) := by
  have hword : (UInt32.ofNat position).toNat = position :=
    UInt32.toNat_ofNat_of_lt' (Nat.lt_of_le_of_lt h (by decide))
  rw [positionEncode, if_neg (Nat.not_lt.2 h), encodeWord_eq (by rwa [hword]), hword]

theorem positionEncode_range {encoded : List UInt8} (h : positionEncode position = some encoded) :
    position ≤ positionMaximum := by
  unfold positionEncode at h
  split at h
  · cases h
  · exact Nat.not_lt.1 ‹_›

/-- What is appended for a position. -/
def positionCode (position : ℕ) : List UInt8 :=
  UInt8.ofNat (positionLength position) :: encode position

theorem positionLength_le (position : ℕ) : 0 < positionLength position ∧ positionLength position ≤ 4 := by
  unfold positionLength
  split_ifs <;> decide

theorem appendIdenticalPosition_eq (h : position ≤ positionMaximum) :
    appendIdenticalPosition position = some (positionCode position) := by
  have hlength := positionLength_le position
  unfold appendIdenticalPosition
  rw [positionEncode_eq h]
  dsimp only
  rw [encode_length, if_neg (by omega)]
  rfl

theorem appendIdenticalPosition_range {code : List UInt8}
    (h : appendIdenticalPosition position = some code) : position ≤ positionMaximum := by
  unfold appendIdenticalPosition at h
  split at h
  · cases h
  · exact positionEncode_range ‹_›

theorem positionLength_lt {left right : ℕ} (h : positionLength left < positionLength right) :
    left < right := by
  unfold positionLength at h
  split_ifs at h <;> omega

theorem compare_encode {left right : ℕ} (hleft : left ≤ positionMaximum)
    (hright : right ≤ positionMaximum) (h : positionLength left = positionLength right)
    (rest rest' : List UInt8) : compare (encode left ++ rest) (encode right ++ rest') =
      (compare left right).then (compare rest rest') := by
  have hbase : 0 < 64 := by decide
  unfold positionMaximum at hleft hright
  unfold positionLength at h
  unfold encode
  -- only the four cases of equal lengths remain
  split_ifs at h ⊢ <;> cases h <;>
    simp only [List.cons_append, List.nil_append, List.compare_cons_cons, compare_continuation]
  · rw [compare_ofNat (by omega) (by omega)]
  · rw [compare_ofNat (by omega) (by omega), compare_add_left, ← Ordering.then_assoc, compare_div_mod hbase]
  · rw [compare_ofNat (by omega) (by omega), compare_add_left, ← Ordering.then_assoc,
      compare_div_mod hbase, ← Ordering.then_assoc, compare_div_mod hbase]
  · rw [compare_ofNat (by omega) (by omega), compare_add_left, ← Ordering.then_assoc,
      compare_div_mod hbase, ← Ordering.then_assoc, compare_div_mod hbase, ← Ordering.then_assoc,
      compare_div_mod hbase]

theorem orderedCode_position : OrderedCode positionCode fun position => position ≤ positionMaximum := by
  intro left right hleft hright rest rest'
  have hl := positionLength_le left
  have hr := positionLength_le right
  rw [positionCode, positionCode, List.cons_append, List.cons_append, List.compare_cons_cons,
    compare_ofNat (by omega) (by omega)]
  rcases Nat.lt_trichotomy (positionLength left) (positionLength right) with h | h | h
  · rw [Nat.compare_eq_lt.2 h, Nat.compare_eq_lt.2 (positionLength_lt h)]
    rfl
  · rw [Nat.compare_eq_eq.2 h, Ordering.eq_then, compare_encode hleft hright h]
  · rw [Nat.compare_eq_gt.2 h, Nat.compare_eq_gt.2 (positionLength_lt h)]
    rfl

/-! ## Levels -/

/-- What the loop knows behind some elements. -/
def followsVariable (alternateHandling : UInt8) (followingVariable : Bool)
    (elements : List CollationElement) : Bool :=
  elements.foldl (fun following source => (weighElement alternateHandling following source).2)
    followingVariable

theorem weighElements_append (alternateHandling : UInt8) : ∀ (followingVariable : Bool)
    (front back : List CollationElement),
    weighElements alternateHandling followingVariable (front ++ back) =
      weighElements alternateHandling followingVariable front ++
        weighElements alternateHandling (followsVariable alternateHandling followingVariable front) back
  | _, [], _ => rfl
  | followingVariable, source :: front, back => by
    rw [List.cons_append, weighElements, weighElements, weighElements_append, List.cons_append]
    rfl

/-- An element whose primary weight is zero. -/
def CollationElement.Ignorable (element : CollationElement) : Prop := element.primary = 0

/-- An element that is marked variable and not ignorable. -/
def CollationElement.Variable (element : CollationElement) : Prop :=
  element.isVariable = true ∧ ¬ element.Ignorable

variable {element : CollationElement}

theorem weighElement_variable (h : element.Variable) (followingVariable : Bool) :
    weighElement ucaShifted followingVariable element = (⟨0, 0, 0, element.primary⟩, true) := by
  unfold weighElement
  rw [if_pos rfl, if_pos (show element.isVariable = true ∧ element.primary ≠ 0 from h)]

theorem weighElement_ignorable (h : element.Ignorable) :
    weighElement ucaShifted true element = (⟨0, 0, 0, 0⟩, true) := by
  unfold weighElement
  rw [if_pos rfl, if_neg fun hvariable => hvariable.2 h, if_pos ⟨h, rfl⟩]

theorem followsVariable_ignorable : ∀ {elements : List CollationElement},
    (∀ element ∈ elements, element.Ignorable) → followsVariable ucaShifted true elements = true
  | [], _ => rfl
  | element :: elements, h => by
    have hrest := followsVariable_ignorable fun other hother => h other (List.mem_cons_of_mem _ hother)
    rw [followsVariable, List.foldl_cons, weighElement_ignorable (h element List.mem_cons_self)]
    exact hrest

theorem followsVariable_behind {before between : List CollationElement}
    (helement : element.Variable) (hbetween : ∀ other ∈ between, other.Ignorable) :
    followsVariable ucaShifted false (before ++ element :: between) = true := by
  rw [followsVariable, List.foldl_append, List.foldl_cons, weighElement_variable helement]
  exact followsVariable_ignorable hbetween

theorem levelWeights_ignorable {before between after : List CollationElement}
    {ignorable : CollationElement} (helement : element.Variable)
    (hbetween : ∀ other ∈ between, other.Ignorable) (hignorable : ignorable.Ignorable) (level : ℕ) :
    levelWeights ucaShifted (before ++ element :: between ++ ignorable :: after) level =
      levelWeights ucaShifted (before ++ element :: between ++ after) level := by
  have hweight : (⟨0, 0, 0, 0⟩ : WeightedElement).weight level = 0 := by
    unfold WeightedElement.weight
    split <;> rfl
  rw [levelWeights, levelWeights, weighElements_append, weighElements_append _ _ _ after,
    followsVariable_behind helement hbetween, weighElements, weighElement_ignorable hignorable]
  dsimp only
  rw [List.map_append, List.map_append, List.map_cons, List.filter_append, List.filter_append,
    hweight, List.filter_cons_of_neg (by decide)]

theorem levelWeights_ne (alternateHandling : UInt8) (elements : List CollationElement) (level : ℕ) :
    ∀ weight ∈ levelWeights alternateHandling elements level, weight ≠ 0 := by
  intro weight h
  exact of_decide_eq_true (List.mem_filter.1 h).2

/-! ## Keys -/

theorem appendIdenticalPositions_eq : ∀ {normalized : PositionSequence} {identical : List UInt8},
    appendIdenticalPositions normalized = some identical →
      (∀ position ∈ normalized, position ≤ positionMaximum) ∧ identical = normalized.flatMap positionCode
  | [], _, h => by
    cases h
    exact ⟨nofun, rfl⟩
  | position :: normalized, identical, h => by
    unfold appendIdenticalPositions at h
    rw [List.mapM_cons] at h
    cases hcode : appendIdenticalPosition position with
    | none =>
      rw [hcode] at h
      cases h
    | some code =>
      cases hparts : normalized.mapM appendIdenticalPosition with
      | none =>
        rw [hcode, hparts] at h
        cases h
      | some parts =>
        rw [hcode, hparts] at h
        cases h
        have hrange := appendIdenticalPosition_range hcode
        rw [appendIdenticalPosition_eq hrange] at hcode
        cases hcode
        have hrest : appendIdenticalPositions normalized = some parts.flatten := by
          unfold appendIdenticalPositions
          rw [hparts]
          rfl
        obtain ⟨hranges, heq⟩ := appendIdenticalPositions_eq hrest
        refine ⟨fun other hother => ?_, ?_⟩
        · rcases List.mem_cons.1 hother with rfl | hother
          · exact hrange
          · exact hranges other hother
        · rw [List.flatten_cons, List.flatMap_cons, heq]

theorem formSortKey_eq {normalized : PositionSequence} {elements : List CollationElement}
    {alternateHandling : UInt8} {key : List UInt8}
    (h : formSortKey normalized elements alternateHandling = some key) :
    (∀ position ∈ normalized, position ≤ positionMaximum) ∧
      key = levelCode (levelWeights alternateHandling elements 0) ++
        (levelCode (levelWeights alternateHandling elements 1) ++
          (levelCode (levelWeights alternateHandling elements 2) ++ ((if alternateHandling = ucaShifted then
              levelCode (levelWeights alternateHandling elements 3) else []) ++
                normalized.flatMap positionCode))) := by
  unfold formSortKey at h
  split at h
  · cases h
  · dsimp only at h
    split at h
    · cases h
    · rename_i identical hidentical
      obtain ⟨hrange, rfl⟩ := appendIdenticalPositions_eq hidentical
      refine ⟨hrange, ?_⟩
      cases h
      unfold levelCode
      split_ifs <;> simp [List.range_succ, List.append_assoc]

/-- What two calculations of one mode compare by. -/
def collationOrder (alternateHandling : UInt8) (left right : CalculatedCollation) : Ordering :=
  let level (n : ℕ) := compare (levelWeights alternateHandling left.elements n)
    (levelWeights alternateHandling right.elements n)
  (level 0).then <| (level 1).then <| (level 2).then <|
    (if alternateHandling = ucaShifted then level 3 else .eq).then <|
      compare left.normalized right.normalized

theorem calculateCollation_key {table : DucetTable} {core : CoreTable} {sequence : PositionSequence}
    {alternateHandling : UInt8} {calculation : CalculatedCollation}
    (h : calculateCollation table core sequence alternateHandling = some calculation) :
    normalizeNfd core sequence = some calculation.normalized ∧
      (∃ usedImplicit, produceCollationElements table core calculation.normalized =
        some (calculation.elements, usedImplicit)) ∧
      formSortKey calculation.normalized calculation.elements alternateHandling = some calculation.key := by
  unfold calculateCollation at h
  obtain ⟨normalized, hnormalized, h⟩ := Option.bind_eq_some_iff.1 h
  obtain ⟨⟨elements, usedImplicit⟩, helements, h⟩ := Option.bind_eq_some_iff.1 h
  obtain ⟨key, hkey, h⟩ := Option.bind_eq_some_iff.1 h
  split at h
  · cases h
    exact ⟨hnormalized, ⟨usedImplicit, helements⟩, hkey⟩
  · cases h

section Pair

variable {table : DucetTable} {core : CoreTable} {sequence sequence' : PositionSequence}
  {alternateHandling : UInt8} {left right : CalculatedCollation}

theorem compare_key (hleft : calculateCollation table core sequence alternateHandling = some left)
    (hright : calculateCollation table core sequence' alternateHandling = some right) :
    compare left.key right.key = collationOrder alternateHandling left right := by
  obtain ⟨hrange, hkey⟩ := formSortKey_eq (calculateCollation_key hleft).2.2
  obtain ⟨hrange', hkey'⟩ := formSortKey_eq (calculateCollation_key hright).2.2
  have hlevel (level : ℕ) := @orderedCode_level _ _
    (levelWeights_ne alternateHandling left.elements level)
    (levelWeights_ne alternateHandling right.elements level)
  have hidentical : compare (left.normalized.flatMap positionCode)
      (right.normalized.flatMap positionCode) = compare left.normalized right.normalized :=
    orderedCode_position.compare_flatMap (fun _ _ => List.cons_ne_nil _ _) hrange hrange'
  rw [hkey, hkey', hlevel 0, hlevel 1, hlevel 2]
  unfold collationOrder
  split
  · rw [hlevel 3, hidentical]
  · rw [List.nil_append, List.nil_append, hidentical]
    rfl

theorem key_eq_iff (hleft : calculateCollation table core sequence alternateHandling = some left)
    (hright : calculateCollation table core sequence' alternateHandling = some right) :
    left.key = right.key ↔ left.normalized = right.normalized := by
  obtain ⟨-, ⟨_, helements⟩, hkey⟩ := calculateCollation_key hleft
  obtain ⟨-, ⟨_, helements'⟩, hkey'⟩ := calculateCollation_key hright
  constructor
  · intro h
    have horder := compare_key hleft hright
    rw [h, Std.ReflOrd.compare_self] at horder
    unfold collationOrder at horder
    simp only [Ordering.then_eq_eq, eq_comm (a := Ordering.eq)] at horder
    exact Std.LawfulEqOrd.eq_of_compare horder.2.2.2.2
  · intro h
    rw [h] at helements hkey
    have heq := congrArg Prod.fst (Option.some.inj (helements.symm.trans helements'))
    dsimp only at heq
    rw [heq] at hkey
    exact Option.some.inj (hkey.symm.trans hkey')

end Pair

/-- **Sort keys order as collation does**: byte by byte they compare as the levels and then the
normalized sequences, they are equal exactly when the normalized sequences are, and when variable
elements are shifted the ignorable elements behind one are part of no level. -/
theorem sortKey_order {table : DucetTable} {core : CoreTable} {sequence sequence' : PositionSequence}
    {alternateHandling : UInt8} {left right : CalculatedCollation}
    (hleft : calculateCollation table core sequence alternateHandling = some left)
    (hright : calculateCollation table core sequence' alternateHandling = some right) :
    compare left.key right.key = collationOrder alternateHandling left right ∧
      (left.key = right.key ↔ left.normalized = right.normalized) ∧
      (alternateHandling = ucaShifted → ∀ before element between ignorable after,
        left.elements = before ++ element :: between ++ ignorable :: after → element.Variable →
          (∀ other ∈ between, other.Ignorable) → ignorable.Ignorable →
            ∀ level, levelWeights alternateHandling left.elements level =
              levelWeights alternateHandling (before ++ element :: between ++ after) level) := by
  refine ⟨compare_key hleft hright, key_eq_iff hleft hright, ?_⟩
  rintro rfl before element between ignorable after heq helement hbetween hignorable level
  rw [heq, levelWeights_ignorable helement hbetween hignorable]

/-- A space, which is variable, and a mark. -/
def spaceTable : DucetTable where
  mappings := [⟨[0x0020], [⟨0x0209, 0x20, 0x02, true⟩]⟩, ⟨[0x0306], [⟨0, 0x26, 0x02, false⟩]⟩]
  implicitRanges := []

theorem calculateCollation_of_rounds {table : DucetTable} {core : CoreTable}
    {sequence normalized : PositionSequence} {alternateHandling : UInt8} {found : List Match}
    {key : List UInt8} (hnormalized : normalizeNfd core sequence = some normalized)
    (hrounds : Rounds (ProgramStep table core) normalized found)
    (hkey : formSortKey normalized (found.flatMap Match.elements) alternateHandling = some key)
    (hcount : normalized.length ≤ 0xffffffff ∧ (found.flatMap Match.elements).length ≤ 0xffffffff) :
    calculateCollation table core sequence alternateHandling =
      some ⟨normalized, found.flatMap Match.elements, key,
        provenanceOf sequence (found.any Match.isImplicit)⟩ := by
  have hproduce : produceCollationElements table core normalized =
      some (found.flatMap Match.elements, found.any Match.isImplicit) :=
    produceFrom_of_rounds hrounds [] false
  unfold calculateCollation
  rw [hnormalized, Option.bind_eq_bind, Option.bind_some, hproduce, Option.bind_eq_bind, Option.bind_some]
  dsimp only
  rw [hkey, Option.bind_eq_bind, Option.bind_some, if_pos hcount]

/-- A space with a mark is behind the space alone by its normalized sequence only. -/
theorem sortKey_order_space : ∃ left right,
    calculateCollation spaceTable cyrillicCore [0x0020, 0x0306] ucaShifted = some left ∧
      calculateCollation spaceTable cyrillicCore [0x0020] ucaShifted = some right ∧
      compare left.key right.key = .gt ∧ left.key ≠ right.key ∧
      ∀ level, levelWeights ucaShifted left.elements level =
        levelWeights ucaShifted right.elements level := by
  have hleft := @calculateCollation_of_rounds spaceTable cyrillicCore [0x0020, 0x0306] _ ucaShifted
    [.mapped [0x0020] ⟨[0x0020], [⟨0x0209, 0x20, 0x02, true⟩]⟩,
      .mapped [0x0306] ⟨[0x0306], [⟨0, 0x26, 0x02, false⟩]⟩] _ rfl (.cons rfl (.cons rfl .nil)) rfl
    (by decide)
  have hright := @calculateCollation_of_rounds spaceTable cyrillicCore [0x0020] _ ucaShifted
    [.mapped [0x0020] ⟨[0x0020], [⟨0x0209, 0x20, 0x02, true⟩]⟩] _ rfl (.cons rfl .nil) rfl (by decide)
  obtain ⟨horder, hiff, hlevels⟩ := sortKey_order hleft hright
  refine ⟨_, _, hleft, hright, horder.trans (by decide), fun h => absurd (hiff.1 h) (by decide),
    fun level => ?_⟩
  exact hlevels rfl [] _ [] _ [] rfl
    ⟨rfl, (by decide : (0x0209 : UInt16) ≠ 0)⟩ nofun rfl level

end Laplace.Unicode
