import Laplace.Digest

/-!
# The collation table and its use (unicode_ducet.cpp:405-733)

A position is a `uint32_t` below the population, a number here. The core table is what
`laplace_unicode_core_table_record` finds at a position, with the payload of each field by its id.
The table maps sequences of positions to collation elements.
-/

namespace Laplace.Unicode

/-! ## Data -/

/-- `LAPLACE_UNICODE_ROOT_POPULATION` -/
def rootPopulation : ℕ := 1114112

abbrev PositionSequence := List ℕ

inductive PositionClass
  | assignedScalar | unassignedOrReservedScalar | privateUseScalar | noncharacterScalar
  | surrogateLupAddress
deriving DecidableEq, Repr

/-- `laplace_unicode_core_record_view` -/
structure CoreRecord where
  fields : ℕ → List UInt8
  positionClass : PositionClass

abbrev CoreTable := ℕ → Option CoreRecord

/-- `laplace_unicode_collation_element` -/
structure CollationElement where
  primary : UInt16
  secondary : UInt16
  tertiary : UInt16
  isVariable : Bool
deriving DecidableEq, Repr

/-- `Mapping` -/
structure Mapping where
  sequence : PositionSequence
  elements : List CollationElement
deriving DecidableEq, Repr

/-- `ImplicitRange` -/
structure ImplicitRange where
  first : ℕ
  last : ℕ
  leadPrimary : UInt16
deriving DecidableEq, Repr

/-- `laplace_unicode_ducet_table` -/
structure DucetTable where
  mappings : List Mapping
  implicitRanges : List ImplicitRange

/-- `summary.maximum_sequence_count` -/
def DucetTable.maximumSequenceCount (table : DucetTable) : ℕ :=
  (table.mappings.map fun mapping => mapping.sequence.length).foldr max 0

/-! ## Normalization -/

/-- `ReadU32`, for all that a payload holds. -/
def readPositions : List UInt8 → PositionSequence
  | b0 :: b1 :: b2 :: b3 :: rest =>
    (b0.toNat + b1.toNat * 2 ^ 8 + b2.toNat * 2 ^ 16 + b3.toNat * 2 ^ 24) :: readPositions rest
  | _ => []

variable (table : DucetTable) (core : CoreTable)

/-- `CanonicalCombiningClass` -/
def canonicalCombiningClass (position : ℕ) : Option ℕ :=
  match core position with
  | none => none
  | some record =>
    match record.fields 2 with
    | [value] => some value.toNat
    | _ => none

def hangulBase : ℕ := 0xac00
def hangulLast : ℕ := 0xd7a3

/-- `AppendCanonicalDecomposition`; the first argument is how much deeper it may go. -/
def appendCanonicalDecomposition : ℕ → ℕ → Option PositionSequence
  | 0, _ => none
  | depth + 1, position =>
    if hangulBase ≤ position ∧ position ≤ hangulLast then
      let syllable := position - hangulBase
      let trailing := syllable % 28
      some ([0x1100 + syllable / (21 * 28), 0x1161 + syllable % (21 * 28) / 28] ++
        if trailing ≠ 0 then [0x11a7 + trailing] else [])
    else
      match core position with
      | none => none
      | some record =>
        let payload := record.fields 6
        if payload = [] then some [position]
        else if payload.length % 4 ≠ 0 then none
        else do
          let parts ← (readPositions payload).mapM fun child =>
            if child ≥ rootPopulation then none else appendCanonicalDecomposition depth child
          return parts.flatten

/-- The inner loop of `NormalizeNfd`: a mark goes before the marks of higher classes. The positions
before it are in reverse. -/
def insertMark (position currentClass : ℕ) : PositionSequence → Option PositionSequence
  | [] => some [position]
  | previous :: before =>
    match canonicalCombiningClass core previous with
    | none => none
    | some previousClass =>
      if previousClass = 0 ∨ previousClass ≤ currentClass then some (position :: previous :: before)
      else do
        let inserted ← insertMark position currentClass before
        return previous :: inserted

/-- The outer loop of `NormalizeNfd`. -/
def orderMarks : PositionSequence → PositionSequence → Option PositionSequence
  | before, [] => some before.reverse
  | [], position :: rest => orderMarks [position] rest
  | previous :: before, position :: rest =>
    match canonicalCombiningClass core position with
    | none => none
    | some currentClass =>
      if currentClass = 0 then orderMarks (position :: previous :: before) rest
      else
        match insertMark core position currentClass (previous :: before) with
        | none => none
        | some inserted => orderMarks inserted rest

/-- `NormalizeNfd` -/
def normalizeNfd (sequence : PositionSequence) : Option PositionSequence := do
  let parts ← sequence.mapM fun position =>
    if position ≥ rootPopulation then none else appendCanonicalDecomposition core 65 position
  orderMarks core [] parts.flatten

/-! ## Implicit weights -/

/-- The characters of a string as bytes. -/
def asciiBytes (text : String) : List UInt8 := text.toList.map fun c => UInt8.ofNat c.toNat

/-- The loop of `SetFieldContains`. -/
def setContains (expected : List UInt8) : ℕ → List UInt8 → Bool
  | count + 1, b0 :: b1 :: rest =>
    let bytes := b0.toNat + b1.toNat * 2 ^ 8
    if bytes > rest.length then false
    else if rest.take bytes = expected then true
    else setContains expected count (rest.drop bytes)
  | _, _ => false

/-- `SetFieldContains` -/
def setFieldContains (payload expected : List UInt8) : Bool :=
  match payload with
  | b0 :: b1 :: b2 :: b3 :: rest =>
    setContains expected
      (b0.toNat + b1.toNat * 2 ^ 8 + b2.toNat * 2 ^ 16 + b3.toNat * 2 ^ 24) rest
  | _ => false

/-- The lead weight of a position and what its trail weight is made of, by its range. -/
def rangeLead (position : ℕ) : Option (ℕ × ℕ) :=
  match table.implicitRanges.find? fun range => range.first ≤ position ∧ position ≤ range.last with
  | none => none
  | some range =>
    let family := table.implicitRanges.filter fun candidate =>
      candidate.leadPrimary = range.leadPrimary
    some (range.leadPrimary.toNat, position - (family.map ImplicitRange.first).foldl min range.first)

/-- The lead weight that `ImplicitElements` chooses, and what the trail weight is made of. -/
def implicitSource (record : CoreRecord) (position : ℕ) : ℕ × ℕ :=
  let ranged : ℕ × ℕ :=
    if record.positionClass = .assignedScalar then (rangeLead table position).getD (0, position)
    else (0, position)
  let found : ℕ × ℕ :=
    if ranged.1 = 0 ∧ setFieldContains (record.fields 16) (asciiBytes "Unified_Ideograph") then
      let coreHan := record.fields 12 = asciiBytes "CJK_Unified_Ideographs" ∨
        record.fields 12 = asciiBytes "CJK_Compatibility_Ideographs"
      ((if coreHan then 0xfb40 else 0xfb80) + (position >>> 15), position)
    else ranged
  if found.1 = 0 then (0xfbc0 + (position >>> 15), position) else found

/-- `ImplicitElements`: the two elements that are appended. -/
def implicitElements (position : ℕ) : Option (List CollationElement) :=
  match core position with
  | none => none
  | some record =>
    let (lead, trailSource) := implicitSource table record position
    let trail := (trailSource &&& 0x7fff) ||| 0x8000
    if lead > 0xffff ∨ trail > 0xffff then none
    else some [⟨UInt16.ofNat lead, 0x0020, 0x0002, false⟩, ⟨UInt16.ofNat trail, 0, 0, false⟩]

/-! ## Collation elements -/

/-- `FindMapping` -/
def findMapping (sequence : PositionSequence) : Option Mapping :=
  table.mappings.find? fun mapping => mapping.sequence = sequence

/-- The loop for the longest initial substring of at most a count that has a mapping. -/
def longestInitial (remaining : PositionSequence) : ℕ → Option (Mapping × ℕ)
  | 0 => none
  | count + 1 =>
    match findMapping table (remaining.take (count + 1)) with
    | some mapping => some (mapping, count + 1)
    | none => longestInitial remaining count

/-- The loop over what follows the match: the mapping and the sequence that is matched, and what is
left when the marks that were added to it are erased. -/
def extendMatch : Mapping → PositionSequence → ℕ → PositionSequence →
    Option (Mapping × PositionSequence × PositionSequence)
  | mapping, matched, _, [] => some (mapping, matched, [])
  | mapping, matched, blockingClass, position :: rest =>
    match canonicalCombiningClass core position with
    | none => none
    | some combiningClass =>
      if combiningClass = 0 then some (mapping, matched, position :: rest)
      else if blockingClass ≥ combiningClass then some (mapping, matched, position :: rest)
      else
        match findMapping table (matched ++ [position]) with
        | some extended => extendMatch extended (matched ++ [position]) blockingClass rest
        | none =>
          match extendMatch mapping matched (max blockingClass combiningClass) rest with
          | none => none
          | some (mapping, matched, kept) => some (mapping, matched, position :: kept)

/-- What one round takes from the front of the sequence. -/
inductive Match
  | mapped (matched : PositionSequence) (mapping : Mapping)
  | implicit (position : ℕ) (elements : List CollationElement)
deriving DecidableEq, Repr

def Match.elements : Match → List CollationElement
  | .mapped _ mapping => mapping.elements
  | .implicit _ elements => elements

def Match.isImplicit : Match → Bool
  | .mapped _ _ => false
  | .implicit _ _ => true

/-- The body of the loop: what is taken, and what remains. -/
def matchStep (position : ℕ) (rest : PositionSequence) : Option (Match × PositionSequence) :=
  let remaining := position :: rest
  match longestInitial table remaining (min table.maximumSequenceCount remaining.length) with
  | none =>
    match implicitElements table core position with
    | none => none
    | some elements => some (.implicit position elements, rest)
  | some (mapping, count) =>
    match extendMatch table core mapping (remaining.take count) 0 (remaining.drop count) with
    | none => none
    | some (mapping, matched, kept) => some (.mapped matched mapping, kept)

variable {table core}

theorem longestInitial_count {remaining : PositionSequence} {mapping : Mapping} {found : ℕ} :
    ∀ {count : ℕ}, longestInitial table remaining count = some (mapping, found) →
      0 < found ∧ found ≤ count ∧ findMapping table (remaining.take found) = some mapping ∧
      ∀ other, found < other → other ≤ count → findMapping table (remaining.take other) = none
  | 0, h => by cases h
  | count + 1, h => by
    unfold longestInitial at h
    split at h
    · rename_i hfind
      cases h
      exact ⟨Nat.succ_pos _, le_rfl, hfind, fun other hlt hle => absurd hle (Nat.not_le.2 hlt)⟩
    · rename_i hnone
      obtain ⟨hpos, hle, hfind, hlongest⟩ := longestInitial_count h
      refine ⟨hpos, Nat.le_succ_of_le hle, hfind, fun other hlt hother => ?_⟩
      rcases Nat.le_succ_iff.1 hother with hother | rfl
      · exact hlongest other hlt hother
      · exact hnone

theorem extendMatch_length : ∀ {rest matched matched' kept : PositionSequence}
    {mapping mapping' : Mapping} {blockingClass : ℕ},
    extendMatch table core mapping matched blockingClass rest = some (mapping', matched', kept) →
      kept.length ≤ rest.length
  | [], _, _, _, _, _, _, h => by
    cases h
    exact le_rfl
  | position :: rest, matched, matched', kept, mapping, mapping', blockingClass, h => by
    unfold extendMatch at h
    split at h
    · cases h
    · split at h
      · cases h
        exact le_rfl
      · split at h
        · cases h
          exact le_rfl
        · split at h
          · exact (extendMatch_length h).trans (Nat.le_succ _)
          · split at h
            · cases h
            · rename_i hrest
              cases h
              exact Nat.succ_le_succ (extendMatch_length hrest)

theorem matchStep_length {position : ℕ} {rest next : PositionSequence} {found : Match}
    (h : matchStep table core position rest = some (found, next)) : next.length ≤ rest.length := by
  unfold matchStep at h
  dsimp only at h
  split at h
  · split at h
    · cases h
    · cases h
      exact le_rfl
  · rename_i mapping count hlongest
    split at h
    · cases h
    · rename_i hextend
      cases h
      obtain ⟨hpos, -⟩ := longestInitial_count hlongest
      have hle := extendMatch_length hextend
      rw [List.length_drop, List.length_cons] at hle
      omega

variable (table core)

/-- The loop of `ProduceCollationElements`. -/
def produceFrom (remaining : PositionSequence) (elements : List CollationElement)
    (usedImplicit : Bool) : Option (List CollationElement × Bool) :=
  match remaining with
  | [] => some (elements, usedImplicit)
  | position :: rest =>
    match _h : matchStep table core position rest with
    | none => none
    | some (found, next) =>
      produceFrom next (elements ++ found.elements) (usedImplicit || found.isImplicit)
termination_by remaining.length
decreasing_by exact Nat.lt_succ_of_le (matchStep_length ‹_›)

/-- `ProduceCollationElements` -/
def produceCollationElements (normalized : PositionSequence) :
    Option (List CollationElement × Bool) := produceFrom table core normalized [] false

end Laplace.Unicode
