import Laplace.Composition.Input
import Laplace.Lib.Segments
import Laplace.Unicode.Utf8Decoders

/-!
# The builder of canonical composition plans (canonical_composition_plan.hpp:83-272)

Strings, numbers and nodes become requests whose operands lie one after the other in one array.
`String` and `Node` append their operands before the request is recorded, so a call that fails on the
way leaves operands that no request has (`step_unchanged_iff`); without such a call the ranges of the
requests tile the operands (`run_tiled`).

| here | there |
| --- | --- |
| `Builder`    | the three arrays and the three maps; a map holds results only, so `InvalidIndex` is `none` |
| `Config`     | the other members, and the two roles that `Number` gives |
| `Call`       | the protected functions that append |
-/

namespace Laplace.CanonicalPlan

open Unicode.CanonicalPlan
open Laplace.Composition (Operand Request referenceKnownEntity referencePriorResult)

structure Config where
  recipeFingerprint : Digest256
  geometryEpoch : Digest256
  occurrenceContext : Digest256
  recipeVersion : UInt32
  requestFlags : UInt32
  roleShift : UInt64
  knownPrefix : UInt64
  maximumRequests : UInt64
  maximumOperands : UInt64
  /-- `Role::Tag` and `Role::Identifier` -/
  tag : UInt64
  identifier : UInt64

structure Builder where
  atomPositions : List UInt32
  operands : List Operand
  requests : List Request
  atomIndexes : UInt32 → Option UInt64
  stringIndexes : List UInt8 → Option UInt64
  numberIndexes : UInt64 → Option UInt64

variable (config : Config)

/-- The guard of `AddRequest` beside the operand count. -/
def Full (requests : ℕ) : Prop :=
  requests ≥ config.maximumRequests.toNat ∨ requests = UInt64.size - 1

/-- `first > maximum_operands_ || count > maximum_operands_ - first` -/
def OverBudget (first count : ℕ) : Prop :=
  first > config.maximumOperands.toNat ∨ count > config.maximumOperands.toNat - first

instance (requests : ℕ) : Decidable (Full config requests) := inferInstanceAs (Decidable (_ ∨ _))
instance (first count : ℕ) : Decidable (OverBudget config first count) :=
  inferInstanceAs (Decidable (_ ∨ _))

/-- What `AddRequest` records. -/
def requestAt (first count index : ℕ) : Request :=
  ⟨UInt64.ofNat first, UInt64.ofNat count, UInt64.ofNat index + 1, config.recipeVersion,
    config.requestFlags, config.recipeFingerprint, config.geometryEpoch, config.occurrenceContext⟩

/-- `AddRequest` -/
def addRequest (first count : ℕ) (builder : Builder) : Option UInt64 × Builder :=
  if count = 0 ∨ Full config builder.requests.length then (none, builder)
  else (some (UInt64.ofNat builder.requests.length), { builder with
    requests := builder.requests ++ [requestAt config first count builder.requests.length] })

/-- `UINT64_MAX - known_prefix_` -/
def atomLimit : ℕ := UInt64.size - 1 - config.knownPrefix.toNat

/-- `AtomIndex` -/
def atomIndex (position : UInt32) (builder : Builder) : Option UInt64 × Builder :=
  match builder.atomIndexes position with
  | some index => (some index, builder)
  | none =>
    if builder.atomPositions.length ≥ atomLimit config then (none, builder)
    else
      let index := config.knownPrefix + UInt64.ofNat builder.atomPositions.length
      (some index, { builder with
        atomPositions := builder.atomPositions ++ [position]
        atomIndexes := Function.update builder.atomIndexes position (some index) })

/-- The loop of `String`; it stops where the atoms run out. -/
def pushAtoms : List UInt32 → Builder → Bool × Builder
  | [], builder => (true, builder)
  | position :: positions, builder =>
    match atomIndex config position builder with
    | (none, builder) => (false, builder)
    | (some atom, builder) => pushAtoms positions
        { builder with operands := builder.operands ++ [⟨atom, 1, 0, referenceKnownEntity, 0⟩] }

/-- `String` -/
def string (value : List UInt8) (builder : Builder) : Option UInt64 × Builder :=
  match builder.stringIndexes value with
  | some index => (some index, builder)
  | none =>
    match decodeUtf8 value [] with
    | (false, _) => (none, builder)
    | (true, positions) =>
      let first := builder.operands.length
      if OverBudget config first positions.length then (none, builder)
      else match pushAtoms config positions builder with
        | (false, builder) => (none, builder)
        | (true, builder) =>
          match addRequest config first positions.length builder with
          | (none, builder) => (none, builder)
          | (some request, builder) => (some request, { builder with
              stringIndexes := Function.update builder.stringIndexes value (some request) })

/-- The loop of `Node` over the indexes and roles of the children. -/
def pushChildren : List (UInt64 × UInt64) → Builder → Bool × Builder
  | [], builder => (true, builder)
  | (index, role) :: children, builder =>
    if index.toNat ≥ builder.requests.length then (false, builder)
    else pushChildren children { builder with
      operands := builder.operands ++ [⟨index, 1, role <<< config.roleShift, referencePriorResult, 0⟩] }

/-- `Node` -/
def node (children : List (UInt64 × UInt64)) (builder : Builder) : Option UInt64 × Builder :=
  let first := builder.operands.length
  if children.length < 2 ∨ OverBudget config first children.length then (none, builder)
  else match pushChildren config children builder with
    | (false, builder) => (none, builder)
    | (true, builder) => addRequest config first children.length builder

/-- `Decimal` -/
def decimal (value : UInt64) : List UInt8 :=
  (Nat.toDigits 10 value.toNat).map fun digit => UInt8.ofNat digit.toNat

/-- `Number` -/
def number (value numberTag : UInt64) (builder : Builder) : Option UInt64 × Builder :=
  match builder.numberIndexes value with
  | some index => (some index, builder)
  | none =>
    match string config (decimal value) builder with
    | (none, builder) => (none, builder)
    | (some surface, builder) =>
      match node config [(numberTag, config.tag), (surface, config.identifier)] builder with
      | (none, builder) => (none, builder)
      | (some result, builder) => (some result, { builder with
          numberIndexes := Function.update builder.numberIndexes value (some result) })

/-- What `NodeReferences` refuses of a child. -/
def childRefused (builder : Builder) (child : Operand) : Bool :=
  child.multiplicity = 0 || child.flags ≠ 0 ||
    (if child.referenceKind = referencePriorResult then
      decide (child.referenceIndex.toNat ≥ builder.requests.length)
    else child.referenceKind ≠ referenceKnownEntity ||
      child.referenceIndex ≥ config.knownPrefix + UInt64.ofNat builder.atomPositions.length)

/-- `NodeReferences` -/
def nodeReferences (children : List Operand) (builder : Builder) : Option UInt64 × Builder :=
  let first := builder.operands.length
  if children.length < 2 ∨ OverBudget config first children.length then (none, builder)
  else if children.any (childRefused config builder) then (none, builder)
  else addRequest config first children.length
    { builder with operands := builder.operands ++ children }

inductive Call
  | string (value : List UInt8)
  | number (value numberTag : UInt64)
  | node (children : List (UInt64 × UInt64))
  | nodeReferences (children : List Operand)

def step : Call → Builder → Option UInt64 × Builder
  | .string value => string config value
  | .number value numberTag => number config value numberTag
  | .node children => node config children
  | .nodeReferences children => nodeReferences config children

/-- The builder after the calls. -/
def run (calls : List Call) (builder : Builder) : Builder :=
  calls.foldl (fun builder call => (step config call builder).2) builder

/-! ## When a failing call leaves something behind -/

section Spoils

variable (builder : Builder)

/-- The new positions among those of a string. -/
def fresh (positions : List UInt32) : Finset UInt32 :=
  positions.toFinset.filter fun position => builder.atomIndexes position = none

/-- How many atoms may be appended. -/
def room : ℕ := atomLimit config - builder.atomPositions.length

/-- The atoms run out at the first position, before anything is appended. -/
def AtomsOut (positions : List UInt32) : Prop :=
  room config builder = 0 ∧ ∃ position ∈ positions.head?, builder.atomIndexes position = none

/-- A string that fails before anything is appended. -/
def StringRefused (value : List UInt8) : Prop :=
  ∀ positions, decodeUtf8 value [] = (true, positions) →
    OverBudget config builder.operands.length positions.length ∨ AtomsOut config builder positions

/-- A string that becomes a request. -/
def StringReady (value : List UInt8) : Prop :=
  ∃ positions, decodeUtf8 value [] = (true, positions) ∧
    ¬OverBudget config builder.operands.length positions.length ∧
    (fresh builder positions).card ≤ room config builder ∧ ¬Full config builder.requests.length

/-- A string whose atoms run out behind the first, or that finds the requests full. -/
def StringSpoils (value : List UInt8) : Prop :=
  builder.stringIndexes value = none ∧ ¬StringRefused config builder value ∧
    ¬StringReady config builder value

/-- A node with an unknown child behind a known first one, or that finds the requests full. -/
def NodeSpoils (children : List (UInt64 × UInt64)) : Prop :=
  2 ≤ children.length ∧ ¬OverBudget config builder.operands.length children.length ∧
    (∃ child ∈ children.head?, child.1.toNat < builder.requests.length) ∧
    ((∃ child ∈ children, child.1.toNat ≥ builder.requests.length) ∨ Full config builder.requests.length)

/-- A number whose digits spoil or, when they are a request, whose node does not follow. -/
def NumberSpoils (value numberTag : UInt64) : Prop :=
  builder.numberIndexes value = none ∧ match builder.stringIndexes (decimal value) with
    | some surface =>
      NodeSpoils config builder [(numberTag, config.tag), (surface, config.identifier)]
    | none => StringSpoils config builder (decimal value) ∨
      StringReady config builder (decimal value) ∧
        (OverBudget config (builder.operands.length +
            (decodeUtf8 (decimal value) []).2.length) 2 ∨
          numberTag.toNat > builder.requests.length ∨ Full config (builder.requests.length + 1))

/-- References that find the requests full. -/
def ReferencesSpoil (children : List Operand) : Prop :=
  2 ≤ children.length ∧ ¬OverBudget config builder.operands.length children.length ∧
    (∀ child ∈ children, childRefused config builder child = false) ∧
    Full config builder.requests.length

def Spoils : Call → Prop
  | .string value => StringSpoils config builder value
  | .number value numberTag => NumberSpoils config builder value numberTag
  | .node children => NodeSpoils config builder children
  | .nodeReferences children => ReferencesSpoil config builder children

end Spoils

/-- The calls of a run, none of which spoils the builder it finds. -/
def Clean : List Call → Builder → Prop
  | [], _ => True
  | call :: calls, builder => ¬Spoils config builder call ∧ Clean calls (step config call builder).2

/-- Two builders with the same arrays. -/
def SameArrays (left right : Builder) : Prop :=
  left.atomPositions = right.atomPositions ∧ left.operands = right.operands ∧
    left.requests = right.requests

/-- The operands of a request. -/
def range (request : Request) : ℕ × ℕ :=
  (request.firstOperand.toNat, request.firstOperand.toNat + request.operandCount.toNat)

/-- The ranges of the requests tile the operands in request order. -/
def Tiled (builder : Builder) : Prop := Tiles (builder.requests.map range) 0 builder.operands.length

/-- The builder over empty arrays. -/
def Builder.empty : Builder := ⟨[], [], [], fun _ => none, fun _ => none, fun _ => none⟩

/-! ## The loops -/

section Loops

variable {config : Config}

/-- What the loops leave as it is, and that they append to the operands. -/
structure Pushed (builder builder' : Builder) (count : ℕ) (all : Bool) : Prop where
  requests : builder'.requests = builder.requests
  operands : ∃ new, builder'.operands = builder.operands ++ new ∧ (all = true → new.length = count)

variable {builder : Builder} {count : ℕ}

theorem Pushed.refl : Pushed builder builder count false :=
  ⟨rfl, [], by simp⟩

variable {builder' : Builder}

theorem Pushed.cons {middle : Builder} {all : Bool} (hrequests : middle.requests = builder.requests)
    (hoperands : ∃ operand, middle.operands = builder.operands ++ [operand])
    (h : Pushed middle builder' count all) : Pushed builder builder' (count + 1) all := by
  obtain ⟨operand, hoperands⟩ := hoperands
  obtain ⟨hrest, new, hnew, hlength⟩ := h
  refine ⟨hrest.trans hrequests, operand :: new, by rw [hnew, hoperands]; simp, fun hall => ?_⟩
  simp [hlength hall]

theorem Pushed.le {all : Bool} (h : Pushed builder builder' count all) :
    builder.operands.length ≤ builder'.operands.length := by
  obtain ⟨-, new, hnew, -⟩ := h
  simp [hnew]

theorem atomIndex_some {position : UInt32} {atom : UInt64}
    (h : atomIndex config position builder = (some atom, builder')) :
    builder'.requests = builder.requests ∧ builder'.operands = builder.operands ∧
      ∀ positions, (fresh builder (position :: positions)).card ≤ room config builder ↔
        (fresh builder' positions).card ≤ room config builder' := by
  rw [atomIndex] at h
  cases hindex : builder.atomIndexes position with
  | some index =>
    simp only [hindex, Prod.mk.injEq] at h
    obtain ⟨-, rfl⟩ := h
    refine ⟨rfl, rfl, fun positions => ?_⟩
    simp [fresh, Finset.filter_insert, hindex]
  | none =>
    simp only [hindex] at h
    split at h
    · cases h
    cases h
    refine ⟨rfl, rfl, fun positions => ?_⟩
    have hinsert : fresh builder (position :: positions) =
        insert position ((fresh builder positions).erase position) := by
      ext other
      by_cases h : other = position <;> simp [fresh, h, hindex]
    have herase : fresh { builder with
        atomPositions := builder.atomPositions ++ [position]
        atomIndexes := Function.update builder.atomIndexes position
          (some (config.knownPrefix + UInt64.ofNat builder.atomPositions.length)) } positions =
        (fresh builder positions).erase position := by
      ext other
      by_cases h : other = position <;> simp [fresh, h]
    rw [hinsert, Finset.card_insert_of_notMem (Finset.notMem_erase _ _), herase]
    simp only [room, List.length_append, List.length_singleton]
    omega

theorem atomIndex_none {position : UInt32}
    (h : atomIndex config position builder = (none, builder')) : builder' = builder ∧
      builder.atomIndexes position = none ∧ room config builder = 0 := by
  rw [atomIndex] at h
  cases hindex : builder.atomIndexes position with
  | some index => simp [hindex] at h
  | none =>
    simp only [hindex] at h
    split at h
    · cases h
      exact ⟨rfl, rfl, by unfold room; omega⟩
    · cases h

theorem pushAtoms_pushed : ∀ {positions : List UInt32} {builder : Builder}, Pushed builder
    (pushAtoms config positions builder).2 positions.length (pushAtoms config positions builder).1 := by
  intro positions
  induction positions with
  | nil => intro builder; exact ⟨rfl, [], by simp [pushAtoms]⟩
  | cons position positions ih =>
    intro builder
    rw [pushAtoms]
    cases h : atomIndex config position builder with
    | mk index builder' =>
      cases index with
      | none =>
        obtain ⟨rfl, -⟩ := atomIndex_none h
        exact .refl
      | some atom =>
        obtain ⟨hrequests, hoperands, -⟩ := atomIndex_some h
        exact .cons (by exact hrequests) ⟨_, by rw [hoperands]⟩ ih

theorem pushAtoms_true : ∀ {positions : List UInt32} {builder : Builder},
    (pushAtoms config positions builder).1 = true ↔
      (fresh builder positions).card ≤ room config builder := by
  intro positions
  induction positions with
  | nil => intro builder; simp [pushAtoms, fresh]
  | cons position positions ih =>
    intro builder
    rw [pushAtoms]
    cases h : atomIndex config position builder with
    | mk index builder' =>
      cases index with
      | none =>
        obtain ⟨rfl, hindex, hroom⟩ := atomIndex_none h
        have hmem : position ∈ fresh builder' (position :: positions) := by simp [fresh, hindex]
        have := Finset.card_pos.2 ⟨position, hmem⟩
        simp only [Bool.false_eq_true, false_iff]
        omega
      | some atom =>
        rw [(atomIndex_some h).2.2 positions]
        exact ih

theorem pushAtoms_out {positions : List UInt32} (h : AtomsOut config builder positions) :
    pushAtoms config positions builder = (false, builder) := by
  obtain ⟨hroom, position, hhead, hindex⟩ := h
  obtain ⟨rest, rfl⟩ : ∃ rest, positions = position :: rest := by
    cases positions with
    | nil => cases hhead
    | cons first rest => cases hhead; exact ⟨rest, rfl⟩
  have : atomIndex config position builder = (none, builder) := by
    rw [atomIndex, hindex, if_pos (by unfold room at hroom; omega)]
  simp [pushAtoms, this]

theorem pushAtoms_pushes {positions : List UInt32} (hne : positions ≠ [])
    (h : ¬AtomsOut config builder positions) :
    builder.operands.length < (pushAtoms config positions builder).2.operands.length := by
  obtain ⟨position, rest, rfl⟩ := List.exists_cons_of_ne_nil hne
  rw [pushAtoms]
  cases hatom : atomIndex config position builder with
  | mk index builder' =>
    cases index with
    | none =>
      obtain ⟨rfl, hindex, hroom⟩ := atomIndex_none hatom
      exact absurd ⟨hroom, position, rfl, hindex⟩ h
    | some atom =>
      have := (@pushAtoms_pushed config rest
        { builder' with operands := builder'.operands ++ [⟨atom, 1, 0, referenceKnownEntity, 0⟩] }).le
      rw [(atomIndex_some hatom).2.1] at this
      simp only [List.length_append, List.length_singleton] at this
      simpa [(atomIndex_some hatom).2.1] using this

theorem pushChildren_pushed : ∀ {children : List (UInt64 × UInt64)} {builder : Builder},
    Pushed builder (pushChildren config children builder).2 children.length
      (pushChildren config children builder).1 := by
  intro children
  induction children with
  | nil => intro builder; exact ⟨rfl, [], by simp [pushChildren]⟩
  | cons child children ih =>
    intro builder
    rw [pushChildren]
    split
    · exact .refl
    · exact .cons (by rfl) ⟨_, by rfl⟩ ih

theorem pushChildren_true : ∀ {children : List (UInt64 × UInt64)} {builder : Builder},
    (pushChildren config children builder).1 = true ↔
      ∀ child ∈ children, child.1.toNat < builder.requests.length := by
  intro children
  induction children with
  | nil => intro builder; simp [pushChildren]
  | cons child children ih =>
    intro builder
    rw [pushChildren]
    split
    · simpa using fun h => absurd h (by omega)
    · rw [ih]
      simp only [List.forall_mem_cons]
      exact (and_iff_right (by omega)).symm

theorem pushChildren_pushes {children : List (UInt64 × UInt64)} :
    (∃ child ∈ children.head?, child.1.toNat < builder.requests.length) →
    builder.operands.length < (pushChildren config children builder).2.operands.length := by
  rintro ⟨child, hhead, hlt⟩
  obtain ⟨rest, rfl⟩ : ∃ rest, children = child :: rest := by
    cases children with
    | nil => cases hhead
    | cons first rest => cases hhead; exact ⟨rest, rfl⟩
  rw [pushChildren, if_neg (by omega)]
  have := (@pushChildren_pushed config rest { builder with operands :=
    builder.operands ++ [⟨child.1, 1, child.2 <<< config.roleShift, referencePriorResult, 0⟩] }).le
  simpa using this

theorem pushChildren_refused {children : List (UInt64 × UInt64)} (hne : children ≠ [])
    (h : ¬∃ child ∈ children.head?, child.1.toNat < builder.requests.length) :
    pushChildren config children builder = (false, builder) := by
  obtain ⟨child, rest, rfl⟩ := List.exists_cons_of_ne_nil hne
  rw [pushChildren, if_pos (by simpa using h)]

end Loops

/-! ## The calls -/

section Calls

variable {config : Config} {builder : Builder}

/-- One more request, over the operands that one call appended. -/
structure Recorded (config : Config) (builder builder' : Builder) (count : ℕ) : Prop where
  budget : ¬OverBudget config builder.operands.length count
  operands : builder'.operands.length = builder.operands.length + count
  requests : builder'.requests = builder.requests ++
    [requestAt config builder.operands.length count builder.requests.length]
  notFull : ¬Full config builder.requests.length

variable {middle : Builder} {count : ℕ}

theorem Pushed.record (h : Pushed builder middle count true)
    (hbudget : ¬OverBudget config builder.operands.length count) (hcount : 0 < count)
    (hfull : ¬Full config builder.requests.length) :
    ∃ builder', addRequest config builder.operands.length count middle =
        (some (UInt64.ofNat builder.requests.length), builder') ∧
      Recorded config builder builder' count := by
  obtain ⟨hrequests, new, hnew, hlength⟩ := h
  refine ⟨{ middle with requests := middle.requests ++ [requestAt config builder.operands.length count
      middle.requests.length] }, ?_, hbudget, ?_, ?_, hfull⟩
  · rw [addRequest, hrequests, if_neg (by simp [hfull, hcount.ne'])]
  · simp [hnew, hlength rfl]
  · simp [hrequests]

theorem addRequest_full {first : ℕ} (h : Full config middle.requests.length) :
    addRequest config first count middle = (none, middle) := by
  rw [addRequest, if_pos (Or.inr h)]

theorem decode_ne_nil {value : List UInt8} {positions : List UInt32}
    (h : decodeUtf8 value [] = (true, positions)) : positions ≠ [] :=
  (Unicode.canonical_decodeUtf8_iff.1 h).2

/-- **What a string call does.** -/
theorem string_cases (value : List UInt8) : (∃ index, builder.stringIndexes value = some index ∧
      string config value builder = (some index, builder)) ∨
    (builder.stringIndexes value = none ∧ StringRefused config builder value ∧
      string config value builder = (none, builder)) ∨
    (builder.stringIndexes value = none ∧ StringReady config builder value ∧
      ∃ builder', string config value builder = (some (UInt64.ofNat builder.requests.length), builder') ∧
        Recorded config builder builder' (decodeUtf8 value []).2.length) ∨
    (StringSpoils config builder value ∧ ∃ builder', string config value builder = (none, builder') ∧
      builder.operands.length < builder'.operands.length) := by
  cases hcached : builder.stringIndexes value with
  | some index => exact .inl ⟨index, rfl, by simp [string, hcached]⟩
  | none =>
    right
    by_cases hrefused : StringRefused config builder value
    · refine .inl ⟨rfl, hrefused, ?_⟩
      cases hdecode : decodeUtf8 value [] with
      | mk decoded positions =>
        cases decoded with
        | false => simp [string, hcached, hdecode]
        | true =>
          by_cases hbudget : OverBudget config builder.operands.length positions.length
          · simp [string, hcached, hdecode, hbudget]
          · simp [string, hcached, hdecode, hbudget,
              pushAtoms_out ((hrefused positions hdecode).resolve_left hbudget)]
    right
    have hspoils (h : ¬StringReady config builder value) : StringSpoils config builder value :=
      ⟨hcached, hrefused, h⟩
    obtain ⟨positions, hdecode, hbudget, hout⟩ : ∃ positions,
        decodeUtf8 value [] = (true, positions) ∧
        ¬OverBudget config builder.operands.length positions.length ∧
        ¬AtomsOut config builder positions := by
      simpa [StringRefused] using hrefused
    have hne := decode_ne_nil hdecode
    have hpushed := @pushAtoms_pushed config positions builder
    have hlt := pushAtoms_pushes hne hout
    have htrue := @pushAtoms_true config positions builder
    cases hpush : pushAtoms config positions builder with
    | mk all middle =>
      rw [hpush] at hpushed hlt htrue
      simp only at hpushed hlt htrue
      cases all with
      | false =>
        refine .inr ⟨hspoils ?_, middle, by simp [string, hcached, hdecode, hbudget, hpush], hlt⟩
        rintro ⟨positions', hdecode', -, hroom, -⟩
        obtain rfl := (Prod.mk.inj (hdecode.symm.trans hdecode')).2
        simpa using htrue.2 hroom
      | true =>
        by_cases hfull : Full config builder.requests.length
        · refine .inr ⟨hspoils fun ⟨_, _, _, _, h⟩ => h hfull, middle, ?_, hlt⟩
          simp [string, hcached, hdecode, hbudget, hpush,
            @addRequest_full config middle _ _ (by rwa [hpushed.requests])]
        · obtain ⟨builder', hadd, hrecorded⟩ := hpushed.record hbudget (List.length_pos_iff.2 hne) hfull
          refine .inl ⟨rfl, ⟨positions, hdecode, hbudget, htrue.1 rfl, hfull⟩, _,
            by simp [string, hcached, hdecode, hbudget, hpush, hadd]; rfl, ?_⟩
          rw [hdecode]
          exact ⟨hrecorded.budget, hrecorded.operands, hrecorded.requests, hfull⟩

/-- **What a node call does.** -/
theorem node_cases (children : List (UInt64 × UInt64)) :
    ((children.length < 2 ∨ OverBudget config builder.operands.length children.length ∨
        ∃ child ∈ children.head?, child.1.toNat ≥ builder.requests.length) ∧
      node config children builder = (none, builder)) ∨
    ((∀ child ∈ children, child.1.toNat < builder.requests.length) ∧
      ¬Full config builder.requests.length ∧ ∃ builder', node config children builder =
          (some (UInt64.ofNat builder.requests.length), builder') ∧
        Recorded config builder builder' children.length) ∨
    (NodeSpoils config builder children ∧ ∃ builder', node config children builder = (none, builder') ∧
      builder.operands.length < builder'.operands.length) := by
  by_cases hguard : children.length < 2 ∨ OverBudget config builder.operands.length children.length
  · exact .inl ⟨hguard.imp_right .inl, if_pos hguard⟩
  obtain ⟨hlength, hbudget⟩ := not_or.1 hguard
  have hne : children ≠ [] := by rintro rfl; simp at hlength
  have hnode : node config children builder = match pushChildren config children builder with
      | (false, builder) => (none, builder)
      | (true, middle) => addRequest config builder.operands.length children.length middle :=
    if_neg hguard
  have hpushed := @pushChildren_pushed config children builder
  have htrue := @pushChildren_true config children builder
  by_cases hhead : ∃ child ∈ children.head?, child.1.toNat < builder.requests.length
  · have hlt := @pushChildren_pushes config _ _ hhead
    have hspoils := fun h => (⟨by omega, hbudget, hhead, h⟩ : NodeSpoils config builder children)
    cases hpush : pushChildren config children builder with
    | mk all middle =>
      rw [hpush] at hpushed hlt htrue
      simp only at hpushed hlt htrue
      cases all with
      | false =>
        refine .inr (.inr ⟨hspoils (.inl ?_), middle, by rw [hnode, hpush], hlt⟩)
        simpa using htrue
      | true =>
        by_cases hfull : Full config builder.requests.length
        · refine .inr (.inr ⟨hspoils (.inr hfull), middle, ?_, hlt⟩)
          rw [hnode, hpush]
          exact addRequest_full (by rwa [hpushed.requests])
        · obtain ⟨builder', hadd, hrecorded⟩ := hpushed.record hbudget (by omega) hfull
          exact .inr (.inl ⟨htrue.1 rfl, hfull, builder', by rw [hnode, hpush]; exact hadd, hrecorded⟩)
  · refine .inl ⟨.inr (.inr ⟨_, List.head?_eq_some_head hne, ?_⟩), ?_⟩
    · simpa [List.head?_eq_some_head hne] using hhead
    · rw [hnode, pushChildren_refused hne hhead]

/-- **What a call with references does.** -/
theorem nodeReferences_cases (children : List Operand) : (¬ReferencesSpoil config builder children ∧
      nodeReferences config children builder = (none, builder)) ∨
    (∃ builder', nodeReferences config children builder =
        (some (UInt64.ofNat builder.requests.length), builder') ∧
      Recorded config builder builder' children.length) ∨
    (ReferencesSpoil config builder children ∧ ∃ builder',
      nodeReferences config children builder = (none, builder') ∧
      builder.operands.length < builder'.operands.length) := by
  by_cases hguard : children.length < 2 ∨ OverBudget config builder.operands.length children.length
  · refine .inl ⟨fun h => hguard.elim (fun hlt => ?_) h.2.1, if_pos hguard⟩
    exact absurd h.1 (by omega)
  obtain ⟨hlength, hbudget⟩ := not_or.1 hguard
  by_cases hany : children.any (childRefused config builder) = true
  · refine .inl ⟨fun h => ?_, by rw [nodeReferences, if_neg hguard, if_pos hany]⟩
    obtain ⟨child, hmem, hchild⟩ := List.any_eq_true.1 hany
    simp [h.2.2.1 child hmem] at hchild
  have hnode : nodeReferences config children builder = addRequest config builder.operands.length
      children.length { builder with operands := builder.operands ++ children } := by
    rw [nodeReferences, if_neg hguard, if_neg hany]
  have hpushed : Pushed builder { builder with operands := builder.operands ++ children }
      children.length true := ⟨rfl, children, rfl, fun _ => rfl⟩
  by_cases hfull : Full config builder.requests.length
  · refine .inr (.inr ⟨⟨by omega, hbudget, by simpa using hany, hfull⟩, _,
      hnode.trans (addRequest_full hfull), ?_⟩)
    simp only [List.length_append]
    omega
  · obtain ⟨builder', hadd, hrecorded⟩ := hpushed.record hbudget (by omega) hfull
    exact .inr (.inl ⟨builder', hnode.trans hadd, hrecorded⟩)

theorem StringReady.not_refused {value : List UInt8} (h : StringReady config builder value) :
    ¬StringRefused config builder value := by
  obtain ⟨positions, hdecode, hbudget, hroom, -⟩ := h
  intro hrefused
  obtain ⟨hzero, position, hhead, hindex⟩ := (hrefused positions hdecode).resolve_left hbudget
  have : position ∈ fresh builder positions := by
    simp [fresh, hindex, List.mem_of_mem_head? hhead]
  have := Finset.card_pos.2 ⟨position, this⟩
  omega

theorem not_nodeSpoils {children : List (UInt64 × UInt64)} (h : children.length < 2 ∨
    OverBudget config builder.operands.length children.length ∨
    ∃ child ∈ children.head?, child.1.toNat ≥ builder.requests.length) :
    ¬NodeSpoils config builder children := by
  rintro ⟨hlength, hbudget, ⟨child, hchild, hlt⟩, -⟩
  rcases h with h | h | ⟨child', hchild', hge⟩
  · omega
  · exact hbudget h
  · obtain rfl := Option.mem_unique hchild hchild'
    omega

theorem number_of_node {value numberTag surface result : UInt64} {builder' : Builder}
    (hcached : builder.numberIndexes value = none)
    (hstring : string config (decimal value) builder = (some surface, middle))
    (hnode : node config [(numberTag, config.tag), (surface, config.identifier)] middle =
      (some result, builder')) :
    number config value numberTag builder = (some result, { builder' with
        numberIndexes := Function.update builder'.numberIndexes value (some result) }) := by
  simp [number, hcached, hstring, hnode]

/-- **What a number call does.** -/
theorem number_cases (value numberTag : UInt64) : (¬NumberSpoils config builder value numberTag ∧
      ∃ result, number config value numberTag builder = (result, builder)) ∨
    (¬NumberSpoils config builder value numberTag ∧ ∃ result middle builder',
      number config value numberTag builder = (some result, builder') ∧
      (middle = builder ∨ ∃ count, Recorded config builder middle count) ∧
      Recorded config middle builder' 2) ∨ (NumberSpoils config builder value numberTag ∧ ∃ builder',
      number config value numberTag builder = (none, builder') ∧
      builder.operands.length < builder'.operands.length) := by
  cases hcached : builder.numberIndexes value with
  | some index =>
    exact .inl ⟨fun h => by simp [NumberSpoils, hcached] at h, _, by rw [number, hcached]⟩
  | none =>
    have hspoils : NumberSpoils config builder value numberTag ↔ match builder.stringIndexes (decimal value) with
        | some surface =>
          NodeSpoils config builder [(numberTag, config.tag), (surface, config.identifier)]
        | none => StringSpoils config builder (decimal value) ∨
          StringReady config builder (decimal value) ∧
            (OverBudget config (builder.operands.length +
                (decodeUtf8 (decimal value) []).2.length) 2 ∨
              numberTag.toNat > builder.requests.length ∨ Full config (builder.requests.length + 1)) :=
      and_iff_right hcached
    obtain ⟨surface, hsurface, hstring⟩ | ⟨hsurface, hrefused, hstring⟩ |
      ⟨hsurface, hready, middle, hstring, hrecorded⟩ | ⟨hstringSpoils, middle, hstring, hlt⟩ :=
      @string_cases config builder (decimal value)
    · -- the digits are a request already
      rw [hspoils, hsurface]
      obtain ⟨hnot, hnode⟩ | ⟨hall, hfull, builder', hnode, hnodeRecorded⟩ | ⟨hnodeSpoils, builder', hnode, hlt⟩ :=
        @node_cases config builder [(numberTag, config.tag), (surface, config.identifier)]
      · exact .inl ⟨not_nodeSpoils hnot, none, by simp [number, hcached, hstring, hnode]⟩
      · refine .inr (.inl ⟨fun h => ?_, _, builder, _, number_of_node hcached hstring hnode,
          .inl rfl, ⟨hnodeRecorded.budget, hnodeRecorded.operands, hnodeRecorded.requests, hfull⟩⟩)
        obtain ⟨child, hmem, hge⟩ | h := h.2.2.2
        · exact absurd (hall child hmem) (by omega)
        · exact hfull h
      · exact .inr (.inr ⟨hnodeSpoils, builder', by simp [number, hcached, hstring, hnode], hlt⟩)
    · rw [hspoils, hsurface]
      refine .inl ⟨fun h => ?_, none, by simp [number, hcached, hstring]⟩
      exact h.elim (fun h => h.2.1 hrefused) fun h => h.1.not_refused hrefused
    · rw [hspoils, hsurface]
      -- the digits are the request before the node
      have hindex : (UInt64.ofNat builder.requests.length).toNat = builder.requests.length := by
        refine Checked.toNat_ofNat (Nat.lt_of_lt_of_le ?_ config.maximumRequests.toNat_lt.le)
        have := hrecorded.notFull
        unfold Full at this
        omega
      have hrequests : middle.requests.length = builder.requests.length + 1 := by
        simp [hrecorded.requests]
      have hdigits : 0 < (decodeUtf8 (decimal value) []).2.length := by
        obtain ⟨positions, hdecode, -⟩ := hready
        rw [hdecode]
        exact List.length_pos_iff.2 (decode_ne_nil hdecode)
      rw [← hrecorded.operands, ← hrequests]
      have hgrown := hrecorded.operands
      obtain ⟨hnot, hnode⟩ | ⟨hall, hfull, builder', hnode, hnodeRecorded⟩ | ⟨hnodeSpoils, builder', hnode, hlt⟩ :=
        @node_cases config middle
          [(numberTag, config.tag), (UInt64.ofNat builder.requests.length, config.identifier)]
      · refine .inr (.inr ⟨.inr ⟨hready, ?_⟩, middle, by simp [number, hcached, hstring, hnode], by omega⟩)
        rcases hnot with h | h | ⟨child, hchild, hge⟩
        · simp at h
        · exact .inl h
        · cases hchild
          exact .inr (.inl (by rw [hrequests] at hge; exact hge))
      · refine .inr (.inl ⟨fun h => ?_, _, middle, _, number_of_node hcached hstring hnode,
          .inr ⟨_, hrecorded⟩, ⟨hnodeRecorded.budget, hnodeRecorded.operands, hnodeRecorded.requests, hfull⟩⟩)
        rcases h with h | ⟨-, h | h | h⟩
        · exact h.2.2 hready
        · exact hnodeRecorded.budget h
        · have := hall _ List.mem_cons_self
          dsimp only at this
          omega
        · exact hfull h
      · refine .inr (.inr ⟨.inr ⟨hready, .inr ?_⟩, builder', by simp [number, hcached, hstring, hnode],
          by omega⟩)
        obtain ⟨-, -, ⟨child, hchild, hhead⟩, ⟨other, hmem, hge⟩ | hfull⟩ := hnodeSpoils
        · cases hchild
          simp only [List.mem_cons, List.not_mem_nil, or_false] at hmem
          rcases hmem with rfl | rfl
          · dsimp only at hhead hge
            omega
          · dsimp only at hge
            omega
        · exact .inr hfull
    · rw [hspoils, hstringSpoils.1]
      exact .inr (.inr ⟨.inl hstringSpoils, middle, by simp [number, hcached, hstring], hlt⟩)

theorem Recorded.tiled {builder' : Builder} (h : Recorded config builder builder' count)
    (htiled : Tiled builder) : Tiled builder' := by
  obtain ⟨hbudget, hoperands, hrequests, -⟩ := h
  have hlt := config.maximumOperands.toNat_lt
  have hrange : range (requestAt config builder.operands.length count builder.requests.length) =
      (builder.operands.length, builder.operands.length + count) := by
    unfold OverBudget at hbudget
    simp only [range, requestAt]
    rw [Checked.toNat_ofNat (by omega : _ < 2 ^ 64),
      Checked.toNat_ofNat (by omega : count < 2 ^ 64)]
  rw [Tiled, hrequests, List.map_append, List.map_singleton, hrange, hoperands]
  exact htiled.append (.single (by omega))

/-- **What a call does.** -/
theorem step_cases (call : Call) :
    (¬Spoils config builder call ∧ ∃ result, step config call builder = (result, builder)) ∨
    (¬Spoils config builder call ∧ ∃ result builder',
      step config call builder = (some result, builder') ∧ (Tiled builder → Tiled builder')) ∨
    (Spoils config builder call ∧ ∃ builder', step config call builder = (none, builder') ∧
      builder.operands.length < builder'.operands.length) := by
  cases call with
  | string value =>
    obtain ⟨index, hindex, h⟩ | ⟨-, hrefused, h⟩ | ⟨-, hready, builder', h, hrecorded⟩ | hspoils :=
      @string_cases config builder value
    · exact .inl ⟨fun hspoils => by simp [Spoils, StringSpoils, hindex] at hspoils, _, h⟩
    · exact .inl ⟨fun hspoils => hspoils.2.1 hrefused, _, h⟩
    · exact .inr (.inl ⟨fun hspoils => hspoils.2.2 hready, _, _, h, hrecorded.tiled⟩)
    · exact .inr (.inr hspoils)
  | number value numberTag =>
    obtain h | ⟨hnot, result, middle, builder', h, hmiddle, hrecorded⟩ | hspoils :=
      @number_cases config builder value numberTag
    · exact .inl h
    · refine .inr (.inl ⟨hnot, result, builder', h, fun htiled => hrecorded.tiled ?_⟩)
      obtain rfl | ⟨count, hcount⟩ := hmiddle
      · exact htiled
      · exact hcount.tiled htiled
    · exact .inr (.inr hspoils)
  | node children =>
    obtain ⟨hnot, h⟩ | ⟨hall, hfull, builder', h, hrecorded⟩ | hspoils := @node_cases config builder children
    · exact .inl ⟨not_nodeSpoils hnot, _, h⟩
    · refine .inr (.inl ⟨fun hspoils => ?_, _, _, h, hrecorded.tiled⟩)
      obtain ⟨child, hmem, hge⟩ | h := hspoils.2.2.2
      · exact absurd (hall child hmem) (by omega)
      · exact hfull h
    · exact .inr (.inr hspoils)
  | nodeReferences children =>
    obtain ⟨hnot, h⟩ | ⟨builder', h, hrecorded⟩ | hspoils := @nodeReferences_cases config builder children
    · exact .inl ⟨hnot, _, h⟩
    · exact .inr (.inl ⟨fun hspoils => hrecorded.notFull hspoils.2.2.2, _, _, h, hrecorded.tiled⟩)
    · exact .inr (.inr hspoils)

theorem step_unchanged_iff {call : Call} : ((step config call builder).1 = none →
    SameArrays (step config call builder).2 builder) ↔ ¬Spoils config builder call := by
  obtain ⟨hnot, result, h⟩ | ⟨hnot, result, builder', h, -⟩ | ⟨hspoils, builder', h, hlt⟩ :=
    @step_cases config builder call
  · simp [h, hnot, SameArrays]
  · simp [h, hnot]
  · simp only [h, hspoils, not_true, iff_false, true_implies]
    rintro ⟨-, heq, -⟩
    rw [heq] at hlt
    exact lt_irrefl _ hlt

theorem run_tiled : ∀ {calls : List Call} {builder : Builder}, Clean config calls builder →
    Tiled builder → Tiled (run config calls builder) := by
  intro calls
  induction calls with
  | nil => intro builder _ htiled; exact htiled
  | cons call calls ih =>
    rintro builder ⟨hclean, hcalls⟩ htiled
    refine ih hcalls ?_
    change Tiled (step config call builder).2
    obtain ⟨-, result, h⟩ | ⟨-, result, builder', h, hkeeps⟩ | ⟨hspoils, -⟩ :=
      @step_cases config builder call
    · rwa [h]
    · rw [h]
      exact hkeeps htiled
    · exact absurd hspoils hclean

end Calls

/-- **The builder.** A failing call leaves the arrays as they are exactly when it does not spoil the
builder, and the requests of a run of such calls tile the operands. -/
theorem builder_atomic_iff (config : Config) (builder : Builder) (call : Call) (calls : List Call) :
    (((step config call builder).1 = none → SameArrays (step config call builder).2 builder) ↔
      ¬Spoils config builder call) ∧
    (Clean config calls Builder.empty → Tiled (run config calls Builder.empty)) :=
  ⟨step_unchanged_iff, fun hclean => run_tiled hclean rfl⟩

def plainConfig : Config := ⟨0, 0, 0, 1, 0, 6, 0, 100, 100, 1, 3⟩

/-- A node whose second child does not exist leaves its first behind, and the request that comes next
begins after it. -/
theorem orphan_operand : let letter := run plainConfig [.string [0x61]] Builder.empty
    (step plainConfig (.node [(0, 2), (7, 2)]) letter).1 = none ∧
    ¬SameArrays (step plainConfig (.node [(0, 2), (7, 2)]) letter).2 letter ∧
    ¬Tiled (run plainConfig [.string [0x61], .node [(0, 2), (7, 2)], .string [0x62]] Builder.empty) := by
  refine ⟨by decide +kernel, fun h => ?_, ?_⟩
  · exact absurd (congrArg List.length h.2.1) (by decide +kernel)
  · intro h
    have hmap : (run plainConfig [.string [0x61], .node [(0, 2), (7, 2)], .string [0x62]]
        Builder.empty).requests.map range = [(0, 1), (2, 3)] := by decide +kernel
    rw [Tiled, hmap] at h
    simp at h

end Laplace.CanonicalPlan
