import Laplace.Composition.Input
import Laplace.Decomposition.Lines
import Laplace.Unicode.Utf8Decoders

/-!
# The composition plan of a decomposition (decomposition_composition.cpp)

A plan has an atom for each code point, and a request for each text of more than one. A span refers
to the atom or the request of its text; a text that has been met before keeps its reference. The maps
of the builder are lists of pairs, and an array is a list that lies in a 64-bit address space. A call
that runs out of memory earlier hands out no plan and is not modelled.
-/

namespace Laplace.Decomposition.Composition

open Laplace.Composition (Operand Request referenceKnownEntity referencePriorResult)

/-- `laplace_decomposition_composition_status` -/
inductive Status
  | ok | invalidArgument | decompositionInvalid | utf8Invalid | memoryFailure | overflow
deriving DecidableEq, Repr

/-- `laplace_decomposition_composition_input` -/
structure Input where
  content : Content
  decomposition : Result
  recipeFingerprint : Digest256
  geometryEpoch : Digest256
  occurrenceContextFingerprint : Digest256
  sourceOrdinalBase : UInt64
  flags : UInt32
  reserved : UInt32

/-- `laplace_decomposition_composition_plan_view`; a null pointer is no list. -/
structure PlanView where
  traceFingerprint : Digest256
  atomPositions : Option (List UInt32)
  operands : Option (List Operand)
  requests : Option (List Request)
  spanReferences : Option (List Operand)
  spanHasContent : Option (List UInt8)
  atomCount : UInt64
  operandCount : UInt64
  requestCount : UInt64
  spanCount : UInt64
  rootResultIndex : UInt64
  recipeVersion : UInt32
  flags : UInt32
  rootReference : Operand

/-- The arrays of `laplace_decomposition_composition_plan`, the maps of `Builder`, and what its trace
hasher has been fed. -/
structure Builder where
  atomPositions : List UInt32 := []
  operands : List Operand := []
  requests : List Request := []
  spanReferences : List Operand := []
  spanHasContent : List UInt8 := []
  atomIndexes : List (UInt32 × UInt64) := []
  textReferences : List (List UInt8 × Operand) := []
  trace : List UInt8 := []

def recipeVersion : UInt32 := 1
def noResultIndex : UInt64 := Checked.maxWord

/-- `laplace_composition_operand{}` -/
def zeroReference : Operand := ⟨0, 0, 0, 0, 0⟩

def knownEntityReference (index : UInt64) : Operand := ⟨index, 1, 0, referenceKnownEntity, 0⟩

def priorResultReference (index : UInt64) : Operand := ⟨index, 1, 0, referencePriorResult, 0⟩

/-- Whether an array of `count` elements of `size` bytes lies in the address space. -/
def fits (count size : ℕ) : Except Status Unit :=
  if count * size < 2 ^ 64 then .ok () else .error .memoryFailure

/-! ## Texts -/

/-- `AtomIndex` -/
def atomIndex (builder : Builder) (position : UInt32) : Except Status (UInt64 × Builder) :=
  match builder.atomIndexes.lookup position with
  | some index => .ok (index, builder)
  | none => do
    let index := UInt64.ofNat builder.atomPositions.length
    fits (builder.atomPositions.length + 1) 4
    return (index, { builder with
      atomPositions := builder.atomPositions ++ [position]
      atomIndexes := (position, index) :: builder.atomIndexes })

/-- `plan_.operands.push_back(KnownEntityReference(AtomIndex(position)))` for each position. -/
def pushOperands (builder : Builder) : List UInt32 → Except Status Builder
  | [] => .ok builder
  | position :: positions => do
    let (index, builder) ← atomIndex builder position
    fits (builder.operands.length + 1) 32
    pushOperands { builder with operands := builder.operands ++ [knownEntityReference index] } positions

/-- `AddRequest` -/
def addRequest (input : Input) (builder : Builder) (first : UInt64) (count : ℕ) :
    Except Status (UInt64 × Builder) :=
  if count = 0 ∨ 2 ^ 64 - 1 ≤ builder.requests.length then .error .overflow
  else
    let index := UInt64.ofNat builder.requests.length
    match Checked.checkedAdd input.sourceOrdinalBase (index + 1) with
    | none => .error .overflow
    | some sourceOrdinal => do
      fits (builder.requests.length + 1) 128
      return (index, { builder with
        requests := builder.requests ++ [{
          firstOperand := first
          operandCount := UInt64.ofNat count
          sourceOrdinal
          recipeVersion
          flags := 0
          recipeFingerprint := input.recipeFingerprint
          geometryEpoch := input.geometryEpoch
          occurrenceContextFingerprint := input.occurrenceContextFingerprint }] })

/-- `text_references_.emplace(key, reference)` -/
def Builder.remember (builder : Builder) (key : List UInt8) (reference : Operand) : Builder :=
  { builder with textReferences := (key, reference) :: builder.textReferences }

/-- The part of `TextImpl` behind the decoder. -/
def newText (input : Input) (builder : Builder) (key : List UInt8) (positions : List UInt32) :
    Except Status (Operand × Builder) :=
  match positions with
  | [] => .error .utf8Invalid
  | [position] => do
    let (index, builder) ← atomIndex builder position
    return (knownEntityReference index, builder.remember key (knownEntityReference index))
  | positions => do
    let first := UInt64.ofNat builder.operands.length
    let builder ← pushOperands builder positions
    let (result, builder) ← addRequest input builder first positions.length
    return (priorResultReference result, builder.remember key (priorResultReference result))

/-- `Text` -/
def text (input : Input) (builder : Builder) (bytes : List UInt8) : Except Status (Operand × Builder) :=
  if bytes = [] then .error .utf8Invalid
  else match builder.textReferences.lookup bytes with
    | some reference => .ok (reference, builder)
    | none =>
      match Unicode.Decomposition.decodeUtf8 bytes [] with
      | (false, _) => .error .utf8Invalid
      | (true, positions) => newText input builder bytes positions

/-! ## Spans -/

/-- `HashBytes` -/
def countedBytes (bytes : List UInt8) : List UInt8 := u64Bytes (UInt64.ofNat bytes.length) ++ bytes

/-- What the trace takes from a span. -/
def traceBytes (spanIndex : ℕ) (span : Span) (mediaType : List UInt8) : List UInt8 :=
  u64Bytes (UInt64.ofNat spanIndex) ++ u64Bytes span.byteStart ++ u64Bytes span.byteEnd ++
  u64Bytes span.parentSpanIndex ++ countedBytes span.providerFingerprint.bytes ++ u64Bytes span.kind ++
  u64Bytes span.grammarKind ++ u64Bytes span.fieldKind ++ u64Bytes span.siblingOrdinal ++
  u32Bytes span.depth ++ u32Bytes span.flags ++ u32Bytes span.syntaxFlags ++ countedBytes mediaType

def HasContent (span : Span) : Prop := span.byteStart < span.byteEnd

instance hasContentDecidable (span : Span) : Decidable (HasContent span) :=
  inferInstanceAs (Decidable (span.byteStart < span.byteEnd))

/-- What `Build` refuses of a span. -/
def SpanInvalid (content : Content) (spanIndex : ℕ) (span : Span) : Prop :=
  span.byteEnd < span.byteStart ∨
  ¬ HasContent span ∧ span.syntaxFlags &&& missingSyntaxFlag = 0 ∨
  span.syntaxFlags &&& syntaxEmpty ≠ 0 ∧ (HasContent span ∨ span.syntaxFlags &&& syntaxMissing ≠ 0) ∨
  content.byteCount < span.byteEnd ∨ span.reserved ≠ 0 ∨
  spanIndex = 0 ∧ (¬ HasContent span ∨ span.byteStart ≠ 0 ∨ span.byteEnd ≠ content.byteCount ∨
    span.parentSpanIndex ≠ absentIndex) ∨
  spanIndex ≠ 0 ∧ UInt64.ofNat spanIndex ≤ span.parentSpanIndex

instance spanInvalidDecidable (content : Content) (spanIndex : ℕ) (span : Span) :
    Decidable (SpanInvalid content spanIndex span) := by
  unfold SpanInvalid
  infer_instance

def Builder.addReference (builder : Builder) (reference : Operand) (hasContent : UInt8) : Builder :=
  { builder with
    spanReferences := builder.spanReferences ++ [reference]
    spanHasContent := builder.spanHasContent ++ [hasContent] }

/-- One round of the loop of `Build`. The pointer to a media type is null exactly when it has no bytes. -/
def addSpan (input : Input) (builder : Builder) (spanIndex : ℕ) (span : Span) :
    Except Status Builder := do
  if SpanInvalid input.content spanIndex span then .error .decompositionInvalid
  let mediaType := input.decomposition.mediaTypes.getD spanIndex []
  let builder := { builder with trace := builder.trace ++ traceBytes spanIndex span mediaType }
  if ¬ HasContent span then return builder.addReference zeroReference 0
  let (reference, builder) ← text input builder (spanBytes input.content span)
  return builder.addReference reference 1

/-- The loop of `Build` from an index on. -/
def addSpans (input : Input) (builder : Builder) (spanIndex : ℕ) : List Span → Except Status Builder
  | [] => .ok builder
  | span :: spans => do
    let builder ← addSpan input builder spanIndex span
    addSpans input builder (spanIndex + 1) spans

/-! ## Plans -/

/-- The data of a vector. -/
def dataOf {α : Type} (elements : List α) : Option (List α) :=
  if elements.isEmpty then none else some elements

section Functions

variable (blake3 : Blake3)

/-- The end of `Build`, and `Bind`. -/
def bindView (builder : Builder) (spanCount : ℕ) (root : Operand) : PlanView where
  traceFingerprint := blake3 builder.trace
  atomPositions := dataOf builder.atomPositions
  operands := dataOf builder.operands
  requests := dataOf builder.requests
  spanReferences := dataOf builder.spanReferences
  spanHasContent := dataOf builder.spanHasContent
  atomCount := UInt64.ofNat builder.atomPositions.length
  operandCount := UInt64.ofNat builder.operands.length
  requestCount := UInt64.ofNat builder.requests.length
  spanCount := UInt64.ofNat spanCount
  rootResultIndex := if root.referenceKind = referencePriorResult then root.referenceIndex else noResultIndex
  recipeVersion := recipeVersion
  flags := 0
  rootReference := root

/-- `Build`; the plan is its view. -/
def build (input : Input) : Except Status PlanView := do
  let spans := input.decomposition.spans
  if spans = [] ∨ input.content.bytes = [] then .error .decompositionInvalid
  if input.decomposition.summary.spanCount ≠ UInt64.ofNat spans.length then .error .decompositionInvalid
  let trace := countedBytes (domainBytes "laplace.decomposition.composition.trace/v2") ++
    countedBytes input.content.bytes ++ u64Bytes (UInt64.ofNat spans.length)
  fits spans.length 32
  let builder ← addSpans input { trace } 0 spans
  match builder.spanHasContent, builder.spanReferences with
  | 1 :: _, root :: _ => return bindView blake3 builder spans.length root
  | _, _ => .error .decompositionInvalid

def inputValid (input : Input) : Bool :=
  !input.content.bytes.isEmpty && input.recipeFingerprint != 0 && input.geometryEpoch != 0 &&
  input.occurrenceContextFingerprint != 0 && input.flags == 0 && input.reserved == 0

/-- `laplace_decomposition_composition_plan_create` -/
def planCreate (input : Input) : Except Status PlanView :=
  if !inputValid input then .error .invalidArgument else build blake3 input

end Functions

/-! ## Reading a plan -/

def canonicalReferenceValid (view : PlanView) (reference : Operand) : Bool :=
  if reference.multiplicity ≠ 1 ∨ reference.relationshipMetadata ≠ 0 ∨ reference.flags ≠ 0 then false
  else if reference.referenceKind = referenceKnownEntity then reference.referenceIndex < view.atomCount
  else if reference.referenceKind = referencePriorResult then reference.referenceIndex < view.requestCount
  else false

def rootReferenceValid (view : PlanView) : Bool :=
  if !canonicalReferenceValid view view.rootReference then false
  else if view.rootReference.referenceKind = referenceKnownEntity then view.rootResultIndex == noResultIndex
  else view.rootReference.referenceIndex == view.rootResultIndex

/-- The reference of a span, and whether it has content. -/
def PlanView.reference (view : PlanView) (spanIndex : ℕ) : Operand :=
  (view.spanReferences.getD []).getD spanIndex zeroReference

def PlanView.hasContent (view : PlanView) (spanIndex : ℕ) : UInt8 :=
  (view.spanHasContent.getD []).getD spanIndex 0

/-- What the loop of `laplace_decomposition_composition_plan_view_get` refuses of a span. -/
def spanRefused (view : PlanView) (spanIndex : ℕ) : Bool :=
  view.hasContent spanIndex > 1 ||
  view.hasContent spanIndex == 1 && !canonicalReferenceValid view (view.reference spanIndex) ||
  view.hasContent spanIndex == 0 && view.reference spanIndex != zeroReference

/-- `laplace_decomposition_composition_plan_view_get` -/
def planViewGet (view : PlanView) : Status × Option PlanView :=
  if view.atomPositions.isNone || view.atomCount == 0 ||
      view.operandCount != 0 && view.operands.isNone ||
      view.requestCount != 0 && view.requests.isNone || view.spanCount == 0 ||
      view.spanReferences.isNone || view.spanHasContent.isNone || view.hasContent 0 != 1 ||
      !rootReferenceValid view then (.invalidArgument, none)
  else if (List.range view.spanCount.toNat).any (spanRefused view) then (.invalidArgument, none)
  else if view.rootReference.referenceIndex ≠ (view.reference 0).referenceIndex ∨
      view.rootReference.referenceKind ≠ (view.reference 0).referenceKind then (.invalidArgument, none)
  else (.ok, some view)

/-! ## What a plan means -/

/-- The operands of a request. -/
def PlanView.operandsOf (view : PlanView) (request : Request) : List Operand :=
  ((view.operands.getD []).drop request.firstOperand.toNat).take request.operandCount.toNat

/-- The code points that a reference stands for, through at most `depth` requests one in the other. -/
def expand (view : PlanView) : ℕ → Operand → Option (List UInt32)
  | depth, reference =>
    if reference.referenceKind = referenceKnownEntity then
      (view.atomPositions.getD [])[reference.referenceIndex.toNat]?.map
        (List.replicate reference.multiplicity.toNat)
    else if reference.referenceKind = referencePriorResult then
      match depth with
      | 0 => none
      | depth + 1 => do
        let request ← (view.requests.getD [])[reference.referenceIndex.toNat]?
        let parts ← (view.operandsOf request).mapM (expand view depth)
        return (List.replicate reference.multiplicity.toNat parts.flatten).flatten
    else none

end Laplace.Decomposition.Composition
