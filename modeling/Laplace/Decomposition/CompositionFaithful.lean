import Mathlib.Data.List.GetD
import Laplace.Decomposition.CompositionPlan
import Laplace.Lib.Outcome

/-!
# The composition plan is faithful (decomposition_composition.cpp:144-323, 442-500)

The arrays of a builder only grow, so what a reference stands for stays. A remembered text has a
reference that stands for its code points, and the reference of a span is the remembered one of its
bytes: so it tells the bytes, and equal bytes share it.
-/

namespace Laplace.Decomposition.Composition

open Checked
open Laplace.Composition (Operand Request referenceKnownEntity referencePriorResult)
open Unicode (Spells decodeLoop_iff spells_iff)

/-! ## What a reference stands for -/

/-- A reference to the atom of a code point. -/
def AtomOf (atomPositions : List UInt32) (reference : Operand) (position : UInt32) : Prop :=
  ∃ index, reference = knownEntityReference index ∧ atomPositions[index.toNat]? = some position

/-- The operands of a request are atoms of the code points. -/
structure Builder.Spelled (builder : Builder) (request : Request) (positions : List UInt32) : Prop where
  within : request.firstOperand.toNat + request.operandCount.toNat ≤ builder.operands.length
  atoms : List.Forall₂ (AtomOf builder.atomPositions)
    ((builder.operands.drop request.firstOperand.toNat).take request.operandCount.toNat) positions

/-- A reference stands for code points. -/
inductive Builder.Stands (builder : Builder) (reference : Operand) (positions : List UInt32) : Prop
  | atom {position : UInt32} (spelled : positions = [position])
    (atom : AtomOf builder.atomPositions reference position)
  | request {index : UInt64} {request : Request} (shape : reference = priorResultReference index)
    (found : builder.requests[index.toNat]? = some request)
    (spelled : builder.Spelled request positions)

/-- A builder has grown: its arrays at their ends, and its texts keep their references. -/
structure Builder.Grows (builder later : Builder) : Prop where
  atoms : builder.atomPositions <+: later.atomPositions
  operands : builder.operands <+: later.operands
  requests : builder.requests <+: later.requests
  texts : ∀ key reference, builder.textReferences.lookup key = some reference →
    later.textReferences.lookup key = some reference

/-- What the texts leave alone. -/
structure Builder.SameSpans (builder later : Builder) : Prop where
  references : later.spanReferences = builder.spanReferences
  contents : later.spanHasContent = builder.spanHasContent

/-- What the spans and the trace leave alone. -/
structure Builder.SameTexts (builder later : Builder) : Prop where
  atoms : later.atomPositions = builder.atomPositions
  operands : later.operands = builder.operands
  requests : later.requests = builder.requests
  indexes : later.atomIndexes = builder.atomIndexes
  texts : later.textReferences = builder.textReferences

/-- The invariant of a builder. -/
structure Builder.Sound (builder : Builder) : Prop where
  atomsFit : builder.atomPositions.length < 2 ^ 64
  operandsFit : builder.operands.length < 2 ^ 64
  requestsFit : builder.requests.length < 2 ^ 64
  indexes : ∀ position index, builder.atomIndexes.lookup position = some index →
    builder.atomPositions[index.toNat]? = some position
  texts : ∀ key reference, builder.textReferences.lookup key = some reference →
    ∃ positions, Spells positions key ∧ positions ≠ [] ∧ builder.Stands reference positions

section Growth

variable {builder later last : Builder} {reference : Operand} {position : UInt32} {request : Request}
  {positions : List UInt32}

theorem Builder.Grows.refl (builder : Builder) : builder.Grows builder :=
  ⟨List.prefix_rfl, List.prefix_rfl, List.prefix_rfl, fun _ _ h => h⟩

theorem Builder.Grows.trans (h : builder.Grows later) (h' : later.Grows last) : builder.Grows last :=
  ⟨h.atoms.trans h'.atoms, h.operands.trans h'.operands, h.requests.trans h'.requests,
    fun key reference hlookup => h'.texts key reference (h.texts key reference hlookup)⟩

theorem Builder.SameSpans.trans (h : builder.SameSpans later) (h' : later.SameSpans last) :
    builder.SameSpans last :=
  ⟨h'.references.trans h.references, h'.contents.trans h.contents⟩

theorem getElem?_of_grown {α : Type} {front whole : List α} (h : front <+: whole) {index : ℕ} {element : α}
    (hfront : front[index]? = some element) : whole[index]? = some element := by
  obtain ⟨back, rfl⟩ := h
  rw [List.getElem?_append_left (List.getElem?_eq_some_iff.1 hfront).1]
  exact hfront

theorem AtomOf.mono {atomPositions atomPositions' : List UInt32} (h : AtomOf atomPositions reference position)
    (hgrows : atomPositions <+: atomPositions') : AtomOf atomPositions' reference position := by
  obtain ⟨index, hreference, hatom⟩ := h
  exact ⟨index, hreference, getElem?_of_grown hgrows hatom⟩

theorem Builder.Spelled.mono (h : builder.Spelled request positions) (hgrows : builder.Grows later) :
    later.Spelled request positions := by
  have hslice : (later.operands.drop request.firstOperand.toNat).take request.operandCount.toNat =
      (builder.operands.drop request.firstOperand.toNat).take request.operandCount.toNat := by
    obtain ⟨back, hback⟩ := hgrows.operands
    have hwithin := h.within
    rw [← hback, List.drop_append_of_le_length (by omega), List.take_append_of_le_length]
    rw [List.length_drop]
    omega
  refine ⟨h.within.trans hgrows.operands.length_le, ?_⟩
  rw [hslice]
  exact h.atoms.imp fun _ _ hatom => hatom.mono hgrows.atoms

theorem Builder.Stands.mono (h : builder.Stands reference positions) (hgrows : builder.Grows later) :
    later.Stands reference positions := by
  cases h with
  | atom spelled atom => exact .atom spelled (atom.mono hgrows.atoms)
  | request shape found spelled =>
    exact .request shape (getElem?_of_grown hgrows.requests found) (spelled.mono hgrows)

theorem Builder.Sound.texts_mono (h : builder.Sound) (hgrows : builder.Grows later)
    (hsame : later.textReferences = builder.textReferences) :
    ∀ key reference, later.textReferences.lookup key = some reference →
      ∃ positions, Spells positions key ∧ positions ≠ [] ∧ later.Stands reference positions := by
  intro key reference hlookup
  rw [hsame] at hlookup
  obtain ⟨positions, hspells, hne, hstands⟩ := h.texts key reference hlookup
  exact ⟨positions, hspells, hne, hstands.mono hgrows⟩

theorem Builder.SameTexts.grows (h : builder.SameTexts later) : builder.Grows later := by
  refine ⟨?_, ?_, ?_, fun key reference hlookup => by rwa [h.texts]⟩
  · rw [h.atoms]
  · rw [h.operands]
  · rw [h.requests]

theorem Builder.Sound.congr (h : builder.Sound) (hsame : builder.SameTexts later) : later.Sound := by
  refine ⟨?_, ?_, ?_, ?_, h.texts_mono hsame.grows hsame.texts⟩
  · rw [hsame.atoms]
    exact h.atomsFit
  · rw [hsame.operands]
    exact h.operandsFit
  · rw [hsame.requests]
    exact h.requestsFit
  · rw [hsame.indexes, hsame.atoms]
    exact h.indexes

end Growth

/-! ## Texts -/

/-- The reasons to leave that say nothing about the text. -/
def Resource (status : Status) : Prop := status = .memoryFailure ∨ status = .overflow

theorem fits_outcome (count size : ℕ) : Outcome (fits count size) (fun _ => count * size < 2 ^ 64) Resource := by
  rw [fits]
  exact .ite (fun h => h) fun _ => .inl rfl

section Texts

variable {input : Input} {builder : Builder}

theorem atomIndex_outcome (h : builder.Sound) (position : UInt32) : Outcome (atomIndex builder position)
      (fun result => result.2.Sound ∧ builder.Grows result.2 ∧ builder.SameSpans result.2 ∧
        result.2.atomPositions[result.1.toNat]? = some position ∧
        result.2.operands = builder.operands ∧ result.2.textReferences = builder.textReferences)
      Resource := by
  rw [atomIndex]
  cases hlookup : builder.atomIndexes.lookup position with
  | some index => exact ⟨h, .refl _, ⟨rfl, rfl⟩, h.indexes position index hlookup, rfl, rfl⟩
  | none =>
    refine (fits_outcome _ _).bind fun _ hfits => Outcome.pure ?_
    have hlength : (UInt64.ofNat builder.atomPositions.length).toNat = builder.atomPositions.length :=
      toNat_ofNat h.atomsFit
    have hgrows : builder.Grows { builder with
        atomPositions := builder.atomPositions ++ [position]
        atomIndexes := (position, UInt64.ofNat builder.atomPositions.length) :: builder.atomIndexes } :=
      ⟨List.prefix_append _ _, List.prefix_rfl, List.prefix_rfl, fun _ _ h => h⟩
    have hnew : (builder.atomPositions ++ [position])[(UInt64.ofNat
        builder.atomPositions.length).toNat]? = some position := by
      rw [hlength, List.getElem?_concat_length]
    refine ⟨⟨?_, h.operandsFit, h.requestsFit, fun position' index hindex => ?_,
      h.texts_mono hgrows rfl⟩, hgrows, ⟨rfl, rfl⟩, hnew, rfl, rfl⟩
    · rw [List.length_append, List.length_singleton]
      omega
    · rw [List.lookup_cons] at hindex
      split at hindex
      · rename_i heq
        cases hindex
        rw [beq_iff_eq] at heq
        rw [heq]
        exact hnew
      · exact getElem?_of_grown hgrows.atoms (h.indexes position' index hindex)

theorem pushOperands_outcome : ∀ {positions : List UInt32} {builder : Builder}, builder.Sound →
    Outcome (pushOperands builder positions)
      (fun later => later.Sound ∧ builder.Grows later ∧ builder.SameSpans later ∧
        later.textReferences = builder.textReferences ∧
        ∃ references, later.operands = builder.operands ++ references ∧
          List.Forall₂ (AtomOf later.atomPositions) references positions) Resource
  | [], builder, h =>
    ⟨h, .refl _, ⟨rfl, rfl⟩, rfl, [], (List.append_nil _).symm, .nil⟩
  | position :: positions, builder, h => by
    rw [pushOperands]
    refine (atomIndex_outcome h position).bind
      fun ⟨index, next⟩ ⟨hsound, hgrows, hspans, hatom, hoperands, htexts⟩ => ?_
    refine (fits_outcome _ _).bind fun _ hfits => ?_
    have hpush : next.Grows { next with operands := next.operands ++ [knownEntityReference index] } :=
      ⟨List.prefix_rfl, List.prefix_append _ _, List.prefix_rfl, fun _ _ h => h⟩
    have hsound' : Builder.Sound { next with operands := next.operands ++ [knownEntityReference index] } :=
      ⟨hsound.atomsFit, by rw [List.length_append, List.length_singleton]; omega, hsound.requestsFit,
        hsound.indexes, hsound.texts_mono hpush rfl⟩
    refine (pushOperands_outcome hsound').mono ?_ fun _ h => h
    rintro later ⟨hlater, hgrows', hspans', htexts', references, hreferences, hatoms⟩
    refine ⟨hlater, hgrows.trans (hpush.trans hgrows'), ⟨hspans'.references.trans hspans.references,
      hspans'.contents.trans hspans.contents⟩, htexts'.trans htexts, knownEntityReference index :: references,
      ?_, .cons ⟨index, rfl, getElem?_of_grown hgrows'.atoms hatom⟩ hatoms⟩
    rw [hreferences]
    dsimp only at hoperands ⊢
    rw [hoperands, List.append_assoc]
    rfl

variable {positions : List UInt32}

theorem addRequest_outcome (h : builder.Sound) {first : UInt64}
    (hfirst : first.toNat + positions.length ≤ builder.operands.length)
    (hatoms : List.Forall₂ (AtomOf builder.atomPositions)
      ((builder.operands.drop first.toNat).take positions.length) positions) :
    Outcome (addRequest input builder first positions.length)
      (fun result => result.2.Sound ∧ builder.Grows result.2 ∧ builder.SameSpans result.2 ∧
        result.2.textReferences = builder.textReferences ∧
        result.2.Stands (priorResultReference result.1) positions) Resource := by
  rw [addRequest]
  refine .ite (fun _ => .inr rfl) fun _ => ?_
  dsimp only
  cases checkedAdd input.sourceOrdinalBase (UInt64.ofNat builder.requests.length + 1) with
  | none => exact .inr rfl
  | some sourceOrdinal =>
    refine (fits_outcome _ _).bind fun _ hfits => Outcome.pure ?_
    have hcount : (UInt64.ofNat positions.length).toNat = positions.length :=
      toNat_ofNat (Nat.lt_of_le_of_lt (Nat.le_trans (Nat.le_add_left ..) hfirst) h.operandsFit)
    have hindex : (UInt64.ofNat builder.requests.length).toNat = builder.requests.length :=
      toNat_ofNat h.requestsFit
    generalize hrequest : Request.mk first (UInt64.ofNat positions.length) sourceOrdinal recipeVersion 0
      input.recipeFingerprint input.geometryEpoch input.occurrenceContextFingerprint = request
    have hgrows : builder.Grows { builder with requests := builder.requests ++ [request] } :=
      ⟨List.prefix_rfl, List.prefix_rfl, List.prefix_append _ _, fun _ _ h => h⟩
    have hfound : (builder.requests ++ [request])[(UInt64.ofNat builder.requests.length).toNat]? =
        some request := by
      rw [hindex, List.getElem?_concat_length]
    refine ⟨⟨h.atomsFit, h.operandsFit, ?_, h.indexes, h.texts_mono hgrows rfl⟩, hgrows, ⟨rfl, rfl⟩, rfl,
      .request rfl hfound ?_⟩
    · rw [List.length_append, List.length_singleton]
      omega
    · subst hrequest
      refine ⟨?_, ?_⟩ <;> rw [hcount]
      · exact hfirst
      · exact hatoms

theorem Builder.Sound.remember (h : builder.Sound) {key : List UInt8} {reference : Operand}
    (hspells : Spells positions key) (hne : positions ≠ [])
    (hstands : builder.Stands reference positions) (hnew : builder.textReferences.lookup key = none) :
    (builder.remember key reference).Sound ∧ builder.Grows (builder.remember key reference) ∧
      builder.SameSpans (builder.remember key reference) ∧
      (builder.remember key reference).textReferences.lookup key = some reference := by
  have hself : (builder.remember key reference).textReferences.lookup key = some reference := by
    rw [Builder.remember, List.lookup_cons_self]
  have hgrows : builder.Grows (builder.remember key reference) := by
    refine ⟨List.prefix_rfl, List.prefix_rfl, List.prefix_rfl, fun key' reference' hlookup => ?_⟩
    rw [Builder.remember, List.lookup_cons]
    split
    · rename_i heq
      rw [beq_iff_eq.1 heq, hnew] at hlookup
      cases hlookup
    · exact hlookup
  refine ⟨⟨h.atomsFit, h.operandsFit, h.requestsFit, h.indexes, fun key' reference' hlookup => ?_⟩, hgrows,
    ⟨rfl, rfl⟩, hself⟩
  rw [Builder.remember, List.lookup_cons] at hlookup
  split at hlookup
  · rename_i heq
    cases hlookup
    rw [beq_iff_eq.1 heq]
    exact ⟨positions, hspells, hne, hstands.mono hgrows⟩
  · obtain ⟨positions', hspells', hne', hstands'⟩ := h.texts key' reference' hlookup
    exact ⟨positions', hspells', hne', hstands'.mono hgrows⟩

theorem newText_outcome (h : builder.Sound) {key : List UInt8} (hspells : Spells positions key)
    (hne : positions ≠ []) (hnew : builder.textReferences.lookup key = none) :
    Outcome (newText input builder key positions)
      (fun result => result.2.Sound ∧ builder.Grows result.2 ∧ builder.SameSpans result.2 ∧
        result.2.textReferences.lookup key = some result.1) Resource := by
  match positions with
  | [] => exact absurd rfl hne
  | [position] =>
    rw [newText]
    refine (atomIndex_outcome h position).bind
      fun ⟨index, next⟩ ⟨hsound, hgrows, hspans, hatom, _, htexts⟩ => ?_
    obtain ⟨hsound', hgrows', hspans', hlookup⟩ := hsound.remember hspells hne
      (.atom rfl ⟨index, rfl, hatom⟩) (htexts ▸ hnew)
    exact ⟨hsound', hgrows.trans hgrows', hspans.trans hspans', hlookup⟩
  | first :: second :: rest =>
    rw [newText]
    case x => exact nofun
    case x_1 => exact nofun
    refine (pushOperands_outcome h).bind
      fun next ⟨hsound, hgrows, hspans, htexts, references, hoperands, hatoms⟩ => ?_
    have hfirst : (UInt64.ofNat builder.operands.length).toNat = builder.operands.length :=
      toNat_ofNat h.operandsFit
    have hlength := hatoms.length_eq
    refine (addRequest_outcome hsound ?_ ?_).bind
      fun ⟨result, last⟩ ⟨hsound', hgrows', hspans', htexts', hstands⟩ => ?_
    · rw [hfirst, hoperands, List.length_append, hlength]
    · rw [hfirst, hoperands, List.drop_left, ← hlength, List.take_length]
      exact hatoms
    obtain ⟨hsound'', hgrows'', hspans'', hlookup⟩ := hsound'.remember hspells hne hstands
      (by rw [htexts', htexts, hnew])
    exact ⟨hsound'', (hgrows.trans hgrows').trans hgrows'', (hspans.trans hspans').trans hspans'', hlookup⟩

theorem text_outcome (h : builder.Sound) {bytes : List UInt8} (hbytes : bytes ≠ []) :
    Outcome (text input builder bytes)
      (fun result => result.2.Sound ∧ builder.Grows result.2 ∧ builder.SameSpans result.2 ∧
        result.2.textReferences.lookup bytes = some result.1)
      (fun status => Resource status ∨ status = .utf8Invalid ∧ ¬ Utf8.WellFormed bytes) := by
  rw [text, if_neg hbytes]
  cases hlookup : builder.textReferences.lookup bytes with
  | some reference => exact ⟨h, .refl _, ⟨rfl, rfl⟩, hlookup⟩
  | none =>
    rcases hdecode : Unicode.Decomposition.decodeUtf8 bytes [] with ⟨_ | _, positions⟩
    · refine .inr ⟨rfl, fun hwell => ?_⟩
      obtain ⟨codepoints, hspells⟩ := Unicode.wellFormed_iff_spells.1 hwell
      have htrue : Unicode.Decomposition.decodeUtf8 bytes [] = (true, [] ++ codepoints) :=
        decodeLoop_iff.2 ⟨codepoints, hspells, rfl⟩
      rw [hdecode] at htrue
      cases htrue
    · obtain ⟨codepoints, hspells, hpositions⟩ := decodeLoop_iff.1 hdecode
      rw [List.nil_append] at hpositions
      subst hpositions
      have hne : positions ≠ [] := by
        rintro rfl
        exact hbytes (spells_iff.1 hspells).2
      exact (newText_outcome h hspells hne hlookup).mono (fun _ h => h) fun _ h => .inl h

end Texts

/-! ## Spans -/

/-- The entry of a span: the reference that is remembered for its bytes, if it has content. -/
def Builder.Refers (builder : Builder) (content : Content) (span : Span) (entry : Operand × UInt8) : Prop :=
  if HasContent span then
    entry.2 = 1 ∧ builder.textReferences.lookup (spanBytes content span) = some entry.1
  else entry = (zeroReference, 0)

/-- A builder that has been given some spans. -/
structure Builder.Covers (builder : Builder) (content : Content) (spans : List Span) : Prop where
  sound : builder.Sound
  lengths : builder.spanReferences.length = builder.spanHasContent.length
  entries : List.Forall₂ (builder.Refers content) spans
    (builder.spanReferences.zip builder.spanHasContent)

/-- What makes the loop fail at a span, but for its resources. -/
def SpanRefused (content : Content) (spanIndex : ℕ) (span : Span) (status : Status) : Prop :=
  status = .decompositionInvalid ∧ SpanInvalid content spanIndex span ∨
    status = .utf8Invalid ∧ HasContent span ∧ ¬ Utf8.WellFormed (spanBytes content span)

/-- What makes the loop from an index on fail. -/
def Refused (content : Content) (spanIndex : ℕ) (spans : List Span) (status : Status) : Prop :=
  Resource status ∨ ∃ index span, spans[index]? = some span ∧
    SpanRefused content (spanIndex + index) span status

section Spans

variable {input : Input} {builder later : Builder} {content : Content} {span : Span}
  {spans : List Span} {entry : Operand × UInt8}

theorem spanBytes_ne_nil (hcontent : HasContent span) (hend : span.byteEnd ≤ content.byteCount) :
    spanBytes content span ≠ [] := by
  rw [HasContent, UInt64.lt_iff_toNat_lt] at hcontent
  have hle : span.byteEnd.toNat ≤ content.bytes.length := by
    rw [UInt64.le_iff_toNat_le, Content.byteCount, UInt64.toNat_ofNat'] at hend
    exact hend.trans (Nat.mod_le _ _)
  refine List.ne_nil_of_length_pos ?_
  rw [spanBytes, List.length_drop, List.length_take]
  omega

theorem Builder.Refers.mono (h : builder.Refers content span entry) (hgrows : builder.Grows later) :
    later.Refers content span entry := by
  rw [Builder.Refers] at h ⊢
  split at h
  · rename_i hcontent
    rw [if_pos hcontent]
    exact ⟨h.1, hgrows.texts _ _ h.2⟩
  · rename_i hcontent
    rw [if_neg hcontent]
    exact h

theorem Builder.Covers.add (h : builder.Covers content spans) (hsound : later.Sound)
    (hgrows : builder.Grows later) (hspans : builder.SameSpans later) {reference : Operand}
    {hasContent : UInt8} (hrefers : later.Refers content span (reference, hasContent)) :
    (later.addReference reference hasContent).Covers content (spans ++ [span]) where
  sound := hsound.congr ⟨rfl, rfl, rfl, rfl, rfl⟩
  lengths := by
    change (later.spanReferences ++ [reference]).length = (later.spanHasContent ++ [hasContent]).length
    rw [hspans.references, hspans.contents, List.length_append, List.length_append, h.lengths]
    rfl
  entries := by
    change List.Forall₂ _ _ ((later.spanReferences ++ [reference]).zip (later.spanHasContent ++ [hasContent]))
    rw [hspans.references, hspans.contents, List.zip_append h.lengths]
    have hsame : later.SameTexts (later.addReference reference hasContent) := ⟨rfl, rfl, rfl, rfl, rfl⟩
    exact List.rel_append
      (h.entries.imp fun _ _ hentry => hentry.mono (hgrows.trans hsame.grows))
      (.cons (hrefers.mono hsame.grows) .nil)

theorem addSpan_outcome (h : builder.Covers input.content spans) (spanIndex : ℕ) (span : Span) :
    Outcome (addSpan input builder spanIndex span)
      (fun later => later.Covers input.content (spans ++ [span])) fun status =>
        Resource status ∨ SpanRefused input.content spanIndex span status := by
  rw [addSpan]
  refine .ite (fun hinvalid => .inr (.inl ⟨rfl, hinvalid⟩)) fun hvalid => ?_
  dsimp only
  generalize htraced : { builder with
    trace := builder.trace ++ traceBytes spanIndex span (input.decomposition.mediaTypes.getD spanIndex []) } =
    traced
  have hsame : builder.SameTexts traced := by
    subst htraced
    exact ⟨rfl, rfl, rfl, rfl, rfl⟩
  have hspans : builder.SameSpans traced := by
    subst htraced
    exact ⟨rfl, rfl⟩
  have hsound := h.sound.congr hsame
  refine .ite (fun hempty => ?_) fun hcontent => ?_
  · refine h.add hsound hsame.grows hspans ?_
    rw [Builder.Refers, if_neg hempty]
  · rw [not_not] at hcontent
    have hend : span.byteEnd ≤ input.content.byteCount := by
      simp only [SpanInvalid, not_or] at hvalid
      exact UInt64.not_lt.1 hvalid.2.2.2.1
    refine ((text_outcome hsound (spanBytes_ne_nil hcontent hend)).mono (fun _ h => h) ?_).bind
      fun ⟨reference, later⟩ ⟨hlater, hgrows, hspans', hlookup⟩ => ?_
    · rintro status (hresource | ⟨rfl, hwell⟩)
      · exact .inl hresource
      · exact .inr (.inr ⟨rfl, hcontent, hwell⟩)
    · refine h.add hlater (hsame.grows.trans hgrows) (hspans.trans hspans') ?_
      rw [Builder.Refers, if_pos hcontent]
      exact ⟨rfl, hlookup⟩

theorem addSpans_outcome : ∀ {rest spans : List Span} {builder : Builder} {spanIndex : ℕ},
    builder.Covers input.content spans → Outcome (addSpans input builder spanIndex rest)
      (fun later => later.Covers input.content (spans ++ rest)) (Refused input.content spanIndex rest)
  | [], spans, builder, spanIndex, h => by
    rw [addSpans, List.append_nil]
    exact h
  | span :: rest, spans, builder, spanIndex, h => by
    rw [addSpans]
    refine ((addSpan_outcome h spanIndex span).mono (fun _ h => h)
      fun _ => Or.imp_right fun hspan => ⟨0, span, rfl, hspan⟩).bind fun next hnext => ?_
    refine (addSpans_outcome hnext).mono (fun later hlater => ?_) fun _ => Or.imp_right ?_
    · rwa [List.append_assoc] at hlater
    · rintro ⟨index, other, hother, hrefused⟩
      exact ⟨index + 1, other, hother, Nat.add_right_comm spanIndex 1 index ▸ hrefused⟩

end Spans

/-! ## The view -/

@[simp] theorem dataOf_getD {α : Type} (elements : List α) : (dataOf elements).getD [] = elements := by
  rw [dataOf]
  split
  · rename_i h
    rw [List.isEmpty_iff.1 h]
    rfl
  · rfl

theorem dataOf_isNone {α : Type} (elements : List α) : (dataOf elements).isNone = elements.isEmpty := by
  rw [dataOf]
  split <;> simp_all

/-- A view shows the arrays of a builder. -/
structure Builder.Viewed (builder : Builder) (view : PlanView) : Prop where
  atoms : view.atomPositions.getD [] = builder.atomPositions
  operands : view.operands.getD [] = builder.operands
  requests : view.requests.getD [] = builder.requests
  references : view.spanReferences.getD [] = builder.spanReferences
  contents : view.spanHasContent.getD [] = builder.spanHasContent
  atomCount : view.atomCount = UInt64.ofNat builder.atomPositions.length
  requestCount : view.requestCount = UInt64.ofNat builder.requests.length

theorem bindView_viewed (blake3 : Blake3) (builder : Builder) (spanCount : ℕ)
    (root : Operand) : builder.Viewed (bindView blake3 builder spanCount root) :=
  ⟨dataOf_getD _, dataOf_getD _, dataOf_getD _, dataOf_getD _, dataOf_getD _, rfl, rfl⟩

section View

variable {builder : Builder} {view : PlanView} {content : Content} {spans : List Span} {span : Span}
  {reference : Operand} {index : ℕ} {position : UInt32} {positions : List UInt32}

theorem referencePriorResult_ne : referencePriorResult ≠ referenceKnownEntity := by decide

theorem expand_atom (hview : builder.Viewed view) (h : AtomOf builder.atomPositions reference position)
    (depth : ℕ) : expand view depth reference = some [position] := by
  obtain ⟨index, rfl, hatom⟩ := h
  rw [expand.eq_def, hview.atoms, knownEntityReference]
  dsimp only
  rw [if_pos rfl, hatom]
  rfl

theorem mapM_expand_atoms (hview : builder.Viewed view) {references : List Operand} (depth : ℕ)
    (h : List.Forall₂ (AtomOf builder.atomPositions) references positions) :
    references.mapM (expand view depth) = some (positions.map fun position => [position]) := by
  induction h with
  | nil => rfl
  | cons hatom _ ih =>
    rw [List.mapM_cons, expand_atom hview hatom, ih]
    rfl

theorem expand_stands (hview : builder.Viewed view) (h : builder.Stands reference positions) (depth : ℕ) :
    expand view (depth + 1) reference = some positions := by
  cases h with
  | atom spelled atom =>
    rw [spelled]
    exact expand_atom hview atom _
  | @request index request shape found spelled =>
    have hoperands : view.operandsOf request =
        (builder.operands.drop request.firstOperand.toNat).take request.operandCount.toNat := by
      rw [PlanView.operandsOf, hview.operands]
    rw [expand, shape, priorResultReference, if_neg referencePriorResult_ne, if_pos rfl, hview.requests,
      found, Option.bind_eq_bind, Option.bind_some, hoperands, mapM_expand_atoms hview depth spelled.atoms]
    change some (List.replicate 1 (positions.map fun position => [position]).flatten).flatten = _
    rw [List.replicate_one, List.flatten_singleton, ← List.flatMap_def, List.flatMap_singleton']

theorem lt_ofNat {count : ℕ} {index : UInt64} (hcount : count < 2 ^ 64) (h : index.toNat < count) :
    index < UInt64.ofNat count := by
  rwa [UInt64.lt_iff_toNat_lt, toNat_ofNat hcount]

theorem canonicalReferenceValid_stands (hview : builder.Viewed view) (hsound : builder.Sound)
    (h : builder.Stands reference positions) : canonicalReferenceValid view reference = true := by
  cases h with
  | atom spelled atom =>
    obtain ⟨index, rfl, hatom⟩ := atom
    have hcount := lt_ofNat hsound.atomsFit (List.getElem?_eq_some_iff.1 hatom).1
    simp [canonicalReferenceValid, knownEntityReference, hview.atomCount, hcount]
  | @request index request shape found spelled =>
    have hcount := lt_ofNat hsound.requestsFit (List.getElem?_eq_some_iff.1 found).1
    simp [canonicalReferenceValid, shape, priorResultReference, hview.requestCount, hcount,
      referencePriorResult_ne]

theorem Builder.Stands.atoms_ne_nil (h : builder.Stands reference positions) (hne : positions ≠ []) :
    builder.atomPositions ≠ [] := by
  have hatom : ∃ reference position, AtomOf builder.atomPositions reference position := by
    cases h with
    | atom spelled atom => exact ⟨_, _, atom⟩
    | request shape found spelled =>
      obtain ⟨position, rest, rfl⟩ := List.exists_cons_of_ne_nil hne
      obtain ⟨_, _, hatom, -⟩ := List.forall₂_cons_right_iff.1 spelled.atoms
      exact ⟨_, _, hatom⟩
  obtain ⟨_, _, index, -, hindex⟩ := hatom
  intro hnil
  rw [hnil] at hindex
  cases hindex

theorem Builder.Covers.length_eq (h : builder.Covers content spans) :
    spans.length = builder.spanReferences.length := by
  have hlength := h.entries.length_eq
  rwa [List.length_zip, ← h.lengths, Nat.min_self] at hlength

theorem Builder.Covers.refers (hview : builder.Viewed view) (h : builder.Covers content spans)
    (hspan : spans[index]? = some span) :
    builder.Refers content span (view.reference index, view.hasContent index) := by
  obtain ⟨hindex, hspan⟩ := List.getElem?_eq_some_iff.1 hspan
  have hreferences : index < builder.spanReferences.length := h.length_eq ▸ hindex
  have hcontents : index < builder.spanHasContent.length := h.lengths ▸ hreferences
  have hzip : index < (builder.spanReferences.zip builder.spanHasContent).length := by
    rwa [List.length_zip, ← h.lengths, Nat.min_self]
  have hentry := h.entries.get hindex hzip
  rw [List.get_eq_getElem, List.get_eq_getElem, List.getElem_zip, hspan] at hentry
  rw [PlanView.reference, PlanView.hasContent, hview.references, hview.contents,
    List.getD_eq_getElem _ _ hreferences, List.getD_eq_getElem _ _ hcontents]
  exact hentry

theorem Builder.Covers.stands (hview : builder.Viewed view) (h : builder.Covers content spans)
    (hspan : spans[index]? = some span) (hcontent : HasContent span) : view.hasContent index = 1 ∧
      builder.textReferences.lookup (spanBytes content span) = some (view.reference index) ∧
      ∃ positions, Spells positions (spanBytes content span) ∧ positions ≠ [] ∧
        builder.Stands (view.reference index) positions := by
  have hrefers := h.refers hview hspan
  rw [Builder.Refers, if_pos hcontent] at hrefers
  exact ⟨hrefers.1, hrefers.2, h.sound.texts _ _ hrefers.2⟩

theorem Builder.Covers.empty (hview : builder.Viewed view) (h : builder.Covers content spans)
    (hspan : spans[index]? = some span) (hempty : ¬ HasContent span) :
    view.hasContent index = 0 ∧ view.reference index = zeroReference := by
  have hrefers := h.refers hview hspan
  rw [Builder.Refers, if_neg hempty, Prod.mk.injEq] at hrefers
  exact ⟨hrefers.2, hrefers.1⟩

theorem Builder.Covers.not_refused (hview : builder.Viewed view) (h : builder.Covers content spans)
    (hspan : spans[index]? = some span) : spanRefused view index = false := by
  by_cases hcontent : HasContent span
  · obtain ⟨hone, -, positions, -, -, hstands⟩ := h.stands hview hspan hcontent
    rw [spanRefused, hone, canonicalReferenceValid_stands hview h.sound hstands]
    rfl
  · obtain ⟨hzero, hreference⟩ := h.empty hview hspan hcontent
    rw [spanRefused, hzero, hreference]
    rfl

end View

/-! ## The plan -/

/-- What a plan is made of. -/
structure Made (blake3 : Blake3) (input : Input) (view : PlanView) (builder : Builder)
    (root : Operand) : Prop where
  covers : builder.Covers input.content input.decomposition.spans
  fits : input.decomposition.spans.length < 2 ^ 64
  first_content : view.hasContent 0 = 1
  first_reference : view.reference 0 = root
  view_eq : view = bindView blake3 builder input.decomposition.spans.length root

section Plan

variable {blake3 : Blake3} {input : Input} {view : PlanView} {builder : Builder}
  {root : Operand}

theorem emptyBuilder_covers (content : Content) (trace : List UInt8) :
    Builder.Covers { trace } content [] :=
  ⟨⟨Nat.two_pow_pos 64, Nat.two_pow_pos 64, Nat.two_pow_pos 64, nofun, nofun⟩, rfl, .nil⟩

/-- What is checked before the loop. -/
structure Plannable (input : Input) : Prop where
  valid : inputValid input = true
  spans : input.decomposition.spans ≠ []
  count : input.decomposition.summary.spanCount = UInt64.ofNat input.decomposition.spans.length

theorem planCreate_outcome (blake3 : Blake3) (input : Input) :
    Outcome (planCreate blake3 input) (fun view => ∃ builder root, Made blake3 input view builder root)
      fun status => ¬ Plannable input ∧ status ≠ .utf8Invalid ∨
        Refused input.content 0 input.decomposition.spans status := by
  rw [planCreate]
  refine .ite (fun hinvalid => .inl ⟨fun h => ?_, nofun⟩) fun hvalid => ?_
  · rw [h.valid] at hinvalid
    cases hinvalid
  rw [build]
  refine .ite (fun hempty => .inl ⟨fun h => ?_, nofun⟩) fun hne =>
    .ite (fun hcount => .inl ⟨fun h => hcount h.count, nofun⟩) fun _ => ?_
  · refine hempty.elim h.spans fun hbytes => ?_
    have := h.valid
    simp [inputValid, hbytes] at this
  refine ((fits_outcome _ _).mono (fun _ h => h) fun _ h => .inr (.inl h)).bind fun _ hfits => ?_
  refine ((addSpans_outcome (emptyBuilder_covers input.content _)).mono (fun _ h => h)
    fun _ h => .inr h).bind fun builder hcovers => ?_
  rw [List.nil_append] at hcovers
  split
  · rename_i contents root references hcontents hreferences
    refine Outcome.pure ⟨builder, root, hcovers, by omega, ?_, ?_, rfl⟩
    · rw [PlanView.hasContent, bindView, dataOf_getD, hcontents]
      rfl
    · rw [PlanView.reference, bindView, dataOf_getD, hreferences]
      rfl
  · rename_i hfirst
    obtain ⟨span, rest, hspans⟩ := List.exists_cons_of_ne_nil fun h => hne (.inl h)
    refine .inr (.inr ⟨0, span, by rw [hspans]; rfl, .inl ⟨rfl, ?_⟩⟩)
    -- a first span with content would have been given a reference
    by_cases hcontent : HasContent span
    · obtain ⟨⟨root, content⟩, entries, hrefers, -, hentries⟩ :=
        List.forall₂_cons_left_iff.1 (hspans ▸ hcovers.entries)
      rw [Builder.Refers, if_pos hcontent] at hrefers
      obtain ⟨references, contents, hreferences, hcontents, -⟩ := List.zip_eq_cons_iff.1 hentries
      obtain ⟨rfl, -⟩ := hrefers
      exact (hfirst _ _ _ hcontents hreferences).elim
    · simp [SpanInvalid, hcontent]

theorem Made.viewed (h : Made blake3 input view builder root) : builder.Viewed view := by
  rw [h.view_eq]
  exact bindView_viewed _ _ _ _

theorem Made.first (h : Made blake3 input view builder root) :
    ∃ span, input.decomposition.spans[0]? = some span ∧ HasContent span := by
  have hone := h.first_content
  cases hspan : input.decomposition.spans[0]? with
  | none =>
    have hlength := h.covers.length_eq
    rw [List.getElem?_eq_none_iff.1 hspan |> List.eq_nil_of_length_eq_zero ∘ Nat.le_zero.1,
      h.covers.lengths] at hlength
    rw [PlanView.hasContent, h.viewed.contents, List.eq_nil_of_length_eq_zero hlength.symm] at hone
    exact absurd hone (by decide)
  | some span =>
    refine ⟨span, rfl, ?_⟩
    by_contra hempty
    rw [(h.covers.empty h.viewed hspan hempty).1] at hone
    exact absurd hone (by decide)

theorem ofNat_beq_zero {α : Type} {elements : List α} (hfits : elements.length < 2 ^ 64) :
    (UInt64.ofNat elements.length == 0) = elements.isEmpty := by
  rw [Bool.eq_iff_iff, beq_iff_eq, List.isEmpty_iff, ← List.length_eq_zero_iff, ← UInt64.toNat_inj,
    toNat_ofNat hfits]
  rfl

theorem Made.root_valid (h : Made blake3 input view builder root)
    (hvalid : canonicalReferenceValid view root = true) : rootReferenceValid view = true := by
  have hroot : view.rootReference = root := by rw [h.view_eq, bindView]
  have hresult : view.rootResultIndex =
      if root.referenceKind = referencePriorResult then root.referenceIndex else noResultIndex := by
    rw [h.view_eq, bindView]
  rw [rootReferenceValid, hroot, hvalid, hresult]
  by_cases hkind : root.referenceKind = referenceKnownEntity
  · simp [hkind, referencePriorResult_ne.symm]
  · have hprior : root.referenceKind = referencePriorResult := by
      by_contra hother
      rw [canonicalReferenceValid, if_neg hkind, if_neg hother] at hvalid
      simp at hvalid
    simp [hprior, referencePriorResult_ne]

theorem Made.accepted (h : Made blake3 input view builder root) : planViewGet view = (.ok, some view) := by
  obtain ⟨span, hspan, hcontent⟩ := h.first
  obtain ⟨hone, -, positions, -, hne, hstands⟩ := h.covers.stands h.viewed hspan hcontent
  rw [h.first_reference] at hstands
  have hroot := h.root_valid (canonicalReferenceValid_stands h.viewed h.covers.sound hstands)
  have hspans : input.decomposition.spans ≠ [] := by
    intro hnil
    rw [hnil] at hspan
    cases hspan
  have hreferences : builder.spanReferences ≠ [] := by
    rwa [← List.length_pos_iff, ← h.covers.length_eq, List.length_pos_iff]
  have hcontents : builder.spanHasContent ≠ [] := by
    rwa [← List.length_pos_iff, ← h.covers.lengths, List.length_pos_iff]
  have hatoms := hstands.atoms_ne_nil hne
  have hsound := h.covers.sound
  have hpointers : (view.atomPositions.isNone || view.atomCount == 0 ||
      view.operandCount != 0 && view.operands.isNone || view.requestCount != 0 && view.requests.isNone ||
      view.spanCount == 0 || view.spanReferences.isNone || view.spanHasContent.isNone) = false := by
    rw [h.view_eq, bindView]
    simp only [dataOf_isNone, ofNat_beq_zero hsound.atomsFit, ofNat_beq_zero h.fits,
      List.isEmpty_eq_false_iff.2 hatoms, List.isEmpty_eq_false_iff.2 hspans,
      List.isEmpty_eq_false_iff.2 hreferences, List.isEmpty_eq_false_iff.2 hcontents, Bool.or_false,
      Bool.false_or]
    rw [bne, ofNat_beq_zero hsound.operandsFit, bne, ofNat_beq_zero hsound.requestsFit, Bool.not_and_self,
      Bool.not_and_self]
    rfl
  have hloop : (List.range view.spanCount.toNat).any (spanRefused view) = false := by
    rw [List.any_eq_false]
    intro index hindex
    have hcount : view.spanCount.toNat = input.decomposition.spans.length := by
      rw [h.view_eq, bindView, toNat_ofNat h.fits]
    rw [List.mem_range, hcount] at hindex
    rw [h.covers.not_refused h.viewed (List.getElem?_eq_getElem hindex)]
    exact Bool.false_ne_true
  have hfirst : view.rootReference = view.reference 0 := by
    rw [h.first_reference, h.view_eq, bindView]
  rw [planViewGet, hpointers, hone, hroot, hloop, hfirst]
  simp

/-- **When there is a plan.** Memory and counters aside, whenever the loop refuses none of the spans and
their texts are well-formed. -/
theorem planCreate_exists (blake3 : Blake3) (h : Plannable input)
    (hspans : ∀ index span, input.decomposition.spans[index]? = some span →
      ¬ SpanInvalid input.content index span ∧
        (HasContent span → Utf8.WellFormed (spanBytes input.content span))) :
    (∃ view, planCreate blake3 input = .ok view) ∨
      ∃ status, Resource status ∧ planCreate blake3 input = .error status := by
  have houtcome := planCreate_outcome blake3 input
  cases hcreate : planCreate blake3 input with
  | ok view => exact .inl ⟨view, rfl⟩
  | error status =>
    refine .inr ⟨status, ?_, rfl⟩
    obtain ⟨hnot, -⟩ | hresource | ⟨index, span, hspan, hrefused⟩ := houtcome.of_error hcreate
    · exact absurd h hnot
    · exact hresource
    · rw [Nat.zero_add] at hrefused
      obtain ⟨hvalid, hwell⟩ := hspans index span hspan
      obtain ⟨-, hinvalid⟩ | ⟨-, hcontent, hnot⟩ := hrefused
      · exact absurd hinvalid hvalid
      · exact absurd (hwell hcontent) hnot

end Plan

/-- **The composition plan is faithful.** In a plan that is created, the reference of a span with content
expands to the code points of its bytes, spans with content share a reference exactly when their bytes are
equal, a span without content has the zero reference, and the view is accepted. Text that is not well-formed
is the only reason to refuse a plan for its text. -/
theorem composition_plan_faithful (blake3 : Blake3) (input : Input) :
    (∀ view, planCreate blake3 input = .ok view → planViewGet view = (.ok, some view) ∧
      (∀ (index : ℕ) (span : Span), input.decomposition.spans[index]? = some span → HasContent span →
        view.hasContent index = 1 ∧
        ∃ codepoints, Unicode.Decomposition.decodeUtf8 (spanBytes input.content span) [] =
            (true, codepoints) ∧ Spells codepoints (spanBytes input.content span) ∧
          ∀ depth, 1 ≤ depth → expand view depth (view.reference index) = some codepoints) ∧
      (∀ (index : ℕ) (span : Span), input.decomposition.spans[index]? = some span → ¬ HasContent span →
        view.hasContent index = 0 ∧ view.reference index = zeroReference) ∧
      ∀ (index index' : ℕ) (span span' : Span), input.decomposition.spans[index]? = some span →
        input.decomposition.spans[index']? = some span' → HasContent span → HasContent span' →
        (view.reference index = view.reference index' ↔
          spanBytes input.content span = spanBytes input.content span')) ∧
    (planCreate blake3 input = .error .utf8Invalid → ∃ span ∈ input.decomposition.spans, HasContent span ∧
        ¬ Utf8.WellFormed (spanBytes input.content span)) := by
  have houtcome := planCreate_outcome blake3 input
  refine ⟨fun view hcreate => ?_, fun hrefused => ?_⟩
  · obtain ⟨builder, root, hmade⟩ := houtcome.of_ok hcreate
    refine ⟨hmade.accepted, fun index span hspan hcontent => ?_,
      fun index span hspan hempty => hmade.covers.empty hmade.viewed hspan hempty,
      fun index index' span span' hspan hspan' hcontent hcontent' => ⟨fun hsame => ?_, fun hbytes => ?_⟩⟩
    · obtain ⟨hone, -, positions, hspells, -, hstands⟩ := hmade.covers.stands hmade.viewed hspan hcontent
      refine ⟨hone, positions, decodeLoop_iff.2 ⟨positions, hspells, rfl⟩, hspells, fun depth hdepth => ?_⟩
      obtain ⟨depth, rfl⟩ := Nat.exists_eq_add_of_le' hdepth
      exact expand_stands hmade.viewed hstands depth
    · obtain ⟨-, -, positions, hspells, -, hstands⟩ := hmade.covers.stands hmade.viewed hspan hcontent
      obtain ⟨-, -, positions', hspells', -, hstands'⟩ :=
        hmade.covers.stands hmade.viewed hspan' hcontent'
      have hexpand := expand_stands hmade.viewed hstands 0
      rw [hsame, expand_stands hmade.viewed hstands' 0] at hexpand
      rw [(spells_iff.1 hspells).2, (spells_iff.1 hspells').2, Option.some.inj hexpand]
    · obtain ⟨-, hlookup, -⟩ := hmade.covers.stands hmade.viewed hspan hcontent
      obtain ⟨-, hlookup', -⟩ := hmade.covers.stands hmade.viewed hspan' hcontent'
      rw [hbytes, hlookup'] at hlookup
      exact (Option.some.inj hlookup).symm
  · obtain ⟨-, hne⟩ | (hmemory | hoverflow) | ⟨index, span, hspan, ⟨hstatus, -⟩ | ⟨-, hwell⟩⟩ :=
      houtcome.of_error hrefused
    · exact absurd rfl hne
    · cases hmemory
    · cases hoverflow
    · cases hstatus
    · exact ⟨span, List.mem_of_getElem? hspan, hwell⟩

/-- The text "aéa", its first letter, its second and its third. -/
def threeLetters : Input where
  content := ⟨[0x61, 0xc3, 0xa9, 0x61], [], []⟩
  decomposition :=
    { spans := [{ byteEnd := 4, parentSpanIndex := absentIndex }, { byteEnd := 1 },
        { byteStart := 1, byteEnd := 3 }, { byteStart := 3, byteEnd := 4 }]
      mediaTypes := []
      summary := { spanCount := 4 } }
  recipeFingerprint := 1
  geometryEpoch := 1
  occurrenceContextFingerprint := 1
  sourceOrdinalBase := 0
  flags := 0
  reserved := 0

/-- The plan of the text has an atom for each of its letters, and the first and the third share it. -/
theorem composition_plan_faithful_letters :
    ∃ view, planCreate (fun _ => 0) threeLetters = .ok view ∧ planViewGet view = (.ok, some view) ∧
      view.atomPositions = some [0x61, 0xe9] ∧
      (∃ codepoints, Unicode.Decomposition.decodeUtf8 [0x61, 0xc3, 0xa9, 0x61] [] = (true, codepoints) ∧
        expand view 1 (view.reference 0) = some codepoints) ∧
      view.reference 1 = view.reference 3 ∧ view.reference 1 ≠ view.reference 2 := by
  have hatoms : (planCreate (fun _ => 0) threeLetters).map PlanView.atomPositions =
      .ok (some [0x61, 0xe9]) := by decide +kernel
  cases hcreate : planCreate (fun _ => 0) threeLetters with
  | error status =>
    rw [hcreate] at hatoms
    cases hatoms
  | ok view =>
    rw [hcreate] at hatoms
    obtain ⟨haccepted, hfull, -, hshared⟩ :=
      (composition_plan_faithful (fun _ => 0) threeLetters).1 view hcreate
    obtain ⟨-, codepoints, hdecoded, -, hexpand⟩ := hfull 0 _ rfl (by decide)
    exact ⟨view, rfl, haccepted, Except.ok.inj hatoms, ⟨codepoints, hdecoded, hexpand 1 le_rfl⟩,
      (hshared 1 3 _ _ rfl rfl (by decide) (by decide)).2 (by decide),
      fun hsame => absurd ((hshared 1 2 _ _ rfl rfl (by decide) (by decide)).1 hsame) (by decide)⟩

end Laplace.Decomposition.Composition
