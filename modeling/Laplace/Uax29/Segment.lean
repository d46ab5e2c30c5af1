import Laplace.Uax29.Next

/-!
# `laplace_uax29_segment` (uax29.cpp:248-279, 530-640)

Sizes, offsets and counts are natural numbers: `size_t` and `std::uint64_t` hold the sizes of the
vectors they index. `emit` is a function on the caller's state that may fail.
-/

namespace Laplace.Uax29

/-- `laplace_uax29_status` -/
inductive Status
  | ok | invalidArgument | sourceIncomplete | sourceSyntaxInvalid | invalidUtf8 | memoryFailure
  | emitFailure
deriving DecidableEq, Repr

/-- `laplace_uax29_boundary_kind` -/
inductive BoundaryKind
  | grapheme | word | sentence
deriving DecidableEq, Repr

/-- `laplace_uax29_span` -/
structure Span where
  byteStart : Nat
  byteEnd : Nat
  codepointStart : Nat
  codepointEnd : Nat
  kind : BoundaryKind
deriving DecidableEq, Repr

/-- `laplace_uax29_summary` -/
structure Summary where
  inputBytes : Nat := 0
  codepointCount : Nat := 0
  graphemeCount : Nat := 0
  wordCount : Nat := 0
  sentenceCount : Nat := 0
deriving DecidableEq, Repr

structure DecodedText where
  codepoints : List UInt32
  byteOffsets : List Nat
deriving DecidableEq, Repr

/-! ## `DecodeUtf8` -/

/-- The payload of a first byte and the width it announces. -/
def leadByte (first : UInt8) : Option (UInt32 × Nat) :=
  if first ≤ 0x7f then some (first.toUInt32, 1)
  else if first &&& 0xe0 = 0xc0 then some ((first &&& 0x1f).toUInt32, 2)
  else if first &&& 0xf0 = 0xe0 then some ((first &&& 0x0f).toUInt32, 3)
  else if first &&& 0xf8 = 0xf0 then some ((first &&& 0x07).toUInt32, 4)
  else none

/-- The loop over the continuation bytes. -/
def continuations : UInt32 → List UInt8 → Option UInt32
  | cp, [] => some cp
  | cp, continuation :: rest =>
    if continuation &&& 0xc0 ≠ 0x80 then none
    else continuations ((cp <<< 6) ||| (continuation &&& 0x3f).toUInt32) rest

/-- Overlong forms, surrogates, and what lies above the code space. -/
def codepointRefused (width : Nat) (cp : UInt32) : Bool :=
  (width = 2 ∧ cp < 0x80) ∨ (width = 3 ∧ cp < 0x800) ∨ (width = 4 ∧ cp < 0x10000) ∨
    cp ≥ 0x110000 ∨ (cp ≥ 0xd800 ∧ cp ≤ 0xdfff)

/-- The loop of `DecodeUtf8` from `offset` on; every round takes a byte at least. -/
def decodeFrom : Nat → Nat → List UInt8 → Option DecodedText
  | _, offset, [] => some ⟨[], [offset]⟩
  | 0, _, _ :: _ => none
  | rounds + 1, offset, first :: rest => do
    let (payload, width) ← leadByte first
    if width > rest.length + 1 then none
    else
      let cp ← continuations payload (rest.take (width - 1))
      if codepointRefused width cp then none
      else
        let text ← decodeFrom rounds (offset + width) (rest.drop (width - 1))
        some ⟨cp :: text.codepoints, offset :: text.byteOffsets⟩

def decodeUtf8 (bytes : List UInt8) : Option DecodedText := decodeFrom bytes.length 0 bytes

/-! ## `EmitSegmentation` -/

/-- The `BoundaryFn` of a kind. -/
def boundaryFn (t : Tables) : BoundaryKind → List UInt32 → Nat → Nat
  | .grapheme => graphemeNext t
  | .word => wordNext t
  | .sentence => sentenceNext t

section
variable {σ : Type} (next : List UInt32 → Nat → Nat) (text : DecodedText) (kind : BoundaryKind)
  (emit : σ → Span → σ × Bool)

/-- The span between two code point positions. -/
def spanOf (start stop : Nat) : Span :=
  { byteStart := text.byteOffsets.getD start 0, byteEnd := text.byteOffsets.getD stop 0
    codepointStart := start, codepointEnd := stop, kind }

/-- The loop of `EmitSegmentation` from `start` on: the status, the caller's state and `emitted`.
`none` would be a loop that does not end. -/
def emitFrom : Nat → Nat → σ → Nat → Option (Status × σ × Nat)
  | rounds, start, state, emitted =>
    if start < text.codepoints.length then
      match rounds with
      | 0 => none
      | rounds + 1 =>
        let stop := next text.codepoints start
        if stop ≤ start ∨ stop > text.codepoints.length then
          some (.sourceSyntaxInvalid, state, emitted)
        else
          let (state, failed) := emit state (spanOf text kind start stop)
          if failed then some (.emitFailure, state, emitted)
          else emitFrom rounds stop state (emitted + 1)
    else some (.ok, state, emitted)

def emitSegmentation (state : σ) : Option (Status × σ × Nat) :=
  emitFrom next text kind emit text.codepoints.length 0 state 0

end

/-- `laplace_uax29_segment` on non-null arguments, with enough memory. -/
def segment {σ : Type} (t : Tables) (utf8 : List UInt8) (kind : BoundaryKind)
    (emit : σ → Span → σ × Bool) (state : σ) : Option (Status × σ × Summary) :=
  let summary : Summary := { inputBytes := utf8.length }
  if utf8.length = 0 then some (.ok, state, summary)
  else match decodeUtf8 utf8 with
    | none => some (.invalidUtf8, state, summary)
    | some text => do
      let summary := { summary with codepointCount := text.codepoints.length }
      let (status, state, emitted) ← emitSegmentation (boundaryFn t kind) text kind emit state
      some (status, state, match kind with
        | .grapheme => { summary with graphemeCount := emitted }
        | .word => { summary with wordCount := emitted }
        | .sentence => { summary with sentenceCount := emitted })

/-! ## What is emitted -/

/-- The caller's function that keeps every span. -/
def collect (spans : List Span) (span : Span) : List Span × Bool := (spans ++ [span], false)

/-- The spans of consecutive ends, from `start` on. -/
def spansFrom (text : DecodedText) (kind : BoundaryKind) : Nat → List Nat → List Span
  | _, [] => []
  | start, stop :: stops => spanOf text kind start stop :: spansFrom text kind stop stops

theorem spansFrom_ends (text : DecodedText) (kind : BoundaryKind) :
    ∀ start stops, (spansFrom text kind start stops).map (·.codepointEnd) = stops
  | _, [] => rfl
  | _, stop :: stops => congrArg (stop :: ·) (spansFrom_ends text kind stop stops)

theorem length_spansFrom (text : DecodedText) (kind : BoundaryKind) (start : Nat) (stops : List Nat) :
    (spansFrom text kind start stops).length = stops.length := by
  conv_rhs => rw [← spansFrom_ends text kind start stops, List.length_map]

section
variable {t : Tables} {text : DecodedText} {kind : BoundaryKind} {joined : Nat → Nat → Prop}

theorem boundaryFn_firstBreak (kind : BoundaryKind) (cps : List UInt32) :
    ∃ joined, FirstBreak cps.length joined (boundaryFn t kind cps) := by
  cases kind with
  | grapheme => exact ⟨_, (graphemeScanner t).next_firstBreak⟩
  | word => exact ⟨_, (wordScanner t).next_firstBreak⟩
  | sentence => exact ⟨_, (sentenceScanner t).next_firstBreak⟩

variable {σ : Type} (emit : σ → Span → σ × Bool)

/-- `emit` on one span after the other, until it fails. -/
def feed : List Span → σ → ℕ → Status × σ × ℕ
  | [], state, emitted => (.ok, state, emitted)
  | span :: spans, state, emitted =>
    let (state, failed) := emit state span
    if failed then (.emitFailure, state, emitted) else feed spans state (emitted + 1)

theorem feed_collect : ∀ (spans : List Span) (kept : List Span) (emitted : ℕ),
    feed collect spans kept emitted = (.ok, kept ++ spans, emitted + spans.length)
  | [], kept, emitted => by
    rw [List.append_nil]
    rfl
  | span :: spans, kept, emitted => by
    rw [feed, collect]
    simp only [Bool.false_eq_true, if_false]
    rw [feed_collect spans, List.append_assoc, List.length_cons, Nat.add_right_comm, Nat.add_assoc]
    rfl

/-- `EmitSegmentation` runs `emit` over the spans between the ends. -/
theorem emitFrom_eq (hf : FirstBreak text.codepoints.length joined (boundaryFn t kind text.codepoints)) :
    ∀ rounds start state emitted, text.codepoints.length ≤ start + rounds →
      emitFrom (boundaryFn t kind) text kind emit rounds start state emitted =
        some (feed emit (spansFrom text kind start
          (ends (boundaryFn t kind text.codepoints) text.codepoints.length rounds start)) state emitted)
  | 0, start, state, emitted, h => by
    unfold emitFrom
    rw [if_neg (by omega)]
    rfl
  | rounds + 1, start, state, emitted, h => by
    unfold emitFrom
    by_cases hlt : start < text.codepoints.length
    · have hnext := hf.lt start hlt
      have hle := hf.le start hlt
      have ih := fun state => emitFrom_eq hf rounds (boundaryFn t kind text.codepoints start)
        state (emitted + 1) (by omega)
      rw [if_pos hlt, ends_succ hlt, spansFrom, feed]
      simp only
      rw [if_neg (by omega)]
      split
      · rfl
      · exact ih _
    · rw [if_neg hlt, show ends (boundaryFn t kind text.codepoints) text.codepoints.length
        (rounds + 1) start = [] from if_neg hlt]
      rfl

/-- `laplace_uax29_segment` emits the spans between consecutive boundaries of its kind. -/
theorem emitSegmentation_collect (t : Tables) (kind : BoundaryKind) (text : DecodedText) :
    emitSegmentation (boundaryFn t kind) text kind collect [] =
      let stops := ends (boundaryFn t kind text.codepoints) text.codepoints.length
        text.codepoints.length 0
      some (.ok, spansFrom text kind 0 stops, stops.length) := by
  obtain ⟨joined, hf⟩ := boundaryFn_firstBreak (t := t) kind text.codepoints
  unfold emitSegmentation
  rw [emitFrom_eq collect hf _ _ _ _ (by omega), feed_collect]
  simp only [List.nil_append, Nat.zero_add, length_spansFrom]

end

/-- The code point ends of the spans that are emitted for a text. -/
def boundaries (t : Tables) (kind : BoundaryKind) (text : DecodedText) : List Nat :=
  match emitSegmentation (boundaryFn t kind) text kind collect [] with
  | some (_, spans, _) => spans.map (·.codepointEnd)
  | none => []

theorem boundaries_eq (t : Tables) (kind : BoundaryKind) (text : DecodedText) : boundaries t kind text =
      ends (boundaryFn t kind text.codepoints) text.codepoints.length text.codepoints.length 0 := by
  rw [boundaries, emitSegmentation_collect]
  exact spansFrom_ends text kind 0 _

end Laplace.Uax29
