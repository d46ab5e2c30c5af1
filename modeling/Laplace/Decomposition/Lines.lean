import Laplace.Decomposition.Run
import Laplace.Lib.Announcement
import Laplace.Lib.Checked
import Laplace.Lib.Segments

/-!
# Lines (decomposition_delimited.cpp:47-117, decomposition_fixed_width.cpp:62-164)

The delimited and the fixed-width provider read their input line by line in the same way. A line
ends at a line feed; a provider for CRLF demands a carriage return before it, and a provider for LF
refuses one. What the loop makes of a line is the only difference between the two.
-/

namespace Laplace.Decomposition

open Announcer Checked

/-- What a provider emits, and its status when it leaves early. -/
abbrev Emitter := Announcer Emission Status

/-- A provider whose emissions have all to be accepted. -/
def Emitter.callee (emitter : Emitter Unit) : Interaction Emission Int32 Status :=
  Announcer.callee (· = 0) .providerFailure
    (fun result => match result with
      | .ok () => .ok
      | .error status => status) emitter

theorem Emitter.status_of_mayReturn {emitter : Emitter Unit} {status : Status}
    (h : emitter.callee.MayReturn status) :
    status = .providerFailure ∨ status = (emitter.callee.spoken 0).2 := by
  unfold Emitter.callee at h ⊢
  rw [spoken_callee (by rfl)]
  exact mayReturn_callee h

def lineFeed : UInt8 := 10
def carriageReturn : UInt8 := 13

def terminatorLf : UInt32 := 1
def terminatorCrlf : UInt32 := 2

/-! ## Reading lines -/

/-- The whole of a text. -/
def wholeSpan (bytes : List UInt8) : Span := { byteEnd := UInt64.ofNat bytes.length }

/-- The bytes of a span. -/
def spanBytes (content : Content) (span : Span) : List UInt8 :=
  (content.bytes.take span.byteEnd.toNat).drop span.byteStart.toNat

/-- The content of a line: what comes before its terminator. -/
def lineContent (terminator : UInt32) (line : List UInt8) : Emitter (List UInt8) :=
  if terminator = terminatorCrlf then
    if line.getLast? ≠ some carriageReturn then stop .providerFailure else pure line.dropLast
  else if line.getLast? = some carriageReturn then stop .providerFailure
  else pure line

/-- A span, unless it is empty. -/
def emitNonempty (start stop : UInt64) (kind : UInt64) (flags : UInt32) : Emitter Unit :=
  if start < stop then say ⟨start, stop, kind, flags⟩ else pure ()

section Lines

variable (terminator : UInt32) (emitRecord : UInt64 → UInt64 → List UInt8 → Emitter Unit)
  (emitTerminator : UInt64 → UInt64 → Emitter Unit)

/-- The loop over the lines, which are given without their line feeds; what follows the last line feed
has to be empty. -/
def applyLines (lineStart rowOrdinal : UInt64) : List (List UInt8) → Emitter Unit
  | [] => pure ()
  | [rest] => require (rest = []) .providerFailure
  | line :: next :: lines => do
    let content ← lineContent terminator line
    emitRecord lineStart rowOrdinal content
    let lineFeedAt := lineStart + UInt64.ofNat line.length
    emitTerminator (lineStart + UInt64.ofNat content.length) (lineFeedAt + 1)
    require (rowOrdinal ≠ maxWord) .limitExceeded
    applyLines (lineFeedAt + 1) (rowOrdinal + 1) (next :: lines)

/-- The checks of an apply function, and its loop over the lines of the span. -/
def applySpan (content : Content) (span : Span) : Emitter Unit := do
  require (span.byteStart < span.byteEnd ∧ span.byteEnd ≤ content.byteCount) .invalidArgument
  applyLines terminator emitRecord emitTerminator span.byteStart 0
    ((spanBytes content span).splitOn lineFeed)

end Lines

/-- `Applicable`, which the two providers share -/
def applicable (span : Span) : Status × Int32 :=
  (.ok, if span.depth = 0 ∧ span.flags &&& grammarInputFlag ≠ 0 then 1 else 0)

/-! ## Texts of lines -/

/-- The bytes of a terminator that come before its line feed. -/
def carriage (terminator : UInt32) : List UInt8 :=
  if terminator = terminatorCrlf then [carriageReturn] else []

/-- The bytes of a terminator. -/
def terminatorBytes (terminator : UInt32) : List UInt8 := carriage terminator ++ [lineFeed]

/-- What can come before a terminator. -/
structure LineOf (terminator : UInt32) (content : List UInt8) : Prop where
  lineFeed : lineFeed ∉ content
  carriageReturn : terminator ≠ terminatorCrlf → content.getLast? ≠ some carriageReturn

/-- Lines with their terminators. -/
def renderLines (terminator : UInt32) (contents : List (List UInt8)) : List UInt8 :=
  contents.flatMap (· ++ terminatorBytes terminator)

/-- An emission between two positions. -/
def emission (start stop : ℕ) (kind : UInt64) (flags : UInt32) : Emission :=
  ⟨UInt64.ofNat start, UInt64.ofNat stop, kind, flags⟩

theorem emission_kind (start stop : ℕ) (kind : UInt64) (flags : UInt32) :
    (emission start stop kind flags).kind = kind := rfl

/-- What is emitted of bytes with a span of their own. -/
def bytesEmission (start : ℕ) (bytes : List UInt8) (kind : UInt64) (flags : UInt32) : List Emission :=
  if bytes = [] then [] else [emission start (start + bytes.length) kind flags]

/-- What is emitted of lines: what is emitted of their contents, and the terminators. -/
def linesEmissions (terminator : UInt32) (terminatorKind : UInt64)
    (record : ℕ → ℕ → List UInt8 → List Emission) (start row : ℕ) :
    List (List UInt8) → List Emission
  | [] => []
  | content :: contents =>
    let contentEnd := start + content.length
    let next := contentEnd + (terminatorBytes terminator).length
    record start row content ++ emission contentEnd next terminatorKind 0 ::
      linesEmissions terminator terminatorKind record next (row + 1) contents

theorem ofNat_lt_ofNat_add {start count : ℕ} (h : start + count < 2 ^ 64) :
    UInt64.ofNat start < UInt64.ofNat (start + count) ↔ 0 < count := by
  rw [UInt64.lt_iff_toNat_lt, toNat_ofNat h,
    toNat_ofNat (by omega)]
  omega

theorem emitNonempty_returns {start : ℕ} {bytes : List UInt8} (h : start + bytes.length < 2 ^ 64)
    (kind : UInt64) (flags : UInt32) :
    (emitNonempty (UInt64.ofNat start) (UInt64.ofNat (start + bytes.length)) kind flags).Returns
      (bytesEmission start bytes kind flags) () := by
  have hlt := ofNat_lt_ofNat_add h
  unfold emitNonempty bytesEmission
  cases bytes with
  | nil =>
    rw [if_neg (hlt.not.2 (by simp)), if_pos rfl]
    exact returns_pure _
  | cons byte bytes =>
    rw [if_pos (hlt.2 (by simp)), if_neg (by simp)]
    exact returns_say _

theorem not_mem_of_mem_splitOn {α : Type*} [BEq α] [LawfulBEq α] {separator : α} :
    ∀ {elements piece : List α}, piece ∈ elements.splitOn separator → separator ∉ piece
  | [], piece, h => by
    rw [List.splitOn_nil, List.mem_singleton] at h
    exact h ▸ List.not_mem_nil
  | element :: elements, piece, h => by
    rw [List.splitOn_cons_eq_if_modifyHead] at h
    split at h
    · rcases List.mem_cons.1 h with rfl | h
      · exact List.not_mem_nil
      · exact not_mem_of_mem_splitOn h
    · rename_i hne
      obtain ⟨first, rest, hsplit⟩ := List.exists_cons_of_ne_nil
        (List.splitOn_ne_nil separator elements)
      rw [hsplit, List.modifyHead_cons] at h
      rcases List.mem_cons.1 h with rfl | h
      · have hfirst : separator ∉ first := not_mem_of_mem_splitOn (hsplit ▸ List.mem_cons_self)
        exact fun hmem => (List.mem_cons.1 hmem).elim (fun heq => hne (beq_iff_eq.2 heq.symm)) hfirst
      · exact not_mem_of_mem_splitOn (hsplit ▸ List.mem_cons_of_mem _ h)

section Texts

variable {terminator : UInt32}

theorem length_terminatorBytes (terminator : UInt32) :
    (terminatorBytes terminator).length = (carriage terminator).length + 1 := by
  rw [terminatorBytes, List.length_append, List.length_singleton]

theorem lineFeed_not_mem_carriage : lineFeed ∉ carriage terminator := by
  unfold carriage
  split <;> decide

theorem renderLines_cons (content : List UInt8) (contents : List (List UInt8)) :
    renderLines terminator (content :: contents) =
      (content ++ carriage terminator) ++ lineFeed :: renderLines terminator contents := by
  rw [renderLines, List.flatMap_cons, terminatorBytes]
  simp [renderLines, terminatorBytes]

theorem length_le_renderLines (terminator : UInt32) : ∀ contents : List (List UInt8),
    contents.length ≤ (renderLines terminator contents).length
  | [] => Nat.zero_le _
  | content :: contents => by
    have hrest := length_le_renderLines terminator contents
    rw [renderLines_cons]
    simp only [List.length_append, List.length_cons]
    omega

theorem splitOn_renderLines : ∀ {contents : List (List UInt8)},
    (∀ content ∈ contents, LineOf terminator content) → (renderLines terminator contents).splitOn lineFeed =
      contents.map (· ++ carriage terminator) ++ [[]]
  | [], _ => rfl
  | content :: contents, h => by
    have hnot : lineFeed ∉ content ++ carriage terminator := fun hmem =>
      (List.mem_append.1 hmem).elim (h content List.mem_cons_self).lineFeed lineFeed_not_mem_carriage
    rw [renderLines_cons, List.splitOn_append_cons_self_of_not_mem hnot,
      splitOn_renderLines fun other hother => h other (List.mem_cons_of_mem _ hother)]
    rfl

theorem intercalate_lines : ∀ contents : List (List UInt8),
    [lineFeed].intercalate (contents.map (· ++ carriage terminator) ++ [[]]) =
      renderLines terminator contents
  | [] => rfl
  | content :: contents => by
    rw [renderLines_cons, ← intercalate_lines contents, List.map_cons, List.cons_append,
      List.intercalate_cons_of_ne_nil (by simp)]
    simp

theorem eq_renderLines_iff {bytes : List UInt8} {contents : List (List UInt8)}
    (h : ∀ content ∈ contents, LineOf terminator content) : bytes = renderLines terminator contents ↔
      bytes.splitOn lineFeed = contents.map (· ++ carriage terminator) ++ [[]] := by
  constructor
  · rintro rfl
    exact splitOn_renderLines h
  · intro hsplit
    rw [← intercalate_lines, ← hsplit, List.intercalate_splitOn]

theorem lineContent_returns {content : List UInt8} (h : LineOf terminator content) :
    (lineContent terminator (content ++ carriage terminator)).Returns [] content := by
  unfold lineContent carriage
  by_cases hcrlf : terminator = terminatorCrlf
  · rw [if_pos hcrlf, if_pos hcrlf, List.getLast?_concat, if_neg (by simp), List.dropLast_concat]
    exact returns_pure _
  · rw [if_neg hcrlf, if_neg hcrlf, List.append_nil, if_neg (h.carriageReturn hcrlf)]
    exact returns_pure _

theorem lineContent_cases (terminator : UInt32) {line : List UInt8} (h : lineFeed ∉ line) :
    (∃ content, LineOf terminator content ∧ line = content ++ carriage terminator) ∨
      (lineContent terminator line).Fails .providerFailure := by
  unfold lineContent carriage
  by_cases hcrlf : terminator = terminatorCrlf
  · rw [if_pos hcrlf, if_pos hcrlf]
    by_cases hlast : line.getLast? = some carriageReturn
    · exact .inl ⟨line.dropLast, ⟨fun hmem => h (List.mem_of_mem_dropLast hmem),
        fun hne => absurd hcrlf hne⟩, (List.dropLast_append_getLast? _ hlast).symm⟩
    · rw [if_pos hlast]
      exact .inr (fails_stop _)
  · rw [if_neg hcrlf, if_neg hcrlf]
    by_cases hlast : line.getLast? = some carriageReturn
    · rw [if_pos hlast]
      exact .inr (fails_stop _)
    · exact .inl ⟨line, ⟨h, fun _ => hlast⟩, (List.append_nil _).symm⟩

end Texts

/-! ## What the loop does -/

/-- What the two providers do with a line, for positions that do not wrap around. -/
structure Reads (terminator : UInt32) (terminatorKind : UInt64)
    (emitRecord : UInt64 → UInt64 → List UInt8 → Emitter Unit)
    (emitTerminator : UInt64 → UInt64 → Emitter Unit) (good : List UInt8 → Prop)
    (record : ℕ → ℕ → List UInt8 → List Emission) : Prop where
  returns : ∀ start row content, LineOf terminator content → good content →
    start + content.length < 2 ^ 64 → row < 2 ^ 64 →
    (emitRecord (UInt64.ofNat start) (UInt64.ofNat row) content).Returns (record start row content) ()
  fails : ∀ start row content, LineOf terminator content → ¬ good content →
    start + content.length < 2 ^ 64 → row < 2 ^ 64 →
    (emitRecord (UInt64.ofNat start) (UInt64.ofNat row) content).Fails .providerFailure
  terminator : ∀ start stop, start < stop → stop < 2 ^ 64 →
    (emitTerminator (UInt64.ofNat start) (UInt64.ofNat stop)).Returns
      [emission start stop terminatorKind 0] ()

section Loop

variable {terminator : UInt32} {terminatorKind : UInt64}
  {emitRecord : UInt64 → UInt64 → List UInt8 → Emitter Unit}
  {emitTerminator : UInt64 → UInt64 → Emitter Unit} {good : List UInt8 → Prop}
  {record : ℕ → ℕ → List UInt8 → List Emission}

theorem ofNat_ne_maxWord {row : ℕ} (h : row + 1 < 2 ^ 64) : UInt64.ofNat row ≠ maxWord := by
  intro heq
  have hrow := congrArg UInt64.toNat heq
  rw [toNat_ofNat (by omega)] at hrow
  change row = 18446744073709551615 at hrow
  omega

theorem ofNat_line_end (content : List UInt8) (start : ℕ) :
    UInt64.ofNat start + UInt64.ofNat (content ++ carriage terminator).length + 1 =
      UInt64.ofNat (start + content.length + (terminatorBytes terminator).length) := by
  rw [length_terminatorBytes, List.length_append, show (1 : UInt64) = UInt64.ofNat 1 from rfl,
    ← UInt64.ofNat_add, ← UInt64.ofNat_add]
  congr 1
  omega

theorem Reads.line_returns (h : Reads terminator terminatorKind emitRecord emitTerminator good record)
    {content : List UInt8} (hline : LineOf terminator content) (hgood : good content) {start row : ℕ}
    (hstart : start + content.length + (terminatorBytes terminator).length < 2 ^ 64)
    (hrow : row + 1 < 2 ^ 64) {next : List UInt8} {lines : List (List UInt8)} {emissions : List Emission}
    (hrest : (applyLines terminator emitRecord emitTerminator
      (UInt64.ofNat (start + content.length + (terminatorBytes terminator).length))
      (UInt64.ofNat (row + 1)) (next :: lines)).Returns emissions ()) :
    (applyLines terminator emitRecord emitTerminator (UInt64.ofNat start) (UInt64.ofNat row)
      ((content ++ carriage terminator) :: next :: lines)).Returns
        (record start row content ++ emission (start + content.length)
          (start + content.length + (terminatorBytes terminator).length) terminatorKind 0 ::
            emissions) () := by
  have hlength := length_terminatorBytes terminator
  have hrecord := h.returns start row content hline hgood (by omega) (by omega)
  have hterminator := h.terminator (start + content.length)
    (start + content.length + (terminatorBytes terminator).length) (by omega) hstart
  have hordinal : (require (UInt64.ofNat row ≠ maxWord) .limitExceeded : Emitter Unit).Returns
      [] () := require_pos (ofNat_ne_maxWord hrow) _
  rw [applyLines]
  dsimp only
  rw [ofNat_line_end]
  change Announcer.Returns _ ([] ++ (record start row content ++ ([_] ++ ([] ++ emissions)))) ()
  refine (lineContent_returns hline).bind (hrecord.bind ?_)
  have hnext : UInt64.ofNat row + 1 = UInt64.ofNat (row + 1) := (UInt64.ofNat_add row 1).symm
  rw [← UInt64.ofNat_add, hnext]
  exact hterminator.bind (hordinal.bind hrest)

theorem Reads.returns_lines (h : Reads terminator terminatorKind emitRecord emitTerminator good record) :
    ∀ {contents : List (List UInt8)}, (∀ content ∈ contents, LineOf terminator content ∧ good content) →
    ∀ start row : ℕ, start + (renderLines terminator contents).length < 2 ^ 64 →
      row + contents.length < 2 ^ 64 →
    (applyLines terminator emitRecord emitTerminator (UInt64.ofNat start) (UInt64.ofNat row)
      (contents.map (· ++ carriage terminator) ++ [[]])).Returns
        (linesEmissions terminator terminatorKind record start row contents) ()
  | [], _, start, row, _, _ => require_pos rfl _
  | content :: contents, hcontents, start, row, hstart, hrow => by
    obtain ⟨hline, hgood⟩ := hcontents content List.mem_cons_self
    have hlength := length_terminatorBytes terminator
    rw [renderLines_cons, List.length_append, List.length_append, List.length_cons] at hstart
    rw [List.length_cons] at hrow
    have hrest := h.returns_lines
      (fun other hother => hcontents other (List.mem_cons_of_mem _ hother))
      (start + content.length + (terminatorBytes terminator).length) (row + 1) (by omega) (by omega)
    obtain ⟨next, lines, hlines⟩ := List.exists_cons_of_ne_nil
      (l := contents.map (· ++ carriage terminator) ++ [[]]) (by simp)
    rw [List.map_cons, List.cons_append, hlines]
    rw [hlines] at hrest
    exact h.line_returns hline hgood (by omega) (by omega) hrest

theorem Reads.fails_lines (h : Reads terminator terminatorKind emitRecord emitTerminator good record) :
    ∀ {pieces : List (List UInt8)}, pieces ≠ [] → (∀ piece ∈ pieces, lineFeed ∉ piece) →
    ∀ start row : ℕ, start + ([lineFeed].intercalate pieces).length < 2 ^ 64 →
      row + pieces.length ≤ 2 ^ 64 →
    (¬ ∃ contents : List (List UInt8), (∀ content ∈ contents, LineOf terminator content ∧ good content) ∧
      pieces = contents.map (· ++ carriage terminator) ++ [[]]) →
    (applyLines terminator emitRecord emitTerminator (UInt64.ofNat start) (UInt64.ofNat row)
      pieces).Fails .providerFailure
  | [], hne, _, _, _, _, _, _ => absurd rfl hne
  | [rest], _, _, start, row, _, _, hnot => by
    have hrest : rest ≠ [] := fun heq => hnot ⟨[], nofun, congrArg (fun rest => [rest]) heq⟩
    rw [applyLines, require_neg hrest]
    exact fails_stop _
  | line :: next :: lines, _, hfree, start, row, hstart, hrow, hnot => by
    rw [List.intercalate_cons_cons, List.length_append, List.length_append, List.length_singleton]
      at hstart
    rw [List.length_cons] at hrow
    rw [applyLines]
    rcases lineContent_cases terminator (hfree line List.mem_cons_self) with
      ⟨content, hline, rfl⟩ | hfails
    swap
    · exact hfails.bind _
    have hlength := length_terminatorBytes terminator
    rw [List.length_append] at hstart
    refine (lineContent_returns hline).bind_fails ?_
    dsimp only
    by_cases hgood : good content
    swap
    · exact (h.fails start row content hline hgood (by omega) (by omega)).bind _
    refine (h.returns start row content hline hgood (by omega) (by omega)).bind_fails ?_
    rw [ofNat_line_end, ← UInt64.ofNat_add]
    refine (h.terminator _ _ (by omega) (by omega)).bind_fails ?_
    have hnonempty : 0 < (next :: lines).length := Nat.zero_lt_succ _
    have hordinal : UInt64.ofNat row ≠ maxWord := ofNat_ne_maxWord (by omega)
    rw [require_pos hordinal]
    have hnext : UInt64.ofNat row + 1 = UInt64.ofNat (row + 1) := (UInt64.ofNat_add row 1).symm
    rw [hnext]
    refine (returns_pure _).bind_fails (h.fails_lines (by simp)
      (fun piece hpiece => hfree piece (List.mem_cons_of_mem _ hpiece)) _ (row + 1) (by omega)
      (by omega) ?_)
    rintro ⟨contents, hcontents, hpieces⟩
    refine hnot ⟨content :: contents, fun other hother => ?_, ?_⟩
    · rcases List.mem_cons.1 hother with rfl | hother
      · exact ⟨hline, hgood⟩
      · exact hcontents other hother
    · rw [hpieces]
      rfl

/-! ### The whole span -/

theorem length_le_intercalate (separator : UInt8) : ∀ pieces : List (List UInt8),
    pieces.length ≤ ([separator].intercalate pieces).length + 1
  | [] => Nat.zero_le _
  | [_] => Nat.le_add_left _ _
  | piece :: next :: pieces => by
    have hrest := length_le_intercalate separator (next :: pieces)
    rw [List.intercalate_cons_cons, List.length_append, List.length_append, List.length_singleton,
      List.length_cons]
    omega

theorem length_spanBytes {content : Content} {span : Span} (hstart : span.byteStart < span.byteEnd)
    (hend : span.byteEnd ≤ content.byteCount) :
    span.byteStart.toNat + (spanBytes content span).length = span.byteEnd.toNat := by
  rw [UInt64.lt_iff_toNat_lt] at hstart
  rw [UInt64.le_iff_toNat_le, Content.byteCount, UInt64.toNat_ofNat'] at hend
  have hmod := Nat.mod_le content.bytes.length (2 ^ 64)
  rw [spanBytes, List.length_drop, List.length_take]
  omega

theorem Reads.applySpan_cases
    (h : Reads terminator terminatorKind emitRecord emitTerminator good record) {content : Content}
    {span : Span} (hstart : span.byteStart < span.byteEnd) (hend : span.byteEnd ≤ content.byteCount) :
    (∀ contents, (∀ content ∈ contents, LineOf terminator content ∧ good content) →
      spanBytes content span = renderLines terminator contents →
      (applySpan terminator emitRecord emitTerminator content span).Returns
        (linesEmissions terminator terminatorKind record span.byteStart.toNat 0 contents) ()) ∧
    ((¬ ∃ contents, (∀ content ∈ contents, LineOf terminator content ∧ good content) ∧
        spanBytes content span = renderLines terminator contents) →
      (applySpan terminator emitRecord emitTerminator content span).Fails .providerFailure) := by
  have hlength := length_spanBytes hstart hend
  have hlt := span.byteEnd.toNat_lt
  have hofNat : UInt64.ofNat span.byteStart.toNat = span.byteStart := UInt64.ofNat_toNat
  rw [applySpan, require_pos ⟨hstart, hend⟩]
  constructor
  · intro contents hcontents hbytes
    have hcount := length_le_renderLines terminator contents
    rw [hbytes] at hlength
    have hlines := h.returns_lines hcontents span.byteStart.toNat 0 (by omega) (by omega)
    rw [hofNat] at hlines
    rw [hbytes, splitOn_renderLines fun content hcontent => (hcontents content hcontent).1]
    exact (returns_pure ()).bind hlines
  · intro hnot
    have hpieces := length_le_intercalate lineFeed ((spanBytes content span).splitOn lineFeed)
    rw [List.intercalate_splitOn] at hpieces
    have hfails := h.fails_lines (List.splitOn_ne_nil _ _) (fun piece => not_mem_of_mem_splitOn)
      span.byteStart.toNat 0 (by rw [List.intercalate_splitOn]; omega) (by omega)
      (fun ⟨contents, hcontents, hsplit⟩ => hnot ⟨contents, hcontents,
          (eq_renderLines_iff fun content hcontent => (hcontents content hcontent).1).2 hsplit⟩)
    rw [hofNat] at hfails
    exact (returns_pure ()).bind_fails hfails

theorem Reads.spoken_lines
    (h : Reads terminator terminatorKind emitRecord emitTerminator good record) {content : Content}
    {span : Span} (hstart : span.byteStart < span.byteEnd) (hend : span.byteEnd ≤ content.byteCount)
    {contents : List (List UInt8)}
    (hcontents : ∀ content ∈ contents, LineOf terminator content ∧ good content)
    (hbytes : spanBytes content span = renderLines terminator contents) :
    (applySpan terminator emitRecord emitTerminator content span).callee.spoken 0 =
      (linesEmissions terminator terminatorKind record span.byteStart.toNat 0 contents, Status.ok) := by
  rw [Emitter.callee, spoken_callee (by rfl),
    (h.applySpan_cases hstart hend).1 contents hcontents hbytes]

theorem Emitter.status_of_fails {emitter : Emitter Unit} {status : Status} (h : emitter.Fails status) :
    (emitter.callee.spoken 0).2 = status := by
  rw [Emitter.callee, spoken_callee (by rfl), h]

theorem Reads.spoken_ok_iff
    (h : Reads terminator terminatorKind emitRecord emitTerminator good record) {content : Content}
    {span : Span} :
    ((applySpan terminator emitRecord emitTerminator content span).callee.spoken 0).2 = .ok ↔
      span.byteStart < span.byteEnd ∧ span.byteEnd ≤ content.byteCount ∧ ∃ contents,
        (∀ content ∈ contents, LineOf terminator content ∧ good content) ∧
          spanBytes content span = renderLines terminator contents := by
  constructor
  · intro hok
    by_cases hspan : span.byteStart < span.byteEnd ∧ span.byteEnd ≤ content.byteCount
    · refine ⟨hspan.1, hspan.2, by_contra fun hnot => ?_⟩
      rw [Emitter.status_of_fails ((h.applySpan_cases hspan.1 hspan.2).2 hnot)] at hok
      cases hok
    · have hfails : (applySpan terminator emitRecord emitTerminator content span).Fails
          .invalidArgument := by
        rw [applySpan, require_neg hspan]
        exact (fails_stop _).bind _
      rw [Emitter.status_of_fails hfails] at hok
      cases hok
  · rintro ⟨hstart, hend, contents, hcontents, hbytes⟩
    rw [h.spoken_lines hstart hend hcontents hbytes]

end Loop

/-! ## Kinds -/

theorem kindBase_or_ne {kindBase first second : UInt64} (hbase : kindBase &&& 0xFFFF = 0)
    (hfirst : first &&& 0xFFFF = first := by decide)
    (hsecond : second &&& 0xFFFF = second := by decide) (hne : first ≠ second := by decide) :
    kindBase ||| first ≠ kindBase ||| second := by
  have hlow : ∀ code : UInt64, code &&& 0xFFFF = code → (kindBase ||| code) &&& 0xFFFF = code := by
    intro code hcode
    have hbase' := congrArg UInt64.toNat hbase
    have hcode' := congrArg UInt64.toNat hcode
    rw [UInt64.toNat_and] at hbase' hcode'
    refine UInt64.toNat_inj.1 ?_
    rw [UInt64.toNat_and, UInt64.toNat_or, Nat.and_or_distrib_right, hbase', hcode']
    exact Nat.zero_or _
  exact fun h => hne (by rw [← hlow first hfirst, h, hlow second hsecond])

/-! ## Tilings -/

/-- The positions between which an emission lies. -/
def Emission.range (emission : Emission) : ℕ × ℕ := (emission.byteStart.toNat, emission.byteEnd.toNat)

theorem emission_range {start stop : ℕ} (h : start ≤ stop) (hstop : stop < 2 ^ 64) (kind : UInt64)
    (flags : UInt32) : (emission start stop kind flags).range = (start, stop) := by
  rw [Emission.range, emission, toNat_ofNat (by omega),
    toNat_ofNat (by omega)]

theorem mem_bytesEmission {start : ℕ} {bytes : List UInt8} {kind : UInt64} {flags : UInt32}
    {emission : Emission} (h : emission ∈ bytesEmission start bytes kind flags) : emission.kind = kind := by
  unfold bytesEmission at h
  split at h
  · cases h
  · rw [List.mem_singleton.1 h, emission_kind]

theorem bytesEmission_tiles {start : ℕ} {bytes : List UInt8} (h : start + bytes.length < 2 ^ 64)
    (kind : UInt64) (flags : UInt32) :
    Tiles ((bytesEmission start bytes kind flags).map Emission.range) start (start + bytes.length) := by
  unfold bytesEmission
  split
  · rename_i hempty
    rw [hempty]
    rfl
  · rw [List.map_singleton, emission_range (Nat.le_add_right _ _) h]
    exact Tiles.single (Nat.le_add_right _ _)

theorem linesEmissions_tiles (terminator : UInt32) {terminatorKind : UInt64}
    {record : ℕ → ℕ → List UInt8 → List Emission} {keep : Emission → Bool}
    (hkeep : ∀ emission : Emission, emission.kind = terminatorKind → keep emission = true) :
    ∀ (contents : List (List UInt8)) (start row : ℕ),
    (∀ content ∈ contents, ∀ start row, start + content.length < 2 ^ 64 →
      Tiles (((record start row content).filter keep).map Emission.range) start (start + content.length)) →
    start + (renderLines terminator contents).length < 2 ^ 64 →
    Tiles (((linesEmissions terminator terminatorKind record start row contents).filter keep).map
      Emission.range) start (start + (renderLines terminator contents).length)
  | [], _, _, _, _ => rfl
  | content :: contents, start, row, hrecord, hstart => by
    have hlength := length_terminatorBytes terminator
    rw [renderLines_cons, List.length_append, List.length_append, List.length_cons] at hstart ⊢
    have hrest := linesEmissions_tiles terminator hkeep contents
      (start + content.length + (terminatorBytes terminator).length) (row + 1)
      (fun other hother => hrecord other (List.mem_cons_of_mem _ hother)) (by omega)
    have hstop : start + content.length + (terminatorBytes terminator).length +
        (renderLines terminator contents).length = start + (content.length +
          (carriage terminator).length + ((renderLines terminator contents).length + 1)) := by omega
    rw [hstop] at hrest
    rw [linesEmissions, List.filter_append, List.map_append]
    refine (hrecord content List.mem_cons_self start row (by omega)).append ?_
    rw [List.filter_cons_of_pos (hkeep _ rfl), List.map_cons, emission_range (by omega) (by omega)]
    exact ⟨rfl, by omega, hrest⟩

/-- An emission that is not empty and does not leave a range. -/
def Emission.Within (start stop : ℕ) (emission : Emission) : Prop :=
  start ≤ emission.byteStart.toNat ∧ emission.byteStart.toNat < emission.byteEnd.toNat ∧
    emission.byteEnd.toNat ≤ stop

theorem Emission.Within.mono {start stop start' stop' : ℕ} {emission : Emission}
    (h : emission.Within start stop) (hstart : start' ≤ start) (hstop : stop ≤ stop') :
    emission.Within start' stop' :=
  ⟨hstart.trans h.1, h.2.1, h.2.2.trans hstop⟩

theorem emission_within {start stop : ℕ} (h : start < stop) (hstop : stop < 2 ^ 64) (kind : UInt64)
    (flags : UInt32) : (emission start stop kind flags).Within start stop := by
  have hrange := emission_range h.le hstop kind flags
  exact ⟨(Prod.mk.inj hrange).1.ge, (Prod.mk.inj hrange).1.trans_lt (h.trans_eq (Prod.mk.inj hrange).2.symm),
    (Prod.mk.inj hrange).2.le⟩

theorem bytesEmission_within {start : ℕ} {bytes : List UInt8} (h : start + bytes.length < 2 ^ 64)
    {kind : UInt64} {flags : UInt32} {emission : Emission}
    (hmem : emission ∈ bytesEmission start bytes kind flags) :
    emission.Within start (start + bytes.length) := by
  unfold bytesEmission at hmem
  split at hmem
  · cases hmem
  · rename_i hne
    rw [List.mem_singleton.1 hmem]
    exact emission_within (Nat.lt_add_of_pos_right (List.length_pos_iff.2 hne)) h _ _

theorem linesEmissions_within (terminator : UInt32) {terminatorKind : UInt64}
    {record : ℕ → ℕ → List UInt8 → List Emission} : ∀ (contents : List (List UInt8)) (start row : ℕ),
    (∀ content ∈ contents, ∀ start row, start + content.length < 2 ^ 64 →
      ∀ emission ∈ record start row content, emission.Within start (start + content.length)) →
    start + (renderLines terminator contents).length < 2 ^ 64 →
    ∀ emission ∈ linesEmissions terminator terminatorKind record start row contents,
      emission.Within start (start + (renderLines terminator contents).length)
  | content :: contents, start, row, hrecord, hstart, emission, hmem => by
    have hlength := length_terminatorBytes terminator
    rw [renderLines_cons, List.length_append, List.length_append, List.length_cons] at hstart ⊢
    rw [linesEmissions] at hmem
    rcases List.mem_append.1 hmem with hmem | hmem
    · exact (hrecord content List.mem_cons_self start row (by omega) emission hmem).mono (le_refl _)
        (by omega)
    rcases List.mem_cons.1 hmem with rfl | hmem
    · exact (emission_within (by omega) (by omega) _ _).mono (by omega) (by omega)
    · exact (linesEmissions_within terminator contents _ (row + 1)
        (fun other hother => hrecord other (List.mem_cons_of_mem _ hother)) (by omega) emission
        hmem).mono (by omega) (by omega)

/-! ## Where bytes are -/

/-- The bytes that an emission covers. -/
def Emission.covered (bytes : List UInt8) (emission : Emission) : List UInt8 :=
  (bytes.take emission.byteEnd.toNat).drop emission.byteStart.toNat

/-- The bytes at a position. -/
def Holds (bytes : List UInt8) (start : ℕ) (piece : List UInt8) : Prop :=
  ∃ before after, bytes = before ++ piece ++ after ∧ before.length = start

theorem Holds.append {bytes first second : List UInt8} {start : ℕ}
    (h : Holds bytes start (first ++ second)) :
    Holds bytes start first ∧ Holds bytes (start + first.length) second := by
  obtain ⟨before, after, rfl, rfl⟩ := h
  exact ⟨⟨before, second ++ after, by simp, rfl⟩, ⟨before ++ first, after, by simp, by simp⟩⟩

theorem Holds.cons {bytes rest : List UInt8} {byte : UInt8} {start : ℕ}
    (h : Holds bytes start (byte :: rest)) : Holds bytes (start + 1) rest :=
  (show Holds bytes start ([byte] ++ rest) from h).append.2

theorem Holds.covered {bytes piece : List UInt8} {start : ℕ} (h : Holds bytes start piece)
    (hstop : start + piece.length < 2 ^ 64) (kind : UInt64) (flags : UInt32) :
    (bytes.take (emission start (start + piece.length) kind flags).byteEnd.toNat).drop
      (emission start (start + piece.length) kind flags).byteStart.toNat = piece := by
  obtain ⟨before, after, rfl, rfl⟩ := h
  have hrange := emission_range (Nat.le_add_right _ _) hstop kind flags
  rw [(Prod.mk.inj hrange).1, (Prod.mk.inj hrange).2, ← List.length_append, List.take_left]
  exact List.drop_left

theorem linesEmissions_covered (terminator : UInt32) {terminatorKind : UInt64}
    {record : ℕ → ℕ → List UInt8 → List Emission} {keep : Emission → Bool}
    (hkeep : ∀ emission : Emission, emission.kind = terminatorKind → keep emission = true)
    {pieces : List UInt8 → List (List UInt8)} {bytes : List UInt8} :
    ∀ (contents : List (List UInt8)) (start row : ℕ),
    (∀ content ∈ contents, ∀ start row, Holds bytes start content → start + content.length < 2 ^ 64 →
      ((record start row content).filter keep).map (Emission.covered bytes) = pieces content) →
    Holds bytes start (renderLines terminator contents) →
    start + (renderLines terminator contents).length < 2 ^ 64 →
    ((linesEmissions terminator terminatorKind record start row contents).filter keep).map
        (Emission.covered bytes) =
      contents.flatMap fun content => pieces content ++ [terminatorBytes terminator]
  | [], _, _, _, _, _ => rfl
  | content :: contents, start, row, hrecord, hholds, hstart => by
    have hrender : renderLines terminator (content :: contents) =
        content ++ (terminatorBytes terminator ++ renderLines terminator contents) := by
      rw [renderLines, List.flatMap_cons, List.append_assoc]
      rfl
    rw [hrender] at hholds hstart
    rw [List.length_append, List.length_append] at hstart
    obtain ⟨hcontent, hrest⟩ := hholds.append
    obtain ⟨hterminator, hrest⟩ := hrest.append
    have hlines := linesEmissions_covered terminator hkeep contents _ (row + 1)
      (fun other hother => hrecord other (List.mem_cons_of_mem _ hother)) hrest (by omega)
    rw [linesEmissions, List.filter_append, List.map_append, List.filter_cons_of_pos (hkeep _ rfl),
      List.map_cons, hlines, hrecord content List.mem_cons_self start row hcontent (by omega),
      Emission.covered, hterminator.covered (by omega), List.flatMap_cons, List.append_assoc,
      List.singleton_append]

theorem holds_spanBytes {content : Content} {span : Span} (hstart : span.byteStart < span.byteEnd)
    (hend : span.byteEnd ≤ content.byteCount) :
    Holds content.bytes span.byteStart.toNat (spanBytes content span) := by
  have hlength := length_spanBytes hstart hend
  refine ⟨content.bytes.take span.byteStart.toNat, content.bytes.drop span.byteEnd.toNat, ?_, ?_⟩
  · have htake : content.bytes.take span.byteStart.toNat =
        (content.bytes.take span.byteEnd.toNat).take span.byteStart.toNat := by
      rw [List.take_take, Nat.min_eq_left (by omega)]
    rw [htake, spanBytes, List.take_append_drop, List.take_append_drop]
  · rw [UInt64.lt_iff_toNat_lt] at hstart
    rw [UInt64.le_iff_toNat_le, Content.byteCount, UInt64.toNat_ofNat'] at hend
    have hmod := Nat.mod_le content.bytes.length (2 ^ 64)
    rw [List.length_take]
    omega

end Laplace.Decomposition
