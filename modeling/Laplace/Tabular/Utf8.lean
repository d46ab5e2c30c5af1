import Laplace.Unicode.Utf8Decoders

/-!
# The UTF-8 spans of tabular artifacts (tabular_source_legacy.inc:96-163, 205-297)

A span is a pointer and a count. The decoder bounds the bytes it looks ahead by a difference of
unsigned numbers, so that a span shorter than the character it begins with is read past its end.

| here | there |
| --- | --- |
| `decodeUtf8`    | `DecodeUtf8`: the verdict, `output`, and the indexes at which `bytes` was read |
| `encodeUtf8`    | `EncodeUtf8` |
| `artifactValid` | `ArtifactValid` |
-/

namespace Laplace.Tabular

open Utf8
open Unicode (leadByte valueRefused readValue decodeLoop Spells encodeAll)

structure Decoded where
  accepted : Bool
  positions : List UInt32
  reads : List ℕ
deriving DecidableEq

/-- The continuation bytes from `index` on: the value, and the indexes that were read. -/
def readContinuations (bytes : ℕ → UInt8) : ℕ → ℕ → UInt32 → Option UInt32 × List ℕ
  | 0, _, value => (some value, [])
  | count + 1, index, value =>
    if bytes index &&& 0xc0 ≠ 0x80 then (none, [index])
    else
      let (value, reads) := readContinuations bytes count (index + 1)
        ((value <<< 6) ||| (bytes index &&& 0x3f).toUInt32)
      (value, index :: reads)

/-- The loop from `offset` on. Every round takes a byte at least; `byteCount - length` wraps. -/
def decodeFrom (bytes : ℕ → UInt8) (byteCount : UInt64) : ℕ → ℕ → List UInt32 → Decoded
  | 0, _, output => ⟨true, output, []⟩
  | rounds + 1, offset, output =>
    if offset < byteCount.toNat then
      match leadByte (bytes offset) with
      | none => ⟨false, output, [offset]⟩
      | some (value, length, minimum) =>
        if offset > (byteCount - UInt64.ofNat length).toNat then ⟨false, output, [offset]⟩
        else match readContinuations bytes (length - 1) (offset + 1) value with
          | (none, reads) => ⟨false, output, offset :: reads⟩
          | (some value, reads) =>
            if valueRefused minimum value then ⟨false, output, offset :: reads⟩
            else
              let rest := decodeFrom bytes byteCount rounds (offset + length) (output ++ [value])
              { rest with reads := offset :: reads ++ rest.reads }
    else ⟨true, output, []⟩

def decodeUtf8 (bytes : ℕ → UInt8) (byteCount : UInt64) : Decoded :=
  decodeFrom bytes byteCount byteCount.toNat 0 []

def encodeUtf8 (value : UInt32) : List UInt8 := encodeWord value

/-! ## Artifacts -/

structure Column where
  bytes : Option (ℕ → UInt8)
  byteCount : UInt64

structure FixedWidthField where
  width : UInt32
  flags : UInt32

/-- A pointer is `none` where the source compares it with `nullptr`. -/
structure Artifact where
  artifactId : Digest256
  expectedSha256 : Digest256
  bytes : Option (ℕ → UInt8)
  name : Option (ℕ → UInt8)
  mediaType : Option (ℕ → UInt8)
  columns : Option (ℕ → Column)
  byteCount : UInt64
  nameByteCount : UInt64
  mediaTypeByteCount : UInt64
  expectedRecordCount : UInt64
  expectedFieldCount : UInt64
  referenceColumnMask : UInt64
  mode : UInt32
  delimiter : UInt32
  lineTerminator : UInt32
  expectedColumnCount : UInt32
  outcomeType : UInt32
  headerRecordCount : UInt32
  flags : UInt32
  reserved : UInt32
  fixedWidthFields : Option (ℕ → FixedWidthField)
  paddingByte : UInt32
  overflowFieldIndex : UInt32
  maximumOverflowBytes : UInt32
  expectedOverflowRecordCount : UInt32

/-- `LAPLACE_TABULAR_ARTIFACT_RAW`, `_DELIMITED`, `_FIXED_WIDTH` -/
def modeRaw : UInt32 := 1
def modeDelimited : UInt32 := 2
def modeFixedWidth : UInt32 := 3

/-- `LAPLACE_TABULAR_TERMINATOR_NONE`, `_LF`, `_CRLF` -/
def terminatorNone : UInt32 := 0
def terminatorLf : UInt32 := 1
def terminatorCrlf : UInt32 := 2

/-- `LAPLACE_TABULAR_FIXED_WIDTH_NO_OVERFLOW_FIELD` -/
def noOverflowField : UInt32 := 0xffffffff

section Artifact

variable (artifact : Artifact)

/-- `memchr(media_type, 0, media_type_byte_count) != nullptr` -/
def mediaTypeHasZero : Bool := artifact.mediaType.any fun mediaType =>
  (List.range artifact.mediaTypeByteCount.toNat).any fun index => mediaType index = 0

def commonRefused : Bool :=
  artifact.bytes.isNone || artifact.name.isNone || artifact.byteCount = 0 ||
    artifact.nameByteCount = 0 || artifact.mediaType.isNone != decide (artifact.mediaTypeByteCount = 0) ||
    (artifact.mediaTypeByteCount ≠ 0 && mediaTypeHasZero artifact) || artifact.flags = 0 ||
    artifact.flags &&& ~~~7 ≠ 0 || artifact.reserved ≠ 0 ||
    artifact.artifactId ≠ artifact.expectedSha256

def rawValid : Bool :=
  artifact.columns.isNone && artifact.fixedWidthFields.isNone && artifact.delimiter = 0 &&
    artifact.lineTerminator = terminatorNone && artifact.expectedColumnCount = 0 &&
    artifact.expectedRecordCount = 0 && artifact.expectedFieldCount = 0 &&
    artifact.referenceColumnMask = 0 && artifact.paddingByte = 0 &&
    artifact.overflowFieldIndex = 0 && artifact.maximumOverflowBytes = 0 &&
    artifact.expectedOverflowRecordCount = 0 && artifact.outcomeType = 0 &&
    artifact.headerRecordCount = 0

def delimitedRefused : Bool :=
  artifact.mode = modeDelimited &&
    (!(artifact.delimiter > 0 && artifact.delimiter < 0x80 && artifact.delimiter ≠ 13 &&
        artifact.delimiter ≠ 10) ||
      artifact.fixedWidthFields.isSome || artifact.paddingByte ≠ 0 ||
      artifact.overflowFieldIndex ≠ 0 || artifact.maximumOverflowBytes ≠ 0 ||
      artifact.expectedOverflowRecordCount ≠ 0)

def fixedWidthRefused : Bool :=
  artifact.mode = modeFixedWidth &&
    (artifact.delimiter ≠ 0 || artifact.fixedWidthFields.isNone || artifact.paddingByte > 0x7f ||
      decide (artifact.overflowFieldIndex = noOverflowField) !=
        decide (artifact.maximumOverflowBytes = 0) ||
      (artifact.maximumOverflowBytes ≠ 0 && artifact.overflowFieldIndex ≥ artifact.expectedColumnCount) ||
      artifact.expectedOverflowRecordCount.toUInt64 > artifact.expectedRecordCount)

def countsValid : Bool :=
  (artifact.lineTerminator = terminatorLf || artifact.lineTerminator = terminatorCrlf) &&
    artifact.expectedColumnCount > 0 && artifact.expectedColumnCount ≤ 64 &&
    artifact.headerRecordCount ≤ 1 &&
    artifact.expectedRecordCount > artifact.headerRecordCount.toUInt64 &&
    artifact.expectedFieldCount > 0 && artifact.outcomeType ≥ 1 && artifact.outcomeType ≤ 9

/-- What the loop over the columns refuses of one. -/
def columnRefused (column : Column) (index : ℕ) : Bool :=
  (match column.bytes with
    | none => true
    | some bytes => column.byteCount = 0 || !(decodeUtf8 bytes column.byteCount).accepted ||
      (decodeUtf8 bytes column.byteCount).positions.isEmpty) ||
    (artifact.mode = modeFixedWidth && artifact.fixedWidthFields.any fun fields =>
      (fields index).width = 0 || (fields index).flags &&& ~~~3 ≠ 0)

def artifactValid : Bool :=
  if commonRefused artifact then false
  else if artifact.mode = modeRaw then rawValid artifact
  else match artifact.columns with
    | none => false
    | some columns =>
      if artifact.mode ≠ modeDelimited ∧ artifact.mode ≠ modeFixedWidth then false
      else if delimitedRefused artifact || fixedWidthRefused artifact || !countsValid artifact then
        false
      else (List.range artifact.expectedColumnCount.toNat).all fun index =>
        !columnRefused artifact (columns index) index

/-- The declared columns. -/
def declared : List Column :=
  (List.range artifact.expectedColumnCount.toNat).filterMap fun index =>
    artifact.columns.map (· index)

end Artifact

/-! ## What a caller is owed -/

/-- The bytes of a span from `offset` on. -/
def spanFrom (bytes : ℕ → UInt8) (byteCount : UInt64) (offset : ℕ) : List UInt8 :=
  (List.range' offset (byteCount.toNat - offset)).map bytes

def span (bytes : ℕ → UInt8) (byteCount : UInt64) : List UInt8 := spanFrom bytes byteCount 0

/-- Decoding stays inside the span, and is decoding. -/
structure SpanDecoded (bytes : ℕ → UInt8) (byteCount : UInt64) : Prop where
  inside : ∀ index ∈ (decodeUtf8 bytes byteCount).reads, index < byteCount.toNat
  independent : ∀ bytes' : ℕ → UInt8, (∀ index < byteCount.toNat, bytes' index = bytes index) →
    (decodeUtf8 bytes' byteCount).accepted = (decodeUtf8 bytes byteCount).accepted ∧
      (decodeUtf8 bytes' byteCount).positions = (decodeUtf8 bytes byteCount).positions
  accepts : (decodeUtf8 bytes byteCount).accepted = true ↔ Utf8.WellFormed (span bytes byteCount)
  encodes : (decodeUtf8 bytes byteCount).accepted = true →
    (decodeUtf8 bytes byteCount).positions.flatMap encodeUtf8 = span bytes byteCount

/-- The columns of an artifact are decoded so, and only well-formed ones are accepted. -/
structure ColumnsDecoded (artifact : Artifact) : Prop where
  spans : ∀ column ∈ declared artifact, ∀ bytes ∈ column.bytes, SpanDecoded bytes column.byteCount
  accepted : artifactValid artifact = true → ∀ column ∈ declared artifact,
    ∃ bytes ∈ column.bytes, Utf8.WellFormed (span bytes column.byteCount)

/-- Well-formed characters, then a lead byte that announces more bytes than the whole span has, and
continuation bytes to the end. -/
def CutShort (span : List UInt8) : Prop :=
  ∃ before first tail count value, span = before ++ first :: tail ∧ Utf8.WellFormed before ∧
    lead first = some (value, count) ∧ span.length ≤ count ∧
    ∀ byte ∈ tail, byte &&& 0xc0 = 0x80

/-! ## The window of a span -/

section Span

variable {bytes : ℕ → UInt8} {byteCount : UInt64} {offset : ℕ}

@[simp] theorem spanFrom_length : (spanFrom bytes byteCount offset).length = byteCount.toNat - offset := by
  simp [spanFrom]

theorem spanFrom_cons (h : offset < byteCount.toNat) : spanFrom bytes byteCount offset =
    bytes offset :: spanFrom bytes byteCount (offset + 1) := by
  rw [spanFrom, spanFrom, show byteCount.toNat - offset = byteCount.toNat - (offset + 1) + 1 by omega,
    List.range'_succ, List.map_cons]

theorem spanFrom_drop (count : ℕ) : (spanFrom bytes byteCount offset).drop count =
    spanFrom bytes byteCount (offset + count) := by
  simp [spanFrom, ← List.map_drop, List.drop_range', Nat.sub_sub]

theorem spanFrom_take {count : ℕ} (h : offset + count ≤ byteCount.toNat) :
    (spanFrom bytes byteCount offset).take count = (List.range' offset count).map bytes := by
  rw [spanFrom, show byteCount.toNat - offset = count + (byteCount.toNat - (offset + count)) by omega,
    ← List.range'_append_1, List.map_append, List.take_left' (by simp)]

theorem mem_spanFrom {byte : UInt8} : byte ∈ spanFrom bytes byteCount offset ↔
    ∃ index, offset ≤ index ∧ index < byteCount.toNat ∧ bytes index = byte := by
  simp only [spanFrom, List.mem_map, List.mem_range'_1]
  constructor
  · rintro ⟨index, ⟨hle, hlt⟩, rfl⟩
    exact ⟨index, hle, by omega, rfl⟩
  · rintro ⟨index, hle, hlt, rfl⟩
    exact ⟨index, ⟨hle, by omega⟩, rfl⟩

/-- **The bound.** The difference wraps when the whole span is shorter than the character. -/
theorem beyond_iff {length : ℕ} (hlength : length ≤ 4) (hoffset : offset < byteCount.toNat) :
    offset > (byteCount - UInt64.ofNat length).toNat ↔
      length ≤ byteCount.toNat ∧ byteCount.toNat < offset + length := by
  have hlt := byteCount.toNat_lt
  rw [UInt64.toNat_sub, Checked.toNat_ofNat (by omega : length < 2 ^ 64)]
  omega

end Span

/-! ## Continuation bytes -/

section Continuations

variable {bytes : ℕ → UInt8}

theorem readContinuations_eq : ∀ {count index : ℕ} {value : UInt32},
    (readContinuations bytes count index value).1 =
      Uax29.continuations value ((List.range' index count).map bytes) := by
  intro count
  induction count with
  | zero => intro index value; rfl
  | succ count ih =>
    intro index value
    rw [List.range'_succ, List.map_cons, readContinuations, Uax29.continuations]
    by_cases h : bytes index &&& 0xc0 = 0x80
    · simp [h, ih]
    · simp [h]

theorem readContinuations_reads : ∀ {count index : ℕ} {value : UInt32},
    ∀ read ∈ (readContinuations bytes count index value).2, index ≤ read ∧ read < index + count := by
  intro count
  induction count with
  | zero => intro index value read hread; simp [readContinuations] at hread
  | succ count ih =>
    intro index value read hread
    rw [readContinuations] at hread
    by_cases h : bytes index &&& 0xc0 = 0x80
    · simp only [h, ne_eq, not_true, if_false, List.mem_cons] at hread
      rcases hread with rfl | hread
      · omega
      · have := ih read hread
        omega
    · simp only [h, ne_eq, not_false_eq_true, if_true, List.mem_singleton] at hread
      omega

theorem readContinuations_bad : ∀ {count index bad : ℕ} {value : UInt32},
    bytes bad &&& 0xc0 ≠ 0x80 → index ≤ bad → bad < index + count →
    (readContinuations bytes count index value).1 = none ∧
      ∀ read ∈ (readContinuations bytes count index value).2, read ≤ bad := by
  intro count
  induction count with
  | zero => intro index bad value _ hle hlt; omega
  | succ count ih =>
    intro index bad value hbad hle hlt
    rw [readContinuations]
    by_cases h : bytes index &&& 0xc0 = 0x80
    · have hne : index ≠ bad := by rintro rfl; exact hbad h
      obtain ⟨hnone, hreads⟩ := @ih (index + 1) bad
        ((value <<< 6) ||| (bytes index &&& 0x3f).toUInt32) hbad (by omega) (by omega)
      simp only [h, ne_eq, not_true, if_false, hnone, List.mem_cons, true_and]
      rintro read (rfl | hread)
      · exact hle
      · exact hreads read hread
    · simpa [h] using hle

theorem readContinuations_past : ∀ {count index past : ℕ} {value : UInt32},
    (∀ good, index ≤ good → good < past → bytes good &&& 0xc0 = 0x80) → index ≤ past →
    past < index + count → past ∈ (readContinuations bytes count index value).2 := by
  intro count
  induction count with
  | zero => intro index past value _ hle hlt; omega
  | succ count ih =>
    intro index past value hgood hle hlt
    rw [readContinuations]
    by_cases heq : index = past
    · split_ifs <;> simp [heq]
    · have := @ih (index + 1) past ((value <<< 6) ||| (bytes index &&& 0x3f).toUInt32)
        (fun good hge => hgood good (by omega)) (by omega) (by omega)
      simp only [hgood index (le_refl _) (by omega), ne_eq, not_true, if_false, List.mem_cons, this,
        or_true]

end Continuations

/-! ## One round -/

section Round

variable {bytes : ℕ → UInt8} {byteCount : UInt64} {rounds offset : ℕ} {output : List UInt32}

theorem leadByte_iff {first : UInt8} {triple : UInt32 × ℕ × UInt32} (h : leadByte first = some triple) :
    ∃ value count, lead first = some (value, count) ∧ count ≤ 3 ∧ triple.2.1 = count + 1 := by
  rw [Unicode.leadByte_eq, Option.map_eq_some_iff] at h
  obtain ⟨⟨value, count⟩, hlead, rfl⟩ := h
  exact ⟨value, count, hlead, (Unicode.lead_range first _ hlead).1, rfl⟩

theorem decodeFrom_step {value : UInt32} {rest : List UInt8} (hoffset : offset < byteCount.toNat)
    (h : readValue (bytes offset) (spanFrom bytes byteCount (offset + 1)) = some (value, rest)) :
    ∃ length reads, 0 < length ∧ rest = spanFrom bytes byteCount (offset + length) ∧
      (∀ read ∈ reads, read < byteCount.toNat) ∧ ∀ rounds output,
        decodeFrom bytes byteCount (rounds + 1) offset output =
          { decodeFrom bytes byteCount rounds (offset + length) (output ++ [value]) with
            reads := reads ++
              (decodeFrom bytes byteCount rounds (offset + length) (output ++ [value])).reads } := by
  unfold readValue at h
  cases hlead : leadByte (bytes offset) with
  | none => simp [hlead] at h
  | some triple =>
    obtain ⟨payload, length, minimum⟩ := triple
    obtain ⟨-, count, -, hcount, rfl⟩ := leadByte_iff hlead
    simp only [hlead, Option.bind_eq_bind, Option.bind_some, spanFrom_length, Nat.add_sub_cancel,
      Option.ite_none_left_eq_some, Option.bind_eq_some_iff] at h
    obtain ⟨hfits, found, hfound, hrefused, heq⟩ := h
    rw [Option.some.injEq, Prod.mk.injEq] at heq
    obtain ⟨rfl, rfl⟩ := heq
    rw [spanFrom_take (by omega), ← readContinuations_eq] at hfound
    refine ⟨count + 1, offset :: (readContinuations bytes count (offset + 1) payload).2, by omega,
      by rw [spanFrom_drop, Nat.add_assoc, Nat.add_comm 1], ?_, ?_⟩
    · intro read hread
      rcases List.mem_cons.1 hread with rfl | hread
      · exact hoffset
      · have := readContinuations_reads read hread
        omega
    · intro rounds output
      rw [decodeFrom, if_pos hoffset]
      simp only [hlead, beyond_iff (show count + 1 ≤ 4 by omega) hoffset, Nat.add_sub_cancel]
      rw [if_neg (by omega)]
      cases hrun : readContinuations bytes count (offset + 1) payload with
      | mk result reads =>
        rw [hrun] at hfound
        subst hfound
        simp [hrefused]

theorem decodeFrom_refused (hoffset : offset < byteCount.toNat)
    (h : readValue (bytes offset) (spanFrom bytes byteCount (offset + 1)) = none)
    (hshort : ∀ value count, lead (bytes offset) = some (value, count) → byteCount.toNat ≤ count →
      ∃ bad, offset < bad ∧ bad < byteCount.toNat ∧ bytes bad &&& 0xc0 ≠ 0x80) :
    ∃ reads, (∀ read ∈ reads, read < byteCount.toNat) ∧
      decodeFrom bytes byteCount (rounds + 1) offset output = ⟨false, output, reads⟩ := by
  have hone : ∀ read ∈ [offset], read < byteCount.toNat := by simpa using hoffset
  rw [decodeFrom, if_pos hoffset]
  unfold readValue at h
  cases hlead : leadByte (bytes offset) with
  | none => exact ⟨_, hone, rfl⟩
  | some triple =>
    obtain ⟨payload, length, minimum⟩ := triple
    obtain ⟨value, count, hvalue, hcount, rfl⟩ := leadByte_iff hlead
    simp only [hlead, Option.bind_eq_bind, Option.bind_some, spanFrom_length, Nat.add_sub_cancel,
      beyond_iff (show count + 1 ≤ 4 by omega) hoffset] at h ⊢
    have hreads : ∀ bad < byteCount.toNat,
        (∀ read ∈ (readContinuations bytes count (offset + 1) payload).2, read ≤ bad) →
        ∀ read ∈ offset :: (readContinuations bytes count (offset + 1) payload).2,
          read < byteCount.toNat := by
      intro bad hbad hle read hread
      rcases List.mem_cons.1 hread with rfl | hread
      · exact hoffset
      · exact Nat.lt_of_le_of_lt (hle read hread) hbad
    by_cases hwrap : byteCount.toNat ≤ count
    · obtain ⟨bad, hlt, hend, hbad⟩ := hshort value count hvalue hwrap
      obtain ⟨hnone, hle⟩ := @readContinuations_bad bytes count (offset + 1) bad payload hbad
        (by omega) (by omega)
      rw [if_neg (by omega)]
      have := hreads bad hend hle
      cases hrun : readContinuations bytes count (offset + 1) payload with
      | mk result reads =>
        rw [hrun] at hnone this
        subst hnone
        exact ⟨_, this, rfl⟩
    by_cases hbeyond : byteCount.toNat < offset + (count + 1)
    · rw [if_pos ⟨by omega, hbeyond⟩]
      exact ⟨_, hone, rfl⟩
    rw [if_neg (by omega)] at h ⊢
    rw [spanFrom_take (by omega), ← readContinuations_eq] at h
    have := hreads (offset + count) (by omega) fun read hread => by
      have := readContinuations_reads read hread
      omega
    cases hrun : readContinuations bytes count (offset + 1) payload with
    | mk result reads =>
      rw [hrun] at h this
      cases result with
      | none => exact ⟨_, this, rfl⟩
      | some found =>
        simp only [Option.bind_some, ite_eq_left_iff, reduceCtorEq, imp_false, not_not] at h
        simp only [h, if_true]
        exact ⟨_, this, rfl⟩

end Round

/-! ## Runs -/

section Runs

variable {bytes : ℕ → UInt8} {byteCount : UInt64}

theorem decodeLoop_cons {rounds : ℕ} {first : UInt8} {rest : List UInt8} {output : List UInt32} :
    decodeLoop (rounds + 1) (first :: rest) output = match readValue first rest with
      | none => (false, output)
      | some (value, rest) => decodeLoop rounds rest (output ++ [value]) := by
  rw [decodeLoop, readValue]
  cases leadByte first with
  | none => rfl
  | some triple =>
    obtain ⟨value, length, minimum⟩ := triple
    simp only [Option.bind_eq_bind, Option.bind_some]
    split
    · rfl
    cases Uax29.continuations value (rest.take (length - 1)) with
    | none => rfl
    | some value =>
      simp only [Option.bind_some]
      split <;> rfl

/-- The bytes that are left, behind well-formed ones, are not cut short. -/
def Ahead (bytes : ℕ → UInt8) (byteCount : UInt64) (offset : ℕ) : Prop :=
  ∃ before, span bytes byteCount = before ++ spanFrom bytes byteCount offset ∧ Utf8.WellFormed before

theorem ahead_zero : Ahead bytes byteCount 0 := ⟨[], rfl, .nil⟩

theorem Ahead.step {offset offset' : ℕ} {value : UInt32} (h : Ahead bytes byteCount offset)
    (hoffset : offset < byteCount.toNat)
    (hread : readValue (bytes offset) (spanFrom bytes byteCount (offset + 1)) =
      some (value, spanFrom bytes byteCount offset')) : Ahead bytes byteCount offset' := by
  obtain ⟨before, heq, hbefore⟩ := h
  obtain ⟨hscalar, hcode⟩ := (Unicode.readValue_reads _ _ _ _).1 hread
  obtain ⟨positions, hpositions, rfl⟩ := wellFormed_iff.1 hbefore
  refine ⟨(positions ++ [value.toNat]).flatMap encode, ?_, wellFormed_iff.2 ⟨_, ?_, rfl⟩⟩
  · rw [heq, spanFrom_cons hoffset, hcode]
    simp
  · simpa [or_imp, forall_and] using ⟨hpositions, hscalar⟩

/-- A lead byte of a span that is not cut short is followed by a byte that continues nothing, if it
announces more than the span has. -/
theorem Ahead.bad {offset : ℕ} (h : Ahead bytes byteCount offset) (hoffset : offset < byteCount.toNat)
    (hcut : ¬CutShort (span bytes byteCount)) (value count : ℕ)
    (hlead : lead (bytes offset) = some (value, count)) (hcount : byteCount.toNat ≤ count) :
    ∃ bad, offset < bad ∧ bad < byteCount.toNat ∧ bytes bad &&& 0xc0 ≠ 0x80 := by
  by_contra hgood
  push Not at hgood
  obtain ⟨before, heq, hbefore⟩ := h
  refine hcut ⟨before, bytes offset, spanFrom bytes byteCount (offset + 1), count, value,
    by rw [heq, spanFrom_cons hoffset], hbefore, hlead, by simpa [span] using hcount, ?_⟩
  intro byte hbyte
  obtain ⟨index, hle, hlt, rfl⟩ := mem_spanFrom.1 hbyte
  exact hgood index hle hlt

/-- **A span that is not cut short** is decoded as a list is, and nothing beyond it is read. -/
theorem decodeFrom_eq (hcut : ¬CutShort (span bytes byteCount)) : ∀ {rounds offset : ℕ}
    {output : List UInt32}, byteCount.toNat ≤ offset + rounds → Ahead bytes byteCount offset →
    (∀ read ∈ (decodeFrom bytes byteCount rounds offset output).reads, read < byteCount.toNat) ∧
      ((decodeFrom bytes byteCount rounds offset output).accepted,
        (decodeFrom bytes byteCount rounds offset output).positions) =
        decodeLoop rounds (spanFrom bytes byteCount offset) output := by
  intro rounds
  induction rounds with
  | zero =>
    intro offset output hrounds _
    simp [decodeFrom, spanFrom, show byteCount.toNat - offset = 0 by omega, decodeLoop]
  | succ rounds ih =>
    intro offset output hrounds hahead
    by_cases hoffset : offset < byteCount.toNat
    · rw [spanFrom_cons hoffset, decodeLoop_cons]
      cases hread : readValue (bytes offset) (spanFrom bytes byteCount (offset + 1)) with
      | none =>
        obtain ⟨reads, hreads, heq⟩ := @decodeFrom_refused bytes byteCount rounds offset output hoffset
          hread (hahead.bad hoffset hcut)
        rw [heq]
        exact ⟨hreads, rfl⟩
      | some pair =>
        obtain ⟨value, rest⟩ := pair
        obtain ⟨length, reads, hpos, rfl, hreads, hstep⟩ := decodeFrom_step hoffset hread
        obtain ⟨hrest, heq⟩ := @ih (offset + length) (output ++ [value]) (by omega)
          (hahead.step hoffset hread)
        rw [hstep]
        refine ⟨fun read hmem => ?_, heq⟩
        rcases List.mem_append.1 hmem with hmem | hmem
        · exact hreads read hmem
        · exact hrest read hmem
    · simp [decodeFrom, hoffset, spanFrom, show byteCount.toNat - offset = 0 by omega, decodeLoop]

/-- **A span that is cut short** is read past its end. -/
theorem decodeFrom_past {first : UInt8} {tail : List UInt8} {value count : ℕ}
    (hlead : lead first = some (value, count)) (hcount : byteCount.toNat ≤ count)
    (htail : ∀ byte ∈ tail, byte &&& 0xc0 = 0x80) : ∀ {scalars : List ℕ} {rounds offset : ℕ}
    {output : List UInt32}, (∀ scalar ∈ scalars, Utf8.Scalar scalar) → byteCount.toNat ≤ offset + rounds →
    spanFrom bytes byteCount offset = scalars.flatMap encode ++ first :: tail →
    byteCount.toNat ∈ (decodeFrom bytes byteCount rounds offset output).reads := by
  intro scalars
  induction scalars with
  | nil =>
    intro rounds offset output _ hrounds hspan
    have hoffset : offset < byteCount.toNat := by
      have := congrArg List.length hspan
      simp at this
      omega
    obtain ⟨rounds, rfl⟩ : ∃ n, rounds = n + 1 := ⟨rounds - 1, by omega⟩
    rw [spanFrom_cons hoffset, List.flatMap_nil, List.nil_append, List.cons.injEq] at hspan
    obtain ⟨rfl, rfl⟩ := hspan
    have hle : count ≤ 3 := (Unicode.lead_range _ _ hlead).1
    have hpast : ∀ payload, byteCount.toNat ∈
        (readContinuations bytes count (offset + 1) payload).2 := fun payload =>
      readContinuations_past (fun good hge hlt => htail _ (mem_spanFrom.2 ⟨good, hge, hlt, rfl⟩))
        (by omega) (by omega)
    rw [decodeFrom, if_pos hoffset, Unicode.leadByte_eq, hlead]
    simp only [Option.map_some, beyond_iff (show count + 1 ≤ 4 by omega) hoffset,
      Nat.add_sub_cancel]
    rw [if_neg (by omega)]
    have := hpast (UInt32.ofNat value)
    cases hrun : readContinuations bytes count (offset + 1) (UInt32.ofNat value) with
    | mk result reads =>
      rw [hrun] at this
      cases result with
      | none => exact List.mem_cons_of_mem _ this
      | some found =>
        dsimp only
        split
        · exact List.mem_cons_of_mem _ this
        · exact List.mem_append_left _ (List.mem_cons_of_mem _ this)
  | cons scalar scalars ih =>
    intro rounds offset output hscalars hrounds hspan
    obtain ⟨hscalar, hscalars⟩ := List.forall_mem_cons.1 hscalars
    have hoffset : offset < byteCount.toNat := by
      have := congrArg List.length hspan
      simp at this
      omega
    obtain ⟨rounds, rfl⟩ : ∃ n, rounds = n + 1 := ⟨rounds - 1, by omega⟩
    rw [spanFrom_cons hoffset, List.flatMap_cons, List.append_assoc] at hspan
    have htoNat : (UInt32.ofNat scalar).toNat = scalar :=
      UInt32.toNat_ofNat_of_lt' (Nat.lt_of_le_of_lt hscalar.1 (by decide))
    have hread := (Unicode.readValue_reads (bytes offset) (spanFrom bytes byteCount (offset + 1))
      (UInt32.ofNat scalar) (scalars.flatMap encode ++ first :: tail)).2
      (by rw [htoNat]; exact ⟨hscalar, hspan⟩)
    obtain ⟨length, reads, hpos, hrest, -, hstep⟩ := decodeFrom_step hoffset hread
    rw [hstep]
    exact List.mem_append_right _ (ih hscalars (by omega) hrest.symm)

end Runs

/-! ## Spans and columns -/

section Spans

variable {bytes : ℕ → UInt8} {byteCount : UInt64}

theorem wellFormed_iff_decodeLoop {bytes : List UInt8} : Utf8.WellFormed bytes ↔
    (decodeLoop bytes.length bytes []).1 = true := by
  rw [Unicode.wellFormed_iff_spells]
  constructor
  · rintro ⟨codepoints, h⟩
    rw [Unicode.decodeLoop_iff.2 ⟨codepoints, h, rfl⟩]
  · intro h
    obtain ⟨codepoints, hspells, -⟩ := Unicode.decodeLoop_iff.1 (Prod.ext h rfl :
      decodeLoop bytes.length bytes [] = (true, (decodeLoop bytes.length bytes []).2))
    exact ⟨codepoints, hspells⟩

theorem decodeUtf8_eq (hcut : ¬CutShort (span bytes byteCount)) :
    (∀ read ∈ (decodeUtf8 bytes byteCount).reads, read < byteCount.toNat) ∧
      ((decodeUtf8 bytes byteCount).accepted, (decodeUtf8 bytes byteCount).positions) =
        decodeLoop (span bytes byteCount).length (span bytes byteCount) [] := by
  have := @decodeFrom_eq bytes byteCount hcut byteCount.toNat 0 [] (by omega) ahead_zero
  simpa [decodeUtf8, span] using this

theorem span_congr {bytes' : ℕ → UInt8} (h : ∀ index < byteCount.toNat, bytes' index = bytes index) :
    span bytes' byteCount = span bytes byteCount := by
  refine List.map_congr_left fun index hmem => h index ?_
  simpa using hmem

theorem spanDecoded_iff : SpanDecoded bytes byteCount ↔ ¬CutShort (span bytes byteCount) := by
  constructor
  · rintro h ⟨before, first, tail, count, value, hspan, hbefore, hlead, hcount, htail⟩
    obtain ⟨scalars, hscalars, rfl⟩ := wellFormed_iff.1 hbefore
    exact absurd (h.inside _ (decodeFrom_past hlead (by simpa [span] using hcount) htail hscalars
      (by omega) hspan)) (lt_irrefl _)
  · intro hcut
    obtain ⟨hinside, heq⟩ := decodeUtf8_eq hcut
    obtain ⟨haccepted, hpositions⟩ := Prod.mk.inj heq
    refine ⟨hinside, fun bytes' hsame => ?_, by rw [wellFormed_iff_decodeLoop, haccepted], fun h => ?_⟩
    · have hspan := span_congr hsame
      obtain ⟨-, heq'⟩ := @decodeUtf8_eq bytes' _ (by rwa [hspan])
      rw [hspan, ← heq, Prod.mk.injEq] at heq'
      exact heq'
    · obtain ⟨codepoints, hspells, hresult⟩ := Unicode.decodeLoop_iff.1
        (heq.symm.trans (by rw [h]) : decodeLoop _ (span bytes byteCount) [] = (true, _))
      obtain ⟨hscalars, hbytes⟩ := Unicode.spells_iff.1 hspells
      rw [hresult, hbytes, List.nil_append]
      exact List.flatMap_congr fun codepoint hmem => encodeWord_eq (hscalars codepoint hmem).1

theorem accepted_of_artifactValid {artifact : Artifact} (h : artifactValid artifact = true)
    {column : Column} (hcolumn : column ∈ declared artifact) :
    ∃ bytes ∈ column.bytes, (decodeUtf8 bytes column.byteCount).accepted = true := by
  unfold declared at hcolumn
  rw [List.mem_filterMap] at hcolumn
  obtain ⟨index, hindex, hmap⟩ := hcolumn
  obtain ⟨columns, hcolumns, rfl⟩ := Option.map_eq_some_iff.1 hmap
  rw [artifactValid, hcolumns] at h
  split_ifs at h with hcommon hraw hmode hrefused
  · simp [rawValid, hcolumns] at h
  have hall := List.all_eq_true.1 h index hindex
  cases hbytes : (columns index).bytes with
  | none => simp [columnRefused, hbytes] at hall
  | some bytes =>
    simp only [columnRefused, hbytes, Bool.not_or, Bool.and_eq_true, Bool.not_not] at hall
    exact ⟨bytes, rfl, hall.1.1.2⟩

end Spans

/-- **Tabular UTF-8.** Decoding stays inside its span and is decoding exactly when the span is not cut
short, and so for the columns of an artifact. -/
theorem tabularUtf8_iff (bytes : ℕ → UInt8) (byteCount : UInt64) (artifact : Artifact) :
    (SpanDecoded bytes byteCount ↔ ¬CutShort (span bytes byteCount)) ∧
    (ColumnsDecoded artifact ↔ ∀ column ∈ declared artifact, ∀ bytes ∈ column.bytes,
      ¬CutShort (span bytes column.byteCount)) := by
  refine ⟨spanDecoded_iff, fun h column hcolumn bytes hbytes =>
    spanDecoded_iff.1 (h.spans column hcolumn bytes hbytes), fun h => ?_⟩
  have hspans : ∀ column ∈ declared artifact, ∀ bytes ∈ column.bytes,
      SpanDecoded bytes column.byteCount := fun column hcolumn bytes hbytes =>
    spanDecoded_iff.2 (h column hcolumn bytes hbytes)
  refine ⟨hspans, fun hvalid column hcolumn => ?_⟩
  obtain ⟨bytes, hbytes, haccepted⟩ := accepted_of_artifactValid hvalid hcolumn
  exact ⟨bytes, hbytes, (hspans column hcolumn bytes hbytes).accepts.1 haccepted⟩

/-- The first byte of a character of two, and what may follow it in memory. -/
def halfCharacter : ℕ → UInt8 := fun index => if index = 0 then 0xc3 else 0xa9

/-- A delimited artifact with one column, named by half a character. -/
def halfColumn : Artifact where
  artifactId := 1
  expectedSha256 := 1
  bytes := some fun _ => 0x61
  name := some fun _ => 0x61
  mediaType := none
  columns := some fun _ => ⟨some halfCharacter, 1⟩
  byteCount := 4
  nameByteCount := 1
  mediaTypeByteCount := 0
  expectedRecordCount := 2
  expectedFieldCount := 1
  referenceColumnMask := 0
  mode := modeDelimited
  delimiter := 9
  lineTerminator := terminatorLf
  expectedColumnCount := 1
  outcomeType := 5
  headerRecordCount := 1
  flags := 2
  reserved := 0
  fixedWidthFields := none
  paddingByte := 0
  overflowFieldIndex := 0
  maximumOverflowBytes := 0
  expectedOverflowRecordCount := 0

/-- Half a character is accepted with the byte behind it, and so is a column that it names. -/
theorem halfCharacter_accepted : decodeUtf8 halfCharacter 1 = ⟨true, [0xe9], [0, 1]⟩ ∧
    ¬Utf8.WellFormed (span halfCharacter 1) ∧ artifactValid halfColumn = true ∧
    ¬SpanDecoded halfCharacter 1 ∧ ¬ColumnsDecoded halfColumn := by
  have hdecoded : decodeUtf8 halfCharacter 1 = ⟨true, [0xe9], [0, 1]⟩ := by decide +kernel
  have hmalformed : ¬Utf8.WellFormed (span halfCharacter 1) := by
    rw [wellFormed_iff_decodeLoop]
    decide +kernel
  have hvalid : artifactValid halfColumn = true := by decide +kernel
  refine ⟨hdecoded, hmalformed, hvalid, fun h => hmalformed (h.accepts.1 (by rw [hdecoded])), fun h => ?_⟩
  obtain ⟨bytes, hbytes, hformed⟩ := h.accepted hvalid ⟨some halfCharacter, 1⟩
    (by simp [declared, halfColumn])
  cases hbytes
  exact hmalformed hformed

end Laplace.Tabular
