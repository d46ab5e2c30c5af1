import Mathlib.Data.List.DropRight
import Laplace.Decomposition.Lines

/-!
# The fixed-width provider (decomposition_fixed_width.cpp)

Records are lines and every field has a width of its own. A recipe may name one field that takes up
what a record is longer than the widths say. A field is emitted as a whole, its value without the
padding that the field declares to be trimmed.
-/

namespace Laplace.Decomposition

open Checked Announcer

/-! ## The provider -/

/-- `laplace_decomposition_fixed_width_field` -/
structure FixedWidthField where
  width : UInt32
  flags : UInt32
deriving DecidableEq

def trimLeftFlag : UInt32 := 1
def trimRightFlag : UInt32 := 2
def knownFieldFlags : UInt32 := 3
def noOverflowField : UInt32 := 0xFFFFFFFF

/-- The arguments of `laplace_decomposition_fixed_width_provider_init`. -/
structure FixedWidthRecipe where
  fields : List FixedWidthField
  headerRecordCount : UInt32
  terminator : UInt32
  paddingByte : UInt32
  overflowFieldIndex : UInt32
  maximumOverflowBytes : UInt32
  kindBase : UInt64
  providerFingerprint : Digest256
deriving DecidableEq

/-- The checks of `laplace_decomposition_fixed_width_provider_init` that come before its loop. -/
structure FixedWidthRecipe.Accepted (recipe : FixedWidthRecipe) : Prop where
  providerFingerprint : recipe.providerFingerprint ≠ 0
  fields_ne : recipe.fields ≠ []
  fields_le : recipe.fields.length ≤ 65535
  headerRecordCount : recipe.headerRecordCount ≤ 1
  terminator : recipe.terminator = terminatorLf ∨ recipe.terminator = terminatorCrlf
  paddingByte : recipe.paddingByte ≤ 0x7F
  kindBase_ne : recipe.kindBase ≠ 0
  kindBase_low : recipe.kindBase &&& 0xFFFF = 0
  overflowFieldIndex : recipe.overflowFieldIndex = noOverflowField ∨
    recipe.overflowFieldIndex < UInt32.ofNat recipe.fields.length
  maximumOverflowBytes : recipe.overflowFieldIndex = noOverflowField ↔ recipe.maximumOverflowBytes = 0

instance FixedWidthRecipe.decidableAccepted (recipe : FixedWidthRecipe) : Decidable recipe.Accepted :=
  decidable_of_iff (recipe.providerFingerprint ≠ 0 ∧ recipe.fields ≠ [] ∧ recipe.fields.length ≤ 65535 ∧
      recipe.headerRecordCount ≤ 1 ∧
      (recipe.terminator = terminatorLf ∨ recipe.terminator = terminatorCrlf) ∧
      recipe.paddingByte ≤ 0x7F ∧ recipe.kindBase ≠ 0 ∧ recipe.kindBase &&& 0xFFFF = 0 ∧
      (recipe.overflowFieldIndex = noOverflowField ∨
        recipe.overflowFieldIndex < UInt32.ofNat recipe.fields.length) ∧
      (recipe.overflowFieldIndex = noOverflowField ↔ recipe.maximumOverflowBytes = 0))
    ⟨fun ⟨h1, h2, h3, h4, h5, h6, h7, h8, h9, h10⟩ => ⟨h1, h2, h3, h4, h5, h6, h7, h8, h9, h10⟩,
      fun ⟨h1, h2, h3, h4, h5, h6, h7, h8, h9, h10⟩ => ⟨h1, h2, h3, h4, h5, h6, h7, h8, h9, h10⟩⟩

/-- The loop of `laplace_decomposition_fixed_width_provider_init` over the fields. -/
def nominalBytes (total : UInt64) : List FixedWidthField → Except Status UInt64
  | [] => .ok total
  | field :: fields =>
    if field.width = 0 ∨ field.flags &&& ~~~knownFieldFlags ≠ 0 ∨
        total > maxWord - field.width.toUInt64 then .error .invalidArgument
    else nominalBytes (total + field.width.toUInt64) fields

/-- `laplace_decomposition_fixed_width_provider` after its initialisation. -/
structure FixedWidthProvider extends FixedWidthRecipe where
  nominalRecordBytes : UInt64
  accepted : toFixedWidthRecipe.Accepted
  nominal : nominalBytes 0 fields = .ok nominalRecordBytes
  nominal_ne : nominalRecordBytes ≠ 0
  nominal_le : nominalRecordBytes ≤ maxWord - maximumOverflowBytes.toUInt64

/-- `laplace_decomposition_fixed_width_provider_init` -/
def fixedWidthProviderInit (recipe : FixedWidthRecipe) : Except Status FixedWidthProvider :=
  if haccepted : recipe.Accepted then
    match hnominal : nominalBytes 0 recipe.fields with
    | .error status => .error status
    | .ok nominalRecordBytes =>
      if h : nominalRecordBytes ≠ 0 ∧
          nominalRecordBytes ≤ maxWord - recipe.maximumOverflowBytes.toUInt64 then
        .ok ⟨recipe, nominalRecordBytes, haccepted, hnominal, h.1, h.2⟩
      else .error .invalidArgument
  else .error .invalidArgument

/-- `EmitSpan` -/
def emitSpan (start stop : UInt64) (kind : UInt64) (flags : UInt32) : Emitter Unit :=
  if start < stop then say ⟨start, stop, kind, flags⟩ else Announcer.stop .providerFailure

namespace FixedWidthProvider

variable (provider : FixedWidthProvider)

def recordKind : UInt64 := provider.kindBase ||| 1
def headerRecordKind : UInt64 := provider.kindBase ||| 2
def fieldKind : UInt64 := provider.kindBase ||| 3
def valueKind : UInt64 := provider.kindBase ||| 4
def terminatorKind : UInt64 := provider.kindBase ||| 5
def overflowKind : UInt64 := provider.kindBase ||| 6

def rowKind (rowOrdinal : UInt64) : UInt64 :=
  if rowOrdinal < provider.headerRecordCount.toUInt64 then provider.headerRecordKind
  else provider.recordKind

def isPadding (byte : UInt8) : Bool := byte.toUInt32 = provider.paddingByte

/-- How far `value_start` moves. -/
def trimmedLeft (declaration : FixedWidthField) (cell : List UInt8) : ℕ :=
  if declaration.flags &&& trimLeftFlag ≠ 0 then (cell.takeWhile provider.isPadding).length else 0

/-- What is left of a field when its padding is trimmed on the left and then on the right. -/
def value (declaration : FixedWidthField) (cell : List UInt8) : List UInt8 :=
  let trimmed := cell.drop (provider.trimmedLeft declaration cell)
  if declaration.flags &&& trimRightFlag ≠ 0 then trimmed.rdropWhile provider.isPadding else trimmed

def emitValue (declaration : FixedWidthField) (fieldStart : UInt64) (cell : List UInt8) : Emitter Unit :=
  let valueStart := fieldStart + UInt64.ofNat (provider.trimmedLeft declaration cell)
  emitNonempty valueStart (valueStart + UInt64.ofNat (provider.value declaration cell).length)
    provider.valueKind (textFlag ||| redispatchFlag)

def emitOverflow (fieldIndex : UInt32) (fieldEnd overflow : UInt64) : Emitter Unit :=
  if fieldIndex = provider.overflowFieldIndex ∧ overflow ≠ 0 then
    emitSpan (fieldEnd - overflow) fieldEnd provider.overflowKind 0
  else pure ()

/-- The loop over the fields of a record, of which `rest` is what comes from `fieldStart` on; it returns
where it has arrived. -/
def emitFields (contentEnd overflow fieldStart : UInt64) (fieldIndex : UInt32) :
    List FixedWidthField → List UInt8 → Emitter UInt64
  | [], _ => return fieldStart
  | declaration :: declarations, rest => do
    let fieldWidth := declaration.width.toUInt64 +
      if fieldIndex = provider.overflowFieldIndex then overflow else 0
    require (fieldWidth ≤ contentEnd - fieldStart) .providerFailure
    let fieldEnd := fieldStart + fieldWidth
    emitSpan fieldStart fieldEnd provider.fieldKind 0
    provider.emitValue declaration fieldStart (rest.take fieldWidth.toNat)
    provider.emitOverflow fieldIndex fieldEnd overflow
    emitFields contentEnd overflow fieldEnd (fieldIndex + 1) declarations (rest.drop fieldWidth.toNat)

/-- The body of the loop over the lines, up to the terminator. -/
def emitRecord (lineStart rowOrdinal : UInt64) (content : List UInt8) : Emitter Unit := do
  let contentEnd := lineStart + UInt64.ofNat content.length
  let physicalWidth := contentEnd - lineStart
  require (provider.nominalRecordBytes ≤ physicalWidth) .providerFailure
  let overflow := physicalWidth - provider.nominalRecordBytes
  require (overflow ≤ provider.maximumOverflowBytes.toUInt64 ∧
    (overflow = 0 ∨ provider.overflowFieldIndex ≠ noOverflowField)) .providerFailure
  emitSpan lineStart contentEnd (provider.rowKind rowOrdinal) textFlag
  let fieldStart ← provider.emitFields contentEnd overflow lineStart 0 provider.fields content
  require (fieldStart = contentEnd) .providerFailure

def emitTerminator (terminatorStart terminatorEnd : UInt64) : Emitter Unit :=
  emitSpan terminatorStart terminatorEnd provider.terminatorKind 0

/-- `Apply` -/
def apply (content : Content) (span : Span) : Interaction Emission Int32 Status :=
  (applySpan provider.terminator provider.emitRecord provider.emitTerminator content span).callee

/-- `provider.provider` -/
def toProvider : Provider where
  providerFingerprint := provider.providerFingerprint
  applicable _ _ span := Decomposition.applicable span
  apply := some fun _ content span => provider.apply content span
  applyEvents := none
  abiMajor := providerAbiMajor
  abiMinor := providerAbiMinor
  flags := 0
  reserved := 0

/-! ## Records -/

/-- Cells of the widths that are declared, where the overflow is in the field that is declared to take
it. -/
def Divides (overflow : ℕ) : ℕ → List FixedWidthField → List (List UInt8) → Prop
  | _, [], [] => True
  | index, field :: fields, cell :: cells =>
    cell.length = field.width.toNat +
      (if index = provider.overflowFieldIndex.toNat then overflow else 0) ∧
    Divides overflow (index + 1) fields cells
  | _, _, _ => False

/-- The cells of a record. -/
def IsRecord (cells : List (List UInt8)) : Prop :=
  ∃ overflow ≤ provider.maximumOverflowBytes.toNat, provider.Divides overflow 0 provider.fields cells

/-- Records whose widths match the recipe, and lines that can be told apart. -/
def IsTable (table : List (List (List UInt8))) : Prop :=
  ∀ cells ∈ table, provider.IsRecord cells ∧ LineOf provider.terminator cells.flatten

def render (table : List (List (List UInt8))) : List UInt8 :=
  renderLines provider.terminator (table.map List.flatten)

/-- What is emitted of a field: the whole field, its value and what is beyond its width. -/
def fieldEmissions (start : ℕ) (field : FixedWidthField) (cell : List UInt8) : List Emission :=
  emission start (start + cell.length) provider.fieldKind 0 ::
    (bytesEmission (start + provider.trimmedLeft field cell) (provider.value field cell)
        provider.valueKind (textFlag ||| redispatchFlag) ++
      bytesEmission (start + field.width.toNat) (cell.drop field.width.toNat) provider.overflowKind 0)

/-- What is emitted of the fields of a record. -/
def cellEmissions (start : ℕ) : List FixedWidthField → List (List UInt8) → List Emission
  | field :: fields, cell :: cells =>
    provider.fieldEmissions start field cell ++ cellEmissions (start + cell.length) fields cells
  | _, _ => []

/-- The cells of a record of any width. -/
def divide (overflow : ℕ) : ℕ → List FixedWidthField → List UInt8 → List (List UInt8)
  | _, [], _ => []
  | index, field :: fields, bytes =>
    let width := field.width.toNat +
      if index = provider.overflowFieldIndex.toNat then overflow else 0
    bytes.take width :: divide overflow (index + 1) fields (bytes.drop width)

/-- The cells of a record. -/
def cells (content : List UInt8) : List (List UInt8) :=
  provider.divide (content.length - provider.nominalRecordBytes.toNat) 0 provider.fields content

/-- What is emitted of a record, apart from its terminator. -/
def recordEmissions (start row : ℕ) (content : List UInt8) : List Emission :=
  emission start (start + content.length) (provider.rowKind (UInt64.ofNat row)) textFlag ::
    provider.cellEmissions start provider.fields (provider.cells content)

/-- What is emitted of a table that is written from `start` on. -/
def tableEmissions (start : ℕ) (table : List (List (List UInt8))) : List Emission :=
  linesEmissions provider.terminator provider.terminatorKind provider.recordEmissions start 0
    (table.map List.flatten)

/-! ## The initialisation -/

/-- What the declared widths come to. -/
def nominalWidth (fields : List FixedWidthField) : ℕ := (fields.map (·.width.toNat)).sum

theorem nominalBytes_ok : ∀ {fields : List FixedWidthField} {total bytes : UInt64},
    nominalBytes total fields = .ok bytes →
    bytes.toNat = total.toNat + nominalWidth fields ∧ ∀ field ∈ fields, field.width ≠ 0
  | [], total, bytes, h => by
    cases h
    exact ⟨rfl, nofun⟩
  | field :: fields, total, bytes, h => by
    rw [nominalBytes] at h
    split at h
    · cases h
    rename_i hchecks
    push Not at hchecks
    obtain ⟨hwidth, -, hroom⟩ := hchecks
    obtain ⟨hbytes, hfields⟩ := nominalBytes_ok h
    have hlt := total.toNat_lt
    have hfield : field.width.toUInt64.toNat = field.width.toNat := UInt32.toNat_toUInt64 _
    have hwidthLt := field.width.toNat_lt
    rw [gt_iff_lt, UInt64.lt_iff_toNat_lt, UInt64.toNat_sub_of_le _ _ (le_maxWord _),
      toNat_maxWord, hfield] at hroom
    refine ⟨?_, fun other hother => ?_⟩
    · rw [hbytes, UInt64.toNat_add, hfield, nominalWidth, nominalWidth, List.map_cons, List.sum_cons]
      omega
    · rcases List.mem_cons.1 hother with rfl | hother
      · exact hwidth
      · exact hfields other hother

section Recipe

variable {provider}

theorem nominalWidth_eq : nominalWidth provider.fields = provider.nominalRecordBytes.toNat := by
  rw [(nominalBytes_ok provider.nominal).1]
  exact (Nat.zero_add _).symm

theorem width_ne {field : FixedWidthField} (h : field ∈ provider.fields) : 0 < field.width.toNat := by
  have hne := (nominalBytes_ok provider.nominal).2 field h
  have hzero : field.width.toNat ≠ 0 := fun hzero => hne (UInt32.toNat_inj.1 hzero)
  omega

theorem nominalRecordBytes_pos (provider : FixedWidthProvider) : 0 < provider.nominalRecordBytes.toNat := by
  have hzero : provider.nominalRecordBytes.toNat ≠ 0 := fun hzero =>
    provider.nominal_ne (UInt64.toNat_inj.1 hzero)
  omega

theorem overflow_declared (provider : FixedWidthProvider) :
    provider.overflowFieldIndex.toNat < provider.fields.length ∨
    provider.maximumOverflowBytes.toNat = 0 := by
  rcases provider.accepted.overflowFieldIndex with hnone | hlt
  · right
    rw [provider.accepted.maximumOverflowBytes.1 hnone]
    rfl
  · left
    have hlength := provider.accepted.fields_le
    rwa [UInt32.lt_iff_toNat_lt, UInt32.toNat_ofNat_of_lt' (by unfold UInt32.size; omega)] at hlt

end Recipe

/-! ## Cells -/

section Cells

variable {provider}

variable {overflow : ℕ}

theorem Divides.length_flatten : ∀ {index : ℕ} {fields : List FixedWidthField} {cells : List (List UInt8)},
    provider.Divides overflow index fields cells → cells.flatten.length = nominalWidth fields +
      if index ≤ provider.overflowFieldIndex.toNat ∧
        provider.overflowFieldIndex.toNat < index + fields.length then overflow else 0
  | index, [], [], _ => by
    rw [if_neg (by rw [List.length_nil]; omega)]
    rfl
  | index, field :: fields, cell :: cells, ⟨hcell, hcells⟩ => by
    rw [List.flatten_cons, List.length_append, hcells.length_flatten, hcell, nominalWidth, nominalWidth,
      List.map_cons, List.sum_cons, List.length_cons]
    split_ifs <;> omega

theorem divides_divide (overflow : ℕ) : ∀ (index : ℕ) (fields : List FixedWidthField) (bytes : List UInt8),
    bytes.length = nominalWidth fields + (if index ≤ provider.overflowFieldIndex.toNat ∧
        provider.overflowFieldIndex.toNat < index + fields.length then overflow else 0) →
    provider.Divides overflow index fields (provider.divide overflow index fields bytes) ∧
      (provider.divide overflow index fields bytes).flatten = bytes
  | index, [], bytes, h => by
    rw [if_neg (by rw [List.length_nil]; omega)] at h
    exact ⟨trivial, (List.eq_nil_of_length_eq_zero h).symm⟩
  | index, field :: fields, bytes, h => by
    rw [nominalWidth, List.map_cons, List.sum_cons, List.length_cons] at h
    have hrest := divides_divide overflow (index + 1) fields (bytes.drop (field.width.toNat +
      if index = provider.overflowFieldIndex.toNat then overflow else 0)) (by
        rw [List.length_drop, h, nominalWidth]
        split_ifs <;> omega)
    rw [divide]
    refine ⟨⟨?_, hrest.1⟩, ?_⟩
    · rw [List.length_take, h]
      split_ifs <;> omega
    · rw [List.flatten_cons, hrest.2, List.take_append_drop]

theorem Divides.divide_flatten : ∀ {index : ℕ} {fields : List FixedWidthField} {cells : List (List UInt8)},
    provider.Divides overflow index fields cells →
    provider.divide overflow index fields cells.flatten = cells
  | _, [], [], _ => rfl
  | index, field :: fields, cell :: cells, ⟨hcell, hcells⟩ => by
    rw [divide, ← hcell, List.flatten_cons, List.take_left, List.drop_left, hcells.divide_flatten]

/-- A record of a width that matches the recipe. -/
def Fits (provider : FixedWidthProvider) (content : List UInt8) : Prop :=
  provider.nominalRecordBytes.toNat ≤ content.length ∧
    content.length ≤ provider.nominalRecordBytes.toNat + provider.maximumOverflowBytes.toNat

variable {cells : List (List UInt8)}

theorem length_of_divides (hoverflow : overflow ≤ provider.maximumOverflowBytes.toNat)
    (h : provider.Divides overflow 0 provider.fields cells) :
    cells.flatten.length = provider.nominalRecordBytes.toNat + overflow := by
  have hdeclared := overflow_declared provider
  rw [h.length_flatten, nominalWidth_eq]
  split_ifs <;> omega

theorem IsRecord.fits (h : provider.IsRecord cells) : provider.Fits cells.flatten := by
  obtain ⟨overflow, hoverflow, hcells⟩ := h
  have hlength := length_of_divides hoverflow hcells
  exact ⟨by omega, by omega⟩

theorem IsRecord.cells_flatten (h : provider.IsRecord cells) : provider.cells cells.flatten = cells := by
  obtain ⟨overflow, hoverflow, hcells⟩ := h
  rw [FixedWidthProvider.cells, length_of_divides hoverflow hcells, Nat.add_sub_cancel_left,
    hcells.divide_flatten]

theorem Fits.divides {content : List UInt8} (h : provider.Fits content) :
    provider.Divides (content.length - provider.nominalRecordBytes.toNat) 0 provider.fields
      (provider.cells content) ∧ (provider.cells content).flatten = content := by
  have hdeclared := overflow_declared provider
  obtain ⟨hnominal, hmaximum⟩ := h
  refine divides_divide _ _ _ _ ?_
  rw [nominalWidth_eq]
  split_ifs <;> omega

theorem Fits.isRecord {content : List UInt8} (h : provider.Fits content) :
    provider.IsRecord (provider.cells content) :=
  ⟨content.length - provider.nominalRecordBytes.toNat, Nat.sub_le_iff_le_add'.2 h.2, h.divides.1⟩

end Cells

/-! ## One record -/

section Record

variable {provider}

variable {start : ℕ}

theorem emitSpan_returns {stop : ℕ} (h : start < stop) (hstop : stop < 2 ^ 64) (kind : UInt64)
    (flags : UInt32) : (emitSpan (UInt64.ofNat start) (UInt64.ofNat stop) kind flags).Returns
      [emission start stop kind flags] () := by
  have hlt : UInt64.ofNat start < UInt64.ofNat stop := by
    rw [UInt64.lt_iff_toNat_lt, toNat_ofNat (by omega),
      toNat_ofNat hstop]
    exact h
  rw [emitSpan, if_pos hlt]
  exact returns_say _

theorem length_value_le (provider : FixedWidthProvider) (declaration : FixedWidthField) (cell : List UInt8) :
    provider.trimmedLeft declaration cell + (provider.value declaration cell).length ≤ cell.length := by
  have hleft : provider.trimmedLeft declaration cell ≤ cell.length := by
    unfold trimmedLeft
    split
    · exact (List.takeWhile_prefix _).length_le
    · exact Nat.zero_le _
  have hvalue : (provider.value declaration cell).length ≤
      (cell.drop (provider.trimmedLeft declaration cell)).length := by
    unfold value
    dsimp only
    split
    · exact (List.rdropWhile_prefix _ _).length_le
    · exact Nat.le_refl _
  rw [List.length_drop] at hvalue
  omega

theorem emitValue_returns (provider : FixedWidthProvider) (declaration : FixedWidthField)
    {cell : List UInt8} (h : start + cell.length < 2 ^ 64) :
    (provider.emitValue declaration (UInt64.ofNat start) cell).Returns
      (bytesEmission (start + provider.trimmedLeft declaration cell) (provider.value declaration cell)
        provider.valueKind (textFlag ||| redispatchFlag)) () := by
  have hvalue := length_value_le provider declaration cell
  unfold emitValue
  dsimp only
  rw [← UInt64.ofNat_add, ← UInt64.ofNat_add]
  exact emitNonempty_returns (by omega) _ _

theorem emitOverflow_returns {index overflow : ℕ} {field : FixedWidthField} {cell : List UInt8}
    (hindex : index < 2 ^ 32) (hoverflow : overflow < 2 ^ 64)
    (hcell : cell.length = field.width.toNat + if index = provider.overflowFieldIndex.toNat then overflow else 0)
    (h : start + cell.length < 2 ^ 64) :
    (provider.emitOverflow (UInt32.ofNat index) (UInt64.ofNat (start + cell.length))
      (UInt64.ofNat overflow)).Returns
        (bytesEmission (start + field.width.toNat) (cell.drop field.width.toNat)
          provider.overflowKind 0) () := by
  have hsame : UInt32.ofNat index = provider.overflowFieldIndex ↔
      index = provider.overflowFieldIndex.toNat := by
    rw [← UInt32.toNat_inj, UInt32.toNat_ofNat_of_lt' hindex]
  have hzero : UInt64.ofNat overflow ≠ 0 ↔ overflow ≠ 0 := by
    rw [Ne, ← UInt64.toNat_inj, toNat_ofNat hoverflow]
    rfl
  unfold emitOverflow bytesEmission
  by_cases hdeclared : index = provider.overflowFieldIndex.toNat ∧ overflow ≠ 0
  · rw [if_pos hdeclared.1] at hcell
    have hbeyond : cell.drop field.width.toNat ≠ [] := by
      rw [Ne, List.drop_eq_nil_iff]
      omega
    have hstart : UInt64.ofNat (start + cell.length) - UInt64.ofNat overflow =
        UInt64.ofNat (start + field.width.toNat) := by
      rw [← UInt64.ofNat_sub (by omega)]
      congr 1
      omega
    rw [if_pos ⟨hsame.2 hdeclared.1, hzero.2 hdeclared.2⟩, if_neg hbeyond, hstart, List.length_drop]
    have hstop : start + field.width.toNat + (cell.length - field.width.toNat) = start + cell.length := by
      omega
    rw [hstop]
    exact emitSpan_returns (by omega) h _ _
  · have hbeyond : cell.drop field.width.toNat = [] := by
      rw [List.drop_eq_nil_iff, hcell]
      split_ifs <;> omega
    rw [if_neg (fun hboth => hdeclared ⟨hsame.1 hboth.1, hzero.1 hboth.2⟩), if_pos hbeyond]
    exact returns_pure _

theorem fieldWidth_eq (provider : FixedWidthProvider) {index : ℕ} (overflow : ℕ) (hindex : index < 2 ^ 32)
    (field : FixedWidthField) : (field.width.toUInt64 + if UInt32.ofNat index = provider.overflowFieldIndex
      then UInt64.ofNat overflow else 0) = UInt64.ofNat (field.width.toNat +
        if index = provider.overflowFieldIndex.toNat then overflow else 0) := by
  have hsame : UInt32.ofNat index = provider.overflowFieldIndex ↔
      index = provider.overflowFieldIndex.toNat := by
    rw [← UInt32.toNat_inj, UInt32.toNat_ofNat_of_lt' hindex]
  have hwidth : field.width.toUInt64 = UInt64.ofNat field.width.toNat := by
    rw [← UInt32.toNat_toUInt64, UInt64.ofNat_toNat]
  rw [UInt64.ofNat_add, hwidth]
  congr 1
  by_cases h : index = provider.overflowFieldIndex.toNat
  · rw [if_pos (hsame.2 h), if_pos h]
  · rw [if_neg (fun heq => h (hsame.1 heq)), if_neg h]
    rfl

theorem emitFields_returns {contentEnd overflow : ℕ} (hend : contentEnd < 2 ^ 64)
    (hoverflow : overflow < 2 ^ 64) :
    ∀ (start : ℕ) {fields : List FixedWidthField} {cells : List (List UInt8)} {index : ℕ},
    provider.Divides overflow index fields cells → (∀ field ∈ fields, 0 < field.width.toNat) →
    index + fields.length < 2 ^ 32 → start + cells.flatten.length ≤ contentEnd →
    (provider.emitFields (UInt64.ofNat contentEnd) (UInt64.ofNat overflow) (UInt64.ofNat start)
      (UInt32.ofNat index) fields cells.flatten).Returns (provider.cellEmissions start fields cells)
        (UInt64.ofNat (start + cells.flatten.length))
  | _, [], [], _, _, _, _, _ => returns_pure _
  | start, field :: fields, cell :: cells, index, ⟨hcell, hcells⟩, hwidths, hindex, hstart => by
    rw [List.flatten_cons, List.length_append] at hstart ⊢
    rw [List.length_cons] at hindex
    have hpositive := hwidths field List.mem_cons_self
    have hrest := emitFields_returns hend hoverflow (start + cell.length) hcells
      (fun other hother => hwidths other (List.mem_cons_of_mem _ hother)) (by omega) (by omega)
    have hwidth := fieldWidth_eq provider overflow (show index < 2 ^ 32 by omega) field
    have hroom : UInt64.ofNat cell.length ≤ UInt64.ofNat contentEnd - UInt64.ofNat start := by
      rw [← UInt64.ofNat_sub (by omega), UInt64.le_iff_toNat_le,
        toNat_ofNat (by omega),
        toNat_ofNat (by omega)]
      omega
    have hlength : (UInt64.ofNat cell.length).toNat = cell.length :=
      toNat_ofNat (by omega)
    rw [← hcell] at hwidth
    rw [emitFields]
    dsimp only
    rw [hwidth, require_pos hroom, hlength, List.take_left, List.drop_left,
      ← UInt64.ofNat_add, ← Nat.add_assoc]
    have hspan := emitSpan_returns (show start < start + cell.length by omega) (by omega)
      provider.fieldKind 0
    have hvalue := emitValue_returns provider field (show start + cell.length < 2 ^ 64 by omega)
    have hbeyond := emitOverflow_returns (by omega) hoverflow hcell (show start + cell.length < 2 ^ 64 by omega)
    have hnext : UInt32.ofNat index + 1 = UInt32.ofNat (index + 1) := (UInt32.ofNat_add index 1).symm
    have hemissions : provider.cellEmissions start (field :: fields) (cell :: cells) =
        [] ++ ([emission start (start + cell.length) provider.fieldKind 0] ++
          (bytesEmission (start + provider.trimmedLeft field cell) (provider.value field cell)
              provider.valueKind (textFlag ||| redispatchFlag) ++
            (bytesEmission (start + field.width.toNat) (cell.drop field.width.toNat)
                provider.overflowKind 0 ++
              provider.cellEmissions (start + cell.length) fields cells))) := by
      rw [cellEmissions, fieldEmissions, List.cons_append, List.append_assoc]
      rfl
    rw [hemissions, hnext]
    exact (returns_pure _).bind (hspan.bind (hvalue.bind (hbeyond.bind hrest)))

theorem emitRecord_cases {row : ℕ} {content : List UInt8} (h : start + content.length < 2 ^ 64) :
    (provider.Fits content → (provider.emitRecord (UInt64.ofNat start) (UInt64.ofNat row) content).Returns
        (provider.recordEmissions start row content) ()) ∧ (¬ provider.Fits content →
      (provider.emitRecord (UInt64.ofNat start) (UInt64.ofNat row) content).Fails .providerFailure) := by
  have hwidth : UInt64.ofNat (start + content.length) - UInt64.ofNat start =
      UInt64.ofNat content.length := by
    rw [← UInt64.ofNat_sub (Nat.le_add_right _ _), Nat.add_sub_cancel_left]
  have hnominal : provider.nominalRecordBytes ≤ UInt64.ofNat content.length ↔
      provider.nominalRecordBytes.toNat ≤ content.length := by
    rw [UInt64.le_iff_toNat_le, toNat_ofNat (by omega)]
  unfold emitRecord
  dsimp only
  rw [← UInt64.ofNat_add, hwidth]
  by_cases hle : provider.nominalRecordBytes ≤ UInt64.ofNat content.length
  swap
  · refine ⟨fun hfits => absurd (hnominal.2 hfits.1) hle, fun _ => ?_⟩
    rw [require_neg hle]
    exact (fails_stop _).bind _
  have hnominalLe := hnominal.1 hle
  have hoverflow : UInt64.ofNat content.length - provider.nominalRecordBytes =
      UInt64.ofNat (content.length - provider.nominalRecordBytes.toNat) := by
    rw [UInt64.ofNat_sub hnominalLe, UInt64.ofNat_toNat]
  have hmaximum : (UInt64.ofNat (content.length - provider.nominalRecordBytes.toNat) ≤
      provider.maximumOverflowBytes.toUInt64 ∧
      (UInt64.ofNat (content.length - provider.nominalRecordBytes.toNat) = 0 ∨
        provider.overflowFieldIndex ≠ noOverflowField)) ↔ provider.Fits content := by
    rw [UInt64.le_iff_toNat_le, toNat_ofNat (by omega),
      UInt32.toNat_toUInt64]
    refine ⟨fun hoverflow => ⟨hnominalLe, Nat.sub_le_iff_le_add'.1 hoverflow.1⟩, fun hfits =>
      ⟨Nat.sub_le_iff_le_add'.2 hfits.2, ?_⟩⟩
    by_cases hnone : provider.overflowFieldIndex = noOverflowField
    · left
      have hzero := hfits.2
      rw [provider.accepted.maximumOverflowBytes.1 hnone, UInt32.toNat_zero, Nat.add_zero] at hzero
      rw [Nat.sub_eq_zero_of_le hzero]
      rfl
    · exact .inr hnone
  rw [require_pos hle, hoverflow]
  refine ⟨fun hfits => ?_, fun hfits => (returns_pure ()).bind_fails ?_⟩
  swap
  · rw [require_neg (hmaximum.not.2 hfits)]
    exact (fails_stop _).bind _
  obtain ⟨hdivides, hflatten⟩ := hfits.divides
  have hpositive := nominalRecordBytes_pos provider
  have hcount := provider.accepted.fields_le
  have hspan := emitSpan_returns (show start < start + content.length by omega) h
    (provider.rowKind (UInt64.ofNat row)) textFlag
  have hfields := emitFields_returns h (by omega) start hdivides (fun field => width_ne) (by omega)
    (by rw [hflatten])
  rw [hflatten] at hfields
  rw [require_pos (hmaximum.2 hfits), recordEmissions, ← List.append_nil (provider.cellEmissions _ _ _)]
  exact (returns_pure _).bind ((returns_pure _).bind (hspan.bind (hfields.bind
    (require_pos rfl _))))

theorem reads_records : Reads provider.terminator provider.terminatorKind provider.emitRecord
    provider.emitTerminator provider.Fits provider.recordEmissions where
  returns _ _ _ _ hfits hstart _ := (emitRecord_cases hstart).1 hfits
  fails _ _ _ _ hfits hstart _ := (emitRecord_cases hstart).2 hfits
  terminator _ _ hlt hstop := emitSpan_returns hlt hstop _ _

end Record

/-! ## Tables -/

section Tables

variable {provider}

theorem exists_contents_iff {bytes : List UInt8} :
    (∃ contents, (∀ content ∈ contents, LineOf provider.terminator content ∧ provider.Fits content) ∧
      bytes = renderLines provider.terminator contents) ↔
    ∃ table, provider.IsTable table ∧ bytes = provider.render table := by
  constructor
  · rintro ⟨contents, hcontents, rfl⟩
    have hflatten : (contents.map provider.cells).map List.flatten = contents := by
      rw [List.map_map]
      exact (List.map_congr_left fun content hcontent => (hcontents content hcontent).2.divides.2).trans
        (List.map_id _)
    refine ⟨contents.map provider.cells, fun cells hcells => ?_, by rw [render, hflatten]⟩
    obtain ⟨content, hcontent, rfl⟩ := List.mem_map.1 hcells
    obtain ⟨hline, hfits⟩ := hcontents content hcontent
    exact ⟨hfits.isRecord, by rwa [hfits.divides.2]⟩
  · rintro ⟨table, htable, rfl⟩
    refine ⟨table.map List.flatten, fun content hcontent => ?_, rfl⟩
    obtain ⟨cells, hcells, rfl⟩ := List.mem_map.1 hcontent
    exact ⟨(htable cells hcells).2, (htable cells hcells).1.fits⟩

theorem spoken_table {content : Content} {span : Span} (hstart : span.byteStart < span.byteEnd)
    (hend : span.byteEnd ≤ content.byteCount) {table : List (List (List UInt8))}
    (htable : provider.IsTable table) (hbytes : spanBytes content span = provider.render table) :
    (provider.apply content span).spoken 0 =
      (provider.tableEmissions span.byteStart.toNat table, Status.ok) := by
  refine reads_records.spoken_lines hstart hend (fun content hcontent => ?_) hbytes
  obtain ⟨cells, hcells, rfl⟩ := List.mem_map.1 hcontent
  exact ⟨(htable cells hcells).2, (htable cells hcells).1.fits⟩

theorem spoken_ok_iff {content : Content} {span : Span} : ((provider.apply content span).spoken 0).2 = .ok ↔
      span.byteStart < span.byteEnd ∧ span.byteEnd ≤ content.byteCount ∧ ∃ table,
        provider.IsTable table ∧ spanBytes content span = provider.render table := by
  rw [apply, reads_records.spoken_ok_iff, exists_contents_iff]

end Tables

/-! ## Tilings -/

/-- Fields and terminators. -/
def isField (emission : Emission) : Bool :=
  emission.kind = provider.fieldKind ∨ emission.kind = provider.terminatorKind

/-- Records and terminators. -/
def isLine (emission : Emission) : Bool :=
  emission.kind = provider.recordKind ∨ emission.kind = provider.headerRecordKind ∨
    emission.kind = provider.terminatorKind

section Tilings

variable {provider}

theorem filter_fieldEmissions (start : ℕ) (field : FixedWidthField) (cell : List UInt8) :
    (provider.fieldEmissions start field cell).filter provider.isField =
      [emission start (start + cell.length) provider.fieldKind 0] := by
  have hrest : (bytesEmission (start + provider.trimmedLeft field cell) (provider.value field cell)
        provider.valueKind (textFlag ||| redispatchFlag) ++
      bytesEmission (start + field.width.toNat) (cell.drop field.width.toNat)
        provider.overflowKind 0).filter provider.isField = [] := by
    refine List.filter_eq_nil_iff.2 fun emission hmem => ?_
    rw [isField, decide_eq_true_iff]
    have hbase := provider.accepted.kindBase_low
    rcases List.mem_append.1 hmem with hmem | hmem <;> rw [mem_bytesEmission hmem] <;>
    exact not_or.2 ⟨kindBase_or_ne hbase, kindBase_or_ne hbase⟩
  have hfield : provider.isField (emission start (start + cell.length) provider.fieldKind 0) = true :=
    decide_eq_true (.inl rfl)
  rw [fieldEmissions, List.filter_cons_of_pos hfield, hrest]

variable {overflow : ℕ}

theorem cellEmissions_tiles : ∀ {index : ℕ} {fields : List FixedWidthField} {cells : List (List UInt8)},
    provider.Divides overflow index fields cells → ∀ start : ℕ, start + cells.flatten.length < 2 ^ 64 →
    Tiles (((provider.cellEmissions start fields cells).filter provider.isField).map Emission.range) start
      (start + cells.flatten.length)
  | _, [], [], _, _, _ => rfl
  | index, field :: fields, cell :: cells, ⟨_, hcells⟩, start, h => by
    rw [List.flatten_cons, List.length_append] at h ⊢
    rw [cellEmissions, List.filter_append, filter_fieldEmissions, List.singleton_append, List.map_cons,
      emission_range (by omega) (by omega), ← Nat.add_assoc]
    exact ⟨rfl, Nat.le_add_right _ _, cellEmissions_tiles hcells _ (by omega)⟩

theorem cellEmissions_covered {bytes : List UInt8} :
    ∀ {index : ℕ} {fields : List FixedWidthField} {cells : List (List UInt8)},
    provider.Divides overflow index fields cells → ∀ {start : ℕ},
    Holds bytes start cells.flatten → start + cells.flatten.length < 2 ^ 64 →
    ((provider.cellEmissions start fields cells).filter provider.isField).map (Emission.covered bytes) =
      cells
  | _, [], [], _, _, _, _ => rfl
  | index, field :: fields, cell :: cells, ⟨_, hcells⟩, start, hholds, h => by
    rw [List.flatten_cons, List.length_append] at h
    rw [List.flatten_cons] at hholds
    rw [cellEmissions, List.filter_append, filter_fieldEmissions, List.singleton_append, List.map_cons,
      cellEmissions_covered hcells hholds.append.2 (by omega), Emission.covered,
      hholds.append.1.covered (by omega)]

variable {start : ℕ}

theorem fieldEmissions_within {field : FixedWidthField} {cell : List UInt8}
    (hwidth : 0 < field.width.toNat) (hcell : field.width.toNat ≤ cell.length)
    (h : start + cell.length < 2 ^ 64) : ∀ emission ∈ provider.fieldEmissions start field cell,
      emission.Within start (start + cell.length) := by
  intro emission hmem
  have hvalue := length_value_le provider field cell
  rcases List.mem_cons.1 hmem with rfl | hmem
  · exact emission_within (by omega) h _ _
  rcases List.mem_append.1 hmem with hmem | hmem
  · exact (bytesEmission_within (by omega) hmem).mono (by omega) (by omega)
  · have hdrop : (cell.drop field.width.toNat).length = cell.length - field.width.toNat :=
      List.length_drop
    exact (bytesEmission_within (by omega) hmem).mono (by omega) (by omega)

theorem cellEmissions_within : ∀ {index : ℕ} {fields : List FixedWidthField} {cells : List (List UInt8)},
    provider.Divides overflow index fields cells → (∀ field ∈ fields, 0 < field.width.toNat) →
    ∀ start : ℕ, start + cells.flatten.length < 2 ^ 64 →
    ∀ emission ∈ provider.cellEmissions start fields cells,
      emission.Within start (start + cells.flatten.length)
  | index, field :: fields, cell :: cells, ⟨hcell, hcells⟩, hwidths, start, h, emission, hmem => by
    rw [List.flatten_cons, List.length_append] at h ⊢
    rw [cellEmissions] at hmem
    rcases List.mem_append.1 hmem with hmem | hmem
    · exact (fieldEmissions_within (hwidths field List.mem_cons_self) (by omega) (by omega) emission
        hmem).mono (by omega) (by omega)
    · exact (cellEmissions_within hcells
        (fun other hother => hwidths other (List.mem_cons_of_mem _ hother)) _ (by omega) emission
        hmem).mono (by omega) (by omega)

theorem filter_recordEmissions (start row : ℕ) (content : List UInt8) :
    (provider.recordEmissions start row content).filter provider.isField =
      (provider.cellEmissions start provider.fields (provider.cells content)).filter provider.isField := by
  refine List.filter_cons_of_neg ?_
  rw [isField, decide_eq_true_iff, emission_kind, rowKind]
  have hbase := provider.accepted.kindBase_low
  split <;> exact not_or.2 ⟨kindBase_or_ne hbase, kindBase_or_ne hbase⟩

theorem mem_cellEmissions : ∀ {start : ℕ} {fields : List FixedWidthField} {cells : List (List UInt8)}
    {emission : Emission}, emission ∈ provider.cellEmissions start fields cells →
    emission.kind = provider.fieldKind ∨ emission.kind = provider.valueKind ∨
      emission.kind = provider.overflowKind
  | _, field :: fields, cell :: cells, _, hmem => by
    rw [cellEmissions] at hmem
    rcases List.mem_append.1 hmem with hmem | hmem
    swap
    · exact mem_cellEmissions hmem
    rcases List.mem_cons.1 hmem with rfl | hmem
    · exact .inl rfl
    rcases List.mem_append.1 hmem with hmem | hmem
    · exact .inr (.inl (mem_bytesEmission hmem))
    · exact .inr (.inr (mem_bytesEmission hmem))

theorem isLine_recordEmissions (start row : ℕ) (content : List UInt8) :
    (provider.recordEmissions start row content).filter provider.isLine =
      [emission start (start + content.length) (provider.rowKind (UInt64.ofNat row)) textFlag] := by
  have hcells : (provider.cellEmissions start provider.fields (provider.cells content)).filter
      provider.isLine = [] := by
    refine List.filter_eq_nil_iff.2 fun emission hmem => ?_
    rw [isLine, decide_eq_true_iff, not_or, not_or]
    have hbase := provider.accepted.kindBase_low
    rcases mem_cellEmissions hmem with hkind | hkind | hkind <;> rw [hkind] <;>
    exact ⟨kindBase_or_ne hbase, kindBase_or_ne hbase, kindBase_or_ne hbase⟩
  have hrow : provider.isLine (emission start (start + content.length)
      (provider.rowKind (UInt64.ofNat row)) textFlag) = true := by
    rw [isLine, decide_eq_true_iff, emission_kind, rowKind]
    split
    · exact .inr (.inl rfl)
    · exact .inl rfl
  rw [recordEmissions, List.filter_cons_of_pos hrow, hcells]

theorem isLine_terminator {emission : Emission} (h : emission.kind = provider.terminatorKind) :
    provider.isLine emission = true := decide_eq_true (.inr (.inr h))

theorem isField_terminator {emission : Emission} (h : emission.kind = provider.terminatorKind) :
    provider.isField emission = true := decide_eq_true (.inr h)

variable {table : List (List (List UInt8))}

theorem IsTable.contents (h : provider.IsTable table) {content : List UInt8}
    (hcontent : content ∈ table.map List.flatten) : provider.Fits content := by
  obtain ⟨cells, hcells, rfl⟩ := List.mem_map.1 hcontent
  exact (h cells hcells).1.fits

theorem tableEmissions_tiles (h : provider.IsTable table) (start : ℕ)
    (hstart : start + (provider.render table).length < 2 ^ 64) :
    Tiles (((provider.tableEmissions start table).filter provider.isLine).map Emission.range) start
      (start + (provider.render table).length) ∧
    Tiles (((provider.tableEmissions start table).filter provider.isField).map Emission.range) start
      (start + (provider.render table).length) := by
  constructor
  · refine linesEmissions_tiles _ (fun _ => isLine_terminator) _ start 0
      (fun content _ start row hroom => ?_) hstart
    rw [isLine_recordEmissions, List.map_singleton, emission_range (Nat.le_add_right _ _) hroom]
    exact Tiles.single (Nat.le_add_right _ _)
  · refine linesEmissions_tiles _ (fun _ => isField_terminator) _ start 0
      (fun content hcontent start row hroom => ?_) hstart
    obtain ⟨hdivides, hflatten⟩ := (h.contents hcontent).divides
    have htiles := cellEmissions_tiles hdivides start (by rwa [hflatten])
    rw [hflatten] at htiles
    rwa [filter_recordEmissions]

theorem tableEmissions_within (h : provider.IsTable table)
    (hstart : start + (provider.render table).length < 2 ^ 64) :
    ∀ emission ∈ provider.tableEmissions start table,
      emission.Within start (start + (provider.render table).length) := by
  refine linesEmissions_within _ _ start 0 (fun content hcontent start row hroom emission hmem => ?_) hstart
  have hfits := h.contents hcontent
  obtain ⟨hdivides, hflatten⟩ := hfits.divides
  have hpositive := nominalRecordBytes_pos provider
  rcases List.mem_cons.1 hmem with rfl | hmem
  · exact emission_within (Nat.lt_add_of_pos_right (hpositive.trans_le hfits.1)) hroom _ _
  · have hwithin := cellEmissions_within hdivides (fun field => width_ne) start
      (by rwa [hflatten]) emission hmem
    rwa [hflatten] at hwithin

theorem tableEmissions_covered {bytes : List UInt8} (h : provider.IsTable table)
    (hholds : Holds bytes start (provider.render table))
    (hstart : start + (provider.render table).length < 2 ^ 64) :
    ((provider.tableEmissions start table).filter provider.isField).map (Emission.covered bytes) =
      table.flatMap fun cells => cells ++ [terminatorBytes provider.terminator] := by
  have hlines : ((provider.tableEmissions start table).filter provider.isField).map
        (Emission.covered bytes) = (table.map List.flatten).flatMap fun content =>
          provider.cells content ++ [terminatorBytes provider.terminator] := by
    refine linesEmissions_covered _ (fun _ => isField_terminator) _ start 0
      (fun content hcontent start row hcontentHolds hroom => ?_) hholds hstart
    obtain ⟨hdivides, hflatten⟩ := (h.contents hcontent).divides
    rw [filter_recordEmissions]
    exact cellEmissions_covered hdivides (by rwa [hflatten]) (by rwa [hflatten])
  rw [hlines, List.flatMap_map]
  exact List.flatMap_congr fun cells hcells => by rw [(h cells hcells).1.cells_flatten]

end Tilings

/-- A span is accepted when its lines are records of widths that match the recipe. What is emitted then
tiles it, line by line and field by field; the fields are the cells of the declared widths, and no
position wraps around. -/
theorem fixed_width_grammar (provider : FixedWidthProvider) (content : Content) (span : Span) :
    (((provider.apply content span).spoken 0).2 = .ok ↔
      span.byteStart < span.byteEnd ∧ span.byteEnd ≤ content.byteCount ∧ ∃ table,
        provider.IsTable table ∧ spanBytes content span = provider.render table) ∧
    (∀ status, (provider.apply content span).MayReturn status →
      status = .providerFailure ∨ status = ((provider.apply content span).spoken 0).2) ∧
    ∀ table, provider.IsTable table → spanBytes content span = provider.render table →
      span.byteStart < span.byteEnd → span.byteEnd ≤ content.byteCount →
      let emissions := ((provider.apply content span).spoken 0).1
      emissions = provider.tableEmissions span.byteStart.toNat table ∧
      Tiles ((emissions.filter provider.isLine).map Emission.range) span.byteStart.toNat
        span.byteEnd.toNat ∧
      Tiles ((emissions.filter provider.isField).map Emission.range) span.byteStart.toNat
        span.byteEnd.toNat ∧
      (∀ emission ∈ emissions, emission.Within span.byteStart.toNat span.byteEnd.toNat) ∧
      (emissions.filter provider.isField).map (Emission.covered content.bytes) =
        table.flatMap fun cells => cells ++ [terminatorBytes provider.terminator] := by
  refine ⟨spoken_ok_iff, fun _ => Emitter.status_of_mayReturn, fun table htable hbytes hstart hend => ?_⟩
  have hlength := length_spanBytes hstart hend
  have hlt := span.byteEnd.toNat_lt
  have hholds := holds_spanBytes hstart hend
  rw [hbytes] at hlength hholds
  rw [spoken_table hstart hend htable hbytes, ← hlength]
  obtain ⟨hlines, hfields⟩ := tableEmissions_tiles htable span.byteStart.toNat (by omega)
  exact ⟨rfl, hlines, hfields, tableEmissions_within htable (by omega),
    tableEmissions_covered htable hholds (by omega)⟩

/-- A field of two bytes and one of three, on lines that end at a line feed, where the second one may be
a byte longer. -/
def twoFields : FixedWidthProvider where
  fields := [⟨2, 0⟩, ⟨3, trimLeftFlag ||| trimRightFlag⟩]
  headerRecordCount := 0
  terminator := terminatorLf
  paddingByte := 0x20
  overflowFieldIndex := 1
  maximumOverflowBytes := 1
  kindBase := 0x10000
  providerFingerprint := 1
  nominalRecordBytes := 5
  accepted := by decide
  nominal := by rfl
  nominal_ne := by decide
  nominal_le := by decide

/-- A record that ends with a carriage return has the width that the recipe says, and it is refused; so
is an empty text, which is the rendering of no records. -/
theorem fixed_width_grammar_refuses : twoFields.IsRecord [[0x61, 0x62], [0x63, 0x64, 0x0D]] ∧
    lineFeed ∉ [[0x61, 0x62], [0x63, 0x64, 0x0D]].flatten ∧
    twoFields.render [[[0x61, 0x62], [0x63, 0x64, 0x0D]]] = [0x61, 0x62, 0x63, 0x64, 0x0D, 0x0A] ∧
    ((twoFields.apply ⟨[0x61, 0x62, 0x63, 0x64, 0x0D, 0x0A], [], []⟩
      (wholeSpan [0x61, 0x62, 0x63, 0x64, 0x0D, 0x0A])).spoken 0).2 = .providerFailure ∧
    twoFields.render [] = [] ∧
    ((twoFields.apply ⟨[], [], []⟩ (wholeSpan [])).spoken 0).2 = .invalidArgument := by
  refine ⟨⟨0, Nat.zero_le _, rfl, rfl, trivial⟩, ?_⟩
  decide +kernel

end FixedWidthProvider

end Laplace.Decomposition
