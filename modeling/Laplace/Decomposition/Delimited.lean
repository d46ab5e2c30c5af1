import Laplace.Decomposition.Lines

/-!
# The delimited provider (decomposition_delimited.cpp)

Records are lines and fields are what stands between delimiters. A record and a field that are
empty have no span, so a table is read off the delimiters and the terminators. The columns of a
record are counted in 32 bits.
-/

namespace Laplace.Decomposition

open Announcer


/-! ## The provider -/

/-- The arguments of `laplace_decomposition_delimited_provider_init`. -/
structure DelimitedRecipe where
  delimiter : UInt32
  terminator : UInt32
  expectedColumnCount : UInt32
  headerRecordCount : UInt32
  kindBase : UInt64
  providerFingerprint : Digest256
deriving DecidableEq

/-- The checks of `laplace_decomposition_delimited_provider_init`. -/
structure DelimitedRecipe.Accepted (recipe : DelimitedRecipe) : Prop where
  providerFingerprint : recipe.providerFingerprint ≠ 0
  delimiter_ne : recipe.delimiter ≠ 0
  delimiter_le : recipe.delimiter ≤ 0x7F
  delimiter_carriageReturn : recipe.delimiter ≠ carriageReturn.toUInt32
  delimiter_lineFeed : recipe.delimiter ≠ lineFeed.toUInt32
  terminator : recipe.terminator = terminatorLf ∨ recipe.terminator = terminatorCrlf
  expectedColumnCount_ne : recipe.expectedColumnCount ≠ 0
  expectedColumnCount_le : recipe.expectedColumnCount ≤ 65535
  headerRecordCount : recipe.headerRecordCount ≤ 1
  kindBase_ne : recipe.kindBase ≠ 0
  kindBase_low : recipe.kindBase &&& 0xFFFF = 0

instance DelimitedRecipe.decidableAccepted (recipe : DelimitedRecipe) : Decidable recipe.Accepted :=
  decidable_of_iff (recipe.providerFingerprint ≠ 0 ∧ recipe.delimiter ≠ 0 ∧ recipe.delimiter ≤ 0x7F ∧
      recipe.delimiter ≠ carriageReturn.toUInt32 ∧ recipe.delimiter ≠ lineFeed.toUInt32 ∧
      (recipe.terminator = terminatorLf ∨ recipe.terminator = terminatorCrlf) ∧
      recipe.expectedColumnCount ≠ 0 ∧ recipe.expectedColumnCount ≤ 65535 ∧
      recipe.headerRecordCount ≤ 1 ∧ recipe.kindBase ≠ 0 ∧ recipe.kindBase &&& 0xFFFF = 0)
    ⟨fun ⟨h1, h2, h3, h4, h5, h6, h7, h8, h9, h10, h11⟩ => ⟨h1, h2, h3, h4, h5, h6, h7, h8, h9, h10, h11⟩,
      fun ⟨h1, h2, h3, h4, h5, h6, h7, h8, h9, h10, h11⟩ => ⟨h1, h2, h3, h4, h5, h6, h7, h8, h9, h10, h11⟩⟩

/-- `laplace_decomposition_delimited_provider` after its initialisation. -/
structure DelimitedProvider extends DelimitedRecipe where
  accepted : toDelimitedRecipe.Accepted

/-- `laplace_decomposition_delimited_provider_init` -/
def delimitedProviderInit (recipe : DelimitedRecipe) : Except Status DelimitedProvider :=
  if h : recipe.Accepted then .ok ⟨recipe, h⟩ else .error .invalidArgument

namespace DelimitedProvider

variable (provider : DelimitedProvider)

def recordKind : UInt64 := provider.kindBase ||| 1
def headerRecordKind : UInt64 := provider.kindBase ||| 2
def fieldKind : UInt64 := provider.kindBase ||| 3
def delimiterKind : UInt64 := provider.kindBase ||| 4
def terminatorKind : UInt64 := provider.kindBase ||| 5

/-- `static_cast<std::uint8_t>(provider.delimiter)` -/
def delimiterByte : UInt8 := provider.delimiter.toUInt8

def rowKind (rowOrdinal : UInt64) : UInt64 :=
  if rowOrdinal < provider.headerRecordCount.toUInt64 then provider.headerRecordKind
  else provider.recordKind

def emitField (fieldStart cursor : UInt64) : Emitter Unit :=
  emitNonempty fieldStart cursor provider.fieldKind (textFlag ||| redispatchFlag)

/-- The loop over the bytes of a record, from the cursor to its end; it returns the column count. -/
def emitFields (cursor fieldStart : UInt64) (columnCount : UInt32) : List UInt8 → Emitter UInt32
  | [] => do
    provider.emitField fieldStart cursor
    return columnCount + 1
  | byte :: bytes =>
    if byte ≠ provider.delimiterByte then emitFields (cursor + 1) fieldStart columnCount bytes
    else do
      provider.emitField fieldStart cursor
      say ⟨cursor, cursor + 1, provider.delimiterKind, 0⟩
      emitFields (cursor + 1) (cursor + 1) (columnCount + 1) bytes

/-- The body of the loop over the lines, up to the terminator. -/
def emitRecord (lineStart rowOrdinal : UInt64) (content : List UInt8) : Emitter Unit := do
  let contentEnd := lineStart + UInt64.ofNat content.length
  emitNonempty lineStart contentEnd (provider.rowKind rowOrdinal) textFlag
  let columnCount ← provider.emitFields lineStart lineStart 0 content
  require (columnCount = provider.expectedColumnCount) .providerFailure

def emitTerminator (terminatorStart terminatorEnd : UInt64) : Emitter Unit :=
  say ⟨terminatorStart, terminatorEnd, provider.terminatorKind, 0⟩

/-- `Apply` -/
def apply (content : Content) (span : Span) : Interaction Emission Int32 Status :=
  (applySpan provider.terminator provider.emitRecord provider.emitTerminator content span).callee

/-- `provider.provider` -/
def toProvider : Provider where
  providerFingerprint := provider.providerFingerprint
  applicable _ _ span := Decomposition.applicable span
  apply := some fun _ content span => provider.apply content span
  applyEvents := none
  abiMajor := providerAbiMajor
  abiMinor := providerAbiMinor
  flags := 0
  reserved := 0

/-! ## Tables -/

/-- The content of a record. -/
def rowContent (row : List (List UInt8)) : List UInt8 := [provider.delimiterByte].intercalate row

def render (table : List (List (List UInt8))) : List UInt8 :=
  renderLines provider.terminator (table.map provider.rowContent)

/-- Cells that can be told apart: none has a delimiter or a line feed, and where a line ends at a line
feed alone, no record ends with a carriage return. -/
structure IsTable (table : List (List (List UInt8))) : Prop where
  delimiter : ∀ row ∈ table, ∀ cell ∈ row, provider.delimiterByte ∉ cell
  lineFeed : ∀ row ∈ table, ∀ cell ∈ row, lineFeed ∉ cell
  carriageReturn : provider.terminator ≠ terminatorCrlf → ∀ row ∈ table, ∀ cell,
    row.getLast? = some cell → cell.getLast? ≠ some carriageReturn

/-- What is emitted of a cell. -/
def fieldEmission (start : ℕ) (cell : List UInt8) : List Emission :=
  bytesEmission start cell provider.fieldKind (textFlag ||| redispatchFlag)

/-- What is emitted of the cells of a record. -/
def fieldEmissions (start : ℕ) : List (List UInt8) → List Emission
  | [] => []
  | [cell] => provider.fieldEmission start cell
  | cell :: next :: cells =>
    provider.fieldEmission start cell ++
      emission (start + cell.length) (start + cell.length + 1) provider.delimiterKind 0 ::
        fieldEmissions (start + cell.length + 1) (next :: cells)

/-- What is emitted of a record, apart from its terminator. -/
def recordEmissions (start row : ℕ) (content : List UInt8) : List Emission :=
  bytesEmission start content (provider.rowKind (UInt64.ofNat row)) textFlag ++
    provider.fieldEmissions start (content.splitOn provider.delimiterByte)

/-- What is emitted of a table that is written from `start` on. -/
def tableEmissions (start : ℕ) (table : List (List (List UInt8))) : List Emission :=
  linesEmissions provider.terminator provider.terminatorKind provider.recordEmissions start 0
    (table.map provider.rowContent)

/-! ## One record -/

section Record

variable {provider}

theorem emitFields_append {fieldStart : UInt64} {columnCount : UInt32} {tail : List UInt8} :
    ∀ {cell : List UInt8}, provider.delimiterByte ∉ cell → ∀ cursor : ℕ,
    provider.emitFields (UInt64.ofNat cursor) fieldStart columnCount (cell ++ tail) =
      provider.emitFields (UInt64.ofNat (cursor + cell.length)) fieldStart columnCount tail
  | [], _, _ => rfl
  | byte :: cell, h, cursor => by
    have hbyte : byte ≠ provider.delimiterByte := fun heq => h (heq ▸ List.mem_cons_self)
    rw [List.cons_append, emitFields, if_pos hbyte, List.length_cons, Nat.add_comm cell.length 1,
      ← Nat.add_assoc, ← emitFields_append (fun hmem => h (List.mem_cons_of_mem _ hmem)) (cursor + 1),
      UInt64.ofNat_add]
    rfl

theorem emitFields_returns (provider : DelimitedProvider) : ∀ {cells : List (List UInt8)}, cells ≠ [] →
    (∀ cell ∈ cells, provider.delimiterByte ∉ cell) → ∀ (start : ℕ) (columnCount : UInt32),
    start + (provider.rowContent cells).length < 2 ^ 64 →
    (provider.emitFields (UInt64.ofNat start) (UInt64.ofNat start) columnCount
      (provider.rowContent cells)).Returns (provider.fieldEmissions start cells)
        (columnCount + UInt32.ofNat cells.length)
  | [], hne, _, _, _, _ => absurd rfl hne
  | [cell], _, hcells, start, columnCount, hstart => by
    have hcontent : provider.rowContent [cell] = cell ++ [] := by
      rw [rowContent, List.intercalate_singleton, List.append_nil]
    rw [hcontent, List.append_nil] at hstart
    rw [hcontent, emitFields_append (hcells cell List.mem_cons_self), emitFields]
    have hlast : provider.fieldEmissions start [cell] = provider.fieldEmission start cell ++ [] :=
      (List.append_nil _).symm
    rw [hlast]
    exact (emitNonempty_returns hstart _ _).bind (returns_pure _)
  | cell :: next :: cells, _, hcells, start, columnCount, hstart => by
    have hcontent : provider.rowContent (cell :: next :: cells) =
        cell ++ provider.delimiterByte :: provider.rowContent (next :: cells) := by
      rw [rowContent, List.intercalate_cons_cons, rowContent]
      simp
    rw [hcontent, List.length_append, List.length_cons] at hstart
    have hrest := emitFields_returns provider (by simp)
      (fun other hother => hcells other (List.mem_cons_of_mem _ hother)) (start + cell.length + 1)
      (columnCount + 1) (by omega)
    have hcount : columnCount + UInt32.ofNat (cell :: next :: cells).length =
        columnCount + 1 + UInt32.ofNat (next :: cells).length := by
      rw [List.length_cons, Nat.add_comm, UInt32.ofNat_add, ← UInt32.add_assoc]
      rfl
    have hnext : UInt64.ofNat (start + cell.length) + 1 = UInt64.ofNat (start + cell.length + 1) :=
      (UInt64.ofNat_add _ 1).symm
    rw [hcontent, emitFields_append (hcells cell List.mem_cons_self), emitFields, if_neg (by simp),
      hcount, hnext]
    change Announcer.Returns _ (provider.fieldEmission start cell ++ ([_] ++ _)) _
    exact (emitNonempty_returns (by omega) _ _).bind ((returns_say _).bind hrest)

/-- The number of fields of a record is the one that is expected, counted in 32 bits. -/
def Counted (provider : DelimitedProvider) (content : List UInt8) : Prop :=
  UInt32.ofNat (content.splitOn provider.delimiterByte).length = provider.expectedColumnCount

theorem rowContent_splitOn (content : List UInt8) :
    provider.rowContent (content.splitOn provider.delimiterByte) = content :=
  List.intercalate_splitOn _

theorem emitFields_content {start : ℕ} {content : List UInt8} (h : start + content.length < 2 ^ 64) :
    (provider.emitFields (UInt64.ofNat start) (UInt64.ofNat start) 0 content).Returns
      (provider.fieldEmissions start (content.splitOn provider.delimiterByte))
      (UInt32.ofNat (content.splitOn provider.delimiterByte).length) := by
  have hfields := emitFields_returns provider (List.splitOn_ne_nil _ content)
    (fun cell => not_mem_of_mem_splitOn) start 0 (by rwa [rowContent_splitOn])
  rwa [rowContent_splitOn, UInt32.zero_add] at hfields

theorem reads_records : Reads provider.terminator provider.terminatorKind provider.emitRecord
    provider.emitTerminator provider.Counted provider.recordEmissions where
  returns start row content _ hgood hstart _ := by
    unfold Counted at hgood
    unfold emitRecord recordEmissions
    rw [← UInt64.ofNat_add, ← List.append_nil (provider.fieldEmissions _ _)]
    refine (emitNonempty_returns hstart _ _).bind ((emitFields_content hstart).bind ?_)
    rw [require_pos hgood]
    exact returns_pure _
  fails start row content _ hgood hstart _ := by
    unfold Counted at hgood
    unfold emitRecord
    rw [← UInt64.ofNat_add]
    refine (emitNonempty_returns hstart _ _).bind_fails ((emitFields_content hstart).bind_fails ?_)
    rw [require_neg hgood]
    exact fails_stop _
  terminator start stop _ _ := returns_say _

/-! ## Records and tables -/

theorem delimiterByte_ne : provider.delimiterByte ≠ lineFeed ∧
    provider.delimiterByte ≠ carriageReturn := by
  have hle := UInt32.le_iff_toNat_le.1 provider.accepted.delimiter_le
  have hfeed := provider.accepted.delimiter_lineFeed
  have hreturn := provider.accepted.delimiter_carriageReturn
  change provider.delimiter.toNat ≤ 127 at hle
  have hbyte : provider.delimiterByte.toNat = provider.delimiter.toNat := by
    rw [delimiterByte, UInt32.toNat_toUInt8]
    omega
  refine ⟨fun heq => hfeed ?_, fun heq => hreturn ?_⟩ <;>
    exact UInt32.toNat_inj.1 (hbyte.symm.trans (by rw [heq]; rfl))

theorem rowContent_cons_cons (cell next : List UInt8) (cells : List (List UInt8)) :
    provider.rowContent (cell :: next :: cells) =
      cell ++ provider.delimiterByte :: provider.rowContent (next :: cells) := by
  rw [rowContent, List.intercalate_cons_cons, rowContent]
  simp

theorem mem_rowContent : ∀ {row : List (List UInt8)} {byte : UInt8}, byte ∈ provider.rowContent row →
    byte = provider.delimiterByte ∨ ∃ cell ∈ row, byte ∈ cell
  | [], byte, h => by cases h
  | [cell], byte, h => by
    rw [rowContent, List.intercalate_singleton] at h
    exact .inr ⟨cell, List.mem_cons_self, h⟩
  | cell :: next :: cells, byte, h => by
    rw [rowContent_cons_cons] at h
    rcases List.mem_append.1 h with h | h
    · exact .inr ⟨cell, List.mem_cons_self, h⟩
    rcases List.mem_cons.1 h with h | h
    · exact .inl h
    · exact (mem_rowContent h).imp_right fun ⟨other, hother, hbyte⟩ =>
        ⟨other, List.mem_cons_of_mem _ hother, hbyte⟩

theorem mem_rowContent_of_mem (provider : DelimitedProvider) :
    ∀ {row : List (List UInt8)} {cell : List UInt8} {byte : UInt8}, cell ∈ row → byte ∈ cell →
      byte ∈ provider.rowContent row
  | [cell], other, byte, hcell, hbyte => by
    rw [rowContent, List.intercalate_singleton]
    exact List.mem_singleton.1 hcell ▸ hbyte
  | cell :: next :: cells, other, byte, hcell, hbyte => by
    rw [rowContent_cons_cons]
    rcases List.mem_cons.1 hcell with rfl | hcell
    · exact List.mem_append_left _ hbyte
    · exact List.mem_append_right _ (List.mem_cons_of_mem _ (mem_rowContent_of_mem provider hcell hbyte))

theorem getLast?_rowContent : ∀ {row : List (List UInt8)} {cell : List UInt8},
    row.getLast? = some cell →
    ((provider.rowContent row).getLast? = some carriageReturn ↔ cell.getLast? = some carriageReturn)
  | [first], cell, h => by
    rw [List.getLast?_singleton] at h
    rw [rowContent, List.intercalate_singleton, Option.some.inj h]
  | first :: next :: cells, cell, h => by
    rw [List.getLast?_cons_cons] at h
    rw [rowContent_cons_cons, List.getLast?_append, List.getLast?_cons, Option.some_or,
      ← getLast?_rowContent h]
    cases hlast : (provider.rowContent (next :: cells)).getLast? with
    | none => simp [delimiterByte_ne.2]
    | some byte => simp

theorem isTable_splitOn {contents : List (List UInt8)}
    (h : ∀ content ∈ contents, LineOf provider.terminator content) :
    provider.IsTable (contents.map (·.splitOn provider.delimiterByte)) where
  delimiter row hrow cell hcell := by
    obtain ⟨content, -, rfl⟩ := List.mem_map.1 hrow
    exact not_mem_of_mem_splitOn hcell
  lineFeed row hrow cell hcell hbyte := by
    obtain ⟨content, hcontent, rfl⟩ := List.mem_map.1 hrow
    have hmem := mem_rowContent_of_mem provider hcell hbyte
    rw [rowContent_splitOn] at hmem
    exact (h content hcontent).lineFeed hmem
  carriageReturn hcrlf row hrow cell hcell hlast := by
    obtain ⟨content, hcontent, rfl⟩ := List.mem_map.1 hrow
    rw [← getLast?_rowContent hcell, rowContent_splitOn] at hlast
    exact (h content hcontent).carriageReturn hcrlf hlast

theorem lineOf_rowContent {table : List (List (List UInt8))} (h : provider.IsTable table)
    {row : List (List UInt8)} (hrow : row ∈ table) (hne : row ≠ []) :
    LineOf provider.terminator (provider.rowContent row) where
  lineFeed hmem := by
    rcases mem_rowContent hmem with heq | ⟨cell, hcell, hbyte⟩
    · exact delimiterByte_ne.1 heq.symm
    · exact h.lineFeed row hrow cell hcell hbyte
  carriageReturn hcrlf hlast := by
    have hcell := List.getLast?_eq_some_getLast hne
    exact h.carriageReturn hcrlf row hrow _ hcell ((getLast?_rowContent hcell).1 hlast)

theorem splitOn_rowContent {table : List (List (List UInt8))} (h : provider.IsTable table)
    {row : List (List UInt8)} (hrow : row ∈ table) (hne : row ≠ []) :
    (provider.rowContent row).splitOn provider.delimiterByte = row :=
  List.splitOn_intercalate _ (h.delimiter row hrow) hne

theorem exists_contents_iff {bytes : List UInt8} :
    (∃ contents, (∀ content ∈ contents, LineOf provider.terminator content ∧ provider.Counted content) ∧
      bytes = renderLines provider.terminator contents) ↔
    ∃ table, provider.IsTable table ∧ (∀ row ∈ table, row ≠ [] ∧
      UInt32.ofNat row.length = provider.expectedColumnCount) ∧ bytes = provider.render table := by
  constructor
  · rintro ⟨contents, hcontents, rfl⟩
    refine ⟨contents.map (·.splitOn provider.delimiterByte),
      isTable_splitOn fun content hcontent => (hcontents content hcontent).1, fun row hrow => ?_, ?_⟩
    · obtain ⟨content, hcontent, rfl⟩ := List.mem_map.1 hrow
      exact ⟨List.splitOn_ne_nil _ _, (hcontents content hcontent).2⟩
    · rw [render, List.map_map]
      have hsame : provider.rowContent ∘ (·.splitOn provider.delimiterByte) = id :=
        funext rowContent_splitOn
      rw [hsame, List.map_id]
  · rintro ⟨table, htable, hrows, rfl⟩
    refine ⟨table.map provider.rowContent, fun content hcontent => ?_, rfl⟩
    obtain ⟨row, hrow, rfl⟩ := List.mem_map.1 hcontent
    refine ⟨lineOf_rowContent htable hrow (hrows row hrow).1, ?_⟩
    rw [Counted, splitOn_rowContent htable hrow (hrows row hrow).1]
    exact (hrows row hrow).2

end Record

/-! ## Reading a table -/

/-- The table that emissions show: a field is the cell that it covers, a delimiter ends a cell and a
terminator ends a record; a cell without a field is empty. -/
def readTable (bytes : List UInt8) :
    List Emission → List UInt8 → List (List UInt8) → List (List (List UInt8))
  | [], _, _ => []
  | emission :: emissions, cell, row =>
    if emission.kind = provider.fieldKind then
      readTable bytes emissions
        ((bytes.take emission.byteEnd.toNat).drop emission.byteStart.toNat) row
    else if emission.kind = provider.delimiterKind then readTable bytes emissions [] (row ++ [cell])
    else if emission.kind = provider.terminatorKind then
      (row ++ [cell]) :: readTable bytes emissions [] []
    else readTable bytes emissions cell row

section Reading

variable {provider}

theorem delimiterKind_ne : provider.delimiterKind ≠ provider.fieldKind :=
  kindBase_or_ne provider.accepted.kindBase_low

theorem terminatorKind_ne : provider.terminatorKind ≠ provider.fieldKind ∧
    provider.terminatorKind ≠ provider.delimiterKind :=
  ⟨kindBase_or_ne provider.accepted.kindBase_low, kindBase_or_ne provider.accepted.kindBase_low⟩

theorem rowKind_ne (provider : DelimitedProvider) (rowOrdinal : UInt64) :
    provider.rowKind rowOrdinal ≠ provider.fieldKind ∧
    provider.rowKind rowOrdinal ≠ provider.delimiterKind ∧
    provider.rowKind rowOrdinal ≠ provider.terminatorKind := by
  unfold rowKind
  have hbase := provider.accepted.kindBase_low
  split <;> exact ⟨kindBase_or_ne hbase, kindBase_or_ne hbase, kindBase_or_ne hbase⟩

theorem readTable_field {bytes cell : List UInt8} {start : ℕ} {emissions : List Emission}
    {row : List (List UInt8)} (hbytes : Holds bytes start cell) (hstop : start + cell.length < 2 ^ 64) :
    provider.readTable bytes (provider.fieldEmission start cell ++ emissions) [] row =
      provider.readTable bytes emissions cell row := by
  unfold fieldEmission bytesEmission
  split
  · rename_i hempty
    rw [hempty]
    rfl
  · rw [List.singleton_append, readTable, if_pos (by rfl), hbytes.covered hstop]

theorem readTable_fields {bytes : List UInt8} :
    ∀ {cells : List (List UInt8)} {cell : List UInt8}, cells.getLast? = some cell →
    ∀ {start : ℕ} (row : List (List UInt8)) (emissions : List Emission),
    Holds bytes start (provider.rowContent cells) →
    start + (provider.rowContent cells).length < 2 ^ 64 →
    provider.readTable bytes (provider.fieldEmissions start cells ++ emissions) [] row =
      provider.readTable bytes emissions cell (row ++ cells.dropLast)
  | [first], cell, hlast, start, row, emissions, hbytes, hstop => by
    rw [List.getLast?_singleton] at hlast
    cases hlast
    rw [rowContent, List.intercalate_singleton] at hbytes hstop
    rw [fieldEmissions, readTable_field hbytes hstop, List.dropLast_singleton, List.append_nil]
  | first :: next :: cells, cell, hlast, start, row, emissions, hbytes, hstop => by
    rw [List.getLast?_cons_cons] at hlast
    rw [rowContent_cons_cons] at hbytes hstop
    rw [List.length_append, List.length_cons] at hstop
    obtain ⟨hfirst, hrest⟩ := hbytes.append
    have hcells := readTable_fields hlast (row ++ [first]) emissions hrest.cons (by omega)
    rw [fieldEmissions, List.append_assoc, List.cons_append, readTable_field hfirst (by omega), readTable,
      emission_kind, if_neg delimiterKind_ne, if_pos rfl, List.dropLast_cons_cons, hcells,
      List.append_assoc, List.singleton_append]

theorem readTable_record {bytes content : List UInt8} {start : ℕ} {rowOrdinal : UInt64} {flags : UInt32}
    (emissions : List Emission) (cell : List UInt8) (row : List (List UInt8)) :
    provider.readTable bytes (bytesEmission start content (provider.rowKind rowOrdinal) flags ++ emissions)
      cell row = provider.readTable bytes emissions cell row := by
  obtain ⟨hfield, hdelimiter, hterminator⟩ := rowKind_ne provider rowOrdinal
  unfold bytesEmission
  split
  · rfl
  · rw [List.singleton_append, readTable, emission_kind, if_neg hfield, if_neg hdelimiter,
      if_neg hterminator]

theorem readTable_table {bytes : List UInt8} : ∀ {table : List (List (List UInt8))},
    (∀ row ∈ table, row ≠ []) →
    (∀ row ∈ table, (provider.rowContent row).splitOn provider.delimiterByte = row) →
    ∀ start row, Holds bytes start (provider.render table) →
    start + (provider.render table).length < 2 ^ 64 →
    provider.readTable bytes (linesEmissions provider.terminator provider.terminatorKind
      provider.recordEmissions start row (table.map provider.rowContent)) [] [] = table
  | [], _, _, _, _, _, _ => rfl
  | cells :: table, hne, hsplit, start, row, hbytes, hstop => by
    have hrender : provider.render (cells :: table) = provider.rowContent cells ++
        (terminatorBytes provider.terminator ++ provider.render table) := by
      rw [render, List.map_cons, renderLines, List.flatMap_cons, List.append_assoc]
      rfl
    rw [hrender] at hbytes hstop
    rw [List.length_append, List.length_append] at hstop
    obtain ⟨hcells, hrest⟩ := hbytes.append
    have hlast := List.getLast?_eq_some_getLast (hne cells List.mem_cons_self)
    have htable := readTable_table (fun other hother => hne other (List.mem_cons_of_mem _ hother))
      (fun other hother => hsplit other (List.mem_cons_of_mem _ hother)) _ (row + 1) hrest.append.2
      (by omega)
    rw [List.map_cons, linesEmissions, recordEmissions, hsplit cells List.mem_cons_self,
      List.append_assoc, readTable_record, readTable_fields hlast [] _ hcells (by omega), readTable,
      emission_kind, if_neg terminatorKind_ne.1, if_neg terminatorKind_ne.2, if_pos (by rfl), htable,
      List.nil_append, List.dropLast_append_getLast]

/-! ## Tilings -/

/-- Fields, delimiters and terminators: what no other span of the provider is made of. -/
def isLeaf (provider : DelimitedProvider) (emission : Emission) : Bool :=
  emission.kind ≠ provider.recordKind ∧ emission.kind ≠ provider.headerRecordKind

/-- Records and terminators. -/
def isLine (provider : DelimitedProvider) (emission : Emission) : Bool :=
  emission.kind ≠ provider.fieldKind ∧ emission.kind ≠ provider.delimiterKind

theorem fieldEmissions_tiles (provider : DelimitedProvider) :
    ∀ (cells : List (List UInt8)) (start : ℕ), start + (provider.rowContent cells).length < 2 ^ 64 →
    Tiles ((provider.fieldEmissions start cells).map Emission.range) start
      (start + (provider.rowContent cells).length)
  | [], _, _ => rfl
  | [cell], start, h => by
    rw [rowContent, List.intercalate_singleton] at h ⊢
    exact bytesEmission_tiles h _ _
  | cell :: next :: cells, start, h => by
    rw [rowContent_cons_cons, List.length_append, List.length_cons] at h ⊢
    have hrest := fieldEmissions_tiles provider (next :: cells) (start + cell.length + 1) (by omega)
    have hstop : start + cell.length + 1 + (provider.rowContent (next :: cells)).length =
        start + (cell.length + ((provider.rowContent (next :: cells)).length + 1)) := by omega
    rw [hstop] at hrest
    rw [fieldEmissions, List.map_append]
    refine (bytesEmission_tiles (by omega) _ _).append ?_
    rw [List.map_cons, emission_range (by omega) (by omega)]
    exact ⟨rfl, by omega, hrest⟩

theorem mem_fieldEmissions : ∀ {cells : List (List UInt8)} {start : ℕ} {emission : Emission},
    emission ∈ provider.fieldEmissions start cells →
    emission.kind = provider.fieldKind ∨ emission.kind = provider.delimiterKind
  | [cell], _, _, h => .inl (mem_bytesEmission h)
  | cell :: next :: cells, _, _, h => by
    rw [fieldEmissions] at h
    rcases List.mem_append.1 h with h | h
    · exact .inl (mem_bytesEmission h)
    rcases List.mem_cons.1 h with rfl | h
    · exact .inr rfl
    · exact mem_fieldEmissions h

theorem kind_ne_record {kind : UInt64} (h : kind = provider.fieldKind ∨ kind = provider.delimiterKind ∨
    kind = provider.terminatorKind) : kind ≠ provider.recordKind ∧ kind ≠ provider.headerRecordKind := by
  have hbase := provider.accepted.kindBase_low
  rcases h with rfl | rfl | rfl <;> exact ⟨kindBase_or_ne hbase, kindBase_or_ne hbase⟩

theorem isLeaf_recordEmissions (start row : ℕ) (content : List UInt8) :
    (provider.recordEmissions start row content).filter provider.isLeaf =
      provider.fieldEmissions start (content.splitOn provider.delimiterByte) := by
  rw [recordEmissions, List.filter_append]
  have hrow : (bytesEmission start content (provider.rowKind (UInt64.ofNat row)) textFlag).filter
      provider.isLeaf = [] := by
    refine List.filter_eq_nil_iff.2 fun emission hmem => ?_
    rw [isLeaf, mem_bytesEmission hmem, rowKind]
    split <;> simp
  rw [hrow, List.nil_append]
  refine List.filter_eq_self.2 fun emission hmem => ?_
  have hkind := mem_fieldEmissions hmem
  exact decide_eq_true (kind_ne_record (hkind.imp_right .inl))

theorem isLine_recordEmissions (start row : ℕ) (content : List UInt8) :
    (provider.recordEmissions start row content).filter provider.isLine =
      bytesEmission start content (provider.rowKind (UInt64.ofNat row)) textFlag := by
  rw [recordEmissions, List.filter_append]
  have hfields : (provider.fieldEmissions start (content.splitOn provider.delimiterByte)).filter
      provider.isLine = [] := by
    refine List.filter_eq_nil_iff.2 fun emission hmem => ?_
    rcases mem_fieldEmissions hmem with hkind | hkind <;> rw [isLine, hkind] <;> simp
  rw [hfields, List.append_nil]
  refine List.filter_eq_self.2 fun emission hmem => ?_
  obtain ⟨hfield, hdelimiter, -⟩ := rowKind_ne provider (UInt64.ofNat row)
  rw [← mem_bytesEmission hmem] at hfield hdelimiter
  exact decide_eq_true ⟨hfield, hdelimiter⟩

theorem tiles_lines (contents : List (List UInt8)) (start row : ℕ)
    (hstart : start + (renderLines provider.terminator contents).length < 2 ^ 64) :
    Tiles (((linesEmissions provider.terminator provider.terminatorKind provider.recordEmissions start row
      contents).filter provider.isLine).map Emission.range) start
        (start + (renderLines provider.terminator contents).length) ∧
    Tiles (((linesEmissions provider.terminator provider.terminatorKind provider.recordEmissions start row
      contents).filter provider.isLeaf).map Emission.range) start
        (start + (renderLines provider.terminator contents).length) := by
  constructor
  · refine linesEmissions_tiles _ (fun emission hkind => ?_) contents start row
      (fun content _ start row h => ?_) hstart
    · rw [isLine, hkind]
      exact decide_eq_true terminatorKind_ne
    · rw [isLine_recordEmissions]
      exact bytesEmission_tiles h _ _
  · refine linesEmissions_tiles _ (fun emission hkind => ?_) contents start row
      (fun content _ start row h => ?_) hstart
    · exact decide_eq_true (kind_ne_record (.inr (.inr hkind)))
    · rw [isLeaf_recordEmissions]
      have htiles := fieldEmissions_tiles provider (content.splitOn provider.delimiterByte) start
        (by rwa [rowContent_splitOn])
      rwa [rowContent_splitOn] at htiles

/-! ## The grammar -/

/-- No line has so many fields that counting them in 32 bits wraps around. -/
def FewFields (provider : DelimitedProvider) (bytes : List UInt8) : Prop :=
  ∀ line ∈ bytes.splitOn lineFeed, line.count provider.delimiterByte + 1 < 2 ^ 32

theorem length_splitOn {separator : UInt8} : ∀ bytes : List UInt8,
    (bytes.splitOn separator).length = bytes.count separator + 1
  | [] => by rw [List.splitOn_nil]; rfl
  | byte :: bytes => by
    rw [List.splitOn_cons_eq_if_modifyHead, List.count_cons]
    split
    · rw [List.length_cons, length_splitOn]
    · rw [List.length_modifyHead, length_splitOn, Nat.add_zero]

theorem FewFields.row {bytes : List UInt8} (h : provider.FewFields bytes)
    {table : List (List (List UInt8))} (htable : provider.IsTable table)
    (hne : ∀ row ∈ table, row ≠ []) (hbytes : bytes = provider.render table)
    {row : List (List UInt8)} (hrow : row ∈ table) : row.length < 2 ^ 32 := by
  have hlines : (provider.render table).splitOn lineFeed = _ :=
    splitOn_renderLines fun content hcontent => by
      obtain ⟨other, hother, rfl⟩ := List.mem_map.1 hcontent
      exact lineOf_rowContent htable hother (hne other hother)
  have hmem : provider.rowContent row ++ carriage provider.terminator ∈ bytes.splitOn lineFeed := by
    rw [hbytes, hlines]
    exact List.mem_append_left _ (List.mem_map_of_mem (List.mem_map_of_mem hrow))
  have hcount := h _ hmem
  rw [List.count_append] at hcount
  rw [← splitOn_rowContent htable hrow (hne row hrow), length_splitOn]
  omega

/-- Records with the number of fields that is expected. -/
def Regular (provider : DelimitedProvider) (table : List (List (List UInt8))) : Prop :=
  ∀ row ∈ table, row.length = provider.expectedColumnCount.toNat

theorem Regular.row {table : List (List (List UInt8))} (h : provider.Regular table)
    {row : List (List UInt8)} (hrow : row ∈ table) :
    row ≠ [] ∧ UInt32.ofNat row.length = provider.expectedColumnCount := by
  refine ⟨fun hempty => provider.accepted.expectedColumnCount_ne ?_, ?_⟩
  · refine UInt32.toNat_inj.1 ?_
    rw [← h row hrow, hempty]
    rfl
  · rw [h row hrow, UInt32.ofNat_toNat]

theorem regular_iff {bytes : List UInt8} (h : provider.FewFields bytes)
    {table : List (List (List UInt8))} (htable : provider.IsTable table)
    (hbytes : bytes = provider.render table) :
    provider.Regular table ↔
      ∀ row ∈ table, row ≠ [] ∧ UInt32.ofNat row.length = provider.expectedColumnCount := by
  refine ⟨fun hregular row hrow => hregular.row hrow, fun hrows row hrow => ?_⟩
  have hlength := h.row htable (fun other hother => (hrows other hother).1) hbytes hrow
  rw [← (hrows row hrow).2, UInt32.toNat_ofNat_of_lt' hlength]

theorem spoken_table {content : Content} {span : Span} (hstart : span.byteStart < span.byteEnd)
    (hend : span.byteEnd ≤ content.byteCount) {table : List (List (List UInt8))}
    (htable : provider.IsTable table) (hregular : provider.Regular table)
    (hbytes : spanBytes content span = provider.render table) :
    (provider.apply content span).spoken 0 =
      (provider.tableEmissions span.byteStart.toNat table, Status.ok) := by
  refine reads_records.spoken_lines hstart hend (fun content hcontent => ?_) hbytes
  obtain ⟨row, hrow, rfl⟩ := List.mem_map.1 hcontent
  refine ⟨lineOf_rowContent htable hrow (hregular.row hrow).1, ?_⟩
  rw [Counted, splitOn_rowContent htable hrow (hregular.row hrow).1]
  exact (hregular.row hrow).2

theorem spoken_ok_iff {content : Content} {span : Span}
    (hshort : provider.FewFields (spanBytes content span)) :
    ((provider.apply content span).spoken 0).2 = .ok ↔
      span.byteStart < span.byteEnd ∧ span.byteEnd ≤ content.byteCount ∧ ∃ table,
        provider.IsTable table ∧ provider.Regular table ∧
          spanBytes content span = provider.render table := by
  have htables : (∃ table, provider.IsTable table ∧ (∀ row ∈ table, row ≠ [] ∧
      UInt32.ofNat row.length = provider.expectedColumnCount) ∧
        spanBytes content span = provider.render table) ↔
      ∃ table, provider.IsTable table ∧ provider.Regular table ∧
        spanBytes content span = provider.render table := by
    refine exists_congr fun table => and_congr_right fun htable => and_congr_left fun hbytes => ?_
    exact (regular_iff hshort htable hbytes).symm
  rw [apply, reads_records.spoken_ok_iff, exists_contents_iff, htables]

end Reading

/-- A span is accepted when its lines are records of the number of fields that is expected. What is
emitted then tiles it, line by line and field by field, and shows which table it is. -/
theorem delimited_grammar (provider : DelimitedProvider) (content : Content) (span : Span)
    (hshort : provider.FewFields (spanBytes content span)) :
    (((provider.apply content span).spoken 0).2 = .ok ↔
      span.byteStart < span.byteEnd ∧ span.byteEnd ≤ content.byteCount ∧ ∃ table,
        provider.IsTable table ∧ provider.Regular table ∧
          spanBytes content span = provider.render table) ∧
    (∀ status, (provider.apply content span).MayReturn status →
      status = .providerFailure ∨ status = ((provider.apply content span).spoken 0).2) ∧
    (((provider.apply content span).spoken 0).2 = .ok →
      Tiles ((((provider.apply content span).spoken 0).1.filter provider.isLine).map Emission.range)
        span.byteStart.toNat span.byteEnd.toNat ∧
      Tiles ((((provider.apply content span).spoken 0).1.filter provider.isLeaf).map Emission.range)
        span.byteStart.toNat span.byteEnd.toNat) ∧
    ∀ table, provider.IsTable table → provider.Regular table →
      spanBytes content span = provider.render table → span.byteStart < span.byteEnd →
      span.byteEnd ≤ content.byteCount → ((provider.apply content span).spoken 0).2 = .ok ∧
        provider.readTable content.bytes ((provider.apply content span).spoken 0).1 [] [] = table := by
  refine ⟨spoken_ok_iff hshort, fun _ => Emitter.status_of_mayReturn, fun hok => ?_,
    fun table htable hregular hbytes hstart hend => ?_⟩
  · obtain ⟨hstart, hend, table, htable, hregular, hbytes⟩ := (spoken_ok_iff hshort).1 hok
    have hlength := length_spanBytes hstart hend
    have hlt := span.byteEnd.toNat_lt
    rw [spoken_table hstart hend htable hregular hbytes, ← hlength, hbytes]
    rw [hbytes] at hlength
    exact tiles_lines (table.map provider.rowContent) _ 0 (by
      change _ + (provider.render table).length < _
      omega)
  · have hlength := length_spanBytes hstart hend
    have hlt := span.byteEnd.toNat_lt
    have hholds := holds_spanBytes hstart hend
    rw [hbytes] at hlength hholds
    rw [spoken_table hstart hend htable hregular hbytes]
    exact ⟨rfl, readTable_table (fun row hrow => (hregular.row hrow).1)
      (fun row hrow => splitOn_rowContent htable hrow (hregular.row hrow).1) _ 0 hholds (by omega)⟩

/-- Two columns between commas, on lines that end at a line feed. -/
def commaPair : DelimitedProvider :=
  ⟨⟨0x2C, terminatorLf, 2, 0, 0x10000, 1⟩, by decide⟩

/-- Two lines, on each an empty cell and one that is not: `,a` and `b,`. -/
def pairText : List UInt8 := [0x2C, 0x61, 0x0A, 0x62, 0x2C, 0x0A]

theorem delimited_grammar_pair :
    ((commaPair.apply ⟨pairText, [], []⟩ (wholeSpan pairText)).spoken 0).2 = .ok ∧
    commaPair.readTable pairText
      ((commaPair.apply ⟨pairText, [], []⟩ (wholeSpan pairText)).spoken 0).1 [] [] =
        [[[], [0x61]], [[0x62], []]] :=
  (delimited_grammar commaPair ⟨pairText, [], []⟩ (wholeSpan pairText)
    (fun line hline => by revert line; decide)).2.2.2 [[[], [0x61]], [[0x62], []]]
      ⟨by decide, by decide, by decide⟩ (by unfold Regular; decide) (by decide) (by decide) (by decide)

/-- One column, on lines that end at a line feed. -/
def singleColumn : DelimitedProvider :=
  ⟨⟨0x2C, terminatorLf, 1, 0, 0x10000, 1⟩, by decide⟩

/-- A cell that ends with a carriage return has neither a delimiter nor a terminator, and its rendering
is refused; so is an empty text, which is the rendering of no records. -/
theorem delimited_grammar_refuses :
    singleColumn.delimiterByte ∉ [0x61, 0x0D] ∧ lineFeed ∉ [0x61, 0x0D] ∧
    singleColumn.render [[[0x61, 0x0D]]] = [0x61, 0x0D, 0x0A] ∧
    ((singleColumn.apply ⟨[0x61, 0x0D, 0x0A], [], []⟩ (wholeSpan [0x61, 0x0D, 0x0A])).spoken 0).2 =
      .providerFailure ∧
    singleColumn.render [] = [] ∧
    ((singleColumn.apply ⟨[], [], []⟩ (wholeSpan [])).spoken 0).2 = .invalidArgument := by
  decide +kernel

end DelimitedProvider

end Laplace.Decomposition
