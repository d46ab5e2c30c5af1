import Laplace.Target.Codec

/-!
# Tensors of a target package (target_safetensors.inc)

The artifact is the length of a header, the header, and the values of the slots. The header lists two
tensors for every slot, with the bytes at which each begins and ends; the validator builds the header
of its package again and compares.
-/

namespace Laplace.Target

open Packets Reader Routine

/-- `laplace_target_safetensors_status`, where memory is granted. -/
inductive SafetensorsStatus
  | invalidArgument | invalidPackage | capacityInsufficient | overflow | corrupt
deriving DecidableEq, Repr

/-- `laplace_target_safetensors_receipt`; the other fields are the constants of one that is ok. -/
structure SafetensorsReceipt where
  artifactId : Digest256
  targetPackageId : Digest256
  compileReceiptId : Digest256
  requestFingerprint : Digest256
  byteCount : UInt64
  headerByteCount : UInt64
  dataByteCount : UInt64
  tensorCount : UInt64
  slotCount : UInt64
deriving DecidableEq

/-- What the header says of a tensor. -/
structure Tensor where
  name : List Char
  shape : List UInt64
  first : UInt64
  last : UInt64

/-! ## The header -/

/-- `TargetSafeTensorRoleName` -/
def targetSafeTensorRoleName (role : UInt32) : Option (List Char) :=
  match role.toNat with
  | 1 => some "qk".toList
  | 2 => some "vo".toList
  | 3 => some "ffn".toList
  | 4 => some "routing".toList
  | 5 => some "position".toList
  | 6 => some "embedding".toList
  | 7 => some "output".toList
  | _ => none

/-- `TargetSafeTensorHex` -/
def targetSafeTensorHex (digest : Digest256) : List Char :=
  digest.bytes.flatMap fun byte =>
    [Nat.digitChar (byte.toNat >>> 4), Nat.digitChar (byte.toNat &&& 0x0f)]

/-- `std::to_string` -/
def toText (number : ℕ) : List Char := Nat.toDigits 10 number

/-- `TargetSafeTensorMetadata` -/
def targetSafeTensorMetadata (header key value : List Char) (first : Bool) : List Char :=
  header ++ (if first then [] else [',']) ++ ['"'] ++ key ++ "\":\"".toList ++ value ++ ['"']

/-- `TargetSafeTensorName` -/
def targetSafeTensorName (slot : SlotReceipt) (suffix : List Char) : List Char :=
  match targetSafeTensorRoleName slot.targetRole with
  | none => []
  | some role => "laplace.".toList ++ role ++ ".layer_".toList ++ toText slot.layerIndex.toNat ++
      ".head_".toList ++ toText slot.headIndex.toNat ++ ".expert_".toList ++
      toText slot.expertIndex.toNat ++ ['.'] ++ suffix

/-- The text for a tensor. -/
def Tensor.text (tensor : Tensor) : List Char :=
  ",\"".toList ++ tensor.name ++ "\":\x7b\"dtype\":\"F64\",\"shape\":[".toList ++
    [','].intercalate (tensor.shape.map fun size => toText size.toNat) ++
    "],\"data_offsets\":[".toList ++ toText tensor.first.toNat ++ [','] ++
    toText tensor.last.toNat ++ "]\x7d".toList

/-- The keys and values of the metadata. -/
def metadataOf (package : Package) : List (List Char × List Char) :=
  let compiled := package.compileReceipt
  [("laplace_schema".toList, "laplace.target-neutral-safetensors/v1".toList),
    ("laplace_package_id".toList, targetSafeTensorHex package.receipt.packageId),
    ("laplace_compile_receipt_id".toList, targetSafeTensorHex compiled.receiptId),
    ("laplace_request_fingerprint".toList, targetSafeTensorHex compiled.requestFingerprint),
    ("laplace_evidence_boundary".toList, targetSafeTensorHex compiled.evidenceBoundary),
    ("laplace_evidence_epoch".toList, targetSafeTensorHex compiled.evidenceEpoch),
    ("laplace_recipe_fingerprint".toList, targetSafeTensorHex compiled.recipeFingerprint),
    ("laplace_target_contract_fingerprint".toList,
      targetSafeTensorHex compiled.targetContractFingerprint),
    ("laplace_slot_count".toList, toText package.compiled.slots.length)] ++
  package.compiled.slots.zipIdx.flatMap fun (slot, index) =>
    let pre := "laplace_slot_".toList ++ toText index
    [(pre ++ "_id".toList, targetSafeTensorHex slot.slotId),
      (pre ++ "_operator_id".toList, targetSafeTensorHex slot.operatorId),
      (pre ++ "_matrix_fingerprint".toList, targetSafeTensorHex slot.matrixFingerprint),
      (pre ++ "_role".toList, toText slot.targetRole.toNat),
      (pre ++ "_layer".toList, toText slot.layerIndex.toNat),
      (pre ++ "_head".toList, toText slot.headIndex.toNat),
      (pre ++ "_expert".toList, toText slot.expertIndex.toNat)]

/-- The loop that adds up the values of the slots. -/
def sumValues : List Row → ℕ → Option ℕ
  | [], values => some values
  | (slot, matrix, rhs) :: rows, values =>
    if targetSafeTensorRoleName slot.targetRole = none ∨
        matrix.length ≠ slot.matrixValueCount.toNat ∨ rhs.length ≠ slot.rhsValueCount.toNat then none
    else do
      let values ← targetPackageAdd values matrix.length
      let values ← targetPackageAdd values rhs.length
      sumValues rows values

/-- The loop that appends the tensors of the slots. -/
def tensorsOf : List SlotReceipt → UInt64 → Except SafetensorsStatus (List Tensor)
  | [], _ => .ok []
  | slot :: slots, dataOffset =>
    let matrixName := targetSafeTensorName slot "matrix".toList
    let rhsName := targetSafeTensorName slot "rhs".toList
    let matrixBytes := slot.matrixValueCount * 8
    let rhsBytes := slot.rhsValueCount * 8
    let matrixEnd := dataOffset + matrixBytes
    let rhsEnd := matrixEnd + rhsBytes
    if matrixName = [] ∨ rhsName = [] then .error .invalidPackage
    else if matrixBytes > UInt64.ofNat sizeMax - dataOffset ∨
        rhsBytes > UInt64.ofNat sizeMax - matrixEnd then .error .overflow
    else (tensorsOf slots rhsEnd).map fun tensors =>
      ⟨matrixName, [slot.fieldCount, slot.fieldCount], dataOffset, matrixEnd⟩ ::
        ⟨rhsName, [slot.fieldCount], matrixEnd, rhsEnd⟩ :: tensors

/-- The metadata, the tensors, and blanks. -/
def headerText (package : Package) (tensors : List Tensor) : List Char :=
  let metadata := (metadataOf package).zipIdx.foldl (fun header entry =>
    targetSafeTensorMetadata header entry.1.1 entry.1.2 (entry.2 = 0)) "\x7b\"__metadata__\":\x7b".toList
  let text := metadata ++ ['\x7d'] ++ tensors.flatMap Tensor.text ++ ['\x7d']
  text ++ List.replicate ((8 - text.length % 8) % 8) ' '

/-- The bytes of a text in ASCII. -/
def toBytes (text : List Char) : List UInt8 := text.map fun c => UInt8.ofNat c.toNat

/-- `BuildSafeTensorsHeader`: the header, the number of data bytes and the number of tensors. -/
def buildSafeTensorsHeader (package : Package) :
    Except SafetensorsStatus (List UInt8 × ℕ × UInt64) :=
  let slots := package.compiled.slots
  if slots = [] then .error .invalidPackage
  else match sumValues package.compiled.rows 0 with
  | none => .error .invalidPackage
  | some values =>
    match targetPackageMultiply values 8 with
    | none => .error .overflow
    | some dataBytes =>
      if slots.length > sizeMax / 2 then .error .overflow
      else (tensorsOf slots 0).map fun tensors =>
        (toBytes (headerText package tensors), dataBytes,
          UInt64.ofNat slots.length * 2)

/-! ## The artifact -/

section Artifact

variable (blake3 : Blake3) (memory : Routine.Memory)

/-- `TargetSafeTensorsDigest` -/
def targetSafeTensorsDigest (artifact : List UInt8) : Digest256 :=
  blake3 (domainBytes "laplace-target-safetensors-v1" ++ artifact)

/-- `FillSafeTensorsReceipt` -/
def fillSafeTensorsReceipt (package : Package) (artifact : List UInt8)
    (headerBytes dataBytes : ℕ) (tensorCount : UInt64) : SafetensorsReceipt where
  artifactId := targetSafeTensorsDigest blake3 artifact
  targetPackageId := package.receipt.packageId
  compileReceiptId := package.compileReceipt.receiptId
  requestFingerprint := package.compileReceipt.requestFingerprint
  byteCount := UInt64.ofNat artifact.length
  headerByteCount := UInt64.ofNat headerBytes
  dataByteCount := UInt64.ofNat dataBytes
  tensorCount := tensorCount
  slotCount := UInt64.ofNat package.compiled.slots.length

/-- What both calls do first: the package, its header, the data bytes, the number of tensors and the
size of the artifact. -/
def projectPackage (packageBytes : List UInt8) :
    Except SafetensorsStatus (Package × List UInt8 × ℕ × UInt64 × ℕ) :=
  if packageBytes = [] then .error .invalidArgument
  else match (decode blake3 packageBytes).ends memory packageBytes with
  | .returned package =>
    match buildSafeTensorsHeader package with
    | .error status => .error status
    | .ok (header, dataBytes, tensorCount) =>
      match (targetPackageAdd 8 header.length).bind (targetPackageAdd · dataBytes) with
      | none => .error .overflow
      | some total => .ok (package, header, dataBytes, tensorCount, total)
  | _ => .error .invalidPackage

/-- The values of the slots, in the order they are written. -/
def packageValues (package : Package) : List UInt64 :=
  package.compiled.rows.flatMap fun row => row.2.1 ++ row.2.2

/-- `laplace_target_safetensors_encode`: the bytes that are written, and the receipt. -/
def safetensorsEncode (packageBytes : List UInt8) (outputCapacity : ℕ) :
    Except SafetensorsStatus (List UInt8 × SafetensorsReceipt) :=
  match projectPackage blake3 memory packageBytes with
  | .error status => .error status
  | .ok (package, header, dataBytes, tensorCount, total) =>
    if outputCapacity < total then .error .capacityInsufficient
    else match writeAll outputCapacity (u64Bytes (UInt64.ofNat header.length) :: header ::
        (packageValues package).map u64Bytes) [] with
    | none => .error .capacityInsufficient
    | some output =>
      if output.length ≠ total then .error .corrupt
      else .ok (output,
        fillSafeTensorsReceipt blake3 package output header.length dataBytes tensorCount)

/-- The values that are read are the expected ones. -/
def checkValues : List UInt64 → Reader Unit
  | [] => return
  | expected :: values => do
    let observed ← (u64 ()).reader
    guard (observed = expected)
    checkValues values

/-- The comparisons of the validator. -/
def checkArtifact (header : List UInt8) (values : List UInt64) : Reader Unit := do
  let encodedHeaderSize ← (u64 ()).reader
  guard (encodedHeaderSize = UInt64.ofNat header.length)
  let observedHeader ← (bytes () header.length).reader
  guard (observedHeader = header)
  checkValues values
  let left ← remaining
  guard (left = 0)

/-- `laplace_target_safetensors_validate` -/
def safetensorsValidate (packageBytes artifact : List UInt8) :
    Except SafetensorsStatus SafetensorsReceipt :=
  match projectPackage blake3 memory packageBytes with
  | .error status => .error status
  | .ok (package, header, dataBytes, tensorCount, total) =>
    if artifact.length ≠ total then .error .corrupt
    else match (checkArtifact header (packageValues package)).run artifact with
    | none => .error .corrupt
    | some _ => .ok
        (fillSafeTensorsReceipt blake3 package artifact header.length dataBytes tensorCount)

end Artifact

/-! ## What is read -/

theorem run_checkValues {values : List UInt64} : ∀ {bytes rest : List UInt8},
    (checkValues values).run bytes = some ((), rest) ↔ bytes = values.flatMap u64Bytes ++ rest := by
  induction values with
  | nil =>
    intro bytes rest
    simp [checkValues]
  | cons expected values ih =>
    intro bytes rest
    rw [checkValues, run_bind, Option.bind_eq_some_iff]
    constructor
    · rintro ⟨⟨observed, middle⟩, hread, hrun⟩
      obtain ⟨-, rfl⟩ := reads_u64.canonical _ _ _ hread
      rw [run_guard_then] at hrun
      split_ifs at hrun with heq
      cases heq
      simp [show middle = _ from ih.1 hrun]
    · rintro rfl
      refine ⟨(expected, values.flatMap u64Bytes ++ rest), ?_, ?_⟩
      · simpa using reads_u64.accepts expected (values.flatMap u64Bytes ++ rest) trivial
      · rw [run_guard_then, if_pos rfl]
        exact ih.2 rfl

theorem run_atEnd {bytes : List UInt8} : ((do
    let left ← remaining
    guard (left = 0)) : Reader Unit).run bytes = if bytes = [] then some ((), []) else none := by
  have h := run_guard_then (bytes.length = 0) (fun _ => pure ()) bytes
  rw [bind_pure] at h
  change (guard (bytes.length = 0) : Reader Unit).run bytes = _
  rw [h]
  by_cases hnil : bytes = [] <;> simp [hnil]

theorem run_checkArtifact {header artifact : List UInt8} {values : List UInt64} :
    ((checkArtifact header values).run artifact).isSome ↔
      artifact = u64Bytes (UInt64.ofNat header.length) ++ header ++ values.flatMap u64Bytes := by
  rw [Option.isSome_iff_exists]
  constructor
  · rintro ⟨⟨⟨⟩, rest⟩, h⟩
    rw [checkArtifact, run_bind, Option.bind_eq_some_iff] at h
    obtain ⟨⟨size, middle⟩, hread, h⟩ := h
    obtain ⟨-, rfl⟩ := reads_u64.canonical _ _ _ hread
    rw [run_guard_then] at h
    split_ifs at h with hsize
    rw [run_bind, Option.bind_eq_some_iff] at h
    obtain ⟨⟨observed, last⟩, hread, h⟩ := h
    obtain ⟨-, rfl⟩ := (reads_bytes _).canonical _ _ _ hread
    rw [run_guard_then] at h
    split_ifs at h with hheader
    rw [run_bind, Option.bind_eq_some_iff] at h
    obtain ⟨⟨⟨⟩, left⟩, hvalues, h⟩ := h
    rw [run_atEnd] at h
    split_ifs at h with hleft
    obtain rfl : size = UInt64.ofNat header.length := hsize
    obtain rfl : observed = header := hheader
    cases hleft
    simp [show last = _ from run_checkValues.1 hvalues]
  · rintro rfl
    refine ⟨((), []), ?_⟩
    rw [checkArtifact, run_bind, List.append_assoc, reads_u64.accepts _ _ trivial, Option.bind_some,
      run_guard_then, if_pos rfl, run_bind, (reads_bytes _).accepts _ _ rfl, Option.bind_some,
      run_guard_then, if_pos rfl, run_bind, run_checkValues.2 (List.append_nil _).symm, Option.bind_some,
      run_atEnd, if_pos rfl]

/-! ## The names -/

theorem not_mem_toText {c : Char} (h : c.isDigit = false) (number : ℕ) : c ∉ toText number :=
  fun hmem => by simp [Nat.isDigit_of_mem_toDigits (by decide) (by decide) hmem] at h

theorem toText_inj {n n' : ℕ} : toText n = toText n' ↔ n = n' := by
  refine ⟨fun h => ?_, fun h => h ▸ rfl⟩
  have := congrArg (Nat.ofDigitChars 10 · 0) h
  simpa [toText, Nat.ofDigitChars_ten_toDigits] using this

theorem roleName_plain {role : UInt32} {name : List Char}
    (h : targetSafeTensorRoleName role = some name) : '.' ∉ name ∧ '"' ∉ name ∧ '\\' ∉ name := by
  unfold targetSafeTensorRoleName at h
  split at h <;> cases h <;> decide

theorem roleName_inj {role role' : UInt32} {name : List Char}
    (h : targetSafeTensorRoleName role = some name)
    (h' : targetSafeTensorRoleName role' = some name) : role = role' := by
  unfold targetSafeTensorRoleName at h h'
  rw [← UInt32.toNat_inj]
  split at h <;> cases h <;> split at h' <;> first | omega | exact absurd h' (by decide)

theorem append_dot_inj {a b b' : List Char} : ∀ {a' : List Char}, '.' ∉ a → '.' ∉ a' →
    (a ++ '.' :: b = a' ++ '.' :: b' ↔ a = a' ∧ b = b') := by
  induction a with
  | nil =>
    intro a' _ h'
    cases a' <;> simp_all
  | cons c a ih =>
    intro a' h h'
    cases a' with
    | nil => simp_all [eq_comm]
    | cons c' a' => simp_all [and_assoc]

theorem targetSafeTensorName_inj {slot slot' : SlotReceipt} {suffix suffix' : List Char}
    {role role' : List Char} (hrole : targetSafeTensorRoleName slot.targetRole = some role)
    (hrole' : targetSafeTensorRoleName slot'.targetRole = some role')
    (h : targetSafeTensorName slot suffix = targetSafeTensorName slot' suffix') :
    suffix = suffix' ∧ slot.targetRole = slot'.targetRole ∧ slot.layerIndex = slot'.layerIndex ∧
      slot.headIndex = slot'.headIndex ∧ slot.expertIndex = slot'.expertIndex := by
  have hdot := fun n => not_mem_toText (c := '.') (by decide) n
  simp only [targetSafeTensorName, hrole, hrole', List.append_assoc, List.append_cancel_left_eq] at h
  simp only [show ".layer_".toList = '.' :: "layer_".toList by decide,
    show ".head_".toList = '.' :: "head_".toList by decide,
    show ".expert_".toList = '.' :: "expert_".toList by decide, List.cons_append,
    List.append_cancel_left_eq, append_dot_inj (roleName_plain hrole).1 (roleName_plain hrole').1,
    append_dot_inj (hdot _) (hdot _), toText_inj, UInt32.toNat_inj, List.nil_append] at h
  obtain ⟨rfl, hlayer, hhead, hexpert, hsuffix⟩ := h
  exact ⟨hsuffix, roleName_inj hrole hrole', hlayer, hhead, hexpert⟩

/-! ## The slots -/

theorem coordinateLess_trans {a b c : SlotReceipt} (h : CoordinateLess a b)
    (h' : CoordinateLess b c) : CoordinateLess a c := by
  simp only [CoordinateLess, UInt32.lt_iff_toNat_lt, ← UInt32.toNat_inj] at h h' ⊢
  omega

/-- The values of a slot are those of a square matrix and of a vector. -/
structure Shaped (row : Row) : Prop where
  square : row.1.matrixValueCount.toNat = row.1.fieldCount.toNat * row.1.fieldCount.toNat
  vector : row.1.rhsValueCount.toNat = row.1.fieldCount.toNat

theorem validateRow_shaped {blake3 : Blake3} {prior : Option SlotReceipt}
    {row : Row} {totals : Totals} {bytes : List UInt8} {result : Totals × List UInt8}
    (h : (validateRow blake3 prior row totals).reader.run bytes = some result) :
    Shaped row ∧ ∀ earlier ∈ prior, CoordinateLess earlier row.1 := by
  unfold validateRow at h
  dsimp only at h
  rw [run_require_then, run_quotient_then, run_require_then,
    run_require_then] at h
  obtain ⟨⟨-, -, hfields, -, hrhs⟩, hne, ⟨hlimit, hsquare⟩, hprior, -⟩ := h
  have hpos : 0 < row.1.fieldCount.toNat :=
    Nat.pos_of_ne_zero fun hzero => hne (UInt64.toNat_inj.1 hzero)
  rw [UInt64.le_iff_toNat_le, UInt64.toNat_div, Nat.le_div_iff_mul_le hpos] at hlimit
  refine ⟨⟨?_, by rw [hrhs, hfields]⟩, hprior⟩
  rw [hsquare, UInt64.toNat_mul]
  exact Nat.mod_eq_of_lt (Nat.lt_succ_of_le hlimit)

variable {rows : List Row}

theorem validateRows_shaped {blake3 : Blake3} :
    ∀ {prior : Option SlotReceipt} {totals : Totals} {bytes : List UInt8}
      {result : Totals × List UInt8},
    (validateRows blake3 prior rows totals).reader.run bytes = some result →
      (∀ row ∈ rows, Shaped row ∧ ∀ earlier ∈ prior, CoordinateLess earlier row.1) ∧
        (rows.map Prod.fst).Pairwise CoordinateLess := by
  induction rows with
  | nil => simp
  | cons row rows ih =>
    intro prior totals bytes result h
    obtain ⟨middle, rest, hrow, hrows⟩ := run_bind_eq_some.1 h
    obtain ⟨hshaped, hprior⟩ := validateRow_shaped hrow
    obtain ⟨hall, hpairs⟩ := ih hrows
    constructor
    · intro other hother
      rcases List.mem_cons.1 hother with rfl | hother
      · exact ⟨hshaped, hprior⟩
      · exact ⟨(hall other hother).1, fun earlier he =>
          coordinateLess_trans (hprior earlier he) ((hall other hother).2 row.1 rfl)⟩
    · simp only [List.map_cons, List.pairwise_cons, List.mem_map, forall_exists_index, and_imp,
        forall_apply_eq_imp_iff₂]
      exact ⟨fun other hother => (hall other hother).2 row.1 rfl, hpairs⟩

/-! ## The tensors -/

/-- How many values a slot has. -/
def valueCount (row : Row) : ℕ := row.2.1.length + row.2.2.length

theorem sumValues_ok : ∀ {values total : ℕ}, sumValues rows values = some total →
    total = values + (rows.map valueCount).sum := by
  induction rows with
  | nil =>
    intro values total h
    simpa [sumValues, eq_comm] using h
  | cons row rows ih =>
    intro values total h
    obtain ⟨slot, matrix, rhs⟩ := row
    rw [sumValues] at h
    split_ifs at h
    simp only [Option.bind_eq_bind, Option.bind_eq_some_iff, targetPackageAdd_eq_some] at h
    obtain ⟨_, ⟨rfl, -⟩, _, ⟨rfl, -⟩, h⟩ := h
    simp [ih h, valueCount, Nat.add_assoc]

/-- From the first byte to the last the tensors follow each other, and each takes 8 bytes for every
value of its shape. -/
def Tiles : List Tensor → ℕ → ℕ → Prop
  | [], first, last => first = last
  | tensor :: tensors, first, last => tensor.first.toNat = first ∧
      tensor.last.toNat = first + 8 * (tensor.shape.map UInt64.toNat).prod ∧
      Tiles tensors tensor.last.toNat last

theorem tensorsOf_tiles : ∀ {offset : UInt64} {tensors : List Tensor},
    tensorsOf (rows.map Prod.fst) offset = .ok tensors →
    (∀ row ∈ rows, Shaped row ∧ row.1.matrixValueCount.toNat = row.2.1.length ∧
      row.1.rhsValueCount.toNat = row.2.2.length) →
    offset.toNat + 8 * (rows.map valueCount).sum ≤ sizeMax →
      Tiles tensors offset.toNat (offset.toNat + 8 * (rows.map valueCount).sum) := by
  induction rows with
  | nil =>
    intro offset tensors h _ _
    cases h
    simp [Tiles]
  | cons row rows ih =>
    intro offset tensors h hrows hbound
    obtain ⟨⟨hshaped, hmatrix, hrhs⟩, hrows⟩ := List.forall_mem_cons.1 hrows
    simp only [List.map_cons, List.sum_cons] at h hbound ⊢
    rw [tensorsOf] at h
    split_ifs at h
    cases hrest : tensorsOf (rows.map Prod.fst) (offset + row.1.matrixValueCount * 8 +
        row.1.rhsValueCount * 8) with
    | error status => simp [hrest, Except.map] at h
    | ok rest =>
      simp only [hrest, Except.map, Except.ok.injEq] at h
      subst h
      simp only [valueCount, sizeMax] at hbound ⊢
      have hmatrixEnd : (offset + row.1.matrixValueCount * 8).toNat =
          offset.toNat + 8 * row.2.1.length := by
        simp only [UInt64.toNat_add, UInt64.toNat_mul, hmatrix, UInt64.reduceToNat]
        omega
      have hrhsEnd : (offset + row.1.matrixValueCount * 8 + row.1.rhsValueCount * 8).toNat =
          offset.toNat + 8 * row.2.1.length + 8 * row.2.2.length := by
        rw [UInt64.toNat_add, hmatrixEnd]
        simp only [UInt64.toNat_mul, hrhs, UInt64.reduceToNat]
        omega
      have htiles := ih hrest hrows (by rw [hrhsEnd, sizeMax]; omega)
      rw [hrhsEnd] at htiles
      refine ⟨rfl, ?_, rfl, ?_, ?_⟩
      · simp [hmatrixEnd, ← hmatrix, hshaped.square]
      · rw [hrhsEnd, hmatrixEnd]
        simp [← hrhs, hshaped.vector]
      · rw [hrhsEnd]
        convert htiles using 1
        ring

theorem tensorsOf_names {slots : List SlotReceipt} : ∀ {offset : UInt64} {tensors : List Tensor},
    tensorsOf slots offset = .ok tensors →
    (∀ slot ∈ slots, ∃ role, targetSafeTensorRoleName slot.targetRole = some role) ∧
      tensors.map Tensor.name = slots.flatMap fun slot =>
        [targetSafeTensorName slot "matrix".toList, targetSafeTensorName slot "rhs".toList] := by
  induction slots with
  | nil =>
    intro offset tensors h
    cases h
    simp
  | cons slot slots ih =>
    intro offset tensors h
    rw [tensorsOf] at h
    split_ifs at h with hname
    cases hrest : tensorsOf slots (offset + slot.matrixValueCount * 8 + slot.rhsValueCount * 8) with
    | error status => simp [hrest, Except.map] at h
    | ok rest =>
      simp only [hrest, Except.map, Except.ok.injEq] at h
      subst h
      obtain ⟨hroles, hnames⟩ := ih hrest
      have hrole : ∃ role, targetSafeTensorRoleName slot.targetRole = some role := by
        by_contra hnone
        simp [targetSafeTensorName, Option.eq_none_iff_forall_ne_some.2 (not_exists.1 hnone)] at hname
      exact ⟨List.forall_mem_cons.2 ⟨hrole, hroles⟩, by simp [hnames]⟩

theorem targetSafeTensorName_plain {slot : SlotReceipt} {suffix role : List Char}
    (hrole : targetSafeTensorRoleName slot.targetRole = some role) (hquote : '"' ∉ suffix)
    (hescape : '\\' ∉ suffix) : '"' ∉ targetSafeTensorName slot suffix ∧
      '\\' ∉ targetSafeTensorName slot suffix ∧
      targetSafeTensorName slot suffix ≠ "__metadata__".toList := by
  have hquotes := fun n => not_mem_toText (c := '"') (by decide) n
  have hescapes := fun n => not_mem_toText (c := '\\') (by decide) n
  obtain ⟨-, hname, hname'⟩ := roleName_plain hrole
  simp [targetSafeTensorName, hrole, hquotes, hescapes, hname, hname', hquote, hescape]

theorem names_nodup {slots : List SlotReceipt} (hpairs : slots.Pairwise CoordinateLess)
    (hroles : ∀ slot ∈ slots, ∃ role, targetSafeTensorRoleName slot.targetRole = some role) :
    (slots.flatMap fun slot => [targetSafeTensorName slot "matrix".toList,
      targetSafeTensorName slot "rhs".toList]).Nodup := by
  have hsuffix : "matrix".toList ≠ "rhs".toList := by decide
  rw [List.nodup_flatMap]
  constructor
  · intro slot hslot
    obtain ⟨role, hrole⟩ := hroles slot hslot
    simpa using fun h => hsuffix (targetSafeTensorName_inj hrole hrole h).1
  · refine hpairs.imp_of_mem fun {a b} ha hb hless name hname hname' => ?_
    obtain ⟨role, hrole⟩ := hroles a ha
    obtain ⟨role', hrole'⟩ := hroles b hb
    have hne {suffix suffix' : List Char} :
        targetSafeTensorName a suffix ≠ targetSafeTensorName b suffix' := by
      intro h
      obtain ⟨-, hcoordinate⟩ := targetSafeTensorName_inj hrole hrole' h
      simp [CoordinateLess, hcoordinate] at hless
    simp only [List.mem_cons, List.not_mem_nil, or_false] at hname hname'
    rcases hname with rfl | rfl <;> rcases hname' with h | h <;> exact hne h

/-! ## The artifact -/

section Result

variable {blake3 : Blake3} {memory : Routine.Memory}

/-- The artifact is the length of the header, the header and the data; the header is the text for the
tensors, which have names of their own and tile the data. -/
structure WellFormed (package : Package) (tensors : List Tensor) (header data artifact : List UInt8) :
    Prop where
  layout : artifact = u64Bytes (UInt64.ofNat header.length) ++ header ++ data
  length_lt : header.length < UInt64.size
  aligned : 8 ∣ header.length
  text : header = toBytes (headerText package tensors)
  names : (tensors.map Tensor.name).Nodup
  plain : ∀ tensor ∈ tensors, '"' ∉ tensor.name ∧ '\\' ∉ tensor.name ∧
    tensor.name ≠ "__metadata__".toList
  tiles : Tiles tensors 0 data.length

theorem headerText_aligned (package : Package) (tensors : List Tensor) :
    8 ∣ (toBytes (headerText package tensors)).length := by
  simp only [toBytes, headerText, List.length_map, List.length_append, List.length_replicate]
  omega

theorem wellFormed_of_built {package : Package} {header : List UInt8} {dataBytes : ℕ}
    {tensorCount : UInt64} {rows : List Row}
    (hvalid : ArtifactValid blake3 (CompileResult.ofRows rows) package.compileReceipt)
    (hrows : package.compiled = CompileResult.ofRows rows)
    (h : buildSafeTensorsHeader package = .ok (header, dataBytes, tensorCount))
    (hlength : header.length < UInt64.size) :
    dataBytes = ((packageValues package).flatMap u64Bytes).length ∧
      ∃ tensors, WellFormed package tensors header ((packageValues package).flatMap u64Bytes)
        (u64Bytes (UInt64.ofNat header.length) ++ header ++
          (packageValues package).flatMap u64Bytes) := by
  have hcounts := hvalid.counts
  rw [rows_ofRows] at hcounts
  obtain ⟨-, hvalidate⟩ := run_require_then.1 hvalid
  obtain ⟨totals, rest, hvalidate, -⟩ := run_bind_eq_some.1 hvalidate
  rw [rows_ofRows] at hvalidate
  obtain ⟨hshaped, hpairs⟩ := validateRows_shaped hvalidate
  have hdata : ((packageValues package).flatMap u64Bytes).length =
      8 * (rows.map valueCount).sum := by
    have hvalue : (fun row : Row => (row.2.1 ++ row.2.2).length) = valueCount :=
      funext fun row => List.length_append
    rw [flatMap_u64_length, packageValues, hrows, rows_ofRows, List.length_flatMap, hvalue]
  unfold buildSafeTensorsHeader at h
  dsimp only at h
  rw [if_neg (fun hnil => by simp [hnil] at h), hrows, rows_ofRows] at h
  cases hsum : sumValues rows 0 with
  | none => simp [hsum] at h
  | some values =>
    simp only [hsum] at h
    have hvalues := sumValues_ok hsum
    split at h
    · cases h
    · rename_i found hfound
      obtain ⟨rfl, hbound⟩ := targetPackageMultiply_eq_some.1 hfound
      split_ifs at h
      cases htensors : tensorsOf (rows.map Prod.fst) 0 with
      | error status => simp [CompileResult.ofRows, htensors, Except.map] at h
      | ok tensors =>
        simp only [CompileResult.ofRows, htensors, Except.map, Except.ok.injEq, Prod.mk.injEq] at h
        obtain ⟨rfl, rfl, -⟩ := h
        obtain ⟨hroles, hnames⟩ := tensorsOf_names htensors
        have htiles := tensorsOf_tiles htensors (fun row hrow =>
          ⟨(hshaped row hrow).1, hcounts row hrow⟩) (by rw [UInt64.toNat_zero]; omega)
        refine ⟨by omega, tensors, rfl, hlength, headerText_aligned _ _, rfl,
          hnames ▸ names_nodup hpairs hroles, fun tensor htensor => ?_, ?_⟩
        · have hmem := List.mem_map_of_mem (f := Tensor.name) htensor
          simp only [hnames, List.mem_flatMap, List.mem_cons, List.not_mem_nil, or_false] at hmem
          obtain ⟨slot, hslot, hname⟩ := hmem
          obtain ⟨role, hrole⟩ := hroles slot hslot
          rcases hname with h | h <;> rw [h] <;>
            exact targetSafeTensorName_plain hrole (by decide) (by decide)
        · rw [hdata]
          simpa using htiles

variable {packageBytes : List UInt8}

theorem projectPackage_ok {header : List UInt8} {package : Package} {dataBytes total : ℕ}
    {tensorCount : UInt64}
    (h : projectPackage blake3 memory packageBytes =
      .ok (package, header, dataBytes, tensorCount, total)) :
    (decode blake3 packageBytes).ends memory packageBytes = .returned package ∧
      total = 8 + header.length + dataBytes ∧
      ∃ tensors, WellFormed package tensors header ((packageValues package).flatMap u64Bytes)
        (u64Bytes (UInt64.ofNat header.length) ++ header ++
          (packageValues package).flatMap u64Bytes) := by
  unfold projectPackage at h
  split_ifs at h
  cases hdecode : (decode blake3 packageBytes).ends memory packageBytes with
  | returned found =>
    simp only [hdecode] at h
    cases hbuild : buildSafeTensorsHeader found with
    | error status => simp [hbuild] at h
    | ok built =>
      obtain ⟨header, dataBytes, tensorCount⟩ := built
      simp only [hbuild] at h
      split at h
      · cases h
      · rename_i total htotal
        cases h
        simp only [Option.bind_eq_some_iff, targetPackageAdd_eq_some] at htotal
        obtain ⟨_, ⟨rfl, hheader⟩, rfl, -⟩ := htotal
        obtain ⟨rest, hrun⟩ := reader_of_run _ (Nat.zero_le _) hdecode
        obtain ⟨receipt, rows, -, hvalid, -, -, rfl, -⟩ := run_decode_iff.1 hrun
        obtain ⟨hdata, hwell⟩ := wellFormed_of_built hvalid rfl hbuild (by
          simp only [sizeMax, UInt64.size] at *
          omega)
        exact ⟨rfl, rfl, hwell⟩
  | _ => simp [hdecode] at h

theorem projectPackage_unique {memory' : Routine.Memory}
    {projected projected' : Package × List UInt8 × ℕ × UInt64 × ℕ}
    (h : projectPackage blake3 memory packageBytes = .ok projected)
    (h' : projectPackage blake3 memory' packageBytes = .ok projected') :
    projected' = projected := by
  obtain ⟨package, header, dataBytes, tensorCount, total⟩ := projected
  obtain ⟨package', header', dataBytes', tensorCount', total'⟩ := projected'
  have hdecode := (projectPackage_ok h).1
  have hdecode' := (projectPackage_ok h').1
  obtain ⟨_, hrun⟩ := reader_of_run _ (Nat.zero_le _) hdecode
  obtain ⟨_, hrun'⟩ := reader_of_run _ (Nat.zero_le _) hdecode'
  obtain ⟨rfl, -⟩ := Prod.mk.inj (Option.some.inj (hrun'.symm.trans hrun))
  unfold projectPackage at h h'
  rw [hdecode] at h
  rw [hdecode'] at h'
  exact Except.ok.inj (h'.symm.trans h)

theorem safetensorsValidate_ok {artifact : List UInt8} {receipt : SafetensorsReceipt} :
    safetensorsValidate blake3 memory packageBytes artifact = .ok receipt ↔
      ∃ package header dataBytes tensorCount, projectPackage blake3 memory packageBytes =
        .ok (package, header, dataBytes, tensorCount, artifact.length) ∧
      artifact = u64Bytes (UInt64.ofNat header.length) ++ header ++
        (packageValues package).flatMap u64Bytes ∧
      receipt = fillSafeTensorsReceipt blake3 package artifact header.length dataBytes tensorCount := by
  unfold safetensorsValidate
  cases hproject : projectPackage blake3 memory packageBytes with
  | error status => simp
  | ok projected =>
    obtain ⟨package, header, dataBytes, tensorCount, total⟩ := projected
    have hcheck := @run_checkArtifact header artifact (packageValues package)
    constructor
    · intro h
      dsimp only at h
      split_ifs at h with hlength
      cases hrun : (checkArtifact header (packageValues package)).run artifact with
      | none => simp [hrun] at h
      | some checked =>
        simp only [hrun, Except.ok.injEq] at h
        exact ⟨_, _, _, _, by rw [not_not.1 hlength], hcheck.1 (by simp [hrun]), h.symm⟩
    · rintro ⟨_, _, _, _, heq, hartifact, rfl⟩
      cases heq
      obtain ⟨checked, hrun⟩ := Option.isSome_iff_exists.1 (hcheck.2 hartifact)
      dsimp only
      rw [if_neg (not_not.2 rfl), hrun]

/-- **The artifact of a package is well formed, and the validator accepts it and no other.** -/
theorem safetensorsEncode_wellFormed {packageBytes artifact : List UInt8} {capacity : ℕ}
    {receipt : SafetensorsReceipt}
    (h : safetensorsEncode blake3 memory packageBytes capacity = .ok (artifact, receipt)) :
    (∃ package tensors header data, (decode blake3 packageBytes).ends memory packageBytes =
      .returned package ∧ WellFormed package tensors header data artifact) ∧
    safetensorsValidate blake3 memory packageBytes artifact = .ok receipt ∧
    ∀ memory' artifact' receipt',
      safetensorsValidate blake3 memory' packageBytes artifact' = .ok receipt' →
        artifact' = artifact ∧ receipt' = receipt := by
  unfold safetensorsEncode at h
  cases hproject : projectPackage blake3 memory packageBytes with
  | error status => simp [hproject] at h
  | ok projected =>
    obtain ⟨package, header, dataBytes, tensorCount, total⟩ := projected
    obtain ⟨hdecode, rfl, tensors, hwell⟩ := projectPackage_ok hproject
    simp only [hproject] at h
    split_ifs at h
    split at h
    · cases h
    · rename_i output houtput
      split_ifs at h with hlength
      cases h
      have hartifact : artifact = u64Bytes (UInt64.ofNat header.length) ++ header ++
          (packageValues package).flatMap u64Bytes := by
        simpa [List.flatMap_def] using writeAll_some houtput
      have hlength := not_not.1 hlength
      refine ⟨⟨package, tensors, header, _, hdecode, hartifact ▸ hwell⟩, ?_,
        fun memory' artifact' receipt' h => ?_⟩
      · rw [← hlength] at hproject
        exact safetensorsValidate_ok.2
          ⟨package, header, dataBytes, tensorCount, hproject, hartifact, rfl⟩
      · obtain ⟨package', header', dataBytes', tensorCount', hproject', hartifact', rfl⟩ :=
          safetensorsValidate_ok.1 h
        have hsame := projectPackage_unique hproject hproject'
        simp only [Prod.mk.injEq] at hsame
        obtain ⟨rfl, rfl, rfl, rfl, -⟩ := hsame
        rw [← hartifact] at hartifact'
        exact ⟨hartifact', by rw [hartifact']⟩

theorem twoSlots_encoded : (safetensorsEncode sumHash unlimited
    (packageWritten sumHash (oneFieldReceipt [0, 1] 1) (oneFieldRows [0, 1])) 4096).isOk := by
  decide +kernel

theorem safetensorsEncode_wellFormed_twoSlots : ∃ artifact receipt,
    (∃ package tensors header data, WellFormed package tensors header data artifact) ∧
    safetensorsValidate sumHash unlimited
      (packageWritten sumHash (oneFieldReceipt [0, 1] 1) (oneFieldRows [0, 1])) artifact = .ok receipt := by
  have hencoded := twoSlots_encoded
  cases h : safetensorsEncode sumHash unlimited
      (packageWritten sumHash (oneFieldReceipt [0, 1] 1) (oneFieldRows [0, 1])) 4096 with
  | error status =>
    rw [h] at hencoded
    cases hencoded
  | ok encoded =>
    obtain ⟨⟨package, tensors, header, data, -, hwell⟩, hvalidate, -⟩ :=
      safetensorsEncode_wellFormed h
    exact ⟨_, _, ⟨package, tensors, header, data, hwell⟩, hvalidate⟩

end Result

end Laplace.Target
