import Laplace.Lib.Utf8
import Laplace.Persistence.PhysicalityEntity
import Laplace.Uax29.Segment

/-!
# The UTF-8 decoders (uax29.cpp:248, decomposition_composition.cpp:74, canonical_composition_plan.hpp:25)

Three functions with one loop: a lead byte by its mask, continuation bytes, and then the checks. They
read what `Utf8.readOne` reads, and differ in what they do with an empty string.
-/

namespace Laplace.Unicode

open Utf8

/-! ## The two loops beside that of uax29.cpp -/

/-- The value, the width and the least value that a first byte announces. -/
def leadByte (first : UInt8) : Option (UInt32 × ℕ × UInt32) :=
  if first ≤ 0x7f then some (first.toUInt32, 1, 0)
  else if first &&& 0xe0 = 0xc0 then some ((first &&& 0x1f).toUInt32, 2, 0x80)
  else if first &&& 0xf0 = 0xe0 then some ((first &&& 0x0f).toUInt32, 3, 0x800)
  else if first &&& 0xf8 = 0xf0 then some ((first &&& 0x07).toUInt32, 4, 0x10000)
  else none

/-- What is refused after the continuation bytes. -/
def valueRefused (minimum value : UInt32) : Bool :=
  value < minimum ∨ value > 0x10ffff ∨ (value ≥ 0xd800 ∧ value ≤ 0xdfff)

/-- The loop: whether it comes to the end of the bytes, and `output`. -/
def decodeLoop : ℕ → List UInt8 → List UInt32 → Bool × List UInt32
  | _, [], output => (true, output)
  | 0, _ :: _, output => (false, output)
  | rounds + 1, first :: rest, output =>
    match leadByte first with
    | none => (false, output)
    | some (value, width, minimum) =>
      if width > rest.length + 1 then (false, output)
      else match Uax29.continuations value (rest.take (width - 1)) with
        | none => (false, output)
        | some value =>
          if valueRefused minimum value then (false, output)
          else decodeLoop rounds (rest.drop (width - 1)) (output ++ [value])

/-- `DecodeUtf8` of decomposition_composition.cpp -/
def Decomposition.decodeUtf8 (bytes : List UInt8) (output : List UInt32) : Bool × List UInt32 :=
  decodeLoop bytes.length bytes output

/-- `DecodeUtf8` of canonical_composition_plan.hpp, which wants a code point. -/
def CanonicalPlan.decodeUtf8 (input : List UInt8) (output : List UInt32) : Bool × List UInt32 :=
  let (decoded, output) := decodeLoop input.length input output
  (decoded && !output.isEmpty, output)

/-! ## One round -/

/-- What a round of the two loops takes off the bytes. -/
def readValue (first : UInt8) (rest : List UInt8) : Option (UInt32 × List UInt8) := do
  let (value, width, minimum) ← leadByte first
  if width > rest.length + 1 then none
  else
    let value ← Uax29.continuations value (rest.take (width - 1))
    if valueRefused minimum value then none else some (value, rest.drop (width - 1))

/-- What a round of the loop of uax29.cpp takes off the bytes. -/
def readCodepoint (first : UInt8) (rest : List UInt8) : Option (UInt32 × List UInt8) := do
  let (payload, width) ← Uax29.leadByte first
  if width > rest.length + 1 then none
  else
    let cp ← Uax29.continuations payload (rest.take (width - 1))
    if Uax29.codepointRefused width cp then none else some (cp, rest.drop (width - 1))

theorem forall_byte {P : UInt8 → Prop} (h : ∀ value < 256, P (UInt8.ofNat value)) (byte : UInt8) :
    P byte := by
  have := h byte.toNat byte.toNat_lt
  rwa [UInt8.ofNat_toNat] at this

theorem leadByte_eq : ∀ first, leadByte first = (lead first).map fun (value, count) =>
    (UInt32.ofNat value, count + 1, UInt32.ofNat (minimum count)) :=
  forall_byte (by decide +kernel)

theorem uaxLeadByte_eq : ∀ first, Uax29.leadByte first =
    (lead first).map fun (value, count) => (UInt32.ofNat value, count + 1) :=
  forall_byte (by decide +kernel)

theorem lead_range : ∀ first, ∀ pair ∈ lead first, pair.2 ≤ 3 ∧ (pair.1 + 1) * 64 ^ pair.2 ≤ 2 ^ 21 :=
  forall_byte (by decide +kernel)

theorem continuation_iff : ∀ byte : UInt8, byte &&& 0xc0 = 0x80 ↔ 0x80 ≤ byte.toNat ∧ byte.toNat ≤ 0xbf :=
  forall_byte (by decide +kernel)

theorem continuation_bits : ∀ byte : UInt8, 0x80 ≤ byte.toNat ∧ byte.toNat ≤ 0xbf →
    (byte &&& 0x3f).toUInt32.toNat = byte.toNat - 0x80 :=
  forall_byte (by decide +kernel)

theorem shift_or {value : ℕ} {byte : UInt8} (hvalue : value < 2 ^ 26)
    (hbyte : 0x80 ≤ byte.toNat ∧ byte.toNat ≤ 0xbf) :
    ((UInt32.ofNat value <<< 6) ||| (byte &&& 0x3f).toUInt32) =
      UInt32.ofNat (value * 64 + (byte.toNat - 0x80)) := by
  have hlow : byte.toNat - 0x80 < 2 ^ 6 := by omega
  have hshift : (UInt32.ofNat value <<< 6).toNat = value <<< 6 := by
    rw [UInt32.toNat_shiftLeft, UInt32.toNat_ofNat_of_lt' (by omega : value < 2 ^ 32)]
    change value <<< 6 % 2 ^ 32 = value <<< 6
    rw [Nat.shiftLeft_eq]
    omega
  rw [← UInt32.toNat_inj, UInt32.toNat_or, hshift, continuation_bits byte hbyte,
    ← Nat.shiftLeft_add_eq_or_of_lt hlow, Nat.shiftLeft_eq,
    UInt32.toNat_ofNat_of_lt' (by omega : value * 64 + (byte.toNat - 0x80) < 2 ^ 32)]

theorem continuations_eq : ∀ {count value : ℕ} {rest : List UInt8}, count ≤ rest.length →
    (value + 1) * 64 ^ count ≤ 2 ^ 32 →
    (Uax29.continuations (UInt32.ofNat value) (rest.take count)).map (fun cp =>
      (cp, rest.drop count)) =
      (readTail count value rest).map fun (value, rest) => (UInt32.ofNat value, rest)
  | 0, _, _, _, _ => rfl
  | count + 1, value, byte :: rest, hlength, hfit => by
    rw [Nat.pow_succ'] at hfit
    have hpos : 0 < 64 ^ count := Nat.pow_pos (by decide)
    have hvalue : value < 2 ^ 26 := by nlinarith
    rw [List.take_succ_cons, List.drop_succ_cons, Uax29.continuations, readTail]
    by_cases hbyte : 0x80 ≤ byte.toNat ∧ byte.toNat ≤ 0xbf
    · rw [if_neg (not_not.2 ((continuation_iff byte).2 hbyte)), if_pos hbyte, shift_or hvalue hbyte]
      refine continuations_eq (Nat.le_of_succ_le_succ hlength) ?_
      have : value * 64 + (byte.toNat - 0x80) + 1 ≤ (value + 1) * 64 := by omega
      calc (value * 64 + (byte.toNat - 0x80) + 1) * 64 ^ count
          ≤ (value + 1) * 64 * 64 ^ count := Nat.mul_le_mul_right _ this
        _ = (value + 1) * (64 * 64 ^ count) := Nat.mul_assoc _ _ _
        _ ≤ 2 ^ 32 := hfit
    · rw [if_pos ((continuation_iff byte).not.2 hbyte), if_neg hbyte]
      rfl

theorem readTail_length : ∀ {count value : ℕ} {rest : List UInt8}, rest.length < count →
    readTail count value rest = none
  | _ + 1, _, [], _ => rfl
  | count + 1, value, byte :: rest, h => by
    rw [readTail]
    split
    · exact readTail_length (Nat.lt_of_succ_lt_succ h)
    · rfl

theorem readTail_lt : ∀ {count value result : ℕ} {rest rest' : List UInt8},
    readTail count value rest = some (result, rest') → result < (value + 1) * 64 ^ count
  | 0, value, result, rest, rest', h => by
    obtain ⟨rfl, -⟩ := readTail_zero h
    omega
  | count + 1, value, result, rest, rest', h => by
    obtain ⟨byte, bytes, -, hbyte, htail⟩ := readTail_succ h
    have hstep : value * 64 + (byte.toNat - 0x80) + 1 ≤ (value + 1) * 64 := by omega
    calc result < (value * 64 + (byte.toNat - 0x80) + 1) * 64 ^ count := readTail_lt htail
      _ ≤ (value + 1) * 64 * 64 ^ count := Nat.mul_le_mul_right _ hstep
      _ = (value + 1) * 64 ^ (count + 1) := by rw [Nat.mul_assoc, Nat.pow_succ']

/-! ### What is refused -/

theorem codepointRefused_eq {count value : ℕ} (hcount : count ≤ 3) (hvalue : value < 2 ^ 32) :
    Uax29.codepointRefused (count + 1) (UInt32.ofNat value) =
      !decide (minimum count ≤ value ∧ Utf8.Scalar value) := by
  have htoNat : (UInt32.ofNat value).toNat = value := UInt32.toNat_ofNat_of_lt' hvalue
  rw [Uax29.codepointRefused, ← decide_not, decide_eq_decide]
  simp only [UInt32.lt_iff_toNat_lt, UInt32.le_iff_toNat_le, ge_iff_le, htoNat,
    show (0x80 : UInt32).toNat = 0x80 from rfl, show (0x800 : UInt32).toNat = 0x800 from rfl,
    show (0x10000 : UInt32).toNat = 0x10000 from rfl, show (0x110000 : UInt32).toNat = 0x110000 from rfl,
    show (0xd800 : UInt32).toNat = 0xd800 from rfl, show (0xdfff : UInt32).toNat = 0xdfff from rfl,
    Utf8.Scalar]
  interval_cases count <;> simp only [minimum, true_and] <;> omega

theorem valueRefused_eq {count value : ℕ} (hvalue : value < 2 ^ 32) :
    valueRefused (UInt32.ofNat (minimum count)) (UInt32.ofNat value) =
      !decide (minimum count ≤ value ∧ Utf8.Scalar value) := by
  have htoNat : (UInt32.ofNat value).toNat = value := UInt32.toNat_ofNat_of_lt' hvalue
  have hminimum : (UInt32.ofNat (minimum count)).toNat = minimum count := by
    refine UInt32.toNat_ofNat_of_lt' ?_
    unfold minimum
    split <;> decide
  rw [valueRefused, ← decide_not, decide_eq_decide]
  simp only [UInt32.lt_iff_toNat_lt, UInt32.le_iff_toNat_le, ge_iff_le, gt_iff_lt, htoNat, hminimum,
    show (0x10ffff : UInt32).toNat = 0x10ffff from rfl, show (0xd800 : UInt32).toNat = 0xd800 from rfl,
    show (0xdfff : UInt32).toNat = 0xdfff from rfl, Utf8.Scalar]
  omega

/-! ### The rounds are alike -/

theorem round_eq {count value : ℕ} {rest : List UInt8} {refused : UInt32 → Bool}
    (hfit : (value + 1) * 64 ^ count ≤ 2 ^ 21) (hrefused : ∀ value < 2 ^ 32, refused (UInt32.ofNat value) =
      !decide (minimum count ≤ value ∧ Utf8.Scalar value)) : (if count + 1 > rest.length + 1 then none
      else (Uax29.continuations (UInt32.ofNat value) (rest.take (count + 1 - 1))).bind fun cp =>
        if refused cp then none else some (cp, rest.drop (count + 1 - 1))) =
      ((readTail count value rest).bind fun (value, rest) =>
        if minimum count ≤ value ∧ Utf8.Scalar value then some (value, rest) else none).map
          fun (value, rest) => (UInt32.ofNat value, rest) := by
  rw [Nat.add_sub_cancel]
  by_cases hlength : count + 1 > rest.length + 1
  · rw [if_pos hlength, readTail_length (by omega)]
    rfl
  rw [if_neg hlength]
  have htail := @continuations_eq count value rest (by omega) (by omega)
  cases hread : readTail count value rest with
  | none =>
    rw [hread, Option.map_none, Option.map_eq_none_iff] at htail
    rw [htail]
    rfl
  | some pair =>
    obtain ⟨result, rest'⟩ := pair
    have hlt := readTail_lt hread
    rw [hread, Option.map_some, Option.map_eq_some_iff] at htail
    obtain ⟨cp, hcp, heq⟩ := htail
    rw [Prod.mk.injEq] at heq
    obtain ⟨rfl, hrest⟩ := heq
    rw [hcp, Option.bind_some, Option.bind_some, hrefused result (by omega), hrest]
    dsimp only
    by_cases hscalar : minimum count ≤ result ∧ Utf8.Scalar result
    · rw [if_pos hscalar, decide_eq_true hscalar]
      rfl
    · rw [if_neg hscalar, decide_eq_false hscalar]
      rfl

theorem readCodepoint_eq (first : UInt8) (rest : List UInt8) : readCodepoint first rest =
    (readOne first rest).map fun (value, rest) => (UInt32.ofNat value, rest) := by
  rw [readCodepoint, readOne, uaxLeadByte_eq]
  cases hlead : lead first with
  | none => rfl
  | some pair =>
    obtain ⟨value, count⟩ := pair
    obtain ⟨hcount, hfit⟩ := lead_range first _ hlead
    exact round_eq hfit fun value hvalue => codepointRefused_eq hcount hvalue

theorem readValue_eq (first : UInt8) (rest : List UInt8) : readValue first rest =
    (readOne first rest).map fun (value, rest) => (UInt32.ofNat value, rest) := by
  rw [readValue, readOne, leadByte_eq]
  cases hlead : lead first with
  | none => rfl
  | some pair =>
    obtain ⟨value, count⟩ := pair
    obtain ⟨-, hfit⟩ := lead_range first _ hlead
    exact round_eq hfit fun value hvalue => valueRefused_eq hvalue

theorem readValue_reads : Utf8.ReadsScalars UInt32.toNat readValue := by
  intro first rest scalar rest'
  rw [readValue_eq, Option.map_eq_some_iff]
  constructor
  · rintro ⟨⟨value, rest''⟩, hread, heq⟩
    rw [Prod.mk.injEq] at heq
    obtain ⟨rfl, rfl⟩ := heq
    obtain ⟨hscalar, hbytes⟩ := encode_of_readOne hread
    have htoNat : (UInt32.ofNat value).toNat = value :=
      UInt32.toNat_ofNat_of_lt' (Nat.lt_of_le_of_lt hscalar.1 (by decide))
    rw [htoNat]
    exact ⟨hscalar, hbytes⟩
  · rintro ⟨hscalar, hbytes⟩
    exact ⟨(scalar.toNat, rest'), readOne_of_encode hscalar hbytes, Prod.ext UInt32.ofNat_toNat rfl⟩

theorem readCodepoint_eq_readValue : readCodepoint = readValue := by
  funext first rest
  rw [readCodepoint_eq, readValue_eq]

/-! ## The loops -/

theorem decodeFrom_eq : ∀ {rounds offset : ℕ} {bytes : List UInt8},
    (Uax29.decodeFrom rounds offset bytes).map (·.codepoints) = decodeAll readCodepoint rounds bytes
  | 0, _, [] => rfl
  | _ + 1, _, [] => rfl
  | 0, _, _ :: _ => rfl
  | rounds + 1, offset, first :: rest => by
    rw [Uax29.decodeFrom, decodeAll, readCodepoint]
    cases hlead : Uax29.leadByte first with
    | none => rfl
    | some pair =>
      obtain ⟨payload, width⟩ := pair
      simp only [Option.bind_eq_bind, Option.bind_some]
      split
      · rfl
      cases hcp : Uax29.continuations payload (rest.take (width - 1)) with
      | none => rfl
      | some cp =>
        simp only [Option.bind_some]
        split
        · rfl
        have ih := @decodeFrom_eq rounds (offset + width) (rest.drop (width - 1))
        simp only [Option.bind_some, ← ih]
        cases Uax29.decodeFrom rounds (offset + width) (rest.drop (width - 1)) <;> rfl

theorem decodeLoop_eq : ∀ {rounds : ℕ} {bytes : List UInt8} {output result : List UInt32},
    decodeLoop rounds bytes output = (true, result) ↔
      ∃ values, decodeAll readValue rounds bytes = some values ∧ result = output ++ values
  | rounds, [], output, result => by
    have hnil : decodeAll readValue rounds [] = some [] := by cases rounds <;> rfl
    have hloop : decodeLoop rounds [] output = (true, output) := by cases rounds <;> rfl
    rw [hnil, hloop, Prod.mk.injEq]
    constructor
    · rintro ⟨-, rfl⟩
      exact ⟨[], rfl, (List.append_nil _).symm⟩
    · rintro ⟨values, hvalues, rfl⟩
      cases hvalues
      exact ⟨rfl, (List.append_nil _).symm⟩
  | 0, _ :: _, _, _ => ⟨nofun, nofun⟩
  | rounds + 1, first :: rest, output, result => by
    have hfails : ∀ {output : List UInt32}, (false, output) = (true, result) ↔ False :=
      ⟨nofun, nofun⟩
    rw [decodeLoop, decodeAll, readValue]
    cases hlead : leadByte first with
    | none => simp
    | some triple =>
      obtain ⟨value, width, minimum⟩ := triple
      simp only [Option.bind_eq_bind, Option.bind_some]
      split
      · simp
      cases hvalue : Uax29.continuations value (rest.take (width - 1)) with
      | none => simp
      | some value =>
        simp only [Option.bind_some]
        split
        · simp
        rw [decodeLoop_eq]
        simp only [Option.bind_some]
        constructor
        · rintro ⟨values, hvalues, rfl⟩
          exact ⟨value :: values, by rw [hvalues]; rfl, by rw [List.append_assoc]; rfl⟩
        · rintro ⟨values, hvalues, rfl⟩
          obtain ⟨values, hrest, heq⟩ := Option.bind_eq_some_iff.1 hvalues
          cases heq
          exact ⟨values, hrest, by rw [List.append_assoc]; rfl⟩

/-! ## The three decoders and the encoder -/

/-- `laplace_unicode_position_encode` for one position after the other. -/
def encodeAll : List UInt32 → Except Identity.Status (List UInt8)
  | [] => .ok []
  | position :: positions => do
    let code ← Identity.unicodePositionEncode position
    let codes ← encodeAll positions
    return code ++ codes

theorem unicodePositionEncode_ok {position : UInt32} {code : List UInt8} :
    Identity.unicodePositionEncode position = .ok code ↔
      position.toNat ≤ 0x10ffff ∧ code = encode position.toNat := by
  have hgt : position > Identity.unicodePositionMaximum ↔ ¬ position.toNat ≤ 0x10ffff :=
    UInt32.lt_iff_toNat_lt.trans Nat.not_le.symm
  rw [Identity.unicodePositionEncode]
  by_cases h : position.toNat ≤ 0x10ffff
  · rw [if_neg (hgt.not.2 (not_not.2 h)), encodeWord_eq h, Except.ok.injEq, eq_comm, and_iff_right h]
  · rw [if_pos (hgt.2 h)]
    exact iff_of_false nofun fun hcode => h hcode.1

theorem encodeAll_ok : ∀ {positions : List UInt32} {bytes : List UInt8},
    encodeAll positions = .ok bytes ↔ (∀ position ∈ positions, position.toNat ≤ 0x10ffff) ∧
      bytes = positions.flatMap fun position => encode position.toNat
  | [], bytes => by
    rw [encodeAll, Except.ok.injEq]
    exact ⟨fun h => ⟨nofun, h.symm⟩, fun h => h.2.symm⟩
  | position :: positions, bytes => by
    rw [encodeAll]
    constructor
    · intro h
      cases hcode : Identity.unicodePositionEncode position with
      | error status =>
        rw [hcode] at h
        cases h
      | ok code =>
        cases hcodes : encodeAll positions with
        | error status =>
          simp only [hcode, hcodes, bind, Except.bind] at h
          cases h
        | ok codes =>
          simp only [hcode, hcodes, bind, Except.bind, pure, Except.pure, Except.ok.injEq] at h
          obtain ⟨hrange, rfl⟩ := unicodePositionEncode_ok.1 hcode
          obtain ⟨hranges, rfl⟩ := encodeAll_ok.1 hcodes
          exact ⟨List.forall_mem_cons.2 ⟨hrange, hranges⟩, h.symm⟩
    · rintro ⟨hranges, rfl⟩
      obtain ⟨hrange, hranges⟩ := List.forall_mem_cons.1 hranges
      simp only [unicodePositionEncode_ok.2 ⟨hrange, rfl⟩, encodeAll_ok.2 ⟨hranges, rfl⟩, bind,
        Except.bind, pure, Except.pure, List.flatMap_cons]

/-- The scalar values whose codes make up the bytes. -/
def Spells (codepoints : List UInt32) (bytes : List UInt8) : Prop :=
  (∀ codepoint ∈ codepoints, Utf8.Scalar codepoint.toNat) ∧ encodeAll codepoints = .ok bytes

variable {bytes : List UInt8} {codepoints output : List UInt32}

theorem spells_iff : Spells codepoints bytes ↔ (∀ codepoint ∈ codepoints, Utf8.Scalar codepoint.toNat) ∧
      bytes = codepoints.flatMap fun codepoint => encode codepoint.toNat :=
  and_congr_right fun hscalar => encodeAll_ok.trans
    (and_iff_right fun codepoint hmem => (hscalar codepoint hmem).1)

theorem wellFormed_iff_spells : Utf8.WellFormed bytes ↔ ∃ codepoints, Spells codepoints bytes := by
  rw [wellFormed_iff]
  constructor
  · rintro ⟨positions, hscalar, rfl⟩
    have htoNat : ∀ position ∈ positions, (UInt32.ofNat position).toNat = position :=
      fun position hmem =>
        UInt32.toNat_ofNat_of_lt' (Nat.lt_of_le_of_lt (hscalar position hmem).1 (by decide))
    refine ⟨positions.map UInt32.ofNat, spells_iff.2 ⟨?_, ?_⟩⟩
    · intro codepoint hmem
      obtain ⟨position, hposition, rfl⟩ := List.mem_map.1 hmem
      rw [htoNat position hposition]
      exact hscalar position hposition
    · rw [List.flatMap_map]
      exact List.flatMap_congr fun position hmem => by rw [htoNat position hmem]
  · rintro ⟨codepoints, h⟩
    obtain ⟨hscalar, rfl⟩ := spells_iff.1 h
    refine ⟨codepoints.map UInt32.toNat, List.forall_mem_map.2 hscalar, ?_⟩
    rw [List.flatMap_map]

theorem encodeAll_inj {left right : List UInt32} (hleft : encodeAll left = .ok bytes)
    (hright : encodeAll right = .ok bytes) : left = right := by
  obtain ⟨hranges, rfl⟩ := encodeAll_ok.1 hleft
  obtain ⟨hranges', heq⟩ := encodeAll_ok.1 hright
  have hpositions := flatMap_encode_inj (List.forall_mem_map.2 hranges)
    (List.forall_mem_map.2 hranges') (by rw [List.flatMap_map, List.flatMap_map, heq])
  exact List.map_injective_iff.2 (fun _ _ => UInt32.toNat_inj.1) hpositions

theorem uax_decodeUtf8_iff : (Uax29.decodeUtf8 bytes).map (·.codepoints) = some codepoints ↔
    Spells codepoints bytes := by
  rw [Uax29.decodeUtf8, decodeFrom_eq, readCodepoint_eq_readValue,
    decodeAll_eq_some readValue_reads (Nat.le_refl _), spells_iff]

theorem decodeLoop_iff {result : List UInt32} : decodeLoop bytes.length bytes output = (true, result) ↔
    ∃ codepoints, Spells codepoints bytes ∧ result = output ++ codepoints := by
  rw [decodeLoop_eq]
  simp only [decodeAll_eq_some readValue_reads (Nat.le_refl _), spells_iff]

theorem canonical_decodeUtf8_iff {result : List UInt32} :
    CanonicalPlan.decodeUtf8 bytes output = (true, result) ↔
      (∃ codepoints, Spells codepoints bytes ∧ result = output ++ codepoints) ∧ result ≠ [] := by
  rw [← decodeLoop_iff, CanonicalPlan.decodeUtf8]
  obtain ⟨decoded, found⟩ := decodeLoop bytes.length bytes output
  simp only [Prod.mk.injEq, Bool.and_eq_true, Bool.not_eq_true', List.isEmpty_eq_false_iff]
  constructor
  · rintro ⟨⟨rfl, hne⟩, rfl⟩
    exact ⟨⟨rfl, rfl⟩, hne⟩
  · rintro ⟨⟨rfl, rfl⟩, hne⟩
    exact ⟨⟨rfl, hne⟩, rfl⟩

/-- **The decoders.** Each takes exactly the well-formed strings, but for the empty one in the canonical
plan, gives the scalar values whose concatenated codes they are, and the codes of all positions can
be told apart. -/
theorem utf8_decoders (bytes : List UInt8) (codepoints output result : List UInt32) :
    (Utf8.WellFormed bytes ↔ ∃ codepoints, Spells codepoints bytes) ∧
    ((Uax29.decodeUtf8 bytes).map (·.codepoints) = some codepoints ↔ Spells codepoints bytes) ∧
    (Decomposition.decodeUtf8 bytes output = (true, result) ↔
      ∃ codepoints, Spells codepoints bytes ∧ result = output ++ codepoints) ∧
    (CanonicalPlan.decodeUtf8 bytes output = (true, result) ↔
      (∃ codepoints, Spells codepoints bytes ∧ result = output ++ codepoints) ∧ result ≠ []) ∧
    ∀ positions, encodeAll positions = .ok bytes → ∀ positions', encodeAll positions' = .ok bytes →
      positions = positions' :=
  ⟨wellFormed_iff_spells, uax_decodeUtf8_iff, decodeLoop_iff, canonical_decodeUtf8_iff,
    fun _ h _ h' => encodeAll_inj h h'⟩

/-- The empty string is well-formed. -/
theorem utf8_decoders_empty : Utf8.WellFormed [] ∧ Uax29.decodeUtf8 [] = some ⟨[], [0]⟩ ∧
    Decomposition.decodeUtf8 [] [] = (true, []) ∧ CanonicalPlan.decodeUtf8 [] [] = (false, []) :=
  ⟨.nil, rfl, rfl, rfl⟩

end Laplace.Unicode
