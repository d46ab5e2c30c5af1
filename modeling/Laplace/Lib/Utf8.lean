import Mathlib.Tactic

/-!
# UTF-8

`encode` is the code of a position of the code space, surrogates included; `WellFormed` is the table
of well-formed byte sequences of the Unicode standard, with its ranges for each lead byte. The codes
can be told apart wherever they stand (`encode_append_inj`), and the well-formed strings are the
concatenated codes of scalar values (`wellFormed_iff`).
-/

namespace Laplace.Utf8

/-- A Unicode scalar value. -/
def Scalar (position : ℕ) : Prop := position ≤ 0x10ffff ∧ ¬ (0xd800 ≤ position ∧ position ≤ 0xdfff)

instance (position : ℕ) : Decidable (Scalar position) := inferInstanceAs (Decidable (_ ∧ _))

/-- The continuation byte for the low six bits. -/
def continuation (position : ℕ) : UInt8 := UInt8.ofNat (0x80 + position % 64)

/-- The code of a position. -/
def encode (position : ℕ) : List UInt8 :=
  if position ≤ 0x7f then [UInt8.ofNat position]
  else if position ≤ 0x7ff then [UInt8.ofNat (0xc0 + position / 64), continuation position]
  else if position ≤ 0xffff then
    [UInt8.ofNat (0xe0 + position / 64 / 64), continuation (position / 64), continuation position]
  else
    [UInt8.ofNat (0xf0 + position / 64 / 64 / 64), continuation (position / 64 / 64),
      continuation (position / 64), continuation position]

/-! ## Unique decodability -/

theorem ofNat_eq_ofNat {left right : ℕ} (hleft : left < 256) (hright : right < 256) :
    UInt8.ofNat left = UInt8.ofNat right ↔ left = right := by
  rw [← UInt8.toNat_inj, UInt8.toNat_ofNat_of_lt' hleft, UInt8.toNat_ofNat_of_lt' hright]

theorem continuation_eq {left right : ℕ} :
    continuation left = continuation right ↔ left % 64 = right % 64 := by
  rw [continuation, continuation, ofNat_eq_ofNat (by omega) (by omega)]
  omega

theorem encode_append_inj {left right : ℕ} {rest rest' : List UInt8} (hleft : left ≤ 0x10ffff)
    (hright : right ≤ 0x10ffff) (h : encode left ++ rest = encode right ++ rest') :
    left = right ∧ rest = rest' := by
  unfold encode at h
  -- codes of different lengths differ in the first byte
  split_ifs at h <;>
    simp only [List.cons_append, List.nil_append, List.cons.injEq, continuation_eq] at h <;>
    obtain ⟨hlead, h⟩ := h <;>
    rw [ofNat_eq_ofNat (by omega) (by omega)] at hlead <;>
    first
      | exact absurd hlead (by omega)
      | exact ⟨hlead, h⟩
      | exact ⟨by omega, h.2⟩
      | exact ⟨by omega, h.2.2⟩
      | exact ⟨by omega, h.2.2.2⟩

theorem encode_ne_nil (position : ℕ) : encode position ≠ [] := by
  unfold encode
  split_ifs <;> exact List.cons_ne_nil _ _

theorem flatMap_encode_inj : ∀ {left right : List ℕ}, (∀ position ∈ left, position ≤ 0x10ffff) →
    (∀ position ∈ right, position ≤ 0x10ffff) → left.flatMap encode = right.flatMap encode → left = right
  | [], [], _, _, _ => rfl
  | [], position :: right, _, _, h => by
    rw [List.flatMap_nil, List.flatMap_cons] at h
    exact absurd (List.append_eq_nil_iff.1 h.symm).1 (encode_ne_nil position)
  | position :: left, [], _, _, h => by
    rw [List.flatMap_nil, List.flatMap_cons] at h
    exact absurd (List.append_eq_nil_iff.1 h).1 (encode_ne_nil position)
  | position :: left, position' :: right, hleft, hright, h => by
    rw [List.forall_mem_cons] at hleft hright
    rw [List.flatMap_cons, List.flatMap_cons] at h
    obtain ⟨rfl, hrest⟩ := encode_append_inj hleft.1 hright.1 h
    rw [flatMap_encode_inj hleft.2 hright.2 hrest]

/-! ## The table of well-formed sequences -/

/-- The continuation bytes without a range of their own. -/
def tail : ℕ × ℕ := (0x80, 0xbf)

/-- The ranges of the bytes of a sequence, by lead bytes. -/
def rows : List (List (ℕ × ℕ)) :=
  [[(0x00, 0x7f)], [(0xc2, 0xdf), tail], [(0xe0, 0xe0), (0xa0, 0xbf), tail], [(0xe1, 0xec), tail, tail],
    [(0xed, 0xed), (0x80, 0x9f), tail],
    [(0xee, 0xef), tail, tail],
    [(0xf0, 0xf0), (0x90, 0xbf), tail, tail],
    [(0xf1, 0xf3), tail, tail, tail],
    [(0xf4, 0xf4), (0x80, 0x8f), tail, tail]]

/-- The bytes lie in the ranges of a row. -/
def Fits (row : List (ℕ × ℕ)) (bytes : List UInt8) : Prop :=
  List.Forall₂ (fun range byte => range.1 ≤ byte.toNat ∧ byte.toNat ≤ range.2) row bytes

inductive WellFormed : List UInt8 → Prop
  | nil : WellFormed []
  | sequence {row : List (ℕ × ℕ)} {bytes rest : List UInt8} (hrow : row ∈ rows)
    (hfits : Fits row bytes) (hrest : WellFormed rest) : WellFormed (bytes ++ rest)

section Fits

variable {range : ℕ × ℕ} {row : List (ℕ × ℕ)} {bytes : List UInt8}

theorem fits_nil : Fits [] bytes ↔ bytes = [] := List.forall₂_nil_left_iff

theorem fits_cons : Fits (range :: row) bytes ↔ ∃ byte rest, bytes = byte :: rest ∧
    (range.1 ≤ byte.toNat ∧ byte.toNat ≤ range.2) ∧ Fits row rest := by
  unfold Fits
  rw [List.forall₂_cons_left_iff]
  exact ⟨fun ⟨byte, rest, hbyte, hrest, heq⟩ => ⟨byte, rest, heq, hbyte, hrest⟩,
    fun ⟨byte, rest, heq, hbyte, hrest⟩ => ⟨byte, rest, hbyte, hrest, heq⟩⟩

end Fits

/-! ### Codes by their bytes -/

section Bytes

variable {x y z w : UInt8}

theorem eq_ofNat {byte : UInt8} {value : ℕ} (h : byte.toNat = value) : UInt8.ofNat value = byte := by
  rw [← h, UInt8.ofNat_toNat]

theorem continuation_of {byte : UInt8} {position : ℕ} (h : byte.toNat = 0x80 + position % 64) :
    continuation position = byte := eq_ofNat h

@[simp] theorem continuation_toNat (position : ℕ) : (continuation position).toNat = 0x80 + position % 64 :=
  UInt8.toNat_ofNat_of_lt' (show 0x80 + position % 64 < 256 by omega)

theorem encode_one (hx : x.toNat ≤ 0x7f) : encode x.toNat = [x] := by
  rw [encode, if_pos hx, UInt8.ofNat_toNat]

theorem encode_two (hx : 0xc2 ≤ x.toNat ∧ x.toNat ≤ 0xdf) (hy : 0x80 ≤ y.toNat ∧ y.toNat ≤ 0xbf) :
    encode ((x.toNat - 0xc0) * 64 + (y.toNat - 0x80)) = [x, y] := by
  rw [encode, if_neg (by omega), if_pos (by omega), eq_ofNat (by omega : x.toNat = _),
    continuation_of (by omega : y.toNat = _)]

theorem encode_three (hx : 0xe0 ≤ x.toNat ∧ x.toNat ≤ 0xef) (hy : 0x80 ≤ y.toNat ∧ y.toNat ≤ 0xbf)
    (hz : 0x80 ≤ z.toNat ∧ z.toNat ≤ 0xbf)
    (hmin : 0x800 ≤ (x.toNat - 0xe0) * 64 * 64 + (y.toNat - 0x80) * 64 + (z.toNat - 0x80)) :
    encode ((x.toNat - 0xe0) * 64 * 64 + (y.toNat - 0x80) * 64 + (z.toNat - 0x80)) = [x, y, z] := by
  rw [encode, if_neg (by omega), if_neg (by omega), if_pos (by omega),
    eq_ofNat (by omega : x.toNat = _), continuation_of (by omega : y.toNat = _),
    continuation_of (by omega : z.toNat = _)]

theorem encode_four (hx : 0xf0 ≤ x.toNat ∧ x.toNat ≤ 0xf7) (hy : 0x80 ≤ y.toNat ∧ y.toNat ≤ 0xbf)
    (hz : 0x80 ≤ z.toNat ∧ z.toNat ≤ 0xbf) (hw : 0x80 ≤ w.toNat ∧ w.toNat ≤ 0xbf)
    (hmin : 0x10000 ≤ (x.toNat - 0xf0) * 64 * 64 * 64 + (y.toNat - 0x80) * 64 * 64 +
      (z.toNat - 0x80) * 64 + (w.toNat - 0x80)) :
    encode ((x.toNat - 0xf0) * 64 * 64 * 64 + (y.toNat - 0x80) * 64 * 64 +
      (z.toNat - 0x80) * 64 + (w.toNat - 0x80)) = [x, y, z, w] := by
  rw [encode, if_neg (by omega), if_neg (by omega), if_neg (by omega),
    eq_ofNat (by omega : x.toNat = _), continuation_of (by omega : y.toNat = _),
    continuation_of (by omega : z.toNat = _), continuation_of (by omega : w.toNat = _)]

end Bytes

/-! ### Rows and scalar values -/

theorem encode_of_fits {row : List (ℕ × ℕ)} {bytes : List UInt8} (hrow : row ∈ rows)
    (hfits : Fits row bytes) : ∃ position, Scalar position ∧ bytes = encode position := by
  simp only [rows, List.mem_cons, List.not_mem_nil, or_false] at hrow
  rcases hrow with rfl | rfl | rfl | rfl | rfl | rfl | rfl | rfl | rfl <;>
    simp only [fits_cons, fits_nil, tail] at hfits
  · obtain ⟨x, _, rfl, hx, rfl⟩ := hfits
    exact ⟨_, ⟨by omega, by omega⟩, (encode_one hx.2).symm⟩
  · obtain ⟨x, _, rfl, hx, y, _, rfl, hy, rfl⟩ := hfits
    exact ⟨_, ⟨by omega, by omega⟩, (encode_two hx hy).symm⟩
  -- three bytes: the range of the second keeps out overlong forms and surrogates
  iterate 4
    obtain ⟨x, _, rfl, hx, y, _, rfl, hy, z, _, rfl, hz, rfl⟩ := hfits
    exact ⟨_, ⟨by omega, by omega⟩, (encode_three ⟨by omega, by omega⟩ ⟨by omega, by omega⟩
      ⟨by omega, by omega⟩ (by omega)).symm⟩
  -- four bytes: it keeps out overlong forms and what lies above the code space
  all_goals
    obtain ⟨x, _, rfl, hx, y, _, rfl, hy, z, _, rfl, hz, w, _, rfl, hw, rfl⟩ := hfits
    exact ⟨_, ⟨by omega, by omega⟩, (encode_four ⟨by omega, by omega⟩ ⟨by omega, by omega⟩
      ⟨by omega, by omega⟩ ⟨by omega, by omega⟩ (by omega)).symm⟩

theorem fits_of_scalar {position : ℕ} (h : Scalar position) : ∃ row ∈ rows, Fits row (encode position) := by
  obtain ⟨hmax, hsurrogate⟩ := h
  have hlead : ∀ {value : ℕ}, value < 256 → (UInt8.ofNat value).toNat = value :=
    fun hlt => UInt8.toNat_ofNat_of_lt' hlt
  unfold encode
  split_ifs with h1 h2 h3
  · refine ⟨[(0x00, 0x7f)], by simp [rows], ?_⟩
    simp only [fits_cons, fits_nil]
    exact ⟨_, _, rfl, by rw [hlead (by omega)]; omega, rfl⟩
  · refine ⟨[(0xc2, 0xdf), tail], by simp [rows], ?_⟩
    simp only [fits_cons, fits_nil, tail]
    exact ⟨_, _, rfl, by rw [hlead (by omega)]; omega, _, _, rfl, by rw [continuation_toNat]; omega,
      rfl⟩
  · have three : ∀ first second : ℕ × ℕ, [first, second, tail] ∈ rows →
        (first.1 ≤ 0xe0 + position / 64 / 64 ∧ 0xe0 + position / 64 / 64 ≤ first.2) →
        (second.1 ≤ 0x80 + position / 64 % 64 ∧ 0x80 + position / 64 % 64 ≤ second.2) →
        ∃ row ∈ rows, Fits row [UInt8.ofNat (0xe0 + position / 64 / 64),
          continuation (position / 64), continuation position] := by
      intro first second hrow hfirst hsecond
      refine ⟨_, hrow, ?_⟩
      simp only [fits_cons, fits_nil, tail]
      exact ⟨_, _, rfl, by rwa [hlead (by omega)], _, _, rfl, by rwa [continuation_toNat], _, _, rfl,
        by rw [continuation_toNat]; omega, rfl⟩
    rcases Nat.lt_or_ge position 0x1000 with h | h
    · exact three (0xe0, 0xe0) (0xa0, 0xbf) (by simp [rows]) (by omega) (by omega)
    rcases Nat.lt_or_ge position 0xd000 with h | h
    · exact three (0xe1, 0xec) tail (by simp [rows]) (by omega) (by simp only [tail]; omega)
    rcases Nat.lt_or_ge position 0xe000 with h | h
    · exact three (0xed, 0xed) (0x80, 0x9f) (by simp [rows]) (by omega) (by omega)
    · exact three (0xee, 0xef) tail (by simp [rows]) (by omega) (by simp only [tail]; omega)
  · have four : ∀ first second : ℕ × ℕ, [first, second, tail, tail] ∈ rows →
        (first.1 ≤ 0xf0 + position / 64 / 64 / 64 ∧ 0xf0 + position / 64 / 64 / 64 ≤ first.2) →
        (second.1 ≤ 0x80 + position / 64 / 64 % 64 ∧ 0x80 + position / 64 / 64 % 64 ≤ second.2) →
        ∃ row ∈ rows, Fits row [UInt8.ofNat (0xf0 + position / 64 / 64 / 64),
          continuation (position / 64 / 64), continuation (position / 64), continuation position] := by
      intro first second hrow hfirst hsecond
      refine ⟨_, hrow, ?_⟩
      simp only [fits_cons, fits_nil, tail]
      exact ⟨_, _, rfl, by rwa [hlead (by omega)], _, _, rfl, by rwa [continuation_toNat], _, _, rfl,
        by rw [continuation_toNat]; omega, _, _, rfl, by rw [continuation_toNat]; omega, rfl⟩
    rcases Nat.lt_or_ge position 0x40000 with h | h
    · exact four (0xf0, 0xf0) (0x90, 0xbf) (by simp [rows]) (by omega) (by omega)
    rcases Nat.lt_or_ge position 0x100000 with h | h
    · exact four (0xf1, 0xf3) tail (by simp [rows]) (by omega) (by simp only [tail]; omega)
    · exact four (0xf4, 0xf4) (0x80, 0x8f) (by simp [rows]) (by omega) (by omega)

/-- **Well-formed UTF-8** is what the codes of scalar values make. -/
theorem wellFormed_iff {bytes : List UInt8} : WellFormed bytes ↔
    ∃ positions : List ℕ, (∀ position ∈ positions, Scalar position) ∧ bytes = positions.flatMap encode := by
  constructor
  · intro h
    induction h with
    | nil => exact ⟨[], nofun, rfl⟩
    | sequence hrow hfits _ ih =>
      obtain ⟨position, hscalar, rfl⟩ := encode_of_fits hrow hfits
      obtain ⟨positions, hscalars, rfl⟩ := ih
      exact ⟨position :: positions, List.forall_mem_cons.2 ⟨hscalar, hscalars⟩, rfl⟩
  · rintro ⟨positions, hscalars, rfl⟩
    induction positions with
    | nil => exact .nil
    | cons position positions ih =>
      obtain ⟨hscalar, hscalars⟩ := List.forall_mem_cons.1 hscalars
      obtain ⟨row, hrow, hfits⟩ := fits_of_scalar hscalar
      exact .sequence hrow hfits (ih hscalars)

/-! ## Decoders -/

section Decoders

variable {α : Type*}

/-- Reads one code point after the other until the string is used up. -/
def decodeAll (readOne : UInt8 → List UInt8 → Option (α × List UInt8)) :
    ℕ → List UInt8 → Option (List α)
  | _, [] => some []
  | 0, _ :: _ => none
  | rounds + 1, first :: rest => do
    let (scalar, rest) ← readOne first rest
    let scalars ← decodeAll readOne rounds rest
    return scalar :: scalars

/-- A function that takes the code of a scalar value off the front of a string, and refuses what
begins with no such code. -/
def ReadsScalars (value : α → ℕ) (readOne : UInt8 → List UInt8 → Option (α × List UInt8)) : Prop :=
  ∀ first rest scalar rest', readOne first rest = some (scalar, rest') ↔
    Scalar (value scalar) ∧ first :: rest = encode (value scalar) ++ rest'

variable {value : α → ℕ} {readOne : UInt8 → List UInt8 → Option (α × List UInt8)}

/-- **Decoding is the inverse of encoding.** -/
theorem decodeAll_eq_some (h : ReadsScalars value readOne) : ∀ {rounds : ℕ} {bytes : List UInt8}
    {scalars : List α}, bytes.length ≤ rounds → (decodeAll readOne rounds bytes = some scalars ↔
      (∀ scalar ∈ scalars, Scalar (value scalar)) ∧
        bytes = scalars.flatMap fun scalar => encode (value scalar))
  | rounds, [], scalars, _ => by
    have hnil : decodeAll readOne rounds [] = some [] := by cases rounds <;> rfl
    rw [hnil, Option.some.injEq]
    constructor
    · rintro rfl
      exact ⟨nofun, rfl⟩
    · rintro ⟨-, hbytes⟩
      cases scalars with
      | nil => rfl
      | cons scalar scalars =>
        rw [List.flatMap_cons] at hbytes
        exact absurd (List.append_eq_nil_iff.1 hbytes.symm).1 (encode_ne_nil _)
  | 0, _ :: _, _, hlength => by
    rw [List.length_cons] at hlength
    omega
  | rounds + 1, first :: rest, scalars, hlength => by
    have hshorter : ∀ {scalar : α} {rest' : List UInt8},
        first :: rest = encode (value scalar) ++ rest' → rest'.length ≤ rounds := by
      intro scalar rest' heq
      have hbytes := congrArg List.length heq
      have hpos := List.length_pos_iff.2 (encode_ne_nil (value scalar))
      rw [List.length_append] at hbytes
      rw [List.length_cons] at hbytes hlength
      omega
    rw [decodeAll]
    simp only [Option.bind_eq_bind, Option.bind_eq_some_iff, Prod.exists, Option.pure_def,
      Option.some.injEq]
    constructor
    · rintro ⟨scalar, rest', hread, scalars', hrest, rfl⟩
      obtain ⟨hscalar, heq⟩ := (h _ _ _ _).1 hread
      obtain ⟨hscalars, rfl⟩ := (decodeAll_eq_some h (hshorter heq)).1 hrest
      exact ⟨List.forall_mem_cons.2 ⟨hscalar, hscalars⟩, heq⟩
    · rintro ⟨hscalars, heq⟩
      cases scalars with
      | nil => cases heq
      | cons scalar scalars =>
        obtain ⟨hscalar, hscalars⟩ := List.forall_mem_cons.1 hscalars
        rw [List.flatMap_cons] at heq
        exact ⟨scalar, _, (h _ _ _ _).2 ⟨hscalar, heq⟩, scalars,
          (decodeAll_eq_some h (hshorter heq)).2 ⟨hscalars, rfl⟩, rfl⟩

end Decoders

/-! ### A decoder by masks

The lead byte says how many bytes follow; whether the code was the shortest one, and of a scalar
value, is checked in the end. -/

/-- The bits of a lead byte and the number of bytes that follow it. -/
def lead (first : UInt8) : Option (ℕ × ℕ) :=
  if first.toNat ≤ 0x7f then some (first.toNat, 0)
  else if first.toNat < 0xc0 then none
  else if first.toNat < 0xe0 then some (first.toNat - 0xc0, 1)
  else if first.toNat < 0xf0 then some (first.toNat - 0xe0, 2)
  else if first.toNat < 0xf8 then some (first.toNat - 0xf0, 3)
  else none

/-- The value with so many continuation bytes. -/
def readTail : ℕ → ℕ → List UInt8 → Option (ℕ × List UInt8)
  | 0, value, bytes => some (value, bytes)
  | _ + 1, _, [] => none
  | count + 1, value, byte :: bytes =>
    if 0x80 ≤ byte.toNat ∧ byte.toNat ≤ 0xbf then
      readTail count (value * 64 + (byte.toNat - 0x80)) bytes
    else none

/-- The least value that needs so many continuation bytes. -/
def minimum : ℕ → ℕ
  | 0 => 0
  | 1 => 0x80
  | 2 => 0x800
  | _ => 0x10000

def readOne (first : UInt8) (rest : List UInt8) : Option (ℕ × List UInt8) := do
  let (value, count) ← lead first
  let (value, rest) ← readTail count value rest
  if minimum count ≤ value ∧ Scalar value then some (value, rest) else none

theorem readTail_cons_of {byte : UInt8} {bytes : List UInt8} {count value : ℕ}
    (h : 0x80 ≤ byte.toNat ∧ byte.toNat ≤ 0xbf) : readTail (count + 1) value (byte :: bytes) =
      readTail count (value * 64 + (byte.toNat - 0x80)) bytes := by
  rw [readTail, if_pos h]

theorem readTail_zero {bytes rest : List UInt8} {value result : ℕ}
    (h : readTail 0 value bytes = some (result, rest)) : value = result ∧ bytes = rest := by
  cases h
  exact ⟨rfl, rfl⟩

theorem readTail_succ {bytes rest : List UInt8} {count value result : ℕ}
    (h : readTail (count + 1) value bytes = some (result, rest)) : ∃ byte bytes',
      bytes = byte :: bytes' ∧ (0x80 ≤ byte.toNat ∧ byte.toNat ≤ 0xbf) ∧
        readTail count (value * 64 + (byte.toNat - 0x80)) bytes' = some (result, rest) := by
  cases bytes with
  | nil => cases h
  | cons byte bytes =>
    rw [readTail] at h
    split at h
    · exact ⟨byte, bytes, rfl, ‹_›, h⟩
    · cases h

theorem readTail_continuation {position count value : ℕ} {bytes : List UInt8} :
    readTail (count + 1) value (continuation position :: bytes) =
      readTail count (value * 64 + position % 64) bytes := by
  rw [readTail_cons_of (by rw [continuation_toNat]; omega), continuation_toNat, Nat.add_sub_cancel_left]

theorem readOne_eq_some {first : UInt8} {rest rest' : List UInt8} {position : ℕ} :
    readOne first rest = some (position, rest') ↔ ∃ value count, lead first = some (value, count) ∧
      readTail count value rest = some (position, rest') ∧ minimum count ≤ position ∧ Scalar position := by
  unfold readOne
  simp only [Option.bind_eq_bind, Option.bind_eq_some_iff, Prod.exists, Option.ite_none_right_eq_some,
    Option.some.injEq, Prod.mk.injEq]
  constructor
  · rintro ⟨value, count, hlead, result, tail, htail, ⟨hmin, hscalar⟩, rfl, rfl⟩
    exact ⟨value, count, hlead, htail, hmin, hscalar⟩
  · rintro ⟨value, count, hlead, htail, hmin, hscalar⟩
    exact ⟨value, count, hlead, position, rest', htail, ⟨hmin, hscalar⟩, rfl, rfl⟩

theorem encode_of_readOne {first : UInt8} {rest rest' : List UInt8} {position : ℕ}
    (h : readOne first rest = some (position, rest')) :
    Scalar position ∧ first :: rest = encode position ++ rest' := by
  obtain ⟨value, count, hlead, htail, hmin, hscalar⟩ := readOne_eq_some.1 h
  refine ⟨hscalar, ?_⟩
  unfold lead at hlead
  split_ifs at hlead with h1 h2 h3 h4 h5 <;> rw [Option.some.injEq, Prod.mk.injEq] at hlead <;>
    obtain ⟨rfl, rfl⟩ := hlead
  · obtain ⟨rfl, rfl⟩ := readTail_zero htail
    rw [encode_one h1]
    rfl
  · obtain ⟨y, rest, rfl, hy, htail⟩ := readTail_succ htail
    obtain ⟨rfl, rfl⟩ := readTail_zero htail
    simp only [minimum] at hmin
    rw [encode_two ⟨by omega, by omega⟩ hy]
    rfl
  · obtain ⟨y, rest, rfl, hy, htail⟩ := readTail_succ htail
    obtain ⟨z, rest, rfl, hz, htail⟩ := readTail_succ htail
    obtain ⟨rfl, rfl⟩ := readTail_zero htail
    simp only [minimum] at hmin
    rw [Nat.add_mul, encode_three ⟨by omega, by omega⟩ hy hz (by omega)]
    rfl
  · obtain ⟨y, rest, rfl, hy, htail⟩ := readTail_succ htail
    obtain ⟨z, rest, rfl, hz, htail⟩ := readTail_succ htail
    obtain ⟨w, rest, rfl, hw, htail⟩ := readTail_succ htail
    obtain ⟨rfl, rfl⟩ := readTail_zero htail
    simp only [minimum] at hmin
    rw [Nat.add_mul, Nat.add_mul, Nat.add_mul, encode_four ⟨by omega, by omega⟩ hy hz hw (by omega)]
    rfl

theorem readOne_of_encode {first : UInt8} {rest rest' : List UInt8} {position : ℕ}
    (hscalar : Scalar position) (h : first :: rest = encode position ++ rest') :
    readOne first rest = some (position, rest') := by
  have hmax := hscalar.1
  have htoNat : ∀ {value : ℕ}, value < 256 → (UInt8.ofNat value).toNat = value :=
    fun hlt => UInt8.toNat_ofNat_of_lt' hlt
  unfold encode at h
  split_ifs at h with h1 h2 h3 <;>
    simp only [List.cons_append, List.nil_append, List.cons.injEq] at h <;>
    obtain ⟨rfl, rfl⟩ := h
  · refine readOne_eq_some.2 ⟨position, 0, ?_, rfl, Nat.zero_le _, hscalar⟩
    rw [lead, htoNat (by omega), if_pos h1]
  · refine readOne_eq_some.2 ⟨position / 64, 1, ?_, ?_, by simp only [minimum]; omega, hscalar⟩
    · rw [lead, htoNat (by omega), if_neg (by omega), if_neg (by omega), if_pos (by omega),
        Nat.add_sub_cancel_left]
    · rw [readTail_continuation, readTail, Nat.div_add_mod']
  · refine readOne_eq_some.2 ⟨position / 64 / 64, 2, ?_, ?_, by simp only [minimum]; omega, hscalar⟩
    · rw [lead, htoNat (by omega), if_neg (by omega), if_neg (by omega), if_neg (by omega),
        if_pos (by omega), Nat.add_sub_cancel_left]
    · rw [readTail_continuation, readTail_continuation, readTail, Nat.div_add_mod', Nat.div_add_mod']
  · refine readOne_eq_some.2 ⟨position / 64 / 64 / 64, 3, ?_, ?_, by simp only [minimum]; omega,
      hscalar⟩
    · rw [lead, htoNat (by omega), if_neg (by omega), if_neg (by omega), if_neg (by omega),
        if_neg (by omega), if_pos (by omega), Nat.add_sub_cancel_left]
    · rw [readTail_continuation, readTail_continuation, readTail_continuation, readTail,
        Nat.div_add_mod', Nat.div_add_mod', Nat.div_add_mod']

/-! ## Codes in words -/

/-- The first byte of a code: a mark over what is left of the position. -/
def leadByte (mark bits : UInt32) : UInt8 := (mark ||| bits).toUInt8

/-- A continuation byte, with the low six bits. -/
def continuationByte (bits : UInt32) : UInt8 := ((0x80 : UInt32) ||| (bits &&& 0x3f)).toUInt8

/-- `encode` in the shifts, masks and marks of a word, as encoders are written. -/
def encodeWord (position : UInt32) : List UInt8 :=
  if position ≤ 0x7f then [position.toUInt8]
  else if position ≤ 0x7ff then [leadByte 0xc0 (position >>> 6), continuationByte position]
  else if position ≤ 0xffff then
    [leadByte 0xe0 (position >>> 12), continuationByte (position >>> 6), continuationByte position]
  else
    [leadByte 0xf0 (position >>> 18), continuationByte (position >>> 12),
      continuationByte (position >>> 6), continuationByte position]

theorem marked_eq {width mark bits : ℕ} (h : bits < 2 ^ width) :
    2 ^ width * mark ||| bits = 2 ^ width * mark + bits :=
  (Nat.two_pow_add_eq_or_of_lt h mark).symm

theorem leadByte_eq {width kind : ℕ} {mark bits : UInt32} (hmark : mark.toNat = 2 ^ width * kind)
    (hbits : bits.toNat < 2 ^ width) : leadByte mark bits = UInt8.ofNat (mark.toNat + bits.toNat) := by
  rw [← UInt8.toNat_inj, leadByte, UInt32.toNat_toUInt8, UInt32.toNat_or, hmark, marked_eq hbits]
  rfl

theorem continuationByte_eq (bits : UInt32) : continuationByte bits = continuation bits.toNat := by
  have hmask : bits.toNat &&& 0x3f = bits.toNat % 2 ^ 6 := Nat.and_two_pow_sub_one_eq_mod _ 6
  have hmark : 0x80 ||| bits.toNat % 2 ^ 6 = 0x80 + bits.toNat % 2 ^ 6 :=
    @marked_eq 6 2 _ (Nat.mod_lt _ (by decide))
  rw [← UInt8.toNat_inj, continuationByte, UInt32.toNat_toUInt8, UInt32.toNat_or, UInt32.toNat_and]
  exact congrArg (· % 2 ^ 8) ((congrArg (0x80 ||| ·) hmask).trans hmark)

theorem encodeWord_eq {position : UInt32} (h : position.toNat ≤ 0x10ffff) :
    encodeWord position = encode position.toNat := by
  have h6 : (position >>> 6).toNat = position.toNat / 64 := by
    rw [UInt32.toNat_shiftRight, Nat.shiftRight_eq_div_pow]
    rfl
  have h12 : (position >>> 12).toNat = position.toNat / 64 / 64 := by
    rw [UInt32.toNat_shiftRight, Nat.shiftRight_eq_div_pow, Nat.div_div_eq_div_mul]
    rfl
  have h18 : (position >>> 18).toNat = position.toNat / 64 / 64 / 64 := by
    rw [UInt32.toNat_shiftRight, Nat.shiftRight_eq_div_pow, Nat.div_div_eq_div_mul, Nat.div_div_eq_div_mul]
    rfl
  unfold encodeWord encode
  simp only [UInt32.le_iff_toNat_le, continuationByte_eq, h6, h12]
  simp only [show (0x7f : UInt32).toNat = 0x7f from rfl, show (0x7ff : UInt32).toNat = 0x7ff from rfl,
    show (0xffff : UInt32).toNat = 0xffff from rfl]
  split_ifs
  · rfl
  · rw [@leadByte_eq 6 3 _ _ rfl (by omega), h6]
    rfl
  · rw [@leadByte_eq 4 14 _ _ rfl (by omega), h12]
    rfl
  · rw [@leadByte_eq 3 30 _ _ rfl (by omega), h18]
    rfl

end Laplace.Utf8
