import Laplace.Digest
import Laplace.Lib.Checked
import Laplace.Lib.Layout

/-!
# Field codecs (persistence.c:60-105, 146-161, trajectory.c:27-41)

The stores are the byte strings of `Laplace.Digest`, the loads are written as the source writes
them, and `load` of a field is the one of its layout. A `double` is its 64-bit pattern.
-/

namespace Laplace

open Layout

def byteAt (bytes : List UInt8) (index : ℕ) : UInt8 := bytes.getD index 0

def loadU16 (bytes : List UInt8) : UInt16 :=
  (byteAt bytes 0).toUInt16 ||| (byteAt bytes 1).toUInt16 <<< 8

def loadU32 (bytes : List UInt8) : UInt32 :=
  (byteAt bytes 0).toUInt32 ||| (byteAt bytes 1).toUInt32 <<< 8 |||
    (byteAt bytes 2).toUInt32 <<< 16 ||| (byteAt bytes 3).toUInt32 <<< 24

/-- The loop of `load_u64` and of `load_u64_le` (trajectory.c:27-34). -/
def loadU64 (bytes : List UInt8) : UInt64 :=
  (List.range 8).foldl
    (fun value index => value ||| (byteAt bytes index).toUInt64 <<< UInt64.ofNat (index * 8)) 0

def storeU16 (value : UInt16) : List UInt8 := [value.toUInt8, (value >>> 8).toUInt8]

/-- `memcpy` of 32 bytes. -/
def loadDigest (bytes : List UInt8) : Digest256 :=
  BitVec.ofNat 256 (ofLittleEndian (bytes.take 32).reverse)

/-- `memcpy` of 16 bytes. -/
def loadId (bytes : List UInt8) : Id128 :=
  BitVec.ofNat 128 (ofLittleEndian (bytes.take 16).reverse)

/-- `carrier_store`, and the loop over the components of a centroid. -/
def storeDoubles (values : Fin 4 → UInt64) : List UInt8 :=
  (List.finRange 4).flatMap fun index => u64Bytes (values index)

/-- `carrier_load`, and the loop over the components of a centroid. -/
def loadDoubles (bytes : List UInt8) : Fin 4 → UInt64 := fun index =>
  loadU64 (bytes.drop (index * 8))

/-! ## The stores are those of the layouts -/

theorem storeU16_eq (value : UInt16) : storeU16 value = word16.store value := by
  change [_, _] = littleEndian 2 value.toNat
  simp only [littleEndian_eq_map, List.range_succ, List.range_zero, List.nil_append,
    List.cons_append, List.map_cons, List.map_nil, List.cons.injEq, and_true]
  constructor <;> rw [← UInt8.toNat_inj] <;> simp [Nat.shiftRight_eq_div_pow]

theorem u32Bytes_eq (value : UInt32) : u32Bytes value = word32.store value := by
  change [_, _, _, _] = littleEndian 4 value.toNat
  simp only [littleEndian_eq_map, List.range_succ, List.range_zero, List.nil_append,
    List.cons_append, List.map_cons, List.map_nil, List.cons.injEq, and_true]
  refine ⟨?_, ?_, ?_, ?_⟩ <;> rw [← UInt8.toNat_inj] <;> simp [Nat.shiftRight_eq_div_pow]

theorem u64Bytes_eq (value : UInt64) : u64Bytes value = word64.store value := by
  change _ = littleEndian 8 value.toNat
  rw [littleEndian_eq_map, u64Bytes]
  refine List.map_congr_left fun index hindex => ?_
  have hlt : index < 8 := List.mem_range.1 hindex
  have hshift : (UInt64.ofNat (index * 8)).toNat = index * 8 :=
    Checked.toNat_ofNat (by omega)
  have hpow : 2 ^ (index * 8) = 256 ^ index := by rw [Nat.mul_comm, Nat.pow_mul]
  rw [← UInt8.toNat_inj, UInt64.toNat_toUInt8, UInt64.toNat_shiftRight, hshift,
    Nat.mod_eq_of_lt (show index * 8 < 64 by omega), UInt8.toNat_ofNat',
    Nat.shiftRight_eq_div_pow, hpow]

theorem bigEndianBytes_eq (count value : ℕ) :
    bigEndianBytes count value = (littleEndian count value).reverse := by
  rw [littleEndian_eq_map]
  refine List.ext_getElem (by simp [bigEndianBytes]) fun index hleft hright => ?_
  simp [bigEndianBytes, Nat.shiftRight_eq_div_pow, Nat.pow_mul]

theorem digest_bytes_eq (digest : Digest256) : digest.bytes = (bits 32).store digest :=
  bigEndianBytes_eq 32 _

theorem id_bytes_eq (id : Id128) : id.bytes = (bits 16).store id := bigEndianBytes_eq 16 _

theorem storeDoubles_eq (values : Fin 4 → UInt64) :
    storeDoubles values = word64.four.store values := by
  have hindices : List.finRange 4 = [0, 1, 2, 3] := rfl
  rw [storeDoubles, hindices]
  simp only [List.flatMap_cons, List.flatMap_nil, List.append_nil, u64Bytes_eq]
  rfl

/-! ## A field is told apart from what follows it -/

theorem u16_append_inj {left right : UInt16} {rest rest' : List UInt8} :
    storeU16 left ++ rest = storeU16 right ++ rest' ↔ left = right ∧ rest = rest' := by
  rw [storeU16_eq, storeU16_eq, store_append_inj]

theorem u32_append_inj {left right : UInt32} {rest rest' : List UInt8} :
    u32Bytes left ++ rest = u32Bytes right ++ rest' ↔ left = right ∧ rest = rest' := by
  rw [u32Bytes_eq, u32Bytes_eq, store_append_inj]

theorem u64_append_inj {left right : UInt64} {rest rest' : List UInt8} :
    u64Bytes left ++ rest = u64Bytes right ++ rest' ↔ left = right ∧ rest = rest' := by
  rw [u64Bytes_eq, u64Bytes_eq, store_append_inj]

theorem digest_append_inj {left right : Digest256} {rest rest' : List UInt8} :
    left.bytes ++ rest = right.bytes ++ rest' ↔ left = right ∧ rest = rest' := by
  rw [digest_bytes_eq, digest_bytes_eq, store_append_inj]

theorem u32Bytes_inj {left right : UInt32} : u32Bytes left = u32Bytes right ↔ left = right := by
  rw [u32Bytes_eq, u32Bytes_eq, word32.store_injective.eq_iff]

/-! ## The loads are those of the layouts -/

theorem ofLittleEndian_take_succ (bytes : List UInt8) (count : ℕ) :
    ofLittleEndian (bytes.take (count + 1)) =
      ofLittleEndian (bytes.take count) + 256 ^ count * (byteAt bytes count).toNat := by
  rcases Nat.lt_or_ge count bytes.length with hlt | hge
  · have hbyte : byteAt bytes count = bytes[count] := by simp [byteAt, hlt]
    rw [List.take_succ_eq_append_getElem hlt, ofLittleEndian_append, List.length_take,
      Nat.min_eq_left hlt.le, hbyte]
    simp
  · have hbyte : byteAt bytes count = 0 := by simp [byteAt, hge]
    rw [List.take_of_length_le hge, List.take_of_length_le (Nat.le_succ_of_le hge), hbyte]
    simp

theorem ofLittleEndian_take_lt (bytes : List UInt8) (count : ℕ) :
    ofLittleEndian (bytes.take count) < 2 ^ (8 * count) := by
  rw [Nat.pow_mul]
  exact (ofLittleEndian_lt _).trans_le
    (Nat.pow_le_pow_right (by decide) (by rw [List.length_take]; omega))

theorem or_shiftLeft (bytes : List UInt8) (count : ℕ) :
    ofLittleEndian (bytes.take count) ||| (byteAt bytes count).toNat <<< (8 * count) =
      ofLittleEndian (bytes.take (count + 1)) := by
  rw [ofLittleEndian_take_succ, Nat.or_comm,
    ← Nat.shiftLeft_add_eq_or_of_lt (ofLittleEndian_take_lt bytes count), Nat.shiftLeft_eq,
    Nat.pow_mul, Nat.mul_comm, Nat.add_comm]

theorem shiftLeft_mod (bytes : List UInt8) {index width : ℕ} (h : 8 * index + 8 ≤ width) :
    (byteAt bytes index).toNat <<< (8 * index) % 2 ^ width =
      (byteAt bytes index).toNat <<< (8 * index) := by
  have hbyte := (byteAt bytes index).toNat_lt
  refine Nat.mod_eq_of_lt ?_
  calc (byteAt bytes index).toNat <<< (8 * index)
      = (byteAt bytes index).toNat * 2 ^ (8 * index) := Nat.shiftLeft_eq _ _
    _ < 2 ^ 8 * 2 ^ (8 * index) := Nat.mul_lt_mul_of_pos_right hbyte (by positivity)
    _ = 2 ^ (8 * index + 8) := by rw [← Nat.pow_add, Nat.add_comm]
    _ ≤ 2 ^ width := Nat.pow_le_pow_right (by decide) h

theorem loadU16_eq (bytes : List UInt8) : loadU16 bytes = word16.load bytes := by
  have hnumber : (loadU16 bytes).toNat = ofLittleEndian (bytes.take 2) := by
    rw [← or_shiftLeft bytes 1, ← or_shiftLeft bytes 0,
      ← @shiftLeft_mod bytes 1 16 (by decide)]
    simp [loadU16]
  rw [← UInt16.toNat_inj, hnumber]
  exact (UInt16.toNat_ofNat_of_lt' (ofLittleEndian_take_lt bytes 2)).symm

theorem loadU32_eq (bytes : List UInt8) : loadU32 bytes = word32.load bytes := by
  have hnumber : (loadU32 bytes).toNat = ofLittleEndian (bytes.take 4) := by
    rw [← or_shiftLeft bytes 3, ← or_shiftLeft bytes 2, ← or_shiftLeft bytes 1,
      ← or_shiftLeft bytes 0, ← @shiftLeft_mod bytes 1 32 (by decide),
      ← @shiftLeft_mod bytes 2 32 (by decide),
      ← @shiftLeft_mod bytes 3 32 (by decide)]
    simp [loadU32]
  rw [← UInt32.toNat_inj, hnumber]
  exact (UInt32.toNat_ofNat_of_lt' (ofLittleEndian_take_lt bytes 4)).symm

/-- The value after the first `count` rounds of the loop. -/
theorem foldl_loadU64 (bytes : List UInt8) : ∀ {count : ℕ}, count ≤ 8 → ((List.range count).foldl
      (fun value index => value ||| (byteAt bytes index).toUInt64 <<< UInt64.ofNat (index * 8))
      (0 : UInt64)).toNat = ofLittleEndian (bytes.take count)
  | 0, _ => rfl
  | count + 1, h => by
    have hshift : (UInt64.ofNat (count * 8)).toNat = 8 * count := by
      rw [Checked.toNat_ofNat (by omega), Nat.mul_comm]
    rw [List.range_succ, List.foldl_append, List.foldl_cons, List.foldl_nil, UInt64.toNat_or,
      foldl_loadU64 bytes (by omega), UInt64.toNat_shiftLeft, hshift,
      Nat.mod_eq_of_lt (show 8 * count < 64 by omega), UInt8.toNat_toUInt64,
      shiftLeft_mod bytes (by omega), or_shiftLeft]

theorem loadU64_eq (bytes : List UInt8) : loadU64 bytes = word64.load bytes := by
  rw [← UInt64.toNat_inj, loadU64, foldl_loadU64 bytes le_rfl]
  exact (Checked.toNat_ofNat (ofLittleEndian_take_lt bytes 8)).symm

theorem loadDigest_eq (bytes : List UInt8) : loadDigest bytes = (bits 32).load bytes := by
  change _ = BitVec.ofNat 256 (ofLittleEndian ((bytes.take 32).reverse.take 32))
  rw [List.take_of_length_le (by rw [List.length_reverse, List.length_take]; omega), loadDigest]

theorem loadId_eq (bytes : List UInt8) : loadId bytes = (bits 16).load bytes := by
  change _ = BitVec.ofNat 128 (ofLittleEndian ((bytes.take 16).reverse.take 16))
  rw [List.take_of_length_le (by rw [List.length_reverse, List.length_take]; omega), loadId]

theorem loadDoubles_eq (bytes : List UInt8) : loadDoubles bytes = word64.four.load bytes := by
  funext index
  rw [loadDoubles, loadU64_eq]
  fin_cases index
  · rfl
  · rfl
  · change _ = word64.load ((bytes.drop 8).drop 8)
    rw [List.drop_drop]
    rfl
  · change _ = word64.load (((bytes.drop 8).drop 8).drop 8)
    rw [List.drop_drop, List.drop_drop]
    rfl

end Laplace
