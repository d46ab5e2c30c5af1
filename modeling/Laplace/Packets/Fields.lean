import Laplace.Fields
import Laplace.Lib.Routine

/-!
# Fields of packets (target_package.inc:95-150, cognition_packet.cpp:29-80)

The readers of the packets are of one shape: a field is its bytes, taken only where there are so
many left. A `double` is its 64-bit pattern.
-/

namespace Laplace.Packets

variable {ε : Type} (short : ε)

/-- `Bytes` -/
def bytes (count : ℕ) : Routine ε (List UInt8) := .load count id short

/-- `U32` -/
def u32 : Routine ε UInt32 := .load 4 loadU32 short

/-- `U64`, and `F64` -/
def u64 : Routine ε UInt64 := .load 8 loadU64 short

/-- `Digest` -/
def digest : Routine ε Digest256 := .load 32 loadDigest short

/-- `Id` -/
def identity : Routine ε Id128 := .load 16 loadId short

open Reader (Reads reads_load)

variable {short}

theorem reads_bytes (count : ℕ) :
    Reads (bytes short count).reader (fun value => value) fun value => value.length = count := by
  change Reads (Reader.take count >>= Pure.pure) _ _
  rw [bind_pure]
  exact Reader.reads_take count

theorem reads_u32 : Reads (u32 short).reader u32Bytes fun _ => True :=
  reads_load Layout.word32 loadU32_eq u32Bytes_eq

theorem reads_u64 : Reads (u64 short).reader u64Bytes fun _ => True :=
  reads_load Layout.word64 loadU64_eq u64Bytes_eq

theorem reads_digest : Reads (digest short).reader Digest256.bytes fun _ => True :=
  reads_load (Layout.bits 32) loadDigest_eq digest_bytes_eq

theorem reads_identity : Reads (identity short).reader Id128.bytes fun _ => True :=
  reads_load (Layout.bits 16) loadId_eq id_bytes_eq

variable (short)

@[simp] theorem sound_bytes (count : ℕ) (input : List UInt8) : (bytes short count).Sound input :=
  fun _ => trivial

@[simp] theorem sound_u32 (input : List UInt8) : (u32 short).Sound input := fun _ => trivial

@[simp] theorem sound_u64 (input : List UInt8) : (u64 short).Sound input := fun _ => trivial

@[simp] theorem sound_digest (input : List UInt8) : (digest short).Sound input := fun _ => trivial

@[simp] theorem sound_identity (input : List UInt8) : (identity short).Sound input := fun _ => trivial

@[simp] theorem u32Bytes_length (value : UInt32) : (u32Bytes value).length = 4 := rfl

@[simp] theorem u64Bytes_length (value : UInt64) : (u64Bytes value).length = 8 := by
  simp [u64Bytes]

theorem flatMap_u64_length (values : List UInt64) :
    (values.flatMap u64Bytes).length = 8 * values.length := by
  rw [List.length_flatMap]
  simp [Nat.mul_comm]

@[simp] theorem digestBytes_length (value : Digest256) : value.bytes.length = 32 := by
  simp [Digest256.bytes, bigEndianBytes]

@[simp] theorem idBytes_length (value : Id128) : value.bytes.length = 16 := by
  simp [Id128.bytes, bigEndianBytes]

theorem loadDigest_append (value : Digest256) (rest : List UInt8) :
    loadDigest (value.bytes ++ rest) = value := by
  rw [loadDigest_eq, digest_bytes_eq]
  exact (Layout.bits 32).load_store value rest

/-! ## Pieces that are written one after another -/

/-- The writers: a piece is written where there is room for it. -/
def writeAll (capacity : ℕ) : List (List UInt8) → List UInt8 → Option (List UInt8)
  | [], written => some written
  | piece :: pieces, written =>
    if piece.length > capacity - written.length then none
    else writeAll capacity pieces (written ++ piece)

theorem writeAll_eq {capacity : ℕ} : ∀ {pieces : List (List UInt8)} {written : List UInt8},
    (written ++ pieces.flatten).length ≤ capacity →
      writeAll capacity pieces written = some (written ++ pieces.flatten)
  | [], written, _ => by rw [writeAll, List.flatten_nil, List.append_nil]
  | piece :: pieces, written, h => by
    rw [List.flatten_cons, ← List.append_assoc] at h
    have hlength := h
    rw [List.length_append, List.length_append] at hlength
    rw [writeAll, if_neg (by omega), writeAll_eq h, List.flatten_cons, List.append_assoc]

theorem writeAll_some {capacity : ℕ} : ∀ {pieces : List (List UInt8)} {written result : List UInt8},
    writeAll capacity pieces written = some result → result = written ++ pieces.flatten
  | [], written, result, h => by
    cases h
    rw [List.flatten_nil, List.append_nil]
  | piece :: pieces, written, result, h => by
    rw [writeAll] at h
    split at h
    · cases h
    · rw [writeAll_some h, List.flatten_cons, List.append_assoc]

end Laplace.Packets
