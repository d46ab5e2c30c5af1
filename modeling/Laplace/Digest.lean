import Mathlib.Tactic

/-!
# Digests and the byte strings that are hashed

`laplace_digest256` (types.h) is an array of 32 bytes that the program compares with `memcmp`,
tests for zero and uses as a map key. Read as a big-endian number the byte order is the order of
the numbers, so a digest is a `BitVec 256` here. BLAKE3 is a third-party library: it stays a
parameter of type `Blake3`, and a `blake3_hasher` is the list of the bytes fed to it.
-/

namespace Laplace

abbrev Digest256 := BitVec 256

abbrev Blake3 := List UInt8 → Digest256

/-- `laplace_id128` (identity.h). -/
abbrev Id128 := BitVec 128

/-- The bytes of an array of `count` bytes, from its big-endian value. -/
def bigEndianBytes (count value : Nat) : List UInt8 :=
  (List.range count).map fun index => UInt8.ofNat (value >>> (8 * (count - 1 - index)))

def Digest256.bytes (digest : Digest256) : List UInt8 := bigEndianBytes 32 digest.toNat

def Id128.bytes (id : Id128) : List UInt8 := bigEndianBytes 16 id.toNat

/-- `HashU32`: the four bytes, least significant first. -/
def u32Bytes (value : UInt32) : List UInt8 :=
  [value.toUInt8, (value >>> 8).toUInt8, (value >>> 16).toUInt8, (value >>> 24).toUInt8]

/-- `HashU64`: the eight bytes, least significant first. -/
def u64Bytes (value : UInt64) : List UInt8 :=
  (List.range 8).map fun index => (value >>> UInt64.ofNat (index * 8)).toUInt8

/-- The characters of a domain string without the closing zero (`sizeof(DOMAIN) - 1`). -/
def domainBytes (domain : String) : List UInt8 := domain.toList.map fun c => UInt8.ofNat c.toNat

/-- The bytes as the digits of a number: a hash for closed instances. -/
def digits (bytes : List UInt8) : Digest256 :=
  BitVec.ofNat 256 (bytes.foldl (fun number byte => number * 257 + byte.toNat + 1) 0)

end Laplace
