import Laplace.Identity.Composite

/-!
# Highway coordinates (highway.c:124-199)

A key names something within an authority, a release and a name space. Its coordinate is the first
half of a digest of the key, and a second digest tells keys apart whose coordinates collide.
-/

namespace Laplace.Highway

/-- `laplace_highway_status`, as far as a calculation answers it. -/
inductive Status
  | ok | invalidArgument | unknownKind | zeroScope | zeroVersion | zeroCoordinate
deriving DecidableEq, Repr

/-- `laplace_highway_key` -/
structure Key where
  kind : UInt32
  reserved : UInt32
  authority : Id128
  release : Id128
  nameSpace : Id128
  localIdentifier : Id128
  version : UInt64
deriving DecidableEq

/-- `laplace_highway_coordinate` -/
structure Coordinate where
  coordinate : Id128
  collisionFingerprint : Digest256
  kind : UInt32
  reserved : UInt32
  version : UInt64
deriving DecidableEq

def kindGrammarSymbol : UInt32 := 1

/-- `laplace_highway_kind_valid`: the kinds of contracts/highway.json are numbered from 1 to 17. -/
def kindValid (kind : UInt32) : Bool := 1 ≤ kind ∧ kind ≤ 17

/-- `hash_key_payload` -/
def keyPayload (key : Key) : List UInt8 :=
  u32Bytes key.kind ++ key.authority.bytes ++ key.release.bytes ++ key.nameSpace.bytes ++
    key.localIdentifier.bytes ++ u64Bytes key.version

/-- `validate_key` -/
def validateKey (key : Key) : Status :=
  if key.reserved ≠ 0 then .invalidArgument
  else if !kindValid key.kind then .unknownKind
  else if key.authority = 0 ∨ key.release = 0 ∨ key.nameSpace = 0 ∨ key.localIdentifier = 0 then
    .zeroScope
  else if key.version = 0 then .zeroVersion
  else .ok

/-- `laplace_highway_coordinate_calculate` -/
def coordinateCalculate (blake3 : Blake3) (key : Key) : Except Status Coordinate :=
  match validateKey key with
  | .ok =>
    let coordinate := Identity.identityOf
      (blake3 (domainBytes "laplace-highway-coordinate-v1" ++ keyPayload key))
    let collisionFingerprint :=
      blake3 (domainBytes "laplace-highway-coordinate-fingerprint-v1" ++ keyPayload key)
    if coordinate = 0 then .error .zeroCoordinate
    else .ok ⟨coordinate, collisionFingerprint, key.kind, 0, key.version⟩
  | status => .error status

end Laplace.Highway
