import Laplace.Fields
import Laplace.Lib.Checked

/-!
# The trajectory carrier (trajectory.c:43-278)

A carrier holds 212 bits in the sign and fraction bits of four `double`s whose exponent is fixed.
A slot is the pattern of its `double`.
-/

namespace Laplace.Trajectory

open Checked

/-- `laplace_trajectory_status` -/
inductive Status
  | ok | invalidArgument | metadataOutOfRange | invalidCarrier | zeroRun | ordinalMismatch
  | capacityInsufficient | countOverflow
deriving DecidableEq, Repr

scoped instance neZero_four : NeZero 4 := ⟨by decide⟩

/-- `laplace_trajectory_carrier` -/
abbrev Carrier := Fin 4 → UInt64

/-- `laplace_trajectory_payload` -/
structure Payload where
  lane128 : Id128
  ordinal : UInt16
  runLength : UInt16
  metadata : UInt64
deriving DecidableEq

/-- `laplace_composition_occurrence` -/
structure CompositionOccurrence where
  entityId : Id128
  logicalOrdinal : UInt64
  metadata : UInt64
  atom : UInt32
  packedOrdinal : UInt16
  runLength : UInt16
  tier : UInt8
  hasAtom : UInt8
deriving DecidableEq

/-- After `memset`. -/
def CompositionOccurrence.zero : CompositionOccurrence := ⟨0, 0, 0, 0, 0, 0, 0, 0⟩

def mantissaMask : UInt64 := 0x000fffffffffffff
def slotPayloadMask : UInt64 := 0x001fffffffffffff
def exponentMask : UInt64 := 0x7ff
def low11Mask : UInt64 := 0x7ff
def low21Mask : UInt64 := 0x1fffff
def low22Mask : UInt64 := 0x3fffff
def low31Mask : UInt64 := 0x7fffffff
def low42Mask : UInt64 := 0x3ffffffffff
def low16Mask : UInt64 := 0xffff
def signMask : UInt64 := 1

/-- `LAPLACE_TRAJECTORY_BINARY64_EXPONENT` -/
def binary64Exponent : UInt64 := 1023

/-- `LAPLACE_TRAJECTORY_TIER_MASK` -/
def tierMask : UInt64 := 31

/-- `METADATA_MASK` -/
def metadataMask : UInt64 := 0x000fffffffffffff

def payloadSlotToDouble (payload : UInt64) : UInt64 :=
  (((payload >>> 52) &&& signMask) <<< 63) ||| (binary64Exponent <<< 52) |||
    (payload &&& mantissaMask)

def doubleToPayloadSlot (value : UInt64) : Option UInt64 :=
  let exponent := (value >>> 52) &&& exponentMask
  if exponent ≠ binary64Exponent then none
  else some ((((value >>> 63) &&& signMask) <<< 52) ||| (value &&& mantissaMask))

def carrierEncode (payload : Payload) : Except Status Carrier :=
  if payload.metadata &&& ~~~metadataMask ≠ 0 then .error .metadataOutOfRange
  else
    let highLane := loadU64 payload.lane128.bytes
    let lowLane := loadU64 (payload.lane128.bytes.drop 8)
    let slot0 := lowLane &&& slotPayloadMask
    let slot1 := ((lowLane >>> 53) &&& low11Mask) ||| ((highLane &&& low42Mask) <<< 11)
    let slot2 := ((highLane >>> 42) &&& low22Mask) ||| ((payload.metadata &&& low31Mask) <<< 22)
    let slot3 := payload.ordinal.toUInt64 ||| (payload.runLength.toUInt64 <<< 16) |||
      (((payload.metadata >>> 31) &&& low21Mask) <<< 32)
    .ok ![payloadSlotToDouble slot0, payloadSlotToDouble slot1, payloadSlotToDouble slot2,
      payloadSlotToDouble slot3]

def carrierDecode (carrier : Carrier) : Except Status Payload :=
  match doubleToPayloadSlot (carrier 0), doubleToPayloadSlot (carrier 1),
    doubleToPayloadSlot (carrier 2), doubleToPayloadSlot (carrier 3) with
  | some slot0, some slot1, some slot2, some slot3 =>
    let lowLane := (slot0 &&& slotPayloadMask) ||| ((slot1 &&& low11Mask) <<< 53)
    let highLane := ((slot1 >>> 11) &&& low42Mask) ||| ((slot2 &&& low22Mask) <<< 42)
    .ok
      { lane128 := loadId (u64Bytes highLane ++ u64Bytes lowLane)
        ordinal := (slot3 &&& low16Mask).toUInt16
        runLength := ((slot3 >>> 16) &&& low16Mask).toUInt16
        metadata := ((slot2 >>> 22) &&& low31Mask) |||
          (((slot3 >>> 32) &&& low21Mask) <<< 31) }
  | _, _, _, _ => .error .invalidCarrier

def metadataTier (metadata : UInt64) : UInt8 := ((metadata >>> 1) &&& tierMask).toUInt8

def metadataHasAtom (metadata : UInt64) : Bool := metadata &&& (signMask <<< 0) ≠ 0

def metadataAtom (metadata : UInt64) : UInt32 := ((metadata >>> 31) &&& low21Mask).toUInt32

/-- The ordinal that a carrier has room for. -/
def packedOrdinal (logicalOrdinal : UInt64) : UInt16 :=
  if logicalOrdinal ≤ 0xffff then logicalOrdinal.toUInt16 else 0

/-- `laplace_trajectory_composition_encode` -/
def compositionEncode (entityId : Id128) (logicalOrdinal : UInt64) (runLength : UInt16)
    (metadata : UInt64) : Except Status Carrier :=
  if logicalOrdinal = 0 then .error .invalidArgument
  else if runLength = 0 then .error .zeroRun
  else if maxWord - logicalOrdinal < runLength.toUInt64 - 1 then .error .countOverflow
  else carrierEncode ⟨entityId, packedOrdinal logicalOrdinal, runLength, metadata⟩

def compositionDecodeOne (carrier : Carrier) (logicalOrdinal : UInt64) :
    Except Status CompositionOccurrence :=
  if logicalOrdinal = 0 then .error .invalidArgument
  else
    match carrierDecode carrier with
    | .error status => .error status
    | .ok payload =>
      if payload.runLength = 0 then .error .zeroRun
      else if payload.ordinal ≠ packedOrdinal logicalOrdinal then .error .ordinalMismatch
      else if maxWord - logicalOrdinal < payload.runLength.toUInt64 - 1 then
        .error .countOverflow
      else
        .ok
          { entityId := payload.lane128
            logicalOrdinal := logicalOrdinal
            metadata := payload.metadata
            atom := metadataAtom payload.metadata
            packedOrdinal := payload.ordinal
            runLength := payload.runLength
            tier := metadataTier payload.metadata
            hasAtom := if metadataHasAtom payload.metadata then 1 else 0 }

/-- `validate_composition` from a carrier on: how many elements the carriers stand for. -/
def validateComposition : List Carrier → UInt64 → Except Status UInt64
  | [], logicalOrdinal => .ok (logicalOrdinal - 1)
  | carrier :: carriers, logicalOrdinal => do
    let occurrence ← compositionDecodeOne carrier logicalOrdinal
    if maxWord - logicalOrdinal < occurrence.runLength.toUInt64 then .error .countOverflow
    else validateComposition carriers (logicalOrdinal + occurrence.runLength.toUInt64)

/-- The loop of `laplace_trajectory_composition_decode`. -/
def decodeOccurrences : List Carrier → UInt64 → Except Status (List CompositionOccurrence)
  | [], _ => .ok []
  | carrier :: carriers, logicalOrdinal => do
    let occurrence ← compositionDecodeOne carrier logicalOrdinal
    let occurrences ←
      decodeOccurrences carriers (logicalOrdinal + occurrence.runLength.toUInt64)
    return occurrence :: occurrences

/-- `laplace_trajectory_composition_decode` -/
def compositionDecode (carriers : List Carrier) (occurrenceCapacity : ℕ) :
    Except Status (List CompositionOccurrence × UInt64) :=
  if occurrenceCapacity < carriers.length then .error .capacityInsufficient
  else do
    let total ← validateComposition carriers 1
    let occurrences ← decodeOccurrences carriers 1
    return (occurrences, total)

/-- What a carrier must hold to be read at an ordinal. -/
structure ReadsAt (carrier : Carrier) (logicalOrdinal runLength : ℕ) : Prop where
  payload : ∃ payload, carrierDecode carrier = .ok payload ∧ payload.runLength.toNat = runLength ∧
    payload.ordinal.toNat = if logicalOrdinal < 65536 then logicalOrdinal else 0
  nonempty : runLength ≠ 0
  bounded : logicalOrdinal + runLength ≤ 2 ^ 64

theorem packedOrdinal_toNat (logicalOrdinal : UInt64) : (packedOrdinal logicalOrdinal).toNat =
    if logicalOrdinal.toNat < 65536 then logicalOrdinal.toNat else 0 := by
  rw [packedOrdinal]
  by_cases h : logicalOrdinal ≤ 0xffff
  · have hle : logicalOrdinal.toNat ≤ 65535 := UInt64.le_iff_toNat_le.1 h
    rw [if_pos h, if_pos (by omega), UInt64.toNat_toUInt16, Nat.mod_eq_of_lt (by omega)]
  · have hgt : ¬ logicalOrdinal.toNat ≤ 65535 := fun hle => h (UInt64.le_iff_toNat_le.2 hle)
    rw [if_neg h, if_neg (by omega), UInt16.toNat_zero]

theorem compositionDecodeOne_ok {carrier : Carrier} {logicalOrdinal : UInt64}
    {occurrence : CompositionOccurrence}
    (h : compositionDecodeOne carrier logicalOrdinal = .ok occurrence) :
    ReadsAt carrier logicalOrdinal.toNat occurrence.runLength.toNat := by
  unfold compositionDecodeOne at h
  by_cases hzero : logicalOrdinal = 0
  · rw [if_pos hzero] at h
    cases h
  rw [if_neg hzero] at h
  cases hdecode : carrierDecode carrier with
  | error status =>
    rw [hdecode] at h
    cases h
  | ok payload =>
    simp only [hdecode] at h
    by_cases hrun : payload.runLength = 0
    · rw [if_pos hrun] at h
      cases h
    by_cases hordinal : payload.ordinal ≠ packedOrdinal logicalOrdinal
    · rw [if_neg hrun, if_pos hordinal] at h
      cases h
    by_cases hbound : maxWord - logicalOrdinal < payload.runLength.toUInt64 - 1
    · rw [if_neg hrun, if_neg hordinal, if_pos hbound] at h
      cases h
    rw [if_neg hrun, if_neg hordinal, if_neg hbound] at h
    cases h
    have hpositive : payload.runLength.toNat ≠ 0 := fun h0 => hrun (UInt16.toNat_inj.1 h0)
    have hmax := logicalOrdinal.toNat_lt
    have hone : (1 : UInt64).toNat = 1 := rfl
    rw [UInt64.lt_iff_toNat_lt, toNat_sub_of_le (by rw [toNat_maxWord]; omega),
      toNat_sub_of_le (by rw [UInt16.toNat_toUInt64, hone]; omega), hone,
      UInt16.toNat_toUInt64, toNat_maxWord] at hbound
    exact
      { payload := ⟨payload, hdecode, rfl, by
          rw [not_not.1 hordinal, packedOrdinal_toNat]⟩
        nonempty := hpositive
        bounded := by
          change logicalOrdinal.toNat + payload.runLength.toNat ≤ 2 ^ 64
          omega }

end Laplace.Trajectory
