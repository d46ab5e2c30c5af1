import Laplace.Lib.BitFields
import Laplace.Lib.Binary64
import Laplace.Trajectory.Carrier

/-!
# The carrier codec (trajectory.c:42-132)

A slot holds the numbers below 2^53: a `double` whose exponent is 1023 has as many sign and fraction
bits. `slotsOf` cuts a payload into four slots and `payloadOf` puts it together again; both are read
off as sums of fields, and the four slots hold exactly the payloads whose metadata is below 2^52.
-/

namespace Laplace.Trajectory

open BitFields Layout Binary64

/-! ## Slots and doubles -/

theorem payloadSlotToDouble_toNat {payload : UInt64} (h : payload.toNat < 2 ^ 53) :
    (payloadSlotToDouble payload).toNat =
      payload.toNat / 2 ^ 52 * 2 ^ 63 + 1023 * 2 ^ 52 + payload.toNat % 2 ^ 52 := by
  have hsign : ((payload >>> 52) &&& signMask).toNat = payload.toNat / 2 ^ 52 % 2 ^ 1 :=
    toNat_field 52 rfl rfl (by decide)
  have hmantissa : (payload &&& mantissaMask).toNat = payload.toNat % 2 ^ 52 := toNat_masked rfl
  have hlow : ((payload &&& mantissaMask) ||| (binary64Exponent <<< 52)).toNat =
      payload.toNat % 2 ^ 52 + 1023 * 2 ^ 52 := by
    rw [toNat_joined 52 rfl (by decide) (by omega) (by decide), hmantissa]
    rfl
  have horder : payloadSlotToDouble payload =
      ((payload &&& mantissaMask) ||| (binary64Exponent <<< 52)) |||
        (((payload >>> 52) &&& signMask) <<< 63) := by
    rw [payloadSlotToDouble, UInt64.or_assoc, UInt64.or_comm, UInt64.or_comm (binary64Exponent <<< 52)]
  rw [horder, toNat_joined 63 rfl (by decide) (by omega) (by omega), hsign, hlow]
  omega

variable {value slot : UInt64}

theorem doubleToPayloadSlot_eq_some : doubleToPayloadSlot value = some slot ↔
    exponent value = 1023 ∧ slot.toNat = value.toNat % 2 ^ 52 + value.toNat / 2 ^ 63 * 2 ^ 52 := by
  have hexponent : ((value >>> 52) &&& exponentMask).toNat = exponent value :=
    toNat_field 52 rfl rfl (by decide)
  have hsign : ((value >>> 63) &&& signMask).toNat = value.toNat / 2 ^ 63 % 2 ^ 1 :=
    toNat_field 63 rfl rfl (by decide)
  have hmantissa : (value &&& mantissaMask).toNat = value.toNat % 2 ^ 52 := toNat_masked rfl
  have hslot : ((((value >>> 63) &&& signMask) <<< 52) ||| (value &&& mantissaMask)).toNat =
      value.toNat % 2 ^ 52 + value.toNat / 2 ^ 63 * 2 ^ 52 := by
    have hlt := value.toNat_lt
    rw [UInt64.or_comm, toNat_joined 52 rfl (by decide) (by omega) (by omega), hsign, hmantissa]
    omega
  have hof : (value >>> 52) &&& exponentMask = binary64Exponent ↔
      exponent value = 1023 := by
    rw [← UInt64.toNat_inj, hexponent]
    rfl
  unfold doubleToPayloadSlot
  dsimp only
  by_cases h : exponent value = 1023
  · rw [if_neg (not_not.2 (hof.2 h)), Option.some.injEq, ← UInt64.toNat_inj, hslot]
    exact ⟨fun heq => ⟨h, heq.symm⟩, fun heq => heq.2.symm⟩
  · rw [if_pos (hof.not.2 h)]
    exact ⟨nofun, fun heq => absurd heq.1 h⟩

theorem exponent_double {payload : UInt64} (h : payload.toNat < 2 ^ 53) :
    exponent (payloadSlotToDouble payload) = 1023 := by
  rw [exponent, payloadSlotToDouble_toNat h]
  omega

theorem doubleToPayloadSlot_double {payload : UInt64} (h : payload.toNat < 2 ^ 53) :
    doubleToPayloadSlot (payloadSlotToDouble payload) = some payload := by
  refine doubleToPayloadSlot_eq_some.2 ⟨exponent_double h, ?_⟩
  rw [payloadSlotToDouble_toNat h]
  omega

theorem doubleToPayloadSlot_lt (h : doubleToPayloadSlot value = some slot) : slot.toNat < 2 ^ 53 := by
  have hlt := value.toNat_lt
  rw [(doubleToPayloadSlot_eq_some.1 h).2]
  omega

theorem payloadSlotToDouble_slot (h : doubleToPayloadSlot value = some slot) :
    payloadSlotToDouble slot = value := by
  obtain ⟨hexponent, hslot⟩ := doubleToPayloadSlot_eq_some.1 h
  have hlt := value.toNat_lt
  rw [← UInt64.toNat_inj, payloadSlotToDouble_toNat (doubleToPayloadSlot_lt h), hslot]
  rw [exponent] at hexponent
  omega

/-! ## Identities as two lanes -/

def highLane (id : Id128) : UInt64 := loadU64 id.bytes

def lowLane (id : Id128) : UInt64 := loadU64 (id.bytes.drop 8)

def ofLanes (high low : UInt64) : Id128 := loadId (u64Bytes high ++ u64Bytes low)

theorem ofLanes_bytes (high low : UInt64) : (ofLanes high low).bytes = u64Bytes high ++ u64Bytes low := by
  have hlength : (u64Bytes high ++ u64Bytes low).length = 16 := by
    rw [List.length_append, u64Bytes_eq, u64Bytes_eq, length_store, length_store]
    rfl
  rw [ofLanes, id_bytes_eq, loadId_eq, store_load _ _ hlength.ge]
  exact List.take_of_length_le hlength.le

theorem highLane_ofLanes (high low : UInt64) : highLane (ofLanes high low) = high := by
  rw [highLane, ofLanes_bytes, loadU64_eq, u64Bytes_eq, load_store]

theorem lowLane_ofLanes (high low : UInt64) : lowLane (ofLanes high low) = low := by
  have hdrop : (u64Bytes high ++ u64Bytes low).drop 8 = u64Bytes low :=
    List.drop_left' (by rw [u64Bytes_eq, length_store]; rfl)
  rw [lowLane, ofLanes_bytes, hdrop, loadU64_eq, u64Bytes_eq, load_store']

theorem ofLanes_lanes (id : Id128) : ofLanes (highLane id) (lowLane id) = id := by
  have hlength : id.bytes.length = 16 := by
    rw [id_bytes_eq, length_store]
    rfl
  have hbytes : u64Bytes (highLane id) ++ u64Bytes (lowLane id) = id.bytes := by
    rw [highLane, lowLane, u64Bytes_eq, u64Bytes_eq, loadU64_eq, loadU64_eq,
      store_load _ _ (by rw [hlength]; decide),
      store_load _ _ (by rw [List.length_drop, hlength]; decide)]
    change id.bytes.take 8 ++ (id.bytes.drop 8).take 8 = id.bytes
    rw [← List.take_add, List.take_of_length_le hlength.le]
  rw [ofLanes, hbytes, loadId_eq, id_bytes_eq, load_store']

/-! ## Payloads and slots -/

/-- The slots of `laplace_trajectory_carrier_encode`. -/
def slotsOf (payload : Payload) : Fin 4 → UInt64 :=
  ![lowLane payload.lane128 &&& slotPayloadMask, ((lowLane payload.lane128 >>> 53) &&& low11Mask) |||
      ((highLane payload.lane128 &&& low42Mask) <<< 11),
    ((highLane payload.lane128 >>> 42) &&& low22Mask) |||
      ((payload.metadata &&& low31Mask) <<< 22),
    payload.ordinal.toUInt64 ||| (payload.runLength.toUInt64 <<< 16) |||
      (((payload.metadata >>> 31) &&& low21Mask) <<< 32)]

/-- The payload of `laplace_trajectory_carrier_decode`. -/
def payloadOf (slots : Fin 4 → UInt64) : Payload where
  lane128 := ofLanes (((slots 1 >>> 11) &&& low42Mask) ||| ((slots 2 &&& low22Mask) <<< 42))
    ((slots 0 &&& slotPayloadMask) ||| ((slots 1 &&& low11Mask) <<< 53))
  ordinal := (slots 3 &&& low16Mask).toUInt16
  runLength := ((slots 3 >>> 16) &&& low16Mask).toUInt16
  metadata := ((slots 2 >>> 22) &&& low31Mask) ||| (((slots 3 >>> 32) &&& low21Mask) <<< 31)

theorem metadata_fits {metadata : UInt64} : metadata &&& ~~~metadataMask = 0 ↔ metadata.toNat < 2 ^ 52 := by
  have hmask : (metadata &&& metadataMask).toNat = metadata.toNat % 2 ^ 52 := toNat_masked rfl
  rw [and_not_eq_zero, ← UInt64.toNat_inj, hmask]
  omega

theorem carrierEncode_eq (payload : Payload) : carrierEncode payload =
    if payload.metadata.toNat < 2 ^ 52 then .ok fun index => payloadSlotToDouble (slotsOf payload index)
    else .error .metadataOutOfRange := by
  unfold carrierEncode
  by_cases h : payload.metadata.toNat < 2 ^ 52
  · rw [if_neg (not_not.2 (metadata_fits.2 h)), if_pos h]
    refine congrArg Except.ok (funext fun index => ?_)
    fin_cases index <;> rfl
  · rw [if_pos (metadata_fits.not.2 h), if_neg h]

variable {carrier : Carrier} {payload : Payload}

theorem carrierDecode_eq_ok : carrierDecode carrier = .ok payload ↔ ∃ slots : Fin 4 → UInt64,
      (∀ index, doubleToPayloadSlot (carrier index) = some (slots index)) ∧ payload = payloadOf slots := by
  constructor
  · intro h
    unfold carrierDecode at h
    split at h
    · rename_i slot0 slot1 slot2 slot3 h0 h1 h2 h3
      refine ⟨![slot0, slot1, slot2, slot3], fun index => ?_, (Except.ok.inj h).symm⟩
      fin_cases index <;> assumption
    · cases h
  · rintro ⟨slots, hslots, rfl⟩
    unfold carrierDecode
    rw [hslots 0, hslots 1, hslots 2, hslots 3]
    rfl

/-! ### The fields of the slots -/

section Fields

variable (payload : Payload)

theorem slotsOf_zero : (slotsOf payload 0).toNat = (lowLane payload.lane128).toNat % 2 ^ 53 :=
  toNat_masked rfl

theorem slotsOf_one : (slotsOf payload 1).toNat = (lowLane payload.lane128).toNat / 2 ^ 53 % 2 ^ 11 +
      (highLane payload.lane128).toNat % 2 ^ 42 * 2 ^ 11 := by
  have hlow : ((lowLane payload.lane128 >>> 53) &&& low11Mask).toNat =
      (lowLane payload.lane128).toNat / 2 ^ 53 % 2 ^ 11 := toNat_field 53 rfl rfl (by decide)
  have hhigh : (highLane payload.lane128 &&& low42Mask).toNat =
      (highLane payload.lane128).toNat % 2 ^ 42 := toNat_masked rfl
  change (_ ||| _ <<< _ : UInt64).toNat = _
  rw [toNat_joined 11 rfl (by decide) (by omega) (by omega), hlow, hhigh]

theorem slotsOf_two : (slotsOf payload 2).toNat = (highLane payload.lane128).toNat / 2 ^ 42 % 2 ^ 22 +
      payload.metadata.toNat % 2 ^ 31 * 2 ^ 22 := by
  have hlow : ((highLane payload.lane128 >>> 42) &&& low22Mask).toNat =
      (highLane payload.lane128).toNat / 2 ^ 42 % 2 ^ 22 := toNat_field 42 rfl rfl (by decide)
  have hhigh : (payload.metadata &&& low31Mask).toNat = payload.metadata.toNat % 2 ^ 31 :=
    toNat_masked rfl
  change (_ ||| _ <<< _ : UInt64).toNat = _
  rw [toNat_joined 22 rfl (by decide) (by omega) (by omega), hlow, hhigh]

theorem slotsOf_three : (slotsOf payload 3).toNat =
    payload.ordinal.toNat + payload.runLength.toNat * 2 ^ 16 +
      payload.metadata.toNat / 2 ^ 31 % 2 ^ 21 * 2 ^ 32 := by
  have hordinal := payload.ordinal.toNat_lt
  have hrun := payload.runLength.toNat_lt
  have hlow : (payload.ordinal.toUInt64 ||| (payload.runLength.toUInt64 <<< 16)).toNat =
      payload.ordinal.toNat + payload.runLength.toNat * 2 ^ 16 := by
    rw [toNat_joined 16 rfl (by decide) (by rw [UInt16.toNat_toUInt64]; omega)
      (by rw [UInt16.toNat_toUInt64]; omega), UInt16.toNat_toUInt64, UInt16.toNat_toUInt64]
  have hhigh : ((payload.metadata >>> 31) &&& low21Mask).toNat =
      payload.metadata.toNat / 2 ^ 31 % 2 ^ 21 := toNat_field 31 rfl rfl (by decide)
  change (_ ||| _ <<< _ : UInt64).toNat = _
  rw [toNat_joined 32 rfl (by decide) (by omega) (by omega), hlow, hhigh]

theorem slotsOf_lt (index : Fin 4) : (slotsOf payload index).toNat < 2 ^ 53 := by
  have hordinal := payload.ordinal.toNat_lt
  have hrun := payload.runLength.toNat_lt
  fin_cases index
  · exact (slotsOf_zero payload).trans_lt (by omega)
  · exact (slotsOf_one payload).trans_lt (by omega)
  · exact (slotsOf_two payload).trans_lt (by omega)
  · exact (slotsOf_three payload).trans_lt (by omega)

end Fields

/-! ### The payload of the slots -/

section Slots

variable {slots : Fin 4 → UInt64}

theorem payloadOf_lowLane : (lowLane (payloadOf slots).lane128).toNat =
      (slots 0).toNat % 2 ^ 53 + (slots 1).toNat % 2 ^ 11 * 2 ^ 53 := by
  have hlow : (slots 0 &&& slotPayloadMask).toNat = (slots 0).toNat % 2 ^ 53 := toNat_masked rfl
  have hhigh : (slots 1 &&& low11Mask).toNat = (slots 1).toNat % 2 ^ 11 := toNat_masked rfl
  rw [payloadOf, lowLane_ofLanes, toNat_joined 53 rfl (by decide) (by omega) (by omega), hlow, hhigh]

theorem payloadOf_highLane : (highLane (payloadOf slots).lane128).toNat =
      (slots 1).toNat / 2 ^ 11 % 2 ^ 42 + (slots 2).toNat % 2 ^ 22 * 2 ^ 42 := by
  have hlow : ((slots 1 >>> 11) &&& low42Mask).toNat = (slots 1).toNat / 2 ^ 11 % 2 ^ 42 :=
    toNat_field 11 rfl rfl (by decide)
  have hhigh : (slots 2 &&& low22Mask).toNat = (slots 2).toNat % 2 ^ 22 := toNat_masked rfl
  rw [payloadOf, highLane_ofLanes, toNat_joined 42 rfl (by decide) (by omega) (by omega), hlow, hhigh]

theorem payloadOf_ordinal : (payloadOf slots).ordinal.toNat = (slots 3).toNat % 2 ^ 16 := by
  have hfield : (slots 3 &&& low16Mask).toNat = (slots 3).toNat % 2 ^ 16 := toNat_masked rfl
  rw [payloadOf, UInt64.toNat_toUInt16, hfield, Nat.mod_mod]

theorem payloadOf_runLength : (payloadOf slots).runLength.toNat = (slots 3).toNat / 2 ^ 16 % 2 ^ 16 := by
  have hfield : ((slots 3 >>> 16) &&& low16Mask).toNat = (slots 3).toNat / 2 ^ 16 % 2 ^ 16 :=
    toNat_field 16 rfl rfl (by decide)
  rw [payloadOf, UInt64.toNat_toUInt16, hfield, Nat.mod_mod]

theorem payloadOf_metadata : (payloadOf slots).metadata.toNat =
    (slots 2).toNat / 2 ^ 22 % 2 ^ 31 + (slots 3).toNat / 2 ^ 32 % 2 ^ 21 * 2 ^ 31 := by
  have hlow : ((slots 2 >>> 22) &&& low31Mask).toNat = (slots 2).toNat / 2 ^ 22 % 2 ^ 31 :=
    toNat_field 22 rfl rfl (by decide)
  have hhigh : ((slots 3 >>> 32) &&& low21Mask).toNat = (slots 3).toNat / 2 ^ 32 % 2 ^ 21 :=
    toNat_field 32 rfl rfl (by decide)
  rw [payloadOf, toNat_joined 31 rfl (by decide) (by omega) (by omega), hlow, hhigh]

theorem payloadOf_metadata_lt : (payloadOf slots).metadata.toNat < 2 ^ 52 := by
  rw [payloadOf_metadata]
  omega

end Slots

theorem payload_ext {left right : Payload} (hlane : left.lane128 = right.lane128)
    (hordinal : left.ordinal = right.ordinal) (hrun : left.runLength = right.runLength)
    (hmetadata : left.metadata = right.metadata) : left = right := by
  cases left
  cases right
  simp_all

theorem payloadOf_slotsOf (h : payload.metadata.toNat < 2 ^ 52) :
    payloadOf (slotsOf payload) = payload := by
  have h0 := slotsOf_zero payload
  have h1 := slotsOf_one payload
  have h2 := slotsOf_two payload
  have h3 := slotsOf_three payload
  have hlow := (lowLane payload.lane128).toNat_lt
  have hhigh := (highLane payload.lane128).toNat_lt
  have hordinal := payload.ordinal.toNat_lt
  have hrun := payload.runLength.toNat_lt
  have hlanes : (payloadOf (slotsOf payload)).lane128 = payload.lane128 := by
    rw [← ofLanes_lanes (payloadOf (slotsOf payload)).lane128, ← ofLanes_lanes payload.lane128]
    have hhighs : highLane (payloadOf (slotsOf payload)).lane128 = highLane payload.lane128 := by
      rw [← UInt64.toNat_inj, payloadOf_highLane, h1, h2]
      omega
    have hlows : lowLane (payloadOf (slotsOf payload)).lane128 = lowLane payload.lane128 := by
      rw [← UInt64.toNat_inj, payloadOf_lowLane, h0, h1]
      omega
    rw [hhighs, hlows]
  have hordinals : (payloadOf (slotsOf payload)).ordinal = payload.ordinal := by
    rw [← UInt16.toNat_inj, payloadOf_ordinal, h3]
    omega
  have hruns : (payloadOf (slotsOf payload)).runLength = payload.runLength := by
    rw [← UInt16.toNat_inj, payloadOf_runLength, h3]
    omega
  have hmetadata : (payloadOf (slotsOf payload)).metadata = payload.metadata := by
    rw [← UInt64.toNat_inj, payloadOf_metadata, h2, h3]
    omega
  exact payload_ext hlanes hordinals hruns hmetadata

theorem slotsOf_payloadOf {slots : Fin 4 → UInt64} (h : ∀ index, (slots index).toNat < 2 ^ 53) :
    slotsOf (payloadOf slots) = slots := by
  have h0 := h 0
  have h1 := h 1
  have h2 := h 2
  have h3 := h 3
  funext index
  fin_cases index <;> rw [← UInt64.toNat_inj]
  · refine (slotsOf_zero _).trans ?_
    rw [payloadOf_lowLane]
    change _ = (slots 0).toNat
    omega
  · refine (slotsOf_one _).trans ?_
    rw [payloadOf_lowLane, payloadOf_highLane]
    change _ = (slots 1).toNat
    omega
  · refine (slotsOf_two _).trans ?_
    rw [payloadOf_highLane, payloadOf_metadata]
    change _ = (slots 2).toNat
    omega
  · refine (slotsOf_three _).trans ?_
    rw [payloadOf_ordinal, payloadOf_runLength, payloadOf_metadata]
    change _ = (slots 3).toNat
    omega

/-! ## The codec -/

theorem carrierEncode_ok : carrierEncode payload = .ok carrier ↔ payload.metadata.toNat < 2 ^ 52 ∧
      carrier = fun index => payloadSlotToDouble (slotsOf payload index) := by
  rw [carrierEncode_eq]
  split
  · rename_i h
    exact ⟨fun heq => ⟨h, (Except.ok.inj heq).symm⟩, fun heq => congrArg _ heq.2.symm⟩
  · rename_i h
    exact ⟨nofun, fun heq => absurd heq.1 h⟩

theorem carrierDecode_encode (h : carrierEncode payload = .ok carrier) :
    carrierDecode carrier = .ok payload := by
  obtain ⟨hmetadata, rfl⟩ := carrierEncode_ok.1 h
  exact carrierDecode_eq_ok.2 ⟨slotsOf payload,
    fun index => doubleToPayloadSlot_double (slotsOf_lt payload index),
    (payloadOf_slotsOf hmetadata).symm⟩

theorem carrierEncode_decode (h : carrierDecode carrier = .ok payload) :
    carrierEncode payload = .ok carrier := by
  obtain ⟨slots, hslots, rfl⟩ := carrierDecode_eq_ok.1 h
  refine carrierEncode_ok.2 ⟨payloadOf_metadata_lt, funext fun index => ?_⟩
  rw [slotsOf_payloadOf fun index => doubleToPayloadSlot_lt (hslots index)]
  exact (payloadSlotToDouble_slot (hslots index)).symm

theorem carrierEncode_finite (h : carrierEncode payload = .ok carrier) (index : Fin 4) :
    Binary64.Finite (carrier index) := by
  obtain ⟨-, rfl⟩ := carrierEncode_ok.1 h
  rw [Binary64.Finite, exponent_double (slotsOf_lt payload index)]
  decide

/-- **The carrier codec.** The encoder accepts the payloads whose metadata is below 2^52, the decoder
undoes the encoder and the encoder the decoder, and every encoded word is a finite `double`. -/
theorem carrier_codec (payload : Payload) :
    (payload.metadata.toNat < 2 ^ 52 → ∃ carrier, carrierEncode payload = .ok carrier ∧
      carrierDecode carrier = .ok payload ∧ ∀ index, Binary64.Finite (carrier index)) ∧
    ∀ carrier, carrierDecode carrier = .ok payload → carrierEncode payload = .ok carrier := by
  refine ⟨fun h => ?_, fun carrier h => carrierEncode_decode h⟩
  have hencode : carrierEncode payload = .ok _ := carrierEncode_ok.2 ⟨h, rfl⟩
  exact ⟨_, hencode, carrierDecode_encode hencode, carrierEncode_finite hencode⟩

/-- With every field as large as it gets. -/
theorem carrier_codec_full : ∃ carrier,
    carrierEncode ⟨0xFFFFFFFFFFFFFFFFFFFFFFFFFFFFFFFF, 0xFFFF, 0xFFFF, 0xFFFFFFFFFFFFF⟩ = .ok carrier ∧
    carrierDecode carrier = .ok ⟨0xFFFFFFFFFFFFFFFFFFFFFFFFFFFFFFFF, 0xFFFF, 0xFFFF, 0xFFFFFFFFFFFFF⟩ ∧
    ∀ index, Binary64.Finite (carrier index) :=
  (carrier_codec _).1 (by decide)

end Laplace.Trajectory
