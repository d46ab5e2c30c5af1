import Laplace.Target.Totality
import Laplace.Cognition.PacketReads

/-!
# Where the decoders of packets do harm

The decoder of requests compares the four counts of a request with what a `std::size_t` can hold,
and not with what is left of the input. Behind an accepted head, they are the lengths of the tables.
-/

namespace Laplace.Cognition.Packet

open Packets Reader Routine

theorem sound_readOperatorProgram (bytes : List UInt8) : readOperatorProgram.Sound bytes := by
  unfold readOperatorProgram
  simp

theorem sound_readSolverProgram (bytes : List UInt8) : readSolverProgram.Sound bytes := by
  unfold readSolverProgram
  simp

theorem sound_readField (bytes : List UInt8) : readField.Sound bytes := by
  unfold readField
  simp

theorem sound_readStandingState (bytes : List UInt8) : readStandingState.Sound bytes := by
  unfold readStandingState
  simp

theorem sound_readConstraintBase (bytes : List UInt8) : readConstraintBase.Sound bytes := by
  unfold readConstraintBase
  simp

theorem sound_readConstraint (version : UInt32) (bytes : List UInt8) :
    (readConstraint version).Sound bytes := by
  unfold readConstraint
  refine sound_bind.2 ⟨sound_readConstraintBase bytes, fun constraint rest _ => ?_⟩
  split
  · exact sound_pure ..
  · exact sound_require_then.2 fun _ =>
      sound_bind.2 ⟨sound_readStandingState _, fun _ _ _ => sound_pure ..⟩

theorem sound_readHead (bytes : List UInt8) : readHead.Sound bytes := by
  unfold readHead
  simp [sound_readOperatorProgram, sound_readSolverProgram]

/-- Every count is bounded by what is left, and by what a vector can hold. -/
structure RequestCounts.Bounded (counts : RequestCounts) (left : ℕ) : Prop where
  families : counts.families.toNat ≤ left ∧ counts.families.toNat ≤ maxSize familyObjectBytes
  fields : counts.fields.toNat ≤ left ∧ counts.fields.toNat ≤ maxSize fieldObjectBytes
  constraints : counts.constraints.toNat ≤ left ∧
    counts.constraints.toNat ≤ maxSize constraintObjectBytes
  initialStates : counts.initialStates.toNat ≤ left ∧ counts.initialStates.toNat ≤ maxSize 8

theorem sound_readTables {version : UInt32} {counts : RequestCounts} {bytes : List UInt8} :
    (readTables version counts).Sound bytes ↔ counts.Bounded bytes.length := by
  have hmany {α : Type} {routine : Routine PacketStatus α} (h : ∀ bytes, routine.Sound bytes)
      (count : ℕ) (left : List UInt8) : (many routine count).Sound left :=
    @sound_many _ _ _ left.length (fun _ _ => h _) count _ le_rfl
  unfold readTables
  rw [sound_resize_then, sound_resize_then, sound_resize_then,
    sound_resize_then]
  simp only [sound_bind, hmany (sound_u32 _), hmany sound_readField,
    hmany (sound_readConstraint version), hmany (sound_u64 _), sound_pure, implies_true,
    and_true]
  constructor
  · rintro ⟨h₁, h₂, h₃, h₄, h₅, h₆, h₇, h₈⟩
    exact ⟨⟨h₁, h₂⟩, ⟨h₃, h₄⟩, ⟨h₅, h₆⟩, h₇, h₈⟩
  · rintro ⟨⟨h₁, h₂⟩, ⟨h₃, h₄⟩, ⟨h₅, h₆⟩, h₇, h₈⟩
    exact ⟨h₁, h₂, h₃, h₄, h₅, h₆, h₇, h₈⟩

/-- The inputs that the decoder can bear: the counts of an accepted head are bounded by what is left
behind it. -/
def Bearable (input : List UInt8) : Prop :=
  ∀ head rest, HeadFits head → input = headWritten head ++ rest → head.2.1.Bounded rest.length

theorem sound_decodeRequest {input : List UInt8} :
    decodeRequest.Sound input ↔ Bearable input := by
  have hlast (decoded : DecodedRequest) (bytes : List UInt8) :
      (do
        let left ← remaining
        require (left = 0) PacketStatus.invalidRequest
        return decoded : Routine PacketStatus DecodedRequest).Sound bytes := by
    rw [sound_remaining_then, sound_require_then]
    exact fun _ => sound_pure ..
  unfold decodeRequest
  rw [sound_remaining_then, sound_require_then, sound_bind,
    and_iff_right (sound_readHead input)]
  constructor
  · intro h head rest hfits hinput
    subst hinput
    have hnonempty : (headWritten head ++ rest).length ≠ 0 := fun h =>
      headWritten_ne_nil head (List.append_eq_nil_iff.1 (List.length_eq_zero_iff.1 h)).1
    have htables := h hnonempty head rest (reads_head.accepts head rest hfits)
    exact sound_readTables.1 (sound_bind.1 htables).1
  · intro h _ head rest hrun
    obtain ⟨hfits, hinput⟩ := reads_head.canonical _ _ _ hrun
    exact sound_bind.2 ⟨sound_readTables.2 (h head rest hfits hinput),
      fun _ _ _ => hlast _ _⟩

theorem sound_requiredResultBytes {input : List UInt8} :
    requiredResultBytes.Sound input ↔ Bearable input := by
  unfold requiredResultBytes
  rw [sound_bind, sound_decodeRequest]
  refine and_iff_left fun decoded rest _ => ?_
  split <;> trivial

theorem sound_canonicalRequest {words : List UInt32}
    (hobject : words.length * 4 ≤ objectLimit) :
    (canonicalRequest words.length).Sound (wordsToBytes words) ↔ Bearable (wordsToBytes words) := by
  unfold canonicalRequest
  rw [sound_require_then, sound_require_then, sound_resize_then,
    sound_requiredResultBytes, wordsToBytes_length]
  have hlimit : objectLimit ≤ sizeMax := by decide
  have hmax : words.length * 4 ≤ maxSize 1 := hobject
  constructor
  · intro h head rest hfits hinput
    have hnonempty : words.length ≠ 0 := fun hzero => by
      rw [List.length_eq_zero_iff.1 hzero] at hinput
      exact headWritten_ne_nil head (List.append_eq_nil_iff.1 hinput.symm).1
    refine (h hnonempty ?_).2.2 head rest hfits hinput
    rw [Nat.le_div_iff_mul_le (by decide)]
    omega
  · exact fun h _ _ => ⟨le_rfl, hmax, h⟩

end Laplace.Cognition.Packet

namespace Laplace.Packets

open Routine Target

variable {blake3 : Blake3}

/-- **Where the decoders do no harm.** The input of each is an object in memory. -/
theorem decoders_total_iff {input : List UInt8} (hobject : input.length ≤ objectLimit) :
    ((decode blake3 input).Total input ↔ Bearable blake3 input) ∧
    (Cognition.Packet.decodeRequest.Total input ↔ Cognition.Packet.Bearable input) ∧
    ∀ words, Cognition.Packet.wordsToBytes words = input →
      ((Cognition.Packet.canonicalRequest words.length).Total input ↔
        Cognition.Packet.Bearable input) := by
  refine ⟨decode_total_iff hobject,
    total_iff.trans Cognition.Packet.sound_decodeRequest, ?_⟩
  rintro words rfl
  rw [Cognition.Packet.wordsToBytes_length] at hobject
  exact total_iff.trans (Cognition.Packet.sound_canonicalRequest hobject)

/-! ### Inputs that are borne and inputs that are not -/

/-- The compile receipt of `2 ^ 63` slots, which is all there is behind the header. -/
def countedPackage : List UInt8 :=
  let receipt : CompileReceipt :=
    { oneFieldReceipt [0] 1 with slotCount := 0x8000000000000000 }
  packageWritten sumHash receipt []

/-- A slot of no fields. -/
def emptySlot : SlotReceipt :=
  { oneFieldSlot 0 with fieldCount := 0, matrixValueCount := 0, rhsValueCount := 0 }

def emptySlotPackage : List UInt8 :=
  packageWritten sumHash (oneFieldReceipt [0] 1) [(emptySlot, [], [])]

/-- The head of a request for `2 ^ 61` families, which is all there is. -/
def countedRequest : List UInt8 :=
  Cognition.Packet.headWritten (Cognition.Packet.packetVersionV1, ⟨0x2000000000000000, 1, 1, 1⟩,
    ⟨0, 0, 0, 0, 0, [], 0, 0, 0, 0, 0⟩, ⟨0, 0, 0, 0, 0, 0, 0, 0, 0, 0, 0⟩)

theorem decoders_not_total :
    ¬ (decode sumHash countedPackage).Total countedPackage ∧
      ¬ (decode sumHash emptySlotPackage).Total emptySlotPackage ∧
      ¬ Cognition.Packet.decodeRequest.Total countedRequest := by
  simp only [total_iff]
  exact ⟨by decide +kernel, by decide +kernel, by decide +kernel⟩

/-- The package of two slots with a field each is borne, and that of a slot without fields is not. -/
theorem emptySlotPackage_not_bearable :
    Bearable sumHash (packageWritten sumHash
      (oneFieldReceipt [0, 1] 1) (oneFieldRows [0, 1])) ∧
    ¬ Bearable sumHash emptySlotPackage := by
  constructor
  · refine (decoders_total_iff ?_).1.1 (total_iff.2 ?_) <;> decide +kernel
  · refine mt (decoders_total_iff ?_).1.2 (mt total_iff.1 ?_) <;> decide +kernel

end Laplace.Packets
