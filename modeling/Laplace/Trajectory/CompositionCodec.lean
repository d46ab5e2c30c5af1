import Laplace.Trajectory.CarrierCodec
import Laplace.Lib.Outcome

/-!
# The composition codec (trajectory.c:134-278)

A composition is written run by run, each at the ordinal where it begins, and read in two passes:
one that checks every carrier, one that fills the caller's buffer. The passes ask for the same
carriers at the same ordinals, so the second cannot fail. Both the encoder and
`laplace_trajectory_composition_decode_one` let a run end at 2^64 - 1; `validate_composition` wants
the ordinal after it to be a `uint64_t` as well.
-/

namespace Laplace.Trajectory

open Checked

/-- The arguments of `laplace_trajectory_composition_encode` but for the ordinal. -/
structure Run where
  entityId : Id128
  runLength : UInt16
  metadata : UInt64
deriving DecidableEq

/-- How many elements the runs stand for. -/
def logicalCount (runs : List Run) : ℕ := (runs.map fun run => run.runLength.toNat).sum

/-- A run that has elements and metadata that a carrier has room for. -/
def Run.Valid (run : Run) : Prop := run.runLength ≠ 0 ∧ run.metadata.toNat < 2 ^ 52

instance (run : Run) : Decidable run.Valid := inferInstanceAs (Decidable (_ ∧ _))

/-- `laplace_trajectory_composition_encode` for run after run, each at the ordinal behind the last. -/
def encodeRuns : List Run → UInt64 → Except Status (List Carrier)
  | [], _ => .ok []
  | run :: runs, logicalOrdinal => do
    let carrier ← compositionEncode run.entityId logicalOrdinal run.runLength run.metadata
    let carriers ← encodeRuns runs (logicalOrdinal + run.runLength.toUInt64)
    return carrier :: carriers

/-! ## The second pass, with the caller's buffer -/

/-- The loop over the checked carriers: the status it returns and what it has written by then. -/
def fillOccurrences : List Carrier → ℕ → UInt64 → List CompositionOccurrence →
    Status × List CompositionOccurrence
  | [], _, _, occurrences => (.ok, occurrences)
  | carrier :: carriers, index, logicalOrdinal, occurrences =>
    match compositionDecodeOne carrier logicalOrdinal with
    | .error status => (status, occurrences)
    | .ok occurrence =>
      fillOccurrences carriers (index + 1) (logicalOrdinal + occurrence.runLength.toUInt64)
        (occurrences.set index occurrence)

/-- `laplace_trajectory_composition_decode`: the status, the buffer and `*logical_count`. The
capacity is the length of the buffer. -/
def compositionDecodeInto (carriers : List Carrier) (occurrences : List CompositionOccurrence)
    (count : UInt64) : Status × List CompositionOccurrence × UInt64 :=
  if occurrences.length < carriers.length then (.capacityInsufficient, occurrences, count)
  else match validateComposition carriers 1 with
    | .error status => (status, occurrences, count)
    | .ok total => match fillOccurrences carriers 0 1 occurrences with
      | (.ok, occurrences) => (.ok, occurrences, total)
      | (status, occurrences) => (status, occurrences, count)

section

variable {carrier : Carrier} {carriers : List Carrier} {logicalOrdinal : UInt64}
  {occurrence : CompositionOccurrence}

theorem validateComposition_cons (h : compositionDecodeOne carrier logicalOrdinal = .ok occurrence) :
    validateComposition (carrier :: carriers) logicalOrdinal =
      if maxWord - logicalOrdinal < occurrence.runLength.toUInt64 then
        .error .countOverflow
      else validateComposition carriers (logicalOrdinal + occurrence.runLength.toUInt64) := by
  simp only [validateComposition, h, bind, Except.bind]

theorem decodeOccurrences_cons (h : compositionDecodeOne carrier logicalOrdinal = .ok occurrence)
    {decoded : List CompositionOccurrence} (hrest : decodeOccurrences carriers
      (logicalOrdinal + occurrence.runLength.toUInt64) = .ok decoded) :
    decodeOccurrences (carrier :: carriers) logicalOrdinal = .ok (occurrence :: decoded) := by
  simp only [decodeOccurrences, h, hrest, bind, Except.bind, pure, Except.pure]

end

variable {carrier : Carrier} {logicalOrdinal : UInt64}

theorem validateComposition_head {carriers : List Carrier} {total : UInt64}
    (h : validateComposition (carrier :: carriers) logicalOrdinal = .ok total) :
    ∃ occurrence, compositionDecodeOne carrier logicalOrdinal = .ok occurrence ∧
      logicalOrdinal.toNat + occurrence.runLength.toNat < 2 ^ 64 ∧
      validateComposition carriers (logicalOrdinal + occurrence.runLength.toUInt64) = .ok total := by
  cases hone : compositionDecodeOne carrier logicalOrdinal with
  | error status =>
    simp only [validateComposition, hone, bind, Except.bind] at h
    cases h
  | ok occurrence =>
    rw [validateComposition_cons hone] at h
    split at h
    · cases h
    · rename_i hbehind
      have hlt := logicalOrdinal.toNat_lt
      rw [UInt64.lt_iff_toNat_lt, toNat_sub_of_le (by rw [toNat_maxWord]; omega),
        toNat_maxWord, UInt16.toNat_toUInt64] at hbehind
      exact ⟨occurrence, rfl, by omega, h⟩

theorem decodeOccurrences_of_validate : ∀ {carriers : List Carrier} {logicalOrdinal total : UInt64},
    validateComposition carriers logicalOrdinal = .ok total →
      ∃ decoded, decodeOccurrences carriers logicalOrdinal = .ok decoded
  | [], _, _, _ => ⟨[], rfl⟩
  | carrier :: carriers, logicalOrdinal, total, h => by
    obtain ⟨occurrence, hone, -, hrest⟩ := validateComposition_head h
    obtain ⟨decoded, hdecoded⟩ := decodeOccurrences_of_validate hrest
    exact ⟨occurrence :: decoded, decodeOccurrences_cons hone hdecoded⟩

theorem decodeOccurrences_head {carriers : List Carrier} {decoded : List CompositionOccurrence}
    (h : decodeOccurrences (carrier :: carriers) logicalOrdinal = .ok decoded) :
    ∃ occurrence tail, compositionDecodeOne carrier logicalOrdinal = .ok occurrence ∧
      decodeOccurrences carriers (logicalOrdinal + occurrence.runLength.toUInt64) = .ok tail ∧
      decoded = occurrence :: tail := by
  cases hone : compositionDecodeOne carrier logicalOrdinal with
  | error status =>
    simp only [decodeOccurrences, hone, bind, Except.bind] at h
    cases h
  | ok occurrence =>
    cases htail : decodeOccurrences carriers (logicalOrdinal + occurrence.runLength.toUInt64) with
    | error status =>
      simp only [decodeOccurrences, hone, htail, bind, Except.bind] at h
      cases h
    | ok tail =>
      rw [decodeOccurrences_cons hone htail] at h
      exact ⟨occurrence, tail, rfl, htail, (Except.ok.inj h).symm⟩

theorem fillOccurrences_of_decode : ∀ {carriers : List Carrier} {logicalOrdinal : UInt64}
    {decoded before rest : List CompositionOccurrence},
    decodeOccurrences carriers logicalOrdinal = .ok decoded → carriers.length ≤ rest.length →
      fillOccurrences carriers before.length logicalOrdinal (before ++ rest) =
        (.ok, before ++ decoded ++ rest.drop carriers.length)
  | [], _, _, before, rest, h, _ => by
    cases h
    rw [fillOccurrences, List.append_nil]
    rfl
  | carrier :: carriers, logicalOrdinal, decoded, before, rest, h, hlength => by
    obtain ⟨occurrence, tail, hone, htail, rfl⟩ := decodeOccurrences_head h
    cases rest with
    | nil => exact absurd hlength (by simp)
    | cons old rest =>
      have hset : (before ++ old :: rest).set before.length occurrence =
          (before ++ [occurrence]) ++ rest := by
        rw [List.set_append_right _ _ (Nat.le_refl _), Nat.sub_self]
        simp
      rw [fillOccurrences, hone]
      dsimp only
      rw [hset, show before.length + 1 = (before ++ [occurrence]).length by simp,
        fillOccurrences_of_decode htail (Nat.le_of_succ_le_succ hlength)]
      simp

theorem compositionDecodeInto_eq (carriers : List Carrier)
    (occurrences : List CompositionOccurrence) (count : UInt64) :
    compositionDecodeInto carriers occurrences count =
      match compositionDecode carriers occurrences.length with
      | .error status => (status, occurrences, count)
      | .ok (decoded, total) => (.ok, decoded ++ occurrences.drop carriers.length, total) := by
  rw [compositionDecodeInto, compositionDecode]
  by_cases hcapacity : occurrences.length < carriers.length
  · rw [if_pos hcapacity, if_pos hcapacity]
  rw [if_neg hcapacity, if_neg hcapacity]
  cases hvalid : validateComposition carriers 1 with
  | error status => rfl
  | ok total =>
    obtain ⟨decoded, hdecoded⟩ := decodeOccurrences_of_validate hvalid
    have hfill := @fillOccurrences_of_decode _ _ _ [] occurrences hdecoded
      (Nat.le_of_not_lt hcapacity)
    rw [List.length_nil, List.nil_append, List.nil_append] at hfill
    rw [hfill, hdecoded]
    rfl

/-! ## Runs at their ordinals -/

/-- The carrier of a run that begins at an ordinal. -/
def carrierAt (run : Run) (ordinal : ℕ) : Carrier := fun index =>
  payloadSlotToDouble (slotsOf
    ⟨run.entityId, packedOrdinal (UInt64.ofNat ordinal), run.runLength, run.metadata⟩ index)

/-- What it is decoded to. -/
def occurrenceAt (run : Run) (ordinal : ℕ) : CompositionOccurrence where
  entityId := run.entityId
  logicalOrdinal := UInt64.ofNat ordinal
  metadata := run.metadata
  atom := metadataAtom run.metadata
  packedOrdinal := packedOrdinal (UInt64.ofNat ordinal)
  runLength := run.runLength
  tier := metadataTier run.metadata
  hasAtom := if metadataHasAtom run.metadata then 1 else 0

def carriersOf : List Run → ℕ → List Carrier
  | [], _ => []
  | run :: runs, ordinal => carrierAt run ordinal :: carriersOf runs (ordinal + run.runLength.toNat)

def occurrencesOf : List Run → ℕ → List CompositionOccurrence
  | [], _ => []
  | run :: runs, ordinal =>
    occurrenceAt run ordinal :: occurrencesOf runs (ordinal + run.runLength.toNat)

theorem carriersOf_length : ∀ (runs : List Run) (ordinal : ℕ),
    (carriersOf runs ordinal).length = runs.length
  | [], _ => rfl
  | _ :: runs, _ => congrArg (· + 1) (carriersOf_length runs _)

variable {run : Run}

theorem Run.Valid.pos (h : run.Valid) : 0 < run.runLength.toNat :=
  Nat.pos_of_ne_zero fun h0 => h.1 (UInt16.toNat_inj.1 h0)

theorem ofNat_add_runLength (run : Run) (ordinal : ℕ) :
    UInt64.ofNat ordinal + run.runLength.toUInt64 = UInt64.ofNat (ordinal + run.runLength.toNat) := by
  rw [UInt64.ofNat_add]
  congr 1
  rw [← UInt64.toNat_inj, UInt16.toNat_toUInt64, toNat_ofNat]
  have := run.runLength.toNat_lt
  exact this.trans (by decide)

variable {ordinal : ℕ}

/-- The check that `laplace_trajectory_composition_encode` and
`laplace_trajectory_composition_decode_one` share. -/
theorem run_fits (hpos : 0 < run.runLength.toNat) (hlt : ordinal < 2 ^ 64) :
    ¬ maxWord - UInt64.ofNat ordinal < run.runLength.toUInt64 - 1 ↔
      ordinal + run.runLength.toNat ≤ 2 ^ 64 := by
  have hone : (1 : UInt64).toNat = 1 := rfl
  rw [UInt64.lt_iff_toNat_lt, toNat_sub_of_le, toNat_sub_of_le,
    toNat_maxWord, toNat_ofNat hlt, UInt16.toNat_toUInt64, hone]
  · omega
  · rw [UInt16.toNat_toUInt64, hone]
    exact hpos
  · rw [toNat_maxWord, toNat_ofNat hlt]
    omega

theorem ofNat_ne_zero (hpos : 0 < ordinal) (hlt : ordinal < 2 ^ 64) : UInt64.ofNat ordinal ≠ 0 := by
  intro h
  have hnumber := congrArg UInt64.toNat h
  rw [toNat_ofNat hlt, UInt64.toNat_zero] at hnumber
  omega

theorem compositionEncode_ok (hpos : 0 < ordinal) (hle : ordinal ≤ 2 ^ 64) :
    compositionEncode run.entityId (UInt64.ofNat ordinal) run.runLength run.metadata = .ok carrier ↔
      run.Valid ∧ ordinal + run.runLength.toNat ≤ 2 ^ 64 ∧ carrier = carrierAt run ordinal := by
  rw [compositionEncode]
  rcases Nat.lt_or_ge ordinal (2 ^ 64) with hlt | hge
  swap
  · -- the ordinal has wrapped around, and no run is left that would fit
    obtain rfl : ordinal = 2 ^ 64 := Nat.le_antisymm hle hge
    rw [if_pos (show UInt64.ofNat (2 ^ 64) = 0 from rfl)]
    refine ⟨nofun, fun ⟨hvalid, hfit, _⟩ => ?_⟩
    have := hvalid.pos
    omega
  rw [if_neg (ofNat_ne_zero hpos hlt)]
  by_cases hzero : run.runLength = 0
  · rw [if_pos hzero]
    exact ⟨nofun, fun h => absurd hzero h.1.1⟩
  have hrun : 0 < run.runLength.toNat :=
    Nat.pos_of_ne_zero fun h0 => hzero (UInt16.toNat_inj.1 h0)
  rw [if_neg hzero]
  by_cases hfit : ordinal + run.runLength.toNat ≤ 2 ^ 64
  · rw [if_neg ((run_fits hrun hlt).2 hfit), carrierEncode_ok]
    exact ⟨fun ⟨hmetadata, hcarrier⟩ => ⟨⟨hzero, hmetadata⟩, hfit, hcarrier⟩,
      fun ⟨hvalid, _, hcarrier⟩ => ⟨hvalid.2, hcarrier⟩⟩
  · rw [if_pos (not_not.1 ((run_fits hrun hlt).not.2 hfit))]
    exact ⟨nofun, fun h => absurd h.2.1 hfit⟩

theorem compositionDecodeOne_at (hvalid : run.Valid) (hpos : 0 < ordinal)
    (hfit : ordinal + run.runLength.toNat ≤ 2 ^ 64) :
    compositionDecodeOne (carrierAt run ordinal) (UInt64.ofNat ordinal) =
      .ok (occurrenceAt run ordinal) := by
  have hrun := hvalid.pos
  have hlt : ordinal < 2 ^ 64 := by omega
  have hdecode : carrierDecode (carrierAt run ordinal) =
      .ok ⟨run.entityId, packedOrdinal (UInt64.ofNat ordinal), run.runLength, run.metadata⟩ :=
    carrierDecode_encode (carrierEncode_ok.2 ⟨hvalid.2, rfl⟩)
  rw [compositionDecodeOne, if_neg (ofNat_ne_zero hpos hlt), hdecode]
  dsimp only
  rw [if_neg hvalid.1, if_neg (not_not.2 rfl), if_neg ((run_fits hrun hlt).2 hfit)]
  rfl

/-- **The encoder.** It accepts the valid runs whose elements can be numbered up to 2^64 - 1. -/
theorem encodeRuns_ok : ∀ {runs : List Run} {ordinal : ℕ} {carriers : List Carrier}, 0 < ordinal →
    ordinal ≤ 2 ^ 64 → (encodeRuns runs (UInt64.ofNat ordinal) = .ok carriers ↔
      (∀ run ∈ runs, run.Valid) ∧ ordinal + logicalCount runs ≤ 2 ^ 64 ∧ carriers = carriersOf runs ordinal)
  | [], ordinal, carriers, _, hle => by
    rw [encodeRuns, Except.ok.injEq]
    exact ⟨fun h => ⟨nofun, hle, h.symm⟩, fun h => h.2.2.symm⟩
  | run :: runs, ordinal, carriers, hpos, hle => by
    have hcount : logicalCount (run :: runs) = run.runLength.toNat + logicalCount runs := rfl
    rw [encodeRuns, hcount, ofNat_add_runLength, carriersOf]
    constructor
    · intro h
      cases hone : compositionEncode run.entityId (UInt64.ofNat ordinal) run.runLength
          run.metadata with
      | error status =>
        rw [hone] at h
        cases h
      | ok carrier =>
        obtain ⟨hvalid, hfit, rfl⟩ := (compositionEncode_ok hpos hle).1 hone
        cases hrest : encodeRuns runs (UInt64.ofNat (ordinal + run.runLength.toNat)) with
        | error status =>
          simp only [hone, hrest, bind, Except.bind] at h
          cases h
        | ok rest =>
          simp only [hone, hrest, bind, Except.bind] at h
          obtain ⟨hruns, htotal, rfl⟩ := (encodeRuns_ok (by omega) hfit).1 hrest
          cases h
          exact ⟨List.forall_mem_cons.2 ⟨hvalid, hruns⟩, by omega, rfl⟩
    · rintro ⟨hvalid, htotal, rfl⟩
      obtain ⟨hrun, hruns⟩ := List.forall_mem_cons.1 hvalid
      rw [(compositionEncode_ok hpos hle).2 ⟨hrun, by omega, rfl⟩]
      simp only [bind, Except.bind]
      rw [(encodeRuns_ok (by omega) (by omega)).2 ⟨hruns, by omega, rfl⟩]
      rfl

/-- **The validator.** It wants the ordinal behind the last element to be a word. -/
theorem validateComposition_carriersOf : ∀ {runs : List Run} {ordinal : ℕ},
    (∀ run ∈ runs, run.Valid) → 0 < ordinal → ordinal < 2 ^ 64 → ordinal + logicalCount runs ≤ 2 ^ 64 →
    validateComposition (carriersOf runs ordinal) (UInt64.ofNat ordinal) =
      if ordinal + logicalCount runs < 2 ^ 64 then
        .ok (UInt64.ofNat (ordinal + logicalCount runs - 1))
      else .error .countOverflow
  | [], ordinal, _, hpos, hlt, _ => by
    have hzero : ordinal + logicalCount [] = ordinal := rfl
    rw [hzero, if_pos hlt, carriersOf, validateComposition]
    refine congrArg Except.ok ?_
    rw [← UInt64.toNat_inj, toNat_sub_of_le, toNat_ofNat hlt,
      toNat_ofNat (by omega : ordinal - 1 < 2 ^ 64)]
    · rfl
    · rw [toNat_ofNat hlt]
      exact hpos
  | run :: runs, ordinal, hvalid, hpos, hlt, htotal => by
    obtain ⟨hrun, hruns⟩ := List.forall_mem_cons.1 hvalid
    have hcount : logicalCount (run :: runs) = run.runLength.toNat + logicalCount runs := rfl
    rw [hcount] at htotal
    have hbehind : maxWord - UInt64.ofNat ordinal < run.runLength.toUInt64 ↔
        ¬ ordinal + run.runLength.toNat < 2 ^ 64 := by
      rw [UInt64.lt_iff_toNat_lt, toNat_sub_of_le, toNat_maxWord,
        toNat_ofNat hlt, UInt16.toNat_toUInt64]
      · omega
      · rw [toNat_maxWord, toNat_ofNat hlt]
        omega
    have hlength : (occurrenceAt run ordinal).runLength = run.runLength := rfl
    rw [carriersOf, validateComposition_cons (compositionDecodeOne_at hrun hpos (by omega)), hlength,
      hcount, ofNat_add_runLength, ← Nat.add_assoc]
    by_cases hfit : ordinal + run.runLength.toNat < 2 ^ 64
    · rw [if_neg (hbehind.not.2 (not_not.2 hfit)),
        validateComposition_carriersOf hruns (by omega) hfit (by omega)]
    · rw [if_pos (hbehind.2 hfit), if_neg (by omega)]

theorem decodeOccurrences_carriersOf : ∀ {runs : List Run} {ordinal : ℕ},
    (∀ run ∈ runs, run.Valid) → 0 < ordinal → ordinal + logicalCount runs ≤ 2 ^ 64 →
    decodeOccurrences (carriersOf runs ordinal) (UInt64.ofNat ordinal) = .ok (occurrencesOf runs ordinal)
  | [], _, _, _, _ => rfl
  | run :: runs, ordinal, hvalid, hpos, htotal => by
    obtain ⟨hrun, hruns⟩ := List.forall_mem_cons.1 hvalid
    have hcount : logicalCount (run :: runs) = run.runLength.toNat + logicalCount runs := rfl
    rw [hcount] at htotal
    refine decodeOccurrences_cons (compositionDecodeOne_at hrun hpos (by omega)) ?_
    have hlength : (occurrenceAt run ordinal).runLength = run.runLength := rfl
    rw [hlength, ofNat_add_runLength]
    exact decodeOccurrences_carriersOf hruns (by omega) (by omega)

/-! ## The codec -/

/-- The ordinals that the carriers hold are the sums of the run lengths before them, as far as a
carrier has room for an ordinal. -/
def PackedSums : List Carrier → ℕ → Prop
  | [], _ => True
  | carrier :: carriers, ordinal => ∃ payload, carrierDecode carrier = .ok payload ∧
      payload.ordinal.toNat = (if ordinal < 65536 then ordinal else 0) ∧
      PackedSums carriers (ordinal + payload.runLength.toNat)

theorem packedSums_of_validate : ∀ {carriers : List Carrier} {logicalOrdinal total : UInt64},
    validateComposition carriers logicalOrdinal = .ok total → PackedSums carriers logicalOrdinal.toNat
  | [], _, _, _ => trivial
  | carrier :: carriers, logicalOrdinal, total, h => by
    obtain ⟨occurrence, hone, hbehind, hrest⟩ := validateComposition_head h
    obtain ⟨payload, hdecode, hrun, hordinal⟩ := (compositionDecodeOne_ok hone).payload
    have hnext : (logicalOrdinal + occurrence.runLength.toUInt64).toNat =
        logicalOrdinal.toNat + payload.runLength.toNat := by
      rw [toNat_add_of_lt (by rwa [UInt16.toNat_toUInt64]), UInt16.toNat_toUInt64, hrun]
    have hsums := packedSums_of_validate hrest
    rw [hnext] at hsums
    exact ⟨payload, hdecode, hordinal, hsums⟩

theorem compositionDecodeOne_error :
    Outcome (compositionDecodeOne carrier logicalOrdinal) (fun _ => True) (· ≠ .ok) := by
  refine .refuse nofun ?_
  have hdecode : Outcome (carrierDecode carrier) (fun _ => True) (· ≠ .ok) := by
    unfold carrierDecode
    split
    · trivial
    · nofun
  cases heq : carrierDecode carrier with
  | error status => exact hdecode.of_error heq
  | ok payload => exact .refuse nofun (.refuse nofun (.refuse nofun trivial))

theorem validateComposition_error : ∀ (carriers : List Carrier) (logicalOrdinal : UInt64),
    Outcome (validateComposition carriers logicalOrdinal) (fun _ => True) (· ≠ .ok)
  | [], _ => trivial
  | _ :: carriers, _ => compositionDecodeOne_error.bind fun _ _ =>
    .refuse nofun (validateComposition_error carriers _)

/-- A function that writes its one output in its last statement. -/
def writes {α : Type} (output : α) : Except Status α → Status × α
  | .error status => (status, output)
  | .ok value => (.ok, value)

theorem compositionDecode_carriersOf {runs : List Run} (hvalid : ∀ run ∈ runs, run.Valid)
    (htotal : logicalCount runs < 2 ^ 64) {capacity : ℕ} (hcapacity : runs.length ≤ capacity) :
    compositionDecode (carriersOf runs 1) capacity = if logicalCount runs ≠ 2 ^ 64 - 1 then
        .ok (occurrencesOf runs 1, UInt64.ofNat (logicalCount runs))
      else .error .countOverflow := by
  have hvalidate := validateComposition_carriersOf hvalid Nat.one_pos (by decide) (by omega)
  have hdecode := decodeOccurrences_carriersOf hvalid Nat.one_pos (by omega)
  have hone : UInt64.ofNat 1 = 1 := rfl
  rw [hone] at hvalidate hdecode
  rw [compositionDecode, if_neg (by rw [carriersOf_length]; omega), hvalidate, hdecode]
  by_cases h : logicalCount runs = 2 ^ 64 - 1
  · rw [if_neg (by omega), if_neg (not_not.2 h)]
    rfl
  · rw [if_pos (by omega), if_pos h, Nat.add_sub_cancel_left]
    rfl

/-- **The composition codec.** The encoder accepts the valid runs whose elements can be counted in a
word; decoding gives the runs back at their ordinals, with their total, unless that is 2^64 - 1; what
is decoded has the sums of its run lengths for ordinals; and a call that fails writes nothing. -/
theorem composition_codec (runs : List Run) (carriers : List Carrier)
    (occurrences : List CompositionOccurrence) (count : UInt64) :
    (encodeRuns runs 1 = .ok carriers ↔ (∀ run ∈ runs, run.Valid) ∧
      logicalCount runs < 2 ^ 64 ∧ carriers = carriersOf runs 1) ∧
    (encodeRuns runs 1 = .ok carriers → carriers.length ≤ occurrences.length →
      (compositionDecodeInto carriers occurrences count =
        (.ok, occurrencesOf runs 1 ++ occurrences.drop carriers.length,
          UInt64.ofNat (logicalCount runs)) ↔ logicalCount runs ≠ 2 ^ 64 - 1)) ∧
    ((compositionDecodeInto carriers occurrences count).1 = .ok → PackedSums carriers 1) ∧
    ((compositionDecodeInto carriers occurrences count).1 ≠ .ok →
      (compositionDecodeInto carriers occurrences count).2 = (occurrences, count)) ∧
    ∀ (run : Run) (logicalOrdinal : UInt64) (carrier : Carrier),
      (writes carrier (compositionEncode run.entityId logicalOrdinal run.runLength run.metadata)).1 ≠
        .ok → (writes carrier (compositionEncode run.entityId logicalOrdinal run.runLength
          run.metadata)).2 = carrier := by
  have hencode : encodeRuns runs 1 = .ok carriers ↔ (∀ run ∈ runs, run.Valid) ∧
      logicalCount runs < 2 ^ 64 ∧ carriers = carriersOf runs 1 := by
    rw [show (1 : UInt64) = UInt64.ofNat 1 from rfl, encodeRuns_ok Nat.one_pos (by decide)]
    exact ⟨fun ⟨hvalid, htotal, heq⟩ => ⟨hvalid, by omega, heq⟩,
      fun ⟨hvalid, htotal, heq⟩ => ⟨hvalid, by omega, heq⟩⟩
  refine ⟨hencode, fun h hlength => ?_, fun h => ?_, fun h => ?_, fun run logicalOrdinal carrier h => ?_⟩
  · obtain ⟨hvalid, htotal, rfl⟩ := hencode.1 h
    rw [carriersOf_length] at hlength
    rw [compositionDecodeInto_eq, compositionDecode_carriersOf hvalid htotal hlength]
    split_ifs with hne
    · exact ⟨fun _ => hne, fun _ => rfl⟩
    · exact ⟨fun heq => absurd (congrArg Prod.fst heq) nofun, fun hne' => absurd hne' hne⟩
  · rw [compositionDecodeInto_eq, compositionDecode] at h
    by_cases hcapacity : occurrences.length < carriers.length
    · rw [if_pos hcapacity] at h
      cases h
    rw [if_neg hcapacity] at h
    cases hvalid : validateComposition carriers 1 with
    | ok total => exact packedSums_of_validate hvalid
    | error status =>
      rw [hvalid] at h
      exact absurd h ((validateComposition_error _ _).of_error hvalid)
  · rw [compositionDecodeInto_eq] at h ⊢
    cases hdecode : compositionDecode carriers occurrences.length with
    | error status => rfl
    | ok result =>
      rw [hdecode] at h
      exact absurd rfl h
  · cases hone : compositionEncode run.entityId logicalOrdinal run.runLength run.metadata with
    | error status => rfl
    | ok encoded =>
      rw [hone] at h
      exact absurd rfl h

/-- A run of two and one of three. -/
theorem composition_codec_pair :
    compositionDecodeInto (carriersOf [⟨1, 2, 0⟩, ⟨5, 3, 7⟩] 1) (List.replicate 3 .zero) 0 =
      (.ok, [occurrenceAt ⟨1, 2, 0⟩ 1, occurrenceAt ⟨5, 3, 7⟩ 3, .zero], 5) := by
  have hencode := (composition_codec [⟨1, 2, 0⟩, ⟨5, 3, 7⟩] _ (List.replicate 3 .zero) 0).1.2
    ⟨by decide, by decide, rfl⟩
  exact ((composition_codec [⟨1, 2, 0⟩, ⟨5, 3, 7⟩] _ (List.replicate 3 .zero) 0).2.1 hencode
    (by decide)).2 (by decide)

/-! ### The longest composition -/

/-- 2^48 + 2^32 + 2^16 + 1 runs of 2^16 - 1 elements: 2^64 - 1 together. -/
def longestRuns : List Run := List.replicate 281479271743489 ⟨1, 0xFFFF, 0⟩

theorem logicalCount_longestRuns : logicalCount longestRuns = 2 ^ 64 - 1 := by
  rw [logicalCount, longestRuns, List.map_replicate, List.sum_replicate]
  rfl

/-- The encoder counts to 2^64 - 1, the validator does not. -/
theorem validateComposition_longest : ¬ ∀ (runs : List Run) (carriers : List Carrier),
    encodeRuns runs 1 = .ok carriers → ∃ total, validateComposition carriers 1 = .ok total := by
  intro hall
  have hvalid : ∀ run ∈ longestRuns, run.Valid := by
    intro run hrun
    rw [List.eq_of_mem_replicate hrun]
    exact ⟨by decide, by decide⟩
  have hone : UInt64.ofNat 1 = 1 := rfl
  have hencode := (encodeRuns_ok Nat.one_pos (by decide)).2
    ⟨hvalid, by rw [logicalCount_longestRuns]; decide, rfl⟩
  obtain ⟨total, htotal⟩ := hall _ _ (hone ▸ hencode)
  have hvalidate := validateComposition_carriersOf hvalid Nat.one_pos (by decide)
    (by rw [logicalCount_longestRuns]; decide)
  rw [if_neg (by rw [logicalCount_longestRuns]; decide), hone] at hvalidate
  rw [hvalidate] at htotal
  cases htotal

end Laplace.Trajectory
