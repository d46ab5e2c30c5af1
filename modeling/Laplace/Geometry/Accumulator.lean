import Laplace.Geometry.Big
import Laplace.Lib.Binary64

/-!
# The accumulator (geometry.c:163-249, 370-449)

A `double` is its 64-bit pattern. Pointers are the values they point to: `accumulatorAdd` and
`accumulatorMerge` return the status and what `*accumulator` holds afterwards.
-/

namespace Laplace.Geometry

open Binary64

/-- `laplace_geometry_status` -/
inductive Status
  | ok | invalidArgument | empty | zeroMultiplicity | countOverflow | coordinateOutOfRange
  | accumulatorOverflow
deriving DecidableEq, Repr

local instance neZero_four : NeZero 4 := ⟨by decide⟩

/-- `laplace_point4d` -/
abbrev Point4d := Fin 4 → UInt64

/-- `laplace_exact_component` -/
structure ExactComponent where
  magnitude : Biguint
  sign : ℤ
deriving DecidableEq

/-- `laplace_geometry_accumulator` -/
structure Accumulator where
  sum : Fin 4 → ExactComponent
  logicalCount : UInt64
deriving DecidableEq

def exactComponentValid (component : ExactComponent) : Bool :=
  if component.sign < -1 ∨ component.sign > 1 then false
  else if component.sign = 0 then bigIsZero component.magnitude
  else !bigIsZero component.magnitude

def exactComponentAdd (target : ExactComponent) (magnitude : Biguint) (sign : ℤ) :
    Option ExactComponent :=
  if bigIsZero magnitude then some target
  else
    let comparison := bigCompare target.magnitude magnitude
    if target.sign = 0 then some ⟨magnitude, sign⟩
    else if target.sign = sign then
      (bigAdd target.magnitude magnitude).map fun sum => { target with magnitude := sum }
    else if comparison = .eq then some ⟨.zero, 0⟩
    else if comparison = .gt then
      some { target with magnitude := bigSubtract target.magnitude magnitude }
    else some ⟨bigSubtract magnitude target.magnitude, sign⟩

def pointTerm (bits multiplicity : UInt64) : Except Status (Biguint × ℤ) :=
  let fraction := bits &&& 0x000fffffffffffff
  let exponent := ((bits >>> 52) &&& 0x7ff).toUInt32
  let sign : ℤ := if bits >>> 63 = 0 then 1 else -1
  if exponent = 0x7ff then .error .coordinateOutOfRange
  else if exponent > 1023 ∨ (exponent = 1023 ∧ fraction ≠ 0) then .error .coordinateOutOfRange
  else
    let significand := if exponent = 0 then fraction else 0x0010000000000000 ||| fraction
    let shift := if exponent = 0 then 0 else exponent - 1
    if significand = 0 then .ok (.zero, 0)
    else
      match bigMultiplyShift significand multiplicity shift with
      | none => .error .accumulatorOverflow
      | some magnitude => .ok (magnitude, sign)

/-- A loop over the components that returns at the first status that is not `ok`. -/
def eachComponent {α : Type} (body : Fin 4 → Except Status α) : Except Status (Fin 4 → α) := do
  let first ← body 0
  let second ← body 1
  let third ← body 2
  let fourth ← body 3
  return ![first, second, third, fourth]

/-- `*accumulator = next` is the last statement: a call that fails before it has written nothing. -/
def written (accumulator : Accumulator) : Except Status Accumulator → Status × Accumulator
  | .ok next => (.ok, next)
  | .error status => (status, accumulator)

def accumulatorInit : Accumulator := ⟨fun _ => ⟨.zero, 0⟩, 0⟩

/-- The body of the first loop of `laplace_geometry_accumulator_add`. -/
def checkedTerm (target : ExactComponent) (bits multiplicity : UInt64) :
    Except Status (Biguint × ℤ) := do
  let term ← pointTerm bits multiplicity
  if exactComponentValid target then .ok term else .error .invalidArgument

/-- The body of its second loop. -/
def addTerm (target : ExactComponent) (term : Biguint × ℤ) : Except Status ExactComponent :=
  match exactComponentAdd target term.1 term.2 with
  | none => .error .accumulatorOverflow
  | some next => .ok next

/-- The body of the loop of `laplace_geometry_accumulator_merge`. -/
def mergeComponent (target source : ExactComponent) : Except Status ExactComponent :=
  if !exactComponentValid target || !exactComponentValid source then .error .invalidArgument
  else addTerm target (source.magnitude, source.sign)

def accumulatorAdd (accumulator : Accumulator) (point : Point4d) (multiplicity : UInt64) :
    Status × Accumulator :=
  written accumulator <|
    if multiplicity = 0 then .error .zeroMultiplicity
    else if (18446744073709551615 : UInt64) - accumulator.logicalCount < multiplicity then
      .error .countOverflow
    else do
      let term ← eachComponent fun component =>
        checkedTerm (accumulator.sum component) (point component) multiplicity
      let sum ← eachComponent fun component =>
        addTerm (accumulator.sum component) (term component)
      return ⟨sum, accumulator.logicalCount + multiplicity⟩

def accumulatorMerge (accumulator source : Accumulator) : Status × Accumulator :=
  written accumulator <|
    if (18446744073709551615 : UInt64) - accumulator.logicalCount < source.logicalCount then
      .error .countOverflow
    else do
      let sum ← eachComponent fun component =>
        mergeComponent (accumulator.sum component) (source.sum component)
      return ⟨sum, accumulator.logicalCount + source.logicalCount⟩

theorem written_unchanged (accumulator : Accumulator) (outcome : Except Status Accumulator)
    (h : (written accumulator outcome).1 ≠ .ok) : (written accumulator outcome).2 = accumulator := by
  cases outcome with
  | ok next => exact absurd rfl h
  | error status => rfl

theorem eachComponent_ok {α : Type} {body : Fin 4 → Except Status α} {result : Fin 4 → α}
    (h : ∀ i, body i = .ok (result i)) : eachComponent body = .ok result := by
  rw [eachComponent, h 0, h 1, h 2, h 3]
  change Except.ok ![result 0, result 1, result 2, result 3] = _
  congr 1
  funext i
  fin_cases i <;> rfl

theorem eachComponent_cases {α : Type} (body : Fin 4 → Except Status α) : (∀ i, ∃ a, body i = .ok a) ∨
      ∃ i status, body i = .error status ∧ eachComponent body = .error status := by
  unfold eachComponent
  cases h0 : body 0 with
  | error status => exact .inr ⟨0, status, h0, rfl⟩
  | ok first =>
  cases h1 : body 1 with
  | error status => exact .inr ⟨1, status, h1, rfl⟩
  | ok second =>
  cases h2 : body 2 with
  | error status => exact .inr ⟨2, status, h2, rfl⟩
  | ok third =>
  cases h3 : body 3 with
  | error status => exact .inr ⟨3, status, h3, rfl⟩
  | ok fourth =>
    refine .inl fun i => ?_
    fin_cases i
    · exact ⟨first, h0⟩
    · exact ⟨second, h1⟩
    · exact ⟨third, h2⟩
    · exact ⟨fourth, h3⟩

/-! ## Components -/

/-- The component is the integer `z`, in the one form that has it. -/
def ExactComponent.Represents (component : ExactComponent) (z : ℤ) : Prop :=
  component.sign = z.sign ∧ component.magnitude.value = z.natAbs

variable {z : ℤ}

theorem ExactComponent.Represents.unique {left right : ExactComponent} (hl : left.Represents z)
    (hr : right.Represents z) : left = right := by
  obtain ⟨left, ls⟩ := left
  obtain ⟨right, rs⟩ := right
  obtain ⟨hls, hlm⟩ := hl
  obtain ⟨hrs, hrm⟩ := hr
  have hmag : left = right := Biguint.value_inj.1 (hlm.trans hrm.symm)
  have hsign : ls = rs := hls.trans hrs.symm
  rw [hmag, hsign]

theorem ExactComponent.Represents.valid {component : ExactComponent} (h : component.Represents z) :
    exactComponentValid component = true := by
  obtain ⟨hsign, hmag⟩ := h
  have hzero : bigIsZero component.magnitude = decide (z = 0) := by
    rw [Bool.eq_iff_iff, bigIsZero_iff, hmag, Int.natAbs_eq_zero, decide_eq_true_iff]
  unfold exactComponentValid
  rw [hzero, hsign]
  rcases lt_trichotomy z 0 with hz | hz | hz
  · simp [Int.sign_eq_neg_one_of_neg hz, hz.ne]
  · simp [hz]
  · simp [Int.sign_eq_one_of_pos hz, hz.ne']

theorem represents_of_pos {big : Biguint} (hz : 0 < z) (h : (big.value : ℤ) = z) :
    (ExactComponent.mk big 1).Represents z :=
  ⟨(Int.sign_eq_one_of_pos hz).symm, by change big.value = _; omega⟩

theorem represents_of_neg {big : Biguint} (hz : z < 0) (h : (big.value : ℤ) = -z) :
    (ExactComponent.mk big (-1)).Represents z :=
  ⟨(Int.sign_eq_neg_one_of_neg hz).symm, by change big.value = _; omega⟩

variable {w : ℤ}

theorem subtract_represents {large small : Biguint} (hz : large.value = z.natAbs)
    (hw : small.value = w.natAbs) (hlt : w.natAbs < z.natAbs) (hopposite : z < 0 ∧ 0 < w ∨ 0 < z ∧ w < 0) :
    (ExactComponent.mk (bigSubtract large small) z.sign).Represents (z + w) := by
  have hval := @bigSubtract_value large small (by omega)
  rcases hopposite with ⟨hneg, hpos⟩ | ⟨hpos, hneg⟩
  · rw [Int.sign_eq_neg_one_of_neg hneg]
    exact represents_of_neg (by omega) (by omega)
  · rw [Int.sign_eq_one_of_pos hpos]
    exact represents_of_pos (by omega) (by omega)

variable {target : ExactComponent}

/-- **Adding a term** is integer addition in sign and magnitude. -/
theorem exactComponentAdd_represents {magnitude : Biguint} (ht : target.Represents z)
    (hm : magnitude.value = w.natAbs) (hfit : (z + w).natAbs < bigLimit) :
    ∃ next, exactComponentAdd target magnitude w.sign = some next ∧ next.Represents (z + w) := by
  obtain ⟨hsign, hmag⟩ := ht
  unfold exactComponentAdd
  by_cases hzero : bigIsZero magnitude = true
  · have hw : w = 0 := Int.natAbs_eq_zero.1 (hm ▸ bigIsZero_iff.1 hzero)
    rw [if_pos hzero, hw, add_zero]
    exact ⟨target, rfl, hsign, hmag⟩
  have hw : w ≠ 0 := fun h => hzero (bigIsZero_iff.2 (by rw [hm, h]; rfl))
  rw [if_neg hzero]
  simp only [hsign, bigCompare_eq, hmag, hm]
  by_cases hz : z = 0
  · rw [hz, Int.sign_zero, if_pos rfl, zero_add]
    exact ⟨_, rfl, rfl, hm⟩
  rw [if_neg (by simpa using hz)]
  by_cases hsame : z.sign = w.sign
  · have habs : (z + w).natAbs = z.natAbs + w.natAbs := by
      rcases lt_or_gt_of_ne hz with hz | hz
      · rw [Int.sign_eq_neg_one_of_neg hz, eq_comm, Int.sign_eq_neg_one_iff_neg] at hsame
        omega
      · rw [Int.sign_eq_one_of_pos hz, eq_comm, Int.sign_eq_one_iff_pos] at hsame
        omega
    have hadd := bigAdd_holds target.magnitude magnitude
    rw [hmag, hm, ← habs] at hadd
    obtain ⟨sum, hsum, hval⟩ := hadd.eq_some hfit
    rw [if_pos hsame, hsum]
    exact ⟨_, rfl, hsame.trans (Int.sign_add_eq_of_sign_eq hsame).symm, hval⟩
  rw [if_neg hsame]
  have hopposite : z < 0 ∧ 0 < w ∨ 0 < z ∧ w < 0 := by
    rcases lt_or_gt_of_ne hz with hz | hz
    · rw [Int.sign_eq_neg_one_of_neg hz, eq_comm, Int.sign_eq_neg_one_iff_neg] at hsame
      omega
    · rw [Int.sign_eq_one_of_pos hz, eq_comm, Int.sign_eq_one_iff_pos] at hsame
      omega
  rcases lt_trichotomy z.natAbs w.natAbs with hlt | heq | hgt
  · rw [compare_lt_iff_lt.2 hlt, if_neg (by decide), if_neg (by decide), add_comm z w]
    exact ⟨_, rfl, subtract_represents hm hmag hlt (by omega)⟩
  · rw [compare_eq_iff_eq.2 heq, if_pos rfl, show z + w = 0 by omega]
    exact ⟨_, rfl, rfl, Biguint.value_zero⟩
  · rw [compare_gt_iff_gt.2 hgt, if_neg (by decide), if_pos rfl]
    refine ⟨_, rfl, ?_⟩
    exact subtract_represents hmag hm hgt hopposite

/-! ## Terms -/

theorem sign_eq (bits : UInt64) : (if bits >>> 63 = 0 then 1 else -1 : ℤ) =
    if negative bits then -1 else 1 := by
  have hlt := bits.toNat_lt
  have hshift : bits >>> 63 = 0 ↔ bits.toNat / 2 ^ 63 = 0 := by
    rw [← UInt64.toNat_inj, UInt64.toNat_shiftRight, Nat.shiftRight_eq_div_pow]
    rfl
  have hneg : negative bits = true ↔ ¬ bits >>> 63 = 0 := by
    rw [hshift, negative, decide_eq_true_iff]
    omega
  by_cases h : bits >>> 63 = 0
  · rw [if_pos h, if_neg (by rw [hneg]; exact not_not.2 h)]
  · rw [if_neg h, if_pos (hneg.2 h)]

/-- A finite coordinate of absolute value at most one. -/
def UnitRange (bits : UInt64) : Prop := Binary64.Finite bits ∧ |value bits| ≤ 1

variable {bits : UInt64}

theorem unitRange_iff : UnitRange bits ↔
    Binary64.exponent bits < 1023 ∨ Binary64.exponent bits = 1023 ∧ fraction bits = 0 := by
  rw [UnitRange, abs_value_le_one, magnitude_le_iff, Binary64.Finite]
  omega

/-- What `multiplicity` copies of a coordinate add, in units of `2 ^ -1074`. -/
def termUnits (bits multiplicity : UInt64) : ℤ := multiplicity.toNat * units bits

variable {multiplicity : UInt64}

theorem natAbs_termUnits_le (h : UnitRange bits) :
    (termUnits bits multiplicity).natAbs ≤ multiplicity.toNat * 2 ^ 1074 := by
  rw [termUnits, Int.natAbs_mul, Int.natAbs_natCast, natAbs_units]
  exact Nat.mul_le_mul_left _ (abs_value_le_one.1 h.2)

theorem pointTerm_refuses (h : ¬ UnitRange bits) :
    pointTerm bits multiplicity = .error .coordinateOutOfRange := by
  rw [unitRange_iff] at h
  have hexp := exponent_toNat bits
  have hfrac := fraction_toNat bits
  unfold pointTerm
  simp only
  split
  · rfl
  · rw [if_pos]
    rw [gt_iff_lt, UInt32.lt_iff_toNat_lt, ← UInt32.toNat_inj, hexp, ne_eq, ← UInt64.toNat_inj, hfrac]
    simp only [UInt32.toNat_ofNat, UInt64.toNat_ofNat]
    omega

/-- The significand and the shift of `point_term` are those of the pattern. -/
theorem significand_shift (exponent : UInt32) (hexp : exponent.toNat = Binary64.exponent bits) :
    (if exponent = 0 then bits &&& 0x000fffffffffffff
      else 0x0010000000000000 ||| (bits &&& 0x000fffffffffffff) : UInt64).toNat *
        2 ^ (if exponent = 0 then 0 else exponent - 1 : UInt32).toNat = magnitude bits := by
  have hzero : exponent = 0 ↔ Binary64.exponent bits = 0 := by
    rw [← hexp, ← UInt32.toNat_inj]
    rfl
  rw [magnitude]
  by_cases h : exponent = 0
  · rw [if_pos h, if_pos h, if_pos (hzero.1 h), fraction_toNat]
    exact Nat.mul_one _
  · have hpos : 1 ≤ exponent := by
      rw [UInt32.le_iff_toNat_le, hexp]
      exact Nat.one_le_iff_ne_zero.2 (mt hzero.2 h)
    rw [if_neg h, if_neg h, if_neg (mt hzero.2 h), significand_toNat,
      UInt32.toNat_sub_of_le _ _ hpos, hexp]
    rfl

theorem termUnits_sign (hmul : multiplicity ≠ 0) (hne : magnitude bits ≠ 0) :
    (termUnits bits multiplicity).sign = if negative bits then -1 else 1 := by
  have hpos : (0 : ℤ) < multiplicity.toNat := by
    have : multiplicity.toNat ≠ 0 := fun h => hmul (UInt64.toNat_inj.1 (by simpa using h))
    omega
  rw [termUnits, Int.sign_mul, Int.sign_eq_one_of_pos hpos, one_mul, units]
  split
  · exact Int.sign_eq_neg_one_of_neg (by omega)
  · exact Int.sign_eq_one_of_pos (by omega)

/-- **A term of a coordinate in the unit range** is the exact product, and it always fits. -/
theorem pointTerm_accepts (h : UnitRange bits) (hmul : multiplicity ≠ 0) : ∃ magnitude : Biguint,
    pointTerm bits multiplicity = .ok (magnitude, (termUnits bits multiplicity).sign) ∧
      magnitude.value = (termUnits bits multiplicity).natAbs := by
  have hrange := unitRange_iff.1 h
  have hexp := exponent_toNat bits
  have habs : (termUnits bits multiplicity).natAbs =
      multiplicity.toNat * magnitude bits := by
    rw [termUnits, Int.natAbs_mul, Int.natAbs_natCast, natAbs_units]
  unfold pointTerm
  simp only [sign_eq]
  have hprod := significand_shift _ hexp
  set exponent := ((bits >>> 52) &&& 0x7ff).toUInt32 with hexponent
  have hfinite : exponent ≠ 0x7ff := by
    rw [ne_eq, ← UInt32.toNat_inj, hexp]
    simp only [UInt32.toNat_ofNat]
    omega
  have hunit : ¬ (exponent > 1023 ∨ (exponent = 1023 ∧ bits &&& 0x000fffffffffffff ≠ 0)) := by
    rw [gt_iff_lt, UInt32.lt_iff_toNat_lt, ← UInt32.toNat_inj, hexp, ne_eq, ← UInt64.toNat_inj,
      fraction_toNat]
    simp only [UInt32.toNat_ofNat, UInt64.toNat_ofNat]
    omega
  rw [if_neg hfinite, if_neg hunit]
  set significand : UInt64 := if exponent = 0 then bits &&& 0x000fffffffffffff
    else 0x0010000000000000 ||| (bits &&& 0x000fffffffffffff)
  set shift : UInt32 := if exponent = 0 then 0 else exponent - 1
  by_cases hzero : significand = 0
  · have hnone : termUnits bits multiplicity = 0 := by
      rw [← Int.natAbs_eq_zero, habs, ← hprod, hzero]
      simp
    rw [if_pos hzero, hnone]
    exact ⟨.zero, rfl, Biguint.value_zero⟩
  · have hne : magnitude bits ≠ 0 := by
      have : significand.toNat ≠ 0 := fun h0 => hzero (UInt64.toNat_inj.1 (by simpa using h0))
      rw [← hprod]
      positivity
    have hfit : significand.toNat * multiplicity.toNat * 2 ^ shift.toNat < bigLimit := by
      have hle := abs_value_le_one.1 h.2
      calc significand.toNat * multiplicity.toNat * 2 ^ shift.toNat
          = multiplicity.toNat * magnitude bits := by rw [← hprod]; ring
        _ ≤ multiplicity.toNat * 2 ^ 1074 := Nat.mul_le_mul_left _ hle
        _ < 2 ^ 64 * 2 ^ 1074 := Nat.mul_lt_mul_of_pos_right multiplicity.toNat_lt (by positivity)
        _ = 2 ^ (64 + 1074) := by rw [pow_add]
        _ ≤ bigLimit := pow_le_bigLimit (by decide)
    obtain ⟨magnitude, hsome, hval⟩ :=
      (bigMultiplyShift_holds significand multiplicity shift).eq_some hfit
    rw [if_neg hzero, hsome, termUnits_sign hmul hne]
    refine ⟨magnitude, rfl, ?_⟩
    rw [hval, habs, ← hprod]
    ring

theorem checkedTerm_refuses (h : ¬ UnitRange bits) :
    checkedTerm target bits multiplicity = .error .coordinateOutOfRange := by
  rw [checkedTerm, pointTerm_refuses h]
  rfl

theorem checkedTerm_accepts (ht : target.Represents z) (h : UnitRange bits) (hmul : multiplicity ≠ 0) :
    ∃ magnitude : Biguint, magnitude.value = (termUnits bits multiplicity).natAbs ∧
      checkedTerm target bits multiplicity = .ok (magnitude, (termUnits bits multiplicity).sign) := by
  obtain ⟨magnitude, hok, hval⟩ := pointTerm_accepts h hmul
  refine ⟨magnitude, hval, ?_⟩
  rw [checkedTerm, hok, ht.valid]
  rfl

theorem addTerm_represents {magnitude : Biguint} (ht : target.Represents z)
    (hm : magnitude.value = w.natAbs) (hfit : (z + w).natAbs < bigLimit) :
    ∃ next, next.Represents (z + w) ∧ addTerm target (magnitude, w.sign) = .ok next := by
  obtain ⟨next, hnext, hrep⟩ := exactComponentAdd_represents ht hm hfit
  refine ⟨next, hrep, ?_⟩
  rw [addTerm, hnext]

theorem mergeComponent_represents {source : ExactComponent} (ht : target.Represents z)
    (hs : source.Represents w) (hfit : (z + w).natAbs < bigLimit) :
    ∃ next, next.Represents (z + w) ∧ mergeComponent target source = .ok next := by
  obtain ⟨next, hrep, hnext⟩ := addTerm_represents ht hs.2 hfit
  refine ⟨next, hrep, ?_⟩
  rw [mergeComponent, ht.valid, hs.valid, hs.1]
  exact hnext

end Laplace.Geometry
