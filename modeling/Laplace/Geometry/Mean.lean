import Laplace.Geometry.Plans

/-!
# The mean of a component (geometry.c:251-368)

`exact_component_mean` and `rounded_quotient` give up early when a product does not fit in the
limbs; here the second component of the result tells whether that happened.
-/

namespace Laplace.Geometry

open Binary64

/-- `made_product && big_compare(&product, numerator) <= 0` -/
def productFits (numerator : Biguint) (product : Option Biguint) : Bool :=
  match product with
  | some product => bigCompare product numerator ≠ .gt
  | none => false

/-- The loop of `big_quotient_bounded`; the interval is halved in each round. -/
def quotientSearch (numerator : Biguint) (divisor : UInt64) (shift : UInt32) :
    ℕ → UInt64 → UInt64 → UInt64
  | 0, low, _ => low
  | rounds + 1, low, high =>
    if low < high then
      let midpoint := low + (high - low) / 2 + 1
      if productFits numerator (bigMultiplyShift divisor midpoint shift) then
        quotientSearch numerator divisor shift rounds midpoint high
      else quotientSearch numerator divisor shift rounds low (midpoint - 1)
    else low

def bigQuotientBounded (numerator : Biguint) (divisor : UInt64) (shift : UInt32)
    (lower upper : UInt64) : UInt64 :=
  quotientSearch numerator divisor shift 64 lower upper

/-- The loop of `uint64_high_bit`; 64 shifts leave nothing. -/
def highBitLoop : ℕ → UInt64 → ℤ → ℤ
  | 0, _, bit => bit
  | rounds + 1, value, bit => if value = 0 then bit else highBitLoop rounds (value >>> 1) (bit + 1)

def uint64HighBit (value : UInt64) : ℤ := highBitLoop 64 value (-1)

def roundedQuotient (numerator : Biguint) (divisor : UInt64) (shift : UInt32)
    (lower upper : UInt64) : UInt64 × Bool :=
  let quotient := bigQuotientBounded numerator divisor shift lower upper
  match bigShiftLeftOne numerator, bigMultiplyShift divisor (quotient * 2 + 1) shift with
  | some twiceNumerator, some midpoint =>
    let comparison := bigCompare twiceNumerator midpoint
    if comparison = .gt ∨ (comparison = .eq ∧ quotient &&& 1 ≠ 0) then (quotient + 1, false)
    else (quotient, false)
  | _, _ => (quotient, true)

/-- The sign bit is set on a result that is not zero. -/
def withSign (sign : ℤ) (resultBits : UInt64) : UInt64 :=
  if sign < 0 ∧ resultBits ≠ 0 then resultBits ||| 0x8000000000000000 else resultBits

/-- The branch of `exact_component_mean` below the smallest normal number. -/
def subnormalMean (numerator : Biguint) (count : UInt64) : UInt64 × Bool :=
  let significand := roundedQuotient numerator count 0 0 0x0010000000000000
  (if significand.1 = 0 then 0
    else if significand.1 = 0x0010000000000000 then 0x0010000000000000
    else significand.1, significand.2)

/-- The branch from the smallest normal number on. -/
def normalMean (numerator : Biguint) (count : UInt64) : UInt64 × Bool :=
  let ratioHighBit := bigHighBit numerator - uint64HighBit count
  match bigMultiplyShift count 1 (UInt32.ofInt ratioHighBit) with
  | none => (0, true)
  | some threshold =>
    let ratioHighBit :=
      if bigCompare numerator threshold = .lt then ratioHighBit - 1 else ratioHighBit
    let shift := UInt32.ofInt (ratioHighBit - 52)
    let rounded := roundedQuotient numerator count shift 0x0010000000000000 0x001fffffffffffff
    let carried := rounded.1 = 0x0020000000000000
    let significand := if carried then 0x0010000000000000 else rounded.1
    let ratioHighBit := if carried then ratioHighBit + 1 else ratioHighBit
    let exponentBits := UInt64.ofInt (ratioHighBit - 51)
    ((exponentBits <<< 52) ||| (significand - 0x0010000000000000), rounded.2)

def exactComponentMean (component : ExactComponent) (count : UInt64) : UInt64 × Bool :=
  if component.sign = 0 then (0, false)
  else
    match bigMultiplyShift count 1 52 with
    | none => (0, true)
    | some minimumNormal =>
      let result :=
        if bigCompare component.magnitude minimumNormal = .lt then
          subnormalMean component.magnitude count
        else normalMean component.magnitude count
      (withSign component.sign result.1, result.2)

/-! ## The loops -/

theorem highBitLoop_eq : ∀ (rounds : ℕ) (value : UInt64) (bit : ℤ), value.toNat < 2 ^ rounds →
    value ≠ 0 → highBitLoop rounds value bit = bit + 1 + Nat.log2 value.toNat
  | 0, value, _, hlt, hne => absurd (UInt64.toNat_inj.1 (by simpa using hlt)) hne
  | rounds + 1, value, bit, hlt, hne => by
    have hshift : (value >>> 1).toNat = value.toNat / 2 := by
      rw [UInt64.toNat_shiftRight, Nat.shiftRight_eq_div_pow]
      rfl
    have hpos : value.toNat ≠ 0 := fun h => hne (UInt64.toNat_inj.1 (by simpa using h))
    rw [highBitLoop, if_neg hne]
    by_cases hone : value >>> 1 = 0
    · have hval : value.toNat = 1 := by
        rw [hone, UInt64.toNat_zero] at hshift
        omega
      have hlog : Nat.log2 1 = 0 := by decide
      rw [hone, hval, hlog]
      cases rounds <;> simp [highBitLoop]
    · have hbig : 2 ≤ value.toNat := by
        have : (value >>> 1).toNat ≠ 0 := fun h => hone (UInt64.toNat_inj.1 (by simpa using h))
        omega
      rw [highBitLoop_eq rounds _ _ (by rw [hshift]; omega) hone, hshift, Nat.log2_def value.toNat,
        if_pos hbig]
      push_cast
      ring

theorem uint64HighBit_eq {value : UInt64} (hne : value ≠ 0) :
    uint64HighBit value = Nat.log2 value.toNat := by
  rw [uint64HighBit, highBitLoop_eq 64 value _ value.toNat_lt hne]
  ring

theorem productFits_iff (numerator : Biguint) (divisor midpoint : UInt64) (shift : UInt32) :
    productFits numerator (bigMultiplyShift divisor midpoint shift) = true ↔
      divisor.toNat * midpoint.toNat * 2 ^ shift.toNat ≤ numerator.value := by
  have h := bigMultiplyShift_holds divisor midpoint shift
  generalize bigMultiplyShift divisor midpoint shift = product at h ⊢
  cases product with
  | some product =>
    rw [productFits, bigCompare_eq, show product.value = _ from h, decide_eq_true_iff, ne_eq,
      compare_gt_iff_gt, not_lt]
  | none =>
    have := numerator.value_lt
    simp only [Holds, productFits] at h ⊢
    exact iff_of_false (by decide) (by omega)

/-- **The search** ends at the largest number of the interval whose product fits. -/
theorem quotientSearch_spec (numerator : Biguint) (divisor : UInt64) (shift : UInt32) :
    ∀ (rounds : ℕ) (low high : UInt64), low ≤ high → high.toNat - low.toNat < 2 ^ rounds →
    divisor.toNat * low.toNat * 2 ^ shift.toNat ≤ numerator.value →
    numerator.value < divisor.toNat * (high.toNat + 1) * 2 ^ shift.toNat →
    ∀ q, q = (quotientSearch numerator divisor shift rounds low high).toNat →
    divisor.toNat * q * 2 ^ shift.toNat ≤ numerator.value ∧
      numerator.value < divisor.toNat * (q + 1) * 2 ^ shift.toNat ∧
      low.toNat ≤ q ∧ q ≤ high.toNat
  | 0, low, high, hle, hrounds, hlow, hhigh, q, hq => by
    rw [UInt64.le_iff_toNat_le] at hle
    have heq : high.toNat = low.toNat := by omega
    rw [hq, quotientSearch]
    rw [heq] at hhigh ⊢
    exact ⟨hlow, hhigh, le_rfl, le_rfl⟩
  | rounds + 1, low, high, hle, hrounds, hlow, hhigh, q, hq => by
    rw [quotientSearch] at hq
    rw [UInt64.le_iff_toNat_le] at hle
    by_cases hlt : low < high
    · rw [if_pos hlt] at hq
      rw [UInt64.lt_iff_toNat_lt] at hlt
      have hhigh64 := high.toNat_lt
      set midpoint := low + (high - low) / 2 + 1 with hmid
      have hmidNat : midpoint.toNat = low.toNat + (high.toNat - low.toNat) / 2 + 1 := by
        have hsub : (high - low).toNat = high.toNat - low.toNat :=
          UInt64.toNat_sub_of_le _ _ (by rw [UInt64.le_iff_toNat_le]; omega)
        rw [hmid, UInt64.toNat_add, UInt64.toNat_add, UInt64.toNat_div, hsub]
        simp only [UInt64.toNat_ofNat, Nat.reducePow, Nat.reduceMod]
        omega
      have hfits := productFits_iff numerator divisor midpoint shift
      simp only at hq
      by_cases hfit : productFits numerator (bigMultiplyShift divisor midpoint shift) = true
      · rw [if_pos hfit] at hq
        have ih := quotientSearch_spec numerator divisor shift rounds midpoint high
          (by rw [UInt64.le_iff_toNat_le]; omega) (by omega) (hfits.1 hfit) hhigh q hq
        exact ⟨ih.1, ih.2.1, by omega, ih.2.2.2⟩
      · rw [if_neg hfit] at hq
        have hpred : (midpoint - 1).toNat = midpoint.toNat - 1 :=
          UInt64.toNat_sub_of_le _ _ (by rw [UInt64.le_iff_toNat_le]; simp; omega)
        have hover := Nat.lt_of_not_le (mt hfits.2 hfit)
        have ih := quotientSearch_spec numerator divisor shift rounds low (midpoint - 1)
          (by rw [UInt64.le_iff_toNat_le]; omega) (by omega) hlow
          (by rw [hpred, Nat.sub_add_cancel (by omega)]; exact hover) q hq
        exact ⟨ih.1, ih.2.1, ih.2.2.1, by omega⟩
    · rw [if_neg hlt] at hq
      rw [UInt64.lt_iff_toNat_lt] at hlt
      have heq : high.toNat = low.toNat := by omega
      rw [hq]
      rw [heq] at hhigh ⊢
      exact ⟨hlow, hhigh, le_rfl, le_rfl⟩

/-! ## Rounding -/

/-- `x` is `numerator / divisor`, and the quotient by `2 ^ shift` is `q`. -/
structure Quotient (numerator divisor shift q : ℕ) : Prop where
  fits : divisor * q * 2 ^ shift ≤ numerator
  exceeds : numerator < divisor * (q + 1) * 2 ^ shift

/-- The nearer of `q` and `q + 1`, the even one where there is no nearer one. -/
def NearerOf (numerator divisor shift q chosen : ℕ) : Prop :=
  (chosen = q ∧ (2 * numerator < divisor * (2 * q + 1) * 2 ^ shift ∨
    2 * numerator = divisor * (2 * q + 1) * 2 ^ shift ∧ q % 2 = 0)) ∨
  (chosen = q + 1 ∧ (divisor * (2 * q + 1) * 2 ^ shift < 2 * numerator ∨
    2 * numerator = divisor * (2 * q + 1) * 2 ^ shift ∧ q % 2 = 1))

theorem and_one_ne_zero (x : UInt64) : x &&& 1 ≠ 0 ↔ x.toNat % 2 = 1 := by
  rw [ne_eq, ← UInt64.toNat_inj, UInt64.toNat_and]
  change ¬ (x.toNat &&& 1 = 0) ↔ _
  rw [Nat.and_one_is_mod]
  omega

theorem roundedQuotient_spec {numerator : Biguint} {divisor : UInt64} {shift : UInt32}
    {lower upper : UInt64} (hle : lower ≤ upper) (hupper : upper.toNat < 2 ^ 62)
    (hlower : divisor.toNat * lower.toNat * 2 ^ shift.toNat ≤ numerator.value)
    (hexceeds : numerator.value < divisor.toNat * (upper.toNat + 1) * 2 ^ shift.toNat)
    (hfit : 2 * numerator.value + divisor.toNat * 2 ^ shift.toNat < bigLimit) :
    ∃ q chosen : ℕ, Quotient numerator.value divisor.toNat shift.toNat q ∧
      lower.toNat ≤ q ∧ q ≤ upper.toNat ∧
      NearerOf numerator.value divisor.toNat shift.toNat q chosen ∧
      (roundedQuotient numerator divisor shift lower upper).1.toNat = chosen ∧
      (roundedQuotient numerator divisor shift lower upper).2 = false := by
  have hspec := quotientSearch_spec numerator divisor shift 64 lower upper hle
    (by have := upper.toNat_lt; omega) hlower hexceeds _ rfl
  rw [← bigQuotientBounded] at hspec
  unfold roundedQuotient
  simp only
  set quotient := bigQuotientBounded numerator divisor shift lower upper
  set q := quotient.toNat with hq
  obtain ⟨hfits, hexc, hlow, hup⟩ := hspec
  have hodd : (quotient * 2 + 1).toNat = 2 * q + 1 := by
    rw [UInt64.toNat_add, UInt64.toNat_mul]
    simp only [UInt64.toNat_ofNat, Nat.reducePow, Nat.reduceMod]
    omega
  have hmid : divisor.toNat * (2 * q + 1) * 2 ^ shift.toNat =
      2 * (divisor.toNat * q * 2 ^ shift.toNat) + divisor.toNat * 2 ^ shift.toNat := by ring
  obtain ⟨twice, htwice, htwiceVal⟩ := (bigShiftLeftOne_holds numerator).eq_some (by omega)
  obtain ⟨midpoint, hmidpoint, hmidVal⟩ :=
    (bigMultiplyShift_holds divisor (quotient * 2 + 1) shift).eq_some (by rw [hodd]; omega)
  rw [hodd] at hmidVal
  rw [htwice, hmidpoint]
  simp only [bigCompare_eq, htwiceVal, hmidVal, compare_gt_iff_gt, compare_eq_iff_eq,
    and_one_ne_zero, ← hq]
  have hplus : (quotient + 1).toNat = q + 1 := by
    rw [UInt64.toNat_add]
    simp only [UInt64.toNat_ofNat, Nat.reducePow, Nat.reduceMod]
    omega
  refine ⟨q, ?_⟩
  by_cases hup : 2 * numerator.value > divisor.toNat * (2 * q + 1) * 2 ^ shift.toNat ∨
      (2 * numerator.value = divisor.toNat * (2 * q + 1) * 2 ^ shift.toNat ∧ q % 2 = 1)
  · rw [if_pos hup]
    exact ⟨q + 1, ⟨hfits, hexc⟩, hlow, by assumption, .inr ⟨rfl, hup⟩, hplus, rfl⟩
  · rw [if_neg hup]
    refine ⟨q, ⟨hfits, hexc⟩, hlow, by assumption, .inl ⟨rfl, ?_⟩, rfl, rfl⟩
    omega

variable {shift : ℕ}

/-- A significand `q` at the exponent of `shift`, as a pattern. -/
theorem ladder_scaled {q : ℕ} (hshape : shift = 0 ∨ 2 ^ 52 ≤ q) (hq : q < 2 ^ 53) :
    ladder (shift * 2 ^ 52 + q) = q * 2 ^ shift ∧
      ladder (shift * 2 ^ 52 + q + 1) = (q + 1) * 2 ^ shift := by
  rw [ladder_succ, ladder]
  rcases Nat.lt_or_ge q (2 ^ 52) with hsmall | hlarge
  · have hshift : shift = 0 := hshape.resolve_right (by omega)
    rw [hshift, Nat.zero_mul, Nat.zero_add, Nat.div_eq_of_lt hsmall, if_pos rfl,
      Nat.mod_eq_of_lt hsmall]
    simp
  · have hdiv : (shift * 2 ^ 52 + q) / 2 ^ 52 = shift + 1 := by omega
    have hmod : (shift * 2 ^ 52 + q) % 2 ^ 52 = q - 2 ^ 52 := by omega
    rw [hdiv, hmod, if_neg (by omega), Nat.add_sub_cancel, Nat.add_sub_cancel' hlarge]
    exact ⟨rfl, by ring⟩

variable {bits : UInt64}

/-- **The nearer of two neighbouring significands is the nearest pattern.** -/
theorem nearest_of_nearerOf {numerator divisor q chosen : ℕ} (hdivisor : 0 < divisor)
    (hquotient : Quotient numerator divisor shift q) (hshape : shift = 0 ∨ 2 ^ 52 ≤ q)
    (hq : q < 2 ^ 53) (hshift : shift ≤ 1022) (hnearer : NearerOf numerator divisor shift q chosen)
    (hbits : bits.toNat = shift * 2 ^ 52 + chosen) :
    Binary64.Nearest ((numerator : ℚ) / divisor / 2 ^ 1074) bits := by
  obtain ⟨hladder, hladder'⟩ := ladder_scaled hshape hq
  have hpos : (0 : ℚ) < divisor := by exact_mod_cast hdivisor
  have hfits : (divisor * q * 2 ^ shift : ℚ) ≤ numerator := by exact_mod_cast hquotient.fits
  have hexceeds : (numerator : ℚ) < divisor * (q + 1) * 2 ^ shift := by
    exact_mod_cast hquotient.exceeds
  have hhalf : 2 * ((numerator : ℚ) / divisor) = (2 * numerator : ℕ) / divisor := by
    push_cast
    ring
  have hsum : (ladder (shift * 2 ^ 52 + q) : ℚ) +
      ladder (shift * 2 ^ 52 + q + 1) =
        (divisor * (2 * q + 1) * 2 ^ shift : ℕ) / divisor := by
    rw [hladder, hladder', eq_div_iff hpos.ne']
    push_cast
    ring
  have hparity : (shift * 2 ^ 52 + q) % 2 = q % 2 := by omega
  refine (@Binary64.RoundsFrom.nearest (shift * 2 ^ 52 + q)) ?_ ?_ ?_ (by omega)
  · rw [Binary64.RoundsFrom, hhalf, hsum, hparity, hbits, div_lt_div_iff_of_pos_right hpos,
      div_lt_div_iff_of_pos_right hpos, div_left_inj' hpos.ne', Nat.cast_lt, Nat.cast_lt,
      Nat.cast_inj, Nat.add_assoc, Nat.add_left_cancel_iff, Nat.add_left_cancel_iff]
    exact hnearer
  · rw [hladder, le_div_iff₀ hpos]
    push_cast
    linarith
  · rw [hladder', div_le_iff₀ hpos]
    push_cast
    linarith

theorem uint32_ofInt {n : ℕ} (h : n < 2 ^ 32) : (UInt32.ofInt (n : ℤ)).toNat = n := by
  have hmod : ((n : ℤ) % 2 ^ 32).toNat = n := by omega
  rw [UInt32.ofInt, hmod, UInt32.toNat_ofNat']
  exact Nat.mod_eq_of_lt h

theorem uint64_ofInt {n : ℕ} (h : n < 2 ^ 64) : (UInt64.ofInt (n : ℤ)).toNat = n := by
  have hmod : ((n : ℤ) % 2 ^ 64).toNat = n := by omega
  rw [UInt64.ofInt, hmod, UInt64.toNat_ofNat']
  exact Nat.mod_eq_of_lt h

theorem pack_toNat {exponentBits fraction : UInt64} (he : exponentBits.toNat < 2 ^ 11)
    (hf : fraction.toNat < 2 ^ 52) :
    ((exponentBits <<< 52) ||| fraction).toNat = exponentBits.toNat * 2 ^ 52 + fraction.toNat := by
  have hshift : (exponentBits <<< 52).toNat = exponentBits.toNat <<< 52 := by
    rw [UInt64.toNat_shiftLeft]
    simp only [UInt64.toNat_ofNat, Nat.reducePow, Nat.reduceMod, Nat.shiftLeft_eq]
    omega
  rw [UInt64.toNat_or, hshift, ← Nat.shiftLeft_add_eq_or_of_lt hf, Nat.shiftLeft_eq]

theorem normal_pack (hshift : shift ≤ 1022) {rounded : UInt64} (hlow : 2 ^ 52 ≤ rounded.toNat)
    (hhigh : rounded.toNat ≤ 2 ^ 53) :
    ((UInt64.ofInt ((if rounded = 0x0020000000000000 then ((shift + 52 : ℕ) : ℤ) + 1
        else (shift + 52 : ℕ)) - 51) <<< 52) |||
      ((if rounded = 0x0020000000000000 then 0x0010000000000000 else rounded) -
        0x0010000000000000)).toNat = shift * 2 ^ 52 + rounded.toNat := by
  by_cases hcarry : rounded = 0x0020000000000000
  · have hexp : ((shift + 52 : ℕ) : ℤ) + 1 - 51 = ((shift + 2 : ℕ) : ℤ) := by omega
    have hval := uint64_ofInt (n := shift + 2) (by omega)
    rw [if_pos hcarry, if_pos hcarry, hexp, pack_toNat (by omega) (by decide), hval, hcarry]
    change (shift + 2) * 2 ^ 52 + 0 = shift * 2 ^ 52 + 2 ^ 53
    omega
  · have hexp : ((shift + 52 : ℕ) : ℤ) - 51 = ((shift + 1 : ℕ) : ℤ) := by omega
    have hval := uint64_ofInt (n := shift + 1) (by omega)
    have hlt : rounded.toNat ≠ 2 ^ 53 := fun h => hcarry (UInt64.toNat_inj.1 h)
    have hsub : (rounded - 0x0010000000000000).toNat = rounded.toNat - 2 ^ 52 :=
      UInt64.toNat_sub_of_le _ _ (UInt64.le_iff_toNat_le.2 hlow)
    rw [if_neg hcarry, if_neg hcarry, hexp, pack_toNat (by omega) (by omega), hval, hsub]
    omega

theorem ratio_highBit {numerator count : ℕ} (hcount : count ≠ 0)
    (hnormal : count * 2 ^ 52 ≤ numerator) :
    ∃ d, Nat.log2 numerator = Nat.log2 count + d ∧ count * 2 ^ d < 2 * numerator ∧
      numerator < count * 2 ^ (d + 1) ∧ 52 ≤ d := by
  have hne : numerator ≠ 0 := by
    have : 0 < count * 2 ^ 52 := by positivity
    omega
  obtain ⟨hnlow, hnhigh⟩ := (Nat.log2_eq_iff hne).1 rfl
  obtain ⟨hclow, hchigh⟩ := (Nat.log2_eq_iff hcount).1 rfl
  have hle : Nat.log2 count ≤ Nat.log2 numerator := by
    have hpow : 2 ^ Nat.log2 count < 2 ^ (Nat.log2 numerator + 1) := by omega
    have := (Nat.pow_lt_pow_iff_right (by decide)).1 hpow
    omega
  obtain ⟨d, hd⟩ := Nat.exists_eq_add_of_le hle
  have hhigh : numerator < count * 2 ^ (d + 1) := by
    calc numerator < 2 ^ (Nat.log2 count + (d + 1)) := by rw [← Nat.add_assoc, ← hd]; exact hnhigh
      _ = 2 ^ Nat.log2 count * 2 ^ (d + 1) := pow_add _ _ _
      _ ≤ count * 2 ^ (d + 1) := Nat.mul_le_mul_right _ hclow
  refine ⟨d, hd, ?_, hhigh, ?_⟩
  · calc count * 2 ^ d < 2 ^ (Nat.log2 count + 1) * 2 ^ d :=
        Nat.mul_lt_mul_of_pos_right hchigh (by positivity)
      _ = 2 * 2 ^ Nat.log2 numerator := by rw [hd, pow_add, pow_add]; ring
      _ ≤ 2 * numerator := Nat.mul_le_mul_left _ hnlow
  · have hlt : count * 2 ^ 52 < count * 2 ^ (d + 1) := by omega
    have := (Nat.pow_lt_pow_iff_right (by decide)).1 (Nat.lt_of_mul_lt_mul_left hlt)
    omega

/-! ## The two branches -/

/-- A numerator whose quotient is at most one, and how far it is from filling the limbs. -/
structure UnitMean (numerator : Biguint) (count : UInt64) : Prop where
  nonzero : count ≠ 0
  unit : numerator.value ≤ count.toNat * 2 ^ 1074

namespace UnitMean

variable {numerator : Biguint} {count : UInt64}

theorem count_pos (h : UnitMean numerator count) : 0 < count.toNat :=
  Nat.pos_of_ne_zero fun h0 => h.nonzero (UInt64.toNat_inj.1 (by simpa using h0))

theorem fits (h : UnitMean numerator count) {k : ℕ} (hk : k ≤ 1074) :
    2 * numerator.value + count.toNat * 2 ^ k < bigLimit := by
  have hpos := Nat.two_pow_pos 1074
  have hle := pow_le_bigLimit (k := 64 + 1074 + 2) (by decide)
  rw [pow_add, pow_add] at hle
  have hmul := Nat.mul_lt_mul_of_pos_right count.toNat_lt hpos
  have hx : count.toNat * 2 ^ k ≤ count.toNat * 2 ^ 1074 :=
    Nat.mul_le_mul_left _ (Nat.pow_le_pow_right (by decide) hk)
  have hunit := h.unit
  generalize (2 : ℕ) ^ 1074 = unit at *
  omega

theorem subnormal_nearest (h : UnitMean numerator count)
    (hsub : numerator.value < count.toNat * 2 ^ 52) :
    Binary64.Nearest ((numerator.value : ℚ) / count.toNat / 2 ^ 1074)
        (subnormalMean numerator count).1 ∧
      (subnormalMean numerator count).1.toNat < 2 ^ 63 ∧
      (subnormalMean numerator count).2 = false := by
  have hupper : numerator.value <
      count.toNat * ((0x0010000000000000 : UInt64).toNat + 1) * 2 ^ (0 : UInt32).toNat := by
    change numerator.value < count.toNat * (2 ^ 52 + 1) * 1
    omega
  obtain ⟨q, chosen, hquotient, -, -, hnearer, hrounded, hearly⟩ :=
    (@roundedQuotient_spec _ _ _ 0) (by decide) (by decide) (by simp) hupper
      (h.fits (Nat.zero_le _))
  have hq : q < 2 ^ 52 := by
    have hle : count.toNat * q ≤ numerator.value := by simpa using hquotient.fits
    exact Nat.lt_of_mul_lt_mul_left (hle.trans_lt hsub)
  have hbits : (subnormalMean numerator count).1.toNat = chosen := by
    rw [← hrounded, subnormalMean]
    simp only
    split
    · next hzero => rw [hzero]
    · split
      · next hone => rw [hone]
      · rfl
  refine ⟨nearest_of_nearerOf h.count_pos hquotient (.inl rfl) (by omega) (Nat.zero_le _) hnearer
    (by simpa using hbits), ?_, hearly⟩
  rw [hbits]
  rcases hnearer with ⟨hc, -⟩ | ⟨hc, -⟩ <;> omega

theorem normal_nearest (h : UnitMean numerator count)
    (hnormal : count.toNat * 2 ^ 52 ≤ numerator.value) :
    Binary64.Nearest ((numerator.value : ℚ) / count.toNat / 2 ^ 1074)
        (normalMean numerator count).1 ∧
      (normalMean numerator count).1.toNat < 2 ^ 63 ∧
      (normalMean numerator count).2 = false := by
  have hcpos := h.count_pos
  have hnpos : numerator.value ≠ 0 := by
    have : 0 < count.toNat * 2 ^ 52 := by positivity
    omega
  obtain ⟨d, hlog, hdlow, hdhigh, hd⟩ := ratio_highBit hcpos.ne' hnormal
  have hratio : bigHighBit numerator - uint64HighBit count = (d : ℤ) := by
    rw [bigHighBit_eq hnpos, uint64HighBit_eq h.nonzero, hlog]
    push_cast
    ring
  -- the position found, corrected by the comparison with the threshold
  obtain ⟨r, hr, hrlow, hrhigh⟩ : ∃ r, (r = if numerator.value < count.toNat * 2 ^ d then d - 1
      else d) ∧ count.toNat * 2 ^ r ≤ numerator.value ∧
      numerator.value < count.toNat * 2 ^ (r + 1) := by
    refine ⟨_, rfl, ?_⟩
    split
    · next hlt =>
      obtain ⟨d, rfl⟩ := Nat.exists_eq_succ_of_ne_zero (show d ≠ 0 by omega)
      rw [Nat.succ_eq_add_one, Nat.add_sub_cancel]
      rw [Nat.succ_eq_add_one, Nat.pow_succ] at hdlow
      exact ⟨by linarith, hlt⟩
    · next hge => exact ⟨Nat.le_of_not_lt hge, hdhigh⟩
  have hpow : ∀ {a b : ℕ}, count.toNat * 2 ^ a < count.toNat * 2 ^ b → a < b := fun hlt =>
    (Nat.pow_lt_pow_iff_right (by decide)).1 (Nat.lt_of_mul_lt_mul_left hlt)
  have hr52 : 52 ≤ r := by
    have := hpow (hnormal.trans_lt hrhigh)
    omega
  have hr1074 : r ≤ 1074 := by
    have hone : count.toNat * 2 ^ r ≤ count.toNat * 2 ^ 1074 := hrlow.trans h.unit
    exact (Nat.pow_le_pow_iff_right one_lt_two).1 (Nat.le_of_mul_le_mul_left hone hcpos)
  obtain ⟨shift, rfl⟩ := Nat.exists_eq_add_of_le' hr52
  have hshift : shift ≤ 1022 := by omega
  have hd32 : d < 2 ^ 32 := by
    have : d ≤ shift + 53 := by
      split at hr <;> omega
    omega
  obtain ⟨threshold, hthreshold, hthresholdVal⟩ :=
    (bigMultiplyShift_holds count 1 (UInt32.ofInt (d : ℤ))).eq_some (by
      have := h.fits (k := 0) (by decide)
      rw [uint32_ofInt hd32, UInt64.toNat_one, Nat.mul_one]
      omega)
  rw [uint32_ofInt hd32, UInt64.toNat_one, Nat.mul_one] at hthresholdVal
  have hcorrected : (if bigCompare numerator threshold = .lt then (d : ℤ) - 1 else d) =
      ((shift + 52 : ℕ) : ℤ) := by
    rw [bigCompare_eq, hthresholdVal, hr]
    simp only [compare_lt_iff_lt]
    split <;> omega
  have hshiftVal : (UInt32.ofInt (((shift + 52 : ℕ) : ℤ) - 52)).toNat = shift := by
    rw [show ((shift + 52 : ℕ) : ℤ) - 52 = (shift : ℤ) by omega]
    exact uint32_ofInt (by omega)
  have hlower : count.toNat * (0x0010000000000000 : UInt64).toNat * 2 ^ shift ≤
      numerator.value := by
    calc count.toNat * 2 ^ 52 * 2 ^ shift = count.toNat * 2 ^ (shift + 52) := by ring
      _ ≤ numerator.value := hrlow
  have hupper : numerator.value <
      count.toNat * ((0x001fffffffffffff : UInt64).toNat + 1) * 2 ^ shift := by
    calc numerator.value < count.toNat * 2 ^ (shift + 52 + 1) := hrhigh
      _ = count.toNat * 2 ^ 53 * 2 ^ shift := by ring
  obtain ⟨q, chosen, hquotient, hqlow, hqhigh, hnearer, hrounded, hearly⟩ :=
    @roundedQuotient_spec numerator count (UInt32.ofInt (((shift + 52 : ℕ) : ℤ) - 52))
      0x0010000000000000 0x001fffffffffffff (by decide) (by decide) (by rw [hshiftVal]; exact hlower)
      (by rw [hshiftVal]; exact hupper) (h.fits (by omega))
  rw [hshiftVal] at hquotient hnearer
  change 2 ^ 52 ≤ q at hqlow
  change q ≤ 2 ^ 53 - 1 at hqhigh
  have hchosen : 2 ^ 52 ≤ chosen ∧ chosen ≤ 2 ^ 53 := by
    rcases hnearer with ⟨hc, -⟩ | ⟨hc, -⟩ <;> omega
  have hbits : (normalMean numerator count).1.toNat = shift * 2 ^ 52 + chosen := by
    rw [← hrounded] at hchosen ⊢
    rw [normalMean, hratio, hthreshold]
    simp only [hcorrected]
    exact normal_pack hshift hchosen.1 hchosen.2
  refine ⟨nearest_of_nearerOf hcpos hquotient (.inr hqlow) (by omega) hshift hnearer hbits, ?_, ?_⟩
  · omega
  · rw [normalMean, hratio, hthreshold]
    simp only [hcorrected]
    exact hearly

end UnitMean

/-! ## The sign -/

variable {sign : ℤ}

theorem withSign_eq (h : bits.toNat < 2 ^ 63) :
    withSign sign bits = if sign < 0 ∧ bits ≠ 0 then opposite bits else bits := by
  rw [withSign]
  split
  · rw [← UInt64.toNat_inj, opposite_toNat, UInt64.toNat_or,
      Nat.mod_eq_of_lt (by omega), Nat.or_comm, Nat.add_comm]
    exact (Nat.two_pow_add_eq_or_of_lt h 1).symm
  · rfl

theorem withSign_nearest {x : ℚ} (h : bits.toNat < 2 ^ 63)
    (hnearest : Binary64.Nearest (x / 2 ^ 1074) bits) :
    Binary64.Nearest ((if sign < 0 then -x else x) / 2 ^ 1074) (withSign sign bits) := by
  rw [withSign_eq h]
  by_cases hneg : sign < 0
  · rw [if_pos hneg]
    by_cases hzero : bits = 0
    · rw [if_neg (by simp [hzero]), hzero]
      have hopposite := nearest_opposite hnearest
      rw [hzero] at hopposite
      have hunits : units (opposite 0) = units 0 := by
        rw [units_opposite]
        rfl
      exact nearest_congr hunits (by decide) (by decide) hopposite
    · rw [if_pos ⟨hneg, hzero⟩]
      exact nearest_opposite hnearest
  · rw [if_neg hneg, if_neg (by simp [hneg])]
    exact hnearest

theorem withSign_zero (h : bits.toNat < 2 ^ 63) (hzero : value (withSign sign bits) = 0) :
    withSign sign bits = 0 := by
  rw [withSign_eq h] at hzero ⊢
  have hbits : units bits = 0 → bits = 0 := by
    intro hunits
    rw [units_of_lt h] at hunits
    have hladder : ladder bits.toNat = ladder 0 := by
      rw [Nat.cast_eq_zero.1 hunits]
      rfl
    exact UInt64.toNat_inj.1 (ladder_strictMono.injective hladder)
  rw [value_eq_zero] at hzero
  split at hzero
  · next hcond =>
    rw [units_opposite, neg_eq_zero] at hzero
    exact absurd (hbits hzero) hcond.2
  · next hcond =>
    rw [if_neg hcond]
    exact hbits hzero

theorem exactComponentMean_of_represents {component : ExactComponent} {z : ℤ} {count : UInt64}
    (h : component.Represents z) (hcount : count ≠ 0)
    (hunit : z.natAbs ≤ count.toNat * 2 ^ 1074) :
    Binary64.Nearest ((z : ℚ) / 2 ^ 1074 / count.toNat) (exactComponentMean component count).1 ∧
      (value (exactComponentMean component count).1 = 0 →
        (exactComponentMean component count).1 = 0) ∧
      (exactComponentMean component count).2 = false := by
  obtain ⟨hsign, hmag⟩ := h
  have hmean : UnitMean component.magnitude count := ⟨hcount, by rw [hmag]; exact hunit⟩
  rw [div_right_comm, exactComponentMean, hsign]
  by_cases hzero : z = 0
  · rw [hzero, Int.sign_zero, if_pos rfl]
    refine ⟨?_, fun _ => rfl, rfl⟩
    rw [Int.cast_zero, zero_div, zero_div]
    exact nearest_zero
  obtain ⟨minimumNormal, hminimum, hminimumVal⟩ :=
    (bigMultiplyShift_holds count 1 52).eq_some (by
      have := hmean.fits (k := 52) (by decide)
      rw [UInt64.toNat_one, Nat.mul_one]
      exact (Nat.le_add_left _ _).trans_lt this)
  rw [UInt64.toNat_one, Nat.mul_one] at hminimumVal
  change _ = count.toNat * 2 ^ 52 at hminimumVal
  rw [if_neg (by simpa using hzero), hminimum]
  simp only [bigCompare_eq, hminimumVal, compare_lt_iff_lt]
  set result := if component.magnitude.value < count.toNat * 2 ^ 52 then
    subnormalMean component.magnitude count else normalMean component.magnitude count with hresult
  have hbranch : Binary64.Nearest ((component.magnitude.value : ℚ) / count.toNat / 2 ^ 1074)
      result.1 ∧ result.1.toNat < 2 ^ 63 ∧ result.2 = false := by
    rw [hresult]
    split
    · next hsub => exact hmean.subnormal_nearest hsub
    · next hnormal =>
      exact hmean.normal_nearest (Nat.le_of_not_lt hnormal)
  obtain ⟨hnearest, hbits, hearly⟩ := hbranch
  have habs : (z : ℚ) / count.toNat = if z.sign < 0 then
      -((component.magnitude.value : ℚ) / count.toNat)
      else (component.magnitude.value : ℚ) / count.toNat := by
    rw [hmag, Nat.cast_natAbs, Int.cast_abs]
    simp only [Int.sign_neg_iff]
    split
    · next hneg => rw [abs_of_neg (by exact_mod_cast hneg), neg_div, neg_neg]
    · next hpos => rw [abs_of_nonneg (by exact_mod_cast not_lt.1 hpos)]
  rw [habs]
  exact ⟨withSign_nearest hbits hnearest, withSign_zero hbits, hearly⟩

/-- **Correctly rounded mean.** The mean of a component of any plan's accumulator is the pattern
nearest to the exact sum divided by the count, ties to even; a mean that rounds to zero is the
positive zero; and no early return is taken. -/
theorem exactComponentMean_nearest (plan : Plan) (component : Fin 4)
    (hcount : plan.accumulator.logicalCount ≠ 0) :
    Binary64.Nearest
        ((exactSum plan.accepted component : ℚ) / 2 ^ 1074 / plan.accumulator.logicalCount.toNat)
        (exactComponentMean (plan.accumulator.sum component) plan.accumulator.logicalCount).1 ∧
      (value
          (exactComponentMean (plan.accumulator.sum component) plan.accumulator.logicalCount).1 = 0 →
        (exactComponentMean (plan.accumulator.sum component) plan.accumulator.logicalCount).1 = 0) ∧
      (exactComponentMean (plan.accumulator.sum component)
        plan.accumulator.logicalCount).2 = false := by
  have h := plan.represents_accepted
  have hunit := natAbs_exactSum_le component h.unit
  rw [← h.count] at hunit
  exact exactComponentMean_of_represents (h.sum component) hcount hunit

/-- Thirds: of one, and of the smallest subnormal, rounded down to zero, exact and rounded up. -/
theorem exactComponentMean_thirds :
    let plan := (Plan.init.add ![0x3ff0000000000000, 1, 0x8000000000000001, 0] 1).add
      ![0, 0, 0x8000000000000001, 0x8000000000000001] 2
    exactComponentMean (plan.accumulator.sum 0) plan.accumulator.logicalCount =
        (0x3fd5555555555555, false) ∧
      Binary64.Nearest
        ((exactSum plan.accepted 0 : ℚ) / 2 ^ 1074 / plan.accumulator.logicalCount.toNat)
        (exactComponentMean (plan.accumulator.sum 0) plan.accumulator.logicalCount).1 ∧
      exactComponentMean (plan.accumulator.sum 1) plan.accumulator.logicalCount = (0, false) ∧
      exactComponentMean (plan.accumulator.sum 2) plan.accumulator.logicalCount =
        (0x8000000000000001, false) ∧
      exactComponentMean (plan.accumulator.sum 3) plan.accumulator.logicalCount =
        (0x8000000000000001, false) :=
  ⟨by decide +kernel, (exactComponentMean_nearest _ 0 (by decide +kernel)).1, by decide +kernel,
    by decide +kernel, by decide +kernel⟩

end Laplace.Geometry
