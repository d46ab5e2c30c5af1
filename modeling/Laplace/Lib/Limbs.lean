import Mathlib.Data.Nat.Bitwise
import Mathlib.Data.Nat.Digits.Lemmas
import Mathlib.Tactic

/-!
# Numbers in words of 32 bits

A list of words is a number, least significant word first. The loops below run over the words with
a carry or a borrow in 64 bits; each has one lemma that says what number it leaves. An operation
that can run out of words is an `Option`, and `Encodes` says both what it returns and when it fails.
-/

namespace Laplace.Limbs

def value (limbs : List UInt32) : ℕ := Nat.ofDigits (2 ^ 32) (limbs.map UInt32.toNat)

@[simp] theorem value_nil : value [] = 0 := rfl

@[simp] theorem value_cons (x : UInt32) (xs : List UInt32) :
    value (x :: xs) = x.toNat + 2 ^ 32 * value xs := by
  simp only [value, List.map_cons, Nat.ofDigits_cons]

theorem value_append (xs ys : List UInt32) :
    value (xs ++ ys) = value xs + 2 ^ (32 * xs.length) * value ys := by
  simp only [value, List.map_append, Nat.ofDigits_append, List.length_map, ← Nat.pow_mul]

theorem value_lt (xs : List UInt32) : value xs < 2 ^ (32 * xs.length) := by
  have h := Nat.ofDigits_lt_base_pow_length (b := 2 ^ 32) (l := xs.map UInt32.toNat) (by decide)
    (by simpa using fun x _ => x.toNat_lt)
  simpa only [value, List.length_map, ← Nat.pow_mul] using h

theorem value_inj {xs ys : List UInt32} (hlen : xs.length = ys.length)
    (h : value xs = value ys) : xs = ys := by
  have hmap := Nat.ofDigits_inj_of_len_eq (b := 2 ^ 32) (by decide) (by simpa using hlen)
    (by simpa using fun x _ => x.toNat_lt) (by simpa using fun x _ => x.toNat_lt) h
  exact List.map_injective_iff.2 (fun _ _ => UInt32.toNat_inj.1) hmap

@[simp] theorem value_replicate_zero (n : ℕ) : value (List.replicate n 0) = 0 := by
  simp [value, Nat.ofDigits_replicate_zero]

theorem value_eq_zero_iff {xs : List UInt32} : value xs = 0 ↔ ∀ x ∈ xs, x = 0 := by
  constructor
  · intro h x hx
    have hrep : xs = List.replicate xs.length 0 := value_inj (by simp) (by simpa using h)
    rw [hrep] at hx
    exact List.eq_of_mem_replicate hx
  · intro h
    rw [List.eq_replicate_iff.2 ⟨rfl, h⟩, value_replicate_zero]

theorem value_set {xs : List UInt32} {i : ℕ} (hi : i < xs.length) (hzero : xs[i] = 0)
    (x : UInt32) : value (xs.set i x) = value xs + 2 ^ (32 * i) * x.toNat := by
  have hsplit : xs = xs.take i ++ 0 :: xs.drop (i + 1) := by
    rw [← hzero, List.getElem_cons_drop, List.take_append_drop]
  have hset : xs.set i x = xs.take i ++ x :: xs.drop (i + 1) := List.set_eq_take_append_cons_drop
    |>.trans (if_pos hi)
  have hlen : (xs.take i).length = i := by simp; omega
  rw [hset]
  conv_rhs => rw [hsplit]
  simp only [value_append, value_cons, hlen, UInt32.toNat_zero]
  ring

/-! ## Words -/

theorem word_split (x : UInt64) : x.toUInt32.toNat + 2 ^ 32 * (x >>> 32).toNat = x.toNat := by
  have hlow : x.toUInt32.toNat = x.toNat % 2 ^ 32 := UInt64.toNat_toUInt32 x
  have hhigh : (x >>> 32).toNat = x.toNat / 2 ^ 32 := by
    simp [UInt64.toNat_shiftRight, Nat.shiftRight_eq_div_pow]
  omega

theorem high_lt (x : UInt64) : (x >>> 32).toNat < 2 ^ 32 := by
  have := word_split x
  have := x.toNat_lt
  omega

/-! ## Addition and subtraction -/

def addCarry : List UInt32 → List UInt32 → UInt64 → List UInt32 × UInt64
  | t :: ts, a :: as, carry =>
    let total := t.toUInt64 + a.toUInt64 + carry
    let rest := addCarry ts as (total >>> 32)
    (total.toUInt32 :: rest.1, rest.2)
  | _, _, carry => ([], carry)

theorem addCarry_length : ∀ (ts as : List UInt32) (carry : UInt64), ts.length = as.length →
    (addCarry ts as carry).1.length = ts.length
  | [], _, _, _ => rfl
  | t :: ts, [], _, h => by simp at h
  | t :: ts, a :: as, _, h => by
    simp only [addCarry, List.length_cons]
    rw [addCarry_length ts as _ (by simpa using h)]

theorem addCarry_value : ∀ (ts as : List UInt32) (carry : UInt64), ts.length = as.length →
    carry.toNat ≤ 1 →
    value (addCarry ts as carry).1 + 2 ^ (32 * ts.length) * (addCarry ts as carry).2.toNat =
      value ts + value as + carry.toNat
  | [], [], carry, _, _ => by simp [addCarry]
  | [], a :: as, _, h, _ => by simp at h
  | t :: ts, [], _, h, _ => by simp at h
  | t :: ts, a :: as, carry, h, hc => by
    simp only [addCarry, value_cons, List.length_cons]
    set total := t.toUInt64 + a.toUInt64 + carry with htotal
    have ht := t.toNat_lt
    have ha := a.toNat_lt
    have hsum : total.toNat = t.toNat + a.toNat + carry.toNat := by
      simp [htotal]
      omega
    have hsplit := word_split total
    have ih := addCarry_value ts as (total >>> 32) (by simpa using h) (by omega)
    rw [Nat.mul_succ, Nat.pow_add]
    linarith

def subBorrow : List UInt32 → List UInt32 → UInt64 → List UInt32 × UInt64
  | t :: ts, s :: ss, borrow =>
    let subtrahend := s.toUInt64 + borrow
    let rest := subBorrow ts ss (if t.toUInt64 < subtrahend then 1 else 0)
    ((t.toUInt64 - subtrahend).toUInt32 :: rest.1, rest.2)
  | _, _, borrow => ([], borrow)

theorem subBorrow_length : ∀ (ts ss : List UInt32) (borrow : UInt64), ts.length = ss.length →
    (subBorrow ts ss borrow).1.length = ts.length
  | [], _, _, _ => rfl
  | t :: ts, [], _, h => by simp at h
  | t :: ts, s :: ss, _, h => by
    simp only [subBorrow, List.length_cons]
    rw [subBorrow_length ts ss _ (by simpa using h)]

theorem subBorrow_value : ∀ (ts ss : List UInt32) (borrow : UInt64), ts.length = ss.length →
    borrow.toNat ≤ 1 →
    value (subBorrow ts ss borrow).1 + value ss + borrow.toNat =
      value ts + 2 ^ (32 * ts.length) * (subBorrow ts ss borrow).2.toNat
  | [], [], borrow, _, _ => by simp [subBorrow]
  | [], s :: ss, _, h, _ => by simp at h
  | t :: ts, [], _, h, _ => by simp at h
  | t :: ts, s :: ss, borrow, h, hb => by
    simp only [subBorrow, value_cons, List.length_cons]
    set subtrahend := s.toUInt64 + borrow with hsub
    set next : UInt64 := if t.toUInt64 < subtrahend then 1 else 0 with hnext
    have ht := t.toNat_lt
    have hs := s.toNat_lt
    have hval : subtrahend.toNat = s.toNat + borrow.toNat := by
      simp [hsub]
      omega
    have hword : (t.toUInt64 - subtrahend).toUInt32.toNat + subtrahend.toNat =
        t.toNat + 2 ^ 32 * next.toNat := by
      rw [UInt64.toNat_toUInt32, UInt64.toNat_sub, hnext]
      by_cases hlt : t.toUInt64 < subtrahend
      · rw [if_pos hlt]
        rw [UInt64.lt_iff_toNat_lt] at hlt
        simp at hlt ⊢
        omega
      · rw [if_neg hlt]
        rw [UInt64.lt_iff_toNat_lt] at hlt
        simp at hlt ⊢
        omega
    have ih := subBorrow_value ts ss next (by simpa using h) (by rw [hnext]; split <;> decide)
    rw [Nat.mul_succ, Nat.pow_add]
    linarith

/-! ## Comparison and the highest bit, from the most significant word down -/

def compareDown : List UInt32 → List UInt32 → Ordering
  | l :: ls, r :: rs => if l < r then .lt else if l > r then .gt else compareDown ls rs
  | _, _ => .eq

theorem compareDown_eq : ∀ (ls rs : List UInt32), ls.length = rs.length →
    compareDown ls rs = compare (value ls.reverse) (value rs.reverse)
  | [], [], _ => rfl
  | [], _ :: _, h => by simp at h
  | _ :: _, [], h => by simp at h
  | l :: ls, r :: rs, h => by
    have hlen : ls.length = rs.length := by simpa using h
    have ih := compareDown_eq ls rs hlen
    have hl := value_lt ls.reverse
    have hr := value_lt rs.reverse
    simp only [compareDown, List.reverse_cons, value_append, value_cons, value_nil,
      List.length_reverse, hlen, Nat.mul_zero, Nat.add_zero] at *
    set B := 2 ^ (32 * rs.length)
    by_cases hlt : l < r
    · rw [if_pos hlt, eq_comm, compare_lt_iff_lt]
      have : B * (l.toNat + 1) ≤ B * r.toNat := Nat.mul_le_mul_left _ (UInt32.lt_iff_toNat_lt.1 hlt)
      linarith
    · rw [if_neg hlt]
      by_cases hgt : l > r
      · rw [if_pos hgt, eq_comm, compare_gt_iff_gt]
        have : B * (r.toNat + 1) ≤ B * l.toNat :=
          Nat.mul_le_mul_left _ (UInt32.lt_iff_toNat_lt.1 hgt)
        linarith
      · rw [if_neg hgt, ih]
        have heq : l.toNat = r.toNat := by
          rw [UInt32.lt_iff_toNat_lt] at hlt
          rw [gt_iff_lt, UInt32.lt_iff_toNat_lt] at hgt
          omega
        rw [heq]
        simp only [Nat.compare_eq_ite_lt, Nat.add_lt_add_iff_right]

/-- The loop of a word's highest bit, from `bit` down. -/
def topBit (limb : UInt32) : ℕ → ℕ
  | 0 => 0
  | bit + 1 => if limb &&& (1 <<< UInt32.ofNat (bit + 1)) = 0 then topBit limb bit else bit + 1

def highBitDown : List UInt32 → ℤ
  | [] => -1
  | limb :: rest =>
    if limb = 0 then highBitDown rest else (rest.length * 32 : ℕ) + topBit limb 31

theorem and_bit_eq_zero {limb : UInt32} {k : ℕ} (hk : k < 32) :
    limb &&& (1 <<< UInt32.ofNat k) = 0 ↔ limb.toNat.testBit k = false := by
  have hmask : (1 <<< UInt32.ofNat k : UInt32).toNat = 2 ^ k := by
    have : 2 ^ k < 2 ^ 32 := Nat.pow_lt_pow_right (by decide) hk
    simp [UInt32.toNat_shiftLeft, Nat.shiftLeft_eq, Nat.mod_eq_of_lt (show k < 4294967296 by omega),
      Nat.mod_eq_of_lt hk]
    omega
  rw [← UInt32.toNat_inj, UInt32.toNat_and, hmask, Nat.and_two_pow]
  cases limb.toNat.testBit k <;> simp

theorem topBit_eq {limb : UInt32} (hne : limb.toNat ≠ 0) : ∀ bit < 32,
    limb.toNat < 2 ^ (bit + 1) → topBit limb bit = Nat.log2 limb.toNat
  | 0, _, hlt => by
    have : limb.toNat = 1 := by omega
    rw [topBit, this]
    decide
  | bit + 1, hbit, hlt => by
    simp only [topBit, and_bit_eq_zero hbit, Nat.testBit_eq_decide_div_mod_eq]
    have hdiv : limb.toNat / 2 ^ (bit + 1) < 2 := by
      rw [Nat.div_lt_iff_lt_mul (by positivity), ← Nat.pow_succ']
      exact hlt
    by_cases hge : 2 ^ (bit + 1) ≤ limb.toNat
    · have : limb.toNat / 2 ^ (bit + 1) = 1 :=
        Nat.le_antisymm (by omega) ((Nat.le_div_iff_mul_le (by positivity)).2 (by simpa using hge))
      rw [this, if_neg (by decide), eq_comm, Nat.log2_eq_iff hne]
      exact ⟨hge, hlt⟩
    · rw [Nat.div_eq_of_lt (by omega), if_pos (by decide)]
      exact topBit_eq hne bit (by omega) (by omega)

theorem highBitDown_eq : ∀ ls : List UInt32,
    highBitDown ls = if value ls.reverse = 0 then -1 else (Nat.log2 (value ls.reverse) : ℤ)
  | [] => rfl
  | limb :: rest => by
    simp only [highBitDown, List.reverse_cons, value_append, value_cons, value_nil,
      List.length_reverse, Nat.mul_zero, Nat.add_zero]
    by_cases hzero : limb = 0
    · rw [if_pos hzero, highBitDown_eq rest, hzero]
      simp
    · have hne : limb.toNat ≠ 0 := fun h => hzero (UInt32.toNat_inj.1 (by simpa using h))
      have hpos : 0 < 2 ^ (32 * rest.length) * limb.toNat := by positivity
      rw [if_neg hzero, if_neg (by omega), topBit_eq hne 31 (by decide) limb.toNat_lt]
      have hlow := value_lt rest.reverse
      rw [List.length_reverse] at hlow
      have hself := (Nat.log2_eq_iff hne).1 rfl
      norm_cast
      rw [eq_comm, Nat.log2_eq_iff (by omega), Nat.mul_comm rest.length, Nat.add_assoc,
        Nat.pow_add, Nat.pow_add]
      refine ⟨?_, ?_⟩
      · have := Nat.mul_le_mul_left (2 ^ (32 * rest.length)) hself.1
        omega
      · have := Nat.mul_le_mul_left (2 ^ (32 * rest.length)) (Nat.succ_le_of_lt hself.2)
        rw [Nat.mul_succ] at this
        omega

/-! ## Operations that can run out of words -/

/-- The result `o` of writing the number `v` in `n` words. -/
def Encodes (n v : ℕ) (o : Option (List UInt32)) : Prop :=
  match o with
  | some limbs => limbs.length = n ∧ value limbs = v
  | none => 2 ^ (32 * n) ≤ v

theorem Encodes.cons {n v : ℕ} {o : Option (List UInt32)} (h : Encodes n v o) (x : UInt32) :
    Encodes (n + 1) (x.toNat + 2 ^ 32 * v) (o.map (x :: ·)) := by
  cases o with
  | some limbs =>
    obtain ⟨hlen, hval⟩ := h
    simp [Encodes, hlen, hval]
  | none =>
    simp only [Encodes, Option.map_none] at h ⊢
    rw [Nat.mul_succ, Nat.pow_add]
    linarith

theorem Encodes.eq_some {n v : ℕ} {o : Option (List UInt32)} (h : Encodes n v o)
    (hfit : v < 2 ^ (32 * n)) : ∃ limbs, o = some limbs ∧ limbs.length = n ∧ value limbs = v := by
  cases o with
  | some limbs => exact ⟨limbs, rfl, h⟩
  | none => exact absurd hfit (Nat.not_lt.2 h)

def shiftLeftOne : List UInt32 → UInt32 → List UInt32 × UInt32
  | [], carry => ([], carry)
  | s :: ss, carry =>
    let rest := shiftLeftOne ss (s >>> 31)
    (((s <<< 1) ||| carry) :: rest.1, rest.2)

theorem shiftLeftOne_length : ∀ (ss : List UInt32) (carry : UInt32),
    (shiftLeftOne ss carry).1.length = ss.length
  | [], _ => rfl
  | s :: ss, _ => by rw [shiftLeftOne, List.length_cons, shiftLeftOne_length, List.length_cons]

theorem shiftLeftOne_value : ∀ (ss : List UInt32) (carry : UInt32), carry.toNat ≤ 1 →
    value (shiftLeftOne ss carry).1 + 2 ^ (32 * ss.length) * (shiftLeftOne ss carry).2.toNat =
      2 * value ss + carry.toNat
  | [], carry, _ => by simp [shiftLeftOne]
  | s :: ss, carry, hc => by
    simp only [shiftLeftOne, value_cons, List.length_cons]
    have hs := s.toNat_lt
    have hnext : (s >>> 31).toNat = s.toNat / 2 ^ 31 := by
      simp [UInt32.toNat_shiftRight, Nat.shiftRight_eq_div_pow]
    have hword : ((s <<< 1) ||| carry).toNat = 2 * s.toNat % 2 ^ 32 + carry.toNat := by
      have hhalf : 2 * s.toNat % 2 ^ 32 = (s.toNat % 2 ^ 31) <<< 1 := by
        rw [Nat.shiftLeft_eq]
        omega
      have hshift : (s <<< 1).toNat = (s.toNat % 2 ^ 31) <<< 1 := by
        rw [← hhalf]
        simp [UInt32.toNat_shiftLeft, Nat.shiftLeft_eq, Nat.mul_comm]
      rw [UInt32.toNat_or, hshift, hhalf, Nat.shiftLeft_add_eq_or_of_lt (by omega)]
    have ih := shiftLeftOne_value ss (s >>> 31) (by omega)
    rw [Nat.mul_succ, Nat.pow_add]
    have hdouble : 2 * s.toNat % 2 ^ 32 + 2 ^ 32 * (s >>> 31).toNat = 2 * s.toNat := by omega
    linarith

/-- The carry of a row going up into the words above it. -/
def carryInto : List UInt32 → UInt64 → Option (List UInt32)
  | [], carry => if carry = 0 then some [] else none
  | p :: ps, carry =>
    if carry = 0 then some (p :: ps)
    else
      let total := p.toUInt64 + carry
      (carryInto ps (total >>> 32)).map (total.toUInt32 :: ·)

theorem carryInto_encodes : ∀ (ps : List UInt32) (carry : UInt64), carry.toNat < 2 ^ 32 →
    Encodes ps.length (value ps + carry.toNat) (carryInto ps carry)
  | [], carry, _ => by
    by_cases hzero : carry = 0
    · simp [carryInto, Encodes, hzero]
    · have : carry.toNat ≠ 0 := fun h => hzero (UInt64.toNat_inj.1 (by simpa using h))
      simp only [carryInto, if_neg hzero, Encodes, value_nil, List.length_nil]
      omega
  | p :: ps, carry, hc => by
    by_cases hzero : carry = 0
    · simp [carryInto, Encodes, hzero]
    · simp only [carryInto, if_neg hzero, List.length_cons, value_cons]
      set total := p.toUInt64 + carry with htotal
      have hp := p.toNat_lt
      have hsum : total.toNat = p.toNat + carry.toNat := by
        simp [htotal]
        omega
      have hsplit := word_split total
      have ih := (carryInto_encodes ps (total >>> 32) (high_lt total)).cons total.toUInt32
      convert ih using 1
      linarith

/-- One row of the multiplication: `left` times the words of the other factor, added to the
product. -/
def mulRow (left : UInt32) : List UInt32 → List UInt32 → UInt64 → Option (List UInt32)
  | r :: rs, p :: ps, carry =>
    let total := left.toUInt64 * r.toUInt64 + p.toUInt64 + carry
    (mulRow left rs ps (total >>> 32)).map (total.toUInt32 :: ·)
  | [], ps, carry => carryInto ps carry
  | _ :: _, [], _ => none

theorem mulRow_encodes (left : UInt32) : ∀ (rs ps : List UInt32) (carry : UInt64),
    rs.length ≤ ps.length → carry.toNat < 2 ^ 32 →
    Encodes ps.length (left.toNat * value rs + value ps + carry.toNat) (mulRow left rs ps carry)
  | [], ps, carry, _, hc => by
    rw [mulRow, value_nil, Nat.mul_zero, Nat.zero_add]
    exact carryInto_encodes ps carry hc
  | _ :: _, [], _, h, _ => by simp at h
  | r :: rs, p :: ps, carry, h, hc => by
    simp only [mulRow, value_cons, List.length_cons]
    set total := left.toUInt64 * r.toUInt64 + p.toUInt64 + carry with htotal
    have hsum : total.toNat = left.toNat * r.toNat + p.toNat + carry.toNat := by
      have hl := left.toNat_lt
      have hr := r.toNat_lt
      have hp := p.toNat_lt
      have hprod : left.toNat * r.toNat ≤ (2 ^ 32 - 1) * (2 ^ 32 - 1) :=
        Nat.mul_le_mul (by omega) (by omega)
      simp [htotal]
      omega
    have hsplit := word_split total
    have ih := (mulRow_encodes left rs ps (total >>> 32) (by simpa using h) (high_lt total)).cons
      total.toUInt32
    convert ih using 1
    linarith

/-- The rows, each a word further up in the product. -/
def mulInto : List UInt32 → List UInt32 → List UInt32 → Option (List UInt32)
  | [], _, product => some product
  | l :: ls, right, product =>
    match mulRow l right product 0 with
    | some (p :: ps) => (mulInto ls right ps).map (p :: ·)
    | row => row

theorem mulInto_encodes : ∀ ls right product : List UInt32,
    ls.length + right.length ≤ product.length + 1 → right.length ≤ product.length →
    Encodes product.length (value ls * value right + value product) (mulInto ls right product)
  | [], _, product, _, _ => by simp [mulInto, Encodes]
  | l :: ls, right, product, h, hright => by
    have hrow := mulRow_encodes l right product 0 hright (by decide)
    rw [mulInto]
    generalize mulRow l right product 0 = row at hrow ⊢
    match row, hrow with
    | none, hrow =>
      simp only [Encodes, value_cons, UInt64.toNat_zero, Nat.add_zero] at hrow ⊢
      refine hrow.trans ?_
      rw [Nat.add_mul]
      omega
    | some [], hrow =>
      obtain ⟨hlen, hval⟩ := hrow
      have hnil : right = [] := List.length_eq_zero_iff.1 (by simp at hlen; omega)
      simp only [Encodes, hnil, value_nil, Nat.mul_zero, Nat.zero_add] at hval ⊢
      exact ⟨hlen, hval⟩
    | some (p :: ps), hrow =>
      obtain ⟨hlen, hval⟩ := hrow
      rw [List.length_cons] at hlen
      simp only [List.length_cons] at h
      by_cases hfits : right.length ≤ ps.length
      · have ih := (mulInto_encodes ls right ps (by omega) hfits).cons p
        rw [hlen] at ih
        convert ih using 1
        simp only [value_cons, UInt64.toNat_zero, Nat.add_zero] at hval ⊢
        linarith
      · have hls : ls = [] := List.length_eq_zero_iff.1 (by omega)
        simp only [hls, mulInto, Option.map_some, Encodes, List.length_cons]
        exact ⟨hlen, by simpa using hval⟩

/-- The words of `ps` shifted left by `bits` and written into `result` from word `index` on. -/
def shiftInto (bits : UInt64) : List UInt32 → ℕ → UInt64 → List UInt32 → Option (List UInt32)
  | [], index, carry, result =>
    if carry = 0 then some result
    else if index ≥ result.length then none
    else some (result.set index carry.toUInt32)
  | p :: ps, index, carry, result =>
    let shifted := (p.toUInt64 <<< bits) ||| carry
    if index ≥ result.length then
      if shifted ≠ 0 then none else shiftInto bits ps (index + 1) (shifted >>> 32) result
    else shiftInto bits ps (index + 1) (shifted >>> 32) (result.set index shifted.toUInt32)

theorem shifted_toNat {p : UInt32} {bits carry : UInt64} (hbits : bits.toNat < 32)
    (hc : carry.toNat < 2 ^ bits.toNat) :
    ((p.toUInt64 <<< bits) ||| carry).toNat = p.toNat * 2 ^ bits.toNat + carry.toNat := by
  have hp := p.toNat_lt
  have hpow : 2 ^ bits.toNat ≤ 2 ^ 31 := Nat.pow_le_pow_right (by decide) (by omega)
  have hle : p.toNat * 2 ^ bits.toNat ≤ (2 ^ 32 - 1) * 2 ^ 31 := Nat.mul_le_mul (by omega) hpow
  rw [UInt64.toNat_or, UInt64.toNat_shiftLeft, UInt32.toNat_toUInt64,
    Nat.mod_eq_of_lt (show bits.toNat < 64 by omega),
    Nat.mod_eq_of_lt (by rw [Nat.shiftLeft_eq]; omega), ← Nat.shiftLeft_add_eq_or_of_lt hc,
    Nat.shiftLeft_eq]

theorem overflow_le {n index x : ℕ} (v : ℕ) (hindex : n ≤ index) (hx : 0 < x) :
    2 ^ (32 * n) ≤ v + 2 ^ (32 * index) * x := by
  have hle : 2 ^ (32 * n) ≤ 2 ^ (32 * index) := Nat.pow_le_pow_right (by decide) (by omega)
  have := Nat.le_mul_of_pos_right (2 ^ (32 * index)) hx
  omega

theorem shiftInto_encodes {bits : UInt64} (hbits : bits.toNat < 32) :
    ∀ (ps : List UInt32) (index : ℕ) (carry : UInt64) (result : List UInt32),
    carry.toNat < 2 ^ bits.toNat → (∀ i (hi : i < result.length), index ≤ i → result[i] = 0) →
    Encodes result.length
      (value result + 2 ^ (32 * index) * (value ps * 2 ^ bits.toNat + carry.toNat))
      (shiftInto bits ps index carry result)
  | [], index, carry, result, hc, hzeros => by
    have hpow : 2 ^ bits.toNat ≤ 2 ^ 31 := Nat.pow_le_pow_right (by decide) (by omega)
    rw [shiftInto]
    by_cases hzero : carry = 0
    · simp [Encodes, hzero]
    · have hpos : carry.toNat ≠ 0 := fun h => hzero (UInt64.toNat_inj.1 (by simpa using h))
      rw [if_neg hzero]
      by_cases hindex : index ≥ result.length
      · rw [if_pos hindex]
        exact overflow_le _ hindex (by omega)
      · rw [if_neg hindex]
        refine ⟨by simp, ?_⟩
        rw [value_set (by omega) (hzeros index (by omega) (by omega)), UInt64.toNat_toUInt32,
          Nat.mod_eq_of_lt (by omega)]
        simp
  | p :: ps, index, carry, result, hc, hzeros => by
    rw [shiftInto]
    set shifted := (p.toUInt64 <<< bits) ||| carry with hshifted
    have hval : shifted.toNat = p.toNat * 2 ^ bits.toNat + carry.toNat := shifted_toNat hbits hc
    have hsplit := word_split shifted
    have hnext : (shifted >>> 32).toNat < 2 ^ bits.toNat := by
      have hp := p.toNat_lt
      have hmul : (p.toNat + 1) * 2 ^ bits.toNat ≤ 2 ^ 32 * 2 ^ bits.toNat :=
        Nat.mul_le_mul_right _ hp
      rw [Nat.add_mul] at hmul
      omega
    have hstep : value (p :: ps) * 2 ^ bits.toNat + carry.toNat =
        shifted.toUInt32.toNat +
          2 ^ 32 * (value ps * 2 ^ bits.toNat + (shifted >>> 32).toNat) := by
      rw [value_cons]
      linarith
    by_cases hindex : index ≥ result.length
    · rw [if_pos hindex]
      by_cases hne : shifted ≠ 0
      · have hpos : 0 < shifted.toNat :=
          Nat.pos_of_ne_zero fun h => hne (UInt64.toNat_inj.1 (by simpa using h))
        rw [if_pos hne, hstep]
        exact overflow_le _ hindex (by omega)
      · have ih := shiftInto_encodes hbits ps (index + 1) (shifted >>> 32) result hnext
          fun i hi hle => hzeros i hi (by omega)
        have hzero : shifted.toUInt32.toNat = 0 := by
          rw [not_not.1 hne]
          rfl
        rw [if_neg hne, hstep, hzero, Nat.zero_add, ← Nat.mul_assoc, ← Nat.pow_add, ← Nat.mul_succ]
        exact ih
    · rw [if_neg hindex, hstep, Nat.mul_add, ← Nat.mul_assoc, ← Nat.pow_add, ← Nat.mul_succ,
        ← Nat.add_assoc]
      have ih := shiftInto_encodes hbits ps (index + 1) (shifted >>> 32)
        (result.set index shifted.toUInt32) hnext (by
          intro i hi hle
          rw [List.getElem_set_of_ne (by omega)]
          exact hzeros i (by simpa using hi) (by omega))
      rw [value_set (by omega) (hzeros index (by omega) (by omega)), List.length_set] at ih
      exact ih

end Laplace.Limbs
