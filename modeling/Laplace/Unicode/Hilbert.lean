import Laplace.Lib.Curve
import Mathlib.Data.Nat.Bitwise

/-!
# The Hilbert key of a placement (unicode_root.c:2390-2450)

The loops of the source run over the bits of four words. Read plane by plane, the first loop turns
the lower planes by the cell of each plane, the others turn a cell into its place in the Gray code
and count that backwards where the planes above ask for it: the transducer of a `Curve.Pattern`.
-/

namespace Laplace.Unicode

open Curve

/-! ## Source -/

inductive HilbertStatus
  | providerFailure
deriving DecidableEq, Repr

/-- `LAPLACE_UNICODE_HILBERT_KEY_BYTES` -/
def hilbertKeyBytes : ℕ := 16

/-- `uint32_t axes[4]` -/
abbrev Axes := Vector UInt32 4

def axisOrder : List (Fin 4) := [0, 1, 2, 3]

/-- `q` where the loop is at a bit. -/
def bitMask (bit : ℕ) : UInt32 := UInt32.ofNat (2 ^ bit)

/-- `for (q = 2^bit; q > 1u; q >>= 1u)` -/
def descend {σ : Type} (body : UInt32 → σ → σ) : ℕ → σ → σ
  | 0, state => state
  | bit + 1, state => descend body bit (body (bitMask (bit + 1)) state)

def assign (axes : Axes) (axis : Fin 4) (word : UInt32) : Axes := axes.set axis word

def exchange (q : UInt32) (transformed : Axes) (axis : Fin 4) : Axes :=
  let p := q - 1
  let first : Fin 4 := 0
  if transformed[axis] &&& q ≠ 0 then assign transformed first (transformed[first] ^^^ p)
  else
    let t := (transformed[first] ^^^ transformed[axis]) &&& p
    let transformed := assign transformed first (transformed[first] ^^^ t)
    assign transformed axis (transformed[axis] ^^^ t)

def exchangeAll (q : UInt32) (transformed : Axes) : Axes := axisOrder.foldl (exchange q) transformed

def grayCode (transformed : Axes) : Axes :=
  [1, 2, 3].foldl (fun transformed (axis : Fin 4) =>
    assign transformed axis (transformed[axis] ^^^ transformed[axis - 1])) transformed

def parityStep (last : UInt32) (q t : UInt32) : UInt32 := if last &&& q ≠ 0 then t ^^^ (q - 1) else t

/-- `transformed` when the bits are emitted. -/
def transpose (axes : Axes) : Axes :=
  let transformed := grayCode (descend exchangeAll 31 axes)
  let t := descend (parityStep transformed[3]) 31 0
  transformed.map (· ^^^ t)

/-- `accumulator`, `accumulated_bits` and what `key` holds up to `byte_index`. -/
structure Emission where
  accumulator : UInt8
  accumulatedBits : ℕ
  key : List UInt8
deriving DecidableEq, Repr

def Emission.push (emission : Emission) (emittedBit : UInt32) : Emission :=
  let accumulator := (emission.accumulator.toUInt32 <<< 1 ||| emittedBit).toUInt8
  let accumulatedBits := emission.accumulatedBits + 1
  if accumulatedBits = 8 then ⟨0, 0, emission.key ++ [accumulator]⟩
  else ⟨accumulator, accumulatedBits, emission.key⟩

def emitPlane (transformed : Axes) (emission : Emission) (bit : ℕ) : Emission :=
  axisOrder.foldl
    (fun emission axis => emission.push ((transformed[axis] >>> UInt32.ofNat bit) &&& 1)) emission

/-- `for (bit = 31; bit >= 0; --bit)` -/
def emit (transformed : Axes) : Emission :=
  (List.range 32).reverse.foldl (emitPlane transformed) ⟨0, 0, []⟩

/-- `laplace_unicode_hilbert4_encode` -/
def hilbert4Encode (axes : Axes) : Except HilbertStatus (List UInt8) :=
  let emission := emit (transpose axes)
  if emission.key.length = hilbertKeyBytes then .ok emission.key else .error .providerFailure

/-! ## One plane -/

/-- The cell the words are in at a bit. -/
def plane (bit : ℕ) (axes : Axes) : Cell (Fin 4) := fun axis => axes[axis].toNat.testBit bit

/-- The planes from a bit down. -/
def planes (axes : Axes) : ℕ → List (Cell (Fin 4))
  | 0 => []
  | bit + 1 => plane bit axes :: planes axes bit

@[simp] theorem length_planes (axes : Axes) (bit : ℕ) : (planes axes bit).length = bit := by
  induction bit with
  | zero => rfl
  | succ bit ih => rw [planes, List.length_cons, ih]

/-- What the loop does to the lower planes for one axis. -/
def exchangeTurn (cell : Cell (Fin 4)) (axis : Fin 4) : Turn (Fin 4) :=
  if cell axis then .mirrorAt 0 else .swap 0 axis

def exchangeAllTurn (cell : Cell (Fin 4)) : Turn (Fin 4) :=
  axisOrder.foldl (fun turn axis => turn.andThen (exchangeTurn cell axis)) .id

def grayCell (cell : Cell (Fin 4)) : Cell (Fin 4) :=
  ![cell 0, cell 0 ^^ cell 1, cell 0 ^^ cell 1 ^^ cell 2, cell 0 ^^ cell 1 ^^ cell 2 ^^ cell 3]

/-- The four bits emitted for a cell, read as a number. -/
def cellNumber (cell : Cell (Fin 4)) : Fin 16 :=
  ⟨8 * (cell 0).toNat + 4 * (cell 1).toNat + 2 * (cell 2).toNat + (cell 3).toNat, by
    have h (i : Fin 4) := Bool.toNat_le (cell i)
    have := h 0
    have := h 1
    have := h 2
    have := h 3
    omega⟩

def cellOfNumber (d : Fin 16) : Cell (Fin 4) :=
  ![d.val.testBit 3, d.val.testBit 3 ^^ d.val.testBit 2, d.val.testBit 2 ^^ d.val.testBit 1,
    d.val.testBit 1 ^^ d.val.testBit 0]

/-- Cells in the order of the Gray code. -/
def grayOrder : Cell (Fin 4) ≃ Fin 16 where
  toFun cell := cellNumber (grayCell cell)
  invFun := cellOfNumber
  left_inv := by decide +kernel
  right_inv := by decide +kernel

/-- The curve starts at the origin and ends at the far end of axis 0; it is read backwards in the
cells of odd parity. -/
def hilbertPattern : Pattern (Fin 4) 16 where
  digit := grayOrder
  turn := exchangeAllTurn
  backwards cell := grayCell cell 3
  first := fun _ => false
  last := ![true, false, false, false]
  digit_first := by decide +kernel
  digit_last := by decide +kernel
  forwards_first := by decide
  backwards_last := by decide
  turn_first := by decide +kernel
  turn_last := by decide +kernel
  joins := by decide +kernel

/-! ## The loops, plane by plane -/

variable {bit : ℕ}

theorem toNat_bitMask (h : bit < 32) : (bitMask bit).toNat = 2 ^ bit :=
  UInt32.toNat_ofNat_of_lt' (Nat.pow_lt_pow_right (by decide) h)

theorem and_bitMask_ne_zero (h : bit < 32) (x : UInt32) :
    x &&& bitMask bit ≠ 0 ↔ x.toNat.testBit bit = true := by
  rw [Ne, ← UInt32.toNat_inj, UInt32.toNat_and, toNat_bitMask h, Nat.and_two_pow]
  cases x.toNat.testBit bit <;> simp

theorem testBit_bitMask_sub_one (h : bit < 32) (i : ℕ) :
    (bitMask bit - 1).toNat.testBit i = decide (i < bit) := by
  have hone : (1 : UInt32) ≤ bitMask bit := by
    rw [UInt32.le_iff_toNat_le, toNat_bitMask h]
    exact Nat.one_le_two_pow
  rw [UInt32.toNat_sub_of_le _ _ hone, toNat_bitMask h]
  exact Nat.testBit_two_pow_sub_one bit i

theorem getElem_assign (axes : Axes) (i j : Fin 4) (word : UInt32) :
    (assign axes i word)[j] = if i = j then word else axes[j] := by
  simp [assign, Vector.getElem_set, Fin.ext_iff]

theorem plane_exchange (h : bit < 32) (axes : Axes) (axis : Fin 4) (i : ℕ) :
    plane i (exchange (bitMask bit) axes axis) =
      if i < bit then (exchangeTurn (plane bit axes) axis).apply (plane i axes)
      else plane i axes := by
  funext j
  have hmask := testBit_bitMask_sub_one h i
  by_cases hbit : axes[axis].toNat.testBit bit = true
  · have hturn : exchangeTurn (plane bit axes) axis = .mirrorAt 0 := if_pos hbit
    rw [exchange, if_pos ((and_bitMask_ne_zero h _).2 hbit), hturn, plane, getElem_assign]
    by_cases hj : (0 : Fin 4) = j
    · rw [if_pos hj, ← hj, UInt32.toNat_xor, Nat.testBit_xor, hmask]
      by_cases hi : i < bit <;> simp [hi, plane, Turn.apply, Turn.mirrorAt]
    · rw [if_neg hj]
      by_cases hi : i < bit <;> simp [hi, plane, Turn.apply, Turn.mirrorAt, Ne.symm hj]
  · have hturn : exchangeTurn (plane bit axes) axis = .swap 0 axis := if_neg hbit
    rw [exchange, if_neg (mt (and_bitMask_ne_zero h _).1 hbit), hturn, plane, getElem_assign,
      getElem_assign, getElem_assign]
    by_cases hj : axis = j
    · by_cases h0 : (0 : Fin 4) = axis
      · by_cases hi : i < bit <;> simp [hi, ← hj, ← h0, plane, Turn.apply, Turn.swap]
      · by_cases hi : i < bit
        · simp only [← hj, h0, if_true, if_false, UInt32.toNat_xor, UInt32.toNat_and,
            Nat.testBit_xor, Nat.testBit_and, hmask, hi, decide_true, Bool.and_true, plane,
            Turn.apply, Turn.swap, Equiv.swap_apply_right, Bool.xor_false]
          rw [Bool.xor_comm, Bool.xor_assoc, Bool.xor_self, Bool.xor_false]
        · simp [hi, ← hj, h0, plane, hmask]
    · by_cases h0 : (0 : Fin 4) = j
      · by_cases hi : i < bit <;>
          simp [hi, ← h0, h0 ▸ hj, plane, Turn.apply, Turn.swap, hmask]
      · by_cases hi : i < bit <;>
          simp [hi, hj, h0, plane, Turn.apply, Turn.swap, Equiv.swap_apply_of_ne_of_ne, Ne.symm hj,
            Ne.symm h0]

theorem plane_exchangeAll (h : bit < 32) (axes : Axes) (i : ℕ) : plane i (exchangeAll (bitMask bit) axes) =
      if i < bit then (exchangeAllTurn (plane bit axes)).apply (plane i axes)
      else plane i axes := by
  have hfold (order : List (Fin 4)) (state : Axes) (turn : Turn (Fin 4))
      (hcell : plane bit state = plane bit axes)
      (hstate : plane i state = if i < bit then turn.apply (plane i axes) else plane i axes) :
      plane i (order.foldl (exchange (bitMask bit)) state) = if i < bit then
        (order.foldl (fun turn axis => turn.andThen (exchangeTurn (plane bit axes) axis))
          turn).apply (plane i axes) else plane i axes := by
    induction order generalizing state turn with
    | nil => exact hstate
    | cons axis order ih =>
      refine ih _ _ ?_ ?_
      · rw [plane_exchange h, if_neg (lt_irrefl bit), hcell]
      · rw [plane_exchange h, hcell, hstate]
        by_cases hi : i < bit <;> simp [hi]
  exact hfold axisOrder axes .id rfl (by simp)

variable {i : ℕ}

theorem plane_descend (hbit : bit < 32) (hi : bit ≤ i) (axes : Axes) :
    plane i (descend exchangeAll bit axes) = plane i axes := by
  induction bit generalizing axes with
  | zero => rfl
  | succ bit ih =>
    rw [descend, ih (by omega) (by omega), plane_exchangeAll hbit, if_neg (by omega)]

/-- The planes after the first loop: each turned by the cells above it. -/
def untangle : Turn (Fin 4) → List (Cell (Fin 4)) → List (Cell (Fin 4))
  | _, [] => []
  | turn, cell :: cells =>
    turn.apply cell :: untangle (turn.andThen (exchangeAllTurn (turn.apply cell))) cells

variable {axes : Axes}

theorem planes_congr {state : Axes} {f : Cell (Fin 4) → Cell (Fin 4)}
    (h : ∀ i, i < bit → plane i state = f (plane i axes)) : planes state bit = (planes axes bit).map f := by
  induction bit with
  | zero => rfl
  | succ bit ih =>
    rw [planes, planes, List.map_cons, h bit (by omega), ih fun i hi => h i (by omega)]

theorem planes_descend (hbit : bit < 32) (axes : Axes) (turn : Turn (Fin 4))
    (cells : List (Cell (Fin 4))) (h : planes axes (bit + 1) = cells.map turn.apply) :
    planes (descend exchangeAll bit axes) (bit + 1) = untangle turn cells := by
  induction bit generalizing axes turn cells with
  | zero =>
    obtain ⟨cell, rfl⟩ : ∃ cell, cells = [cell] := by
      rw [← List.length_eq_one_iff, ← List.length_map, ← h]
      rfl
    exact h
  | succ bit ih =>
    obtain ⟨cell, cells, rfl⟩ : ∃ cell cells', cells = cell :: cells' := by
      cases cells with
      | nil => simp [planes] at h
      | cons cell cells => exact ⟨cell, cells, rfl⟩
    rw [planes, List.map_cons, List.cons.injEq] at h
    obtain ⟨hcell, hcells⟩ := h
    rw [descend, planes, plane_descend (by omega) (Nat.le_succ bit), plane_exchangeAll hbit,
      if_neg (lt_irrefl _), untangle, hcell]
    refine congrArg _ (ih (by omega) _ _ _ ?_)
    rw [planes_congr fun i hi => (plane_exchangeAll hbit axes i).trans (if_pos hi), hcell, hcells,
      List.map_map]
    exact List.map_congr_left fun x _ => (Turn.apply_andThen _ _ x).symm

theorem plane_assign (axes : Axes) (axis : Fin 4) (word : UInt32) (i : ℕ) :
    plane i (assign axes axis word) = Function.update (plane i axes) axis (word.toNat.testBit i) := by
  funext j
  rw [plane, getElem_assign, Function.update_apply]
  by_cases h : axis = j
  · rw [if_pos h, if_pos h.symm]
  · rw [if_neg h, if_neg (Ne.symm h)]
    rfl

theorem plane_grayCode (axes : Axes) (i : ℕ) : plane i (grayCode axes) = grayCell (plane i axes) := by
  have hstep (state : Axes) (axis : Fin 4) :
      plane i (assign state axis (state[axis] ^^^ state[axis - 1])) =
        Function.update (plane i state) axis (plane i state axis ^^ plane i state (axis - 1)) := by
    rw [plane_assign, UInt32.toNat_xor, Nat.testBit_xor]
    rfl
  simp only [grayCode, List.foldl_cons, List.foldl_nil, hstep]
  generalize plane i axes = cell
  revert cell
  decide +kernel

theorem testBit_parityStep (h : bit < 32) (last t : UInt32) (i : ℕ) :
    (parityStep last (bitMask bit) t).toNat.testBit i =
      (t.toNat.testBit i ^^ (decide (i < bit) && last.toNat.testBit bit)) := by
  by_cases hbit : last.toNat.testBit bit = true
  · rw [parityStep, if_pos ((and_bitMask_ne_zero h last).2 hbit), UInt32.toNat_xor,
      Nat.testBit_xor, testBit_bitMask_sub_one h, hbit, Bool.and_true]
  · rw [parityStep, if_neg (mt (and_bitMask_ne_zero h last).1 hbit), Bool.eq_false_iff.2 hbit,
      Bool.and_false, Bool.xor_false]

theorem testBit_parity_above (hbit : bit < 32) (hi : bit ≤ i) (last t : UInt32) :
    (descend (parityStep last) bit t).toNat.testBit i = t.toNat.testBit i := by
  induction bit generalizing t with
  | zero => rfl
  | succ bit ih =>
    rw [descend, ih (by omega) (by omega), testBit_parityStep hbit, decide_eq_false (by omega),
      Bool.false_and, Bool.xor_false]

theorem testBit_parity_succ (hbit : bit < 32) (hi : i < bit) (last t : UInt32)
    (ht : ∀ j, j < bit → t.toNat.testBit j = t.toNat.testBit (j + 1)) :
    (descend (parityStep last) bit t).toNat.testBit i =
      ((descend (parityStep last) bit t).toNat.testBit (i + 1) ^^ last.toNat.testBit (i + 1)) := by
  induction bit generalizing t with
  | zero => omega
  | succ bit ih =>
    rw [descend]
    by_cases htop : i = bit
    · rw [htop, testBit_parity_above (by omega) le_rfl, testBit_parity_above (by omega) (by omega),
        testBit_parityStep hbit, testBit_parityStep hbit, decide_eq_true (by omega),
        decide_eq_false (by omega), Bool.true_and, Bool.false_and, Bool.xor_false,
        ht bit (by omega)]
    · refine ih (by omega) (by omega) _ fun j hj => ?_
      rw [testBit_parityStep hbit, testBit_parityStep hbit, decide_eq_true (by omega),
        decide_eq_true (by omega), ht j (by omega)]

/-- `t` of the source. -/
def parityWord (axes : Axes) : UInt32 :=
  descend (parityStep (grayCode (descend exchangeAll 31 axes))[(3 : Fin 4)]) 31 0

theorem plane_transpose (axes : Axes) (i : ℕ) : plane i (transpose axes) = fun axis =>
    grayCell (plane i (descend exchangeAll 31 axes)) axis ^^
      (parityWord axes).toNat.testBit i := by
  funext axis
  rw [← plane_grayCode]
  simp [plane, transpose, parityWord]

theorem cellNumber_xor (cell : Cell (Fin 4)) (c : Bool) :
    cellNumber (fun axis => cell axis ^^ c) = orient c (cellNumber cell) := by
  revert cell c
  decide +kernel

theorem testBit_parityWord (h : bit < 31) (axes : Axes) :
    (parityWord axes).toNat.testBit bit = ((parityWord axes).toNat.testBit (bit + 1) ^^
      grayCell (plane (bit + 1) (descend exchangeAll 31 axes)) 3) := by
  rw [← plane_grayCode]
  exact testBit_parity_succ (by decide) h _ 0 (by simp)

theorem cellNumber_planes_transpose (hbit : bit ≤ 32) (axes : Axes) (c : Bool)
    (hc : bit ≠ 0 → (parityWord axes).toNat.testBit (bit - 1) = c) (turn : Turn (Fin 4))
    (cells : List (Cell (Fin 4))) (h : planes (descend exchangeAll 31 axes) bit = untangle turn cells) :
    (planes (transpose axes) bit).map cellNumber = hilbertPattern.transducer.run (c, turn) cells := by
  induction bit generalizing c turn cells with
  | zero =>
    cases cells with
    | nil => rfl
    | cons cell cells => simp [planes, untangle] at h
  | succ bit ih =>
    cases cells with
    | nil => simp [planes, untangle] at h
    | cons cell cells =>
      rw [planes, untangle, List.cons.injEq] at h
      obtain ⟨hcell, hcells⟩ := h
      replace hc : (parityWord axes).toNat.testBit bit = c := hc (Nat.succ_ne_zero bit)
      rw [planes, List.map_cons, Transducer.run_cons, Pattern.out_eq, Pattern.next_eq,
        plane_transpose, cellNumber_xor, hcell, hc]
      refine congrArg _ (ih (by omega) _ (fun hne => ?_) _ _ hcells)
      obtain ⟨below, rfl⟩ := Nat.exists_eq_succ_of_ne_zero hne
      rw [Nat.succ_sub_one, testBit_parityWord (by omega), hc, hcell]
      rfl

/-- The code of a point on the curve. -/
def hilbertCode (axes : Axes) : ℕ :=
  code (hilbertPattern.transducer.run (false, .id) (planes axes 32))

theorem code_planes_transpose (axes : Axes) :
    code ((planes (transpose axes) 32).map cellNumber) = hilbertCode axes := by
  have hcells : planes axes 32 = (planes axes 32).map Turn.id.apply := by
    simp [funext Turn.apply_id]
  have hstart : (parityWord axes).toNat.testBit 31 = false :=
    (testBit_parity_above (by decide) le_rfl _ 0).trans (by simp)
  rw [hilbertCode, cellNumber_planes_transpose le_rfl axes false (fun _ => hstart) .id _
    (planes_descend (by decide) axes .id _ hcells)]

/-! ## Emission -/

/-- The number whose bits have been emitted. -/
def Emission.number (emission : Emission) : ℕ :=
  Curve.number 256 (emission.key.map UInt8.toNat) * 2 ^ emission.accumulatedBits +
    emission.accumulator.toNat

def Emission.bits (emission : Emission) : ℕ := 8 * emission.key.length + emission.accumulatedBits

structure Emission.Sound (emission : Emission) : Prop where
  partial_byte : emission.accumulatedBits < 8
  accumulator : emission.accumulator.toNat < 2 ^ emission.accumulatedBits

theorem toNat_pushed {accumulator : UInt8} {emittedBit : UInt32} (h : accumulator.toNat < 2 ^ 7)
    (hbit : emittedBit.toNat < 2) : (accumulator.toUInt32 <<< 1 ||| emittedBit).toUInt8.toNat =
      2 * accumulator.toNat + emittedBit.toNat := by
  have hor : 2 ^ 1 * accumulator.toNat ||| emittedBit.toNat =
      2 * accumulator.toNat + emittedBit.toNat :=
    (Nat.two_pow_add_eq_or_of_lt (i := 1) hbit accumulator.toNat).symm
  have hshift : (accumulator.toUInt32 <<< 1).toNat = 2 ^ 1 * accumulator.toNat := by
    rw [UInt32.toNat_shiftLeft, UInt8.toNat_toUInt32]
    simp only [Nat.shiftLeft_eq]
    rw [show (1 : UInt32).toNat % 32 = 1 from rfl]
    omega
  rw [UInt32.toNat_toUInt8, UInt32.toNat_or, hshift, hor]
  omega

variable {emission : Emission}

theorem Emission.push_sound (h : emission.Sound) (emittedBit : UInt32) (hbit : emittedBit.toNat < 2) :
    (emission.push emittedBit).Sound ∧
      (emission.push emittedBit).number = 2 * emission.number + emittedBit.toNat ∧
      (emission.push emittedBit).bits = emission.bits + 1 := by
  obtain ⟨hpart, hacc⟩ := h
  have hpushed := toNat_pushed (hacc.trans_le (Nat.pow_le_pow_right (by decide) (by omega))) hbit
  by_cases hfull : emission.accumulatedBits + 1 = 8
  · have hseven : emission.accumulatedBits = 7 := by omega
    rw [hseven] at hacc
    rw [Emission.push, if_pos hfull]
    refine ⟨⟨Nat.zero_lt_succ 7, by simp⟩, ?_, ?_⟩
    · rw [Emission.number, List.map_append, List.map_singleton, number_concat, hpushed,
        Emission.number, hseven]
      simp
      omega
    · rw [Emission.bits, Emission.bits, List.length_append, hseven]
      simp
      omega
  · rw [Emission.push, if_neg hfull]
    refine ⟨⟨by simp; omega, ?_⟩, ?_, ?_⟩
    · simp only [hpushed, Nat.pow_succ]
      omega
    · rw [Emission.number, Emission.number, hpushed]
      simp only [Nat.pow_succ]
      ring
    · rfl

theorem emittedBit_eq (h : bit < 32) (word : UInt32) :
    ((word >>> UInt32.ofNat bit) &&& 1).toNat = (word.toNat.testBit bit).toNat := by
  have hbit : (UInt32.ofNat bit).toNat % 32 = bit := by
    rw [UInt32.toNat_ofNat_of_lt' (h.trans (by decide)), Nat.mod_eq_of_lt h]
  rw [UInt32.toNat_and, UInt32.toNat_shiftRight, hbit, Nat.toNat_testBit, Nat.shiftRight_eq_div_pow]
  exact Nat.and_one_is_mod _

theorem emitPlane_sound (bit : ℕ) (hbit : bit < 32) (transformed : Axes) (h : emission.Sound) :
    (emitPlane transformed emission bit).Sound ∧ (emitPlane transformed emission bit).number =
        16 * emission.number + cellNumber (plane bit transformed) ∧
      (emitPlane transformed emission bit).bits = emission.bits + 4 := by
  have hpush {emission : Emission} (h : emission.Sound) (axis : Fin 4) :=
    Emission.push_sound h ((transformed[axis] >>> UInt32.ofNat bit) &&& 1)
      (by rw [emittedBit_eq hbit]; exact Bool.toNat_lt _)
  simp only [emittedBit_eq hbit] at hpush
  obtain ⟨hs₀, hn₀, hb₀⟩ := hpush h 0
  obtain ⟨hs₁, hn₁, hb₁⟩ := hpush hs₀ 1
  obtain ⟨hs₂, hn₂, hb₂⟩ := hpush hs₁ 2
  obtain ⟨hs₃, hn₃, hb₃⟩ := hpush hs₂ 3
  refine ⟨hs₃, hn₃.trans ?_, hb₃.trans ?_⟩
  · rw [hn₂, hn₁, hn₀]
    simp only [cellNumber, plane]
    ring
  · rw [hb₂, hb₁, hb₀]

theorem emit_planes (hbit : bit ≤ 32) (transformed : Axes) (h : emission.Sound) :
    ((List.range bit).reverse.foldl (emitPlane transformed) emission).Sound ∧
      ((List.range bit).reverse.foldl (emitPlane transformed) emission).number =
        emission.number * 16 ^ bit + code ((planes transformed bit).map cellNumber) ∧
      ((List.range bit).reverse.foldl (emitPlane transformed) emission).bits = emission.bits + 4 * bit := by
  induction bit generalizing emission with
  | zero => exact ⟨h, by simp [planes, code], rfl⟩
  | succ bit ih =>
    obtain ⟨hsound, hnumber, hbits⟩ := emitPlane_sound bit (by omega) transformed h
    obtain ⟨hsound', hnumber', hbits'⟩ := ih (by omega) hsound
    rw [List.range_succ, List.reverse_append, List.reverse_singleton, List.singleton_append,
      List.foldl_cons]
    refine ⟨hsound', hnumber'.trans ?_, hbits'.trans ?_⟩
    · rw [hnumber, planes, List.map_cons, code_cons, List.length_map, length_planes, Nat.pow_succ]
      ring
    · rw [hbits]
      ring

/-! ## The key -/

/-- The key as a big-endian number. -/
def keyNumber (key : List UInt8) : ℕ := Curve.number 256 (key.map UInt8.toNat)

theorem Emission.Sound.full (h : emission.Sound) (hbits : emission.bits = 128) :
    emission.key.length = hilbertKeyBytes ∧ keyNumber emission.key = emission.number := by
  obtain ⟨hpart, hacc⟩ := h
  rw [Emission.bits] at hbits
  have hzero : emission.accumulatedBits = 0 := by omega
  rw [hzero] at hacc
  refine ⟨by unfold hilbertKeyBytes; omega, ?_⟩
  rw [keyNumber, Emission.number, hzero]
  omega

theorem hilbert4Encode_eq (axes : Axes) : ∃ key, hilbert4Encode axes = .ok key ∧
    key.length = hilbertKeyBytes ∧ keyNumber key = hilbertCode axes := by
  have hstart : (⟨0, 0, []⟩ : Emission).Sound := ⟨Nat.zero_lt_succ 7, by simp⟩
  obtain ⟨hsound, hnumber, hbits⟩ := emit_planes le_rfl (transpose axes) hstart
  have hempty : (⟨0, 0, []⟩ : Emission).number = 0 := rfl
  rw [hempty, Nat.zero_mul, Nat.zero_add, code_planes_transpose] at hnumber
  rw [← emit] at hsound hnumber hbits
  obtain ⟨hlen, hkey⟩ := hsound.full hbits
  rw [hnumber] at hkey
  exact ⟨_, by rw [hilbert4Encode, if_pos hlen], hlen, hkey⟩

/-! ## Points and their planes -/

theorem coordinate_planes (axes : Axes) (axis : Fin 4) (bit : ℕ) :
    coordinate axis (planes axes bit) = axes[axis].toNat % 2 ^ bit := by
  induction bit with
  | zero => simp [planes, coordinate, Nat.mod_one]
  | succ bit ih =>
    rw [planes, coordinate_cons, length_planes, ih, Nat.mod_pow_succ, plane, Nat.toNat_testBit,
      Nat.add_comm, Nat.mul_comm]

theorem coordinate_point (axes : Axes) (axis : Fin 4) :
    coordinate axis (planes axes 32) = axes[axis].toNat := by
  rw [coordinate_planes, Nat.mod_eq_of_lt axes[axis].toNat_lt]

theorem planes_injective {other : Axes} (h : planes axes 32 = planes other 32) : axes = other := by
  refine Vector.ext fun i hi => UInt32.toNat_inj.1 ?_
  have hword := coordinate_point axes ⟨i, hi⟩
  rw [h, coordinate_point] at hword
  exact hword.symm

theorem exists_planes {cells : List (Cell (Fin 4))} (h : cells.length = 32) :
    ∃ axes : Axes, planes axes 32 = cells := by
  refine ⟨Vector.ofFn fun axis => UInt32.ofNat (coordinate axis cells),
    eq_of_coordinates (by rw [length_planes, h]) fun axis => ?_⟩
  have hlt := coordinate_lt axis cells
  rw [h] at hlt
  rw [coordinate_point]
  simpa using Nat.mod_eq_of_lt hlt

theorem hilbertCode_injective {other : Axes} (h : hilbertCode axes = hilbertCode other) : axes = other :=
  planes_injective (hilbertPattern.transducer.run_injective _ (code_inj (by decide) (by simp) h))

theorem exists_hilbertCode {n : ℕ} (h : n < 16 ^ 32) : ∃ axes, hilbertCode axes = n := by
  obtain ⟨digits, hlen, hcode⟩ := exists_code 32 h
  obtain ⟨axes, haxes⟩ := exists_planes
    ((hilbertPattern.transducer.length_undo (false, .id) digits).trans hlen)
  exact ⟨axes, by rw [hilbertCode, haxes, Transducer.run_undo, hcode]⟩

theorem keyNumber_lt (key : List UInt8) : keyNumber key < 256 ^ key.length := by
  have h := number_lt (by decide : 1 < 256) (key.map UInt8.toNat)
    (by simpa using fun byte _ => byte.toNat_lt)
  rwa [List.length_map] at h

theorem keyNumber_inj {key other : List UInt8} (hlen : key.length = other.length)
    (h : keyNumber key = keyNumber other) : key = other :=
  List.map_injective_iff.2 (fun _ _ => UInt8.toNat_inj.1)
    (number_inj (m := 256) (by decide) (by simpa using hlen)
      (by simpa using fun byte _ => byte.toNat_lt) (by simpa using fun byte _ => byte.toNat_lt) h)

/-! ## The order of the keys -/

/-- The keys are a space-filling curve through the points. -/
structure SpaceFilling (encode : Axes → Except HilbertStatus (List UInt8)) : Prop where
  total : ∀ axes, ∃ key, encode axes = .ok key ∧ key.length = hilbertKeyBytes
  bijective : ∀ key : List UInt8, key.length = hilbertKeyBytes → ∃! axes, encode axes = .ok key
  /-- Successive keys are one step along one axis apart. -/
  adjacent : ∀ axes next key nextKey, encode axes = .ok key → encode next = .ok nextKey →
    keyNumber nextKey = keyNumber key + 1 →
      ∃ axis : Fin 4, (∀ i, i ≠ axis → next[i] = axes[i]) ∧
        (axes[axis].toNat + 1 = next[axis].toNat ∨ next[axis].toNat + 1 = axes[axis].toNat)
  /-- The leading `4 * k` bits of a key are the leading `k` bits of its axes. -/
  leading : ∀ k ≤ 32, ∀ axes other key otherKey, encode axes = .ok key →
    encode other = .ok otherKey →
      (keyNumber key / 2 ^ (128 - 4 * k) = keyNumber otherKey / 2 ^ (128 - 4 * k) ↔
        ∀ axis : Fin 4, axes[axis].toNat / 2 ^ (32 - k) = other[axis].toNat / 2 ^ (32 - k))

theorem keyNumber_of_encode {key : List UInt8} (h : hilbert4Encode axes = .ok key) :
    keyNumber key = hilbertCode axes := by
  obtain ⟨found, hencode, -, hnumber⟩ := hilbert4Encode_eq axes
  rw [h, Except.ok.injEq] at hencode
  rw [hencode, hnumber]

theorem take_planes_eq_iff (k : ℕ) (axes other : Axes) :
    (planes axes 32).take k = (planes other 32).take k ↔
      ∀ axis : Fin 4, axes[axis].toNat / 2 ^ (32 - k) = other[axis].toNat / 2 ^ (32 - k) := by
  have hcoordinate (axes : Axes) (axis : Fin 4) :
      coordinate axis ((planes axes 32).take k) = axes[axis].toNat / 2 ^ (32 - k) := by
    rw [coordinate_take, coordinate_point, length_planes]
  constructor
  · intro h axis
    rw [← hcoordinate, ← hcoordinate, h]
  · intro h
    refine eq_of_coordinates (by simp) fun axis => ?_
    rw [hcoordinate, hcoordinate, h]

theorem code_take_planes {k : ℕ} (hk : k ≤ 32) (axes : Axes) :
    code ((hilbertPattern.transducer.run (false, .id) (planes axes 32)).take k) =
      hilbertCode axes / 2 ^ (128 - 4 * k) := by
  have hplaces : 16 ^ (32 - k) = 2 ^ (128 - 4 * k) := by
    rw [show 16 = 2 ^ 4 from rfl, ← Nat.pow_mul]
    congr 1
    omega
  rw [code_take (by decide), Transducer.length_run, length_planes, hplaces, hilbertCode]

theorem hilbert4Encode_spaceFilling : SpaceFilling hilbert4Encode where
  total axes :=
    let ⟨key, hencode, hlen, _⟩ := hilbert4Encode_eq axes
    ⟨key, hencode, hlen⟩
  bijective key hkey := by
    have hlt := keyNumber_lt key
    rw [hkey] at hlt
    obtain ⟨axes, haxes⟩ := exists_hilbertCode hlt
    obtain ⟨found, hencode, hlen, hnumber⟩ := hilbert4Encode_eq axes
    have hfound : found = key := keyNumber_inj (hlen.trans hkey.symm) (hnumber.trans haxes)
    refine ⟨axes, hfound ▸ hencode, fun other hother => ?_⟩
    exact hilbertCode_injective ((keyNumber_of_encode hother).symm.trans haxes.symm)
  adjacent axes next key nextKey haxes hnext hsucc := by
    rw [keyNumber_of_encode haxes, keyNumber_of_encode hnext] at hsucc
    obtain ⟨axis, hrest, hstep⟩ := hilbertPattern.neighbours (by simp) hsucc
    rw [coordinate_point, coordinate_point] at hstep
    refine ⟨axis, fun i hi => UInt32.toNat_inj.1 ?_, hstep⟩
    have hsame := hrest i hi
    rw [coordinate_point, coordinate_point] at hsame
    exact hsame.symm
  leading k hk axes other key otherKey haxes hother := by
    rw [keyNumber_of_encode haxes, keyNumber_of_encode hother, ← code_take_planes hk,
      ← code_take_planes hk, ← take_planes_eq_iff k,
      ← hilbertPattern.transducer.run_take_iff (false, .id)]
    exact ⟨code_inj (by decide) (by simp), congrArg code⟩

end Laplace.Unicode
