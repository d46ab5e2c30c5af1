import Mathlib.Data.Nat.Digits.Lemmas
import Mathlib.Tactic

/-!
# Values in a fixed number of bytes

A layout is a way to store the values of a type in `width` bytes so that nothing is lost in either
direction: what is stored is loaded again, and every string of the width is what its value is
stored as. Layouts of the fields of a record are put in a row.
-/

namespace Laplace

/-! ## Numbers, least significant byte first -/

def littleEndian : ℕ → ℕ → List UInt8
  | 0, _ => []
  | width + 1, value => UInt8.ofNat value :: littleEndian width (value / 256)

def ofLittleEndian (bytes : List UInt8) : ℕ := Nat.ofDigits 256 (bytes.map UInt8.toNat)

@[simp] theorem ofLittleEndian_nil : ofLittleEndian [] = 0 := rfl

@[simp] theorem ofLittleEndian_cons (byte : UInt8) (bytes : List UInt8) :
    ofLittleEndian (byte :: bytes) = byte.toNat + 256 * ofLittleEndian bytes := by
  simp only [ofLittleEndian, List.map_cons, Nat.ofDigits_cons]

theorem ofLittleEndian_append (left right : List UInt8) : ofLittleEndian (left ++ right) =
    ofLittleEndian left + 256 ^ left.length * ofLittleEndian right := by
  simp only [ofLittleEndian, List.map_append, Nat.ofDigits_append, List.length_map]

theorem ofLittleEndian_lt (bytes : List UInt8) : ofLittleEndian bytes < 256 ^ bytes.length := by
  have h := Nat.ofDigits_lt_base_pow_length (b := 256) (l := bytes.map UInt8.toNat) (by decide)
    (by simpa using fun x _ => x.toNat_lt)
  simpa only [ofLittleEndian, List.length_map] using h

@[simp] theorem littleEndian_length : ∀ width value, (littleEndian width value).length = width
  | 0, _ => rfl
  | width + 1, value => by rw [littleEndian, List.length_cons, littleEndian_length]

theorem ofLittleEndian_littleEndian : ∀ {width value : ℕ}, value < 256 ^ width →
    ofLittleEndian (littleEndian width value) = value
  | 0, value, h => by
    rw [Nat.pow_zero] at h
    rw [littleEndian, ofLittleEndian_nil]
    omega
  | width + 1, value, h => by
    rw [Nat.pow_succ] at h
    rw [littleEndian, ofLittleEndian_cons, ofLittleEndian_littleEndian (by omega), UInt8.toNat_ofNat']
    omega

theorem littleEndian_ofLittleEndian : ∀ bytes : List UInt8,
    littleEndian bytes.length (ofLittleEndian bytes) = bytes
  | [] => rfl
  | byte :: bytes => by
    have hbyte := byte.toNat_lt
    have hlow : UInt8.ofNat (byte.toNat + 256 * ofLittleEndian bytes) = byte := by
      rw [← UInt8.toNat_inj, UInt8.toNat_ofNat']
      omega
    have hhigh : (byte.toNat + 256 * ofLittleEndian bytes) / 256 = ofLittleEndian bytes := by omega
    rw [ofLittleEndian_cons, List.length_cons, littleEndian, hlow, hhigh, littleEndian_ofLittleEndian bytes]

theorem littleEndian_eq_map : ∀ width value, littleEndian width value =
    (List.range width).map fun index => UInt8.ofNat (value / 256 ^ index)
  | 0, _ => rfl
  | width + 1, value => by
    rw [littleEndian, List.range_succ_eq_map, List.map_cons, List.map_map, Nat.pow_zero,
      Nat.div_one, littleEndian_eq_map width]
    congr 1
    refine List.map_congr_left fun index _ => ?_
    rw [Function.comp, Nat.succ_eq_add_one, Nat.pow_succ', Nat.div_div_eq_div_mul]

/-! ## Layouts -/

structure Layout (α : Type*) where
  width : ℕ
  store : α → List UInt8
  load : List UInt8 → α
  length_store : ∀ value, (store value).length = width
  load_store : ∀ value rest, load (store value ++ rest) = value
  store_load : ∀ bytes, width ≤ bytes.length → store (load bytes) = bytes.take width

namespace Layout

variable {α β : Type*}

theorem load_store' (layout : Layout α) (value : α) : layout.load (layout.store value) = value := by
  have h := layout.load_store value []
  rwa [List.append_nil] at h

theorem store_injective (layout : Layout α) : Function.Injective layout.store := fun left right h => by
  rw [← layout.load_store' left, h, layout.load_store']

theorem store_append_inj (layout : Layout α) {left right : α} {rest rest' : List UInt8} :
    layout.store left ++ rest = layout.store right ++ rest' ↔ left = right ∧ rest = rest' := by
  constructor
  · intro h
    have hlength : (layout.store left).length = (layout.store right).length := by
      rw [layout.length_store, layout.length_store]
    obtain ⟨hstore, hrest⟩ := List.append_inj h hlength
    exact ⟨layout.store_injective hstore, hrest⟩
  · rintro ⟨rfl, rfl⟩
    rfl

theorem load_append (layout : Layout α) {bytes : List UInt8} (h : layout.width ≤ bytes.length)
    (rest : List UInt8) : layout.load (bytes ++ rest) = layout.load bytes := by
  have hbytes : bytes = layout.store (layout.load bytes) ++ bytes.drop layout.width := by
    rw [layout.store_load bytes h, List.take_append_drop]
  conv_lhs => rw [hbytes, List.append_assoc]
  exact layout.load_store _ _

/-- Two fields in a row. -/
def pair (first : Layout α) (second : Layout β) : Layout (α × β) where
  width := first.width + second.width
  store value := first.store value.1 ++ second.store value.2
  load bytes := (first.load bytes, second.load (bytes.drop first.width))
  length_store value := by rw [List.length_append, first.length_store, second.length_store]
  load_store value rest := by
    rw [List.append_assoc, first.load_store, ← first.length_store value.1, List.drop_left,
      second.load_store]
  store_load bytes h := by
    rw [first.store_load bytes (by omega), second.store_load _ (by rw [List.length_drop]; omega),
      List.take_add]

/-- The same bytes for the values of another type. -/
def map (layout : Layout α) (equiv : α ≃ β) : Layout β where
  width := layout.width
  store value := layout.store (equiv.symm value)
  load bytes := equiv (layout.load bytes)
  length_store value := layout.length_store _
  load_store value rest := by rw [layout.load_store, equiv.apply_symm_apply]
  store_load bytes h := by rw [equiv.symm_apply_apply, layout.store_load bytes h]

/-- A number below `256 ^ width`, most or least significant byte first, is what the byte strings
of the width are. -/
def ofNumbers {width : ℕ} (toNumber : α → ℕ) (ofNumber : ℕ → α)
    (hlt : ∀ value, toNumber value < 256 ^ width) (hof : ∀ value, ofNumber (toNumber value) = value)
    (hto : ∀ number, number < 256 ^ width → toNumber (ofNumber number) = number) : Layout α where
  width := width
  store value := littleEndian width (toNumber value)
  load bytes := ofNumber (ofLittleEndian (bytes.take width))
  length_store value := littleEndian_length _ _
  load_store value rest := by
    rw [List.take_left' (littleEndian_length _ _), ofLittleEndian_littleEndian (hlt value), hof]
  store_load bytes h := by
    have hlen : (bytes.take width).length = width := by rw [List.length_take]; omega
    have hnumber := ofLittleEndian_lt (bytes.take width)
    rw [hlen] at hnumber
    have hround := littleEndian_ofLittleEndian (bytes.take width)
    rw [hlen] at hround
    rw [hto _ hnumber, hround]

/-- The bytes of a layout in reverse order. -/
def reverse (layout : Layout α) : Layout α where
  width := layout.width
  store value := (layout.store value).reverse
  load bytes := layout.load (bytes.take layout.width).reverse
  length_store value := by rw [List.length_reverse, layout.length_store]
  load_store value rest := by
    rw [List.take_left' (by rw [List.length_reverse, layout.length_store]), List.reverse_reverse,
      layout.load_store']
  store_load bytes h := by
    have hlen : (bytes.take layout.width).reverse.length = layout.width := by
      rw [List.length_reverse, List.length_take]
      omega
    rw [layout.store_load _ hlen.ge, List.take_of_length_le hlen.le, List.reverse_reverse]

/-! ## Words, least significant byte first, and bit vectors, most significant byte first -/

def word16 : Layout UInt16 :=
  @ofNumbers _ 2 UInt16.toNat UInt16.ofNat UInt16.toNat_lt (fun _ => UInt16.ofNat_toNat)
    fun _ h => UInt16.toNat_ofNat_of_lt' h

def word32 : Layout UInt32 :=
  @ofNumbers _ 4 UInt32.toNat UInt32.ofNat UInt32.toNat_lt (fun _ => UInt32.ofNat_toNat)
    fun _ h => UInt32.toNat_ofNat_of_lt' h

def word64 : Layout UInt64 :=
  @ofNumbers _ 8 UInt64.toNat UInt64.ofNat UInt64.toNat_lt (fun _ => UInt64.ofNat_toNat)
    fun _ h => UInt64.toNat_ofNat_of_lt' h

def bits (width : ℕ) : Layout (BitVec (8 * width)) :=
  (@ofNumbers _ width BitVec.toNat (BitVec.ofNat (8 * width))
    (fun value => by simpa only [Nat.pow_mul] using value.isLt) (fun value => by simp)
    fun number h => by
      rw [BitVec.toNat_ofNat, Nat.mod_eq_of_lt (by simpa only [Nat.pow_mul] using h)]).reverse

local instance neZero_four : NeZero 4 := ⟨by decide⟩

/-- Four values of one type in a row. -/
def four (layout : Layout α) : Layout (Fin 4 → α) :=
  (layout.pair (layout.pair (layout.pair layout))).map
    { toFun := fun values => ![values.1, values.2.1, values.2.2.1, values.2.2.2]
      invFun := fun values => (values 0, values 1, values 2, values 3)
      left_inv := fun _ => rfl
      right_inv := fun values => by
        funext index
        fin_cases index <;> rfl }

end Layout

end Laplace
