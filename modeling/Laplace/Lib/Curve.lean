import Mathlib.Data.Fin.Rev
import Mathlib.Logic.Equiv.Basic
import Mathlib.Tactic

/-!
# Curves through the cells of a grid, plane by plane

A point is a list of cells, one for each bit plane, most significant first: a cell says for every
axis which half is taken. A transducer whose output is a bijection in every state codes the points
of `n` planes as the words of `n` digits, and leading planes as leading digits. A `Pattern` gives one
whose state is an accumulated turn of the axes with a direction; when its cells join, points with
consecutive codes are neighbours.
-/

namespace Laplace.Curve

/-! ## Transducers -/

section Transducers

variable {σ α δ : Type}

/-- A state machine that answers each input with an output and moves on. -/
structure Transducer (σ α δ : Type) where
  out : σ → α ≃ δ
  next : σ → α → σ

namespace Transducer

variable (T : Transducer σ α δ)

def run : σ → List α → List δ
  | _, [] => []
  | s, a :: as => T.out s a :: run (T.next s a) as

def undo : σ → List δ → List α
  | _, [] => []
  | s, d :: ds => (T.out s).symm d :: undo (T.next s ((T.out s).symm d)) ds

@[simp] theorem run_nil (s : σ) : T.run s [] = [] := rfl

@[simp] theorem run_cons (s : σ) (a : α) (as : List α) :
    T.run s (a :: as) = T.out s a :: T.run (T.next s a) as := rfl

@[simp] theorem length_run (s : σ) (as : List α) : (T.run s as).length = as.length := by
  induction as generalizing s with
  | nil => rfl
  | cons a as ih => rw [run_cons, List.length_cons, List.length_cons, ih]

@[simp] theorem length_undo (s : σ) (ds : List δ) : (T.undo s ds).length = ds.length := by
  induction ds generalizing s with
  | nil => rfl
  | cons d ds ih => rw [undo, List.length_cons, List.length_cons, ih]

theorem undo_run (s : σ) (as : List α) : T.undo s (T.run s as) = as := by
  induction as generalizing s with
  | nil => rfl
  | cons a as ih => rw [run_cons, undo, Equiv.symm_apply_apply, ih]

theorem run_undo (s : σ) (ds : List δ) : T.run s (T.undo s ds) = ds := by
  induction ds generalizing s with
  | nil => rfl
  | cons d ds ih => rw [undo, run_cons, Equiv.apply_symm_apply, ih]

theorem run_injective (s : σ) : Function.Injective (T.run s) :=
  Function.LeftInverse.injective (T.undo_run s)

theorem run_take (s : σ) (k : ℕ) (as : List α) : T.run s (as.take k) = (T.run s as).take k := by
  induction k generalizing s as with
  | zero => rfl
  | succ k ih =>
    cases as with
    | nil => rfl
    | cons a as => rw [List.take_succ_cons, run_cons, run_cons, List.take_succ_cons, ih]

theorem run_take_iff (s : σ) (k : ℕ) (as bs : List α) :
    (T.run s as).take k = (T.run s bs).take k ↔ as.take k = bs.take k := by
  rw [← run_take, ← run_take]
  exact (T.run_injective s).eq_iff

end Transducer

end Transducers

/-! ## Numbers in a base, most significant digit first -/

section Words

variable {m : ℕ}

def number (m : ℕ) (ds : List ℕ) : ℕ := Nat.ofDigits m ds.reverse

@[simp] theorem number_nil : number m [] = 0 := rfl

theorem number_append (ds es : List ℕ) :
    number m (ds ++ es) = number m ds * m ^ es.length + number m es := by
  rw [number, List.reverse_append, Nat.ofDigits_append, List.length_reverse, number, number,
    Nat.add_comm, Nat.mul_comm]

theorem number_cons (d : ℕ) (ds : List ℕ) : number m (d :: ds) = d * m ^ ds.length + number m ds := by
  have hsingle : number m [d] = d := Nat.ofDigits_singleton
  rw [← List.singleton_append, number_append, hsingle]

theorem number_concat (ds : List ℕ) (d : ℕ) : number m (ds ++ [d]) = m * number m ds + d := by
  rw [number, List.reverse_append, List.reverse_singleton, List.singleton_append,
    Nat.ofDigits_cons, number, Nat.add_comm]

theorem number_lt (hm : 1 < m) (ds : List ℕ) (h : ∀ d ∈ ds, d < m) : number m ds < m ^ ds.length := by
  have hlt := Nat.ofDigits_lt_base_pow_length hm (l := ds.reverse) (by simpa using h)
  rwa [List.length_reverse] at hlt

theorem number_take (hm : 1 < m) {ds : List ℕ} (h : ∀ d ∈ ds, d < m) (k : ℕ) :
    number m (ds.take k) = number m ds / m ^ (ds.length - k) := by
  have hlt := number_lt hm _ fun d hd => h d (List.drop_subset k ds hd)
  have hsplit := @number_append m (ds.take k) (ds.drop k)
  rw [List.take_append_drop] at hsplit
  rw [List.length_drop] at hlt hsplit
  rw [hsplit, Nat.mul_comm, Nat.mul_add_div (by omega), Nat.div_eq_of_lt hlt, Nat.add_zero]

theorem number_inj (hm : 1 < m) {ds es : List ℕ} (hlen : ds.length = es.length)
    (hd : ∀ d ∈ ds, d < m) (he : ∀ e ∈ es, e < m) (h : number m ds = number m es) : ds = es := by
  have hrev := Nat.ofDigits_inj_of_len_eq hm (by simpa using hlen) (by simpa using hd)
    (by simpa using he) h
  exact List.reverse_injective hrev

/-- The digits of a word as a number. -/
def code (ds : List (Fin m)) : ℕ := number m (ds.map Fin.val)

theorem code_cons (d : Fin m) (ds : List (Fin m)) : code (d :: ds) = d * m ^ ds.length + code ds := by
  rw [code, List.map_cons, number_cons, List.length_map]
  rfl

theorem code_map_rev (ds : List (Fin m)) : code (ds.map Fin.rev) + code ds + 1 = m ^ ds.length := by
  induction ds with
  | nil => rfl
  | cons d ds ih =>
    have hd := d.isLt
    rw [List.map_cons, code_cons, code_cons, List.length_map, List.length_cons, Nat.pow_succ', Fin.val_rev]
    have hmul : (m - (d.val + 1)) * m ^ ds.length + d.val * m ^ ds.length + m ^ ds.length =
        m * m ^ ds.length := by
      rw [← Nat.add_mul, ← Nat.succ_mul]
      congr 1
      omega
    omega

theorem code_lt (ds : List (Fin m)) : code ds < m ^ ds.length := by
  have h := code_map_rev ds
  omega

theorem succ_cases {d e : Fin m} {ds es : List (Fin m)} (hlen : ds.length = es.length)
    (h : code (e :: es) = code (d :: ds) + 1) : (e = d ∧ code es = code ds + 1) ∨
      (e.val = d.val + 1 ∧ code ds + 1 = m ^ ds.length ∧ code es = 0) := by
  have hds := code_lt ds
  have hes := code_lt es
  rw [code_cons, code_cons, ← hlen] at h
  rw [← hlen] at hes
  generalize m ^ ds.length = w at h hds hes ⊢
  rcases Nat.lt_trichotomy e.val d.val with hlt | heq | hgt
  · have : (e.val + 1) * w ≤ d.val * w := Nat.mul_le_mul_right w hlt
    rw [Nat.add_mul] at this
    omega
  · rw [heq] at h
    exact .inl ⟨Fin.ext heq, by omega⟩
  · obtain ⟨k, hk⟩ := Nat.exists_eq_add_of_lt hgt
    have hmul : e.val * w = d.val * w + k * w + w := by
      rw [hk]
      ring
    have hzero : k = 0 := by
      by_contra hne
      have : 1 * w ≤ k * w := Nat.mul_le_mul_right w (by omega)
      omega
    rw [hzero, Nat.zero_mul, Nat.add_zero] at hmul
    exact .inr ⟨by omega, by omega, by omega⟩

theorem eq_replicate_of_code_zero [NeZero m] {ds : List (Fin m)} (h : code ds = 0) :
    ds = List.replicate ds.length 0 := by
  have hm := NeZero.pos m
  induction ds with
  | nil => rfl
  | cons d ds ih =>
    rw [code_cons] at h
    have hd : d = 0 := by
      have hpos : 0 < m ^ ds.length := Nat.pow_pos hm
      have := (Nat.mul_eq_zero.1 (Nat.eq_zero_of_add_eq_zero_right h)).resolve_right hpos.ne'
      exact Fin.ext (by simpa using this)
    rw [List.length_cons, List.replicate_succ, hd, ← ih (by omega)]

theorem eq_replicate_of_code_last [NeZero m] {ds : List (Fin m)}
    (h : code ds + 1 = m ^ ds.length) : ds = List.replicate ds.length (Fin.rev 0) := by
  have hrev : code (ds.map Fin.rev) = 0 := by
    have := code_map_rev ds
    omega
  have := congrArg (List.map Fin.rev) (eq_replicate_of_code_zero hrev)
  simpa [List.map_replicate, List.map_map, Function.comp_def] using this

theorem exists_code (n : ℕ) {k : ℕ} (h : k < m ^ n) : ∃ ds : List (Fin m), ds.length = n ∧ code ds = k := by
  induction n generalizing k with
  | zero => exact ⟨[], rfl, by rw [Nat.pow_zero] at h; simp [code]; omega⟩
  | succ n ih =>
    have hpos : 0 < m ^ n := Nat.pos_of_ne_zero fun hz => by simp [Nat.pow_succ, hz] at h
    obtain ⟨ds, hlen, hcode⟩ := ih (Nat.mod_lt k hpos)
    have hlt : k / m ^ n < m := (Nat.div_lt_iff_lt_mul hpos).2 (by rwa [← Nat.pow_succ'])
    refine ⟨⟨k / m ^ n, hlt⟩ :: ds, by rw [List.length_cons, hlen], ?_⟩
    rw [code_cons, hlen, hcode]
    exact Nat.div_add_mod' k (m ^ n)

theorem code_inj (hm : 1 < m) {ds es : List (Fin m)} (hlen : ds.length = es.length)
    (h : code ds = code es) : ds = es :=
  List.map_injective_iff.2 Fin.val_injective
    (number_inj hm (by simpa using hlen) (by simp) (by simp) h)

theorem code_take (hm : 1 < m) (ds : List (Fin m)) (k : ℕ) :
    code (ds.take k) = code ds / m ^ (ds.length - k) := by
  rw [code, List.map_take, number_take hm (by simp), List.length_map]
  rfl

end Words

/-! ## Turns of the axes -/

section Turns

variable {ι : Type}

abbrev Cell (ι : Type) := ι → Bool

/-- A permutation of the axes and a mirror image in some of them. -/
structure Turn (ι : Type) where
  axis : ι ≃ ι
  mirror : ι → Bool

namespace Turn

def apply (t : Turn ι) (a : Cell ι) : Cell ι := fun i => a (t.axis i) ^^ t.mirror i

def id : Turn ι := ⟨Equiv.refl ι, fun _ => false⟩

def swap [DecidableEq ι] (i j : ι) : Turn ι := ⟨Equiv.swap i j, fun _ => false⟩

def mirrorAt [DecidableEq ι] (i : ι) : Turn ι := ⟨Equiv.refl ι, fun j => decide (j = i)⟩

/-- First `t`, then `u`. -/
def andThen (t u : Turn ι) : Turn ι :=
  ⟨u.axis.trans t.axis, fun i => t.mirror (u.axis i) ^^ u.mirror i⟩

def inverse (t : Turn ι) : Turn ι := ⟨t.axis.symm, fun i => t.mirror (t.axis.symm i)⟩

@[simp] theorem apply_id (a : Cell ι) : id.apply a = a := by
  funext i
  simp [apply, id]

@[simp] theorem apply_andThen (t u : Turn ι) (a : Cell ι) :
    (t.andThen u).apply a = u.apply (t.apply a) := by
  funext i
  simp [apply, andThen]

@[simp] theorem inverse_apply (t : Turn ι) (a : Cell ι) : t.inverse.apply (t.apply a) = a := by
  funext i
  simp [apply, inverse]

@[simp] theorem apply_inverse (t : Turn ι) (a : Cell ι) : t.apply (t.inverse.apply a) = a := by
  funext i
  simp [apply, inverse]

@[simp] theorem inverse_andThen (t u : Turn ι) (a : Cell ι) :
    (t.andThen u).inverse.apply a = t.inverse.apply (u.inverse.apply a) := by
  funext i
  simp only [apply, andThen, inverse, Equiv.symm_trans_apply, Equiv.apply_symm_apply, Bool.xor_assoc]
  rw [Bool.xor_comm (t.mirror _)]

def equiv (t : Turn ι) : Cell ι ≃ Cell ι :=
  ⟨t.apply, t.inverse.apply, t.inverse_apply, t.apply_inverse⟩

end Turn

/-- The cells differ in axis `k` alone, and the corners `x` and `y` in them face each other. -/
structure Facing (k : ι) (a b x y : Cell ι) : Prop where
  cells : ∀ i, i ≠ k → a i = b i
  apart : b k = !a k
  corners : ∀ i, i ≠ k → x i = y i
  left : x k = !a k
  right : y k = a k

instance [Fintype ι] [DecidableEq ι] (k : ι) (a b x y : Cell ι) : Decidable (Facing k a b x y) :=
  decidable_of_iff ((∀ i, i ≠ k → a i = b i) ∧ b k = (!a k) ∧ (∀ i, i ≠ k → x i = y i) ∧
    x k = (!a k) ∧ y k = a k)
    ⟨fun ⟨h₁, h₂, h₃, h₄, h₅⟩ => ⟨h₁, h₂, h₃, h₄, h₅⟩,
      fun h => ⟨h.cells, h.apart, h.corners, h.left, h.right⟩⟩

theorem Facing.symm {k : ι} {a b x y : Cell ι} (h : Facing k a b x y) : Facing k b a y x where
  cells i hi := (h.cells i hi).symm
  apart := by simp [h.apart]
  corners i hi := (h.corners i hi).symm
  left := by simp [h.apart, h.right]
  right := by simp [h.apart, h.left]

theorem Facing.turned {k : ι} {a b x y : Cell ι} (h : Facing k a b x y) (t : Turn ι) :
    Facing (t.axis.symm k) (t.apply a) (t.apply b) (t.apply x) (t.apply y) where
  cells i hi := by
    simp only [Turn.apply, h.cells (t.axis i) fun he => hi (t.axis.eq_symm_apply.2 he)]
  apart := by simp [Turn.apply, h.apart]
  corners i hi := by
    simp only [Turn.apply, h.corners (t.axis i) fun he => hi (t.axis.eq_symm_apply.2 he)]
  left := by simp [Turn.apply, h.left]
  right := by simp [Turn.apply, h.right]

/-- The coordinate of a point on an axis. -/
def coordinate (i : ι) (as : List (Cell ι)) : ℕ := number 2 (as.map fun a => (a i).toNat)

theorem coordinate_cons (i : ι) (a : Cell ι) (as : List (Cell ι)) :
    coordinate i (a :: as) = (a i).toNat * 2 ^ as.length + coordinate i as := by
  rw [coordinate, List.map_cons, number_cons, List.length_map]
  rfl

theorem coordinate_lt (i : ι) (as : List (Cell ι)) : coordinate i as < 2 ^ as.length := by
  have h := number_lt (by decide : 1 < 2) (as.map fun a => (a i).toNat) (by
    simp only [List.mem_map, forall_exists_index, and_imp, forall_apply_eq_imp_iff₂]
    exact fun a _ => Bool.toNat_lt (a i))
  rwa [List.length_map] at h

theorem coordinate_take (i : ι) (as : List (Cell ι)) (k : ℕ) :
    coordinate i (as.take k) = coordinate i as / 2 ^ (as.length - k) := by
  rw [coordinate, List.map_take, number_take (by decide), List.length_map]
  · rfl
  · simp only [List.mem_map, forall_exists_index, and_imp, forall_apply_eq_imp_iff₂]
    exact fun a _ => Bool.toNat_lt (a i)

theorem eq_of_coordinates {as bs : List (Cell ι)} (hlen : as.length = bs.length)
    (h : ∀ i, coordinate i as = coordinate i bs) : as = bs := by
  have hmap (i : ι) : as.map (fun a => (a i).toNat) = bs.map fun b => (b i).toNat := by
    refine number_inj (by decide) (by simpa using hlen) ?_ ?_ (h i)
    · simp only [List.mem_map, forall_exists_index, and_imp, forall_apply_eq_imp_iff₂]
      exact fun a _ => Bool.toNat_lt (a i)
    · simp only [List.mem_map, forall_exists_index, and_imp, forall_apply_eq_imp_iff₂]
      exact fun b _ => Bool.toNat_lt (b i)
  refine List.ext_getElem hlen fun n ha hb => funext fun i => ?_
  have hn := congrArg (·[n]?) (hmap i)
  simp only [List.getElem?_map, List.getElem?_eq_getElem ha, List.getElem?_eq_getElem hb,
    Option.map_some, Option.some.injEq] at hn
  exact (by decide : ∀ x y : Bool, x.toNat = y.toNat → x = y) _ _ hn

/-- The points differ in one coordinate, and there by one. -/
def Neighbours (as bs : List (Cell ι)) : Prop :=
  ∃ k, (∀ i, i ≠ k → coordinate i as = coordinate i bs) ∧
    (coordinate k as + 1 = coordinate k bs ∨ coordinate k bs + 1 = coordinate k as)

theorem Neighbours.cons {as bs : List (Cell ι)} (hlen : as.length = bs.length)
    (h : Neighbours as bs) (a : Cell ι) : Neighbours (a :: as) (a :: bs) := by
  obtain ⟨k, hne, hk⟩ := h
  refine ⟨k, fun i hi => ?_, ?_⟩
  · rw [coordinate_cons, coordinate_cons, hne i hi, hlen]
  · rw [coordinate_cons, coordinate_cons, hlen]
    omega

theorem coordinate_congr {i : ι} {x y : Cell ι} (h : x i = y i) (n : ℕ) :
    coordinate i (List.replicate n x) = coordinate i (List.replicate n y) := by
  rw [coordinate, coordinate, List.map_replicate, List.map_replicate, h]

theorem coordinate_not {i : ι} {x y : Cell ι} (h : y i = !x i) (n : ℕ) :
    coordinate i (List.replicate n x) + coordinate i (List.replicate n y) + 1 = 2 ^ n := by
  induction n with
  | zero => rfl
  | succ n ih =>
    rw [List.replicate_succ, List.replicate_succ, coordinate_cons, coordinate_cons, h,
      List.length_replicate, List.length_replicate, Nat.pow_succ]
    cases x i <;> simp <;> omega

theorem coordinate_false {i : ι} {x : Cell ι} (h : x i = false) (n : ℕ) :
    coordinate i (List.replicate n x) = 0 := by
  induction n with
  | zero => rfl
  | succ n ih => simp [List.replicate_succ, coordinate_cons, h, ih]

theorem Facing.neighbours {k : ι} {a b x y : Cell ι} (h : Facing k a b x y) (n : ℕ) :
    Neighbours (a :: List.replicate n x) (b :: List.replicate n y) := by
  refine ⟨k, fun i hi => ?_, ?_⟩
  · rw [coordinate_cons, coordinate_cons, h.cells i hi, coordinate_congr (h.corners i hi),
      List.length_replicate, List.length_replicate]
  · have hfar := coordinate_not (x := x) (y := y) (i := k) (by simp [h.left, h.right]) n
    rw [coordinate_cons, coordinate_cons, h.apart, List.length_replicate, List.length_replicate]
    cases hak : a k with
    | false =>
      rw [coordinate_false (x := y) (by rw [h.right, hak])] at hfar ⊢
      simp
      omega
    | true =>
      rw [coordinate_false (x := x) (by rw [h.left, hak]; rfl)] at hfar ⊢
      simp
      omega

end Turns

/-! ## Curves -/

section Curves

variable {ι : Type} {m : ℕ}

/-- A digit, counted from the other end when the curve is read backwards. -/
def orient (c : Bool) : Fin m ≃ Fin m := if c then Fin.revPerm else Equiv.refl _

@[simp] theorem orient_false (d : Fin m) : orient false d = d := rfl

@[simp] theorem orient_true (d : Fin m) : orient true d = Fin.rev d := rfl

variable [NeZero m]

/-- Where a run through the cells enters and leaves the whole, read backwards or not. -/
def entry (first last : Cell ι) (backwards : Bool) : Cell ι := if backwards then last else first

/-- One plane of a curve: the order of its cells, how the curve lies in each of them, and that it
leaves every cell next to where it enters the following one. -/
structure Pattern (ι : Type) (m : ℕ) [NeZero m] where
  digit : Cell ι ≃ Fin m
  turn : Cell ι → Turn ι
  backwards : Cell ι → Bool
  first : Cell ι
  last : Cell ι
  digit_first : digit first = 0
  digit_last : digit last = Fin.rev 0
  forwards_first : backwards first = false
  backwards_last : backwards last = true
  turn_first : (turn first).inverse.apply first = first
  turn_last : (turn last).inverse.apply first = last
  joins : ∀ a b, (digit b).val = (digit a).val + 1 → ∃ k, Facing k a b
    ((turn a).inverse.apply (entry first last (!backwards a)))
    ((turn b).inverse.apply (entry first last (backwards b)))

namespace Pattern

variable (P : Pattern ι m)

/-- The direction so far, and the turn of the plane to come. -/
def transducer : Transducer (Bool × Turn ι) (Cell ι) (Fin m) where
  out s := s.2.equiv.trans (P.digit.trans (orient s.1))
  next s a := (s.1 ^^ P.backwards (s.2.apply a), s.2.andThen (P.turn (s.2.apply a)))

theorem out_eq (s : Bool × Turn ι) (a : Cell ι) :
    P.transducer.out s a = orient s.1 (P.digit (s.2.apply a)) := rfl

theorem next_eq (s : Bool × Turn ι) (a : Cell ι) : P.transducer.next s a =
    (s.1 ^^ P.backwards (s.2.apply a), s.2.andThen (P.turn (s.2.apply a))) := rfl

/-- A corner of the first cell or of the last is a corner of its first or of its last cell. -/
theorem run_corner (leaving c : Bool) (t : Turn ι) (n : ℕ) :
    P.transducer.run (c, t) (List.replicate n (t.inverse.apply (entry P.first P.last (c ^^ leaving)))) =
      List.replicate n (if leaving then Fin.rev 0 else 0) := by
  induction n generalizing c t with
  | zero => rfl
  | succ n ih =>
    rw [List.replicate_succ, Transducer.run_cons, out_eq, next_eq, Turn.apply_inverse, List.replicate_succ]
    have hfirst := ih leaving (t.andThen (P.turn P.first))
    have hlast := ih leaving (t.andThen (P.turn P.last))
    rw [Turn.inverse_andThen] at hfirst hlast
    cases c <;> cases leaving
    · simpa [entry, P.digit_first, P.forwards_first, P.turn_first] using hfirst
    · simpa [entry, P.digit_last, P.backwards_last, P.turn_last] using hlast
    · simpa [entry, P.digit_last, P.backwards_last, P.turn_last] using hlast
    · simpa [entry, P.digit_first, P.forwards_first, P.turn_first] using hfirst

theorem eq_entry {c : Bool} {t : Turn ι} {as : List (Cell ι)} (h : code (P.transducer.run (c, t) as) = 0) :
    as = List.replicate as.length (t.inverse.apply (entry P.first P.last c)) := by
  have hrun := eq_replicate_of_code_zero h
  have hcorner := P.run_corner false c t as.length
  rw [Bool.xor_false] at hcorner
  rw [Transducer.length_run] at hrun
  exact P.transducer.run_injective _ (hrun.trans hcorner.symm)

theorem eq_exit {c : Bool} {t : Turn ι} {as : List (Cell ι)}
    (h : code (P.transducer.run (c, t) as) + 1 = m ^ as.length) :
    as = List.replicate as.length (t.inverse.apply (entry P.first P.last (!c))) := by
  rw [← P.transducer.length_run (c, t) as] at h
  have hrun := eq_replicate_of_code_last h
  have hcorner := P.run_corner true c t as.length
  rw [Bool.xor_true] at hcorner
  rw [Transducer.length_run] at hrun
  exact P.transducer.run_injective _ (hrun.trans hcorner.symm)

/-- Whatever the turn and the direction, the corners at which the curve passes between two cells
face each other. -/
theorem facing {c : Bool} {t : Turn ι} {a b : Cell ι}
    (h : (P.transducer.out (c, t) b).val = (P.transducer.out (c, t) a).val + 1) : ∃ k, Facing k a b
      ((P.transducer.next (c, t) a).2.inverse.apply
        (entry P.first P.last (!(P.transducer.next (c, t) a).1)))
      ((P.transducer.next (c, t) b).2.inverse.apply
        (entry P.first P.last (P.transducer.next (c, t) b).1)) := by
  simp only [next_eq, Turn.inverse_andThen]
  rw [out_eq, out_eq] at h
  have hturned : ∀ {k x y}, Facing k (t.apply a) (t.apply b) x y →
      ∃ k, Facing k a b (t.inverse.apply x) (t.inverse.apply y) := fun hk => by
    have hback := hk.turned t.inverse
    rw [Turn.inverse_apply, Turn.inverse_apply] at hback
    exact ⟨_, hback⟩
  cases c with
  | false =>
    obtain ⟨k, hk⟩ := P.joins (t.apply a) (t.apply b) (by simpa using h)
    simpa using hturned hk
  | true =>
    have hrev : (P.digit (t.apply a)).val = (P.digit (t.apply b)).val + 1 := by
      have ha := (P.digit (t.apply a)).isLt
      simp only [orient_true, Fin.val_rev] at h
      omega
    obtain ⟨k, hk⟩ := P.joins (t.apply b) (t.apply a) hrev
    simpa using hturned hk.symm

theorem neighbours {s : Bool × Turn ι} {as bs : List (Cell ι)} (hlen : as.length = bs.length)
    (h : code (P.transducer.run s bs) = code (P.transducer.run s as) + 1) : Neighbours as bs := by
  induction as generalizing s bs with
  | nil =>
    rw [List.length_eq_zero_iff.1 hlen.symm] at h
    exact absurd h (by simp [code])
  | cons a as ih =>
    obtain ⟨b, bs, rfl⟩ : ∃ b bs', bs = b :: bs' := List.exists_cons_of_length_eq_add_one hlen.symm
    rw [List.length_cons, List.length_cons, Nat.add_right_cancel_iff] at hlen
    rw [Transducer.run_cons, Transducer.run_cons] at h
    obtain ⟨hout, hrest⟩ | ⟨hout, hlast, hzero⟩ := succ_cases (by simp [hlen]) h
    · have hab : b = a := (P.transducer.out s).injective hout
      rw [hab] at hrest ⊢
      exact (ih hlen hrest).cons hlen a
    · rw [Transducer.length_run] at hlast
      rw [P.eq_exit hlast, P.eq_entry hzero, hlen]
      obtain ⟨k, hk⟩ := P.facing hout
      exact hk.neighbours bs.length

end Pattern

end Curves

end Laplace.Curve
