import Mathlib.Tactic

/-!
# A memory of cells that are never used again

A cell holds a value, or nothing once it has been freed; an address is the place of a cell in the
order of allocation. `count` is how many live cells have a property and `total` is a sum over the
live cells; both change by what one operation adds and removes.
-/

namespace Laplace

abbrev Heap (α : Type) := List (Option α)

namespace Heap

variable {α : Type}

def read (heap : Heap α) (address : ℕ) : Option α := heap[address]?.join

/-- The new cell has the address `heap.length`. -/
def alloc (heap : Heap α) (value : α) : Heap α := heap ++ [some value]

def write (heap : Heap α) (address : ℕ) (value : α) : Heap α := heap.set address (some value)

def free (heap : Heap α) (address : ℕ) : Heap α := heap.set address none

def total (measure : α → ℕ) (heap : Heap α) : ℕ := (heap.map fun cell => cell.elim 0 measure).sum

def count (property : α → Prop) [DecidablePred property] (heap : Heap α) : ℕ :=
  heap.total fun value => if property value then 1 else 0

/-- How many cells are live. -/
def live (heap : Heap α) : ℕ := heap.total fun _ => 1

/-! ## Reading -/

@[simp] theorem read_nil (address : ℕ) : read ([] : Heap α) address = none := rfl

theorem lt_of_read {heap : Heap α} {address : ℕ} {value : α} (h : heap.read address = some value) :
    address < heap.length := by
  by_contra hge
  rw [read, List.getElem?_eq_none (not_lt.1 hge)] at h
  cases h

theorem read_alloc (heap : Heap α) (value : α) (address : ℕ) : (heap.alloc value).read address =
    if address = heap.length then some value else heap.read address := by
  rcases lt_trichotomy address heap.length with hlt | rfl | hgt
  · rw [if_neg hlt.ne, read, alloc, List.getElem?_append_left hlt, read]
  · simp [read, alloc]
  · rw [if_neg hgt.ne', read, read, alloc, List.getElem?_eq_none (by simpa using hgt),
      List.getElem?_eq_none hgt.le]

theorem read_write {heap : Heap α} {address : ℕ} (h : address < heap.length) (value : α)
    (other : ℕ) : (heap.write address value).read other =
      if other = address then some value else heap.read other := by
  by_cases heq : other = address
  · subst heq
    rw [if_pos rfl, read, write, List.getElem?_set_self h]
    rfl
  · rw [if_neg heq, read, write, List.getElem?_set_ne (Ne.symm heq), read]

theorem read_free (heap : Heap α) (address other : ℕ) : (heap.free address).read other =
    if other = address then none else heap.read other := by
  by_cases heq : other = address
  · subst heq
    rw [if_pos rfl, read, free, List.getElem?_set_self']
    cases heap[other]? <;> rfl
  · rw [if_neg heq, read, free, List.getElem?_set_ne (Ne.symm heq), read]

@[simp] theorem length_alloc (heap : Heap α) (value : α) : (heap.alloc value).length = heap.length + 1 := by
  rw [alloc, List.length_append, List.length_singleton]

@[simp] theorem length_write (heap : Heap α) (address : ℕ) (value : α) :
    (heap.write address value).length = heap.length := List.length_set

@[simp] theorem length_free (heap : Heap α) (address : ℕ) :
    (heap.free address).length = heap.length := List.length_set

/-! ## Sums over the live cells -/

section Totals

variable (measure : α → ℕ) {heap : Heap α} {address : ℕ} {value : α}

@[simp] theorem total_nil : total measure [] = 0 := rfl

theorem total_alloc (heap : Heap α) (value : α) :
    (heap.alloc value).total measure = heap.total measure + measure value := by
  simp [total, alloc]

theorem total_set (h : heap.read address = some value) (cell : Option α) :
    total measure (heap.set address cell) + measure value = heap.total measure + cell.elim 0 measure := by
  induction heap generalizing address with
  | nil => cases h
  | cons first rest ih =>
    cases address with
    | zero =>
      have hfirst : first = some value := h
      simp only [total, hfirst, List.set_cons_zero, List.map_cons, List.sum_cons, Option.elim_some]
      omega
    | succ address =>
      have hrest := @ih address h
      simp only [total, List.set_cons_succ, List.map_cons, List.sum_cons] at hrest ⊢
      omega

theorem total_write (h : heap.read address = some value) (value' : α) :
    (heap.write address value').total measure + measure value =
      heap.total measure + measure value' := total_set measure h (some value')

theorem total_free (h : heap.read address = some value) :
    (heap.free address).total measure + measure value = heap.total measure := total_set measure h none

theorem le_total (h : heap.read address = some value) : measure value ≤ heap.total measure := by
  have := total_free measure h
  omega

theorem sum_le_total : ∀ {addresses : List ℕ} {heap : Heap α}, addresses.Nodup →
    ∀ {values : List α}, List.Forall₂ (fun address value => heap.read address = some value)
      addresses values → (values.map measure).sum ≤ heap.total measure
  | [], _, _, [], _ => Nat.zero_le _
  | address :: addresses, heap, hnodup, value :: values, hvalues => by
    obtain ⟨hnotMem, hnodup⟩ := List.nodup_cons.1 hnodup
    obtain ⟨hvalue, hvalues⟩ := List.forall₂_cons.1 hvalues
    have hrest : List.Forall₂ (fun other value => (heap.free address).read other = some value)
        addresses values := by
      refine List.forall₂_iff_zip.2 ⟨hvalues.length_eq, fun {other value} hmem => ?_⟩
      have hne : other ≠ address := fun heq => hnotMem (heq ▸ (List.of_mem_zip hmem).1)
      rw [read_free, if_neg hne]
      exact (List.forall₂_iff_zip.1 hvalues).2 hmem
    have hsum := sum_le_total hnodup hrest
    have hfree := total_free measure hvalue
    rw [List.map_cons, List.sum_cons]
    omega

variable (property : α → Prop) [DecidablePred property]

theorem count_alloc (heap : Heap α) (value : α) : (heap.alloc value).count property =
    heap.count property + if property value then 1 else 0 :=
  total_alloc _ heap value

theorem count_write (h : heap.read address = some value) (value' : α) :
    ((heap.write address value').count property + if property value then 1 else 0) =
      heap.count property + if property value' then 1 else 0 := total_write _ h value'

theorem count_free (h : heap.read address = some value) :
    ((heap.free address).count property + if property value then 1 else 0) =
      heap.count property := total_free _ h

theorem count_pos (h : heap.read address = some value) (hvalue : property value) :
    0 < heap.count property := by
  have := le_total (fun value => if property value then 1 else 0) h
  rw [if_pos hvalue] at this
  exact this

theorem exists_of_count_pos (h : 0 < heap.count property) :
    ∃ address value, heap.read address = some value ∧ property value := by
  induction heap with
  | nil => cases h
  | cons first rest ih =>
    rcases first with _ | value
    · obtain ⟨address, value, hread, hvalue⟩ := ih (by simpa [count, total] using h)
      exact ⟨address + 1, value, hread, hvalue⟩
    · by_cases hvalue : property value
      · exact ⟨0, value, rfl, hvalue⟩
      · obtain ⟨address, value, hread, hvalue⟩ := ih (by simpa [count, total, hvalue] using h)
        exact ⟨address + 1, value, hread, hvalue⟩

theorem address_eq_of_count_le_one {other : ℕ} {value' : α} (hcount : heap.count property ≤ 1)
    (h : heap.read address = some value) (hvalue : property value)
    (hother : heap.read other = some value') (hvalue' : property value') : address = other := by
  by_contra hne
  have hrest : (heap.free address).read other = some value' := by
    rw [read_free, if_neg (Ne.symm hne), hother]
  have hpos := count_pos property hrest hvalue'
  have hfree := count_free property h
  rw [if_pos hvalue] at hfree
  omega

theorem live_le_one (h : ∀ address other (value value' : α), heap.read address = some value →
    heap.read other = some value' → address = other) : heap.live ≤ 1 := by
  by_contra hlt
  have hlive : ∀ heap : Heap α, heap.live = heap.count fun _ => True := fun heap => by
    simp [live, count]
  obtain ⟨address, value, hvalue, -⟩ := @exists_of_count_pos α heap (fun _ => True) _
    (by rw [← hlive]; omega)
  have hfree : (heap.free address).live + 1 = heap.live := total_free _ hvalue
  obtain ⟨other, value', hother, -⟩ := @exists_of_count_pos α (heap.free address)
    (fun _ => True) _ (by rw [← hlive]; omega)
  rw [read_free] at hother
  split at hother
  · cases hother
  · rename_i hne
    exact hne (h other address value' value hother hvalue)

end Totals

end Heap

end Laplace
