import Laplace.Perfcache.Registry

/-!
# What every reachable registry keeps

Each generation that was ever allocated is in exactly one place: active, retired, behind a ticket,
behind a prepared generation, about to be closed, or closed. A place that loses a generation hands it
to another one, so the sum over the places stays what it is.
-/

namespace Laplace.Perfcache

open Heap Perfcache.System

namespace System

def active (s : System) : Option ℕ := s.registry.bind Registry.active

def retired (s : System) : List ℕ := (s.registry.map Registry.retired).getD []

def reservation (s : System) : Option ℕ := s.registry.bind Registry.reservation

def preparedCount (s : System) : UInt64 := (s.registry.map Registry.preparedCount).getD 0

/-- The epoch of the active generation. -/
def activeEpoch (s : System) : Option Epoch :=
  s.active.bind fun address => (s.generations.read address).map LoadedGeneration.epoch

/-- How many pins point to a generation. -/
def pinsOn (s : System) (address : ℕ) : ℕ :=
  s.pins.countP fun pin => decide (pin.map Prod.fst = some address)

/-- In how many places a generation is. -/
def places (s : System) (address : ℕ) : ℕ :=
  s.active.toList.count address + s.retired.count address +
  s.tickets.count (fun ticket => ticket.generation = some address) +
  s.prepared.count (fun prepared => prepared.generation = some address) +
  s.closing.count address + s.closed.count address

/-- How many clients and activations hold a prepared generation. -/
def holders (s : System) (prepared : ℕ) : ℕ :=
  s.held.count prepared + s.activations.count fun activation => activation.prepared = some prepared

section Fields

variable (registry : Registry) (generations : Heap LoadedGeneration)
  (prepared : Heap PreparedGeneration) (tickets : Heap ActivationTicket)
  (activations : Heap Activation) (held : List ℕ) (pins : List Pin) (closing closed : List ℕ)

@[simp] theorem active_mk : active ⟨some registry, generations, prepared, tickets, activations,
    held, pins, closing, closed⟩ = registry.active := rfl

@[simp] theorem retired_mk : retired ⟨some registry, generations, prepared, tickets,
    activations, held, pins, closing, closed⟩ = registry.retired := rfl

@[simp] theorem reservation_mk : reservation ⟨some registry, generations, prepared, tickets,
    activations, held, pins, closing, closed⟩ = registry.reservation := rfl

@[simp] theorem preparedCount_mk : preparedCount ⟨some registry, generations, prepared,
    tickets, activations, held, pins, closing, closed⟩ = registry.preparedCount := rfl

end Fields

end System

theorem hasMemory_iff {α : Type} {heap : Heap α} :
    hasMemory heap = true ↔ heap.live < UInt64.size - 1 := decide_eq_true_iff

structure Sound (s : System) : Prop where
  placed : ∀ address, s.places address = if address < s.generations.length then 1 else 0
  live : ∀ address, (s.generations.read address).isSome ↔
    address < s.generations.length ∧ address ∉ s.closed
  tickets : ∀ address ticket, s.tickets.read address = some ticket →
    s.reservation = some address ∧ ticket.generation.isSome
  reserved : ∀ address, s.reservation = some address → (s.tickets.read address).isSome
  prepared : ∀ address prepared, s.prepared.read address = some prepared →
    prepared.generation.isSome
  counted : s.preparedCount.toNat = s.prepared.live
  held : ∀ address, s.holders address = if (s.prepared.read address).isSome then 1 else 0
  ticketed : ∀ address, s.activations.count (fun activation => activation.ticket = some address) =
    if s.reservation = some address then 1 else 0
  readers : ∀ address generation, s.generations.read address = some generation →
    generation.readers.toNat = s.pinsOn address
  pinned : ∀ address, 0 < s.pinsOn address → s.active = some address ∨ address ∈ s.retired
  pins_lt : s.pins.length < UInt64.size
  expected : ∀ address activation, s.activations.read address = some activation →
    activation.ticket.isSome → s.activeEpoch = activation.expectedEpoch
  live_lt : s.generations.live < UInt64.size
  artifacts_lt : s.generations.total (fun generation => generation.artifacts.length) < UInt64.size

namespace Sound

variable {s : System}

theorem create (modules : List RegisteredModule) : Sound (System.create modules) where
  placed _ := rfl
  live address := by simp [System.create]
  tickets _ _ h := by cases h
  reserved _ h := by cases h
  prepared _ _ h := by cases h
  counted := rfl
  held _ := rfl
  ticketed _ := rfl
  readers _ _ h := by cases h
  pinned _ h := by cases h
  pins_lt := by change 0 < UInt64.size; decide
  expected _ _ h := by cases h
  live_lt := by change 0 < UInt64.size; decide
  artifacts_lt := by change 0 < UInt64.size; decide

/-! ## Where a generation can be -/

theorem closed_count_le (h : Sound s) (address : ℕ) : s.closed.count address ≤ 1 := by
  have hplaced := h.placed address
  unfold places at hplaced
  split at hplaced <;> omega

theorem read_of_place (h : Sound s) {address : ℕ}
    (hplace : s.closed.count address < s.places address) :
    ∃ generation, s.generations.read address = some generation := by
  have hplaced := h.placed address
  have hlt : address < s.generations.length := by
    by_contra hge
    rw [if_neg hge] at hplaced
    omega
  rw [if_pos hlt] at hplaced
  have hnotMem : address ∉ s.closed := fun hmem => by
    have := List.count_pos_iff.2 hmem
    omega
  exact Option.isSome_iff_exists.1 ((h.live address).2 ⟨hlt, hnotMem⟩)

theorem read_active (h : Sound s) {address : ℕ} (hactive : s.active = some address) :
    ∃ generation, s.generations.read address = some generation :=
  h.read_of_place (by
    have := List.count_pos_iff.2 (Option.mem_toList.2 hactive)
    unfold places
    omega)

theorem read_retired (h : Sound s) {address : ℕ} (hretired : address ∈ s.retired) :
    ∃ generation, s.generations.read address = some generation :=
  h.read_of_place (by
    have := List.count_pos_iff.2 hretired
    unfold places
    omega)

theorem read_ticket (h : Sound s) {address target : ℕ}
    (hticket : s.tickets.read address = some ⟨some target⟩) :
    ∃ generation, s.generations.read target = some generation :=
  h.read_of_place (by
    have := count_pos (fun ticket : ActivationTicket =>
      ticket.generation = some target) hticket rfl
    unfold places
    omega)

theorem read_prepared (h : Sound s) {address target : ℕ}
    (hprepared : s.prepared.read address = some ⟨some target⟩) :
    ∃ generation, s.generations.read target = some generation :=
  h.read_of_place (by
    have := count_pos (fun prepared : PreparedGeneration =>
      prepared.generation = some target) hprepared rfl
    unfold places
    omega)

theorem read_closing (h : Sound s) {address : ℕ} (hclosing : address ∈ s.closing) :
    ∃ generation, s.generations.read address = some generation :=
  h.read_of_place (by
    have := List.count_pos_iff.2 hclosing
    unfold places
    omega)

theorem lt_of_place (h : Sound s) {address : ℕ} (hplace : 0 < s.places address) :
    address < s.generations.length := by
  have hplaced := h.placed address
  split at hplaced
  · assumption
  · omega

theorem lt_of_active (h : Sound s) {address : ℕ} (hactive : s.active = some address) :
    address < s.generations.length :=
  (h.read_active hactive).elim fun _ hread => lt_of_read hread

theorem lt_of_retired (h : Sound s) {address : ℕ} (hretired : address ∈ s.retired) :
    address < s.generations.length :=
  (h.read_retired hretired).elim fun _ hread => lt_of_read hread

theorem pinsOn_fresh (h : Sound s) : s.pinsOn s.generations.length = 0 := by
  by_contra hpins
  rcases h.pinned _ (Nat.pos_of_ne_zero hpins) with hactive | hretired
  · exact Nat.lt_irrefl _ (h.lt_of_active hactive)
  · exact Nat.lt_irrefl _ (h.lt_of_retired hretired)

theorem activeEpoch_congr {s s' : System} (hactive : s'.active = s.active)
    (hread : ∀ address, s.active = some address →
      (s'.generations.read address).map LoadedGeneration.epoch =
        (s.generations.read address).map LoadedGeneration.epoch) :
    s'.activeEpoch = s.activeEpoch := by
  unfold activeEpoch
  rw [hactive]
  rcases hs : s.active with _ | address
  · rfl
  · exact hread address hs

/-! ### The memory of the generations -/

theorem not_closed_of_length_le (h : Sound s) {address : ℕ} (hle : s.generations.length ≤ address) :
    address ∉ s.closed := fun hmem => by
  have hcount := List.count_pos_iff.2 hmem
  have hlt := @lt_of_place s h address (by unfold places; omega)
  omega

theorem live_alloc (h : Sound s) (generation : LoadedGeneration) (address : ℕ) :
    ((s.generations.alloc generation).read address).isSome ↔
      address < s.generations.length + 1 ∧ address ∉ s.closed := by
  rw [read_alloc]
  by_cases heq : address = s.generations.length
  · rw [if_pos heq]
    exact iff_of_true rfl ⟨by omega, h.not_closed_of_length_le heq.ge⟩
  · rw [if_neg heq, h.live address, Nat.lt_succ_iff_lt_or_eq, or_iff_left heq]

theorem readers_alloc (h : Sound s) {generation : LoadedGeneration} (hreaders : generation.readers = 0)
    {address : ℕ} {other : LoadedGeneration}
    (hread : (s.generations.alloc generation).read address = some other) :
    other.readers.toNat = s.pinsOn address := by
  rw [read_alloc] at hread
  split at hread
  · rename_i heq
    cases hread
    rw [heq, h.pinsOn_fresh, hreaders]
    rfl
  · exact h.readers address other hread

theorem live_write (h : Sound s) {address : ℕ} {generation : LoadedGeneration}
    (hread : s.generations.read address = some generation) (generation' : LoadedGeneration)
    (other : ℕ) : ((s.generations.write address generation').read other).isSome ↔
      other < s.generations.length ∧ other ∉ s.closed := by
  rw [read_write (lt_of_read hread), ← h.live other]
  split
  · rename_i heq
    rw [heq, hread]
    rfl
  · rfl

theorem readers_write (h : Sound s) {address : ℕ} {generation generation' : LoadedGeneration}
    (hread : s.generations.read address = some generation)
    (hreaders : generation'.readers = generation.readers) (other : ℕ) (result : LoadedGeneration)
    (hresult : (s.generations.write address generation').read other = some result) :
    result.readers.toNat = s.pinsOn other := by
  rw [read_write (lt_of_read hread)] at hresult
  split at hresult
  · rename_i heq
    cases hresult
    rw [hreaders, heq]
    exact h.readers address generation hread
  · exact h.readers other result hresult

theorem epoch_write {address : ℕ} {generation generation' : LoadedGeneration}
    (hread : s.generations.read address = some generation)
    (hepoch : generation'.epoch = generation.epoch) (other : ℕ) :
    ((s.generations.write address generation').read other).map LoadedGeneration.epoch =
      (s.generations.read other).map LoadedGeneration.epoch := by
  rw [read_write (lt_of_read hread)]
  split
  · rename_i heq
    rw [heq, hread, Option.map_some, Option.map_some, hepoch]
  · rfl

theorem artifacts_write (h : Sound s) {address : ℕ} {generation generation' : LoadedGeneration}
    (hread : s.generations.read address = some generation)
    (hartifacts : generation'.artifacts = generation.artifacts) :
    (s.generations.write address generation').total (fun generation => generation.artifacts.length) <
      UInt64.size := by
  have htotal := total_write (fun generation : LoadedGeneration =>
    generation.artifacts.length) hread generation'
  have hlt := h.artifacts_lt
  simp only [hartifacts] at htotal
  omega

theorem liveCount_write (h : Sound s) {address : ℕ} {generation : LoadedGeneration}
    (hread : s.generations.read address = some generation) (generation' : LoadedGeneration) :
    (s.generations.write address generation').live < UInt64.size := by
  have htotal := total_write (fun _ : LoadedGeneration => 1) hread generation'
  have hlt := h.live_lt
  unfold Heap.live at hlt ⊢
  omega

/-! ### The activations and what they hold -/

theorem ticket_unique (h : Sound s) {first second : ℕ} {activation other : Activation}
    (hfirst : s.activations.read first = some activation) (hticket : activation.ticket.isSome)
    (hsecond : s.activations.read second = some other) (hother : other.ticket.isSome) :
    first = second := by
  obtain ⟨ticket, hticket⟩ := Option.isSome_iff_exists.1 hticket
  obtain ⟨ticket', hother⟩ := Option.isSome_iff_exists.1 hother
  have hreserved : ∀ {address : ℕ} {activation : Activation} {ticket : ℕ},
      s.activations.read address = some activation → activation.ticket = some ticket →
      s.reservation = some ticket := by
    intro address activation ticket hread hticket
    by_contra hne
    have hpos := count_pos (fun activation : Activation =>
      activation.ticket = some ticket) hread hticket
    rw [h.ticketed ticket, if_neg hne] at hpos
    exact Nat.lt_irrefl 0 hpos
  have heq : ticket = ticket' := Option.some.inj
    ((hreserved hfirst hticket).symm.trans (hreserved hsecond hother))
  subst heq
  refine address_eq_of_count_le_one (fun activation : Activation =>
    activation.ticket = some ticket) ?_ hfirst hticket hsecond hother
  rw [h.ticketed ticket]
  split <;> omega

theorem ticket_reserved (h : Sound s) {address ticket : ℕ} {activation : Activation}
    (hread : s.activations.read address = some activation) (hticket : activation.ticket = some ticket) :
    s.reservation = some ticket ∧ ∃ target, s.tickets.read ticket = some ⟨some target⟩ := by
  have hpos := count_pos (fun activation : Activation =>
    activation.ticket = some ticket) hread hticket
  rw [h.ticketed ticket] at hpos
  split at hpos
  · rename_i hreservation
    obtain ⟨cell, hcell⟩ := Option.isSome_iff_exists.1 (h.reserved ticket hreservation)
    obtain ⟨target, htarget⟩ := Option.isSome_iff_exists.1 (h.tickets ticket cell hcell).2
    refine ⟨hreservation, target, ?_⟩
    rw [hcell, ← htarget]
  · exact absurd hpos (Nat.lt_irrefl 0)

theorem prepared_target (h : Sound s) {handle : ℕ} (hheld : 0 < s.holders handle) :
    ∃ target, s.prepared.read handle = some ⟨some target⟩ := by
  rw [h.held handle] at hheld
  split at hheld
  · rename_i hsome
    obtain ⟨cell, hcell⟩ := Option.isSome_iff_exists.1 hsome
    obtain ⟨target, htarget⟩ := Option.isSome_iff_exists.1 (h.prepared handle cell hcell)
    refine ⟨target, ?_⟩
    rw [hcell, ← htarget]
  · exact absurd hheld (Nat.lt_irrefl 0)

theorem preparedCount_ne (h : Sound s) {handle : ℕ} {cell : PreparedGeneration}
    (hcell : s.prepared.read handle = some cell) : s.preparedCount ≠ 0 := by
  have hlive := le_total (fun _ : PreparedGeneration => 1) hcell
  have hcounted := h.counted
  unfold Heap.live at hcounted
  intro hzero
  rw [hzero] at hcounted
  exact absurd hcounted (by change 0 ≠ _; omega)

end Sound

end Laplace.Perfcache
