import Laplace.Perfcache.Sound

/-!
# The moves of generations

One lemma for every way in which a step changes what the registry and its clients hold: a move
takes a generation from the place it is in to the next one.
-/

namespace Laplace.Perfcache

open Heap Perfcache.System

namespace Sound

variable {s : System} {registry : Registry}

theorem toNat_sub_one {count : UInt64} (h : count ≠ 0) : (count - 1).toNat + 1 = count.toNat := by
  have hpos : count.toNat ≠ 0 := fun hzero => h (UInt64.toNat_inj.1 hzero)
  have hle : (1 : UInt64) ≤ count := by
    rw [UInt64.le_iff_toNat_le, UInt64.toNat_one]
    omega
  rw [UInt64.toNat_sub_of_le _ _ hle, UInt64.toNat_one]
  omega

theorem reserve (h : Sound s) (hregistry : s.registry = some registry)
    {handle target address : ℕ} {activation : Activation}
    (hprepared : s.prepared.read handle = some ⟨some target⟩)
    (hactivation : s.activations.read address = some activation)
    (hhandle : activation.prepared = some handle) (hticket : activation.ticket = none)
    (hreservation : registry.reservation = none) (hcount : registry.preparedCount ≠ 0)
    (hexpected : s.activeEpoch = activation.expectedEpoch) (receipt : GenerationReceipt) : Sound { s with
      registry := some { registry with
        reservation := some s.tickets.length
        preparedCount := registry.preparedCount - 1 }
      prepared := s.prepared.free handle
      tickets := s.tickets.alloc ⟨some target⟩
      activations := s.activations.write address
        { activation with prepared := none, ticket := some s.tickets.length, receipt } } := by
  obtain ⟨_, generations, prepared, tickets, activations, held, pins, closing, closed⟩ := s
  cases hregistry
  dsimp only at *
  have hnone : ∀ address, ¬ (registry.reservation = some address) := fun address hsome => by
    rw [hreservation] at hsome
    cases hsome
  refine ⟨fun g => ?_, h.live, fun t ticket hread => ?_, fun t ht => ?_, fun p cell hread => ?_, ?_,
    fun p => ?_, fun t => ?_, h.readers, h.pinned, h.pins_lt, fun a other hread hother => ?_,
    h.live_lt, h.artifacts_lt⟩
  · have hplaced := h.placed g
    have hfree := count_free (fun cell : PreparedGeneration =>
      cell.generation = some g) hprepared
    simp only [places, active_mk, retired_mk, count_alloc] at hplaced hfree ⊢
    omega
  · rw [read_alloc] at hread
    split at hread
    · rename_i heq
      cases hread
      exact ⟨congrArg some heq.symm, rfl⟩
    · exact absurd (h.tickets t ticket hread).1 (hnone t)
  · cases ht
    rw [read_alloc, if_pos rfl]
    rfl
  · rw [read_free] at hread
    split at hread
    · cases hread
    · exact h.prepared p cell hread
  · have hcounted := h.counted
    have hlive : (prepared.free handle).live + 1 = prepared.live := total_free _ hprepared
    have hone := toNat_sub_one hcount
    simp only [preparedCount_mk] at hcounted ⊢
    omega
  · have hheld := h.held p
    have hwrite := count_write (fun cell : Activation => cell.prepared = some p)
      hactivation { activation with prepared := none, ticket := some tickets.length, receipt }
    simp only [holders, read_free] at hheld hwrite ⊢
    by_cases hp : p = handle
    · subst hp
      simp only [hprepared, hhandle] at hheld hwrite ⊢
      simp at hheld hwrite ⊢
      omega
    · simp only [hhandle, if_neg hp] at hheld hwrite ⊢
      simp [Ne.symm hp] at hwrite
      omega
  · have hticketed := h.ticketed t
    have hwrite := count_write (fun cell : Activation => cell.ticket = some t)
      hactivation { activation with prepared := none, ticket := some tickets.length, receipt }
    simp only [reservation_mk, hreservation, hticket] at hticketed hwrite ⊢
    simp at hticketed hwrite ⊢
    omega
  · have hlt := lt_of_read hactivation
    rw [read_write hlt] at hread
    split at hread
    · cases hread
      exact hexpected
    · exact h.expected a other hread hother

theorem allocClosing (h : Sound s) {generation : LoadedGeneration} (hreaders : generation.readers = 0)
    (hmemory : hasMemory s.generations = true)
    (hartifacts : s.generations.total (fun generation => generation.artifacts.length) +
      generation.artifacts.length < UInt64.size) : Sound { s with
      generations := s.generations.alloc generation
      closing := s.generations.length :: s.closing } := by
  refine ⟨fun g => ?_, fun g => ?_, h.tickets, h.reserved, h.prepared, h.counted, h.held,
    h.ticketed, fun g other hread => h.readers_alloc hreaders hread, h.pinned, h.pins_lt,
    fun a activation hread hticket => ?_, ?_, ?_⟩
  · have hplaced := h.placed g
    simp only [places, active, retired, length_alloc, List.count_cons,
      beq_iff_eq] at hplaced ⊢
    split at hplaced <;> split <;> split <;> omega
  · rw [length_alloc]
    exact h.live_alloc generation g
  · rw [← h.expected a activation hread hticket]
    refine activeEpoch_congr rfl fun address hactive => ?_
    rw [read_alloc, if_neg (h.lt_of_active hactive).ne]
  · have hlive : (s.generations.alloc generation).live = s.generations.live + 1 :=
      total_alloc _ _ _
    have hfits := hasMemory_iff.1 hmemory
    rw [hlive]
    omega
  · rw [total_alloc]
    exact hartifacts

theorem allocPrepared (h : Sound s) (hregistry : s.registry = some registry)
    {generation : LoadedGeneration} (hreaders : generation.readers = 0)
    (hmemory : hasMemory s.generations = true) (hhandles : hasMemory s.prepared = true)
    (hartifacts : s.generations.total (fun generation => generation.artifacts.length) +
      generation.artifacts.length < UInt64.size) : Sound { s with
      registry := some { registry with preparedCount := registry.preparedCount + 1 }
      generations := s.generations.alloc generation
      prepared := s.prepared.alloc ⟨some s.generations.length⟩
      held := s.prepared.length :: s.held } := by
  have hclosing := h.allocClosing hreaders hmemory hartifacts
  obtain ⟨_, generations, prepared, tickets, activations, held, pins, closing, closed⟩ := s
  cases hregistry
  dsimp only at *
  refine ⟨fun g => ?_, hclosing.live, h.tickets, h.reserved, fun p cell hread => ?_, ?_,
    fun p => ?_, h.ticketed, hclosing.readers, h.pinned, h.pins_lt, hclosing.expected,
    hclosing.live_lt, hclosing.artifacts_lt⟩
  · have hplaced := hclosing.placed g
    simp only [places, active_mk, retired_mk, count_alloc, List.count_cons,
      beq_iff_eq, Option.some.injEq] at hplaced ⊢
    omega
  · rw [read_alloc] at hread
    split at hread
    · cases hread
      rfl
    · exact h.prepared p cell hread
  · have hcounted := h.counted
    have hlive : (prepared.alloc ⟨some generations.length⟩).live = prepared.live + 1 :=
      total_alloc _ _ _
    have hfits := hasMemory_iff.1 hhandles
    unfold UInt64.size at hfits
    simp only [preparedCount_mk] at hcounted ⊢
    rw [hlive, Checked.toNat_add_of_lt (by rw [hcounted]; change prepared.live + 1 < _; omega), hcounted]
    rfl
  · have hheld := h.held p
    simp only [holders, List.count_cons, beq_iff_eq, read_alloc] at hheld ⊢
    by_cases hp : p = prepared.length
    · subst hp
      have hnone : prepared.read prepared.length = none := by
        by_contra hsome
        obtain ⟨cell, hcell⟩ := Option.ne_none_iff_exists'.1 hsome
        exact Nat.lt_irrefl _ (lt_of_read hcell)
      rw [hnone] at hheld
      simp at hheld ⊢
      omega
    · rw [if_neg hp, if_neg (Ne.symm hp)]
      omega

theorem activationCreate (h : Sound s) {handle : ℕ} (hheld : handle ∈ s.held)
    (expectedEpoch : Option Epoch) : Sound { s with
      activations := s.activations.alloc { prepared := some handle, expectedEpoch }
      held := s.held.erase handle } := by
  refine ⟨h.placed, h.live, h.tickets, h.reserved, h.prepared, h.counted, fun p => ?_, fun t => ?_,
    h.readers, h.pinned, h.pins_lt, fun a activation hread hticket => ?_, h.live_lt, h.artifacts_lt⟩
  · have hheldp := h.held p
    simp only [holders, count_alloc, List.count_erase, beq_iff_eq, Option.some.injEq]
      at hheldp ⊢
    rw [← hheldp]
    by_cases hp : handle = p
    · subst hp
      have := List.count_pos_iff.2 hheld
      simp
      omega
    · simp [hp]
  · rw [count_alloc]
    exact h.ticketed t
  · rw [read_alloc] at hread
    split at hread
    · cases hread
      cases hticket
    · exact h.expected a activation hread hticket

theorem activationReceipt (h : Sound s) {address : ℕ} {activation : Activation}
    (hactivation : s.activations.read address = some activation) (receipt : GenerationReceipt) :
    Sound { s with activations := s.activations.write address { activation with receipt } } := by
  refine ⟨h.placed, h.live, h.tickets, h.reserved, h.prepared, h.counted, fun p => ?_, fun t => ?_,
    h.readers, h.pinned, h.pins_lt, fun a other hread hticket => ?_, h.live_lt, h.artifacts_lt⟩
  · have hwrite := count_write (fun activation : Activation =>
      activation.prepared = some p) hactivation { activation with receipt }
    have hheld := h.held p
    unfold holders at hheld ⊢
    dsimp only at hwrite ⊢
    omega
  · have hwrite := count_write (fun activation : Activation =>
      activation.ticket = some t) hactivation { activation with receipt }
    exact (Nat.add_right_cancel hwrite).trans (h.ticketed t)
  · rw [read_write (lt_of_read hactivation)] at hread
    split at hread
    · cases hread
      exact h.expected address activation hactivation hticket
    · exact h.expected a other hread hticket

/-! ### The end of a reservation -/

theorem ticketed_end (h : Sound s) {address ticket : ℕ} {activation : Activation}
    (hactivation : s.activations.read address = some activation)
    (hticket : activation.ticket = some ticket) (receipt : GenerationReceipt) (t : ℕ) :
    (s.activations.write address { activation with ticket := none, receipt }).count
      (fun activation => activation.ticket = some t) = 0 := by
  have hreservation := (h.ticket_reserved hactivation hticket).1
  have hwrite := count_write (fun activation : Activation =>
    activation.ticket = some t) hactivation { activation with ticket := none, receipt }
  rw [h.ticketed t, hreservation, hticket] at hwrite
  dsimp only at hwrite
  rw [if_neg (by simp : ¬ (none = some t))] at hwrite
  omega

theorem held_end (h : Sound s) {address : ℕ} {activation : Activation}
    (hactivation : s.activations.read address = some activation) (receipt : GenerationReceipt)
    (handle : ℕ) : (s.held.count handle + (s.activations.write address
      { activation with ticket := none, receipt }).count
        fun activation => activation.prepared = some handle) =
      if (s.prepared.read handle).isSome then 1 else 0 := by
  have hwrite := count_write (fun activation : Activation =>
    activation.prepared = some handle) hactivation { activation with ticket := none, receipt }
  have hheld := h.held handle
  unfold holders at hheld
  dsimp only at hwrite
  omega

theorem tickets_end (h : Sound s) {ticket : ℕ} (hreservation : s.reservation = some ticket)
    (t : ℕ) : (s.tickets.free ticket).read t = none := by
  rw [read_free]
  split
  · rfl
  · rename_i hne
    by_contra hsome
    obtain ⟨cell, hcell⟩ := Option.ne_none_iff_exists'.1 hsome
    exact hne (Option.some.inj ((h.tickets t cell hcell).1.symm.trans hreservation))

theorem no_ticket_end (h : Sound s) {address ticket : ℕ} {activation : Activation}
    (hactivation : s.activations.read address = some activation)
    (hticket : activation.ticket = some ticket) (receipt : GenerationReceipt) {a : ℕ}
    {other : Activation} (hread : (s.activations.write address
      { activation with ticket := none, receipt }).read a = some other) : other.ticket = none := by
  by_contra hsome
  obtain ⟨t, ht⟩ := Option.ne_none_iff_exists'.1 hsome
  have hpos := count_pos (fun activation : Activation =>
    activation.ticket = some t) hread ht
  rw [h.ticketed_end hactivation hticket receipt t] at hpos
  exact Nat.lt_irrefl 0 hpos

theorem abort (h : Sound s) (hregistry : s.registry = some registry)
    {address ticket target : ℕ} {activation : Activation}
    (hactivation : s.activations.read address = some activation) (hticket : activation.ticket = some ticket)
    (htarget : s.tickets.read ticket = some ⟨some target⟩) (receipt : GenerationReceipt) : Sound { s with
      registry := some { registry with reservation := none }
      tickets := s.tickets.free ticket
      closing := target :: s.closing
      activations := s.activations.write address { activation with ticket := none, receipt } } := by
  have hreservation := (h.ticket_reserved hactivation hticket).1
  have htickets := h.tickets_end hreservation
  have hticketed := h.ticketed_end hactivation hticket receipt
  have hheld := h.held_end hactivation receipt
  have hnone := fun {a : ℕ} {other : Activation} =>
    @no_ticket_end _ h _ _ _ hactivation hticket receipt a other
  obtain ⟨_, generations, prepared, tickets, activations, held, pins, closing, closed⟩ := s
  cases hregistry
  dsimp only at *
  refine ⟨fun g => ?_, h.live, fun t cell hread => ?_, fun t ht => ?_, h.prepared, h.counted, hheld,
    fun t => ?_, h.readers, h.pinned, h.pins_lt, fun a other hread hother => ?_, h.live_lt,
    h.artifacts_lt⟩
  · have hplaced := h.placed g
    have hfree := count_free (fun cell : ActivationTicket =>
      cell.generation = some g) htarget
    simp only [places, active_mk, retired_mk, List.count_cons, beq_iff_eq,
      Option.some.injEq] at hplaced hfree ⊢
    omega
  · rw [htickets t] at hread
    cases hread
  · cases ht
  · rw [hticketed t]
    rfl
  · rw [hnone hread] at hother
    cases hother

/-- Without a reservation no activation holds a ticket. -/
theorem unticketed (h : Sound s) (hreservation : s.reservation = none) {address : ℕ}
    {activation : Activation} (hread : s.activations.read address = some activation) :
    activation.ticket = none := by
  by_contra hsome
  obtain ⟨t, ht⟩ := Option.ne_none_iff_exists'.1 hsome
  have hpos := count_pos (fun activation : Activation => activation.ticket = some t) hread ht
  rw [h.ticketed t, hreservation, if_neg nofun] at hpos
  exact Nat.lt_irrefl 0 hpos

theorem install (h : Sound s) (hregistry : s.registry = some registry)
    (hreservation : registry.reservation = none) (hactive : registry.active = none) {target : ℕ}
    {closing : List ℕ} (hclosing : s.closing = target :: closing) : Sound { s with
      registry := some { registry with active := some target }
      closing } := by
  have hunticketed := fun {a : ℕ} {activation : Activation} => @unticketed _ h
    (by rw [reservation, hregistry]; exact hreservation) a activation
  obtain ⟨_, generations, prepared, tickets, activations, held, pins, _, closed⟩ := s
  cases hregistry
  cases hclosing
  dsimp only at *
  refine ⟨fun g => ?_, h.live, h.tickets, h.reserved, h.prepared, h.counted, h.held, h.ticketed,
    h.readers, fun g hpins => .inr ?_, h.pins_lt, fun a activation hread hticket => ?_, h.live_lt,
    h.artifacts_lt⟩
  · have hplaced := h.placed g
    simp only [places, active_mk, retired_mk, hactive, Option.toList_none,
      Option.toList_some, List.count_nil, List.count_cons] at hplaced ⊢
    omega
  · refine (h.pinned g hpins).resolve_left fun hg => ?_
    rw [active_mk, hactive] at hg
    cases hg
  · rw [hunticketed hread] at hticket
    cases hticket

theorem retireActive (h : Sound s) (hregistry : s.registry = some registry)
    (hreservation : registry.reservation = none) {previous : ℕ} {generation : LoadedGeneration}
    (hactive : registry.active = some previous)
    (hprevious : s.generations.read previous = some generation) : Sound { s with
      registry := some { registry with active := none, retired := previous :: registry.retired }
      generations := s.generations.write previous { generation with retired := true } } := by
  have hunticketed := fun {a : ℕ} {activation : Activation} => @unticketed _ h
    (by rw [reservation, hregistry]; exact hreservation) a activation
  have hlive := h.live_write hprevious { generation with retired := true }
  have hreaders := @readers_write s h _ _ { generation with retired := true } hprevious rfl
  have hliveCount := h.liveCount_write hprevious { generation with retired := true }
  have hartifacts := @artifacts_write s h _ _ { generation with retired := true } hprevious rfl
  obtain ⟨_, generations, prepared, tickets, activations, held, pins, closing, closed⟩ := s
  cases hregistry
  dsimp only at *
  refine ⟨fun g => ?_, fun g => ?_, h.tickets, h.reserved, h.prepared, h.counted, h.held, h.ticketed,
    hreaders, fun g hpins => .inr ?_, h.pins_lt, fun a activation hread hticket => ?_, hliveCount,
    hartifacts⟩
  · have hplaced := h.placed g
    simp only [places, active_mk, retired_mk, hactive, Option.toList_none,
      Option.toList_some, List.count_nil, List.count_cons, length_write] at hplaced ⊢
    omega
  · rw [length_write]
    exact hlive g
  · rcases h.pinned g hpins with hg | hg
    · rw [active_mk, hactive] at hg
      cases hg
      exact List.mem_cons_self
    · exact List.mem_cons_of_mem _ hg
  · rw [hunticketed hread] at hticket
    cases hticket

/-! ### Prepared generations that are given up or installed -/

theorem counted_free (h : Sound s) (hregistry : s.registry = some registry)
    {handle : ℕ} {cell : PreparedGeneration} (hcell : s.prepared.read handle = some cell) :
    (registry.preparedCount - 1).toNat = (s.prepared.free handle).live := by
  have hcounted := h.counted
  have hne := h.preparedCount_ne hcell
  have hlive : (s.prepared.free handle).live + 1 = s.prepared.live := total_free _ hcell
  unfold preparedCount at hcounted hne
  rw [hregistry, Option.map_some, Option.getD_some] at hcounted hne
  have hone := toNat_sub_one hne
  omega

theorem prepared_free (h : Sound s) {handle : ℕ} (address : ℕ) (cell : PreparedGeneration)
    (hread : (s.prepared.free handle).read address = some cell) : cell.generation.isSome := by
  rw [read_free] at hread
  split at hread
  · cases hread
  · exact h.prepared address cell hread

theorem held_free (h : Sound s) {handle : ℕ} {cell : PreparedGeneration}
    (hcell : s.prepared.read handle = some cell) {held : List ℕ} {activations : Heap Activation}
    (hholders : ∀ p, held.count p + activations.count (fun activation => activation.prepared = some p) +
      (if p = handle then 1 else 0) = s.holders p) (p : ℕ) :
    held.count p + activations.count (fun activation => activation.prepared = some p) =
      if ((s.prepared.free handle).read p).isSome then 1 else 0 := by
  have hheld := h.held p
  have hp := hholders p
  rw [read_free]
  by_cases heq : p = handle
  · subst heq
    rw [hcell] at hheld
    rw [if_pos rfl] at hp ⊢
    simp only [Option.isSome_some, if_true] at hheld
    simp only [Option.isSome_none, Bool.false_eq_true, if_false]
    omega
  · rw [if_neg heq] at hp ⊢
    omega

theorem holders_erase {handle : ℕ} (hheld : handle ∈ s.held) (p : ℕ) : (s.held.erase handle).count p +
        s.activations.count (fun activation => activation.prepared = some p) +
      (if p = handle then 1 else 0) = s.holders p := by
  unfold holders
  rw [List.count_erase]
  by_cases heq : p = handle
  · subst heq
    have := List.count_pos_iff.2 hheld
    simp only [beq_self_eq_true, if_true]
    omega
  · rw [if_neg heq, beq_false_of_ne (Ne.symm heq)]
    simp

theorem holders_free {address handle : ℕ} {activation : Activation}
    (hactivation : s.activations.read address = some activation)
    (hhandle : activation.prepared = some handle) (p : ℕ) :
    s.held.count p + (s.activations.free address).count (fun activation => activation.prepared = some p) +
      (if p = handle then 1 else 0) = s.holders p := by
  have hfree := count_free (fun activation : Activation =>
    activation.prepared = some p) hactivation
  unfold holders
  simp only [hhandle, Option.some.injEq, eq_comm (a := handle)] at hfree
  omega

theorem discard (h : Sound s) (hregistry : s.registry = some registry)
    {handle target : ℕ} (hprepared : s.prepared.read handle = some ⟨some target⟩) {held : List ℕ}
    {activations : Heap Activation}
    (hholders : ∀ p, held.count p + activations.count (fun activation => activation.prepared = some p) +
      (if p = handle then 1 else 0) = s.holders p)
    (hticketed : ∀ t, activations.count (fun activation => activation.ticket = some t) =
      s.activations.count fun activation => activation.ticket = some t)
    (hkept : ∀ a activation, activations.read a = some activation →
      s.activations.read a = some activation) : Sound { s with
      registry := some { registry with preparedCount := registry.preparedCount - 1 }
      prepared := s.prepared.free handle
      closing := target :: s.closing
      held, activations } := by
  have hcounted := h.counted_free hregistry hprepared
  have hheld := h.held_free hprepared hholders
  have hcells := @prepared_free s h handle
  obtain ⟨_, generations, prepared, tickets, _, _, pins, closing, closed⟩ := s
  cases hregistry
  dsimp only at *
  refine ⟨fun g => ?_, h.live, h.tickets, h.reserved, hcells, hcounted, hheld,
    fun t => (hticketed t).trans (h.ticketed t), h.readers, h.pinned, h.pins_lt,
    fun a activation hread => h.expected a activation (hkept a activation hread), h.live_lt,
    h.artifacts_lt⟩
  have hplaced := h.placed g
  have hfree := count_free (fun cell : PreparedGeneration =>
    cell.generation = some g) hprepared
  simp only [places, active_mk, retired_mk, List.count_cons, beq_iff_eq,
    Option.some.injEq] at hplaced hfree ⊢
  omega

theorem materialize (h : Sound s) (hregistry : s.registry = some registry)
    {handle target : ℕ} (hheld : handle ∈ s.held)
    (hprepared : s.prepared.read handle = some ⟨some target⟩) {generation : LoadedGeneration}
    (htarget : s.generations.read target = some generation) : Sound { s with
      registry := some { registry with
        preparedCount := registry.preparedCount - 1
        retired := target :: registry.retired }
      generations := s.generations.write target { generation with retired := true }
      prepared := s.prepared.free handle
      held := s.held.erase handle } := by
  have hcounted := h.counted_free hregistry hprepared
  have hheld := h.held_free hprepared (holders_erase hheld)
  have hcells := @prepared_free s h handle
  have hlive := h.live_write htarget { generation with retired := true }
  have hreaders := @readers_write s h _ _ { generation with retired := true } htarget rfl
  have hepoch := @epoch_write s _ _ { generation with retired := true } htarget rfl
  have hliveCount := h.liveCount_write htarget { generation with retired := true }
  have hartifacts := @artifacts_write s h _ _ { generation with retired := true } htarget rfl
  obtain ⟨_, generations, prepared, tickets, activations, _, pins, closing, closed⟩ := s
  cases hregistry
  dsimp only at *
  refine ⟨fun g => ?_, fun g => ?_, h.tickets, h.reserved, hcells, hcounted, hheld, h.ticketed,
    hreaders, fun g hpins => (h.pinned g hpins).imp_right (List.mem_cons_of_mem _), h.pins_lt,
    fun a activation hread hticket => ?_, hliveCount, hartifacts⟩
  · have hplaced := h.placed g
    have hfree := count_free (fun cell : PreparedGeneration =>
      cell.generation = some g) hprepared
    simp only [places, active_mk, retired_mk, List.count_cons, beq_iff_eq,
      Option.some.injEq, length_write] at hplaced hfree ⊢
    omega
  · rw [length_write]
    exact hlive g
  · rw [← h.expected a activation hread hticket]
    exact activeEpoch_congr rfl fun address _ => hepoch address

theorem freeActivation (h : Sound s) {address : ℕ} {activation : Activation}
    (hactivation : s.activations.read address = some activation)
    (hprepared : activation.prepared = none) (hticket : activation.ticket = none) :
    Sound { s with activations := s.activations.free address } := by
  refine ⟨h.placed, h.live, h.tickets, h.reserved, h.prepared, h.counted, fun p => ?_, fun t => ?_,
    h.readers, h.pinned, h.pins_lt, fun a other hread hother => ?_, h.live_lt, h.artifacts_lt⟩
  · have hfree := count_free (fun activation : Activation =>
      activation.prepared = some p) hactivation
    have hheld := h.held p
    unfold holders at hheld ⊢
    rw [hprepared, if_neg (by simp), Nat.add_zero] at hfree
    exact (congrArg _ hfree).trans hheld
  · have hfree := count_free (fun activation : Activation =>
      activation.ticket = some t) hactivation
    rw [hticket, if_neg (by simp), Nat.add_zero] at hfree
    exact hfree.trans (h.ticketed t)
  · rw [read_free] at hread
    split at hread
    · cases hread
    · exact h.expected a other hread hother

/-! ### Pins -/

theorem pinsOn_set {slot : ℕ} {old : Pin} (hslot : s.pins[slot]? = some old) (new : Pin) (address : ℕ) :
    ((s.pins.set slot new).countP fun pin => decide (pin.map Prod.fst = some address)) +
        (if old.map Prod.fst = some address then 1 else 0) =
      s.pinsOn address + if new.map Prod.fst = some address then 1 else 0 := by
  obtain ⟨hlt, hold⟩ := List.getElem?_eq_some_iff.1 hslot
  have hset := List.countP_set (p := fun pin : Pin => decide (pin.map Prod.fst = some address))
    (a := new) hlt
  have hpos : old.map Prod.fst = some address → 0 < s.pinsOn address := fun h =>
    List.countP_pos_iff.2 ⟨old, hold ▸ List.getElem_mem hlt, decide_eq_true h⟩
  unfold pinsOn at hpos ⊢
  simp only [hold, decide_eq_true_eq] at hset
  by_cases h : old.map Prod.fst = some address
  · have := hpos h
    rw [hset, if_pos h]
    omega
  · rw [hset, if_neg h]
    omega

theorem newPin (h : Sound s) : Sound s.newPin := by
  unfold System.newPin
  split
  · rename_i hlt
    have hpins : ∀ address, (s.pins ++ [none]).countP
        (fun pin : Pin => decide (pin.map Prod.fst = some address)) = s.pinsOn address := by
      intro address
      rw [List.countP_append]
      rfl
    refine ⟨h.placed, h.live, h.tickets, h.reserved, h.prepared, h.counted, h.held, h.ticketed,
      fun g generation hread => (h.readers g generation hread).trans (hpins g).symm,
      fun g hpos => h.pinned g ((hpins g).symm ▸ hpos), ?_, h.expected, h.live_lt, h.artifacts_lt⟩
    rw [List.length_append, List.length_singleton]
    omega
  · exact h

/-- A cell of the pins changes, and with it the readers of the one generation it is about. -/
theorem repin (h : Sound s) {slot address : ℕ} {old new : Pin} (hslot : s.pins[slot]? = some old)
    (hold : ∀ g, old.map Prod.fst = some g → g = address)
    (hnew : ∀ g, new.map Prod.fst = some g → g = address)
    (hplace : new.isSome → s.active = some address ∨ address ∈ s.retired)
    {generation : LoadedGeneration} (hread : s.generations.read address = some generation)
    {readers : UInt64} (hreaders : readers.toNat + (if old.isSome then 1 else 0) =
      generation.readers.toNat + if new.isSome then 1 else 0) : Sound { s with
      generations := s.generations.write address { generation with readers }
      pins := s.pins.set slot new } := by
  have hpins := pinsOn_set hslot new
  have hlive := h.live_write hread { generation with readers }
  have hepoch := @epoch_write s _ _ { generation with readers } hread rfl
  have hcell : ∀ {pin : Pin}, (∀ g, pin.map Prod.fst = some g → g = address) →
      (pin.map Prod.fst = some address ↔ pin.isSome) := by
    rintro (_ | ⟨g, epoch⟩) hpin
    · simp
    · simp [hpin g rfl]
  refine ⟨fun g => ?_, fun g => ?_, h.tickets, h.reserved, h.prepared, h.counted, h.held, h.ticketed,
    fun g other hother => ?_, fun g hpos => ?_, ?_, fun a activation ha hticket => ?_,
    h.liveCount_write hread _, h.artifacts_write hread rfl⟩
  · rw [length_write]
    exact h.placed g
  · rw [length_write]
    exact hlive g
  · have hg := hpins g
    rw [read_write (lt_of_read hread)] at hother
    change other.readers.toNat = (s.pins.set slot _).countP _
    split at hother
    · rename_i heq
      cases hother
      subst heq
      have hcount := h.readers g generation hread
      simp only [hcell hold, hcell hnew] at hg
      change readers.toNat = _
      omega
    · rename_i hne
      have hcount := h.readers g other hother
      rw [if_neg fun h => hne (hold g h), if_neg fun h => hne (hnew g h)] at hg
      omega
  · have hg := hpins g
    change 0 < (s.pins.set slot _).countP _ at hpos
    by_cases heq : new.map Prod.fst = some g
    · exact hnew g heq ▸ hplace (by cases new <;> [cases heq; rfl])
    · rw [if_neg heq] at hg
      exact h.pinned g (by omega)
  · rw [List.length_set]
    exact h.pins_lt
  · rw [← h.expected a activation ha hticket]
    exact activeEpoch_congr rfl fun address _ => hepoch address

theorem pin (h : Sound s) {slot address : ℕ} (hslot : s.pins[slot]? = some none)
    (hplace : s.active = some address ∨ address ∈ s.retired) {generation : LoadedGeneration}
    (hread : s.generations.read address = some generation)
    (hreaders : generation.readers ≠ Checked.maxWord) (epoch : Epoch) :
    Sound (s.pinGeneration slot address generation epoch) := by
  have hlt := UInt64.toNat_lt generation.readers
  have hne : generation.readers.toNat ≠ 2 ^ 64 - 1 := fun heq => hreaders (UInt64.toNat_inj.1 heq)
  refine @repin s h slot address none (some (address, epoch)) hslot nofun
    (fun g hg => (Option.some.inj hg).symm) (fun _ => hplace) _ hread (generation.readers + 1) ?_
  have hfits : generation.readers.toNat + (1 : UInt64).toNat < 2 ^ 64 := by
    rw [UInt64.toNat_one]
    omega
  exact Checked.toNat_add_of_lt hfits

theorem release (h : Sound s) {slot address : ℕ} {epoch : Epoch}
    (hslot : s.pins[slot]? = some (some (address, epoch))) {generation : LoadedGeneration}
    (hread : s.generations.read address = some generation) : Sound { s with
      generations := s.generations.write address { generation with readers := generation.readers - 1 }
      pins := s.pins.set slot none } := by
  have hpinned : 0 < s.pinsOn address := List.countP_pos_iff.2
    ⟨some (address, epoch), List.mem_of_getElem? hslot, decide_eq_true rfl⟩
  refine @repin s h slot address (some (address, epoch)) none hslot
    (fun g hg => (Option.some.inj hg).symm) nofun nofun _ hread (generation.readers - 1) ?_
  refine toNat_sub_one fun hzero => ?_
  rw [← h.readers address generation hread, hzero] at hpinned
  exact absurd hpinned (Nat.lt_irrefl 0)

/-! ### Generations that are unlinked and closed -/

theorem unlink (h : Sound s) (hregistry : s.registry = some registry)
    {kept unlinked : List ℕ} (hcount : ∀ g, kept.count g + unlinked.count g = registry.retired.count g)
    (hunlinked : ∀ g ∈ unlinked, s.pinsOn g = 0) : Sound { s with
      registry := some { registry with retired := kept }
      closing := unlinked ++ s.closing } := by
  obtain ⟨_, generations, prepared, tickets, activations, held, pins, closing, closed⟩ := s
  cases hregistry
  dsimp only at *
  refine ⟨fun g => ?_, h.live, h.tickets, h.reserved, h.prepared, h.counted, h.held, h.ticketed,
    h.readers, fun g hpos => ?_, h.pins_lt, h.expected, h.live_lt, h.artifacts_lt⟩
  · have hplaced := h.placed g
    have hg := hcount g
    simp only [places, active_mk, retired_mk, List.count_append] at hplaced ⊢
    omega
  · refine (h.pinned g hpos).imp_right fun hg => ?_
    have hmem := List.count_pos_iff.2 hg
    rw [retired_mk, ← hcount g] at hmem
    by_cases hzero : unlinked.count g = 0
    · have hkept : 0 < kept.count g := by omega
      exact List.count_pos_iff.1 hkept
    · have hpins := hunlinked g (List.count_pos_iff.1 (Nat.pos_of_ne_zero hzero))
      exact absurd (hpos.trans_eq hpins) (Nat.lt_irrefl 0)

theorem destroy (h : Sound s) (hregistry : s.registry = some registry)
    (hreservation : registry.reservation = none) (hcount : registry.preparedCount = 0)
    (hunread : ∀ g, s.pinsOn g = 0) : Sound { s with
      registry := none
      closing := registry.active.toList ++ registry.retired ++ s.closing } := by
  obtain ⟨_, generations, prepared, tickets, activations, held, pins, closing, closed⟩ := s
  cases hregistry
  dsimp only at *
  have hreserved : ∀ t, ¬ (registry.reservation = some t) := fun t ht => by
    rw [hreservation] at ht
    cases ht
  have hticketed : ∀ t, activations.count (fun activation => activation.ticket = some t) = 0 :=
    fun t => (h.ticketed t).trans (if_neg (hreserved t))
  refine ⟨fun g => ?_, h.live, fun t cell hread => absurd (h.tickets t cell hread).1 (hreserved t),
    fun t ht => (nomatch ht), h.prepared, ?_, h.held, hticketed, h.readers,
    fun g hpos => absurd hpos (Nat.not_lt.2 (hunread g).le), h.pins_lt,
    fun a activation hread hticket => ?_, h.live_lt, h.artifacts_lt⟩
  · have hplaced := h.placed g
    simp only [places, active_mk, retired_mk, List.count_append] at hplaced ⊢
    rw [← hplaced]
    change 0 + 0 + _ + _ + _ + _ = _
    omega
  · have hcounted := h.counted
    rw [preparedCount_mk, hcount] at hcounted
    exact hcounted
  · rw [h.unticketed hreservation hread] at hticket
    cases hticket

theorem close (h : Sound s) {address : ℕ} (hclosing : address ∈ s.closing) : Sound { s with
      generations := s.generations.free address
      closing := s.closing.erase address
      closed := address :: s.closed } := by
  obtain ⟨generation, hread⟩ := h.read_closing hclosing
  have hpos := List.count_pos_iff.2 hclosing
  have hplacedAddress := h.placed address
  rw [if_pos (lt_of_read hread)] at hplacedAddress
  have hactive : s.active ≠ some address := fun heq => by
    have := List.count_pos_iff.2 (Option.mem_toList.2 heq)
    unfold places at hplacedAddress
    omega
  refine ⟨fun g => ?_, fun g => ?_, h.tickets, h.reserved, h.prepared, h.counted, h.held, h.ticketed,
    fun g other hother => ?_, h.pinned, h.pins_lt, fun a activation ha hticket => ?_, ?_, ?_⟩
  · have hplaced := h.placed g
    rw [length_free, ← hplaced]
    simp only [places, active, retired, List.count_erase, List.count_cons, beq_iff_eq]
    by_cases heq : address = g
    · subst heq
      simp only [if_true]
      omega
    · simp only [heq, if_false]
      omega
  · rw [length_free, read_free, List.mem_cons]
    by_cases heq : g = address
    · simp [heq]
    · rw [if_neg heq, h.live g]
      simp [heq]
  · rw [read_free] at hother
    split at hother
    · cases hother
    · exact h.readers g other hother
  · rw [← h.expected a activation ha hticket]
    refine activeEpoch_congr rfl fun g hg => ?_
    have hne : g ≠ address := fun heq => hactive (heq ▸ hg)
    rw [read_free, if_neg hne]
  · have hfree : (s.generations.free address).live + 1 = s.generations.live := total_free _ hread
    have hlt := h.live_lt
    change (s.generations.free address).live < UInt64.size
    omega
  · have hfree := total_free
      (fun generation : LoadedGeneration => generation.artifacts.length) hread
    have hlt := h.artifacts_lt
    dsimp only
    omega

end Sound

end Laplace.Perfcache
