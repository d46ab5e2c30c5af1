import Laplace.QuerySearch.Run

/-!
# Budgets and termination (query_search_part01.inc:181-222, part02:25-189, part03:1-142)

`WithinBudget` bounds every counter by its budget; each of the subtractions that guard them is
made where the left side is still the larger one. `rank` falls at every step: a popped entry pays
for the rounds between two pops, and a pushed entry for its own pop.
-/

namespace Laplace.QuerySearch

open Laplace.Checked

namespace Search

/-- The budgets of the program at one point of a run. With no node retained `EstimatedMemory`
speaks of the transition buffer alone. -/
structure WithinBudget (program : Program) (s : Search) : Prop where
  expanded : s.receipt.expandedStateCount ≤ program.budget.maxExpandedStates
  transitions : s.receipt.transitionRecordCount ≤ program.budget.maxTransitionRecords
  emitted : s.receipt.emittedStateCount ≤ program.budget.maxEmittedStates
  calls : s.receipt.providerCallCount ≤ program.budget.maxProviderCalls
  io : s.receipt.ioOperations ≤ program.budget.maxIoOperations
  database : s.receipt.databaseOperations ≤ program.budget.maxDatabaseOperations
  frontier : s.nodes.countP Node.live ≤ program.budget.maxFrontierStates.toNat
  memory : s.nodes ≠ [] → s.estimatedMemory program 0 ≤ program.budget.maxMemoryBytes
  peak : s.receipt.estimatedPeakMemoryBytes ≤ program.budget.maxMemoryBytes

end Search

/-- The counters that have a budget. -/
def Receipt.counters (r : Receipt) : List UInt64 :=
  [r.expandedStateCount, r.transitionRecordCount, r.emittedStateCount, r.providerCallCount,
    r.ioOperations, r.databaseOperations, r.estimatedPeakMemoryBytes]

namespace Search

variable {blake3 : Blake3} {program : Program} {initials : List State} {s t : Search}

theorem estimatedMemory_congr (h : t.nodes.length = s.nodes.length) (n : Nat) :
    t.estimatedMemory program n = s.estimatedMemory program n := by
  unfold estimatedMemory
  rw [h]

theorem estimatedMemory_store (n : Node) {bound : UInt64}
    (h : s.estimatedMemory program 1 ≤ bound) : (s.storeNode n).estimatedMemory program 0 ≤ bound := by
  unfold estimatedMemory at h ⊢
  rw [storeNode_length, if_neg (by omega)]
  split at h
  · exact UInt64.le_trans (le_maxWord _) h
  · exact h

theorem WithinBudget.transfer (h : WithinBudget program s)
    (hc : t.receipt.counters = s.receipt.counters) (hlen : t.nodes.length = s.nodes.length)
    (hlive : t.nodes.countP Node.live ≤ s.nodes.countP Node.live) : WithinBudget program t := by
  simp only [Receipt.counters, List.cons.injEq, and_true] at hc
  obtain ⟨h1, h2, h3, h4, h5, h6, h7⟩ := hc
  exact
    { expanded := by rw [h1]; exact h.expanded
      transitions := by rw [h2]; exact h.transitions
      emitted := by rw [h3]; exact h.emitted
      calls := by rw [h4]; exact h.calls
      io := by rw [h5]; exact h.io
      database := by rw [h6]; exact h.database
      frontier := Nat.le_trans hlive h.frontier
      memory := fun hne => by
        rw [estimatedMemory_congr hlen]
        exact h.memory fun hnil => hne (by rw [← List.length_eq_zero_iff] at hnil ⊢; omega)
      peak := by rw [h7]; exact h.peak }

theorem countP_live_le (hlen : t.nodes.length = s.nodes.length)
    (h : ∀ i, (t.node i).live = true → (s.node i).live = true) :
    t.nodes.countP Node.live ≤ s.nodes.countP Node.live := by
  have key : ∀ (l l' : List Node), l'.length = l.length →
      (∀ i (hi : i < l.length) (hi' : i < l'.length), l'[i].live = true → l[i].live = true) →
      l'.countP Node.live ≤ l.countP Node.live := by
    intro l
    induction l with
    | nil =>
      intro l' hl _
      rw [List.length_eq_zero_iff.1 hl]
    | cons a l ih =>
      intro l' hl hp
      cases l' with
      | nil => simp at hl
      | cons b l' =>
        have hrest := ih l' (by simpa using hl) fun i hi hi' hb =>
          hp (i + 1) (by simpa using hi) (by simpa using hi') hb
        have hhead := hp 0 (by simp) (by simp)
        simp only [List.getElem_cons_zero] at hhead
        rw [List.countP_cons, List.countP_cons]
        by_cases hb : b.live = true
        · rw [if_pos hb, if_pos (hhead hb)]
          omega
        · rw [if_neg hb]
          omega
  refine key s.nodes t.nodes hlen fun i hi hi' hl => ?_
  have := h i
  simp only [node, List.getD_eq_getElem?_getD, List.getElem?_eq_getElem hi,
    List.getElem?_eq_getElem hi', Option.getD_some] at this
  exact this hl

theorem Popped.budget {e : QueueEntry} (h : Popped s e t) (hb : WithinBudget program s) :
    WithinBudget program t := by
  refine hb.transfer (by rw [h.frame]) h.relabelled.length
    (countP_live_le h.relabelled.length fun i => ?_)
  rw [h.node]
  split
  · simp [Node.live]
  · exact id

theorem Harvested.budget {e : QueueEntry} (h : Harvested program initials s e t)
    (hb : WithinBudget program s) : WithinBudget program t := by
  obtain ⟨u, path, hasher, hpop, -, -, -, -, rfl⟩ := h.popped
  exact (hpop.budget hb).transfer rfl rfl (Nat.le_refl _)

theorem Marked.budget (h : Marked s t) (hb : WithinBudget program s) : WithinBudget program t := by
  refine hb.transfer (by rw [h.frame]) h.length (countP_live_le h.length fun i hl => ?_)
  simp only [Node.live, Bool.and_eq_true, Bool.not_eq_true'] at hl ⊢
  exact ⟨h.dominated i hl.1, by rw [← h.closed i]; exact hl.2⟩

theorem budget_store {n : Node} (hb : WithinBudget program s) (ha : ActiveOk s)
    (hroom : s.insertBudgetReached program = false) : WithinBudget program (s.storeNode n) ∧
      s.receipt.emittedStateCount < program.budget.maxEmittedStates := by
  simp only [insertBudgetReached, Bool.or_eq_false_iff, decide_eq_false_iff_not, ge_iff_le,
    UInt64.not_le, gt_iff_lt, UInt64.not_lt] at hroom
  obtain ⟨⟨hemitted, hactive⟩, hmemory⟩ := hroom
  refine ⟨⟨hb.expanded, hb.transitions, hb.emitted, hb.calls, hb.io, hb.database, ?_,
    fun _ => estimatedMemory_store n hmemory, hb.peak⟩, hemitted⟩
  rw [UInt64.lt_iff_toNat_lt, ha] at hactive
  simp only [storeNode, List.countP_append, List.countP_singleton]
  split <;> omega

theorem WithinBudget.enqueue {n : Node} {reopens : Bool} {index : Nat}
    (hb : WithinBudget program s) (hne : s.nodes ≠ [])
    (hemitted : s.receipt.emittedStateCount < program.budget.maxEmittedStates) :
    WithinBudget program (s.enqueue program index n reopens) := by
  refine ⟨hb.expanded, hb.transitions, ?_, hb.calls, hb.io, hb.database, hb.frontier, hb.memory, ?_⟩
  · rw [UInt64.lt_iff_toNat_lt] at hemitted
    have := program.budget.maxEmittedStates.toNat_lt
    simp only [Search.enqueue]
    rw [UInt64.le_iff_toNat_le, toNat_add_of_lt (by simp only [UInt64.toNat_one]; omega)]
    simpa using hemitted
  · have hmax : ∀ a b bound : UInt64, a ≤ bound → b ≤ bound → max a b ≤ bound := by
      intro a b bound ha hb
      rw [show max a b = if a ≤ b then b else a from rfl]
      split
      · exact hb
      · exact ha
    exact hmax _ _ _ hb.peak (hb.memory hne)

/-- However `InsertNode` ends, the budgets hold. -/
theorem InsertResult.budget {state : State} {cost : UInt64} {parent : Nat}
    {incoming : Option Transition} {r : Status × Bool × Search}
    (hr : InsertResult program state cost parent incoming s r) (hb : WithinBudget program s)
    (ha : ActiveOk s) : WithinBudget program r.2.2 := by
  have hreg : WithinBudget program (s.register state) := hb.transfer rfl rfl (Nat.le_refl _)
  cases hr with
  | identity => exact hb
  | pruned => exact hreg.transfer rfl rfl (Nat.le_refl _)
  | refused hu => exact hu.budget hreg
  | exhausted hid hu => exact (hu.toMarked.budget hreg).transfer rfl rfl (Nat.le_refl _)
  | overflow hu hroom => exact (budget_store (hu.toMarked.budget hreg) (hu.active ha) hroom).1
  | inserted hid hnot hu hclosed hroom =>
    obtain ⟨hstored, hemitted⟩ := budget_store (hu.toMarked.budget hreg) (hu.active ha) hroom
    exact hstored.enqueue (by simp [storeNode]) hemitted

variable {n : Nat}

theorem WithinBudget.countCall (hb : WithinBudget program s)
    (hexp : s.receipt.expandedStateCount.toNat + n ≤ program.budget.maxExpandedStates.toNat)
    (hcalls : s.receipt.providerCallCount < program.budget.maxProviderCalls) :
    WithinBudget program (s.countCall n) := by
  refine ⟨?_, hb.transitions, hb.emitted, ?_, hb.io, hb.database, hb.frontier, hb.memory, hb.peak⟩
  · have := program.budget.maxExpandedStates.toNat_lt
    have hn : (UInt64.ofNat n).toNat = n := Checked.toNat_ofNat (by omega)
    simp only [Search.countCall]
    rw [UInt64.le_iff_toNat_le, toNat_add_of_lt (by rw [hn]; omega), hn]
    exact hexp
  · rw [UInt64.lt_iff_toNat_lt] at hcalls
    have := program.budget.maxProviderCalls.toNat_lt
    simp only [Search.countCall]
    rw [UInt64.le_iff_toNat_le, toNat_add_of_lt (by simp only [UInt64.toNat_one]; omega)]
    simpa using hcalls

theorem le_of_le_sub {a b bound : UInt64} (hb : b ≤ bound) (ha : a ≤ bound - b) : b + a ≤ bound := by
  rw [UInt64.le_iff_toNat_le] at hb ha ⊢
  rw [toNat_sub_of_le hb] at ha
  have := bound.toNat_lt
  rw [toNat_add_of_lt (by omega)]
  omega

theorem transitionCount_le {reply : ExpansionReply}
    (h : replyMalformed n (s.transitionCapacity program) reply = false) :
    reply.transitionCount ≤ program.budget.maxTransitionRecords - s.receipt.transitionRecordCount := by
  simp only [replyMalformed, Bool.or_eq_false_iff, decide_eq_false_iff_not, gt_iff_lt, not_lt] at h
  rw [UInt64.le_iff_toNat_le]
  exact Nat.le_trans h.1.1.1.1.1.1 (Nat.min_le_right _ _)

theorem WithinBudget.acceptReply {reply : ExpansionReply} (hb : WithinBudget program s)
    (hshape : replyMalformed n (s.transitionCapacity program) reply = false)
    (hcost : s.replyOverBudget program reply = false) : WithinBudget program (s.acceptReply reply) := by
  simp only [replyOverBudget, Bool.or_eq_false_iff, decide_eq_false_iff_not, gt_iff_lt,
    UInt64.not_lt] at hcost
  exact ⟨hb.expanded, le_of_le_sub hb.transitions (transitionCount_le hshape), hb.emitted, hb.calls,
    le_of_le_sub hb.io hcost.1, le_of_le_sub hb.database hcost.2, hb.frontier, hb.memory, hb.peak⟩

end Search

open Search

/-! ## Along a run -/

/-- What a phase has reserved: `PopBatch` took the batch limit out of the expansion budget. -/
def PhaseBudget (program : Program) : Phase → Search → Prop
  | .pop _ limit batch, s => batch.length ≤ limit ∧
    s.receipt.expandedStateCount.toNat + limit ≤ program.budget.maxExpandedStates.toNat ∧
    s.receipt.providerCallCount < program.budget.maxProviderCalls
  | .expand batch, s =>
    s.receipt.expandedStateCount.toNat + batch.length ≤ program.budget.maxExpandedStates.toNat ∧
    s.receipt.providerCallCount < program.budget.maxProviderCalls
  | _, _ => True

structure Budgeted {σ : Type} (program : Program) (e : Execution σ) : Prop where
  within : WithinBudget program e.search
  phase : PhaseBudget program e.phase e.search

variable {blake3 : Blake3} {program : Program} {initials : List State} {σ : Type}
  {provider : Provider σ} {e e' : Execution σ}

theorem start_budgeted (state : σ) : Budgeted program (start blake3 program initials state) := by
  have hw : WithinBudget program ({ receipt := openReceipt blake3 program initials } : Search) :=
    ⟨UInt64.zero_le, UInt64.zero_le, UInt64.zero_le, UInt64.zero_le, UInt64.zero_le, UInt64.zero_le,
      Nat.zero_le _, fun h => absurd rfl h, UInt64.zero_le⟩
  unfold start
  split <;> exact ⟨hw, trivial⟩

variable {s : Search}

theorem WithinBudget.finalize (h : WithinBudget program s) :
    WithinBudget program (s.finalize program blake3) :=
  h.transfer rfl rfl (Nat.le_refl _)

theorem Move.budgeted (hm : Move blake3 program initials provider e e')
    (hg : Good program initials e) (hb : Budgeted program e) : Budgeted program e' := by
  obtain ⟨hw, -, -⟩ := hg
  obtain ⟨hb, hp⟩ := hb
  cases hm with
  | settle => exact ⟨hb, trivial⟩
  | initialInvalid => exact ⟨hb, trivial⟩
  | initialFails hv hr hs => exact ⟨hr.budget hb (hw rfl).queue.active, trivial⟩
  | initial hv hr => exact ⟨hr.budget hb (hw rfl).queue.active, trivial⟩
  | harvestDone => exact ⟨hb.transfer rfl rfl (Nat.le_refl _), trivial⟩
  | harvestPath h =>
    have ht := h.budget hb
    split <;> exact ⟨ht, trivial⟩
  | enoughPaths => exact ⟨WithinBudget.finalize hb, trivial⟩
  | frontierEmpty => exact ⟨hb.transfer rfl rfl (Nat.le_refl _), trivial⟩
  | budgetReached => exact ⟨hb.transfer rfl rfl (Nat.le_refl _), trivial⟩
  | @openBatch s p top rest h hf hexp hcalls =>
    refine ⟨hb.transfer rfl rfl (Nat.le_refl _), Nat.zero_le _, ?_, hcalls⟩
    rw [UInt64.lt_iff_toNat_lt] at hexp
    have hlimit : s.batchLimit program ≤
        (program.budget.maxExpandedStates - s.receipt.expandedStateCount).toNat := Nat.min_le_right _ _
    rw [toNat_sub_of_le (Nat.le_of_lt hexp)] at hlimit
    have : s.discardStaleTop.receipt.expandedStateCount = s.receipt.expandedStateCount := rfl
    rw [this]
    omega
  | @popDone m limit batch s t p ht =>
    obtain ⟨hlimit, hexp, hcalls⟩ := hp
    have hbt : WithinBudget program t := by
      rcases ht with rfl | rfl
      · exact hb
      · exact hb.transfer rfl rfl (Nat.le_refl _)
    have hreceipt : t.receipt = s.receipt := by rcases ht with rfl | rfl <;> rfl
    unfold popBatchDone
    split
    · exact ⟨WithinBudget.finalize hbt, trivial⟩
    split
    · exact ⟨hbt, trivial⟩
    · refine ⟨hbt, ?_⟩
      simp only [PhaseBudget, hreceipt]
      exact ⟨Nat.le_trans (Nat.add_le_add_left hlimit _) hexp, hcalls⟩
  | @popPath m limit batch s t p e h =>
    have ht := h.budget hb
    obtain ⟨u, path, hasher, hpop, -, -, -, -, rfl⟩ := h.popped
    have hreceipt : u.receipt = s.receipt := by rw [hpop.frame]
    exact ⟨ht, by simpa only [PhaseBudget, hreceipt] using hp⟩
  | popLastPath h => exact ⟨WithinBudget.finalize (h.budget hb), trivial⟩
  | @popNode m limit batch s t p e h hm hl =>
    obtain ⟨hlimit, hexp, hcalls⟩ := hp
    have hreceipt : t.receipt = s.receipt := by rw [h.frame]
    refine ⟨h.budget hb, ?_⟩
    simp only [PhaseBudget, hreceipt, List.length_append, List.length_singleton]
    exact ⟨hl, hexp, hcalls⟩
  | @popCut m limit batch s t p e h =>
    have hreceipt : t.receipt = s.receipt := by rw [h.frame]
    exact ⟨h.budget hb, by simpa only [PhaseBudget, hreceipt] using hp⟩
  | noRecordsLeft => exact ⟨hb.transfer rfl rfl (Nat.le_refl _), trivial⟩
  | callFails hs => exact ⟨hb.countCall hp.1 hp.2, trivial⟩
  | callLimited hreply hok hshape hcost =>
    have h1 := hb.countCall hp.1 hp.2
    exact ⟨(h1.acceptReply hshape hcost).transfer rfl rfl (Nat.le_refl _), trivial⟩
  | call hreply hok hshape hcost =>
    have h1 := hb.countCall hp.1 hp.2
    exact ⟨h1.acceptReply hshape hcost, trivial⟩
  | insertDone =>
    unfold expandBatchDone
    split
    · exact ⟨WithinBudget.finalize hb, trivial⟩
    · exact ⟨hb, trivial⟩
  | transitionInvalid => exact ⟨hb, trivial⟩
  | insertFails hc hr hs =>
    exact ⟨hr.budget (hb.transfer rfl rfl (Nat.le_refl _)) (hw rfl).queue.active, trivial⟩
  | insertLast hc hr =>
    exact ⟨(hr.budget (hb.transfer rfl rfl (Nat.le_refl _)) (hw rfl).queue.active).transfer rfl rfl
      (Nat.le_refl _), trivial⟩
  | insert hc hr =>
    exact ⟨(hr.budget (hb.transfer rfl rfl (Nat.le_refl _)) (hw rfl).queue.active).transfer rfl rfl
      (Nat.le_refl _), trivial⟩

theorem reachable_budgeted {state : σ}
    (h : Machine.Reaches (step blake3 program provider) (start blake3 program initials state) e) :
    Budgeted program e :=
  reachable_keeps h (start_budgeted state) fun _ _ hg _ hm hb => hm.budgeted hg hb

/-! ## Termination -/

/-- A round of `PopBatch` is going to pop. -/
def popReady (m : UInt64) (limit : Nat) (batch : List Nat) (s : Search) : Bool :=
  batch.length < limit && match s.frontier with
    | e :: _ => s.entryLive e && e.priority == m
    | [] => false

/-- The rounds that are left before the next pop or insertion. -/
def Phase.rank : Phase → Search → Nat
  | .addInitial rest, _ => rest.length + 6
  | .harvest, _ => 5
  | .select, _ => 4
  | .pop m limit batch, s => if popReady m limit batch s then 3 else 8
  | .expand _, _ => 7
  | .insert _ rest, _ => rest.length + 6
  | .halted _, _ => 0

/-- Entries to pop, entries that can still be pushed, records that can still be received. -/
def Search.fuel (program : Program) (s : Search) : Nat :=
  8 * s.frontier.length +
    8 * (program.budget.maxEmittedStates.toNat - s.receipt.emittedStateCount.toNat) +
    (program.budget.maxTransitionRecords.toNat - s.receipt.transitionRecordCount.toNat)

def Execution.rank (program : Program) (e : Execution σ) : Nat :=
  e.search.fuel program + e.phase.rank e.search

theorem Phase.rank_pop_le (m : UInt64) (limit : Nat) (batch : List Nat) (s : Search) :
    (Phase.pop m limit batch).rank s ≤ 8 := by
  simp only [Phase.rank]
  split <;> omega

theorem fuel_discard_le (s : Search) : s.discardStaleTop.fuel program ≤ s.fuel program := by
  have hle : s.discardStaleTop.frontier.length ≤ s.frontier.length :=
    (List.dropWhile_sublist _).length_le
  have hr : s.discardStaleTop.receipt = s.receipt := rfl
  unfold fuel
  rw [hr]
  omega

variable {t : Search}

theorem Search.Popped.fuel {e : QueueEntry} (h : Popped s e t) : t.fuel program + 8 ≤ s.fuel program := by
  have hlt := h.frontier_lt
  have hr : t.receipt = s.receipt := by rw [h.frame]
  unfold Search.fuel
  rw [hr]
  omega

theorem Search.Harvested.fuel {e : QueueEntry} (h : Harvested program initials s e t) :
    t.fuel program + 8 ≤ s.fuel program := by
  obtain ⟨u, path, hasher, hpop, -, -, -, -, rfl⟩ := h.popped
  exact hpop.fuel

theorem Search.InsertResult.fuel {state : State} {cost : UInt64} {parent : Nat}
    {incoming : Option Transition} {r : Status × Bool × Search}
    (hr : InsertResult program state cost parent incoming s r) : r.2.2.fuel program ≤ s.fuel program := by
  have same : ∀ {t : Search}, t.frontier = s.frontier → t.receipt.emittedStateCount =
      s.receipt.emittedStateCount → t.receipt.transitionRecordCount =
      s.receipt.transitionRecordCount → t.fuel program ≤ s.fuel program := by
    intro t h1 h2 h3
    simp only [Search.fuel, h1, h2, h3]
    exact Nat.le_refl _
  cases hr with
  | identity => exact Nat.le_refl _
  | pruned => exact same rfl rfl rfl
  | refused hu => exact same (by rw [hu.frame]; rfl) (by rw [hu.frame]; rfl) (by rw [hu.frame]; rfl)
  | exhausted hid hu =>
    exact same (by rw [hu.frame]; rfl) (by rw [hu.frame]; rfl) (by rw [hu.frame]; rfl)
  | overflow hu =>
    exact same (by rw [hu.frame]; rfl) (by rw [hu.frame]; rfl) (by rw [hu.frame]; rfl)
  | @inserted u reopens hid hnot hu hclosed hroom =>
    have hf : u.frontier = s.frontier := by rw [hu.frame]; rfl
    have hr : u.receipt = s.receipt := by rw [hu.frame]; rfl
    simp only [insertBudgetReached, Bool.or_eq_false_iff, decide_eq_false_iff_not, ge_iff_le,
      UInt64.not_le, UInt64.lt_iff_toNat_lt, hr] at hroom
    have hlt := hroom.1.1
    have := program.budget.maxEmittedStates.toNat_lt
    simp only [Search.fuel, enqueue, storeNode, (pushEntry_perm _ _).length_eq, List.length_cons, hf, hr]
    rw [toNat_add_of_lt (by simp only [UInt64.toNat_one]; omega), UInt64.toNat_one]
    omega

theorem received_length (reply : ExpansionReply) :
    (received reply).length = reply.transitionCount.toNat := by
  simp only [received, List.length_append, List.length_take, List.length_replicate]
  omega

theorem sortTransitions_length (transitions : List Transition) :
    (sortTransitions transitions).length = transitions.length :=
  (List.perm_insertionSort _ _).length_eq

/-- The batch that `select` opens starts with a pop. -/
theorem openBatch_ready {top : QueueEntry} {rest : List QueueEntry}
    (hv : programValid program = true) (hq : QueueOk program s)
    (hf : s.discardStaleTop.frontier = top :: rest)
    (hexp : s.receipt.expandedStateCount < program.budget.maxExpandedStates) :
    popReady top.priority (s.batchLimit program) [] s.discardStaleTop = true := by
  have hwidth := (programValid_positive hv).2
  have hlimit : 0 < s.batchLimit program := by
    rw [UInt64.lt_iff_toNat_lt] at hexp
    refine Nat.lt_min.2 ⟨hwidth, ?_⟩
    rw [toNat_sub_of_le (Nat.le_of_lt hexp)]
    omega
  have hlive := (discardStaleTop_top hq hf).2
  have hentry : s.discardStaleTop.entryLive top = true := by
    rw [hq.discard.entryLive_iff (by rw [hf]; simp)]
    exact hlive
  simp [popReady, hf, hentry, hlimit]

theorem popReady_not_done {m : UInt64} {limit : Nat} {batch : List Nat}
    (hstop : limit ≤ batch.length ∨ ∀ e rest, s.discardStaleTop.frontier = e :: rest → e.priority ≠ m) :
    popReady m limit batch s = false := by
  cases hf : s.frontier with
  | nil => simp [popReady, hf]
  | cons e rest =>
    rcases hstop with hl | hne
    · simp [popReady, Nat.not_lt.2 hl]
    · cases hlive : s.entryLive e with
      | false => simp [popReady, hf, hlive]
      | true =>
        have hd : s.discardStaleTop.frontier = e :: rest := by
          have : s.discardStaleTop.frontier = s.frontier.dropWhile fun x => !s.entryLive x := rfl
          rw [this, hf, List.dropWhile_cons_of_neg (by simp [hlive])]
        simp [popReady, hf, hlive, hne e rest hd]

theorem fuel_congr (hf : t.frontier = s.frontier) (hc : t.receipt.counters = s.receipt.counters) :
    t.fuel program = s.fuel program := by
  simp only [Receipt.counters, List.cons.injEq, and_true] at hc
  obtain ⟨-, h2, h3, -⟩ := hc
  unfold fuel
  rw [hf, h2, h3]

theorem fuel_acceptReply {n : Nat} {reply : ExpansionReply} (hb : WithinBudget program s)
    (hshape : replyMalformed n (s.transitionCapacity program) reply = false) :
    ((s.countCall n).acceptReply reply).fuel program + reply.transitionCount.toNat = s.fuel program := by
  have hle := transitionCount_le hshape
  have hrec := hb.transitions
  rw [UInt64.le_iff_toNat_le] at hrec hle
  rw [toNat_sub_of_le hrec] at hle
  have := program.budget.maxTransitionRecords.toNat_lt
  simp only [Search.fuel, acceptReply, countCall]
  rw [toNat_add_of_lt (by omega)]
  omega

theorem Move.rank_lt (hv : programValid program = true)
    (hm : Move blake3 program initials provider e e') (hg : Good program initials e)
    (hb : Budgeted program e) : e'.rank program < e.rank program := by
  obtain ⟨hw, -, -⟩ := hg
  obtain ⟨hb, -⟩ := hb
  cases hm with
  | settle => exact Nat.lt_succ_self _
  | initialInvalid | callFails | noRecordsLeft | enoughPaths | transitionInvalid =>
    exact Nat.add_lt_add_left (Nat.succ_pos _) _
  | initialFails hv hr =>
    have := hr.fuel
    simp only [Execution.rank, Phase.rank] at this ⊢
    omega
  | initial hv hr =>
    have := hr.fuel
    simp only [Execution.rank, Phase.rank, List.length_cons] at this ⊢
    omega
  | @harvestDone s p =>
    have := @fuel_discard_le program s
    simp only [Execution.rank, Phase.rank]
    omega
  | harvestPath h =>
    have := h.fuel
    simp only [Execution.rank]
    split <;> simp only [Phase.rank] <;> omega
  | @frontierEmpty s p | @budgetReached s p =>
    have := @fuel_discard_le program s
    exact Nat.lt_of_le_of_lt this (Nat.lt_add_of_pos_right (Nat.succ_pos _))
  | @openBatch s p top rest h hf hexp =>
    have := @fuel_discard_le program s
    simp only [Execution.rank, Phase.rank, openBatch_ready hv (hw rfl).queue hf hexp, if_true]
    omega
  | @popDone m limit batch s t p ht hstop =>
    have hfuel : t.fuel program ≤ s.fuel program := by
      rcases ht with rfl | rfl
      · exact Nat.le_refl _
      · exact fuel_discard_le s
    simp only [Execution.rank]
    have hoff : (Phase.pop m limit batch).rank s = 8 := by
      simp [Phase.rank, popReady_not_done hstop]
    unfold popBatchDone
    split
    · have : (t.finalize program blake3).fuel program = t.fuel program := fuel_congr rfl rfl
      simp only [finish, Phase.rank] at hoff ⊢
      omega
    split <;> simp only [Phase.rank] at hoff ⊢ <;> omega
  | @popPath m limit batch s t p e h =>
    have := h.fuel
    have := Phase.rank_pop_le m limit batch t
    simp only [Execution.rank]
    have : 3 ≤ (Phase.pop m limit batch).rank s := by simp only [Phase.rank]; split <;> omega
    omega
  | @popLastPath m limit batch s t p e h =>
    have := h.fuel
    have hfin : (t.finalize program blake3).fuel program = t.fuel program := fuel_congr rfl rfl
    simp only [Execution.rank, hfin]
    have : (Phase.halted Status.ok).rank (t.finalize program blake3) = 0 := rfl
    omega
  | @popNode m limit batch s t p e h =>
    have := @Search.Popped.fuel program _ _ _ h
    have := Phase.rank_pop_le m limit (batch ++ [e.nodeIndex]) t
    have : 3 ≤ (Phase.pop m limit batch).rank s := by simp only [Phase.rank]; split <;> omega
    simp only [Execution.rank]
    omega
  | @popCut m limit batch s t p e h =>
    have := @Search.Popped.fuel program _ _ _ h
    have := Phase.rank_pop_le m limit batch t
    have : 3 ≤ (Phase.pop m limit batch).rank s := by simp only [Phase.rank]; split <;> omega
    simp only [Execution.rank]
    omega
  | @callLimited batch s p p' reply hreply hok hshape =>
    have := fuel_acceptReply hb hshape
    have hfin : (finalize program blake3 { (s.countCall batch.length).acceptReply reply with
        resourceExhausted := true }).fuel program =
        ((s.countCall batch.length).acceptReply reply).fuel program := fuel_congr rfl rfl
    simp only [Execution.rank, Phase.rank, hfin] at this ⊢
    omega
  | @call batch s p p' reply hreply hok hshape =>
    have := fuel_acceptReply hb hshape
    simp only [Execution.rank, Phase.rank, sortTransitions_length, received_length] at this ⊢
    omega
  | @insertDone sources s p =>
    have : (s.finalize program blake3).fuel program = s.fuel program := fuel_congr rfl rfl
    simp only [Execution.rank]
    unfold expandBatchDone
    split <;> simp only [finish, Phase.rank, List.length_nil] <;> omega
  | insertFails hc hr =>
    have := hr.fuel
    exact Nat.lt_of_le_of_lt this (Nat.lt_add_of_pos_right (Nat.succ_pos _))
  | insertLast hc hr =>
    have := hr.fuel
    exact Nat.lt_of_le_of_lt this (Nat.lt_add_of_pos_right (Nat.succ_pos _))
  | @insert sources t rest s u p source accumulated inserted hc hr =>
    have hle := hr.fuel
    have hash : (u.hashInsertion t inserted).fuel program = u.fuel program := fuel_congr rfl rfl
    have hrec : ({ s with transitionIds := t.transitionId :: s.transitionIds } : Search).fuel program =
      s.fuel program := fuel_congr rfl rfl
    simp only [Execution.rank, Phase.rank, List.length_cons, hash]
    simp only [hrec] at hle
    omega

theorem run_returns (hv : programValid program = true) (state : σ) :
    step blake3 program provider (Machine.run (step blake3 program provider)
      (enoughRounds program initials) (start blake3 program initials state)) = none := by
  refine Machine.run_halted (P := fun e => Good program initials e ∧ Budgeted program e)
    (Execution.rank program) (fun x y hx hs => ?_) _ _ ⟨start_good state, start_budgeted state⟩ ?_
  · have hm := hx.1.move hs
    exact ⟨⟨hm.good hx.1, hm.budgeted hx.1 hx.2⟩, hm.rank_lt hv hx.1 hx.2⟩
  · have hstart : (start (σ := σ) blake3 program initials state).rank program ≤
        8 * program.budget.maxEmittedStates.toNat + program.budget.maxTransitionRecords.toNat +
          (initials.length + 6) := by
      have hzero : (start (σ := σ) blake3 program initials state).search.fuel program =
          8 * program.budget.maxEmittedStates.toNat + program.budget.maxTransitionRecords.toNat := by
        unfold start
        split <;> simp [Search.fuel, openReceipt]
      have hphase : (start (σ := σ) blake3 program initials state).phase.rank
          (start (σ := σ) blake3 program initials state).search ≤ initials.length + 6 := by
        unfold start
        split <;> simp [Phase.rank]
      unfold Execution.rank
      omega
    unfold enoughRounds
    omega

theorem step_eq_none : step blake3 program provider e = none ↔ ∃ status, e.phase = .halted status := by
  unfold step
  cases e.phase <;> simp

end Laplace.QuerySearch
