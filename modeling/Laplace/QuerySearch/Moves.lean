import Laplace.QuerySearch.Paths
import Laplace.Lib.Outcome

/-!
# What one step of `Run` can do

`WellFormed` is the invariant that no provider can break, `Move` lists the ways in which a step
from a well-formed search ends, and `step_move` shows that the list is complete. What follows
about runs is proved by cases on `Move`; the loops of `Execute.lean` are not unfolded again.
-/

namespace Laplace.QuerySearch

namespace Search

/-- What holds of the search whatever the provider answers. -/
structure WellFormed (program : Program) (initials : List State) (s : Search) : Prop where
  static : Static program initials s
  queue : QueueOk program s
  antichain : Antichain s
  sound : ∀ path ∈ s.paths, PathSound program initials path
  ranked : ∀ k (h : k < s.paths.length), s.paths[k].summary.rank = UInt32.ofNat (k + 1)

/-- `t` is `s` after its live top, the entry `e`, was popped and its node closed. -/
structure Popped (s : Search) (e : QueueEntry) (t : Search) : Prop where
  top : ∃ rest, s.discardStaleTop.frontier = e :: rest
  lt : e.nodeIndex < s.nodes.length
  live : (s.node e.nodeIndex).live = true
  eq : t = s.discardStaleTop.closeTop e

/-- `t` is `s` after the path of its live and terminal top was appended. -/
structure Harvested (program : Program) (initials : List State) (s : Search) (e : QueueEntry)
    (t : Search) : Prop where
  terminal : (s.node e.nodeIndex).state.terminal = true
  popped : ∃ u path hasher, Popped s e u ∧ PathSound program initials path ∧
    path.summary.totalCost = (s.node e.nodeIndex).accumulatedCost ∧
    path.summary.terminalStateId = (s.node e.nodeIndex).state.stateId ∧
    path.summary.rank = UInt32.ofNat (s.paths.length + 1) ∧
    t = { u with paths := s.paths ++ [path], executionHasher := hasher }

/-- What `ExpandBatch` has checked of a transition before it inserts its target. -/
structure Accepted (blake3 : Blake3) (program : Program)
    (sources : List (Digest256 × Nat)) (s : Search) (t : Transition) (source : Nat)
    (accumulated : UInt64) : Prop where
  valid : transitionValid blake3 program t = true
  found : lookupSource sources t.sourceStateId = some source
  depth : t.target.depth.toNat = (s.node source).state.depth.toNat + 1
  fresh : t.transitionId ∉ s.transitionIds
  cost : accumulated.toNat = (s.node source).accumulatedCost.toNat + program.weight t

variable {blake3 : Blake3} {program : Program} {initials : List State} {s : Search}

theorem checkTransition_ok {sources : List (Digest256 × Nat)} {t : Transition} {source : Nat}
    {accumulated : UInt64} (h : checkTransition blake3 program sources t s = .ok (source, accumulated)) :
    Accepted blake3 program sources s t source accumulated := by
  unfold checkTransition at h
  split at h
  · cases h
  rename_i hvalid
  split at h
  · cases h
  rename_i index hsource
  simp only at h
  split at h
  · cases h
  rename_i hdepth
  split at h
  · cases h
  rename_i hfresh
  split at h
  · cases h
  rename_i total hcost
  simp only [Except.ok.injEq, Prod.mk.injEq] at h
  obtain ⟨rfl, rfl⟩ := h
  obtain ⟨weight, hweight, hadd⟩ := Option.bind_eq_some_iff.1 hcost
  refine ⟨by simpa using hvalid, hsource, ?_, by simpa using hfresh, ?_⟩
  · simp only [Bool.or_eq_true, beq_iff_eq, bne_iff_ne, ne_eq, not_or, Decidable.not_not] at hdepth
    obtain ⟨hmax, heq⟩ := hdepth
    rw [heq, UInt32.toNat_add, Nat.mod_eq_of_lt]
    · rfl
    · have := (s.node index).state.depth.toNat_lt
      have : (s.node index).state.depth.toNat ≠ 0xFFFFFFFF := fun hc =>
        hmax (UInt32.toNat_inj.1 hc)
      simp only [UInt32.toNat_one]
      omega
  · rw [Checked.checkedAdd_eq_some.1 hadd, weightedCost_some hweight]

/-! ## Popping -/

theorem QueueOk.popped (h : QueueOk program s) {e : QueueEntry} {rest : List QueueEntry}
    (hf : s.discardStaleTop.frontier = e :: rest) : Popped s e (s.discardStaleTop.closeTop e) := by
  obtain ⟨hlt, hlive⟩ := discardStaleTop_top h hf
  exact ⟨⟨rest, hf⟩, hlt, hlive, rfl⟩

theorem Popped.node {e : QueueEntry} {t : Search} (h : Popped s e t) (i : Nat) :
    t.node i = if i = e.nodeIndex then { s.node i with closed := true } else s.node i := by
  rw [h.eq]
  exact closeTop_node (s := s.discardStaleTop) h.lt i

theorem discardStaleTop_relabelled (s : Search) : Relabelled s s.discardStaleTop :=
  .of_nodes rfl rfl rfl fun _ hx => hx

theorem Popped.relabelled {e : QueueEntry} {t : Search} (h : Popped s e t) : Relabelled s t := by
  rw [h.eq]
  exact (discardStaleTop_relabelled s).trans (closeTop_relabelled (s := s.discardStaleTop) h.lt)

theorem Popped.frame {e : QueueEntry} {t : Search} (h : Popped s e t) :
    t = { s with frontier := t.frontier, nodes := t.nodes,
                 activeFrontierCount := t.activeFrontierCount } := by
  rw [h.eq, closeTop_eq]
  rfl

theorem Popped.queue {e : QueueEntry} {t : Search} (h : Popped s e t) (hq : QueueOk program s) :
    QueueOk program t := by
  obtain ⟨rest, hf⟩ := h.top
  rw [h.eq]
  exact hq.discard.close hf h.live

theorem Popped.frontier_lt {e : QueueEntry} {t : Search} (h : Popped s e t) :
    t.frontier.length < s.frontier.length := by
  obtain ⟨rest, hf⟩ := h.top
  have hle : s.discardStaleTop.frontier.length ≤ s.frontier.length :=
    (List.dropWhile_sublist _).length_le
  rw [h.eq, closeTop_eq]
  simp only [hf, List.tail_cons, List.length_cons] at hle ⊢
  omega

theorem Popped.least {e : QueueEntry} {t : Search} (h : Popped s e t) (hq : QueueOk program s) :
    e = entryOf program e.nodeIndex (s.node e.nodeIndex) ∧ ∀ i < s.nodes.length, (s.node i).live = true →
        e.priority ≤ priority program (s.node i) := by
  obtain ⟨rest, hf⟩ := h.top
  have hd := hq.discard
  refine ⟨(hd.entry e (by rw [hf]; simp)).2, fun i hi hl => ?_⟩
  obtain ⟨x, hx, rfl⟩ := hd.live i hi hl
  have hxe := (hd.entry x hx).2
  have hsorted := hd.sorted
  rw [hf] at hx hsorted
  have hxp : x.priority = priority program (s.node x.nodeIndex) := by
    rw [hxe]
    rfl
  rcases List.mem_cons.1 hx with rfl | hx
  · rw [hxp]
    exact UInt64.le_refl _
  · rw [← hxp]
    exact (List.pairwise_cons.1 hsorted).1 x hx

/-- `AddPath` succeeds on a popped terminal node. -/
theorem WellFormed.harvested (h : WellFormed program initials s) {e : QueueEntry}
    {rest : List QueueEntry} (hf : s.discardStaleTop.frontier = e :: rest)
    (ht : (s.node e.nodeIndex).state.terminal = true) :
    ∃ t, addPath program blake3 e.nodeIndex (s.discardStaleTop.closeTop e) = (.ok, t) ∧
      Harvested program initials s e t := by
  have hp := h.queue.popped hf
  have hlabel := hp.relabelled.label e.nodeIndex
  have hpaths : (s.discardStaleTop.closeTop e).paths = s.paths := by rw [closeTop_eq]; rfl
  obtain ⟨path, hasher, hadd, hsound, hcost, hid, hrank⟩ :=
    (@addPath_ok _ _ _ blake3) (h.static.relabel hp.relabelled)
      (i := e.nodeIndex) (by rw [hp.relabelled.length]; exact hp.lt) (by rw [hlabel.state]; exact ht)
  rw [hpaths] at hadd hrank
  rw [hlabel.cost] at hcost
  rw [hlabel.state] at hid
  exact ⟨_, hadd, ht, _, path, hasher, hp, hsound, hcost, hid, hrank, rfl⟩

theorem checkTransition_error {sources : List (Digest256 × Nat)} {t : Transition} :
    Laplace.Outcome (checkTransition blake3 program sources t s) (fun _ => True)
      fun status => status ≠ .ok ∧ status.expanding = true := by
  refine .refuse ⟨nofun, rfl⟩ ?_
  split
  · exact ⟨nofun, rfl⟩
  · refine .refuse ⟨nofun, rfl⟩ (.refuse ⟨nofun, rfl⟩ ?_)
    split
    · exact ⟨nofun, rfl⟩
    · trivial

end Search

/-! ## The moves -/

open Search

/-- The ways in which a step of `Run` can end. -/
inductive Move (blake3 : Blake3) (program : Program) (initials : List State)
    {σ : Type} (provider : Provider σ) : Execution σ → Execution σ → Prop
  -- the initial states
  | settle {s : Search} {p : σ} :
    Move blake3 program initials provider ⟨.addInitial [], s, p⟩ ⟨.harvest, s, p⟩
  | initialInvalid {state : State} {rest : List State} {s : Search} {p : σ} :
    Move blake3 program initials provider ⟨.addInitial (state :: rest), s, p⟩
      ⟨.halted .stateInvalid, s, p⟩
  | initial {state : State} {rest : List State} {s t : Search} {p : σ}
    (hv : stateValid program state = true)
    (hr : InsertResult program state 0 0 none s (.ok, true, t)) (hx : t.resourceExhausted = false) :
    Move blake3 program initials provider ⟨.addInitial (state :: rest), s, p⟩
      ⟨.addInitial rest, t, p⟩
  | initialFails {state : State} {rest : List State} {s t : Search} {p : σ} {status status' : Status}
    {inserted : Bool} (hv : stateValid program state = true)
    (hr : InsertResult program state 0 0 none s (status', inserted, t)) (hs : status ≠ .ok) :
    Move blake3 program initials provider ⟨.addInitial (state :: rest), s, p⟩
      ⟨.halted status, t, p⟩
  -- terminal nodes on top of the queue
  | harvestDone {s : Search} {p : σ} :
    Move blake3 program initials provider ⟨.harvest, s, p⟩ ⟨.select, s.discardStaleTop, p⟩
  | harvestPath {s t : Search} {p : σ} {e : QueueEntry} (h : Harvested program initials s e t) :
    Move blake3 program initials provider ⟨.harvest, s, p⟩
      ⟨if t.stopAfterTerminal program then .select else .harvest, t, p⟩
  -- the choice of a batch
  | enoughPaths {s : Search} {p : σ} (h : s.stopAfterTerminal program = true) :
    Move blake3 program initials provider ⟨.select, s, p⟩
      ⟨.halted .ok, s.finalize program blake3, p⟩
  | frontierEmpty {s : Search} {p : σ} (h : s.stopAfterTerminal program = false)
    (hf : s.discardStaleTop.frontier = []) :
    Move blake3 program initials provider ⟨.select, s, p⟩
      ⟨.halted .ok, finalize program blake3 { s.discardStaleTop with frontierExhausted := true }, p⟩
  | budgetReached {s : Search} {p : σ} (h : s.stopAfterTerminal program = false) :
    Move blake3 program initials provider ⟨.select, s, p⟩
      ⟨.halted .ok, finalize program blake3 { s.discardStaleTop with resourceExhausted := true }, p⟩
  | openBatch {s : Search} {p : σ} {top : QueueEntry} {rest : List QueueEntry}
    (h : s.stopAfterTerminal program = false) (hf : s.discardStaleTop.frontier = top :: rest)
    (hexp : s.receipt.expandedStateCount < program.budget.maxExpandedStates)
    (hcalls : s.receipt.providerCallCount < program.budget.maxProviderCalls) :
    Move blake3 program initials provider ⟨.select, s, p⟩
      ⟨.pop top.priority (s.batchLimit program) [], s.discardStaleTop, p⟩
  -- filling the batch
  | popDone {m : UInt64} {limit : Nat} {batch : List Nat} {s t : Search} {p : σ}
    (ht : t = s ∨ t = s.discardStaleTop)
    (hstop : limit ≤ batch.length ∨ ∀ e rest, s.discardStaleTop.frontier = e :: rest → e.priority ≠ m) :
    Move blake3 program initials provider ⟨.pop m limit batch, s, p⟩
      ⟨(popBatchDone blake3 program batch t).1, (popBatchDone blake3 program batch t).2, p⟩
  | popPath {m : UInt64} {limit : Nat} {batch : List Nat} {s t : Search} {p : σ} {e : QueueEntry}
    (h : Harvested program initials s e t) (hm : e.priority = m)
    (hstop : t.stopAfterTerminal program = false) :
    Move blake3 program initials provider ⟨.pop m limit batch, s, p⟩ ⟨.pop m limit batch, t, p⟩
  | popLastPath {m : UInt64} {limit : Nat} {batch : List Nat} {s t : Search} {p : σ} {e : QueueEntry}
    (h : Harvested program initials s e t) (hm : e.priority = m)
    (hstop : t.stopAfterTerminal program = true) :
    Move blake3 program initials provider ⟨.pop m limit batch, s, p⟩
      ⟨.halted .ok, t.finalize program blake3, p⟩
  | popNode {m : UInt64} {limit : Nat} {batch : List Nat} {s t : Search} {p : σ} {e : QueueEntry}
    (h : Popped s e t) (hm : e.priority = m) (hl : batch.length < limit)
    (hterminal : (s.node e.nodeIndex).state.terminal = false)
    (hdepth : (s.node e.nodeIndex).state.depth < program.budget.maxDepth) :
    Move blake3 program initials provider ⟨.pop m limit batch, s, p⟩
      ⟨.pop m limit (batch ++ [e.nodeIndex]), t, p⟩
  | popCut {m : UInt64} {limit : Nat} {batch : List Nat} {s t : Search} {p : σ} {e : QueueEntry}
    (h : Popped s e t) (hm : e.priority = m)
    (hterminal : (s.node e.nodeIndex).state.terminal = false)
    (hdepth : program.budget.maxDepth ≤ (s.node e.nodeIndex).state.depth) :
    Move blake3 program initials provider ⟨.pop m limit batch, s, p⟩ ⟨.pop m limit batch, t, p⟩
  -- the provider call
  | noRecordsLeft {batch : List Nat} {s : Search} {p : σ} :
    Move blake3 program initials provider ⟨.expand batch, s, p⟩
      ⟨.halted .ok, finalize program blake3 { s with resourceExhausted := true }, p⟩
  | callFails {batch : List Nat} {s : Search} {p p' : σ} {status : Status} (hs : status ≠ .ok)
    (hexpanding : status.expanding = true) :
    Move blake3 program initials provider ⟨.expand batch, s, p⟩
      ⟨.halted status, s.countCall batch.length, p'⟩
  | callLimited {batch : List Nat} {s : Search} {p p' : σ} {reply : ExpansionReply}
    (hreply : provider.expandBatch p (batch.map fun index => (s.node index).state)
      (batch.map fun index => (s.node index).accumulatedCost) (s.transitionCapacity program) =
      (reply, p'))
    (hok : reply.status = 0)
    (hshape : replyMalformed batch.length (s.transitionCapacity program) reply = false)
    (hbudget : (s.countCall batch.length).replyOverBudget program reply = false)
    (hlim : reply.receipt.limitingDisposition = Disposition.exhausted) :
    Move blake3 program initials provider ⟨.expand batch, s, p⟩
      ⟨.halted .ok, finalize program blake3
        { (s.countCall batch.length).acceptReply reply with resourceExhausted := true }, p'⟩
  | call {batch : List Nat} {s : Search} {p p' : σ} {reply : ExpansionReply}
    (hreply : provider.expandBatch p (batch.map fun index => (s.node index).state)
      (batch.map fun index => (s.node index).accumulatedCost) (s.transitionCapacity program) =
      (reply, p'))
    (hok : reply.status = 0)
    (hshape : replyMalformed batch.length (s.transitionCapacity program) reply = false)
    (hbudget : (s.countCall batch.length).replyOverBudget program reply = false)
    (hlim : reply.receipt.limitingDisposition ≠ Disposition.exhausted) :
    Move blake3 program initials provider ⟨.expand batch, s, p⟩
      ⟨.insert (s.sourceIndexes batch) (sortTransitions (received reply)),
        (s.countCall batch.length).acceptReply reply, p'⟩
  -- the transitions of a reply
  | insertDone {sources : List (Digest256 × Nat)} {s : Search} {p : σ} :
    Move blake3 program initials provider ⟨.insert sources [], s, p⟩
      ⟨(s.expandBatchDone blake3 program).1, (s.expandBatchDone blake3 program).2, p⟩
  | transitionInvalid {sources : List (Digest256 × Nat)} {t : Transition} {rest : List Transition}
    {s : Search} {p : σ} {status : Status} (hs : status ≠ .ok)
    (hexpanding : status.expanding = true) :
    Move blake3 program initials provider ⟨.insert sources (t :: rest), s, p⟩
      ⟨.halted status, s, p⟩
  | insertFails {sources : List (Digest256 × Nat)} {t : Transition} {rest : List Transition}
    {s u : Search} {p : σ} {source : Nat} {accumulated : UInt64} {status : Status} {inserted : Bool}
    (hc : Accepted blake3 program sources s t source accumulated)
    (hr : InsertResult program t.target accumulated source (some t)
      { s with transitionIds := t.transitionId :: s.transitionIds } (status, inserted, u))
    (hs : status ≠ .ok) :
    Move blake3 program initials provider ⟨.insert sources (t :: rest), s, p⟩
      ⟨.halted status, u, p⟩
  | insertLast {sources : List (Digest256 × Nat)} {t : Transition} {rest : List Transition}
    {s u : Search} {p : σ} {source : Nat} {accumulated : UInt64} {inserted : Bool}
    (hc : Accepted blake3 program sources s t source accumulated)
    (hr : InsertResult program t.target accumulated source (some t)
      { s with transitionIds := t.transitionId :: s.transitionIds } (.ok, inserted, u))
    (hx : u.resourceExhausted = true) :
    Move blake3 program initials provider ⟨.insert sources (t :: rest), s, p⟩
      ⟨.halted .ok, (u.hashInsertion t inserted).finalize program blake3, p⟩
  | insert {sources : List (Digest256 × Nat)} {t : Transition} {rest : List Transition}
    {s u : Search} {p : σ} {source : Nat} {accumulated : UInt64} {inserted : Bool}
    (hc : Accepted blake3 program sources s t source accumulated)
    (hr : InsertResult program t.target accumulated source (some t)
      { s with transitionIds := t.transitionId :: s.transitionIds } (.ok, inserted, u))
    (hx : u.resourceExhausted = false) :
    Move blake3 program initials provider ⟨.insert sources (t :: rest), s, p⟩
      ⟨.insert sources rest, u.hashInsertion t inserted, p⟩

section
variable {blake3 : Blake3} {program : Program} {initials : List State} {s : Search}
  {σ : Type} {provider : Provider σ} {p : σ}

theorem runInitial_move (rest : List State) (hl : LabelsOk s) :
    Move blake3 program initials provider ⟨.addInitial rest, s, p⟩
      ⟨(s.runInitial program rest).1, (s.runInitial program rest).2, p⟩ := by
  cases rest with
  | nil => exact .settle
  | cons state rest =>
    simp only [runInitial]
    split
    · exact .initialInvalid
    rename_i hv
    have hv : stateValid program state = true := by simpa using hv
    have hr := (@insertNode_result program) hl state 0 0 none
    unfold addInitial
    generalize insertNode program state 0 0 none s = r at hr
    obtain ⟨status, inserted, t⟩ := r
    cases status with
    | ok =>
      cases hxt : t.resourceExhausted with
      | true =>
        simpa [hxt] using Move.initialFails hv hr (show Status.programInvalid ≠ .ok by simp)
      | false =>
        cases inserted with
        | true => simpa [hxt] using Move.initial hv hr hxt
        | false =>
          simpa [hxt] using Move.initialFails hv hr (show Status.stateInvalid ≠ .ok by simp)
    | _ => simpa using Move.initialFails hv hr (by simp)

theorem harvest_move (h : WellFormed program initials s) :
    Move blake3 program initials provider ⟨.harvest, s, p⟩
      ⟨(s.harvestTerminalFrontier blake3 program).1, (s.harvestTerminalFrontier blake3 program).2, p⟩ := by
  unfold harvestTerminalFrontier
  simp only
  split
  · exact .harvestDone
  rename_i e rest hf
  split
  · exact .harvestDone
  rename_i ht
  have ht : (s.node e.nodeIndex).state.terminal = true := by
    rw [Bool.not_eq_true, Bool.not_eq_false'] at ht
    exact ht
  obtain ⟨t, hadd, hh⟩ := @Search.WellFormed.harvested blake3 _ _ _ h _ _ hf ht
  rw [hadd]
  exact .harvestPath hh

theorem select_move : Move blake3 program initials provider ⟨.select, s, p⟩
      ⟨(s.selectBatch blake3 program).1, (s.selectBatch blake3 program).2, p⟩ := by
  unfold selectBatch
  split
  · exact .enoughPaths ‹_›
  rename_i hstop
  have hstop : s.stopAfterTerminal program = false := by simpa using hstop
  simp only
  split
  · exact .frontierEmpty hstop ‹_›
  rename_i top rest hf
  split
  · exact .budgetReached hstop
  rename_i hb
  simp only [Bool.or_eq_true, decide_eq_true_eq, not_or, ge_iff_le, UInt64.not_le] at hb
  exact .openBatch hstop hf hb.1 hb.2

theorem pop_move (h : WellFormed program initials s) (m : UInt64) (limit : Nat) (batch : List Nat) :
    Move blake3 program initials provider ⟨.pop m limit batch, s, p⟩
      ⟨(s.popBatch blake3 program m limit batch).1, (s.popBatch blake3 program m limit batch).2, p⟩ := by
  unfold popBatch
  split
  swap
  · exact .popDone (.inl rfl) (.inl (by omega))
  rename_i hlimit
  simp only
  split
  · rename_i hf
    exact .popDone (.inr rfl) (.inr fun e rest he => by rw [hf] at he; cases he)
  rename_i e rest hf
  split
  · rename_i hne
    refine .popDone (.inr rfl) (.inr fun e' rest' he => ?_)
    rw [hf] at he
    injection he with he
    subst he
    simpa using hne
  rename_i hm
  have hm : e.priority = m := by simpa using hm
  have hpop := h.queue.popped hf
  have hnode : s.discardStaleTop.node e.nodeIndex = s.node e.nodeIndex := rfl
  rw [hnode]
  split
  · rename_i ht
    obtain ⟨t, hadd, hh⟩ := @Search.WellFormed.harvested blake3 _ _ _ h _ _ hf ht
    rw [hadd]
    simp only
    split
    · rename_i hstop
      simpa [popBatchDone, finish, hstop] using Move.popLastPath hh hm hstop
    · rename_i hstop
      exact .popPath hh hm (by simpa using hstop)
  rename_i ht
  split
  · exact .popNode hpop hm hlimit (by simpa using ht) ‹_›
  · exact .popCut hpop hm (by simpa using ht) (UInt32.not_lt.1 ‹_›)

theorem receive_move {batch : List Nat} {reply : ExpansionReply} {p' : σ}
    (hreply : provider.expandBatch p (batch.map fun index => (s.node index).state)
      (batch.map fun index => (s.node index).accumulatedCost) (s.transitionCapacity program) =
      (reply, p')) : Move blake3 program initials provider ⟨.expand batch, s, p⟩
      ⟨(s.receiveReply blake3 program batch reply).1, (s.receiveReply blake3 program batch reply).2,
        p'⟩ := by
  unfold receiveReply
  simp only
  split
  · exact .callFails (by simp) rfl
  rename_i hok
  split
  · exact .callFails (by simp) rfl
  rename_i hshape
  split
  · exact .callFails (by simp) rfl
  rename_i hbudget
  have hok : reply.status = 0 := by simpa using hok
  have hshape : replyMalformed batch.length (s.transitionCapacity program) reply = false := by
    simpa using hshape
  have hbudget : (s.countCall batch.length).replyOverBudget program reply = false := by
    simpa using hbudget
  split
  · rename_i hlim
    exact .callLimited hreply hok hshape hbudget (by simpa using hlim)
  · rename_i hlim
    exact .call hreply hok hshape hbudget (by simpa using hlim)

theorem expand_move (batch : List Nat) : Move blake3 program initials provider ⟨.expand batch, s, p⟩
      (expandBatch blake3 program provider batch s p) := by
  unfold expandBatch
  split
  · exact .noRecordsLeft
  · exact receive_move rfl

theorem insert_move (hl : LabelsOk s) (sources : List (Digest256 × Nat)) (rest : List Transition) :
    Move blake3 program initials provider ⟨.insert sources rest, s, p⟩
      ⟨(s.insertTransition blake3 program sources rest).1,
        (s.insertTransition blake3 program sources rest).2, p⟩ := by
  cases rest with
  | nil => exact .insertDone
  | cons t rest =>
    unfold insertTransition
    simp only
    split
    · rename_i status hc
      exact .transitionInvalid (checkTransition_error.of_error hc).1 (checkTransition_error.of_error hc).2
    rename_i source accumulated hc
    have hc := checkTransition_ok hc
    have hr := (@insertNode_result program)
      (s := { s with transitionIds := t.transitionId :: s.transitionIds }) hl t.target accumulated
      source (some t)
    generalize insertNode program t.target accumulated source (some t)
      { s with transitionIds := t.transitionId :: s.transitionIds } = r at hr
    obtain ⟨status, inserted, u⟩ := r
    cases status with
    | ok =>
      have hx : (u.hashInsertion t inserted).resourceExhausted = u.resourceExhausted := rfl
      simp only [hx]
      cases hxu : u.resourceExhausted with
      | true => simpa [expandBatchDone, finish, hx, hxu] using Move.insertLast hc hr hxu
      | false => simpa using Move.insert hc hr hxu
    | _ => exact .insertFails hc hr (by simp)

/-- **Completeness of the moves.** -/
theorem step_move {e e' : Execution σ} (hw : WellFormed program initials e.search)
    (h : step blake3 program provider e = some e') : Move blake3 program initials provider e e' := by
  obtain ⟨phase, s, p⟩ := e
  unfold step at h
  cases phase with
  | halted status => cases h
  | addInitial rest => injection h with h; subst h; exact runInitial_move rest hw.static.labels
  | harvest => injection h with h; subst h; exact harvest_move hw
  | select => injection h with h; subst h; exact select_move
  | pop m limit batch => injection h with h; subst h; exact pop_move hw m limit batch
  | expand batch => injection h with h; subst h; exact expand_move batch
  | insert sources rest =>
    injection h with h; subst h; exact insert_move hw.static.labels sources rest

end

end Laplace.QuerySearch
