import Laplace.QuerySearch.Execute
import Laplace.QuerySearch.Insert

/-!
# The invariant of a search run: labels, queue and Pareto sets

`Static` speaks of the fields of the nodes that are written once (state, cost, parent), `Queue` of
the priority queue and the flags, `Antichain` of the labels under one dominance key. Each operation
of `Search.lean` gets one lemma per part; `Invariant` at the end is their conjunction.
-/

namespace Laplace.QuerySearch

open Laplace.Checked

namespace Search

/-! ## Fields written once -/

/-- Node `i` was inserted for a transition of its parent. -/
structure Derived (program : Program) (s : Search) (i : Nat) : Prop where
  parent_lt : (s.node i).parent < i
  expandable : (s.node (s.node i).parent).state.terminal = false
  source : (s.node i).incoming.sourceStateId = (s.node (s.node i).parent).state.stateId
  target : (s.node i).incoming.target = (s.node i).state
  depth : (s.node i).state.depth.toNat = (s.node (s.node i).parent).state.depth.toNat + 1
  cost : (s.node i).accumulatedCost.toNat =
    (s.node (s.node i).parent).accumulatedCost.toNat + program.weight (s.node i).incoming

structure Static (program : Program) (initials : List State) (s : Search) : Prop where
  labels : LabelsOk s
  valid : ∀ i < s.nodes.length, stateValid program (s.node i).state = true
  identity : ∀ i < s.nodes.length,
    s.identities (s.node i).state.stateId = some (s.node i).state
  root : ∀ i < s.nodes.length, (s.node i).hasParent = false →
    (s.node i).accumulatedCost = 0 ∧ (s.node i).state ∈ initials
  derived : ∀ i < s.nodes.length, (s.node i).hasParent = true → Derived program s i
  recorded : ∀ i < s.nodes.length, (s.node i).hasParent = true →
    (s.node i).incoming.transitionId ∈ s.transitionIds
  fresh : ∀ i < s.nodes.length, ∀ j < i, (s.node i).hasParent = true →
    (s.node j).hasParent = true →
    (s.node j).incoming.transitionId ≠ (s.node i).incoming.transitionId

/-- `s'` has the labels of `s`; flags, queue, counters and paths may differ, and more transition
ids and identities may be recorded. -/
structure Relabelled (s s' : Search) : Prop where
  length : s'.nodes.length = s.nodes.length
  label : ∀ i, (s'.node i).SameLabel (s.node i)
  labels : s'.labels = s.labels
  identities : ∀ key state, s.identities key = some state → s'.identities key = some state
  transitionIds : s.transitionIds ⊆ s'.transitionIds

variable {s s' : Search}

theorem Relabelled.of_nodes (hn : s'.nodes = s.nodes) (hl : s'.labels = s.labels)
    (hi : s'.identities = s.identities) (ht : s.transitionIds ⊆ s'.transitionIds) : Relabelled s s' where
  length := by rw [hn]
  label i := by
    have : s'.node i = s.node i := by simp [node, hn]
    rw [this]
    exact .refl _
  labels := hl
  identities key state h := by rw [hi]; exact h
  transitionIds := ht

variable {u : Search}

theorem Relabelled.trans {t : Search} (h : Relabelled s t) (h' : Relabelled t u) : Relabelled s u where
  length := h'.length.trans h.length
  label i := (h'.label i).trans (h.label i)
  labels := h'.labels.trans h.labels
  identities key state hs := h'.identities key state (h.identities key state hs)
  transitionIds := fun _ hx => h'.transitionIds (h.transitionIds hx)

theorem Marked.relabelled (h : Marked s s') : Relabelled s s' where
  length := h.length
  label := h.label
  labels := by rw [h.frame]
  identities key state hs := by rw [h.frame]; exact hs
  transitionIds := by rw [h.frame]; exact fun _ hx => hx

theorem register_relabelled {state : State}
    (hid : ∀ found, s.identities state.stateId = some found → found = state) :
    Relabelled s (s.register state) where
  length := rfl
  label _ := .refl _
  labels := rfl
  identities key found hs := by
    simp only [register]
    by_cases hk : key = state.stateId
    · subst hk
      rw [Function.update_self, hid found hs]
    · rw [Function.update_of_ne hk, hs]
  transitionIds := fun _ hx => hx

theorem LabelsOk.relabel (h : LabelsOk s) (hr : Relabelled s s') : LabelsOk s' := by
  intro key
  rw [hr.labels, h key, hr.length]
  exact List.filter_congr fun i _ => by rw [(hr.label i).state]

theorem Static.relabel {program : Program} {initials : List State} (h : Static program initials s)
    (hr : Relabelled s s') : Static program initials s' where
  labels := h.labels.relabel hr
  valid i hi := by
    rw [(hr.label i).state]
    exact h.valid i (hr.length ▸ hi)
  identity i hi := by
    rw [(hr.label i).state]
    exact hr.identities _ _ (h.identity i (hr.length ▸ hi))
  root i hi hp := by
    rw [(hr.label i).hasParent] at hp
    rw [(hr.label i).cost, (hr.label i).state]
    exact h.root i (hr.length ▸ hi) hp
  derived i hi hp := by
    rw [(hr.label i).hasParent] at hp
    obtain ⟨h1, h2, h3, h4, h5, h6⟩ := h.derived i (hr.length ▸ hi) hp
    have hi' := hr.label i
    have hp' := hr.label (s.node i).parent
    exact ⟨by rwa [hi'.parent], by rwa [hi'.parent, hp'.state],
      by rwa [hi'.incoming, hi'.parent, hp'.state], by rwa [hi'.incoming, hi'.state],
      by rwa [hi'.state, hi'.parent, hp'.state], by rwa [hi'.cost, hi'.parent, hp'.cost, hi'.incoming]⟩
  recorded i hi hp := by
    rw [(hr.label i).hasParent] at hp
    rw [(hr.label i).incoming]
    exact hr.transitionIds (h.recorded i (hr.length ▸ hi) hp)
  fresh i hi j hj hp hp' := by
    rw [(hr.label i).hasParent] at hp
    rw [(hr.label j).hasParent] at hp'
    rw [(hr.label i).incoming, (hr.label j).incoming]
    exact h.fresh i (hr.length ▸ hi) j hj hp hp'

/-! ### Storing a node -/

variable {n : Node}

theorem storeNode_node_lt {i : Nat} (h : i < s.nodes.length) : (s.storeNode n).node i = s.node i := by
  simp [node, storeNode, List.getD_eq_getElem?_getD, List.getElem?_append_left h]

@[simp] theorem storeNode_node_last (s : Search) (n : Node) : (s.storeNode n).node s.nodes.length = n := by
  simp [node, storeNode, List.getD_eq_getElem?_getD]

@[simp] theorem storeNode_length (s : Search) (n : Node) :
    (s.storeNode n).nodes.length = s.nodes.length + 1 := by
  simp [storeNode]

theorem storeNode_cases {i : Nat} (h : i < (s.storeNode n).nodes.length) :
    (i < s.nodes.length ∧ (s.storeNode n).node i = s.node i) ∨
      (i = s.nodes.length ∧ (s.storeNode n).node i = n) := by
  rw [storeNode_length] at h
  rcases Nat.lt_or_ge i s.nodes.length with hi | hi
  · exact .inl ⟨hi, storeNode_node_lt hi⟩
  · have : i = s.nodes.length := by omega
    subst this
    exact .inr ⟨rfl, storeNode_node_last _ _⟩

theorem LabelsOk.store (h : LabelsOk s) (n : Node) : LabelsOk (s.storeNode n) := by
  intro key
  have hold : ((List.range s.nodes.length).filter fun i =>
      ((s.storeNode n).node i).state.dominanceKey = key) = s.labels key := by
    rw [h key]
    exact List.filter_congr fun i hi => by rw [storeNode_node_lt (List.mem_range.1 hi)]
  rw [storeNode_length, List.range_succ, List.filter_append, hold]
  simp only [storeNode, List.filter_cons, List.filter_nil]
  by_cases hk : key = n.state.dominanceKey
  · subst hk
    have := storeNode_node_last s n
    simp only [storeNode] at this
    simp [this]
  · have := storeNode_node_last s n
    simp only [storeNode] at this
    simp [this, Function.update_of_ne hk, Ne.symm hk]

/-- What a new node has to satisfy. -/
structure Admitted (program : Program) (initials : List State) (s : Search) (n : Node) : Prop where
  valid : stateValid program n.state = true
  identity : s.identities n.state.stateId = some n.state
  root : n.hasParent = false → n.accumulatedCost = 0 ∧ n.state ∈ initials
  parent_lt : n.hasParent = true → n.parent < s.nodes.length
  expandable : n.hasParent = true → (s.node n.parent).state.terminal = false
  source : n.hasParent = true → n.incoming.sourceStateId = (s.node n.parent).state.stateId
  target : n.hasParent = true → n.incoming.target = n.state
  depth : n.hasParent = true → n.state.depth.toNat = (s.node n.parent).state.depth.toNat + 1
  cost : n.hasParent = true → n.accumulatedCost.toNat =
    (s.node n.parent).accumulatedCost.toNat + program.weight n.incoming
  recorded : n.hasParent = true → n.incoming.transitionId ∈ s.transitionIds
  fresh : n.hasParent = true → ∀ j < s.nodes.length, (s.node j).hasParent = true →
    (s.node j).incoming.transitionId ≠ n.incoming.transitionId

theorem Static.store {program : Program} {initials : List State} (h : Static program initials s)
    (hn : Admitted program initials s n) : Static program initials (s.storeNode n) where
  labels := h.labels.store n
  valid i hi := by
    rcases storeNode_cases hi with ⟨hlt, he⟩ | ⟨-, he⟩ <;> rw [he]
    · exact h.valid i hlt
    · exact hn.valid
  identity i hi := by
    rcases storeNode_cases hi with ⟨hlt, he⟩ | ⟨-, he⟩ <;> rw [he]
    · exact h.identity i hlt
    · exact hn.identity
  root i hi := by
    rcases storeNode_cases hi with ⟨hlt, he⟩ | ⟨-, he⟩ <;> rw [he]
    · exact h.root i hlt
    · exact hn.root
  derived i hi := by
    rcases storeNode_cases hi with ⟨hlt, he⟩ | ⟨rfl, he⟩ <;> intro hp
    · rw [he] at hp
      obtain ⟨h1, h2, h3, h4, h5, h6⟩ := h.derived i hlt hp
      have hpe := storeNode_node_lt (n := n) (Nat.lt_trans h1 hlt)
      exact ⟨by rwa [he], by rwa [he, hpe], by rwa [he, hpe], by rwa [he], by rwa [he, hpe],
        by rwa [he, hpe]⟩
    · rw [he] at hp
      have hpe := storeNode_node_lt (n := n) (hn.parent_lt hp)
      exact ⟨by rw [he]; exact hn.parent_lt hp, by rw [he, hpe]; exact hn.expandable hp,
        by rw [he, hpe]; exact hn.source hp, by rw [he]; exact hn.target hp,
        by rw [he, hpe]; exact hn.depth hp, by rw [he, hpe]; exact hn.cost hp⟩
  recorded i hi := by
    rcases storeNode_cases hi with ⟨hlt, he⟩ | ⟨-, he⟩ <;> rw [he]
    · exact h.recorded i hlt
    · exact hn.recorded
  fresh i hi j hj hp hp' := by
    rcases storeNode_cases hi with ⟨hlt, he⟩ | ⟨rfl, he⟩
    · rw [he] at hp ⊢
      rw [storeNode_node_lt (Nat.lt_trans hj hlt)] at hp' ⊢
      exact h.fresh i hlt j hj hp hp'
    · rw [he] at hp ⊢
      rw [storeNode_node_lt hj] at hp' ⊢
      exact hn.fresh hp j hj hp'

/-! ## The queue -/

theorem queueLater_priority {a b : QueueEntry} : (queueLater a b = true → b.priority ≤ a.priority) ∧
      (queueLater a b = false → a.priority ≤ b.priority) := by
  unfold queueLater
  by_cases h : a.priority = b.priority
  · rw [h]
    exact ⟨fun _ => UInt64.le_refl _, fun _ => UInt64.le_refl _⟩
  · simp only [ne_eq, h, not_false_eq_true, if_true, gt_iff_lt, decide_eq_true_eq,
      decide_eq_false_iff_not, UInt64.not_lt]
    exact ⟨UInt64.le_of_lt, id⟩

theorem pushEntry_perm (e : QueueEntry) : ∀ l : List QueueEntry, (pushEntry e l).Perm (e :: l)
  | [] => .refl _
  | top :: rest => by
    unfold pushEntry
    split
    · exact .refl _
    · exact ((pushEntry_perm e rest).cons top).trans (.swap e top rest)

variable {e : QueueEntry}

theorem mem_pushEntry {x : QueueEntry} {l : List QueueEntry} : x ∈ pushEntry e l ↔ x = e ∨ x ∈ l := by
  rw [(pushEntry_perm e l).mem_iff, List.mem_cons]

/-- Ordered by priority, smallest first. -/
abbrev ByPriority (l : List QueueEntry) : Prop := l.Pairwise fun a b => a.priority ≤ b.priority

theorem pushEntry_sorted : ∀ {l : List QueueEntry}, ByPriority l → ByPriority (pushEntry e l)
  | [], _ => List.pairwise_singleton _ _
  | top :: rest, h => by
    obtain ⟨h1, h2⟩ := List.pairwise_cons.1 h
    unfold pushEntry
    split
    · rename_i hl
      have hle := queueLater_priority.1 hl
      refine List.pairwise_cons.2 ⟨fun x hx => ?_, h⟩
      rcases List.mem_cons.1 hx with rfl | hx
      · exact hle
      · exact UInt64.le_trans hle (h1 x hx)
    · rename_i hl
      have hle := queueLater_priority.2 (by simpa using hl)
      refine List.pairwise_cons.2 ⟨fun x hx => ?_, pushEntry_sorted h2⟩
      rcases mem_pushEntry.1 hx with rfl | hx
      · exact hle
      · exact h1 x hx

/-- The queue holds each node at most once, under its own priority, and every live node. -/
structure QueueOk (program : Program) (s : Search) : Prop where
  sorted : ByPriority s.frontier
  entry : ∀ e ∈ s.frontier, e.nodeIndex < s.nodes.length ∧
    e = entryOf program e.nodeIndex (s.node e.nodeIndex)
  nodup : (s.frontier.map (·.nodeIndex)).Nodup
  live : ∀ i < s.nodes.length, (s.node i).live = true → ∃ e ∈ s.frontier, e.nodeIndex = i
  active : ActiveOk s

/-- Two labels of one dominance key that are not dominated are incomparable in (cost, depth). -/
def Antichain (s : Search) : Prop :=
  ∀ i < s.nodes.length, ∀ j < s.nodes.length, i ≠ j → (s.node i).dominated = false →
    (s.node j).dominated = false → (s.node i).state.dominanceKey = (s.node j).state.dominanceKey →
    ¬ ((s.node i).accumulatedCost ≤ (s.node j).accumulatedCost ∧
      (s.node i).state.depth ≤ (s.node j).state.depth)

variable {program : Program} {s : Search}

theorem entryOf_congr {a b : Node} (h : a.SameLabel b) (i : Nat) :
    entryOf program i a = entryOf program i b := by
  unfold entryOf priority
  rw [h.state, h.cost, h.ordinal]

theorem QueueOk.entryLive_iff (h : QueueOk program s) (he : e ∈ s.frontier) :
    s.entryLive e = (s.node e.nodeIndex).live := by
  obtain ⟨hlt, heq⟩ := h.entry e he
  have hord : (s.node e.nodeIndex).ordinal = e.ordinal := by
    conv_rhs => rw [heq]
    rfl
  simp [entryLive, Nat.not_le.2 hlt, hord]

theorem mem_dropWhile_of_not {α : Type} {p : α → Bool} {a : α} :
    ∀ {l : List α}, a ∈ l → p a = false → a ∈ l.dropWhile p
  | x :: l, h, hp => by
    by_cases hx : p x = true
    · rw [List.dropWhile_cons_of_pos hx]
      rcases List.mem_cons.1 h with rfl | h
      · rw [hp] at hx
        cases hx
      · exact mem_dropWhile_of_not h hp
    · rw [List.dropWhile_cons_of_neg hx]
      exact h

theorem QueueOk.discard (h : QueueOk program s) : QueueOk program s.discardStaleTop where
  sorted := h.sorted.sublist (List.dropWhile_sublist _)
  entry e he := h.entry e (List.dropWhile_subset _ he)
  nodup := h.nodup.sublist ((List.dropWhile_sublist _).map _)
  live i hi hl := by
    obtain ⟨e, he, rfl⟩ := h.live i hi hl
    refine ⟨e, mem_dropWhile_of_not he ?_, rfl⟩
    have hl : (s.node e.nodeIndex).live = true := hl
    simp [h.entryLive_iff he, hl]
  active := h.active

theorem discardStaleTop_top (h : QueueOk program s) {rest : List QueueEntry}
    (hf : s.discardStaleTop.frontier = e :: rest) :
    e.nodeIndex < s.nodes.length ∧ (s.node e.nodeIndex).live = true := by
  have he : e ∈ s.frontier :=
    List.dropWhile_subset (fun entry => !s.entryLive entry) (by
      have : e ∈ s.discardStaleTop.frontier := by rw [hf]; simp
      exact this)
  have hhead := List.head?_dropWhile_not (fun entry => !s.entryLive entry) s.frontier
  have hf' : s.frontier.dropWhile (fun entry => !s.entryLive entry) = e :: rest := hf
  rw [hf'] at hhead
  simp only [List.head?_cons] at hhead
  exact ⟨(h.entry e he).1, by rw [← h.entryLive_iff he]; simpa using hhead⟩

theorem closeTop_eq (s : Search) (e : QueueEntry) : s.closeTop e =
    { s with frontier := s.frontier.tail, nodes := (s.closeTop e).nodes,
             activeFrontierCount := (s.closeTop e).activeFrontierCount } := by
  unfold closeTop
  rw [decrementActive_eq]

theorem closeTop_node (h : e.nodeIndex < s.nodes.length) (i : Nat) : (s.closeTop e).node i =
      if i = e.nodeIndex then { s.node i with closed := true } else s.node i := by
  unfold closeTop
  rw [decrementActive_node]
  exact node_modify s e.nodeIndex i _ h

@[simp] theorem closeTop_length (s : Search) (e : QueueEntry) :
    (s.closeTop e).nodes.length = s.nodes.length := by
  simp [closeTop]

theorem closeTop_relabelled (h : e.nodeIndex < s.nodes.length) : Relabelled s (s.closeTop e) where
  length := closeTop_length s e
  label i := by
    rw [closeTop_node h]
    split <;> exact ⟨rfl, rfl, rfl, rfl, rfl, rfl⟩
  labels := by rw [closeTop_eq]
  identities key state hs := by rw [closeTop_eq]; exact hs
  transitionIds := by rw [closeTop_eq]; exact fun _ hx => hx

theorem QueueOk.close (h : QueueOk program s) {rest : List QueueEntry} (hf : s.frontier = e :: rest)
    (hlive : (s.node e.nodeIndex).live = true) : QueueOk program (s.closeTop e) := by
  have hlt := (h.entry e (by rw [hf]; simp)).1
  have hrest : (s.closeTop e).frontier = rest := by rw [closeTop_eq, hf]; rfl
  have hnd := h.nodup
  have hsorted := h.sorted
  rw [hf] at hnd hsorted
  rw [List.map_cons, List.nodup_cons] at hnd
  refine ⟨by rw [hrest]; exact (List.pairwise_cons.1 hsorted).2, fun x hx => ?_,
    by rw [hrest]; exact hnd.2, fun i hi hl => ?_, ?_⟩
  · rw [hrest] at hx
    obtain ⟨hxlt, hxe⟩ := h.entry x (by rw [hf]; exact List.mem_cons_of_mem _ hx)
    refine ⟨by rw [closeTop_length]; exact hxlt, ?_⟩
    rw [entryOf_congr ((closeTop_relabelled hlt).label _)]
    exact hxe
  · rw [closeTop_length] at hi
    rw [closeTop_node hlt] at hl
    by_cases hie : i = e.nodeIndex
    · simp [hie, Node.live] at hl
    · rw [if_neg hie] at hl
      obtain ⟨x, hx, rfl⟩ := h.live i hi hl
      rw [hf] at hx
      rcases List.mem_cons.1 hx with rfl | hx
      · exact absurd rfl hie
      · exact ⟨x, by rw [hrest]; exact hx, rfl⟩
  · have hcount := countP_modify_node s (fun node => { node with closed := true }) Node.live
      e.nodeIndex hlt
    have hclosed : Node.live { s.node e.nodeIndex with closed := true } = false := by
      simp [Node.live]
    simp only [hlive, hclosed, if_true, Bool.false_eq_true, if_false, Nat.add_zero] at hcount
    have hactive := h.active
    have hpos := live_count_pos hlt hlive
    unfold ActiveOk at hactive ⊢
    unfold closeTop
    rw [decrementActive_count (by simpa [hactive] using hpos), decrementActive_nodes]
    simp only [hactive]
    omega

theorem Antichain.relabel (h : Antichain s) (hr : Relabelled s s')
    (hd : ∀ i, (s'.node i).dominated = false → (s.node i).dominated = false) : Antichain s' := by
  intro i hi j hj hij hdi hdj hk hle
  rw [hr.length] at hi hj
  rw [(hr.label i).state, (hr.label j).state] at hk
  rw [(hr.label i).state, (hr.label j).state, (hr.label i).cost, (hr.label j).cost] at hle
  exact h i hi j hj hij (hd i hdi) (hd j hdj) hk hle

/-! ### Inserting -/

theorem QueueOk.mark (h : QueueOk program s) (hm : Marked s u) (ha : ActiveOk u) : QueueOk program u := by
  have hf : u.frontier = s.frontier := by rw [hm.frame]
  refine ⟨by rw [hf]; exact h.sorted, fun e he => ?_, by rw [hf]; exact h.nodup,
    fun i hi hl => ?_, ha⟩
  · rw [hf] at he
    obtain ⟨h1, h2⟩ := h.entry e he
    exact ⟨by rw [hm.length]; exact h1, by rw [entryOf_congr (hm.label _)]; exact h2⟩
  · rw [hm.length] at hi
    rw [hf]
    simp only [Node.live, Bool.and_eq_true, Bool.not_eq_true'] at hl
    refine h.live i hi ?_
    simp [Node.live, hm.dominated i hl.1, ← hm.closed i, hl.2]

theorem QueueOk.enqueue (h : QueueOk program s) {reopens : Bool} (hn : n.live = true)
    (hfit : s.activeFrontierCount.toNat + 1 < 2 ^ 64) :
    QueueOk program ((s.storeNode n).enqueue program s.nodes.length n reopens) := by
  have hnode : ∀ i, ((s.storeNode n).enqueue program s.nodes.length n reopens).node i =
      (s.storeNode n).node i := fun _ => rfl
  have hnot : s.nodes.length ∉ s.frontier.map (·.nodeIndex) := by
    intro hmem
    obtain ⟨e, he, heq⟩ := List.mem_map.1 hmem
    have := (h.entry e he).1
    omega
  refine ⟨pushEntry_sorted h.sorted, fun e he => ?_, ?_, fun i hi hl => ?_, ?_⟩
  · rw [hnode]
    rcases mem_pushEntry.1 he with rfl | he
    · exact ⟨by simp [Search.enqueue, entryOf], by simp [entryOf]⟩
    · obtain ⟨h1, h2⟩ := h.entry e he
      refine ⟨?_, by rw [storeNode_node_lt h1]; exact h2⟩
      have : (s.storeNode n).nodes.length = s.nodes.length + 1 := storeNode_length s n
      simp only [Search.enqueue]
      omega
  · refine (((pushEntry_perm _ s.frontier).map _).nodup_iff).2 ?_
    exact List.nodup_cons.2 ⟨hnot, h.nodup⟩
  · rw [hnode] at hl
    rcases storeNode_cases (n := n) hi with ⟨hlt, hi⟩ | ⟨rfl, -⟩
    · rw [hi] at hl
      obtain ⟨e, he, rfl⟩ := h.live i hlt hl
      exact ⟨e, mem_pushEntry.2 (.inr he), rfl⟩
    · exact ⟨_, mem_pushEntry.2 (.inl rfl), rfl⟩
  · have hactive := h.active
    unfold ActiveOk at hactive ⊢
    simp only [Search.enqueue, storeNode]
    rw [Checked.toNat_add_of_lt (by simpa using hfit), hactive, List.countP_append]
    simp [hn]

theorem Antichain.insert (h : Antichain s)
    (hu : Superseded n.state.dominanceKey n.accumulatedCost n.state.depth s u)
    (hnot : ∀ i < s.nodes.length, (s.node i).state.dominanceKey = n.state.dominanceKey →
      dominates (s.node i) n.accumulatedCost n.state.depth = false) : Antichain (u.storeNode n) := by
  -- an old label that survived neither dominates the new one nor is dominated by it
  have hnew : ∀ i < s.nodes.length, (u.node i).dominated = false →
      (u.node i).state.dominanceKey = n.state.dominanceKey →
      ¬ ((u.node i).accumulatedCost ≤ n.accumulatedCost ∧ (u.node i).state.depth ≤ n.state.depth) ∧
      ¬ (n.accumulatedCost ≤ (u.node i).accumulatedCost ∧ n.state.depth ≤ (u.node i).state.depth) := by
    intro i hi hd hk
    have hds := hu.dominated i hd
    rw [(hu.label i).state] at hk
    have hdom := hnot i hi hk
    have hnd : newDominates n.accumulatedCost n.state.depth (s.node i) = false := by
      cases hnd : newDominates n.accumulatedCost n.state.depth (s.node i) with
      | false => rfl
      | true =>
        rw [hu.node i hi, if_pos ⟨hk, hnd⟩] at hd
        cases hd
    rw [(hu.label i).cost, (hu.label i).state]
    simp only [dominates, newDominates, hds, Bool.not_false, Bool.true_and, Bool.and_eq_false_imp,
      decide_eq_true_eq, decide_eq_false_iff_not, Bool.or_eq_false_iff, UInt64.le_iff_toNat_le,
      UInt32.le_iff_toNat_le, UInt64.lt_iff_toNat_lt, UInt32.lt_iff_toNat_lt, Bool.and_eq_true] at hdom hnd ⊢
    omega
  have hold : Antichain u := h.relabel hu.relabelled hu.dominated
  intro i hi j hj hij hdi hdj hk
  rcases storeNode_cases hi with ⟨hi, hei⟩ | ⟨rfl, hei⟩ <;> rw [hei] at hdi hk ⊢ <;>
    rcases storeNode_cases hj with ⟨hj, hej⟩ | ⟨rfl, hej⟩ <;> rw [hej] at hdj hk ⊢
  · exact hold i hi j hj hij hdi hdj hk
  · exact (hnew i (hu.length ▸ hi) hdi hk).1
  · exact (hnew j (hu.length ▸ hj) hdj hk.symm).2
  · exact absurd rfl hij

end Search

end Laplace.QuerySearch
