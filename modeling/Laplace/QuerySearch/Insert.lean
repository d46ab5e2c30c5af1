import Laplace.QuerySearch.Search

/-!
# What `InsertNode` can do

`insertNode_result` lists the six ways in which `InsertNode` ends, each with the state it leaves
behind. The second loop is summed up by `Superseded`: the labels that the new one dominates are
marked, and nothing else of a node changes.
-/

namespace Laplace.QuerySearch

/-- The fields of a node that are never written again. -/
structure Node.SameLabel (left right : Node) : Prop where
  state : left.state = right.state
  cost : left.accumulatedCost = right.accumulatedCost
  parent : left.parent = right.parent
  incoming : left.incoming = right.incoming
  ordinal : left.ordinal = right.ordinal
  hasParent : left.hasParent = right.hasParent

theorem Node.SameLabel.refl (node : Node) : Node.SameLabel node node := ⟨rfl, rfl, rfl, rfl, rfl, rfl⟩

theorem Node.SameLabel.trans {a b c : Node} (h : Node.SameLabel a b) (h' : Node.SameLabel b c) :
    Node.SameLabel a c :=
  ⟨h.state.trans h'.state, h.cost.trans h'.cost, h.parent.trans h'.parent,
    h.incoming.trans h'.incoming, h.ordinal.trans h'.ordinal, h.hasParent.trans h'.hasParent⟩

namespace Search

/-! ## Nodes by index -/

theorem node_modify (s : Search) (index other : Nat) (f : Node → Node) (h : index < s.nodes.length) :
    (s.nodes.modify index f).getD other {} = if other = index then f (s.node other) else s.node other := by
  unfold node
  rw [List.getD_eq_getElem?_getD, List.getD_eq_getElem?_getD, List.getElem?_modify]
  by_cases hi : index = other
  · subst hi
    simp [List.getElem?_eq_getElem h]
  · simp [hi, Ne.symm hi]

theorem node_mem {s : Search} {i : Nat} (h : i < s.nodes.length) : s.node i ∈ s.nodes := by
  simp only [node, List.getD_eq_getElem?_getD, List.getElem?_eq_getElem h, Option.getD_some]
  exact List.getElem_mem h

theorem countP_modify {α : Type} (p : α → Bool) (f : α → α) : ∀ (l : List α) (i : Nat) (h : i < l.length),
      (l.modify i f).countP p + (if p l[i] then 1 else 0) = l.countP p + (if p (f l[i]) then 1 else 0)
  | [], _, h => by simp at h
  | a :: l, 0, _ => by
    simp only [List.modify_zero_cons, List.countP_cons, List.getElem_cons_zero]
    omega
  | a :: l, i + 1, h => by
    have ih := countP_modify p f l i (by simpa using h)
    simp only [List.modify_succ_cons, List.countP_cons, List.getElem_cons_succ]
    omega

/-- `active_frontier_count_` counts the nodes that are still to be popped. -/
def ActiveOk (s : Search) : Prop := s.activeFrontierCount.toNat = s.nodes.countP Node.live

theorem countP_modify_node (s : Search) (f : Node → Node) (p : Node → Bool) (index : Nat)
    (h : index < s.nodes.length) : (s.nodes.modify index f).countP p + (if p (s.node index) then 1 else 0) =
      s.nodes.countP p + (if p (f (s.node index)) then 1 else 0) := by
  have := countP_modify p f s.nodes index h
  simpa [node, List.getD_eq_getElem?_getD, List.getElem?_eq_getElem h] using this

theorem live_count_pos {s : Search} {i : Nat} (h : i < s.nodes.length) (hl : (s.node i).live = true) :
    0 < s.nodes.countP Node.live :=
  List.countP_pos_iff.2 ⟨_, node_mem h, hl⟩

theorem decrementActive_count {s : Search} (h : 0 < s.activeFrontierCount.toNat) :
    s.decrementActive.activeFrontierCount.toNat = s.activeFrontierCount.toNat - 1 := by
  have hne : (s.activeFrontierCount != 0) = true := by
    rw [bne_iff_ne, ne_eq, ← UInt64.toNat_inj, UInt64.toNat_zero]
    omega
  simp only [decrementActive, hne, if_true]
  exact Checked.toNat_sub_of_le h

theorem decrementActive_eq (s : Search) : s.decrementActive =
      { s with activeFrontierCount := s.decrementActive.activeFrontierCount } := by
  unfold decrementActive
  split <;> rfl

@[simp] theorem decrementActive_nodes (s : Search) : s.decrementActive.nodes = s.nodes := by
  rw [decrementActive_eq]

@[simp] theorem decrementActive_node (s : Search) (i : Nat) : s.decrementActive.node i = s.node i := by
  simp [node]

/-! ## The second loop -/

/-- `s'` is `s` after some labels were marked dominated. -/
structure Marked (s s' : Search) : Prop where
  frame : s' = { s with nodes := s'.nodes, activeFrontierCount := s'.activeFrontierCount }
  length : s'.nodes.length = s.nodes.length
  label : ∀ i, (s'.node i).SameLabel (s.node i)
  closed : ∀ i, (s'.node i).closed = (s.node i).closed
  dominated : ∀ i, (s'.node i).dominated = false → (s.node i).dominated = false

theorem Marked.refl (s : Search) : Marked s s := ⟨rfl, rfl, fun _ => .refl _, fun _ => rfl, fun _ => id⟩

theorem Marked.trans {s t u : Search} (h : Marked s t) (h' : Marked t u) : Marked s u where
  frame := by rw [h'.frame, h.frame]
  length := h'.length.trans h.length
  label i := (h'.label i).trans (h.label i)
  closed i := (h'.closed i).trans (h.closed i)
  dominated i hd := h.dominated i (h'.dominated i hd)

theorem markDominated_node {s : Search} {index : Nat} (h : index < s.nodes.length) (i : Nat) :
    (markDominated index s).node i = if i = index then { s.node i with dominated := true } else s.node i :=
  node_modify s index i _ h

/-- One marking of the second loop, with its decrement. -/
def markOld (index : Nat) (s : Search) : Search :=
  markDominated index (if (s.node index).closed then s else s.decrementActive)

theorem markOld_marked {s : Search} {index : Nat} (h : index < s.nodes.length) :
    Marked s (markOld index s) ∧ ∀ i, (markOld index s).node i =
        if i = index then { s.node i with dominated := true } else s.node i := by
  have key : ∀ t : Search, t = { s with activeFrontierCount := t.activeFrontierCount } →
      Marked s (markDominated index t) ∧ ∀ i, (markDominated index t).node i =
        if i = index then { s.node i with dominated := true } else s.node i := by
    intro t ht
    have hn : t.nodes = s.nodes := by rw [ht]
    have hnode : ∀ i, t.node i = s.node i := fun i => by simp [node, hn]
    have hmark : ∀ i, (markDominated index t).node i =
        if i = index then { s.node i with dominated := true } else s.node i := by
      intro i
      rw [markDominated_node (by rw [hn]; exact h), hnode]
    refine ⟨⟨by rw [ht]; rfl, by simp [markDominated, hn], fun i => ?_, fun i => ?_, fun i => ?_⟩,
      hmark⟩
    · rw [hmark]
      split <;> exact ⟨rfl, rfl, rfl, rfl, rfl, rfl⟩
    · rw [hmark]
      split <;> rfl
    · rw [hmark]
      split
      · exact nofun
      · exact id
  unfold markOld
  split
  · exact key s rfl
  · exact key _ (decrementActive_eq s)

theorem markOld_active {s : Search} {index : Nat} (h : index < s.nodes.length)
    (hd : (s.node index).dominated = false) (ha : ActiveOk s) : ActiveOk (markOld index s) := by
  have hcount := countP_modify_node s (fun old => { old with dominated := true }) Node.live index h
  simp only [Node.live, hd, Bool.not_false, Bool.true_and, Bool.not_true, Bool.false_and,
    Bool.false_eq_true, if_false, Nat.add_zero] at hcount
  unfold ActiveOk markOld markDominated
  cases hc : (s.node index).closed with
  | true =>
    simp only [hc, Bool.not_true, Bool.false_eq_true, if_false, Nat.add_zero] at hcount
    simp only [if_true]
    rw [ha]
    exact hcount.symm
  | false =>
    simp only [hc, Bool.not_false, if_true] at hcount
    simp only [Bool.false_eq_true, if_false, decrementActive_nodes]
    have hpos := live_count_pos h (by simp [Node.live, hd, hc])
    rw [decrementActive_count (by rw [ha]; exact hpos), ha]
    have : s.nodes.countP Node.live = s.nodes.countP fun n => !n.dominated && !n.closed := rfl
    omega

variable {program : Program} {cost : UInt64} {depth : UInt32}

theorem newDominates_not_dominated {old : Node} (h : newDominates cost depth old = true) :
    old.dominated = false := by
  simp only [newDominates, Bool.and_eq_true, Bool.not_eq_true'] at h
  exact h.1.1.1

theorem supersede_cons {index : Nat} {rest : List Nat} {reopens : Bool} {s : Search} :
    supersede program cost depth (index :: rest) reopens s = if newDominates cost depth (s.node index) then
        if (s.node index).closed && !program.has Flag.allowReopen then
          (.providerContract, reopens, s)
        else supersede program cost depth rest (reopens || (s.node index).closed) (markOld index s)
      else supersede program cost depth rest reopens s := rfl

theorem supersede_marked :
    ∀ (labels : List Nat) (reopens : Bool) (s : Search), (∀ i ∈ labels, i < s.nodes.length) →
      Marked s (supersede program cost depth labels reopens s).2.2 ∧
        (ActiveOk s → ActiveOk (supersede program cost depth labels reopens s).2.2)
  | [], _, s, _ => ⟨.refl s, id⟩
  | index :: rest, reopens, s, hl => by
    have hi := hl index (by simp)
    have hrest : ∀ i ∈ rest, i < s.nodes.length := fun i h => hl i (by simp [h])
    rw [supersede_cons]
    split
    · rename_i hnew
      split
      · exact ⟨.refl s, id⟩
      · obtain ⟨hm, -⟩ := markOld_marked hi
        obtain ⟨h1, h2⟩ := supersede_marked rest (reopens || (s.node index).closed) (markOld index s)
          (by rw [hm.length]; exact hrest)
        exact ⟨hm.trans h1, fun ha => h2 (markOld_active hi (newDominates_not_dominated hnew) ha)⟩
    · exact supersede_marked rest reopens s hrest

/-- When the loop ends, exactly the dominated labels are marked, and none of them was closed unless
the program allows reopening. -/
theorem supersede_ok : ∀ (labels : List Nat) (reopens reopens' : Bool) (s s' : Search),
      (∀ i ∈ labels, i < s.nodes.length) →
      supersede program cost depth labels reopens s = (.ok, reopens', s') →
      (∀ j, s'.node j = if j ∈ labels ∧ newDominates cost depth (s.node j) = true then
        { s.node j with dominated := true } else s.node j) ∧
      (∀ j ∈ labels, newDominates cost depth (s.node j) = true → (s.node j).closed = true →
        program.has Flag.allowReopen = true)
  | [], reopens, reopens', s, s', _, h => by
    simp only [supersede, Prod.mk.injEq, true_and] at h
    obtain ⟨-, rfl⟩ := h
    simp
  | index :: rest, reopens, reopens', s, s', hl, h => by
    have hi := hl index (by simp)
    have hrest : ∀ i ∈ rest, i < s.nodes.length := fun i h => hl i (by simp [h])
    rw [supersede_cons] at h
    split at h
    · rename_i hnew
      split at h
      · cases h
      · rename_i hcl
        obtain ⟨hm, hnode⟩ := markOld_marked hi
        obtain ⟨h1, h2⟩ := supersede_ok rest _ _ _ _ (by rw [hm.length]; exact hrest) h
        have hmarked : newDominates cost depth { s.node index with dominated := true } = false := by
          simp [newDominates]
        refine ⟨fun j => ?_, fun j hj hn hc => ?_⟩
        · rw [h1 j, hnode j]
          by_cases hji : j = index
          · subst hji
            simp [hmarked, hnew]
          · simp [hji]
        · by_cases hji : j = index
          · subst hji
            simpa [hc] using hcl
          · refine h2 j ?_ (by rwa [hnode j, if_neg hji]) (by rwa [hnode j, if_neg hji])
            simpa [hji] using hj
    · rename_i hnew
      obtain ⟨h1, h2⟩ := supersede_ok rest _ _ _ _ hrest h
      refine ⟨fun j => ?_, fun j hj hn hc => ?_⟩
      · rw [h1 j]
        by_cases hji : j = index
        · subst hji
          simp [hnew]
        · simp [hji]
      · rcases List.mem_cons.1 hj with rfl | hj
        · exact absurd hn hnew
        · exact h2 j hj hn hc

theorem supersede_status (labels : List Nat) (reopens : Bool) (s : Search) :
    (supersede program cost depth labels reopens s).1 = .ok ∨
      (supersede program cost depth labels reopens s).1 = .providerContract := by
  induction labels generalizing reopens s with
  | nil => exact .inl rfl
  | cons index rest ih =>
    rw [supersede_cons]
    split
    · split
      · exact .inr rfl
      · exact ih _ _
    · exact ih _ _

/-! ## The whole of `InsertNode` -/

/-- The search after `RegisterIdentity` accepted `state`. -/
def register (state : State) (s : Search) : Search :=
  { s with identities := Function.update s.identities state.stateId (some state) }

theorem registerIdentity_cases (state : State) (s : Search) :
    (registerIdentity state s = (.ok, s.register state) ∧
        ∀ found, s.identities state.stateId = some found → found = state) ∨
      (registerIdentity state s = (.providerContract, s) ∧
        ∃ found, s.identities state.stateId = some found ∧ found ≠ state) := by
  unfold registerIdentity
  cases h : s.identities state.stateId with
  | none => exact .inl ⟨rfl, fun _ hf => by cases hf⟩
  | some found =>
    by_cases hs : found = state
    · subst hs
      refine .inl ⟨?_, fun _ hf => by injection hf with hf; exact hf.symm⟩
      have hupd : Function.update s.identities found.stateId (some found) = s.identities := by
        rw [← h, Function.update_eq_self]
      simp only [sameState_iff.2 rfl, if_true, register, hupd]
    · refine .inr ⟨?_, found, rfl, hs⟩
      simp [sameState_iff, hs]

/-- The indexes filed under a dominance key. -/
def LabelsOk (s : Search) : Prop :=
  ∀ key, s.labels key =
    (List.range s.nodes.length).filter fun i => (s.node i).state.dominanceKey = key

theorem LabelsOk.mem {s : Search} (h : LabelsOk s) {key : Digest256} {i : Nat} :
    i ∈ s.labels key ↔ i < s.nodes.length ∧ (s.node i).state.dominanceKey = key := by
  rw [h key, List.mem_filter, List.mem_range, decide_eq_true_eq]

/-- `s'` is `s` with every label that the new one dominates marked. -/
structure Superseded (key : Digest256) (cost : UInt64) (depth : UInt32) (s s' : Search) : Prop
    extends Marked s s' where
  active : ActiveOk s → ActiveOk s'
  node : ∀ j < s.nodes.length, s'.node j =
    if (s.node j).state.dominanceKey = key ∧ newDominates cost depth (s.node j) = true then
      { s.node j with dominated := true } else s.node j

/-- How `InsertNode` can end on `s`. Past the identity check `t` is the search with the state
registered, past the second loop `u` is the one with the dominated labels marked. -/
inductive InsertResult (program : Program) (state : State) (cost : UInt64) (parent : Nat)
    (incoming : Option Transition) (s : Search) : Status × Bool × Search → Prop
  | identity {found : State} (hf : s.identities state.stateId = some found) (hne : found ≠ state) :
    InsertResult program state cost parent incoming s (.providerContract, false, s)
  | pruned {i : Nat} (hid : ∀ found, s.identities state.stateId = some found → found = state)
    (hi : i < s.nodes.length) (hkey : (s.node i).state.dominanceKey = state.dominanceKey)
    (hdom : dominates (s.node i) cost state.depth = true) :
    InsertResult program state cost parent incoming s (.ok, false, (s.register state).prune)
  | refused {u : Search} (hu : Marked (s.register state) u) (ha : ActiveOk s → ActiveOk u) :
    InsertResult program state cost parent incoming s (.providerContract, false, u)
  | exhausted {u : Search}
    (hid : ∀ found, s.identities state.stateId = some found → found = state)
    (hu : Superseded state.dominanceKey cost state.depth (s.register state) u)
    (hb : u.insertBudgetReached program = true) :
    InsertResult program state cost parent incoming s
      (.ok, false, { u with resourceExhausted := true })
  | overflow {u : Search} (hu : Superseded state.dominanceKey cost state.depth (s.register state) u)
    (hb : u.insertBudgetReached program = false)
    (ho : priorityOverflows program (u.newNode state cost parent incoming) = true) :
    InsertResult program state cost parent incoming s
      (.overflow, false, u.storeNode (u.newNode state cost parent incoming))
  | inserted {u : Search} {reopens : Bool}
    (hid : ∀ found, s.identities state.stateId = some found → found = state)
    (hnot : ∀ i < s.nodes.length, (s.node i).state.dominanceKey = state.dominanceKey →
      dominates (s.node i) cost state.depth = false)
    (hu : Superseded state.dominanceKey cost state.depth (s.register state) u)
    (hclosed : ∀ i < s.nodes.length, (s.node i).state.dominanceKey = state.dominanceKey →
      newDominates cost state.depth (s.node i) = true → (s.node i).closed = true →
      program.has Flag.allowReopen = true)
    (hb : u.insertBudgetReached program = false)
    (ho : priorityOverflows program (u.newNode state cost parent incoming) = false) :
    InsertResult program state cost parent incoming s
      (.ok, true, (u.storeNode (u.newNode state cost parent incoming)).enqueue program
        u.nodes.length (u.newNode state cost parent incoming) reopens)

theorem insertNode_result {s : Search} (hl : LabelsOk s) (state : State) (cost : UInt64)
    (parent : Nat) (incoming : Option Transition) : InsertResult program state cost parent incoming s
      (insertNode program state cost parent incoming s) := by
  unfold insertNode
  rcases registerIdentity_cases state s with ⟨hreg, hid⟩ | ⟨hreg, found, hf, hne⟩
  swap
  · rw [hreg]
    exact .identity hf hne
  rw [hreg]
  have hmem : ∀ i, i ∈ (s.register state).labels state.dominanceKey ↔
      i < s.nodes.length ∧ (s.node i).state.dominanceKey = state.dominanceKey := fun i => hl.mem
  have hlt : ∀ i ∈ (s.register state).labels state.dominanceKey,
      i < (s.register state).nodes.length := fun i hi => ((hmem i).1 hi).1
  simp only
  split
  · rename_i hany
    obtain ⟨i, hi, hdom⟩ := List.any_eq_true.1 hany
    exact .pruned hid ((hmem i).1 hi).1 ((hmem i).1 hi).2 hdom
  rename_i hany
  have hnot : ∀ i < s.nodes.length, (s.node i).state.dominanceKey = state.dominanceKey →
      dominates (s.node i) cost state.depth = false := by
    intro i hi hk
    cases hd : dominates (s.node i) cost state.depth with
    | false => rfl
    | true => exact absurd (List.any_eq_true.2 ⟨i, (hmem i).2 ⟨hi, hk⟩, hd⟩) hany
  obtain ⟨hmarked, hactive⟩ := @supersede_marked program cost state.depth _ false _ hlt
  have hstatus := @supersede_status program cost state.depth
    ((s.register state).labels state.dominanceKey) false (s.register state)
  generalize hr : supersede program cost state.depth
    ((s.register state).labels state.dominanceKey) false (s.register state) = r at *
  obtain ⟨status, reopens, u⟩ := r
  rcases hstatus with rfl | rfl
  swap
  · exact .refused hmarked hactive
  obtain ⟨hnode, hclosed⟩ := supersede_ok _ _ _ _ _ hlt hr
  have hu : Superseded state.dominanceKey cost state.depth (s.register state) u :=
    { hmarked with
      active := hactive
      node := fun j hj => by
        have hj : j < s.nodes.length := hj
        rw [hnode j]
        simp only [hmem, hj, true_and]
        rfl }
  simp only
  split
  · rename_i hb
    exact .exhausted hid hu hb
  rename_i hb
  split
  · rename_i ho
    exact .overflow hu (by simpa using hb) ho
  · rename_i ho
    exact .inserted hid hnot hu (fun i hi hk hn hc => hclosed i ((hmem i).2 ⟨hi, hk⟩) hn hc)
      (by simpa using hb) (by simpa using ho)

end Search

end Laplace.QuerySearch
