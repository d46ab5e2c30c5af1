import Laplace.QuerySearch.Outcome
import Laplace.Lib.Cut

/-!
# Coverage: no continuation gets lost

With a provider that emits the transitions of each state, the labels that a search keeps are a
`Cut` of the emission graph: a closed label has all its transitions covered, unless it waits in the
batch or its transitions are still arriving (`Explored`). Closing, pruning, superseding and
reopening all keep this; only a reached budget loses labels, and that ends the run.
-/

namespace Laplace.QuerySearch

/-- The graph of a provider's emissions, weighted by the program. -/
def emissionGraph (program : Program) (emit : State → List Transition) : Graph State where
  edge source weight target := ∃ t ∈ emit source, t.target = target ∧ program.weight t = weight
  goal state := state.terminal = true

namespace Search

variable {blake3 : Blake3} {program : Program} {initials : List State}
  {emit : State → List Transition} {s t : Search}

/-- A kept node of this dominance key has at most this cost and depth. -/
def Covers (s : Search) (key : Digest256) (cost depth : Nat) : Prop :=
  ∃ i < s.nodes.length, (s.node i).dominated = false ∧ (s.node i).state.dominanceKey = key ∧
    (s.node i).accumulatedCost.toNat ≤ cost ∧ (s.node i).state.depth.toNat ≤ depth

theorem Covers.relabel {key : Digest256} {cost depth : Nat} (h : Covers s key cost depth)
    (hr : Relabelled s t) (hd : ∀ i, (t.node i).dominated = (s.node i).dominated) :
    Covers t key cost depth := by
  obtain ⟨i, hi, hdom, hkey, hcost, hdepth⟩ := h
  have hl := hr.label i
  exact ⟨i, by rw [hr.length]; exact hi, by rw [hd]; exact hdom, by rw [hl.state]; exact hkey,
    by rw [hl.cost]; exact hcost, by rw [hl.state]; exact hdepth⟩

/-! ## What a successful insertion does -/

/-- `t` is `s` after `InsertNode` succeeded within the budgets: old nodes keep their labels, at most
one node is new, and the inserted label and all that was covered before are covered. -/
structure Grown (state : State) (cost : UInt64) (parent : Nat) (incoming : Option Transition)
    (s t : Search) : Prop where
  length_le : s.nodes.length ≤ t.nodes.length
  label : ∀ i < s.nodes.length, (t.node i).SameLabel (s.node i)
  closed : ∀ i < s.nodes.length, (t.node i).closed = (s.node i).closed
  kept : ∀ i < s.nodes.length, (t.node i).dominated = false → (s.node i).dominated = false
  fresh : ∀ i, s.nodes.length ≤ i → i < t.nodes.length →
    ∃ u : Search, t.node i = u.newNode state cost parent incoming
  covers : ∀ key c d, Covers s key c d → Covers t key c d
  target : Covers t state.dominanceKey cost.toNat state.depth.toNat
  paths : t.paths = s.paths

theorem Superseded.covers_insert {state : State} {cost : UInt64} {parent : Nat}
    {incoming : Option Transition} {u : Search}
    (hu : Superseded state.dominanceKey cost state.depth (s.register state) u) {key : Digest256}
    {c d : Nat} (h : Covers s key c d) :
    Covers (u.storeNode (u.newNode state cost parent incoming)) key c d := by
  obtain ⟨i, hi, hdom, hkey, hcost, hdepth⟩ := h
  have hlen : u.nodes.length = s.nodes.length := hu.length
  by_cases hnew : (s.node i).state.dominanceKey = state.dominanceKey ∧
      newDominates cost state.depth (s.node i) = true
  · refine ⟨u.nodes.length, by rw [storeNode_length]; omega, ?_⟩
    rw [storeNode_node_last]
    simp only [newDominates, Bool.and_eq_true, decide_eq_true_eq, UInt64.le_iff_toNat_le,
      UInt32.le_iff_toNat_le] at hnew
    obtain ⟨hkey', ⟨⟨-, hc⟩, hd⟩, -⟩ := hnew
    exact ⟨rfl, hkey' ▸ hkey, Nat.le_trans hc hcost, Nat.le_trans hd hdepth⟩
  · have hnode : (u.storeNode (u.newNode state cost parent incoming)).node i = s.node i := by
      rw [storeNode_node_lt (by omega), hu.node i hi]
      exact if_neg hnew
    refine ⟨i, by rw [storeNode_length]; omega, ?_⟩
    rw [hnode]
    exact ⟨hdom, hkey, hcost, hdepth⟩

theorem InsertResult.grown {state : State} {cost : UInt64} {parent : Nat}
    {incoming : Option Transition} {inserted : Bool}
    (hr : InsertResult program state cost parent incoming s (.ok, inserted, t))
    (hx : t.resourceExhausted = false) : Grown state cost parent incoming s t := by
  generalize hres : (Status.ok, inserted, t) = r at hr
  cases hr with
  | identity | refused | overflow => cases hres
  | exhausted =>
    injection hres with _ hres
    injection hres with _ hres
    rw [hres] at hx
    cases hx
  | @pruned i hid hi hkey hdom =>
    injection hres with _ hres
    injection hres with _ hres
    subst hres
    simp only [dominates, Bool.and_eq_true, Bool.not_eq_true', decide_eq_true_eq,
      UInt64.le_iff_toNat_le, UInt32.le_iff_toNat_le] at hdom
    exact
      { length_le := Nat.le_refl _
        label := fun i _ => .refl _
        closed := fun _ _ => rfl
        kept := fun _ _ => id
        fresh := fun j hj hj' => absurd hj' (Nat.not_lt.2 hj)
        covers := fun _ _ _ => id
        target := ⟨i, hi, hdom.1.1, hkey, hdom.1.2, hdom.2⟩
        paths := rfl }
  | @inserted u reopens hid hnot hu hclosed hb ho =>
    injection hres with _ hres
    injection hres with _ hres
    subst hres
    have hlen : u.nodes.length = s.nodes.length := hu.length
    have hold : ∀ i < s.nodes.length,
        ((u.storeNode (u.newNode state cost parent incoming)).enqueue program u.nodes.length
          (u.newNode state cost parent incoming) reopens).node i = u.node i :=
      fun i hi => storeNode_node_lt (by omega)
    exact
      { length_le := by
          have := storeNode_length u (u.newNode state cost parent incoming)
          exact Nat.le_of_lt (by simp only [enqueue]; omega)
        label := fun i hi => by rw [hold i hi]; exact hu.label i
        closed := fun i hi => by rw [hold i hi]; exact hu.closed i
        kept := fun i hi hd => by rw [hold i hi] at hd; exact hu.dominated i hd
        fresh := fun i hi hi' => by
          rcases storeNode_cases hi' with ⟨hlt, -⟩ | ⟨-, he⟩
          · omega
          · exact ⟨_, he⟩
        covers := fun key c d hc => hu.covers_insert hc
        target := by
          refine ⟨u.nodes.length, by simp [enqueue, storeNode], ?_⟩
          have hlast : ((u.storeNode (u.newNode state cost parent incoming)).enqueue program
              u.nodes.length (u.newNode state cost parent incoming) reopens).node u.nodes.length =
              u.newNode state cost parent incoming := storeNode_node_last _ _
          rw [hlast]
          exact ⟨rfl, rfl, Nat.le_refl _, Nat.le_refl _⟩
        paths := by rw [hu.toMarked.frame]; rfl }

end Search

open Search

/-! ## What is still on its way in each phase -/

/-- Initial states that have not been inserted. -/
def Phase.awaiting : Phase → List State
  | .addInitial rest => rest
  | _ => []

/-- Closed nodes whose transitions have not been asked for. -/
def Phase.batch : Phase → List Nat
  | .pop _ _ batch => batch
  | .expand batch => batch
  | _ => []

/-- Closed nodes whose transitions are arriving. -/
def Phase.sources : Phase → List Nat
  | .insert sources _ => sources.map (·.2)
  | _ => []

def Phase.arriving : Phase → List Transition
  | .insert _ rest => rest
  | _ => []

/-- Whatever is on its way in `phase` is on its way in `phase'`. -/
structure Phase.Within (phase phase' : Phase) : Prop where
  awaiting : phase.awaiting ⊆ phase'.awaiting
  batch : phase.batch ⊆ phase'.batch
  sources : phase'.sources = phase.sources
  arriving : phase'.arriving = phase.arriving

theorem Phase.Within.refl (phase : Phase) : phase.Within phase :=
  ⟨List.Subset.refl _, List.Subset.refl _, rfl, rfl⟩

/-- Nothing is lost: initial states and emitted transitions are covered or on their way. -/
structure Explored (program : Program) (emit : State → List Transition) (initials : List State)
    (phase : Phase) (s : Search) : Prop where
  edge : ∀ i < s.nodes.length, (s.node i).hasParent = true →
    (s.node i).incoming ∈ emit (s.node (s.node i).parent).state
  initial : ∀ state ∈ initials,
    state ∈ phase.awaiting ∨ Covers s state.dominanceKey 0 state.depth.toNat
  closed : ∀ i < s.nodes.length, (s.node i).dominated = false → (s.node i).closed = true →
    (s.node i).state.terminal = false → (s.node i).state.depth < program.budget.maxDepth →
    i ∈ phase.batch ∨ ∀ t ∈ emit (s.node i).state, (i ∈ phase.sources ∧ t ∈ phase.arriving) ∨
      Covers s t.target.dominanceKey ((s.node i).accumulatedCost.toNat + program.weight t)
        ((s.node i).state.depth.toNat + 1)
  arriving : ∀ t ∈ phase.arriving, ∃ i ∈ phase.sources, t ∈ emit (s.node i).state

variable {blake3 : Blake3} {program : Program} {initials : List State}
  {emit : State → List Transition} {s t : Search}

variable {phase phase' : Phase}

theorem Explored.relabel (h : Explored program emit initials phase s) (hr : Relabelled s t)
    (hd : ∀ i, (t.node i).dominated = (s.node i).dominated)
    (hc : ∀ i < s.nodes.length, (t.node i).closed = true → (s.node i).closed = true ∨
      i ∈ phase'.batch ∨ (s.node i).state.terminal = true ∨
      program.budget.maxDepth ≤ (s.node i).state.depth)
    (hwithin : phase.Within phase') : Explored program emit initials phase' t where
  edge i hi hp := by
    rw [(hr.label i).hasParent] at hp
    rw [(hr.label i).incoming, (hr.label i).parent, (hr.label _).state]
    exact h.edge i (hr.length ▸ hi) hp
  initial state hm := (h.initial state hm).imp (fun h => hwithin.awaiting h) fun hc =>
    hc.relabel hr hd
  closed i hi hdom hcl ht hdepth := by
    rw [hr.length] at hi
    rw [(hr.label i).state] at ht hdepth ⊢
    rw [(hr.label i).cost]
    rw [hd] at hdom
    rcases hc i hi hcl with hcl | hmem | hterm | hcut
    · rcases h.closed i hi hdom hcl ht hdepth with hmem | hall
      · exact .inl (hwithin.batch hmem)
      · refine .inr fun tr htr => ?_
        rw [hwithin.sources, hwithin.arriving]
        exact (hall tr htr).imp id fun hc => hc.relabel hr hd
    · exact .inl hmem
    · rw [ht] at hterm
      cases hterm
    · exact absurd hdepth (UInt32.not_lt.2 hcut)
  arriving tr htr := by
    rw [hwithin.arriving] at htr
    rw [hwithin.sources]
    obtain ⟨i, hi, hm⟩ := h.arriving tr htr
    exact ⟨i, hi, by rw [(hr.label i).state]; exact hm⟩

theorem Explored.core (h : Explored program emit initials phase s) (hc : SameCore s t)
    (hwithin : phase.Within phase') : Explored program emit initials phase' t :=
  h.relabel hc.relabelled (fun i => by rw [hc.node])
    (fun i _ hcl => .inl (by rw [hc.node] at hcl; exact hcl)) hwithin

theorem Explored.discard (h : Explored program emit initials phase s) :
    Explored program emit initials phase s.discardStaleTop :=
  h.relabel (discardStaleTop_relabelled s) (fun _ => rfl) (fun _ _ hcl => .inl hcl) (.refl phase)

theorem Explored.popped {e : QueueEntry} (h : Explored program emit initials phase s)
    (hp : Popped s e t)
    (hnode : e.nodeIndex ∈ phase'.batch ∨ (s.node e.nodeIndex).state.terminal = true ∨
      program.budget.maxDepth ≤ (s.node e.nodeIndex).state.depth)
    (hwithin : phase.Within phase') : Explored program emit initials phase' t := by
  refine h.relabel hp.relabelled hp.dominated (fun i hi hcl => ?_) hwithin
  by_cases hie : i = e.nodeIndex
  · subst hie
    exact .inr hnode
  · rw [hp.node, if_neg hie] at hcl
    exact .inl hcl

theorem Explored.harvested {e : QueueEntry} (h : Explored program emit initials phase s)
    (hh : Harvested program initials s e t) (hwithin : phase.Within phase') :
    Explored program emit initials phase' t := by
  obtain ⟨u, path, hasher, hpop, -, -, -, -, rfl⟩ := hh.popped
  have hu := h.popped hpop (.inr (.inl hh.terminal)) hwithin
  exact hu.relabel (.of_nodes rfl rfl rfl fun _ hx => hx) (fun _ => rfl) (fun _ _ hcl => .inl hcl)
    (.refl _)

theorem Explored.insert {state : State} {cost : UInt64} {parent : Nat}
    {incoming : Option Transition} (h : Explored program emit initials phase s)
    (hst : Static program initials s) (hg : Grown state cost parent incoming s t)
    (hlt : ∀ i ∈ phase.sources, i < s.nodes.length)
    (hedge : ∀ tr, incoming = some tr → parent < s.nodes.length ∧ tr ∈ emit (s.node parent).state)
    (ha : ∀ x ∈ phase.awaiting, x ∈ phase'.awaiting ∨ Covers t x.dominanceKey 0 x.depth.toNat)
    (hb : phase'.batch = phase.batch) (hs : phase'.sources = phase.sources)
    (harr : phase'.arriving ⊆ phase.arriving)
    (hdone : ∀ i < s.nodes.length, i ∈ phase.sources → ∀ tr ∈ phase.arriving,
      tr ∈ emit (s.node i).state → tr ∈ phase'.arriving ∨ Covers t tr.target.dominanceKey
        ((s.node i).accumulatedCost.toNat + program.weight tr)
        ((s.node i).state.depth.toNat + 1)) : Explored program emit initials phase' t where
  edge i hi hp := by
    rcases Nat.lt_or_ge i s.nodes.length with hlt | hge
    · have hl := hg.label i hlt
      rw [hl.hasParent] at hp
      have hpar := (hst.derived i hlt hp).parent_lt
      rw [hl.incoming, hl.parent, (hg.label _ (by omega)).state]
      exact h.edge i hlt hp
    · obtain ⟨u, hu⟩ := hg.fresh i hge hi
      rw [hu] at hp ⊢
      obtain ⟨tr, rfl⟩ := Option.isSome_iff_exists.1 hp
      obtain ⟨hpl, hm⟩ := hedge tr rfl
      simp only [newNode, Option.getD_some]
      rw [(hg.label parent hpl).state]
      exact hm
  initial state hm := by
    rcases h.initial state hm with hw | hc
    · exact ha state hw
    · exact .inr (hg.covers _ _ _ hc)
  closed i hi hdom hcl ht hdepth := by
    rcases Nat.lt_or_ge i s.nodes.length with hlt | hge
    · have hl := hg.label i hlt
      rw [hl.state] at ht hdepth ⊢
      rw [hl.cost]
      rw [hg.closed i hlt] at hcl
      rcases h.closed i hlt (hg.kept i hlt hdom) hcl ht hdepth with hmem | hall
      · exact .inl (by rw [hb]; exact hmem)
      · refine .inr fun tr htr => ?_
        rw [hs]
        rcases hall tr htr with ⟨his, hta⟩ | hc
        · exact (hdone i hlt his tr hta htr).imp (fun h => ⟨his, h⟩) id
        · exact .inr (hg.covers _ _ _ hc)
    · obtain ⟨u, hu⟩ := hg.fresh i hge hi
      rw [hu] at hcl
      cases hcl
  arriving tr htr := by
    rw [hs]
    obtain ⟨i, hi, hm⟩ := h.arriving tr (harr htr)
    exact ⟨i, hi, by rw [(hg.label i (hlt i hi)).state]; exact hm⟩

/-! ## Along a run -/

/-- No label is lost while the search runs, and a run that ends with an empty queue has explored
everything. -/
structure ExploredAt {σ : Type} (program : Program) (emit : State → List Transition)
    (initials : List State) (e : Execution σ) : Prop where
  running : e.phase.running = true → Explored program emit initials e.phase e.search
  ended : e.phase = .halted .ok → e.search.stopAfterTerminal program = true ∨
    e.search.resourceExhausted = true ∨
    (Explored program emit initials e.phase e.search ∧
      ∀ i < e.search.nodes.length, (e.search.node i).live = false)

variable {σ : Type} {provider : Provider σ} {e e' : Execution σ}

variable {p : σ}

theorem ExploredAt.halted {status : Status} {s : Search}
    (h : status ≠ .ok ∨ s.stopAfterTerminal program = true ∨ s.resourceExhausted = true) :
    ExploredAt program emit initials (⟨.halted status, s, p⟩ : Execution σ) where
  running := nofun
  ended := by
    rintro ⟨rfl⟩
    rcases h with h | h | h
    · exact absurd rfl h
    · exact .inl h
    · exact .inr (.inl h)

theorem ExploredAt.of {s : Search} (hr : phase.running = true)
    (h : Explored program emit initials phase s) :
    ExploredAt program emit initials (⟨phase, s, p⟩ : Execution σ) where
  running _ := h
  ended hp := by
    simp only at hp
    rw [hp] at hr
    cases hr

theorem start_explored (state : σ) :
    ExploredAt program emit initials (start blake3 program initials state) := by
  unfold start
  split
  · exact .halted (.inl (by simp))
  · refine .of rfl ⟨?_, fun state hm => .inl hm, ?_, nofun⟩ <;>
      exact fun i hi => absurd hi (Nat.not_lt_zero i)

variable {tr : Transition}

theorem mem_sortTransitions {transitions : List Transition} :
    tr ∈ sortTransitions transitions ↔ tr ∈ transitions :=
  (List.perm_insertionSort _ _).mem_iff

theorem Explored.call (hem : Emits provider emit) {batch : List Nat} {reply : ExpansionReply}
    {p' : σ} (h : Explored program emit initials (.expand batch) s)
    (hreply : provider.expandBatch p (batch.map fun index => (s.node index).state)
      (batch.map fun index => (s.node index).accumulatedCost) (s.transitionCapacity program) =
        (reply, p'))
    (hok : reply.status = 0)
    (hshape : replyMalformed batch.length (s.transitionCapacity program) reply = false) :
    Explored program emit initials (.insert (s.sourceIndexes batch) (sortTransitions (received reply)))
      ((s.countCall batch.length).acceptReply reply) := by
  have hcore : SameCore s ((s.countCall batch.length).acceptReply reply) :=
    (countCall_core _ _).trans (acceptReply_core _ _)
  have hsources : (Phase.insert (s.sourceIndexes batch) (sortTransitions (received reply))).sources =
      batch := by
    simp [Phase.sources, sourceIndexes, Function.comp_def]
  have hcap : reply.transitionCount.toNat ≤ s.transitionCapacity program := by
    simp only [replyMalformed, Bool.or_eq_false_iff, decide_eq_false_iff_not, gt_iff_lt, not_lt] at hshape
    exact hshape.1.1.1.1.1.1
  have hperm := hem.complete p (batch.map fun index => (s.node index).state)
    (batch.map fun index => (s.node index).accumulatedCost) (s.transitionCapacity program)
  rw [hreply] at hperm
  have hmem : ∀ tr, tr ∈ sortTransitions (received reply) ↔
      ∃ i ∈ batch, tr ∈ emit (s.node i).state := by
    intro tr
    rw [mem_sortTransitions, (hperm hok hcap).mem_iff, List.mem_flatMap]
    simp
  exact
    { edge := fun i hi hp => by
        rw [hcore.nodes] at hi
        rw [hcore.node] at hp ⊢
        rw [hcore.node]
        exact h.edge i hi hp
      initial := fun state hm => (h.initial state hm).imp id fun hc =>
        hc.relabel hcore.relabelled fun i => by rw [hcore.node]
      closed := fun i hi hdom hcl ht hdepth => by
        rw [hcore.nodes] at hi
        rw [hcore.node] at hdom hcl ht hdepth ⊢
        refine .inr fun tr htr => ?_
        rw [hsources]
        rcases h.closed i hi hdom hcl ht hdepth with hmemb | hall
        · exact .inl ⟨hmemb, (hmem tr).2 ⟨i, hmemb, htr⟩⟩
        · rcases hall tr htr with ⟨hs, -⟩ | hc
          · cases hs
          · exact .inr (hc.relabel hcore.relabelled fun i => by rw [hcore.node])
      arriving := fun tr htr => by
        obtain ⟨i, hi, hm⟩ := (hmem tr).1 htr
        exact ⟨i, by rw [hsources]; exact hi, by rw [hcore.node]; exact hm⟩ }

theorem Search.Accepted.source_eq (hem : Emits provider emit) {sources : List (Digest256 × Nat)}
    {source : Nat} {accumulated : UInt64} (hc : Accepted blake3 program sources s tr source accumulated)
    (hs : SourcesOk program s sources) {i : Nat} (hi : i ∈ sources.map (·.2))
    (hm : tr ∈ emit (s.node i).state) : i = source := by
  obtain ⟨pair, hpair, rfl⟩ := List.mem_map.1 hi
  have hfound := lookupSource_mem hc.found
  have hkey : pair.1 = tr.sourceStateId := by
    rw [← hs.stateId pair hpair, hem.source _ tr hm]
  have := List.inj_on_of_nodup_map hs.nodup hpair hfound hkey
  rw [this]

theorem Explored.insertTransition (hem : Emits provider emit) {sources : List (Digest256 × Nat)}
    {rest : List Transition} {source : Nat} {accumulated : UInt64} {u : Search} {inserted : Bool}
    (h : Explored program emit initials (.insert sources (tr :: rest)) s)
    (hw : WellFormed program initials s) (hs : SourcesOk program s sources)
    (hc : Accepted blake3 program sources s tr source accumulated)
    (hg : Grown tr.target accumulated source (some tr)
      { s with transitionIds := tr.transitionId :: s.transitionIds } u) :
    Explored program emit initials (.insert sources rest) (u.hashInsertion tr inserted) := by
  let r : Search := { s with transitionIds := tr.transitionId :: s.transitionIds }
  have hr : Explored program emit initials (.insert sources (tr :: rest)) r :=
    ⟨h.edge, h.initial, h.closed, h.arriving⟩
  have hlt : ∀ i ∈ (Phase.insert sources (tr :: rest)).sources, i < r.nodes.length := by
    intro i hi
    obtain ⟨pair, hpair, rfl⟩ := List.mem_map.1 hi
    exact hs.lt pair hpair
  obtain ⟨i, hi, hm⟩ := h.arriving tr (by simp [Phase.arriving])
  have hisrc := hc.source_eq hem hs hi hm
  have hu : Explored program emit initials (.insert sources rest) u := by
    refine hr.insert (hw.record tr.transitionId).static hg hlt ?_ ?_ rfl rfl
      (List.subset_cons_self _ _) ?_
    · rintro _ ⟨rfl⟩
      subst hisrc
      exact ⟨hlt i hi, hm⟩
    · intro x hx
      cases hx
    · intro j hj hjs tr' htr' hjm
      rcases List.mem_cons.1 htr' with rfl | htr'
      · have hjsrc := hc.source_eq hem hs hjs hjm
        subst hjsrc
        refine .inr ?_
        have htarget := hg.target
        rw [hc.cost, hc.depth] at htarget
        exact htarget
      · exact .inl htr'
  exact hu.core (hashInsertion_core _ _ _) (.refl _)

theorem Move.explored (hem : Emits provider emit)
    (hm : Move blake3 program initials provider e e') (hg : Good program initials e)
    (hx : ExploredAt program emit initials e) : ExploredAt program emit initials e' := by
  obtain ⟨hw, hp, hxs⟩ := hg
  obtain ⟨h, -⟩ := hx
  cases hm with
  | settle => exact .of rfl ⟨(h rfl).edge, (h rfl).initial, (h rfl).closed, (h rfl).arriving⟩
  | initialInvalid => exact .halted (.inl (by simp))
  | initialFails hv hr hs => exact .halted (.inl hs)
  | initial hv hr hxt =>
    have hgrown := hr.grown hxt
    refine .of rfl ((h rfl).insert (hw rfl).static hgrown nofun nofun (fun x hx => ?_) rfl rfl
      (List.Subset.refl _) nofun)
    rcases List.mem_cons.1 hx with rfl | hx
    · exact .inr hgrown.target
    · exact .inl hx
  | harvestDone =>
    have hd := (h rfl).discard
    exact .of rfl ⟨hd.edge, hd.initial, hd.closed, hd.arriving⟩
  | @harvestPath s t p e hh =>
    have key : ∀ phase : Phase, phase = .harvest ∨ phase = .select →
        Explored program emit initials phase t := by
      rintro phase (rfl | rfl) <;> exact (h rfl).harvested hh ⟨nofun, nofun, rfl, rfl⟩
    split
    · exact .of rfl (key _ (.inr rfl))
    · exact .of rfl (key _ (.inl rfl))
  | enoughPaths hstop => exact .halted (.inr (.inl hstop))
  | @frontierEmpty s p hstop hf =>
    have hd := (h rfl).discard
    have hcore : SameCore s.discardStaleTop (finalize program blake3
        { s.discardStaleTop with frontierExhausted := true }) :=
      (exhaustFrontier_core _).trans (finalize_core _)
    refine ⟨nofun, fun _ => .inr (.inr ⟨hd.core hcore ⟨nofun, nofun, rfl, rfl⟩, fun i hi => ?_⟩)⟩
    rw [hcore.node]
    cases hl : (s.discardStaleTop.node i).live with
    | false => rfl
    | true =>
      obtain ⟨entry, hentry, -⟩ := (hw rfl).queue.discard.live i (hcore.nodes ▸ hi) hl
      rw [hf] at hentry
      cases hentry
  | budgetReached => exact .halted (.inr (.inr rfl))
  | openBatch =>
    have hd := (h rfl).discard
    exact .of rfl ⟨hd.edge, hd.initial, hd.closed, hd.arriving⟩
  | @popDone m limit batch s t p ht =>
    have hxt : Explored program emit initials (.pop m limit batch) t := by
      rcases ht with rfl | rfl
      · exact h rfl
      · exact (h rfl).discard
    unfold popBatchDone
    split
    · exact .halted (.inr (.inl ‹_›))
    split
    · rename_i hempty
      rw [List.isEmpty_iff] at hempty
      subst hempty
      exact .of rfl ⟨hxt.edge, hxt.initial, hxt.closed, hxt.arriving⟩
    · exact .of rfl ⟨hxt.edge, hxt.initial, hxt.closed, hxt.arriving⟩
  | popPath hh => exact .of rfl ((h rfl).harvested hh (.refl _))
  | popLastPath hh hm hstop => exact .halted (.inr (.inl hstop))
  | popNode hpop hm hl ht hd =>
    exact .of rfl ((h rfl).popped hpop (.inl (by simp [Phase.batch]))
      ⟨nofun, List.subset_append_left _ _, rfl, rfl⟩)
  | popCut hpop hm ht hd =>
    exact .of rfl ((h rfl).popped hpop (.inr (.inr hd)) (.refl _))
  | noRecordsLeft => exact .halted (.inr (.inr rfl))
  | callFails hs => exact .halted (.inl hs)
  | callLimited => exact .halted (.inr (.inr rfl))
  | call hreply hok hshape => exact .of rfl ((h rfl).call hem hreply hok hshape)
  | @insertDone sources s p =>
    have hxf : s.resourceExhausted = false := hxs rfl
    have hi := h rfl
    unfold expandBatchDone
    rw [hxf]
    refine .of rfl ⟨hi.edge, hi.initial, fun i hlt hdom hcl ht hd => ?_, nofun⟩
    refine (hi.closed i hlt hdom hcl ht hd).imp nofun fun hall tr htr => ?_
    rcases hall tr htr with ⟨-, hta⟩ | hc
    · cases hta
    · exact .inr hc
  | transitionInvalid hs => exact .halted (.inl hs)
  | insertFails hc hr hs => exact .halted (.inl hs)
  | insertLast hc hr hxu => exact .halted (.inr (.inr hxu))
  | insert hc hr hxu =>
    exact .of rfl ((h rfl).insertTransition hem (hw rfl) hp hc (hr.grown hxu))

theorem reachable_explored (hem : Emits provider emit) {state : σ}
    (h : Machine.Reaches (step blake3 program provider) (start blake3 program initials state) e) :
    ExploredAt program emit initials e :=
  reachable_keeps h (start_explored state) fun _ _ hg _ hm hx => hm.explored hem hg hx

end Laplace.QuerySearch
