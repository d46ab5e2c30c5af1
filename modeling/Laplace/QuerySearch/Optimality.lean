import Laplace.QuerySearch.Harvest

/-!
# Optimality and completeness

`Bounded` carries the argument of a best-first search: nothing that is still open continues to a
terminal state below the cost of the last path. A path is found on top of the queue, so its cost
bounds what is open from below, and by `Graph.Cut.covers_root` every continuation of an initial
state is settled by a harvested label or passes through an open one. Hence the first path is the
cheapest, the costs do not fall, and an empty queue without a path means that there is none.
-/

namespace Laplace.QuerySearch

open Laplace.Checked Search

/-- States of one dominance key that a run can meet have the same continuations to a terminal state,
with the same number of transitions and the same cost. -/
def DominanceLaw (program : Program) (emit : State → List Transition) (initials : List State) : Prop :=
  (emissionGraph program emit).Congruent (· ∈ initials) State.dominanceKey

/-- The heuristic cost of a state that a run can meet is at most the cost of any continuation within
the depth limit; so it is zero on terminal states. -/
def AdmissibleHeuristic (program : Program) (emit : State → List Transition) (initials : List State) :
    Prop :=
  ∀ state, (emissionGraph program emit).Reachable (· ∈ initials) state →
    ∀ k w, (emissionGraph program emit).Continues state k w →
      state.depth.toNat + k ≤ program.budget.maxDepth.toNat → state.heuristicCost.toNat ≤ w

variable {blake3 : Blake3} {program : Program} {initials : List State}
  {emit : State → List Transition} {s t : Search}

/-! ## The cut of a search -/

/-- The graph has the emissions of the states that are expanded, the ones that are not terminal, and
no other edges outside its goals. -/
structure Spans (program : Program) (emit : State → List Transition) (G : Graph State) : Prop where
  edge : ∀ source, source.terminal = false → ∀ t ∈ emit source,
    G.edge source (program.weight t) t.target
  of_edge : ∀ source weight target, G.edge source weight target → ¬ G.goal source →
    source.terminal = false ∧ ∃ t ∈ emit source, t.target = target ∧ program.weight t = weight

theorem emissionGraph_spans : Spans program emit (emissionGraph program emit) where
  edge _ _ t ht := ⟨t, ht, rfl, rfl⟩
  of_edge _ _ _ he hgoal := ⟨by simpa only [emissionGraph, Bool.not_eq_true] using hgoal, he⟩

variable {G : Graph State}

theorem node_reachable {phase : Phase} (hG : Spans program emit G) (hst : Static program initials s)
    (hx : Explored program emit initials phase s) :
    ∀ i < s.nodes.length, G.Reachable (· ∈ initials) (s.node i).state := by
  intro i
  induction i using Nat.strongRecOn with
  | ind i ih =>
    intro hi
    cases hp : (s.node i).hasParent with
    | false => exact .root (hst.root i hi hp).2
    | true =>
      have hd := hst.derived i hi hp
      have he := hG.edge _ hd.expandable _ (hx.edge i hi hp)
      rw [hd.target] at he
      exact .edge (ih _ hd.parent_lt (Nat.lt_trans hd.parent_lt hi)) he

theorem node_continues {phase : Phase} (hG : Spans program emit G) (hst : Static program initials s)
    (hx : Explored program emit initials phase s) :
    ∀ i < s.nodes.length, ∀ k w, G.Continues (s.node i).state k w →
      ∃ first ∈ initials, ∃ d, G.Continues first (d + k) ((s.node i).accumulatedCost.toNat + w) ∧
        first.depth.toNat + d = (s.node i).state.depth.toNat := by
  intro i
  induction i using Nat.strongRecOn with
  | ind i ih =>
    intro hi k w hc
    cases hp : (s.node i).hasParent with
    | false =>
      obtain ⟨hcost, hmem⟩ := hst.root i hi hp
      exact ⟨_, hmem, 0, by simpa [hcost] using hc, rfl⟩
    | true =>
      have hd := hst.derived i hi hp
      have he := hG.edge _ hd.expandable _ (hx.edge i hi hp)
      rw [hd.target] at he
      have hstep : G.Continues (s.node (s.node i).parent).state (k + 1)
          (program.weight (s.node i).incoming + w) := .step he hc
      obtain ⟨first, hf, d, hcont, hdepth⟩ :=
        ih _ hd.parent_lt (Nat.lt_trans hd.parent_lt hi) _ _ hstep
      refine ⟨first, hf, d + 1, ?_, by rw [hd.depth]; omega⟩
      have hk : d + 1 + k = d + (k + 1) := by omega
      rw [hd.cost, hk, Nat.add_assoc]
      exact hcont

/-- The labels that the search keeps. -/
def Search.labelSet (s : Search) : Set (Label State) :=
  { l | ∃ i < s.nodes.length, (s.node i).dominated = false ∧
    l = ⟨(s.node i).state, (s.node i).accumulatedCost.toNat, (s.node i).state.depth.toNat⟩ }

/-- Node `i` has still to be expanded, or its transitions are arriving. -/
def OpenNode (phase : Phase) (s : Search) (i : Nat) : Prop :=
  (s.node i).live = true ∨ i ∈ phase.batch ∨ i ∈ phase.sources

def OpenLabel (phase : Phase) (s : Search) (l : Label State) : Prop :=
  ∃ i < s.nodes.length, OpenNode phase s i ∧
    l = ⟨(s.node i).state, (s.node i).accumulatedCost.toNat, (s.node i).state.depth.toNat⟩

theorem Search.Covers.coveredBy {key : Digest256} {cost depth : Nat} (h : Covers s key cost depth) :
    Graph.CoveredBy s.labelSet State.dominanceKey key cost depth := by
  obtain ⟨i, hi, hd, hkey, hc, hdepth⟩ := h
  exact ⟨_, ⟨i, hi, hd, rfl⟩, hkey, hc, hdepth⟩

theorem Explored.cut {phase : Phase} (hG : Spans program emit G) (hst : Static program initials s)
    (hx : Explored program emit initials phase s) :
    G.Cut (· ∈ initials) State.dominanceKey program.budget.maxDepth.toNat s.labelSet
      (OpenLabel phase s) where
  reachable := by
    rintro _ ⟨i, hi, -, rfl⟩
    exact node_reachable hG hst hx i hi
  covered := by
    rintro _ ⟨i, hi, hd, rfl⟩ hopen hgoal hdepth c u he
    obtain ⟨hterm, tr, htr, rfl, rfl⟩ := hG.of_edge _ _ _ he hgoal
    have hno : ¬ OpenNode phase s i := fun h => hopen ⟨i, hi, h, rfl⟩
    simp only [OpenNode, not_or] at hno
    have hclosed : (s.node i).closed = true := by
      have := hno.1
      simpa [Node.live, hd] using this
    rcases hx.closed i hi hd hclosed hterm (UInt32.lt_iff_toNat_lt.2 hdepth) with hb | hall
    · exact absurd hb hno.2.1
    · rcases hall tr htr with ⟨hs, -⟩ | hc
      · exact absurd hs hno.2.2
      · exact hc.coveredBy

/-- A continuation of an initial state is settled by a kept goal node that is as good, or continues
from an open one. -/
theorem Explored.settles {phase : Phase} (hG : Spans program emit G)
    (hlaw : G.Congruent (· ∈ initials) State.dominanceKey)
    (hst : Static program initials s) (hx : Explored program emit initials phase s)
    (haw : phase.awaiting = []) {first : State} (hf : first ∈ initials) {k w : Nat}
    (hc : G.Continues first k w) (hd : first.depth.toNat + k ≤ program.budget.maxDepth.toNat) :
    (∃ i < s.nodes.length, (s.node i).dominated = false ∧ G.goal (s.node i).state ∧
        (s.node i).accumulatedCost.toNat ≤ w ∧ (s.node i).state.depth.toNat ≤ first.depth.toNat + k) ∨
      ∃ i < s.nodes.length, OpenNode phase s i ∧ ∃ k' w', G.Continues (s.node i).state k' w' ∧
        (s.node i).state.depth.toNat + k' ≤ program.budget.maxDepth.toNat ∧
        (s.node i).accumulatedCost.toNat + w' ≤ w := by
  have hcov : Covers s first.dominanceKey 0 first.depth.toNat := by
    rcases hx.initial first hf with h | h
    · rw [haw] at h
      cases h
    · exact h
  rcases (hx.cut hG hst).covers_root hlaw (.root hf) hcov.coveredBy hc hd with
    ⟨_, ⟨i, hi, hdom, rfl⟩, hg, hcost, hdepth⟩ |
    ⟨_, -, ⟨i, hi, hopen, rfl⟩, k', w', hcont, hcost, hdepth⟩
  · exact .inl ⟨i, hi, hdom, hg, by simpa using hcost, hdepth⟩
  · simp only [Nat.zero_add] at hcost
    exact .inr ⟨i, hi, hopen, k', w', hcont, Nat.le_trans hdepth hd, hcost⟩

/-! ## The priority bounds what continues -/

theorem priority_congr {a b : Node} (h : a.SameLabel b) : priority program a = priority program b := by
  unfold priority
  rw [h.state, h.cost]

theorem le_priority (n : Node) : n.accumulatedCost.toNat ≤ (priority program n).toNat := by
  unfold priority
  split
  · exact Nat.le_refl _
  · cases h : checkedAdd n.accumulatedCost n.state.heuristicCost with
    | none => exact UInt64.le_iff_toNat_le.1 (le_maxWord _)
    | some c =>
      rw [Option.getD_some, checkedAdd_eq_some.1 h]
      exact Nat.le_add_right _ _

theorem priority_le {phase : Phase}
    (hadm : program.has Flag.astar = true → AdmissibleHeuristic program emit initials)
    (hst : Static program initials s) (hx : Explored program emit initials phase s) {i : Nat}
    (hi : i < s.nodes.length) {k w : Nat} (hc : (emissionGraph program emit).Continues (s.node i).state k w)
    (hd : (s.node i).state.depth.toNat + k ≤ program.budget.maxDepth.toNat) :
    (priority program (s.node i)).toNat ≤ (s.node i).accumulatedCost.toNat + w := by
  unfold priority
  split
  · exact Nat.le_add_right _ _
  · rename_i hastar
    have hh := hadm (by simpa using hastar) _ (node_reachable emissionGraph_spans hst hx i hi) k w hc hd
    cases h : checkedAdd (s.node i).accumulatedCost (s.node i).state.heuristicCost with
    | none =>
      have := checkedAdd_eq_none.1 h
      rw [Option.getD_none, toNat_maxWord]
      omega
    | some c =>
      rw [Option.getD_some, checkedAdd_eq_some.1 h]
      omega

/-! ## The bound -/

/-- Nothing that is still open continues to a terminal state below `bound`, and the paths found so
far do not cost more. -/
structure Bounded (program : Program) (emit : State → List Transition) (phase : Phase) (s : Search)
    (bound : Nat) : Prop where
  paths : ∀ path ∈ s.paths, path.summary.totalCost.toNat ≤ bound
  opened : ∀ i < s.nodes.length, OpenNode phase s i → ∀ k w,
    (emissionGraph program emit).Continues (s.node i).state k w →
    (s.node i).state.depth.toNat + k ≤ program.budget.maxDepth.toNat →
    bound ≤ (s.node i).accumulatedCost.toNat + w

/-- The costs of the paths do not fall, each is the cost of a continuation of an initial state, and
under the dominance law the first one is a lower bound of all of these. -/
structure Ordered (program : Program) (emit : State → List Transition) (initials : List State)
    (s : Search) : Prop where
  sorted : s.paths.Pairwise fun a b => a.summary.totalCost.toNat ≤ b.summary.totalCost.toNat
  best : DominanceLaw program emit initials → ∀ path ∈ s.paths.head?, ∀ first ∈ initials, ∀ k w,
    (emissionGraph program emit).Continues first k w →
    first.depth.toNat + k ≤ program.budget.maxDepth.toNat → path.summary.totalCost.toNat ≤ w
  attained : ∀ path ∈ s.paths, ∃ first ∈ initials, ∃ k,
    (emissionGraph program emit).Continues first k path.summary.totalCost.toNat ∧
    first.depth.toNat + k ≤ program.budget.maxDepth.toNat

/-- The nodes of a batch share the priority that the batch was opened with, and there is no path
before the first harvest. -/
def Levelled (program : Program) : Phase → Search → Prop
  | .addInitial _, s => s.paths = []
  | .pop m _ batch, s => ∀ i ∈ batch, priority program (s.node i) = m
  | _, _ => True

/-- The invariant of a best-first run. -/
structure BestFirst {σ : Type} (program : Program) (emit : State → List Transition)
    (initials : List State) (e : Execution σ) : Prop where
  bounded : e.phase.running = true → ∃ bound, Bounded program emit e.phase e.search bound
  ordered : e.phase.failed = false → Ordered program emit initials e.search
  levelled : Levelled program e.phase e.search

theorem Ordered.of_paths (h : Ordered program emit initials s) (hp : t.paths = s.paths) :
    Ordered program emit initials t :=
  ⟨by rw [hp]; exact h.sorted, by rw [hp]; exact h.best, by rw [hp]; exact h.attained⟩

theorem Bounded.relabel {phase phase' : Phase} {bound : Nat} (h : Bounded program emit phase s bound)
    (hr : Relabelled s t) (hp : t.paths = s.paths)
    (ho : ∀ i < s.nodes.length, OpenNode phase' t i → OpenNode phase s i) :
    Bounded program emit phase' t bound where
  paths := by rw [hp]; exact h.paths
  opened i hi hopen := by
    rw [hr.length] at hi
    rw [(hr.label i).state, (hr.label i).cost]
    exact h.opened i hi (ho i hi hopen)

theorem Bounded.phase {phase phase' : Phase} {bound : Nat} (h : Bounded program emit phase s bound)
    (hb : phase'.batch ⊆ phase.batch) (hs : phase'.sources ⊆ phase.sources) :
    Bounded program emit phase' s bound :=
  h.relabel (.of_nodes rfl rfl rfl fun _ hx => hx) rfl fun _ _ ho =>
    ho.imp id (Or.imp (fun h => hb h) fun h => hs h)

theorem Search.SameCore.openNode {phase : Phase} {i : Nat} (hc : SameCore s t) :
    OpenNode phase t i ↔ OpenNode phase s i := by
  unfold OpenNode
  rw [hc.node]

theorem Bounded.core {phase : Phase} {bound : Nat} (h : Bounded program emit phase s bound)
    (hc : SameCore s t) : Bounded program emit phase t bound :=
  h.relabel hc.relabelled hc.paths fun _ _ ho => hc.openNode.1 ho

theorem Bounded.popped {phase phase' : Phase} {e : QueueEntry} {bound : Nat}
    (h : Bounded program emit phase s bound) (hp : Popped s e t)
    (hb : ∀ i ∈ phase'.batch, i ∈ phase.batch ∨ i = e.nodeIndex) (hs : phase'.sources ⊆ phase.sources) :
    Bounded program emit phase' t bound := by
  refine h.relabel hp.relabelled (by rw [hp.frame]) fun i _ ho => ?_
  rcases ho with hl | hm | hm
  · rw [hp.node] at hl
    split at hl
    · simp [Node.live] at hl
    · exact .inl hl
  · rcases hb i hm with hm | rfl
    · exact .inr (.inl hm)
    · exact .inl hp.live
  · exact .inr (.inr (hs hm))

theorem terminal_priority {phase : Phase}
    (hadm : program.has Flag.astar = true → AdmissibleHeuristic program emit initials)
    (hst : Static program initials s) (hx : Explored program emit initials phase s) {i : Nat}
    (hi : i < s.nodes.length) (ht : (s.node i).state.terminal = true) :
    (priority program (s.node i)).toNat = (s.node i).accumulatedCost.toNat :=
  Nat.le_antisymm
    (priority_le hadm hst hx hi (.here ht) (stateValid_depth (hst.valid i hi)))
    (le_priority _)

theorem harvested_level {phase : Phase} {e : QueueEntry} {u : Search}
    (hadm : program.has Flag.astar = true → AdmissibleHeuristic program emit initials)
    (hw : WellFormed program initials s) (hx : Explored program emit initials phase s)
    (hp : Popped s e u) (ht : (s.node e.nodeIndex).state.terminal = true)
    (hbatch : ∀ i ∈ phase.batch, i < s.nodes.length ∧ priority program (s.node i) = e.priority)
    (hsources : phase.sources = []) {i : Nat} (hi : i < s.nodes.length) (ho : OpenNode phase s i)
    {k w : Nat} (hc : (emissionGraph program emit).Continues (s.node i).state k w)
    (hd : (s.node i).state.depth.toNat + k ≤ program.budget.maxDepth.toNat) :
    (s.node e.nodeIndex).accumulatedCost.toNat ≤ (s.node i).accumulatedCost.toNat + w := by
  obtain ⟨heq, hleast⟩ := hp.least hw.queue
  have hpe : e.priority = priority program (s.node e.nodeIndex) := by
    rw [heq]
    rfl
  have hpi : e.priority.toNat ≤ (priority program (s.node i)).toNat := by
    rcases ho with hl | hm | hm
    · exact UInt64.le_iff_toNat_le.1 (hleast i hi hl)
    · rw [(hbatch i hm).2]
    · rw [hsources] at hm
      cases hm
  rw [← terminal_priority hadm hw.static hx hp.lt ht, ← hpe]
  exact Nat.le_trans hpi (priority_le hadm hw.static hx hi hc hd)

theorem Bounded.harvested {phase : Phase} {e : QueueEntry} {bound : Nat} {harvest : List Nat}
    (hadm : program.has Flag.astar = true → AdmissibleHeuristic program emit initials)
    (hw : WellFormed program initials s) (hx : Explored program emit initials phase s)
    (hb : Bounded program emit phase s bound) (ho : Ordered program emit initials s)
    (hh : HarvestOk s harvest) (h : Harvested program initials s e t)
    (haw : phase.awaiting = []) (hsources : phase.sources = [])
    (hbatch : ∀ i ∈ phase.batch, i < s.nodes.length ∧ priority program (s.node i) = e.priority) :
    (∃ bound, Bounded program emit phase t bound) ∧ Ordered program emit initials t := by
  have ht := h.terminal
  obtain ⟨u, path, hasher, hp, -, hcost, -, -, rfl⟩ := h.popped
  have hlevel : ∀ i < s.nodes.length, OpenNode phase s i → ∀ k w,
      (emissionGraph program emit).Continues (s.node i).state k w →
      (s.node i).state.depth.toNat + k ≤ program.budget.maxDepth.toNat →
      path.summary.totalCost.toNat ≤ (s.node i).accumulatedCost.toNat + w := by
    intro i hi hopen k w hc hd
    rw [hcost]
    exact harvested_level hadm hw hx hp ht hbatch hsources hi hopen hc hd
  have hle : bound ≤ path.summary.totalCost.toNat := by
    rw [hcost]
    exact hb.opened e.nodeIndex hp.lt (.inl hp.live) 0 0 (.here ht)
      (stateValid_depth (hw.static.valid _ hp.lt))
  have hpaths : ∀ q ∈ s.paths, q.summary.totalCost.toNat ≤ path.summary.totalCost.toNat :=
    fun q hq => Nat.le_trans (hb.paths q hq) hle
  refine ⟨⟨path.summary.totalCost.toNat, fun q hq => ?_, ?_⟩, ?_, ?_, fun q hq => ?_⟩
  · rcases List.mem_append.1 hq with hq | hq
    · exact hpaths q hq
    · rw [List.mem_singleton.1 hq]
  · have hopen : Bounded program emit phase s path.summary.totalCost.toNat := ⟨hpaths, hlevel⟩
    have hu : Bounded program emit phase u path.summary.totalCost.toNat :=
      hopen.popped hp (fun _ => .inl) (List.Subset.refl _)
    exact hu.opened
  · refine List.pairwise_append.2 ⟨ho.sorted, List.pairwise_singleton _ _, fun q hq r hr => ?_⟩
    rw [List.mem_singleton.1 hr]
    exact hpaths q hq
  · intro hlaw q hq first hf k w hc hd
    cases hnil : s.paths with
    | cons q' rest =>
      have : q ∈ s.paths.head? := by
        rw [hnil]
        simpa [hnil] using hq
      exact ho.best hlaw q this first hf k w hc hd
    | nil =>
      have hqp : q = path := by
        have : path = q := by simpa [hnil] using hq
        exact this.symm
      rw [hqp]
      have hnone : harvest = [] := by
        have := hh.costs
        rw [hnil] at this
        simpa using this.symm
      rcases hx.settles emissionGraph_spans hlaw hw.static haw hf hc hd with
        ⟨i, hi, hdom, hterm, hle, -⟩ | ⟨i, hi, hopen, k', w', hcont, hdepth, hle⟩
      · have hlive : (s.node i).live = true := by
          cases hcl : (s.node i).closed with
          | true =>
            have := (hh.mem i).2 ⟨hi, hcl, hterm⟩
            rw [hnone] at this
            cases this
          | false => simp [Node.live, hdom, hcl]
        have := hlevel i hi (.inl hlive) 0 0 (.here hterm) (stateValid_depth (hw.static.valid i hi))
        omega
      · exact Nat.le_trans (hlevel i hi hopen k' w' hcont hdepth) hle
  · rcases List.mem_append.1 hq with hq | hq
    · exact ho.attained q hq
    · obtain ⟨first, hf, d, hc, hd⟩ := node_continues emissionGraph_spans hw.static hx e.nodeIndex
        hp.lt 0 0 (.here ht)
      rw [List.mem_singleton.1 hq, hcost]
      exact ⟨first, hf, d, hc, hd ▸ stateValid_depth (hw.static.valid _ hp.lt)⟩

theorem Bounded.grown {phase phase' : Phase} {bound : Nat} {state : State} {cost : UInt64}
    {parent : Nat} {incoming : Option Transition} (h : Bounded program emit phase s bound)
    (hg : Grown state cost parent incoming s t) (hb : phase'.batch = [])
    (hbs : phase'.sources = phase.sources) (hnew : ∀ k w, (emissionGraph program emit).Continues state k w →
      state.depth.toNat + k ≤ program.budget.maxDepth.toNat → bound ≤ cost.toNat + w) :
    Bounded program emit phase' t bound where
  paths := by rw [hg.paths]; exact h.paths
  opened i hi hopen k w hc hd := by
    rcases Nat.lt_or_ge i s.nodes.length with hold | hge
    · have hl := hg.label i hold
      rw [hl.state] at hc hd
      rw [hl.cost]
      refine h.opened i hold ?_ k w hc hd
      rcases hopen with hlive | hm | hm
      · simp only [Node.live, Bool.and_eq_true, Bool.not_eq_true'] at hlive
        rw [hg.closed i hold] at hlive
        exact .inl (by simp [Node.live, hg.kept i hold hlive.1, hlive.2])
      · rw [hb] at hm
        cases hm
      · rw [hbs] at hm
        exact .inr (.inr hm)
    · obtain ⟨u, hu⟩ := hg.fresh i hge hi
      rw [hu] at hc hd ⊢
      exact hnew k w hc hd

/-! ## Along a run -/

variable {σ : Type} {provider : Provider σ} {e e' : Execution σ}

theorem start_bestFirst (state : σ) :
    BestFirst program emit initials (start blake3 program initials state) := by
  unfold start
  split <;> exact
    ⟨fun _ => ⟨0, nofun, fun i hi => absurd hi (Nat.not_lt_zero i)⟩, fun _ => ⟨.nil, nofun, nofun⟩,
      by trivial⟩

theorem BestFirst.halted {status : Status} {s : Search} {p : σ}
    (h : status ≠ .ok ∨ Ordered program emit initials s) :
    BestFirst program emit initials (⟨.halted status, s, p⟩ : Execution σ) where
  bounded := nofun
  ordered hf := by
    rcases h with h | h
    · simp [Phase.failed, h] at hf
    · exact h
  levelled := trivial

theorem Move.bestFirst (hem : Emits provider emit)
    (hadm : program.has Flag.astar = true → AdmissibleHeuristic program emit initials)
    (hm : Move blake3 program initials provider e e') (hg : Good program initials e)
    (hx : ExploredAt program emit initials e) (hh : HarvestAt e)
    (hb : BestFirst program emit initials e) : BestFirst program emit initials e' := by
  obtain ⟨hw, hp, hxs⟩ := hg
  obtain ⟨hx, -⟩ := hx
  obtain ⟨hbd, ho, hlev⟩ := hb
  cases hm with
  | settle =>
    obtain ⟨b, h⟩ := hbd rfl
    exact ⟨fun _ => ⟨b, h.phase nofun nofun⟩, ho, trivial⟩
  | initialInvalid => exact .halted (.inl (by simp))
  | initialFails hv hr hs => exact .halted (.inl hs)
  | @initial state rest s t p hv hr hxt =>
    have hgr := hr.grown hxt
    have hnil : s.paths = [] := hlev
    obtain ⟨b, h⟩ := hbd rfl
    have h0 : Bounded program emit (.addInitial (state :: rest)) s 0 := by
      refine ⟨fun q hq => ?_, fun _ _ _ _ _ _ _ => Nat.zero_le _⟩
      rw [hnil] at hq
      cases hq
    exact ⟨fun _ => ⟨0, h0.grown hgr rfl rfl fun _ _ _ _ => Nat.zero_le _⟩,
      fun _ => (ho rfl).of_paths hgr.paths, hgr.paths.trans hnil⟩
  | @harvestDone s p =>
    obtain ⟨b, h⟩ := hbd rfl
    exact ⟨fun _ => ⟨b, (h.relabel (discardStaleTop_relabelled s) rfl fun _ _ ho => ho).phase
      nofun nofun⟩, fun _ => (ho rfl).of_paths rfl, trivial⟩
  | @harvestPath s t p e hpath =>
    obtain ⟨b, h⟩ := hbd rfl
    obtain ⟨harvest, hharvest⟩ := hh rfl (hxs rfl)
    obtain ⟨⟨b', hb'⟩, ho'⟩ := h.harvested hadm (hw rfl) (hx rfl) (ho rfl) hharvest hpath rfl
      rfl nofun
    split <;> exact ⟨fun _ => ⟨b', hb'.phase nofun nofun⟩, fun _ => ho', trivial⟩
  | enoughPaths => exact .halted (.inr ((ho rfl).of_paths rfl))
  | frontierEmpty => exact .halted (.inr ((ho rfl).of_paths rfl))
  | budgetReached => exact .halted (.inr ((ho rfl).of_paths rfl))
  | @openBatch s p =>
    obtain ⟨b, h⟩ := hbd rfl
    exact ⟨fun _ => ⟨b, (h.relabel (discardStaleTop_relabelled s) rfl fun _ _ ho => ho).phase
      nofun nofun⟩, fun _ => (ho rfl).of_paths rfl, nofun⟩
  | @popDone m limit batch s t p ht =>
    obtain ⟨b, h⟩ := hbd rfl
    have hbt : Bounded program emit (.pop m limit batch) t b := by
      rcases ht with rfl | rfl
      · exact h
      · exact h.relabel (discardStaleTop_relabelled s) rfl fun _ _ ho => ho
    have hot : Ordered program emit initials t := by
      rcases ht with rfl | rfl <;> exact (ho rfl).of_paths rfl
    unfold popBatchDone
    split
    · exact .halted (.inr (hot.of_paths rfl))
    split
    · exact ⟨fun _ => ⟨b, hbt.phase nofun nofun⟩, fun _ => hot, trivial⟩
    · exact ⟨fun _ => ⟨b, hbt.phase (List.Subset.refl _) nofun⟩, fun _ => hot, trivial⟩
  | @popPath m limit batch s t p e hpath hm =>
    obtain ⟨b, h⟩ := hbd rfl
    obtain ⟨harvest, hharvest⟩ := hh rfl (hxs rfl)
    obtain ⟨hb', ho'⟩ := h.harvested hadm (hw rfl) (hx rfl) (ho rfl) hharvest hpath rfl
      rfl fun i hi => ⟨hp.lt i hi, (hlev i hi).trans hm.symm⟩
    refine ⟨fun _ => hb', fun _ => ho', fun i hi => ?_⟩
    obtain ⟨u, path, hasher, hpop, -, -, -, -, rfl⟩ := hpath.popped
    exact (priority_congr (hpop.relabelled.label i)).trans (hlev i hi)
  | @popLastPath m limit batch s t p e hpath hm =>
    obtain ⟨b, h⟩ := hbd rfl
    obtain ⟨harvest, hharvest⟩ := hh rfl (hxs rfl)
    obtain ⟨-, ho'⟩ := h.harvested hadm (hw rfl) (hx rfl) (ho rfl) hharvest hpath rfl
      rfl fun i hi => ⟨hp.lt i hi, (hlev i hi).trans hm.symm⟩
    exact .halted (.inr (ho'.of_paths rfl))
  | @popNode m limit batch s t p e hpop hm =>
    obtain ⟨b, h⟩ := hbd rfl
    refine ⟨fun _ => ⟨b, h.popped hpop (fun i hi => ?_) (List.Subset.refl _)⟩,
      fun _ => (ho rfl).of_paths (by rw [hpop.frame]), fun i hi => ?_⟩
    · simpa [Phase.batch] using hi
    · rw [priority_congr (hpop.relabelled.label i)]
      rcases List.mem_append.1 hi with hi | hi
      · exact hlev i hi
      · rw [List.mem_singleton.1 hi, ← hm, (hpop.least (hw rfl).queue).1]
        rfl
  | @popCut m limit batch s t p e hpop hm =>
    obtain ⟨b, h⟩ := hbd rfl
    exact ⟨fun _ => ⟨b, h.popped hpop (fun i hi => .inl hi) (List.Subset.refl _)⟩,
      fun _ => (ho rfl).of_paths (by rw [hpop.frame]), fun i hi =>
        (priority_congr (hpop.relabelled.label i)).trans (hlev i hi)⟩
  | noRecordsLeft => exact .halted (.inr ((ho rfl).of_paths rfl))
  | callFails hs => exact .halted (.inl hs)
  | callLimited => exact .halted (.inr ((ho rfl).of_paths rfl))
  | @call batch s p p' reply =>
    obtain ⟨b, h⟩ := hbd rfl
    have hcore : SameCore s ((s.countCall batch.length).acceptReply reply) :=
      (countCall_core _ _).trans (acceptReply_core _ _)
    refine ⟨fun _ => ⟨b, h.relabel hcore.relabelled hcore.paths fun i _ hopen => ?_⟩,
      fun _ => (ho rfl).of_paths rfl, trivial⟩
    rcases hcore.openNode.1 hopen with hl | hmb | hms
    · exact .inl hl
    · cases hmb
    · have : i ∈ batch := by
        simpa [Phase.sources, sourceIndexes, Function.comp_def] using hms
      exact .inr (.inl this)
  | @insertDone sources s p =>
    obtain ⟨b, h⟩ := hbd rfl
    unfold expandBatchDone
    split
    · exact .halted (.inr ((ho rfl).of_paths rfl))
    · exact ⟨fun _ => ⟨b, h.phase nofun nofun⟩, fun _ => ho rfl, trivial⟩
  | transitionInvalid hs => exact .halted (.inl hs)
  | insertFails hc hr hs => exact .halted (.inl hs)
  | @insertLast sources tr rest s u p source accumulated inserted hc hr hxu =>
    have hpaths : u.paths = s.paths := hr.frame.1
    exact .halted (.inr ((ho rfl).of_paths hpaths))
  | @insert sources tr rest s u p source accumulated inserted hc hr hxu =>
    obtain ⟨b, h⟩ := hbd rfl
    have hgr := hr.grown hxu
    have hrec : Bounded program emit (.insert sources (tr :: rest))
        { s with transitionIds := tr.transitionId :: s.transitionIds } b := ⟨h.paths, h.opened⟩
    have hfound := lookupSource_mem hc.found
    have hsource : source ∈ sources.map (·.2) := List.mem_map_of_mem hfound
    obtain ⟨i, hi, hmem⟩ := (hx rfl).arriving tr (by simp [Phase.arriving])
    have hisrc := hc.source_eq hem hp hi hmem
    subst hisrc
    have hu : Bounded program emit (.insert sources rest) u b := by
      refine hrec.grown hgr rfl rfl fun k w hk hd => ?_
      have hcont : (emissionGraph program emit).Continues (s.node i).state (k + 1)
          (program.weight tr + w) := .step ⟨tr, hmem, rfl, rfl⟩ hk
      have hdepth := hc.depth
      have hle : b ≤ (s.node i).accumulatedCost.toNat + (program.weight tr + w) :=
        h.opened i (hp.lt _ hfound) (.inr (.inr hsource)) _ _ hcont (by simp only; omega)
      rw [hc.cost]
      omega
    exact ⟨fun _ => ⟨b, hu.core (hashInsertion_core _ _ _)⟩, fun _ => (ho rfl).of_paths hgr.paths, trivial⟩

theorem reachable_bestFirst (hem : Emits provider emit)
    (hadm : program.has Flag.astar = true → AdmissibleHeuristic program emit initials) {state : σ}
    (h : Machine.Reaches (step blake3 program provider) (start blake3 program initials state) e) :
    BestFirst program emit initials e := by
  refine (reachable_keeps (P := fun e => ExploredAt program emit initials e ∧ HarvestAt e ∧
    BestFirst program emit initials e) h
    ⟨start_explored state, start_harvest state, start_bestFirst state⟩ fun _ _ hg _ hm hp => ?_).2.2
  obtain ⟨hx, hh, hb⟩ := hp
  exact ⟨hm.explored hem hg hx, hm.harvest hg hh, hm.bestFirst hem hadm hg hx hh hb⟩

theorem reachable_harvest {state : σ}
    (h : Machine.Reaches (step blake3 program provider) (start blake3 program initials state) e) :
    HarvestAt e :=
  reachable_keeps h (start_harvest state) fun _ _ hg _ hm hh => hm.harvest hg hh

end Laplace.QuerySearch
