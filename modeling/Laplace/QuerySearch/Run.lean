import Laplace.QuerySearch.Moves

/-!
# The invariant of a run

`PhaseOk` says what the batch and the source map of each phase are good for; together with
`WellFormed` it is kept by every move, so it holds at every point of every run, whatever the
provider answers (`reachable_good`).
-/

namespace Laplace.QuerySearch

open Laplace.Checked

namespace Search

variable {blake3 : Blake3} {program : Program} {initials : List State} {s t : Search}

/-! ## What each operation keeps -/

/-- `t` differs from `s` at most in the receipt, the hasher and the flags. -/
structure SameCore (s t : Search) : Prop where
  nodes : t.nodes = s.nodes
  frontier : t.frontier = s.frontier
  labels : t.labels = s.labels
  identities : t.identities = s.identities
  transitionIds : t.transitionIds = s.transitionIds
  active : t.activeFrontierCount = s.activeFrontierCount
  paths : t.paths = s.paths

theorem SameCore.node (h : SameCore s t) (i : Nat) : t.node i = s.node i := by
  rw [Search.node, Search.node, h.nodes]

theorem SameCore.relabelled (h : SameCore s t) : Relabelled s t :=
  .of_nodes h.nodes h.labels h.identities (by rw [h.transitionIds]; exact fun _ hx => hx)

theorem SameCore.wellFormed (h : SameCore s t) (hw : WellFormed program initials s) :
    WellFormed program initials t where
  static := hw.static.relabel h.relabelled
  queue :=
    { sorted := by rw [h.frontier]; exact hw.queue.sorted
      entry := fun e he => by
        rw [h.frontier] at he
        rw [h.nodes, h.node]
        exact hw.queue.entry e he
      nodup := by rw [h.frontier]; exact hw.queue.nodup
      live := fun i hi hl => by
        rw [h.nodes] at hi
        rw [h.node] at hl
        rw [h.frontier]
        exact hw.queue.live i hi hl
      active := by
        unfold ActiveOk
        rw [h.active, h.nodes]
        exact hw.queue.active }
  antichain := hw.antichain.relabel h.relabelled fun i hd => by rwa [h.node] at hd
  sound := by rw [h.paths]; exact hw.sound
  ranked := by rw [h.paths]; exact hw.ranked

theorem finalize_core (s : Search) : SameCore s (s.finalize program blake3) :=
  ⟨rfl, rfl, rfl, rfl, rfl, rfl, rfl⟩

theorem countCall_core (n : Nat) (s : Search) : SameCore s (s.countCall n) :=
  ⟨rfl, rfl, rfl, rfl, rfl, rfl, rfl⟩

theorem acceptReply_core (reply : ExpansionReply) (s : Search) : SameCore s (s.acceptReply reply) :=
  ⟨rfl, rfl, rfl, rfl, rfl, rfl, rfl⟩

theorem exhaust_core (s : Search) : SameCore s { s with resourceExhausted := true } :=
  ⟨rfl, rfl, rfl, rfl, rfl, rfl, rfl⟩

theorem exhaustFrontier_core (s : Search) : SameCore s { s with frontierExhausted := true } :=
  ⟨rfl, rfl, rfl, rfl, rfl, rfl, rfl⟩

theorem hashInsertion_core (tr : Transition) (inserted : Bool) (s : Search) :
    SameCore s (s.hashInsertion tr inserted) :=
  ⟨rfl, rfl, rfl, rfl, rfl, rfl, rfl⟩

theorem prune_core (s : Search) : SameCore s s.prune := ⟨rfl, rfl, rfl, rfl, rfl, rfl, rfl⟩

variable {u : Search}

theorem SameCore.trans (h : SameCore s t) (h' : SameCore t u) : SameCore s u :=
  ⟨h'.nodes.trans h.nodes, h'.frontier.trans h.frontier, h'.labels.trans h.labels,
    h'.identities.trans h.identities, h'.transitionIds.trans h.transitionIds,
    h'.active.trans h.active, h'.paths.trans h.paths⟩

theorem WellFormed.discard (h : WellFormed program initials s) :
    WellFormed program initials s.discardStaleTop where
  static := h.static.relabel (discardStaleTop_relabelled s)
  queue := h.queue.discard
  antichain := h.antichain
  sound := h.sound
  ranked := h.ranked

variable {e : QueueEntry}

theorem Popped.dominated (h : Popped s e t) (i : Nat) : (t.node i).dominated = (s.node i).dominated := by
  rw [h.node]
  split <;> rfl

theorem Popped.wellFormed (h : Popped s e t) (hw : WellFormed program initials s) :
    WellFormed program initials t where
  static := hw.static.relabel h.relabelled
  queue := h.queue hw.queue
  antichain := hw.antichain.relabel h.relabelled fun i hd => by rwa [h.dominated] at hd
  sound := by rw [h.frame]; exact hw.sound
  ranked := by rw [h.frame]; exact hw.ranked

theorem WellFormed.append {path : Path} {hasher : List UInt8} (hw : WellFormed program initials s)
    (hp : PathSound program initials path) (hr : path.summary.rank = UInt32.ofNat (s.paths.length + 1)) :
    WellFormed program initials { s with paths := s.paths ++ [path], executionHasher := hasher } where
  static := hw.static.relabel (.of_nodes rfl rfl rfl fun _ hx => hx)
  queue := ⟨hw.queue.sorted, hw.queue.entry, hw.queue.nodup, hw.queue.live, hw.queue.active⟩
  antichain := hw.antichain
  sound := by
    intro p hmem
    rcases List.mem_append.1 hmem with hmem | hmem
    · exact hw.sound p hmem
    · rw [List.mem_singleton.1 hmem]
      exact hp
  ranked := by
    intro k hk
    simp only [List.length_append, List.length_singleton] at hk
    rcases Nat.lt_or_ge k s.paths.length with hlt | hge
    · rw [List.getElem_append_left hlt]
      exact hw.ranked k hlt
    · have : k = s.paths.length := by omega
      subst this
      simpa using hr

theorem Harvested.wellFormed (h : Harvested program initials s e t)
    (hw : WellFormed program initials s) : WellFormed program initials t := by
  obtain ⟨u, path, hasher, hpop, hsound, -, -, hrank, rfl⟩ := h.popped
  have hu := hpop.wellFormed hw
  have hpaths : u.paths = s.paths := by rw [hpop.frame]
  rw [← hpaths] at hrank ⊢
  exact hu.append hsound hrank

/-! ## Inserting -/

/-- What the caller of `InsertNode` knows of the label it inserts. -/
structure Insertable (program : Program) (initials : List State) (s : Search) (state : State)
    (cost : UInt64) (parent : Nat) (incoming : Option Transition) : Prop where
  valid : stateValid program state = true
  root : incoming = none → cost = 0 ∧ state ∈ initials
  edge : ∀ t, incoming = some t → parent < s.nodes.length ∧
    (s.node parent).state.terminal = false ∧
    t.sourceStateId = (s.node parent).state.stateId ∧ t.target = state ∧
    state.depth.toNat = (s.node parent).state.depth.toNat + 1 ∧
    cost.toNat = (s.node parent).accumulatedCost.toNat + program.weight t ∧
    t.transitionId ∈ s.transitionIds ∧
    ∀ j < s.nodes.length, (s.node j).hasParent = true →
      (s.node j).incoming.transitionId ≠ t.transitionId

variable {state : State}

theorem Insertable.initial (hv : stateValid program state = true) (hm : state ∈ initials) :
    Insertable program initials s state 0 0 none :=
  ⟨hv, fun _ => ⟨rfl, hm⟩, nofun⟩

variable {cost : UInt64} {parent : Nat} {incoming : Option Transition}

theorem Insertable.admitted (h : Insertable program initials s state cost parent incoming)
    (hu : Marked (s.register state) u) :
    Admitted program initials u (u.newNode state cost parent incoming) := by
  have hlabel : ∀ i, (u.node i).SameLabel (s.node i) := hu.label
  have hlen : u.nodes.length = s.nodes.length := hu.length
  have hids : u.transitionIds = s.transitionIds := by rw [hu.frame]; rfl
  have hident : u.identities state.stateId = some state := by
    rw [hu.frame]
    exact Function.update_self _ _ _
  cases incoming with
  | none =>
    exact
      { valid := h.valid, identity := hident, root := fun _ => h.root rfl
        parent_lt := nofun, expandable := nofun, source := nofun, target := nofun, depth := nofun
        cost := nofun, recorded := nofun, fresh := nofun }
  | some t =>
    obtain ⟨hlt, hexp, hsrc, htgt, hdepth, hcost, hrec, hfresh⟩ := h.edge t rfl
    have hp := hlabel parent
    exact
      { valid := h.valid
        identity := hident
        root := nofun
        parent_lt := fun _ => by rw [hlen]; exact hlt
        expandable := fun _ => by simp only [newNode]; rw [hp.state]; exact hexp
        source := fun _ => by simp only [newNode, Option.getD_some]; rw [hp.state]; exact hsrc
        target := fun _ => htgt
        depth := fun _ => by simp only [newNode]; rw [hp.state]; exact hdepth
        cost := fun _ => by simp only [newNode, Option.getD_some]; rw [hp.cost]; exact hcost
        recorded := fun _ => by rw [hids]; exact hrec
        fresh := fun _ j hj hpj => by
          rw [hlen] at hj
          rw [(hlabel j).hasParent] at hpj
          rw [(hlabel j).incoming]
          exact hfresh j hj hpj }

/-- Accepting an identity keeps the invariant. -/
theorem WellFormed.register (hw : WellFormed program initials s)
    (hid : ∀ found, s.identities state.stateId = some found → found = state) :
    WellFormed program initials (s.register state) where
  static := hw.static.relabel (register_relabelled hid)
  queue := ⟨hw.queue.sorted, hw.queue.entry, hw.queue.nodup, hw.queue.live, hw.queue.active⟩
  antichain := hw.antichain
  sound := hw.sound
  ranked := hw.ranked

/-- Marking the dominated labels keeps the invariant. -/
theorem Superseded.wellFormed (hid : ∀ found, s.identities state.stateId = some found → found = state)
    (hu : Superseded state.dominanceKey cost state.depth (s.register state) u)
    (hw : WellFormed program initials s) : WellFormed program initials u := by
  have hreg := hw.register hid
  have hpaths : u.paths = s.paths := by rw [hu.frame]; rfl
  exact
    { static := hreg.static.relabel hu.relabelled
      queue := hreg.queue.mark hu.toMarked (hu.active hreg.queue.active)
      antichain := hreg.antichain.relabel hu.relabelled hu.dominated
      sound := by rw [hpaths]; exact hw.sound
      ranked := by rw [hpaths]; exact hw.ranked }

theorem insertBudget_fits (hb : u.insertBudgetReached program = false) :
    u.activeFrontierCount.toNat + 1 < 2 ^ 64 := by
  simp only [insertBudgetReached, Bool.or_eq_false_iff, decide_eq_false_iff_not, ge_iff_le,
    UInt64.le_iff_toNat_le] at hb
  have := program.budget.maxFrontierStates.toNat_lt
  omega

/-- A successful `InsertNode` that did not run out of budget keeps the invariant. -/
theorem InsertResult.wellFormed {inserted : Bool}
    (hr : InsertResult program state cost parent incoming s (.ok, inserted, t))
    (hi : Insertable program initials s state cost parent incoming)
    (hw : WellFormed program initials s) : WellFormed program initials t := by
  generalize hres : (Status.ok, inserted, t) = r at hr
  cases hr with
  | identity | refused | overflow => cases hres
  | pruned hid =>
    injection hres with _ hres
    injection hres with _ hres
    subst hres
    exact (prune_core _).wellFormed (hw.register hid)
  | exhausted hid hu hb =>
    injection hres with _ hres
    injection hres with _ hres
    subst hres
    exact (exhaust_core _).wellFormed (hu.wellFormed hid hw)
  | @inserted u reopens hid hnot hu hclosed hb ho =>
    injection hres with _ hres
    injection hres with _ hres
    subst hres
    have hwu := hu.wellFormed hid hw
    have hpaths : u.paths = s.paths := by rw [hu.frame]; rfl
    have hstatic := hwu.static.store (hi.admitted hu.toMarked)
    exact
      { static := hstatic.relabel (.of_nodes rfl rfl rfl fun _ hx => hx)
        queue := hwu.queue.enqueue rfl (insertBudget_fits hb)
        antichain := by
          have hreg : Antichain (s.register state) := hw.antichain
          have hins : Antichain (u.storeNode (u.newNode state cost parent incoming)) :=
            hreg.insert hu hnot
          exact hins
        sound := hwu.sound
        ranked := hwu.ranked }

/-! ## Batches and source maps -/

/-- The nodes of a batch: pairwise different, closed, kept, and to be expanded. -/
structure BatchOk (program : Program) (s : Search) (batch : List Nat) : Prop where
  nodup : batch.Nodup
  lt : ∀ i ∈ batch, i < s.nodes.length
  closed : ∀ i ∈ batch, (s.node i).closed = true
  kept : ∀ i ∈ batch, (s.node i).dominated = false
  expandable : ∀ i ∈ batch, (s.node i).state.terminal = false
  shallow : ∀ i ∈ batch, (s.node i).state.depth < program.budget.maxDepth

theorem BatchOk.nil : BatchOk program s [] :=
  ⟨List.nodup_nil, nofun, nofun, nofun, nofun, nofun⟩

variable {batch : List Nat}

theorem BatchOk.popped (h : BatchOk program s batch) (hp : Popped s e t) : BatchOk program t batch where
  nodup := h.nodup
  lt i hi := by rw [hp.relabelled.length]; exact h.lt i hi
  closed i hi := by
    rw [hp.node]
    split
    · rfl
    · exact h.closed i hi
  kept i hi := by rw [hp.dominated]; exact h.kept i hi
  expandable i hi := by rw [(hp.relabelled.label i).state]; exact h.expandable i hi
  shallow i hi := by rw [(hp.relabelled.label i).state]; exact h.shallow i hi

theorem BatchOk.snoc (h : BatchOk program s batch) (hp : Popped s e t)
    (ht : (s.node e.nodeIndex).state.terminal = false)
    (hd : (s.node e.nodeIndex).state.depth < program.budget.maxDepth) :
    BatchOk program t (batch ++ [e.nodeIndex]) := by
  have hlive := hp.live
  simp only [Node.live, Bool.and_eq_true, Bool.not_eq_true'] at hlive
  have hold := h.popped hp
  have hnot : e.nodeIndex ∉ batch := fun hmem => by
    rw [h.closed _ hmem] at hlive
    exact absurd hlive.2 (by simp)
  have hnode := hp.node e.nodeIndex
  rw [if_pos rfl] at hnode
  constructor
  · exact List.Nodup.append h.nodup (List.nodup_singleton _) (by simpa using hnot)
  all_goals
    intro i hi
    rcases List.mem_append.1 hi with hi | hi
  · exact hold.lt i hi
  · rw [List.mem_singleton.1 hi, hp.relabelled.length]
    exact hp.lt
  · exact hold.closed i hi
  · rw [List.mem_singleton.1 hi, hnode]
  · exact hold.kept i hi
  · rw [List.mem_singleton.1 hi, hp.dominated]
    exact hlive.1
  · exact hold.expandable i hi
  · rw [List.mem_singleton.1 hi, hnode]
    exact ht
  · exact hold.shallow i hi
  · rw [List.mem_singleton.1 hi, hnode]
    exact hd

theorem BatchOk.stateId_inj (h : BatchOk program s batch) (hw : WellFormed program initials s)
    {i j : Nat} (hi : i ∈ batch) (hj : j ∈ batch)
    (hid : (s.node i).state.stateId = (s.node j).state.stateId) : i = j := by
  have hstate : (s.node i).state = (s.node j).state := by
    have hi' := hw.static.identity i (h.lt i hi)
    rw [hid, hw.static.identity j (h.lt j hj)] at hi'
    exact (Option.some.inj hi').symm
  by_contra hne
  have h1 := hw.antichain i (h.lt i hi) j (h.lt j hj) hne (h.kept i hi) (h.kept j hj)
    (by rw [hstate])
  have h2 := hw.antichain j (h.lt j hj) i (h.lt i hi) (Ne.symm hne) (h.kept j hj) (h.kept i hi)
    (by rw [hstate])
  simp only [hstate, UInt32.le_refl, and_true] at h1 h2
  exact (UInt64.le_total _ _).elim h1 h2

/-- The source map of a batch: it names nodes of the search by the ids of their states. -/
structure SourcesOk (program : Program) (s : Search) (sources : List (Digest256 × Nat)) : Prop where
  nodup : (sources.map (·.1)).Nodup
  lt : ∀ pair ∈ sources, pair.2 < s.nodes.length
  stateId : ∀ pair ∈ sources, (s.node pair.2).state.stateId = pair.1
  expandable : ∀ pair ∈ sources, (s.node pair.2).state.terminal = false
  shallow : ∀ pair ∈ sources, (s.node pair.2).state.depth < program.budget.maxDepth

theorem BatchOk.sources (h : BatchOk program s batch) (hw : WellFormed program initials s) :
    SourcesOk program s (s.sourceIndexes batch) := by
  have hmem : ∀ pair ∈ s.sourceIndexes batch,
      pair.2 ∈ batch ∧ pair.1 = (s.node pair.2).state.stateId := by
    intro pair hp
    obtain ⟨i, hi, rfl⟩ := List.mem_map.1 hp
    exact ⟨hi, rfl⟩
  constructor
  · unfold sourceIndexes
    rw [List.map_map]
    refine (List.nodup_map_iff_inj_on h.nodup).2 fun i hi j hj hij => ?_
    exact h.stateId_inj hw hi hj hij
  · exact fun pair hp => h.lt _ (hmem pair hp).1
  · exact fun pair hp => (hmem pair hp).2.symm
  · exact fun pair hp => h.expandable _ (hmem pair hp).1
  · exact fun pair hp => h.shallow _ (hmem pair hp).1

variable {sources : List (Digest256 × Nat)}

theorem lookupSource_mem {key : Digest256} {i : Nat} (h : lookupSource sources key = some i) :
    (key, i) ∈ sources := by
  unfold lookupSource at h
  obtain ⟨pair, hfind, rfl⟩ := Option.map_eq_some_iff.1 h
  have hkey : pair.1 = key := by simpa using List.find?_some hfind
  rw [← hkey]
  exact List.mem_of_find?_eq_some hfind

theorem SourcesOk.grow (h : SourcesOk program s sources) (hlen : s.nodes.length ≤ t.nodes.length)
    (hstate : ∀ i < s.nodes.length, (t.node i).state = (s.node i).state) : SourcesOk program t sources where
  nodup := h.nodup
  lt pair hp := Nat.lt_of_lt_of_le (h.lt pair hp) hlen
  stateId pair hp := by rw [hstate _ (h.lt pair hp)]; exact h.stateId pair hp
  expandable pair hp := by rw [hstate _ (h.lt pair hp)]; exact h.expandable pair hp
  shallow pair hp := by rw [hstate _ (h.lt pair hp)]; exact h.shallow pair hp

theorem InsertResult.label {r : Status × Bool × Search}
    (hr : InsertResult program state cost parent incoming s r) : s.nodes.length ≤ r.2.2.nodes.length ∧
      ∀ i < s.nodes.length, (r.2.2.node i).SameLabel (s.node i) := by
  have grown : ∀ {u : Search} (n : Node), Marked (s.register state) u →
      s.nodes.length ≤ (u.storeNode n).nodes.length ∧
        ∀ i < s.nodes.length, ((u.storeNode n).node i).SameLabel (s.node i) := by
    intro u n hu
    have hlen : u.nodes.length = s.nodes.length := hu.length
    refine ⟨by rw [storeNode_length]; omega, fun i hi => ?_⟩
    rw [storeNode_node_lt (by omega)]
    exact hu.label i
  cases hr with
  | identity => exact ⟨Nat.le_refl _, fun i _ => .refl _⟩
  | pruned => exact ⟨Nat.le_refl _, fun i _ => .refl _⟩
  | refused hu => exact ⟨hu.length.ge, fun i _ => hu.label i⟩
  | exhausted hid hu => exact ⟨hu.length.ge, fun i _ => hu.label i⟩
  | overflow hu => exact grown _ hu.toMarked
  | inserted hid hnot hu => exact grown _ hu.toMarked

/-- `InsertNode` adds no path, and speaks neither for the provider nor in the receipt's verdict. -/
theorem InsertResult.frame {r : Status × Bool × Search}
    (hr : InsertResult program state cost parent incoming s r) :
    r.2.2.paths = s.paths ∧ r.2.2.providerDisposition = s.providerDisposition ∧
      r.2.2.receipt.flags = s.receipt.flags ∧ r.2.2.receipt.disposition = s.receipt.disposition := by
  cases hr with
  | identity | pruned => exact ⟨rfl, rfl, rfl, rfl⟩
  | refused hu => rw [hu.frame]; exact ⟨rfl, rfl, rfl, rfl⟩
  | exhausted hid hu => rw [hu.frame]; exact ⟨rfl, rfl, rfl, rfl⟩
  | overflow hu => rw [hu.frame]; exact ⟨rfl, rfl, rfl, rfl⟩
  | inserted hid hnot hu => rw [hu.frame]; exact ⟨rfl, rfl, rfl, rfl⟩

theorem Accepted.insertable {tr : Transition} {source : Nat} {accumulated : UInt64}
    (h : Accepted blake3 program sources s tr source accumulated) (hs : SourcesOk program s sources)
    (hw : WellFormed program initials s) :
    Insertable program initials { s with transitionIds := tr.transitionId :: s.transitionIds }
      tr.target accumulated source (some tr) where
  valid := transitionValid_target h.valid
  root := nofun
  edge := by
    rintro _ ⟨rfl⟩
    have hmem := lookupSource_mem h.found
    exact ⟨hs.lt _ hmem, hs.expandable _ hmem, (hs.stateId _ hmem).symm, rfl, h.depth, h.cost, by simp,
      fun j hj hp hid => h.fresh (hid ▸ hw.static.recorded j hj hp)⟩

theorem WellFormed.record (hw : WellFormed program initials s) (key : Digest256) :
    WellFormed program initials { s with transitionIds := key :: s.transitionIds } where
  static := hw.static.relabel (.of_nodes rfl rfl rfl fun _ hx => List.mem_cons_of_mem _ hx)
  queue := ⟨hw.queue.sorted, hw.queue.entry, hw.queue.nodup, hw.queue.live, hw.queue.active⟩
  antichain := hw.antichain
  sound := hw.sound
  ranked := hw.ranked

end Search

/-! ## Along a run -/

open Search

/-- `Run` has returned an error. -/
def Phase.failed : Phase → Bool
  | .halted status => status != .ok
  | _ => false

def Phase.running : Phase → Bool
  | .halted _ => false
  | _ => true

/-- What the data of a phase is good for. -/
def PhaseOk (program : Program) (initials : List State) : Phase → Search → Prop
  | .addInitial rest, _ => rest ⊆ initials
  | .pop _ _ batch, s => BatchOk program s batch
  | .expand batch, s => BatchOk program s batch
  | .insert sources _, s => SourcesOk program s sources
  | _, _ => True

/-- The invariant of a run that no provider can break. -/
structure Good {σ : Type} (program : Program) (initials : List State) (e : Execution σ) : Prop where
  wellFormed : e.phase.failed = false → WellFormed program initials e.search
  phase : PhaseOk program initials e.phase e.search
  unexhausted : e.phase.running = true → e.search.resourceExhausted = false

variable {blake3 : Blake3} {program : Program} {initials : List State} {σ : Type}
  {provider : Provider σ} {e e' : Execution σ}

theorem Good.failed {status : Status} {s : Search} {p : σ} (hs : status ≠ .ok) :
    Good program initials (⟨.halted status, s, p⟩ : Execution σ) :=
  ⟨fun h => by simp [Phase.failed, hs] at h, trivial, nofun⟩

theorem Good.done {s : Search} {p : σ} (hw : WellFormed program initials s) :
    Good program initials (⟨.halted .ok, s.finalize program blake3, p⟩ : Execution σ) :=
  ⟨fun _ => (finalize_core s).wellFormed hw, trivial, nofun⟩

theorem start_good (state : σ) : Good program initials (start blake3 program initials state) := by
  have hw : WellFormed program initials
      ({ receipt := openReceipt blake3 program initials } : Search) := by
    refine ⟨⟨fun _ => rfl, ?_, ?_, ?_, ?_, ?_, ?_⟩, ⟨.nil, nofun, List.nodup_nil, ?_, rfl⟩, ?_,
      nofun, nofun⟩ <;> exact fun i hi => absurd hi (Nat.not_lt_zero i)
  unfold start
  split
  · exact .failed (by simp)
  · exact ⟨fun _ => hw, List.Subset.refl _, fun _ => rfl⟩

/-- One step keeps the invariant. -/
theorem Move.good (hm : Move blake3 program initials provider e e') (hg : Good program initials e) :
    Good program initials e' := by
  obtain ⟨hw, hp, hx⟩ := hg
  cases hm with
  | settle => exact ⟨hw, trivial, hx⟩
  | initialInvalid => exact .failed (by simp)
  | initialFails hv hr hs => exact .failed hs
  | initial hv hr hxt =>
    exact ⟨fun _ => hr.wellFormed (.initial hv (hp (by simp))) (hw rfl),
      fun x hx => hp (List.mem_cons_of_mem _ hx), fun _ => hxt⟩
  | harvestDone => exact ⟨fun _ => (hw rfl).discard, trivial, hx⟩
  | @harvestPath s t p e h =>
    have ht := h.wellFormed (hw rfl)
    obtain ⟨u, path, hasher, hpop, -, -, -, -, rfl⟩ := h.popped
    have hxu : u.resourceExhausted = false := by
      rw [hpop.frame]
      exact hx rfl
    split
    · exact ⟨fun _ => ht, trivial, fun _ => hxu⟩
    · exact ⟨fun _ => ht, trivial, fun _ => hxu⟩
  | enoughPaths => exact .done (hw rfl)
  | frontierEmpty =>
    exact .done ((exhaustFrontier_core _).wellFormed (hw rfl).discard)
  | budgetReached => exact .done ((exhaust_core _).wellFormed (hw rfl).discard)
  | openBatch => exact ⟨fun _ => (hw rfl).discard, .nil, hx⟩
  | @popDone m limit batch s t p ht =>
    have hwt : WellFormed program initials t := by
      rcases ht with rfl | rfl
      · exact hw rfl
      · exact (hw rfl).discard
    have hbt : BatchOk program t batch := by
      rcases ht with rfl | rfl
      · exact hp
      · exact ⟨hp.nodup, hp.lt, hp.closed, hp.kept, hp.expandable, hp.shallow⟩
    have hxt : t.resourceExhausted = false := by
      rcases ht with rfl | rfl <;> exact hx rfl
    unfold popBatchDone
    split
    · exact .done hwt
    split
    · exact ⟨fun _ => hwt, trivial, fun _ => hxt⟩
    · exact ⟨fun _ => hwt, hbt, fun _ => hxt⟩
  | @popPath m limit batch s t p e h =>
    have ht := h.wellFormed (hw rfl)
    obtain ⟨u, path, hasher, hpop, -, -, -, -, rfl⟩ := h.popped
    have hb : BatchOk program u batch := BatchOk.popped hp hpop
    have hxu : u.resourceExhausted = false := by
      rw [hpop.frame]
      exact hx rfl
    exact ⟨fun _ => ht, ⟨hb.nodup, hb.lt, hb.closed, hb.kept, hb.expandable, hb.shallow⟩, fun _ => hxu⟩
  | popLastPath h => exact .done (h.wellFormed (hw rfl))
  | popNode h hm hl ht hd =>
    exact ⟨fun _ => h.wellFormed (hw rfl), BatchOk.snoc hp h ht hd, fun _ => by
      rw [h.frame]
      exact hx rfl⟩
  | popCut h =>
    exact ⟨fun _ => h.wellFormed (hw rfl), BatchOk.popped hp h, fun _ => by
      rw [h.frame]
      exact hx rfl⟩
  | noRecordsLeft => exact .done ((exhaust_core _).wellFormed (hw rfl))
  | callFails hs => exact .failed hs
  | callLimited =>
    exact .done ((((countCall_core _ _).trans (acceptReply_core _ _)).trans
      (exhaust_core _)).wellFormed (hw rfl))
  | @call batch s p p' reply =>
    have hc : SameCore s ((s.countCall batch.length).acceptReply reply) :=
      (countCall_core _ _).trans (acceptReply_core _ _)
    have hs := BatchOk.sources hp (hw rfl)
    exact ⟨fun _ => hc.wellFormed (hw rfl), hs.grow (Nat.le_of_eq (by rw [hc.nodes]))
      fun i _ => by rw [hc.node], fun _ => hx rfl⟩
  | insertDone =>
    have hxs := hx rfl
    unfold expandBatchDone
    rw [hxs]
    exact ⟨fun _ => hw rfl, trivial, fun _ => hxs⟩
  | transitionInvalid hs => exact .failed hs
  | insertFails hc hr hs => exact .failed hs
  | insertLast hc hr hxu =>
    exact .done ((hashInsertion_core _ _ _).wellFormed
      (hr.wellFormed (hc.insertable hp (hw rfl)) ((hw rfl).record _)))
  | insert hc hr hxu =>
    have hl := hr.label
    exact ⟨fun _ => (hashInsertion_core _ _ _).wellFormed
      (hr.wellFormed (hc.insertable hp (hw rfl)) ((hw rfl).record _)),
      SourcesOk.grow hp hl.1 fun i hi => (hl.2 i hi).state, fun _ => hxu⟩

theorem Good.move (h : Good program initials e) (hs : step blake3 program provider e = some e') :
    Move blake3 program initials provider e e' := by
  refine step_move (h.wellFormed ?_) hs
  obtain ⟨phase, s, p⟩ := e
  cases phase with
  | halted status => cases hs
  | _ => rfl

theorem reachable_good {state : σ}
    (h : Machine.Reaches (step blake3 program provider) (start blake3 program initials state) e) :
    Good program initials e :=
  h.invariant (start_good state) fun _ _ hg hs => (hg.move hs).good hg

/-- **Invariant rule** for what is kept by the moves from a good point. -/
theorem reachable_keeps {P : Execution σ → Prop} {state : σ}
    (h : Machine.Reaches (step blake3 program provider) (start blake3 program initials state) e)
    (h0 : P (start blake3 program initials state))
    (hmove : ∀ x y, Good program initials x → step blake3 program provider x = some y →
      Move blake3 program initials provider x y → P x → P y) : P e := by
  refine (h.invariant (P := fun e => Good program initials e ∧ P e) ⟨start_good state, h0⟩ ?_).2
  exact fun x y hg hs => ⟨(hg.1.move hs).good hg.1, hmove x y hg.1 hs (hg.1.move hs) hg.2⟩

end Laplace.QuerySearch
