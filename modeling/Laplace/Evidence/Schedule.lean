import Laplace.Evidence.Tables

/-!
# The order of the propagation (evidence_lineage.c:434-515)

A node is queued when the roots of all its parents have arrived. What has arrived is a set of edges:
the rounds before brought in the edges to the nodes that were taken off the queue. Without a cycle
every node gets its turn, and then the tables have every walk to a root.
-/

namespace Laplace.Evidence

open Program Finset

variable {nodes : List LineageRecord} {edges : List Edge} {capacity : ℕ}

/-- The walks to a root that are known when some nodes are seeded and some edges have arrived. -/
def Arriving (nodes : List LineageRecord) (edges : List Edge) (seeded : ℕ) (arrived : Finset Edge)
    (node : ℕ) (rootId : Digest256) (length : ℕ) : Prop :=
  ∃ root, root < nodes.length ∧ idAt nodes root = rootId ∧ Terminal (Derived edges) root ∧
    ((node = root ∧ root < seeded ∧ length = 0) ∨
      ∃ parent rest, ⟨node, parent⟩ ∈ arrived ∧ Walk (Derived edges) parent root rest ∧
        length = rest + 1)

/-- The edges of a node that have not arrived. -/
def pending (edges : List Edge) (arrived : Finset Edge) (node : ℕ) : Finset Edge :=
  edges.toFinset.filter fun edge => edge.child = node ∧ edge ∉ arrived

/-- What the rounds, and the children within one, preserve. -/
structure Round (nodes : List LineageRecord) (edges : List Edge) (capacity : ℕ)
    (arrived : Finset Edge) (state : Propagation) : Prop where
  tables : Tables nodes edges capacity (Arriving nodes edges nodes.length arrived) state
  counts : ∀ node, state.dependencyCount node = (pending edges arrived node).card
  ready : ∀ node < nodes.length,
    state.dependencyCount node = 0 ↔ node ∈ state.processed ++ state.queue
  nodup : (state.processed ++ state.queue).Nodup
  bounded : ∀ node ∈ state.processed ++ state.queue, node < nodes.length

variable {arrived : Finset Edge} {node : ℕ}

theorem arriving_walk (hamong : Among edges nodes.length) {seeded : ℕ}
    (hsubset : ∀ edge ∈ arrived, edge ∈ edges) {rootId : Digest256} {length : ℕ}
    (h : Arriving nodes edges seeded arrived node rootId length) :
    node < nodes.length ∧ ∃ root, root < nodes.length ∧ idAt nodes root = rootId ∧
      Terminal (Derived edges) root ∧ Walk (Derived edges) node root length := by
  obtain ⟨root, hroot, hid, hterminal, ⟨rfl, -, rfl⟩ | ⟨parent, rest, hmem, hwalk, rfl⟩⟩ := h
  · exact ⟨hroot, node, hroot, hid, hterminal, .refl node⟩
  · have hedge := hsubset _ hmem
    exact ⟨(hamong _ hedge).1, root, hroot, hid, hterminal, .cons hedge hwalk⟩

theorem arriving_pairs (hamong : Among edges nodes.length) {seeded : ℕ}
    (hsubset : ∀ edge ∈ arrived, edge ∈ edges) (node : ℕ) (rootId : Digest256) (length : ℕ)
    (h : Arriving nodes edges seeded arrived node rootId length) :
    (node, rootId) ∈ RootPairs nodes edges := by
  obtain ⟨hnode, root, hroot, hid, hterminal, hwalk⟩ := arriving_walk hamong hsubset h
  exact ⟨hnode, root, length, hroot, hid, hterminal, hwalk⟩

theorem arriving_of_walk {root length : ℕ}
    (hdone : ∀ parent, Derived edges node parent → ⟨node, parent⟩ ∈ arrived)
    (hroot : root < nodes.length) (hterminal : Terminal (Derived edges) root)
    (hwalk : Walk (Derived edges) node root length) :
    Arriving nodes edges nodes.length arrived node (idAt nodes root) length := by
  refine ⟨root, hroot, rfl, hterminal, ?_⟩
  cases hwalk with
  | refl => exact .inl ⟨rfl, hroot, rfl⟩
  | cons step walk => exact .inr ⟨_, _, hdone _ step, walk, rfl⟩

theorem terminal_iff : (parents edges node).length = 0 ↔ Terminal (Derived edges) node := by
  rw [List.length_eq_zero_iff, List.eq_nil_iff_forall_not_mem]
  exact forall_congr' fun parent => not_congr mem_parents

/-! ## Seeding -/

/-- The state after the nodes before an index are looked at. -/
structure Seeded (nodes : List LineageRecord) (edges : List Edge) (capacity index : ℕ)
    (state : Propagation) : Prop where
  tables : Tables nodes edges capacity (Arriving nodes edges index ∅) state
  counts : state.dependencyCount = (initialPropagation edges).dependencyCount
  processed : state.processed = []
  queue : state.queue = (List.range index).filter fun node => (parents edges node).length = 0
  untouched : ∀ node, index ≤ node → state.relations node = []

theorem seeded_zero : Seeded nodes edges capacity 0 (initialPropagation edges) where
  tables := {
    minima := fun _ => .nil fun _ _ => by
      rintro ⟨_, -, -, -, ⟨-, hlt, -⟩ | ⟨_, _, hmem, -⟩⟩
      · exact absurd hlt (Nat.not_lt_zero _)
      · exact absurd hmem (notMem_empty _)
    pairs := fun _ _ _ => by
      rintro ⟨_, -, -, -, ⟨-, hlt, -⟩ | ⟨_, _, hmem, -⟩⟩
      · exact absurd hlt (Nat.not_lt_zero _)
      · exact absurd hmem (notMem_empty _)
    formed := fun _ => List.forall_mem_nil _
    produced := (sum_eq_zero fun _ _ => List.length_nil).symm
    room := Nat.zero_le _
    depth := fun _ => List.forall_mem_nil _ }
  counts := rfl
  processed := rfl
  queue := rfl
  untouched _ _ := rfl

variable {state : Propagation}

theorem seedNode_reaches (hamong : Among edges nodes.length) {index : ℕ}
    (h : Seeded nodes edges capacity index state) (hindex : index < nodes.length) :
    Reaches nodes edges capacity (Seeded nodes edges capacity (index + 1))
      (seedNode nodes capacity state index) := by
  have hcount : state.dependencyCount index = (parents edges index).length := by
    rw [h.counts]
    rfl
  have hmono : ∀ node k m, Arriving nodes edges index ∅ node k m →
      Arriving nodes edges (index + 1) ∅ node k m := by
    rintro node k m ⟨root, hroot, hid, hterminal, ⟨rfl, hlt, rfl⟩ | hright⟩
    · exact ⟨node, hroot, hid, hterminal, .inl ⟨rfl, by omega, rfl⟩⟩
    · exact ⟨root, hroot, hid, hterminal, .inr hright⟩
  unfold seedNode
  split
  · rename_i hparents
    rw [hcount] at hparents
    refine ⟨h.tables.congr ?_ hmono ?_, h.counts, h.processed, ?_, fun node hnode =>
      h.untouched node (by omega)⟩
    · rintro node k m ⟨root, hroot, hid, hterminal, ⟨rfl, -, rfl⟩ | ⟨_, _, hmem, -⟩⟩
      · exact ⟨hroot, node, 0, hroot, hid, hterminal, .refl node⟩
      · exact absurd hmem (notMem_empty _)
    · rintro node k m ⟨root, hroot, hid, hterminal, ⟨rfl, hlt, rfl⟩ | hright⟩
      · have hne : node ≠ index := by
          rintro rfl
          exact hparents (terminal_iff.2 hterminal)
        exact ⟨0, ⟨node, hroot, hid, hterminal, .inl ⟨rfl, by omega, rfl⟩⟩, le_rfl⟩
      · exact ⟨m, ⟨root, hroot, hid, hterminal, .inr hright⟩, le_rfl⟩
    · rw [List.range_succ, List.filter_append, ← h.queue, List.filter_singleton, decide_eq_false hparents]
      exact (List.append_nil _).symm
  · rename_i hparents
    rw [not_not, hcount] at hparents
    have hterminal := terminal_iff.1 hparents
    split
    · rename_i hnone
      exact absurd (List.getElem?_eq_none_iff.1 hnone) (Nat.not_le.2 hindex)
    · rename_i node hnode
      have hid := idAt_eq hnode
      have hempty := h.untouched index le_rfl
      let relation : RootRecord :=
        ⟨node.nodeId, node.nodeId, node.propositionId, 0, node.epistemicKind, 0⟩
      have hproduce := @produce_reaches nodes edges capacity _ state h.tables index hindex relation
        ⟨hindex, index, 0, hindex, hid, hterminal, .refl index⟩
        (by rw [hempty]; exact List.not_mem_nil)
        ⟨⟨node, hnode, rfl, rfl⟩, ⟨index, node, hnode, rfl, rfl⟩, rfl⟩ (Nat.zero_le _)
      refine hproduce.bind fun next hnext => ⟨?_, ?_, ?_, ?_, fun v hv => ?_⟩
      · refine Tables.congr (hnext.tables.reschedule _ rfl rfl le_rfl) ?_ ?_ ?_
        · exact arriving_pairs hamong fun _ hmem => absurd hmem (notMem_empty _)
        · rintro v k m (hv | ⟨rfl, rfl, rfl⟩)
          · exact hmono v k m hv
          · exact ⟨v, hindex, hid, hterminal, .inl ⟨rfl, Nat.lt_succ_self v, rfl⟩⟩
        · rintro v k m ⟨root, hroot, hk, hroots, ⟨rfl, hlt, rfl⟩ | ⟨_, _, hmem, -⟩⟩
          · refine ⟨0, ?_, le_rfl⟩
            rcases Nat.lt_succ_iff_lt_or_eq.1 hlt with hlt | rfl
            · exact .inl ⟨v, hroot, hk, hroots, .inl ⟨rfl, hlt, rfl⟩⟩
            · exact .inr ⟨rfl, hk.symm.trans hid, rfl⟩
          · exact absurd hmem (notMem_empty _)
      · exact hnext.schedule.dependencyCount.trans h.counts
      · exact hnext.schedule.processed.trans h.processed
      · dsimp only
        rw [hnext.schedule.queue, h.queue, List.range_succ, List.filter_append,
          List.filter_singleton, decide_eq_true hparents]
        rfl
      · dsimp only
        rw [hnext.others v (by omega)]
        exact h.untouched v (by omega)

theorem seed_reaches (hamong : Among edges nodes.length) : ∀ {index : ℕ}, index ≤ nodes.length →
    Reaches nodes edges capacity (Seeded nodes edges capacity index)
      ((List.range index).foldlM (seedNode nodes capacity) (initialPropagation edges))
  | 0, _ => seeded_zero
  | index + 1, hindex => by
    rw [List.range_succ, List.foldlM_append]
    refine (seed_reaches hamong (Nat.le_of_succ_le hindex)).bind fun state hstate => ?_
    rw [List.foldlM_cons]
    exact (seedNode_reaches hamong hstate hindex).bind fun next hnext => hnext

theorem Seeded.round (h : Seeded nodes edges capacity nodes.length state) (hnodup : edges.Nodup) :
    Round nodes edges capacity ∅ state where
  tables := h.tables
  counts node := by
    rw [h.counts]
    show (parents edges node).length = _
    unfold parents pending
    rw [List.length_map, ← List.toFinset_card_of_nodup (hnodup.filter _), List.toFinset_filter]
    congr 1
    refine filter_congr fun edge _ => ?_
    rw [decide_eq_true_iff]
    exact (and_iff_left (notMem_empty _)).symm
  ready node hnode := by
    rw [h.counts, h.processed, List.nil_append, h.queue, List.mem_filter, List.mem_range,
      decide_eq_true_iff]
    exact (and_iff_right hnode).symm
  nodup := by
    rw [h.processed, List.nil_append, h.queue]
    exact List.nodup_range.filter _
  bounded node hnode := by
    rw [h.processed, List.nil_append, h.queue] at hnode
    exact List.mem_range.1 (List.mem_filter.1 hnode).1

/-! ## A round -/

theorem mergeRelations_reaches {child parent : ℕ} {record : LineageRecord}
    (hrecord : nodes[child]? = some record) :
    ∀ {relations : List RootRecord} {candidates : ℕ → Digest256 → ℕ → Prop} {state : Propagation},
      Tables nodes edges capacity candidates state → state.processed.length < 2 ^ 64 →
      (∀ relation ∈ relations, Formed nodes parent relation ∧
        (child, relation.rootNodeId) ∈ RootPairs nodes edges ∧ depthOf relation < state.processed.length) →
      Reaches nodes edges capacity (Added nodes edges capacity (fun v k d => candidates v k d ∨ (v = child ∧
          ∃ relation ∈ relations, k = relation.rootNodeId ∧ d = depthOf relation + 1)) state child)
        (relations.foldlM (mergeRelation capacity child record) state)
  | [], candidates, state, h, _, _ => by
    refine ⟨h.congr ?_ (fun _ _ _ hd => .inl hd) ?_, ⟨rfl, rfl, rfl⟩, fun _ _ => rfl⟩
    · rintro v k d (hd | ⟨-, _, hmem, -⟩)
      · exact h.pairs v k d hd
      · exact absurd hmem List.not_mem_nil
    · rintro v k d (hd | ⟨-, _, hmem, -⟩)
      · exact ⟨d, hd, le_rfl⟩
      · exact absurd hmem List.not_mem_nil
  | relation :: relations, candidates, state, h, hsmall, hall => by
    obtain ⟨⟨hformed, hpair, hdepth⟩, hrest⟩ := List.forall_mem_cons.1 hall
    rw [List.foldlM_cons]
    refine (mergeRelation_reaches h hrecord hformed hpair hdepth hsmall).bind fun middle hmiddle => ?_
    have hprocessed := hmiddle.schedule.processed
    refine (mergeRelations_reaches hrecord hmiddle.tables (hprocessed ▸ hsmall)
      (hprocessed ▸ hrest)).mono fun next hnext => ?_
    refine ⟨hnext.tables.congr ?_ ?_ ?_, ?_, fun v hv => (hnext.others v hv).trans (hmiddle.others v hv)⟩
    · rintro v k d (hd | ⟨rfl, found, hmem, rfl, rfl⟩)
      · exact h.pairs v k d hd
      · exact (hall found hmem).2.1
    · rintro v k d ((hd | ⟨rfl, rfl, rfl⟩) | ⟨rfl, found, hmem, rfl, rfl⟩)
      · exact .inl hd
      · exact .inr ⟨rfl, relation, List.mem_cons_self, rfl, rfl⟩
      · exact .inr ⟨rfl, found, List.mem_cons_of_mem _ hmem, rfl, rfl⟩
    · rintro v k d (hd | ⟨rfl, found, hmem, rfl, rfl⟩)
      · exact ⟨d, .inl (.inl hd), le_rfl⟩
      · refine ⟨_, ?_, le_rfl⟩
        rcases List.mem_cons.1 hmem with rfl | hmem
        · exact .inl (.inr ⟨rfl, rfl, rfl⟩)
        · exact .inr ⟨rfl, found, hmem, rfl, rfl⟩
    · exact ⟨hnext.schedule.dependencyCount.trans hmiddle.schedule.dependencyCount,
        hnext.schedule.queue.trans hmiddle.schedule.queue,
        hnext.schedule.processed.trans hprocessed⟩

/-- What holds of the node whose round it is. -/
structure Turn (edges : List Edge) (arrived : Finset Edge) (node : ℕ) (state : Propagation) : Prop where
  processed : node ∈ state.processed
  done : ∀ parent, Derived edges node parent → ⟨node, parent⟩ ∈ arrived
  depth : ∀ relation ∈ state.relations node, depthOf relation < state.processed.length

theorem mem_pending {edge : Edge} :
    edge ∈ pending edges arrived node ↔ edge ∈ edges ∧ edge.child = node ∧ edge ∉ arrived := by
  unfold pending
  rw [mem_filter, List.mem_toFinset]

theorem pending_insert (arrived : Finset Edge) (edge : Edge) (node : ℕ) :
    pending edges (insert edge arrived) node = (pending edges arrived node).erase edge := by
  ext other
  rw [mem_erase, mem_pending, mem_pending, mem_insert, not_or]
  tauto

theorem Round.processed_le (h : Round nodes edges capacity arrived state) :
    state.processed.length ≤ nodes.length := by
  have hnodup := (List.nodup_append.1 h.nodup).1
  have hsubset : state.processed ⊆ List.range nodes.length := fun v hv =>
    List.mem_range.2 (h.bounded v (List.mem_append_left _ hv))
  have hle := (hnodup.subperm hsubset).length_le
  rwa [List.length_range] at hle

theorem propagateChild_reaches (hamong : Among edges nodes.length)
    (hacyclic : ∀ v < nodes.length, Acc (fun p c => Derived edges c p) v)
    (hsmall : nodes.length < 2 ^ 64) (hsubset : ∀ edge ∈ arrived, edge ∈ edges) {child : ℕ}
    (h : Round nodes edges capacity arrived state) (hturn : Turn edges arrived node state)
    (hedge : Derived edges child node) (hnew : ⟨child, node⟩ ∉ arrived) : Reaches nodes edges capacity
      (fun next => Round nodes edges capacity (insert ⟨child, node⟩ arrived) next ∧
        Turn edges (insert ⟨child, node⟩ arrived) node next ∧ next.processed = state.processed)
      (propagateChild nodes capacity node state child) := by
  have hchild : child < nodes.length := (hamong _ hedge).1
  have hne : node ≠ child := by
    rintro rfl
    exact not_self_of_acc (hacyclic node hchild) hedge
  have hpending : ⟨child, node⟩ ∈ pending edges arrived child := mem_pending.2 ⟨hedge, rfl, hnew⟩
  have hwaiting : 0 < state.dependencyCount child := by
    rw [h.counts]
    exact card_pos.2 ⟨_, hpending⟩
  have hnotready : child ∉ state.processed ++ state.queue := fun hmem =>
    hwaiting.ne' ((h.ready child hchild).2 hmem)
  have hsubset' : ∀ edge ∈ insert ⟨child, node⟩ arrived, edge ∈ edges := fun edge hmem => by
    rcases mem_insert.1 hmem with rfl | hmem
    · exact hedge
    · exact hsubset edge hmem
  have hsound : ∀ relation ∈ state.relations node, ∃ root, root < nodes.length ∧
      idAt nodes root = relation.rootNodeId ∧ Terminal (Derived edges) root ∧
      Walk (Derived edges) node root (depthOf relation) := fun relation hrelation =>
    (arriving_walk hamong hsubset ((h.tables.minima node).sound relation hrelation)).2
  unfold propagateChild
  split
  · rename_i hnone
    exact absurd (List.getElem?_eq_none_iff.1 hnone) (Nat.not_le.2 hchild)
  · rename_i record hrecord
    refine (mergeRelations_reaches hrecord h.tables (h.processed_le.trans_lt hsmall)
      fun relation hrelation => ⟨h.tables.formed node relation hrelation, ?_,
        hturn.depth relation hrelation⟩).bind fun next hnext => ?_
    · obtain ⟨root, hroot, hid, hterminal, hwalk⟩ := hsound relation hrelation
      exact ⟨hchild, root, _, hroot, hid, hterminal, .cons hedge hwalk⟩
    have hcount : next.dependencyCount child = state.dependencyCount child :=
      congrFun hnext.schedule.dependencyCount child
    refine ⟨⟨?_, fun v => ?_, fun v hv => ?_, ?_, ?_⟩, ⟨?_, fun parent hparent => ?_, ?_⟩,
      hnext.schedule.processed⟩
    · refine Tables.congr (hnext.tables.reschedule _ rfl rfl le_rfl)
        (arriving_pairs hamong hsubset') ?_ ?_
      · rintro v k d (⟨root, hroot, hid, hterminal, hleft | ⟨parent, rest, hmem, hwalk⟩⟩ |
          ⟨rfl, relation, hrelation, rfl, rfl⟩)
        · exact ⟨root, hroot, hid, hterminal, .inl hleft⟩
        · exact ⟨root, hroot, hid, hterminal, .inr ⟨parent, rest, mem_insert_of_mem hmem, hwalk⟩⟩
        · obtain ⟨root, hroot, hid, hterminal, hwalk⟩ := hsound relation hrelation
          exact ⟨root, hroot, hid, hterminal, .inr ⟨node, _, mem_insert_self _ _, hwalk, rfl⟩⟩
      · rintro v k d ⟨root, hroot, rfl, hterminal, hleft | ⟨parent, rest, hmem, hwalk, rfl⟩⟩
        · exact ⟨d, .inl ⟨root, hroot, rfl, hterminal, .inl hleft⟩, le_rfl⟩
        · rcases mem_insert.1 hmem with heq | hmem
          · cases heq
            have hknown := arriving_of_walk hturn.done hroot hterminal hwalk
            obtain ⟨relation, hrelation, hkey⟩ := (h.tables.minima node).complete _ _ hknown
            have hle := (h.tables.minima node).least relation hrelation rest (hkey ▸ hknown)
            exact ⟨_, .inr ⟨rfl, relation, hrelation, hkey.symm, rfl⟩, Nat.succ_le_succ hle⟩
          · exact ⟨_, .inl ⟨root, hroot, rfl, hterminal, .inr ⟨parent, rest, hmem, hwalk, rfl⟩⟩, le_rfl⟩
    · rw [pending_insert]
      dsimp only
      by_cases heq : v = child
      · subst heq
        rw [Function.update_self, hcount, h.counts, card_erase_of_mem hpending]
      · have hout : ⟨child, node⟩ ∉ pending edges arrived v := fun hmem =>
          heq (mem_pending.1 hmem).2.1.symm
        rw [Function.update_of_ne heq, hnext.schedule.dependencyCount, h.counts,
          erase_eq_of_notMem hout]
    · dsimp only
      rw [hcount, hnext.schedule.processed, hnext.schedule.queue]
      by_cases heq : v = child
      · subst heq
        rw [Function.update_self]
        split
        · rename_i hzero
          exact iff_of_true hzero (List.mem_append_right _ (List.mem_append_right _
            (List.mem_singleton_self v)))
        · rename_i hnonzero
          exact iff_of_false hnonzero hnotready
      · rw [Function.update_of_ne heq, hnext.schedule.dependencyCount, h.ready v hv]
        split
        · rw [← List.append_assoc, List.mem_append (t := [child]), List.mem_singleton, or_iff_left heq]
        · exact Iff.rfl
    · dsimp only
      rw [hnext.schedule.processed, hnext.schedule.queue]
      split
      · rw [← List.append_assoc, ← List.concat_eq_append]
        exact h.nodup.concat hnotready
      · exact h.nodup
    · dsimp only
      rw [hnext.schedule.processed, hnext.schedule.queue]
      split
      · rw [← List.append_assoc]
        intro v hv
        rcases List.mem_append.1 hv with hv | hv
        · exact h.bounded v hv
        · rwa [List.mem_singleton.1 hv]
      · exact h.bounded
    · exact hnext.schedule.processed ▸ hturn.processed
    · exact mem_insert_of_mem (hturn.done parent hparent)
    · dsimp only
      rw [hnext.others node hne, hnext.schedule.processed]
      exact hturn.depth

theorem propagateChildren_reaches (hamong : Among edges nodes.length)
    (hacyclic : ∀ v < nodes.length, Acc (fun p c => Derived edges c p) v) (hsmall : nodes.length < 2 ^ 64) :
    ∀ {waiting : List ℕ} {arrived : Finset Edge} {state : Propagation}, waiting.Nodup →
      (∀ edge ∈ arrived, edge ∈ edges) → (∀ child ∈ waiting, Derived edges child node ∧
        ⟨child, node⟩ ∉ arrived) →
      Round nodes edges capacity arrived state → Turn edges arrived node state →
      Reaches nodes edges capacity (fun next => Round nodes edges capacity
            (arrived ∪ (waiting.map fun child => (⟨child, node⟩ : Edge)).toFinset) next ∧
          next.processed = state.processed) (waiting.foldlM (propagateChild nodes capacity node) state)
  | [], arrived, state, _, _, _, h, _ => by
    rw [List.map_nil, List.toFinset_nil, union_empty]
    exact ⟨h, rfl⟩
  | child :: waiting, arrived, state, hnodup, hsubset, hwaiting, h, hturn => by
    obtain ⟨hnotin, hnodup⟩ := List.nodup_cons.1 hnodup
    obtain ⟨⟨hedge, hnew⟩, hrest⟩ := List.forall_mem_cons.1 hwaiting
    rw [List.foldlM_cons]
    refine (propagateChild_reaches hamong hacyclic hsmall hsubset h hturn hedge hnew).bind ?_
    rintro middle ⟨hround, hmiddle, hprocessed⟩
    refine (propagateChildren_reaches hamong hacyclic hsmall hnodup ?_ ?_ hround hmiddle).mono ?_
    · intro edge hmem
      rcases mem_insert.1 hmem with rfl | hmem
      · exact hedge
      · exact hsubset edge hmem
    · refine fun other hother => ⟨(hrest other hother).1, fun hmem => ?_⟩
      rcases mem_insert.1 hmem with heq | hmem
      · cases heq
        exact hnotin hother
      · exact (hrest other hother).2 hmem
    · rintro next ⟨hnext, hsame⟩
      refine ⟨?_, hsame.trans hprocessed⟩
      rwa [List.map_cons, List.toFinset_cons, union_insert, ← insert_union]

/-! ## The whole propagation -/

/-- The edges to some nodes. -/
def edgesTo (edges : List Edge) (processed : List ℕ) : Finset Edge :=
  edges.toFinset.filter fun edge => edge.parent ∈ processed

theorem mem_edgesTo {processed : List ℕ} {edge : Edge} :
    edge ∈ edgesTo edges processed ↔ edge ∈ edges ∧ edge.parent ∈ processed := by
  unfold edgesTo
  rw [mem_filter, List.mem_toFinset]

theorem children_nodup (hnodup : edges.Nodup) (node : ℕ) : (children edges node).Nodup := by
  refine (hnodup.filter _).map_on fun edge hedge other hother heq => ?_
  have hparent := of_decide_eq_true (List.mem_filter.1 hedge).2
  have hparent' := of_decide_eq_true (List.mem_filter.1 hother).2
  cases edge
  cases other
  simp only at heq hparent hparent'
  rw [heq, hparent, hparent']

theorem edgesTo_append (processed : List ℕ) (node : ℕ) :
    edgesTo edges (processed ++ [node]) = edgesTo edges processed ∪
      ((children edges node).map fun child => (⟨child, node⟩ : Edge)).toFinset := by
  ext edge
  rw [mem_union, mem_edgesTo, mem_edgesTo, List.mem_toFinset, List.mem_map, List.mem_append,
    List.mem_singleton, and_or_left]
  refine or_congr_right ⟨?_, ?_⟩
  · rintro ⟨hmem, rfl⟩
    exact ⟨edge.child, mem_children.2 hmem, rfl⟩
  · rintro ⟨child, hchild, rfl⟩
    exact ⟨mem_children.1 hchild, rfl⟩

/-- All nodes before the queue have had their turn. -/
def Propagating (nodes : List LineageRecord) (edges : List Edge) (capacity : ℕ)
    (state : Propagation) : Prop :=
  Round nodes edges capacity (edgesTo edges state.processed) state

theorem Propagating.turn (h : Propagating nodes edges capacity state) {queue : List ℕ}
    (hqueue : state.queue = node :: queue) :
    let next := { state with queue, processed := state.processed ++ [node] }
    Round nodes edges capacity (edgesTo edges state.processed) next ∧
      Turn edges (edgesTo edges state.processed) node next := by
  have happend : state.processed ++ [node] ++ queue = state.processed ++ state.queue := by
    rw [hqueue, List.append_assoc, List.singleton_append]
  have hmem : node ∈ state.processed ++ state.queue := by
    rw [hqueue]
    exact List.mem_append_right _ List.mem_cons_self
  have hnode : node < nodes.length := h.bounded node hmem
  refine ⟨⟨h.tables.reschedule _ rfl rfl ?_, h.counts, fun v hv => ?_, ?_, ?_⟩,
    List.mem_append_right _ (List.mem_singleton_self node), fun parent hparent => ?_,
    fun relation hrelation => ?_⟩
  · rw [List.length_append]
    exact Nat.le_add_right _ _
  · rw [happend]
    exact h.ready v hv
  · rw [happend]
    exact h.nodup
  · rw [happend]
    exact h.bounded
  · have hzero := (h.ready node hnode).2 hmem
    rw [h.counts, card_eq_zero] at hzero
    by_contra hnew
    have hpending := mem_pending.2 ⟨hparent, rfl, hnew⟩
    rw [hzero] at hpending
    exact notMem_empty _ hpending
  · have hle := h.tables.depth node relation hrelation
    rw [List.length_append, List.length_singleton]
    omega

theorem propagateStep_meets (hamong : Among edges nodes.length) (hnodup : edges.Nodup)
    (hacyclic : ∀ v < nodes.length, Acc (fun p c => Derived edges c p) v)
    (hsmall : nodes.length < 2 ^ 64) (m : ℕ) : Meets (propagateStep nodes edges capacity)
      (fun state => Propagating nodes edges capacity state ∧ nodes.length - state.processed.length = m)
      (fun more state => if more then Propagating nodes edges capacity state ∧
          nodes.length - state.processed.length < m
        else Propagating nodes edges capacity state ∧ state.queue = [])
      (fun reason _ => reason = .failed .capacityInsufficient {} ∧
        capacity < (RootPairs nodes edges).ncard) := by
  refine .get_then fun state => ?_
  split
  · rename_i hqueue
    refine .pure ?_
    rintro _ ⟨⟨h, -⟩, rfl⟩
    exact ⟨h, hqueue⟩
  · rename_i node queue hqueue
    have hreaches : Propagating nodes edges capacity state →
        Reaches nodes edges capacity
          (fun next => Propagating nodes edges capacity next ∧
            next.processed = state.processed ++ [node])
          ((children edges node).foldlM (propagateChild nodes capacity node)
            { state with queue, processed := state.processed ++ [node] }) := by
      intro h
      have hnotin : node ∉ state.processed := by
        have hnodup := h.nodup
        rw [hqueue] at hnodup
        exact fun hmem => (List.nodup_append.1 hnodup).2.2 node hmem node List.mem_cons_self rfl
      obtain ⟨hround, hturn⟩ := h.turn hqueue
      refine (propagateChildren_reaches hamong hacyclic hsmall (children_nodup hnodup node)
        (fun edge hmem => (mem_edgesTo.1 hmem).1)
        (fun child hchild => ⟨mem_children.1 hchild, fun hmem => hnotin (mem_edgesTo.1 hmem).2⟩)
        hround hturn).mono ?_
      rintro next ⟨hnext, hprocessed⟩
      refine ⟨?_, hprocessed⟩
      unfold Propagating
      rwa [hprocessed, edgesTo_append]
    split
    · rename_i status hfold
      refine .throw ?_
      rintro _ ⟨⟨h, -⟩, rfl⟩
      have hfailed := hreaches h
      rw [hfold] at hfailed
      exact ⟨congrArg (Failure.failed · {}) hfailed.1, hfailed.2⟩
    · rename_i next hfold
      refine .modify_then _ ?_ (.pure fun _ h => h)
      rintro _ ⟨⟨h, rfl⟩, rfl⟩
      have hnext := hreaches h
      rw [hfold] at hnext
      obtain ⟨hround, hprocessed⟩ := hnext
      refine ⟨hround, ?_⟩
      have hle : next.processed.length ≤ nodes.length := hround.processed_le
      rw [hprocessed, List.length_append, List.length_singleton] at hle ⊢
      omega

theorem Propagating.processed (hacyclic : ∀ v < nodes.length, Acc (fun p c => Derived edges c p) v)
    (hamong : Among edges nodes.length) (h : Propagating nodes edges capacity state)
    (hqueue : state.queue = []) : ∀ v < nodes.length, v ∈ state.processed := by
  intro v hv
  induction hacyclic v hv with
  | intro v _ ih =>
    have hempty : pending edges (edgesTo edges state.processed) v = ∅ := by
      refine eq_empty_of_forall_notMem fun edge hmem => ?_
      obtain ⟨hedge, rfl, hnew⟩ := mem_pending.1 hmem
      exact hnew (mem_edgesTo.2 ⟨hedge, ih edge.parent hedge (hamong edge hedge).2⟩)
    have hready := (h.ready v hv).1 (by rw [h.counts, hempty]; exact card_empty)
    rwa [hqueue, List.append_nil] at hready

/-- The relations are the pairs of a node and a root, with the length of the shortest walk. -/
structure Resolved (nodes : List LineageRecord) (edges : List Edge) (state : Propagation) :
    Prop where
  processed : state.processed.length = nodes.length
  minima : ∀ node < nodes.length, Minima RootRecord.rootNodeId depthOf
    (fun rootId length => ∃ root, root < nodes.length ∧ idAt nodes root = rootId ∧
      Terminal (Derived edges) root ∧ Walk (Derived edges) node root length)
    (state.relations node)
  formed : ∀ node, ∀ relation ∈ state.relations node, Formed nodes node relation
  count : ((List.range nodes.length).flatMap state.relations).length =
    (RootPairs nodes edges).ncard

theorem Propagating.resolved (hacyclic : ∀ v < nodes.length, Acc (fun p c => Derived edges c p) v)
    (hamong : Among edges nodes.length) (h : Propagating nodes edges capacity state)
    (hqueue : state.queue = []) :
    Resolved nodes edges state ∧ (RootPairs nodes edges).ncard ≤ capacity := by
  have hprocessed := h.processed hacyclic hamong hqueue
  have hdone : ∀ node parent, Derived edges node parent →
      ⟨node, parent⟩ ∈ edgesTo edges state.processed := fun node parent hedge =>
    mem_edgesTo.2 ⟨hedge, hprocessed parent (hamong _ hedge).2⟩
  have hsubset : ∀ edge ∈ edgesTo edges state.processed, edge ∈ edges := fun edge hmem =>
    (mem_edgesTo.1 hmem).1
  have hpairs : (producedPairs nodes.length state : Set (ℕ × Digest256)) = RootPairs nodes edges := by
    refine Set.Subset.antisymm h.tables.producedPairs_subset ?_
    rintro ⟨node, rootId⟩ ⟨hnode, root, length, hroot, rfl, hterminal, hwalk⟩
    obtain ⟨relation, hrelation, hkey⟩ := (h.tables.minima node).complete _ _
      (arriving_of_walk (hdone node) hroot hterminal hwalk)
    exact mem_coe.2 (mem_producedPairs.2 ⟨hnode, List.mem_map.2 ⟨relation, hrelation, hkey⟩⟩)
  have hcard : (RootPairs nodes edges).ncard = state.produced := by
    rw [← hpairs, Set.ncard_coe_finset, h.tables.card_producedPairs]
  refine ⟨⟨?_, fun node hnode => ?_, h.tables.formed, ?_⟩, hcard ▸ h.tables.room⟩
  · refine le_antisymm h.processed_le ?_
    have hle := (List.nodup_range.subperm fun v hv => hprocessed v (List.mem_range.1 hv)).length_le
    rwa [List.length_range] at hle
  · refine (h.tables.minima node).congr
      (fun k d hd => (arriving_walk hamong hsubset hd).2) ?_
    rintro k d ⟨root, hroot, rfl, hterminal, hwalk⟩
    exact ⟨d, arriving_of_walk (hdone node) hroot hterminal hwalk, le_rfl⟩
  · rw [hcard, h.tables.produced, List.length_flatMap]
    rfl

end Laplace.Evidence
