import Laplace.Evidence.Cycles
import Laplace.Lib.Walks

/-!
# Tables of roots (evidence_lineage.c:430-515)

The relations of a node are a table of minima: for each root that the walks found so far lead to,
one entry with the length of the shortest. A relation that arrives from a parent adds an entry or
lowers one. An entry that does not fit shows that there are more pairs than the capacity.
-/

namespace Laplace.Evidence

open Finset

variable {nodes : List LineageRecord} {edges : List Edge} {capacity : ℕ}

/-- The id of the node with an index. -/
def idAt (nodes : List LineageRecord) (index : ℕ) : Digest256 :=
  (nodes[index]?.map LineageRecord.nodeId).getD 0

theorem idAt_eq {index : ℕ} {node : LineageRecord} (h : nodes[index]? = some node) :
    idAt nodes index = node.nodeId := by
  unfold idAt
  rw [h]
  rfl

/-- The node, and a root that it goes back to. -/
def RootPairs (nodes : List LineageRecord) (edges : List Edge) : Set (ℕ × Digest256) :=
  {pair | pair.1 < nodes.length ∧ ∃ root length, root < nodes.length ∧ idAt nodes root = pair.2 ∧
    Terminal (Derived edges) root ∧ Walk (Derived edges) pair.1 root length}

theorem rootPairs_finite : (RootPairs nodes edges).Finite := by
  refine Set.Finite.subset (((range nodes.length) ×ˢ
    ((range nodes.length).image (idAt nodes))).finite_toSet) ?_
  rintro ⟨node, rootId⟩ ⟨hnode, root, -, hroot, hid, -⟩
  rw [mem_coe, mem_product]
  exact ⟨mem_range.2 hnode, mem_image.2 ⟨root, mem_range.2 hroot, hid⟩⟩

/-! ## Tables -/

def depthOf (relation : RootRecord) : ℕ := relation.pathDepth.toNat

/-- The fields of a relation that its node and its root determine. -/
structure Formed (nodes : List LineageRecord) (node : ℕ) (relation : RootRecord) : Prop where
  node : ∃ record : LineageRecord, nodes[node]? = some record ∧ relation.nodeId = record.nodeId ∧
    relation.propositionId = record.propositionId
  root : ∃ (index : ℕ) (record : LineageRecord), nodes[index]? = some record ∧
    relation.rootNodeId = record.nodeId ∧ relation.rootEpistemicKind = record.epistemicKind
  flags : relation.flags = 0

/-- The relations are the minima of some candidates, and they are counted. -/
structure Tables (nodes : List LineageRecord) (edges : List Edge) (capacity : ℕ)
    (candidates : ℕ → Digest256 → ℕ → Prop) (state : Propagation) : Prop where
  minima : ∀ node, Minima RootRecord.rootNodeId depthOf (candidates node) (state.relations node)
  pairs : ∀ node rootId length, candidates node rootId length → (node, rootId) ∈ RootPairs nodes edges
  formed : ∀ node, ∀ relation ∈ state.relations node, Formed nodes node relation
  produced : state.produced = ∑ node ∈ range nodes.length, (state.relations node).length
  room : state.produced ≤ capacity
  depth : ∀ node, ∀ relation ∈ state.relations node, depthOf relation ≤ state.processed.length

/-- The pairs of the relations. -/
def producedPairs (n : ℕ) (state : Propagation) : Finset (ℕ × Digest256) :=
  (range n).biUnion fun node =>
    ((state.relations node).map fun relation => (node, relation.rootNodeId)).toFinset

variable {node : ℕ} {rootId : Digest256}

theorem mem_producedPairs {n : ℕ} {state : Propagation} : (node, rootId) ∈ producedPairs n state ↔
      node < n ∧ rootId ∈ (state.relations node).map RootRecord.rootNodeId := by
  unfold producedPairs
  simp only [mem_biUnion, mem_range, List.mem_toFinset, List.mem_map, Prod.mk.injEq]
  constructor
  · rintro ⟨_, hnode, relation, hrelation, rfl, rfl⟩
    exact ⟨hnode, relation, hrelation, rfl⟩
  · rintro ⟨hnode, relation, hrelation, rfl⟩
    exact ⟨node, hnode, relation, hrelation, rfl, rfl⟩

variable {candidates : ℕ → Digest256 → ℕ → Prop} {state : Propagation}

namespace Tables

theorem card_producedPairs (h : Tables nodes edges capacity candidates state) :
    (producedPairs nodes.length state).card = state.produced := by
  unfold producedPairs
  rw [h.produced, card_biUnion]
  · refine sum_congr rfl fun node _ => ?_
    rw [List.toFinset_card_of_nodup, List.length_map]
    have hnodup := (h.minima node).nodup
    refine List.Nodup.of_map Prod.snd ?_
    rwa [List.map_map]
  · intro node _ node' _ hne
    refine disjoint_left.2 fun pair hpair hpair' => hne ?_
    obtain ⟨_, -, rfl⟩ := List.mem_map.1 (List.mem_toFinset.1 hpair)
    obtain ⟨_, -, heq⟩ := List.mem_map.1 (List.mem_toFinset.1 hpair')
    exact (congrArg Prod.fst heq).symm

theorem producedPairs_subset (h : Tables nodes edges capacity candidates state) :
    (producedPairs nodes.length state : Set (ℕ × Digest256)) ⊆ RootPairs nodes edges := by
  rintro ⟨node, rootId⟩ hmem
  obtain ⟨-, hroot⟩ := mem_producedPairs.1 (mem_coe.1 hmem)
  obtain ⟨relation, hrelation, rfl⟩ := List.mem_map.1 hroot
  exact h.pairs _ _ _ ((h.minima node).sound relation hrelation)

theorem lt_ncard (h : Tables nodes edges capacity candidates state)
    (hfull : capacity ≤ state.produced) {node : ℕ} {rootId : Digest256}
    (hpair : (node, rootId) ∈ RootPairs nodes edges)
    (hnew : rootId ∉ (state.relations node).map RootRecord.rootNodeId) :
    capacity < (RootPairs nodes edges).ncard := by
  have hnotin : (node, rootId) ∉ producedPairs nodes.length state := fun hmem =>
    hnew (mem_producedPairs.1 hmem).2
  have hsub : (insert (node, rootId) (producedPairs nodes.length state) : Finset _) ⊆
      rootPairs_finite.toFinset (s := RootPairs nodes edges) := by
    intro pair hmem
    rw [Set.Finite.mem_toFinset]
    rcases mem_insert.1 hmem with rfl | hmem
    · exact hpair
    · exact h.producedPairs_subset (mem_coe.2 hmem)
  have hcard := card_le_card hsub
  rw [card_insert_of_notMem hnotin, h.card_producedPairs,
    ← Set.ncard_eq_toFinset_card _ rootPairs_finite] at hcard
  omega

theorem congr {candidates' : ℕ → Digest256 → ℕ → Prop} (h : Tables nodes edges capacity candidates state)
    (hpairs : ∀ node rootId length, candidates' node rootId length → (node, rootId) ∈ RootPairs nodes edges)
    (hsub : ∀ node k m, candidates node k m → candidates' node k m)
    (hbelow : ∀ node k m, candidates' node k m → ∃ l, candidates node k l ∧ l ≤ m) :
    Tables nodes edges capacity candidates' state :=
  ⟨fun node => (h.minima node).congr (hsub node) (hbelow node), hpairs, h.formed, h.produced, h.room,
    h.depth⟩

theorem reschedule (h : Tables nodes edges capacity candidates state) (next : Propagation)
    (hrelations : next.relations = state.relations) (hproduced : next.produced = state.produced)
    (hprocessed : state.processed.length ≤ next.processed.length) :
    Tables nodes edges capacity candidates next where
  minima := hrelations ▸ h.minima
  pairs := h.pairs
  formed := hrelations ▸ h.formed
  produced := by
    rw [hproduced, hrelations]
    exact h.produced
  room := hproduced ▸ h.room
  depth node relation hrelation := by
    rw [hrelations] at hrelation
    exact (h.depth node relation hrelation).trans hprocessed

end Tables

/-- Only the relations differ. -/
structure SameSchedule (state next : Propagation) : Prop where
  dependencyCount : next.dependencyCount = state.dependencyCount
  queue : next.queue = state.queue
  processed : next.processed = state.processed

theorem sum_update (n : ℕ) (relations : ℕ → List RootRecord) (hnode : node < n)
    (entries : List RootRecord) :
    (∑ v ∈ range n, (Function.update relations node entries v).length) + (relations node).length =
      (∑ v ∈ range n, (relations v).length) + entries.length := by
  have hmem := mem_range.2 hnode
  rw [← add_sum_erase _ _ hmem, ← add_sum_erase (range n)
    (fun v => (relations v).length) hmem, Function.update_self]
  have hrest : ∑ v ∈ (range n).erase node, (Function.update relations node entries v).length =
      ∑ v ∈ (range n).erase node, (relations v).length :=
    sum_congr rfl fun v hv => by rw [Function.update_of_ne (ne_of_mem_erase hv)]
  rw [hrest]
  omega

/-! ## Adding to the tables -/

/-- One candidate more at one node. -/
def With (candidates : ℕ → Digest256 → ℕ → Prop) (node : ℕ) (rootId : Digest256) (length : ℕ) :
    ℕ → Digest256 → ℕ → Prop :=
  fun v k d => candidates v k d ∨ (v = node ∧ k = rootId ∧ d = length)

/-- A step that fails shows that there are too many pairs. -/
def Reaches (nodes : List LineageRecord) (edges : List Edge) (capacity : ℕ)
    (post : Propagation → Prop) : Except Status Propagation → Prop
  | .error status => status = .capacityInsufficient ∧ capacity < (RootPairs nodes edges).ncard
  | .ok next => post next

theorem Reaches.bind {post post' : Propagation → Prop} {result : Except Status Propagation}
    {next : Propagation → Except Status Propagation} (h : Reaches nodes edges capacity post result)
    (hnext : ∀ state, post state → Reaches nodes edges capacity post' (next state)) :
    Reaches nodes edges capacity post' (result >>= next) := by
  cases result with
  | error status => exact h
  | ok state => exact hnext state h

theorem Reaches.mono {post post' : Propagation → Prop} {result : Except Status Propagation}
    (h : Reaches nodes edges capacity post result) (hpost : ∀ state, post state → post' state) :
    Reaches nodes edges capacity post' result := by
  cases result with
  | error status => exact h
  | ok state => exact hpost state h

/-- Candidates come in at one node; the schedule and the other nodes stay. -/
structure Added (nodes : List LineageRecord) (edges : List Edge) (capacity : ℕ)
    (candidates : ℕ → Digest256 → ℕ → Prop) (state : Propagation) (node : ℕ)
    (next : Propagation) : Prop where
  tables : Tables nodes edges capacity candidates next
  schedule : SameSchedule state next
  others : ∀ v, v ≠ node → next.relations v = state.relations v

theorem with_of_ne {v : ℕ} (hne : v ≠ node) {length : ℕ} {entries : List RootRecord}
    (h : Minima RootRecord.rootNodeId depthOf (candidates v) entries) :
    Minima RootRecord.rootNodeId depthOf (With candidates node rootId length v) entries :=
  h.congr (fun _ _ hn => .inl hn) fun k m hm => by
    rcases hm with hm | ⟨rfl, -⟩
    · exact ⟨m, hm, le_rfl⟩
    · exact absurd rfl hne

theorem Tables.update (h : Tables nodes edges capacity candidates state)
    (hnode : node < nodes.length) {length : ℕ} (hpair : (node, rootId) ∈ RootPairs nodes edges)
    {entries : List RootRecord} {produced : ℕ}
    (hminima : Minima RootRecord.rootNodeId depthOf
      (fun k d => candidates node k d ∨ (k = rootId ∧ d = length)) entries)
    (hformed : ∀ relation ∈ entries, Formed nodes node relation)
    (hdepth : ∀ relation ∈ entries, depthOf relation ≤ state.processed.length)
    (hproduced : produced + (state.relations node).length = state.produced + entries.length)
    (hroom : produced ≤ capacity) : Tables nodes edges capacity (With candidates node rootId length)
      { state with relations := Function.update state.relations node entries, produced } where
  minima v := by
    dsimp only
    by_cases heq : v = node
    · subst heq
      rw [Function.update_self]
      exact hminima.congr (fun k d hd => hd.imp_right fun hd => ⟨rfl, hd⟩)
        fun k d hd => ⟨d, hd.imp_right And.right, le_rfl⟩
    · rw [Function.update_of_ne heq]
      exact with_of_ne heq (h.minima v)
  pairs v k d hd := by
    rcases hd with hd | ⟨rfl, rfl, -⟩
    · exact h.pairs v k d hd
    · exact hpair
  formed v := by
    dsimp only
    by_cases heq : v = node
    · subst heq
      rwa [Function.update_self]
    · rw [Function.update_of_ne heq]
      exact h.formed v
  produced := by
    have hsum := sum_update nodes.length state.relations hnode entries
    have hbefore := h.produced
    dsimp only
    omega
  room := hroom
  depth v := by
    dsimp only
    by_cases heq : v = node
    · subst heq
      rwa [Function.update_self]
    · rw [Function.update_of_ne heq]
      exact h.depth v

theorem produce_reaches (h : Tables nodes edges capacity candidates state) {node : ℕ}
    (hnode : node < nodes.length) {relation : RootRecord}
    (hpair : (node, relation.rootNodeId) ∈ RootPairs nodes edges)
    (hnew : relation.rootNodeId ∉ (state.relations node).map RootRecord.rootNodeId)
    (hformed : Formed nodes node relation) (hdepth : depthOf relation ≤ state.processed.length) :
    Reaches nodes edges capacity
      (Added nodes edges capacity (With candidates node relation.rootNodeId (depthOf relation)) state node)
      (produce capacity node relation state) := by
  unfold produce
  split
  · rename_i hfull
    exact ⟨rfl, h.lt_ncard hfull hpair hnew⟩
  · rename_i hroom
    refine ⟨h.update hnode hpair ((h.minima node).add hnew)
      (List.forall_mem_cons.2 ⟨hformed, h.formed node⟩)
      (List.forall_mem_cons.2 ⟨hdepth, h.depth node⟩) ?_ (Nat.lt_of_not_le hroom), ⟨rfl, rfl, rfl⟩,
      fun v hv => Function.update_of_ne hv _ _⟩
    rw [List.length_cons]
    omega

theorem succ_depth (relation : RootRecord) (hdepth : depthOf relation < 2 ^ 64 - 1) :
    (relation.pathDepth + 1).toNat = depthOf relation + 1 := by
  unfold depthOf at *
  rw [UInt64.toNat_add, UInt64.toNat_one, Nat.mod_eq_of_lt (by omega)]

theorem mergeRelation_reaches (h : Tables nodes edges capacity candidates state) {child parent : ℕ}
    {record : LineageRecord} (hrecord : nodes[child]? = some record) {relation : RootRecord}
    (hrelation : Formed nodes parent relation)
    (hpair : (child, relation.rootNodeId) ∈ RootPairs nodes edges)
    (hdepth : depthOf relation < state.processed.length) (hsmall : state.processed.length < 2 ^ 64) :
    Reaches nodes edges capacity (Added nodes edges capacity
        (With candidates child relation.rootNodeId (depthOf relation + 1)) state child)
      (mergeRelation capacity child record state relation) := by
  have hchild : child < nodes.length := (List.getElem?_eq_some_iff.1 hrecord).1
  have hsucc := succ_depth relation (by omega)
  unfold mergeRelation
  dsimp only
  split
  · rename_i hnone
    have hnew : relation.rootNodeId ∉ (state.relations child).map RootRecord.rootNodeId := by
      intro hmem
      obtain ⟨found, hfound, heq⟩ := List.mem_map.1 hmem
      have hlt : (state.relations child).findIdx
          (fun existing => decide (existing.rootNodeId = relation.rootNodeId)) <
          (state.relations child).length :=
        List.findIdx_lt_length.2 ⟨found, hfound, decide_eq_true heq⟩
      exact absurd (List.getElem?_eq_none_iff.1 hnone) (Nat.not_le.2 hlt)
    let arrived : RootRecord := { relation with
      nodeId := record.nodeId
      propositionId := record.propositionId
      pathDepth := relation.pathDepth + 1 }
    have harrived : depthOf arrived = depthOf relation + 1 := hsucc
    have hadds := @produce_reaches nodes edges capacity candidates state h child hchild arrived hpair
      hnew ⟨⟨record, hrecord, rfl, rfl⟩, hrelation.root, hrelation.flags⟩ (harrived ▸ hdepth)
    rwa [harrived] at hadds
  · rename_i found hfound
    obtain ⟨hlt, hget⟩ := List.getElem?_eq_some_iff.1 hfound
    have hroot : found.rootNodeId = relation.rootNodeId := by
      rw [← hget]
      exact of_decide_eq_true (List.findIdx_getElem (w := hlt))
    have hmem : found ∈ state.relations child := List.mem_of_getElem? hfound
    have hminima := h.minima child
    generalize (state.relations child).findIdx _ = index at hfound hlt hget ⊢
    rw [← hroot] at hpair ⊢
    split
    · rename_i hless
      have hlower : depthOf relation + 1 < depthOf found := by
        rw [← hsucc]
        exact UInt64.lt_iff_toNat_lt.1 hless
      let lowered := { found with pathDepth := relation.pathDepth + 1 }
      have hlowered : depthOf lowered = depthOf relation + 1 := hsucc
      have hentries : ∀ entry ∈ (state.relations child).set index lowered,
          entry = lowered ∨ entry ∈ state.relations child := fun entry hentry =>
        (List.mem_or_eq_of_mem_set hentry).symm
      refine ⟨h.update hchild hpair ?_ (fun entry hentry => ?_) (fun entry hentry => ?_) ?_ h.room,
        ⟨rfl, rfl, rfl⟩, fun v hv => Function.update_of_ne hv _ _⟩
      · have hsplit : state.relations child = (state.relations child).take index ++
            found :: (state.relations child).drop (index + 1) := by
          rw [← hget, ← List.drop_eq_getElem_cons, List.take_append_drop]
        rw [List.set_eq_take_append_cons_drop, if_pos hlt, ← hlowered]
        rw [hsplit] at hminima
        exact hminima.lower rfl (hlowered ▸ hlower)
      · rcases hentries entry hentry with rfl | hentry
        · obtain ⟨hnode, hroot, hflags⟩ := h.formed child found hmem
          exact ⟨hnode, hroot, hflags⟩
        · exact h.formed child entry hentry
      · rcases hentries entry hentry with rfl | hentry
        · rw [hlowered]
          exact hdepth
        · exact h.depth child entry hentry
      · rw [List.length_set]
    · rename_i hnot
      have hkeep : depthOf found ≤ depthOf relation + 1 := by
        rw [← hsucc]
        exact UInt64.le_iff_toNat_le.1 (UInt64.not_lt.1 hnot)
      have htables := h.update hchild hpair (hminima.keep hmem hkeep) (h.formed child)
        (h.depth child) rfl h.room
      rw [Function.update_eq_self] at htables
      exact ⟨htables, ⟨rfl, rfl, rfl⟩, fun _ _ => rfl⟩

end Laplace.Evidence
