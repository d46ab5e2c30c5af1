import Laplace.Evidence.Schedule
import Laplace.Lib.Outcome

/-!
# What a batch resolves to (evidence_lineage.c:225-548)

The records speak of ids. The ids of the nodes increase, so they name the indices, and the walks
between indices are the walks between ids.
-/

namespace Laplace.Evidence

open Program

/-! ## The purpose of a batch -/

/-- A node is derived from another. -/
def Derives (records : List LineageRecord) (child parent : Digest256) : Prop :=
  ∃ edge ∈ edgesOf records, edge.nodeId = child ∧ edge.parentNodeId = parent

/-- A way of some length from a node back to a node without parents. -/
structure RootPath (records : List LineageRecord) (nodeId rootId : Digest256) (length : ℕ) :
    Prop where
  node : ∃ record ∈ nodesOf records, record.nodeId = nodeId
  terminal : Terminal (Derives records) rootId
  walk : Walk (Derives records) nodeId rootId length

/-- The nodes with the roots that they go back to. -/
def rootPairs (records : List LineageRecord) : Set (Digest256 × Digest256) :=
  {pair | ∃ length, RootPath records pair.1 pair.2 length}

/-- No node is derived from itself. -/
def Acyclic (records : List LineageRecord) : Prop := ∀ nodeId, ¬ Relation.TransGen (Derives records) nodeId nodeId

/-- The arguments, the records and the edges pass their checks, and the buffers can be had. -/
structure Admitted (blake3 : Blake3) (records : List LineageRecord)
    (memoryLimitBytes : UInt64) (rootCapacity : ℕ) (memory : Bool) : Prop where
  capacity : 0 < rootCapacity
  nodes : nodesOf records ≠ []
  checked : checkNodes blake3 none 0 (nodesOf records) = .ok ()
  room : ∃ total, total ≤ memoryLimitBytes.toNat ∧ memory = true ∧
    (buffers (nodesOf records).length (edgesOf records).length rootCapacity).foldlM
      checkedAddSize 0 = some total
  edges : ∃ edges, checkEdges (nodesOf records) 0 none (nodesOf records).length (edgesOf records) =
    .ok edges

/-! ## What the checks show -/

variable {blake3 : Blake3} {nodes : List LineageRecord}

theorem checkNodes_increasing : ∀ {previous : Option LineageRecord} {index : ℕ}
    {nodes : List LineageRecord}, checkNodes blake3 previous index nodes = .ok () →
      (∀ before, previous = some before → ∀ node ∈ nodes, before.nodeId.toNat < node.nodeId.toNat) ∧
      nodes.Pairwise fun a b => a.nodeId.toNat < b.nodeId.toNat
  | _, _, [], _ => ⟨fun _ _ => List.forall_mem_nil _, .nil⟩
  | previous, index, node :: nodes, h => by
    unfold checkNodes at h
    split at h
    · cases h
    · split at h
      · cases h
      · split at h
        · cases h
        · rename_i horder
          obtain ⟨hnode, hnodes⟩ := checkNodes_increasing h
          refine ⟨?_, List.pairwise_cons.2 ⟨hnode node rfl, hnodes⟩⟩
          rintro before rfl
          have hbefore : before.nodeId.toNat < node.nodeId.toNat := by
            rw [Option.any_some, decide_eq_true_iff, not_le] at horder
            exact horder
          exact List.forall_mem_cons.2 ⟨hbefore, fun next hnext => hbefore.trans (hnode node rfl next hnext)⟩

theorem findNode_sound {nodeId : Digest256} {index : ℕ} (h : findNode nodes nodeId = some index) :
    index < nodes.length ∧ idAt nodes index = nodeId := by
  unfold findNode at h
  dsimp only at h
  split at h
  · rename_i hany
    cases h
    cases hnode : nodes[bisect nodes nodeId 0 nodes.length]? with
    | none =>
      rw [hnode] at hany
      cases hany
    | some node =>
      rw [hnode, Option.any_some, decide_eq_true_iff] at hany
      exact ⟨(List.getElem?_eq_some_iff.1 hnode).1, (idAt_eq hnode).trans hany⟩
  · cases h

/-- An edge has the indices of the ids of its record. -/
def Names (nodes : List LineageRecord) (record : LineageRecord) (edge : Edge) : Prop :=
  edge.child < nodes.length ∧ idAt nodes edge.child = record.nodeId ∧
    edge.parent < nodes.length ∧ idAt nodes edge.parent = record.parentNodeId

/-- The order of the edges. -/
def edgeKey (record : LineageRecord) : ℕ ×ₗ ℕ :=
  toLex (record.nodeId.toNat, record.parentNodeId.toNat)

theorem edgeDisordered_eq_false_iff {previous edge : LineageRecord} :
    edgeDisordered previous edge = false ↔ edgeKey previous < edgeKey edge := by
  unfold edgeDisordered edgeKey
  rw [Prod.Lex.toLex_lt_toLex, decide_eq_false_iff_not, ← BitVec.toNat_inj]
  omega

theorem checkEdges_cons_ok {capacity : ℕ} {previous : Option LineageRecord} {index : ℕ}
    {record : LineageRecord} {records : List LineageRecord} {edges : List Edge} :
    checkEdges nodes capacity previous index (record :: records) = .ok edges ↔
      ¬ (!edgeValid record) = true ∧ ∃ child parent, findNode nodes record.nodeId = some child ∧
        findNode nodes record.parentNodeId = some parent ∧ child ≠ parent ∧
        ¬ previous.any (edgeDisordered · record) = true ∧ ∃ rest,
          checkEdges nodes capacity (some record) (index + 1) records = .ok rest ∧
            edges = ⟨child, parent⟩ :: rest := by
  rw [checkEdges, refuse_eq_ok]
  refine and_congr_right fun _ => ?_
  cases findNode nodes record.nodeId with
  | none => exact ⟨nofun, nofun⟩
  | some child =>
    cases findNode nodes record.parentNodeId with
    | none => exact ⟨nofun, nofun⟩
    | some parent =>
      simp only [refuse_eq_ok, bind_eq_ok, pure_eq_ok]
      refine ⟨fun h => ⟨child, parent, rfl, rfl, h⟩, ?_⟩
      rintro ⟨_, _, ⟨⟩, ⟨⟩, h⟩
      exact h

theorem checkEdges_names {capacity : ℕ} : ∀ {previous : Option LineageRecord} {index : ℕ}
    {records : List LineageRecord} {edges : List Edge},
    checkEdges nodes capacity previous index records = .ok edges →
      List.Forall₂ (Names nodes) records edges ∧
      (∀ before, previous = some before → ∀ record ∈ records, edgeKey before < edgeKey record) ∧
      records.Pairwise fun a b => edgeKey a < edgeKey b
  | _, _, [], edges, h => by
    cases h
    exact ⟨.nil, fun _ _ => List.forall_mem_nil _, .nil⟩
  | previous, index, record :: records, edges, h => by
    obtain ⟨-, child, parent, hchild, hparent, -, horder, rest, hrest, rfl⟩ :=
      checkEdges_cons_ok.1 h
    obtain ⟨hnames, hfirst, hpairwise⟩ := checkEdges_names hrest
    have hname : Names nodes record ⟨child, parent⟩ :=
      ⟨(findNode_sound hchild).1, (findNode_sound hchild).2, (findNode_sound hparent).1,
        (findNode_sound hparent).2⟩
    refine ⟨.cons hname hnames, ?_, List.pairwise_cons.2 ⟨hfirst record rfl, hpairwise⟩⟩
    rintro before rfl
    have hbefore : edgeKey before < edgeKey record := by
      rw [Option.any_some, Bool.not_eq_true] at horder
      exact edgeDisordered_eq_false_iff.1 horder
    exact List.forall_mem_cons.2 ⟨hbefore, fun next hnext =>
      hbefore.trans (hfirst record rfl next hnext)⟩

theorem checkEdges_capacity (capacity capacity' : ℕ) : ∀ {previous : Option LineageRecord}
    {index : ℕ} {records : List LineageRecord} {edges : List Edge},
    checkEdges nodes capacity previous index records = .ok edges →
      checkEdges nodes capacity' previous index records = .ok edges
  | _, _, [], _, h => h
  | previous, index, record :: records, edges, h => by
    obtain ⟨hvalid, child, parent, hchild, hparent, hne, horder, rest, hrest, hedges⟩ :=
      checkEdges_cons_ok.1 h
    exact checkEdges_cons_ok.2 ⟨hvalid, child, parent, hchild, hparent, hne, horder, rest,
      checkEdges_capacity capacity capacity' hrest, hedges⟩

/-! ## Indices and ids -/

/-- The edges of records that passed the checks. -/
structure Indexed (records : List LineageRecord) (edges : List Edge) : Prop where
  increasing : (nodesOf records).Pairwise fun a b => a.nodeId.toNat < b.nodeId.toNat
  names : List.Forall₂ (Names (nodesOf records)) (edgesOf records) edges
  ordered : (edgesOf records).Pairwise fun a b => edgeKey a < edgeKey b

variable {records : List LineageRecord} {edges : List Edge}

namespace Indexed

theorem names_of_mem (h : Indexed records edges) {edge : Edge} (hedge : edge ∈ edges) :
    ∃ record ∈ edgesOf records, Names (nodesOf records) record edge := by
  obtain ⟨index, hlt, rfl⟩ := List.mem_iff_getElem.1 hedge
  have hlt' : index < (edgesOf records).length := h.names.length_eq ▸ hlt
  exact ⟨_, List.getElem_mem hlt', h.names.get hlt' hlt⟩

theorem edge_of_mem (h : Indexed records edges) {record : LineageRecord}
    (hrecord : record ∈ edgesOf records) : ∃ edge ∈ edges, Names (nodesOf records) record edge := by
  obtain ⟨index, hlt, rfl⟩ := List.mem_iff_getElem.1 hrecord
  have hlt' : index < edges.length := h.names.length_eq ▸ hlt
  exact ⟨_, List.getElem_mem hlt', h.names.get hlt hlt'⟩

theorem among (h : Indexed records edges) : Among edges (nodesOf records).length := fun edge hedge => by
  obtain ⟨record, -, hchild, -, hparent, -⟩ := h.names_of_mem hedge
  exact ⟨hchild, hparent⟩

theorem idAt_getElem {index : ℕ} (hindex : index < nodes.length) :
    idAt nodes index = nodes[index].nodeId := idAt_eq (List.getElem?_eq_getElem hindex)

theorem idAt_lt (h : Indexed records edges) {first second : ℕ} (hlt : first < second)
    (hsecond : second < (nodesOf records).length) :
    (idAt (nodesOf records) first).toNat < (idAt (nodesOf records) second).toNat := by
  rw [idAt_getElem hsecond, idAt_getElem (hlt.trans hsecond)]
  exact List.pairwise_iff_getElem.1 h.increasing first second _ hsecond hlt

theorem idAt_inj (h : Indexed records edges) {first second : ℕ}
    (hfirst : first < (nodesOf records).length) (hsecond : second < (nodesOf records).length)
    (heq : idAt (nodesOf records) first = idAt (nodesOf records) second) : first = second := by
  rcases Nat.lt_trichotomy first second with hlt | rfl | hlt
  · exact absurd (heq ▸ h.idAt_lt hlt hsecond) (lt_irrefl _)
  · rfl
  · exact absurd (heq ▸ h.idAt_lt hlt hfirst) (lt_irrefl _)

theorem nodup (h : Indexed records edges) : edges.Nodup := by
  have hkeys : edges.map (fun edge => (idAt (nodesOf records) edge.child,
      idAt (nodesOf records) edge.parent)) =
      (edgesOf records).map fun record => (record.nodeId, record.parentNodeId) := by
    refine List.ext_getElem (by rw [List.length_map, List.length_map, h.names.length_eq])
      fun index hlt hlt' => ?_
    rw [List.length_map] at hlt hlt'
    obtain ⟨-, hchild, -, hparent⟩ := h.names.get hlt' hlt
    rw [List.getElem_map, List.getElem_map]
    exact Prod.ext hchild hparent
  have hnodup : ((edgesOf records).map fun record => (record.nodeId, record.parentNodeId)).Nodup := by
    rw [List.Nodup, List.pairwise_map]
    refine h.ordered.imp fun {a b} hlt heq => ?_
    obtain ⟨hnode, hparent⟩ := Prod.mk.inj heq
    unfold edgeKey at hlt
    rw [hnode, hparent] at hlt
    exact lt_irrefl _ hlt
  exact .of_map _ (hkeys ▸ hnodup)

theorem derives_map (h : Indexed records edges) (child parent : ℕ) (hedge : Derived edges child parent) :
    Derives records (idAt (nodesOf records) child) (idAt (nodesOf records) parent) := by
  obtain ⟨record, hrecord, -, hchild, -, hparent⟩ := h.names_of_mem hedge
  exact ⟨record, hrecord, hchild.symm, hparent.symm⟩

theorem derives_lift (h : Indexed records edges) (child : ℕ) (parentId : Digest256)
    (hchild : child < (nodesOf records).length)
    (hderives : Derives records (idAt (nodesOf records) child) parentId) :
    ∃ parent, parent < (nodesOf records).length ∧ Derived edges child parent ∧
      idAt (nodesOf records) parent = parentId := by
  obtain ⟨record, hrecord, hid, rfl⟩ := hderives
  obtain ⟨edge, hedge, hlt, hname, hparent, hparentId⟩ := h.edge_of_mem hrecord
  have heq : edge.child = child := h.idAt_inj hlt hchild (hname.trans hid)
  subst heq
  exact ⟨edge.parent, hparent, hedge, hparentId⟩

theorem terminal (h : Indexed records edges) {root : ℕ} (hroot : root < (nodesOf records).length) :
    Terminal (Derived edges) root ↔ Terminal (Derives records) (idAt (nodesOf records) root) := by
  constructor
  · intro hterminal parentId hderives
    obtain ⟨parent, -, hedge, -⟩ := h.derives_lift root parentId hroot hderives
    exact hterminal parent hedge
  · exact fun hterminal parent hedge => hterminal _ (h.derives_map root parent hedge)

theorem rootPath_iff (h : Indexed records edges) {node : ℕ} (hnode : node < (nodesOf records).length)
    {rootId : Digest256} {length : ℕ} : RootPath records (idAt (nodesOf records) node) rootId length ↔
      ∃ root, root < (nodesOf records).length ∧ idAt (nodesOf records) root = rootId ∧
        Terminal (Derived edges) root ∧ Walk (Derived edges) node root length := by
  constructor
  · rintro ⟨-, hterminal, hwalk⟩
    obtain ⟨root, hroot, rfl, hlift⟩ := hwalk.lift h.derives_lift node hnode rfl
    exact ⟨root, hroot, rfl, (h.terminal hroot).2 hterminal, hlift⟩
  · rintro ⟨root, hroot, rfl, hterminal, hwalk⟩
    exact ⟨⟨_, List.getElem_mem hnode, (idAt_getElem hnode).symm⟩, (h.terminal hroot).1 hterminal,
      hwalk.map h.derives_map⟩

theorem exists_index {nodeId : Digest256} (h : ∃ record ∈ nodes, record.nodeId = nodeId) :
    ∃ index, index < nodes.length ∧ idAt nodes index = nodeId := by
  obtain ⟨record, hrecord, rfl⟩ := h
  obtain ⟨index, hlt, rfl⟩ := List.mem_iff_getElem.1 hrecord
  exact ⟨index, hlt, idAt_getElem hlt⟩

theorem ncard_rootPairs (h : Indexed records edges) :
    (rootPairs records).ncard = (RootPairs (nodesOf records) edges).ncard := by
  have himage : rootPairs records =
      (fun pair => (idAt (nodesOf records) pair.1, pair.2)) '' RootPairs (nodesOf records) edges := by
    ext ⟨nodeId, rootId⟩
    constructor
    · rintro ⟨length, hpath⟩
      obtain ⟨node, hnode, rfl⟩ := exists_index hpath.node
      obtain ⟨root, hroot, hid, hterminal, hwalk⟩ := (h.rootPath_iff hnode).1 hpath
      exact ⟨(node, rootId), ⟨hnode, root, length, hroot, hid, hterminal, hwalk⟩, rfl⟩
    · rintro ⟨⟨node, _⟩, ⟨hnode, root, length, hroot, hid, hterminal, hwalk⟩, heq⟩
      cases heq
      exact ⟨length, (h.rootPath_iff hnode).2 ⟨root, hroot, hid, hterminal, hwalk⟩⟩
  rw [himage, Set.InjOn.ncard_image]
  rintro ⟨node, rootId⟩ hpair ⟨node', rootId'⟩ hpair' heq
  obtain ⟨hid, hroot⟩ := Prod.mk.inj heq
  exact Prod.ext (h.idAt_inj hpair.1 hpair'.1 hid) hroot

theorem acyclic (h : Indexed records edges)
    (hacc : ∀ v < (nodesOf records).length, Acc (fun p c => Derived edges c p) v) : Acyclic records := by
  intro nodeId hcycle
  obtain ⟨parentId, hderives, hrest⟩ := Relation.TransGen.head'_iff.1 hcycle
  obtain ⟨length, hwalk⟩ := walk_of_reflTransGen hrest
  obtain ⟨record, hrecord, hid, -⟩ := id hderives
  obtain ⟨edge, -, hlt, hname, -⟩ := h.edge_of_mem hrecord
  rw [← hid, ← hname] at hwalk hderives
  obtain ⟨parent, hparent, hedge, rfl⟩ := h.derives_lift edge.child parentId hlt hderives
  obtain ⟨node, hnode, heq, hlift⟩ := hwalk.lift h.derives_lift parent hparent rfl
  rw [h.idAt_inj hnode hlt heq] at hlift
  have hself : Relation.TransGen (Derived edges) edge.child edge.child := .head' hedge hlift.reflTransGen
  exact not_self_of_acc (hacc edge.child hlt).transGen (Relation.transGen_swap.2 hself)

theorem not_acyclic (h : Indexed records edges) (hcycle : ∃ v, Relation.TransGen (Derived edges) v v) :
    ¬ Acyclic records := by
  obtain ⟨v, hcycle⟩ := hcycle
  exact fun hacyclic => hacyclic _ (hcycle.lift (idAt (nodesOf records)) h.derives_map)

end Indexed

/-! ## The output -/

/-- What a call that succeeds leaves: the roots in their order, each at its shortest depth, and the
rest of the array as it was. -/
structure Delivers (records : List LineageRecord) (roots : List RootRecord) (outcome : Outcome) :
    Prop where
  fits : outcome.rootCount ≤ roots.length
  length : outcome.roots.length = roots.length
  rest : outcome.roots.drop outcome.rootCount = roots.drop outcome.rootCount
  increasing : (outcome.roots.take outcome.rootCount).Pairwise fun a b => rootKey a < rootKey b
  pairs : ∀ nodeId rootId length,
    (∃ root ∈ outcome.roots.take outcome.rootCount,
      root.nodeId = nodeId ∧ root.rootNodeId = rootId ∧ root.pathDepth.toNat = length) ↔
    RootPath records nodeId rootId length ∧
      ∀ other, RootPath records nodeId rootId other → length ≤ other

theorem Formed.nodeId {node : ℕ} {relation : RootRecord} (h : Formed nodes node relation) :
    node < nodes.length ∧ relation.nodeId = idAt nodes node := by
  obtain ⟨record, hrecord, hid, -⟩ := h.node
  exact ⟨(List.getElem?_eq_some_iff.1 hrecord).1, hid.trans (idAt_eq hrecord).symm⟩

/-- The relations of all nodes. -/
def collected (nodes : List LineageRecord) (state : Propagation) : List RootRecord :=
  (List.range nodes.length).flatMap state.relations

variable {state : Propagation}

theorem Resolved.nodup_keys (h : Indexed records edges)
    (hresolved : Resolved (nodesOf records) edges state) :
    ((collected (nodesOf records) state).map rootKey).Nodup := by
  have hkey : ∀ {a b : RootRecord}, rootKey a = rootKey b →
      a.nodeId = b.nodeId ∧ a.rootNodeId = b.rootNodeId := by
    intro a b heq
    obtain ⟨hnode, hroot⟩ := Prod.mk.inj (toLex.injective heq)
    exact ⟨BitVec.eq_of_toNat_eq hnode, BitVec.eq_of_toNat_eq hroot⟩
  unfold collected
  rw [List.map_flatMap, List.nodup_flatMap]
  refine ⟨fun node hnode => ?_, ?_⟩
  · have hnodup := (hresolved.minima node (List.mem_range.1 hnode)).nodup
    rw [List.Nodup, List.pairwise_map] at hnodup ⊢
    exact hnodup.imp fun hne heq => hne (hkey heq).2
  · refine (List.nodup_range.imp_of_mem ?_)
    intro first second hfirst hsecond hne
    refine List.disjoint_left.2 fun key hkey₁ hkey₂ => hne ?_
    obtain ⟨a, ha, rfl⟩ := List.mem_map.1 hkey₁
    obtain ⟨b, hb, heq⟩ := List.mem_map.1 hkey₂
    have hids := (hkey heq).1
    rw [(hresolved.formed _ a ha).nodeId.2, (hresolved.formed _ b hb).nodeId.2] at hids
    exact (h.idAt_inj (List.mem_range.1 hsecond) (List.mem_range.1 hfirst) hids).symm

theorem Resolved.pairs (h : Indexed records edges)
    (hresolved : Resolved (nodesOf records) edges state) (nodeId rootId : Digest256) (length : ℕ) :
    (∃ root ∈ collected (nodesOf records) state,
      root.nodeId = nodeId ∧ root.rootNodeId = rootId ∧ root.pathDepth.toNat = length) ↔
    RootPath records nodeId rootId length ∧
      ∀ other, RootPath records nodeId rootId other → length ≤ other := by
  constructor
  · rintro ⟨relation, hmem, rfl, rfl, rfl⟩
    obtain ⟨node, hnode, hrelation⟩ := List.mem_flatMap.1 hmem
    have hnode := List.mem_range.1 hnode
    have hminima := hresolved.minima node hnode
    rw [(hresolved.formed node relation hrelation).nodeId.2]
    exact ⟨(h.rootPath_iff hnode).2 (hminima.sound relation hrelation), fun other hother =>
      hminima.least relation hrelation other ((h.rootPath_iff hnode).1 hother)⟩
  · rintro ⟨hpath, hleast⟩
    obtain ⟨node, hnode, rfl⟩ := Indexed.exists_index hpath.node
    have hminima := hresolved.minima node hnode
    obtain ⟨relation, hrelation, rfl⟩ := hminima.complete _ _ ((h.rootPath_iff hnode).1 hpath)
    refine ⟨relation, List.mem_flatMap.2 ⟨node, List.mem_range.2 hnode, hrelation⟩,
      (hresolved.formed node relation hrelation).nodeId.2, rfl, ?_⟩
    exact le_antisymm (hminima.least relation hrelation _ ((h.rootPath_iff hnode).1 hpath))
      (hleast _ ((h.rootPath_iff hnode).2 (hminima.sound relation hrelation)))

theorem Resolved.delivers (h : Indexed records edges)
    (hresolved : Resolved (nodesOf records) edges state) (sort : Sorting rootKey)
    {roots : List RootRecord} (hfits : (RootPairs (nodesOf records) edges).ncard ≤ roots.length)
    {outcome : Outcome} (hcount : outcome.rootCount =
      (sort.sort (collected (nodesOf records) state)).length)
    (hroots : outcome.roots = sort.sort (collected (nodesOf records) state) ++
      roots.drop outcome.rootCount) : Delivers records roots outcome := by
  have hlength : outcome.rootCount = (RootPairs (nodesOf records) edges).ncard :=
    hcount.trans ((sort.perm _).length_eq.trans hresolved.count)
  have htake : outcome.roots.take outcome.rootCount =
      sort.sort (collected (nodesOf records) state) := by
    rw [hroots, hcount, List.take_left]
  refine ⟨hlength ▸ hfits, ?_, ?_, ?_, fun nodeId rootId length => ?_⟩
  · rw [hroots, List.length_append, ← hcount, List.length_drop]
    omega
  · rw [hroots, hcount, List.drop_left]
  · rw [htake]
    exact sort.increasing (hresolved.nodup_keys h)
  · rw [htake, ← hresolved.pairs h]
    exact exists_congr fun root => and_congr_left fun _ => (sort.perm _).mem_iff

/-- The three ends of a call whose records are checked. -/
inductive Settled (records : List LineageRecord) (roots : List RootRecord) : Outcome → Prop
  | cycle (error : LineageError) (hcyclic : ¬ Acyclic records) :
    Settled records roots (failedOutcome roots .cycle error)
  | capacity (hacyclic : Acyclic records) (hmany : roots.length < (rootPairs records).ncard) :
    Settled records roots (failedOutcome roots .capacityInsufficient {})
  | ok {outcome : Outcome} (hok : outcome.status = .ok) (hacyclic : Acyclic records)
    (hfits : (rootPairs records).ncard ≤ roots.length) (hdelivers : Delivers records roots outcome) :
    Settled records roots outcome

theorem resolveRoots_settled (blake3 : Blake3) (sort : Sorting rootKey)
    (h : Indexed records edges) (hsmall : (nodesOf records).length < 2 ^ 64) {fuel : ℕ}
    (hsearch : (nodesOf records).length * (edges.length + 1) < fuel)
    (hqueue : (nodesOf records).length < fuel) (roots : List RootRecord) (capacity : ℕ) :
    ∃ outcome, resolveRoots blake3 sort records (nodesOf records) edges roots capacity fuel =
      some outcome ∧ Settled records roots outcome := by
  have hspec := @searchFrom_spec edges _ (nodesOf records) capacity h.among fuel hsearch
  have hseed := @seed_reaches (nodesOf records) edges roots.length h.among _ le_rfl
  unfold resolveRoots
  rcases hrun : (searchFrom (nodesOf records) edges capacity fuel
    (List.range (nodesOf records).length)).eval ⟨fun _ => .unvisited, []⟩ with ⟨reason | ⟨⟩, last⟩
  · rw [hrun] at hspec
    obtain ⟨⟨error, rfl⟩, hcycle⟩ := hspec
    exact ⟨_, rfl, .cycle error (h.not_acyclic hcycle)⟩
  · rw [hrun] at hspec
    have hacyclic := h.acyclic hspec
    rcases hfold : (List.range (nodesOf records).length).foldlM
      (seedNode (nodesOf records) roots.length) (initialPropagation edges) with status | seeded
    · rw [hfold] at hseed
      obtain ⟨rfl, hmany⟩ := hseed
      exact ⟨_, rfl, .capacity hacyclic (h.ncard_rootPairs ▸ hmany)⟩
    · rw [hfold] at hseed
      have hpropagating : Propagating (nodesOf records) edges roots.length seeded := by
        unfold Propagating edgesTo
        rw [hseed.processed]
        simpa only [List.not_mem_nil, Finset.filter_false] using hseed.round h.nodup
      have hmeets : Meets (Program.loop (propagateStep (nodesOf records) edges roots.length)
          .outOfFuel fuel) _ _ _ :=
        .loop (propagateStep_meets h.among h.nodup hspec hsmall) fuel
      have hloop := hmeets seeded ⟨hpropagating, (Nat.sub_le _ _).trans_lt hqueue⟩
      rcases hend : (Program.loop (propagateStep (nodesOf records) edges roots.length) .outOfFuel
        fuel).eval seeded with ⟨reason | ⟨⟩, state⟩
      · rw [hend] at hloop
        obtain ⟨rfl, hmany⟩ := hloop
        dsimp only
        rw [hend]
        exact ⟨_, rfl, .capacity hacyclic (h.ncard_rootPairs ▸ hmany)⟩
      · rw [hend] at hloop
        obtain ⟨hstate, hempty⟩ := hloop
        obtain ⟨hresolved, hfits⟩ := hstate.resolved hspec h.among hempty
        dsimp only
        rw [hend]
        dsimp only
        rw [if_neg (not_not.2 hresolved.processed)]
        refine ⟨_, rfl, .ok rfl hacyclic (h.ncard_rootPairs ▸ hfits) ?_⟩
        exact hresolved.delivers h sort hfits rfl rfl

/-! ## The whole batch -/

theorem checkNodes_status : ∀ (previous : Option LineageRecord) (index : ℕ)
    (nodes : List LineageRecord), Laplace.Outcome (checkNodes blake3 previous index nodes)
      (fun _ => True) fun failure => failure.1 ≠ .ok ∧ failure.1 ≠ .capacityInsufficient
  | _, _, [] => trivial
  | previous, index, node :: nodes => by
    unfold checkNodes
    split
    · exact ⟨nofun, nofun⟩
    · exact .refuse ⟨nofun, nofun⟩ (.refuse ⟨nofun, nofun⟩ (checkNodes_status _ _ nodes))

theorem checkEdges_status (capacity : ℕ) : ∀ (previous : Option LineageRecord) (index : ℕ)
    (records : List LineageRecord), Laplace.Outcome (checkEdges nodes capacity previous index records)
      (fun _ => True) fun failure => failure.1 ≠ .ok ∧ failure.1 ≠ .capacityInsufficient
  | _, _, [] => trivial
  | previous, index, record :: records => by
    unfold checkEdges
    refine .refuse ⟨nofun, nofun⟩ ?_
    split
    · exact .refuse ⟨nofun, nofun⟩ (.refuse ⟨nofun, nofun⟩
        ((checkEdges_status capacity _ _ records).bind fun _ _ => trivial))
    · exact ⟨nofun, nofun⟩

theorem checkedAddSize_le : ∀ {sizes : List (ℕ × ℕ)} {total last : ℕ},
    sizes.foldlM checkedAddSize total = some last → ∀ buffer ∈ sizes, buffer.1 * buffer.2 ≤ sizeMax
  | [], _, _, _ => List.forall_mem_nil _
  | buffer :: sizes, total, last, h => by
    rw [List.foldlM_cons] at h
    obtain ⟨next, hnext, hrest⟩ := Option.bind_eq_some_iff.1 h
    refine List.forall_mem_cons.2 ⟨?_, checkedAddSize_le hrest⟩
    unfold checkedAddSize at hnext
    split at hnext
    · cases hnext
    · rename_i hsize
      rw [not_and_or, not_not, not_lt] at hsize
      rcases hsize with hzero | hle
      · rw [hzero, Nat.zero_mul]
        exact Nat.zero_le _
      · rcases Nat.eq_zero_or_pos buffer.1 with hzero | hpos
        · rw [hzero, Nat.zero_mul]
          exact Nat.zero_le _
        · rw [Nat.mul_comm]
          exact (Nat.le_div_iff_mul_le hpos).1 hle

theorem nodes_small {records : List LineageRecord} {rootCapacity total : ℕ}
    (h : (buffers (nodesOf records).length (edgesOf records).length rootCapacity).foldlM
      checkedAddSize 0 = some total) : (nodesOf records).length < 2 ^ 64 := by
  have hfits : (nodesOf records).length * 8 ≤ sizeMax :=
    checkedAddSize_le h _ (List.mem_cons_of_mem _ List.mem_cons_self)
  unfold sizeMax at hfits
  omega

theorem enough_fuel {records : List LineageRecord} {edges : List Edge} {fuel : ℕ}
    (hlength : edges.length = (edgesOf records).length) (hfuel : (records.length + 1) ^ 2 < fuel) :
    (nodesOf records).length * (edges.length + 1) < fuel ∧ (nodesOf records).length < fuel := by
  have hle : (nodesOf records).length ≤ records.length := (List.takeWhile_sublist _).length_le
  unfold edgesOf at hlength
  rw [List.length_drop] at hlength
  have hproduct : (nodesOf records).length * (edges.length + 1) ≤ (records.length + 1) ^ 2 := by
    rw [sq]
    exact Nat.mul_le_mul (by omega) (by omega)
  have hself : records.length + 1 ≤ (records.length + 1) ^ 2 := Nat.le_self_pow two_ne_zero _
  exact ⟨by omega, by omega⟩

theorem recordLineageBatch_cases (blake3 : Blake3) (sort : Sorting rootKey)
    (records : List LineageRecord) (memoryLimitBytes : UInt64) (roots : List RootRecord)
    (capacity : ℕ) (memory : Bool) {fuel : ℕ} (hfuel : (records.length + 1) ^ 2 < fuel) :
    ∃ outcome, recordLineageBatch blake3 sort records memoryLimitBytes roots capacity memory fuel =
        some outcome ∧
      ((Admitted blake3 records memoryLimitBytes roots.length memory ∧ Settled records roots outcome) ∨
        (¬ Admitted blake3 records memoryLimitBytes roots.length memory ∧ outcome.status ≠ .ok ∧
          outcome.status ≠ .capacityInsufficient ∧ outcome.roots = roots ∧ outcome.rootCount = 0)) := by
  unfold recordLineageBatch
  split
  · rename_i hempty
    refine ⟨_, rfl, .inr ⟨fun h => ?_, nofun, nofun, rfl, rfl⟩⟩
    rcases hempty with rfl | rfl
    · exact h.nodes rfl
    · exact lt_irrefl _ h.capacity
  · rename_i hnonempty
    have hcapacity : 0 < roots.length := List.length_pos_iff.2 fun h => hnonempty (.inr h)
    split
    · rename_i status error hchecked
      obtain ⟨hok, hcap⟩ := (checkNodes_status _ _ _).of_error hchecked
      refine ⟨_, rfl, .inr ⟨fun h => ?_, hok, hcap, rfl, rfl⟩⟩
      rw [h.checked] at hchecked
      cases hchecked
    · rename_i hchecked
      split
      · rename_i hnodes
        exact ⟨_, rfl, .inr ⟨fun h => h.nodes hnodes, nofun, nofun, rfl, rfl⟩⟩
      · rename_i hnodes
        split
        · rename_i hbuffers
          refine ⟨_, rfl, .inr ⟨fun h => ?_, nofun, nofun, rfl, rfl⟩⟩
          obtain ⟨total, -, -, htotal⟩ := h.room
          exact Option.some_ne_none _ (htotal.symm.trans hbuffers)
        · rename_i total hbuffers
          have hroom : ∀ {total'}, (buffers (nodesOf records).length (edgesOf records).length
              roots.length).foldlM checkedAddSize 0 = some total' → total' = total := fun h =>
            Option.some.inj (h.symm.trans hbuffers)
          split
          · rename_i hlimit
            refine ⟨_, rfl, .inr ⟨fun h => ?_, nofun, nofun, rfl, rfl⟩⟩
            obtain ⟨total', hle, -, htotal⟩ := h.room
            exact absurd (hroom htotal ▸ hle) (Nat.not_le.2 hlimit)
          · rename_i hlimit
            split
            · rename_i hmemory
              refine ⟨_, rfl, .inr ⟨fun h => ?_, nofun, nofun, rfl, rfl⟩⟩
              obtain ⟨_, -, rfl, -⟩ := h.room
              cases hmemory
            · rename_i hmemory
              split
              · rename_i status error hedges
                obtain ⟨hok, hcap⟩ := (checkEdges_status _ _ _ _).of_error hedges
                refine ⟨_, rfl, .inr ⟨fun h => ?_, hok, hcap, rfl, rfl⟩⟩
                obtain ⟨edges, hpass⟩ := h.edges
                rw [checkEdges_capacity 0 capacity hpass] at hedges
                cases hedges
              · rename_i edges hedges
                obtain ⟨hnames, -, hordered⟩ := checkEdges_names hedges
                have hindexed : Indexed records edges :=
                  ⟨(checkNodes_increasing hchecked).2, hnames, hordered⟩
                obtain ⟨hsearch, hqueue⟩ := enough_fuel hnames.length_eq.symm hfuel
                obtain ⟨outcome, houtcome, hsettled⟩ := resolveRoots_settled blake3 sort hindexed
                  (nodes_small hbuffers) hsearch hqueue roots capacity
                exact ⟨outcome, houtcome, .inl ⟨⟨hcapacity, hnodes, hchecked,
                  ⟨total, Nat.not_lt.1 hlimit, by simpa using hmemory, hbuffers⟩,
                  ⟨edges, checkEdges_capacity capacity 0 hedges⟩⟩, hsettled⟩⟩

/-- With enough fuel for the search and the queue, a batch resolves to exactly the roots of its
nodes if it has no cycle and the output array has room for them; without room it reports the
capacity, and a call that fails leaves the output array as it is. -/
theorem recordLineageBatch_resolves (blake3 : Blake3) (sort : Sorting rootKey)
    (records : List LineageRecord) (memoryLimitBytes : UInt64) (roots : List RootRecord)
    (capacity : ℕ) (memory : Bool) {fuel : ℕ} (hfuel : (records.length + 1) ^ 2 < fuel) :
    ∃ outcome, recordLineageBatch blake3 sort records memoryLimitBytes roots capacity memory fuel =
        some outcome ∧ (outcome.status = .ok → Delivers records roots outcome) ∧
      (outcome.status = .ok ↔ Admitted blake3 records memoryLimitBytes roots.length memory ∧
        Acyclic records ∧ (rootPairs records).ncard ≤ roots.length) ∧
      (outcome.status = .capacityInsufficient ↔
        Admitted blake3 records memoryLimitBytes roots.length memory ∧
        Acyclic records ∧ roots.length < (rootPairs records).ncard) ∧
      (outcome.status ≠ .ok → outcome.roots = roots ∧ outcome.rootCount = 0) := by
  obtain ⟨outcome, houtcome, hcases⟩ := recordLineageBatch_cases blake3 sort records
    memoryLimitBytes roots capacity memory hfuel
  refine ⟨outcome, houtcome, ?_⟩
  rcases hcases with ⟨hadmitted, hsettled⟩ | ⟨hnot, hok, hcap, hroots, hcount⟩
  · cases hsettled with
    | cycle error hcyclic =>
      exact ⟨nofun, iff_of_false nofun fun h => hcyclic h.2.1,
        iff_of_false nofun fun h => hcyclic h.2.1, fun _ => ⟨rfl, rfl⟩⟩
    | capacity hacyclic hmany =>
      exact ⟨nofun, iff_of_false nofun fun h => Nat.not_le.2 hmany h.2.2,
        iff_of_true rfl ⟨hadmitted, hacyclic, hmany⟩, fun _ => ⟨rfl, rfl⟩⟩
    | ok hok hacyclic hfits hdelivers =>
      refine ⟨fun _ => hdelivers, iff_of_true hok ⟨hadmitted, hacyclic, hfits⟩,
        iff_of_false ?_ fun h => Nat.not_le.2 h.2.2 hfits, fun h => absurd hok h⟩
      rw [hok]
      exact nofun
  · exact ⟨fun h => absurd h hok, iff_of_false hok fun h => hnot h.1,
      iff_of_false hcap fun h => hnot h.1, fun _ => ⟨hroots, hcount⟩⟩

/-- A record of a node whose id is the one that a constant hash gives it. -/
def soloNode : LineageRecord :=
  ⟨1, 0, 0, 0, 0, 0, 1, recordNode, kindObserved, 0, 0⟩

def blankRoot : RootRecord := ⟨0, 0, 0, 0, 0, 0⟩

/-- A hash that tells nodes apart by their ordinals. -/
def ordinalHash (bytes : List UInt8) : Digest256 :=
  BitVec.ofNat 256 ((bytes.drop 40).map UInt8.toNat).sum

/-- Two nodes that are derived from one ancestor. -/
def sharedRecords : List LineageRecord :=
  [⟨2, 0, 0, 0, 0, 0, 1, recordNode, kindObserved, 0, 0⟩,
    ⟨3, 0, 0, 0, 0, 0, 2, recordNode, kindObserved, 0, 0⟩,
    ⟨4, 0, 0, 0, 0, 0, 3, recordNode, kindObserved, 0, 0⟩,
    ⟨3, 0, 0, 0, 0, 2, 0, recordDependenceEdge, 0, 0, 0⟩,
    ⟨4, 0, 0, 0, 0, 2, 0, recordDependenceEdge, 0, 0, 0⟩]

theorem recordLineageBatch_resolves_shared :
    ∃ outcome, recordLineageBatch ordinalHash (.insertion rootKey) sharedRecords 4096
      (List.replicate 3 blankRoot) 0 true 37 = some outcome ∧ outcome.status = .ok ∧
      Delivers sharedRecords (List.replicate 3 blankRoot) outcome := by
  obtain ⟨outcome, houtcome, hdelivers, -⟩ := recordLineageBatch_resolves ordinalHash
    (.insertion rootKey) sharedRecords 4096 (List.replicate 3 blankRoot) 0 true
    (by decide : (5 + 1) ^ 2 < 37)
  have hstatus : (recordLineageBatch ordinalHash (.insertion rootKey) sharedRecords 4096
      (List.replicate 3 blankRoot) 0 true 37).map Outcome.status = some .ok := by
    decide +kernel
  rw [houtcome] at hstatus
  have hok : outcome.status = .ok := Option.some.inj hstatus
  exact ⟨outcome, houtcome, hok, hdelivers hok⟩

/-- A node with one root does not fit an output array without room, yet the status is another. -/
theorem recordLineageBatch_no_room :
    (recordLineageBatch (fun _ => 1) (.stable rootKey) [soloNode] 4096 [blankRoot] 0 true 5).map
      Outcome.status = some .ok ∧ ([] : List RootRecord).length < (rootPairs [soloNode]).ncard ∧
    (recordLineageBatch (fun _ => 1) (.stable rootKey) [soloNode] 4096 [] 0 true 5).map
      Outcome.status = some .invalidArgument := by
  have hpairs : rootPairs [soloNode] = {(1, 1)} := by
    have hedges : ∀ child parent, ¬ Derives [soloNode] child parent := by
      rintro child parent ⟨edge, hedge, -⟩
      exact List.not_mem_nil hedge
    ext ⟨nodeId, rootId⟩
    constructor
    · rintro ⟨length, ⟨record, hrecord, rfl⟩, hterminal, hwalk⟩
      cases hwalk with
      | refl =>
        cases List.mem_singleton.1 hrecord
        rfl
      | cons step => exact absurd step (hedges _ _)
    · rintro ⟨⟩
      exact ⟨0, ⟨soloNode, List.mem_singleton_self _, rfl⟩, hedges 1, .refl _⟩
  refine ⟨rfl, ?_, rfl⟩
  rw [hpairs, Set.ncard_singleton]
  exact Nat.zero_lt_one

end Laplace.Evidence
