import Laplace.Evidence.Lineage
import Laplace.Lib.Walks

/-!
# The search for cycles (evidence_lineage.c:388-428)

A node is closed after all its parents, so a closed node has no infinite chain of parents. The open
nodes are the stack, and each of them is derived from the one above it, so an edge from the top to
an open node closes a cycle.
-/

namespace Laplace.Evidence

open Program Finset

variable {edges : List Edge}

/-- There is an edge from a child to a parent. -/
def Derived (edges : List Edge) (child parent : ℕ) : Prop := ⟨child, parent⟩ ∈ edges

variable {parent : ℕ}

theorem mem_parents {child : ℕ} : parent ∈ parents edges child ↔ Derived edges child parent := by
  unfold parents Derived
  rw [List.mem_map]
  constructor
  · rintro ⟨edge, hedge, rfl⟩
    obtain ⟨hmem, hchild⟩ := List.mem_filter.1 hedge
    rw [← of_decide_eq_true hchild]
    exact hmem
  · intro h
    exact ⟨_, List.mem_filter.2 ⟨h, decide_eq_true rfl⟩, rfl⟩

theorem mem_children {child : ℕ} : child ∈ children edges parent ↔ Derived edges child parent := by
  unfold children Derived
  rw [List.mem_map]
  constructor
  · rintro ⟨edge, hedge, rfl⟩
    obtain ⟨hmem, hparent⟩ := List.mem_filter.1 hedge
    rw [← of_decide_eq_true hparent]
    exact hmem
  · intro h
    exact ⟨_, List.mem_filter.2 ⟨h, decide_eq_true rfl⟩, rfl⟩

/-- The edges stay among the nodes. -/
def Among (edges : List Edge) (n : ℕ) : Prop := ∀ edge ∈ edges, edge.child < n ∧ edge.parent < n

/-! ## The invariant -/

/-- Every node of the stack has closed the parents before its cursor, up to the node above it. -/
def Stacked (edges : List Edge) (colors : ℕ → Color) : Option ℕ → List (ℕ × ℕ) → Prop
  | _, [] => True
  | above, (node, cursor) :: rest =>
    cursor ≤ (parents edges node).length ∧
    (∀ parent ∈ (parents edges node).take cursor, colors parent = .closed ∨ above = some parent) ∧
    (∀ parent, above = some parent → Derived edges node parent) ∧
    Stacked edges colors (some node) rest

variable {colors : ℕ → Color}

theorem Stacked.mono {colors' : ℕ → Color} (h : ∀ v, colors v = .closed → colors' v = .closed) :
    ∀ {above : Option ℕ} {stack : List (ℕ × ℕ)}, Stacked edges colors above stack →
      Stacked edges colors' above stack
  | _, [], _ => trivial
  | _, _ :: _, ⟨hcursor, hclosed, habove, hrest⟩ =>
    ⟨hcursor, fun parent hparent => (hclosed parent hparent).imp_left (h parent), habove, hrest.mono h⟩

variable {node : ℕ} {rest : List (ℕ × ℕ)}

theorem Stacked.pop (h : Stacked edges colors (some node) rest) (hclosed : colors node = .closed) :
    Stacked edges colors none rest := by
  cases rest with
  | nil => trivial
  | cons below rest =>
    obtain ⟨hcursor, hparents, -, hrest⟩ := h
    refine ⟨hcursor, fun parent hparent => ?_, nofun, hrest⟩
    rcases hparents parent hparent with hparent | habove
    · exact .inl hparent
    · cases habove
      exact .inl hclosed

theorem Stacked.chain : ∀ {above : ℕ} {stack : List (ℕ × ℕ)}, Stacked edges colors (some above) stack →
      (above :: stack.map Prod.fst).IsChain fun above node => Derived edges node above
  | _, [], _ => .singleton _
  | above, _ :: _, ⟨_, _, habove, hrest⟩ => .cons_cons (habove above rfl) hrest.chain

structure SearchSound (edges : List Edge) (n : ℕ) (search : Search) : Prop where
  accessible : ∀ v, search.colors v = .closed → Acc (fun p c => Derived edges c p) v
  opened : ∀ v, search.colors v = .open ↔ v ∈ search.stack.map Prod.fst
  nodup : (search.stack.map Prod.fst).Nodup
  stacked : Stacked edges search.colors none search.stack
  bounded : ∀ v ∈ search.stack.map Prod.fst, v < n

/-! ## The measure -/

/-- What a node costs when it is visited: a round for each parent and one to close it. -/
def cost (edges : List Edge) (node : ℕ) : ℕ := (parents edges node).length + 1

def unvisitedCost (edges : List Edge) (n : ℕ) (colors : ℕ → Color) : ℕ :=
  ∑ v ∈ range n, if colors v = .unvisited then cost edges v else 0

/-- How many rounds the search may still take. -/
def rounds (edges : List Edge) (n : ℕ) (search : Search) : ℕ :=
  unvisitedCost edges n search.colors +
    (search.stack.map fun entry => cost edges entry.1 - entry.2).sum

theorem unvisitedCost_update (edges : List Edge) (n : ℕ) (colors : ℕ → Color) (hnode : node < n)
    {color : Color} (hcolor : color ≠ .unvisited) :
    unvisitedCost edges n (Function.update colors node color) +
      (if colors node = .unvisited then cost edges node else 0) = unvisitedCost edges n colors := by
  have hmem := mem_range.2 hnode
  unfold unvisitedCost
  rw [← add_sum_erase _ _ hmem, ← add_sum_erase (range n)
    (fun v => if colors v = .unvisited then cost edges v else 0) hmem, Function.update_self,
    if_neg hcolor, zero_add, add_comm]
  congr 1
  refine sum_congr rfl fun v hv => ?_
  rw [Function.update_of_ne (ne_of_mem_erase hv)]

theorem unvisitedCost_le (n : ℕ) (colors : ℕ → Color) :
    unvisitedCost edges n colors ≤ n * (edges.length + 1) := by
  have hle : ∀ v ∈ range n, (if colors v = .unvisited then cost edges v else 0) ≤
      edges.length + 1 := by
    intro v _
    have hlength : (parents edges v).length ≤ edges.length := by
      unfold parents
      rw [List.length_map]
      exact List.length_filter_le _ _
    unfold cost
    split
    · omega
    · omega
  have hsum := sum_le_card_nsmul _ _ _ hle
  rwa [card_range, smul_eq_mul] at hsum

/-! ## A round -/

variable {n : ℕ} {nodes : List LineageRecord} {capacity : ℕ}

/-- The search reports a cycle, and there is one. -/
def Cyclic (edges : List Edge) (reason : Failure) (_ : Search) : Prop :=
  (∃ error, reason = .failed .cycle error) ∧ ∃ v, Relation.TransGen (Derived edges) v v

/-- The search reports a cycle with a closed walk, which is copied where the buffer has room for it. -/
def ReportsCycle (nodes : List LineageRecord) (edges : List Edge) (n capacity : ℕ) (reason : Failure)
    (_ : Search) : Prop :=
  ∃ path error, ClosedWalk (Derived edges) path ∧ (∀ v ∈ path, v < n) ∧
    reason = .failed .cycle error ∧ error.cyclePathCount = path.length ∧ error.cyclePath =
      if path.length ≤ capacity then
        some (path.filterMap fun index => nodes[index]?.map LineageRecord.nodeId)
      else none

variable {search : Search}

theorem ReportsCycle.cyclic {reason : Failure}
    (h : ReportsCycle nodes edges n capacity reason search) : Cyclic edges reason search := by
  obtain ⟨path, error, hwalk, -, hreason, -⟩ := h
  exact ⟨⟨error, hreason⟩, hwalk.transGen⟩

/-- The invariant with what the rounds leave alone: how many there may be, and what is visited. -/
structure Searching (edges : List Edge) (n bound : ℕ) (visited : List ℕ) (search : Search) :
    Prop where
  sound : SearchSound edges n search
  room : rounds edges n search ≤ bound
  visited : ∀ v ∈ visited, search.colors v ≠ .unvisited

variable {cursor : ℕ}

theorem SearchSound.close (h : SearchSound edges n search)
    (hstack : search.stack = (node, cursor) :: rest) (hlast : (parents edges node)[cursor]? = none) :
    let next : Search := ⟨Function.update search.colors node .closed, rest⟩
    SearchSound edges n next ∧ rounds edges n next < rounds edges n search := by
  obtain ⟨hcursor, hparents, -, hrest⟩ := hstack ▸ h.stacked
  have hnodup := h.nodup
  have hbounded := h.bounded
  rw [hstack, List.map_cons] at hnodup hbounded
  obtain ⟨hnotin, hnodup⟩ := List.nodup_cons.1 hnodup
  have hopen : search.colors node = .open := (h.opened node).2 (by rw [hstack]; exact List.mem_cons_self)
  have hlength := List.getElem?_eq_none_iff.1 hlast
  have hkept : ∀ v, search.colors v = .closed →
      Function.update search.colors node .closed v = .closed := by
    intro v hv
    by_cases heq : v = node
    · rw [heq, Function.update_self]
    · rwa [Function.update_of_ne heq]
  refine ⟨⟨fun v hv => ?_, fun v => ?_, hnodup, ?_, fun v hv => hbounded v
    (List.mem_cons_of_mem _ hv)⟩, ?_⟩
  · by_cases heq : v = node
    · subst heq
      refine Acc.intro _ fun parent hparent => h.accessible parent ?_
      have hmem := mem_parents.2 hparent
      rw [List.take_of_length_le hlength] at hparents
      exact (hparents parent hmem).resolve_right nofun
    · dsimp only at hv
      rw [Function.update_of_ne heq] at hv
      exact h.accessible v hv
  · dsimp only
    by_cases heq : v = node
    · subst heq
      rw [Function.update_self]
      exact iff_of_false nofun hnotin
    · rw [Function.update_of_ne heq, h.opened v, hstack, List.map_cons, List.mem_cons]
      exact or_iff_right heq
  · exact (hrest.mono hkept).pop (Function.update_self ..)
  · have hcost := unvisitedCost_update edges n search.colors
      (hbounded node List.mem_cons_self) (nofun : Color.closed ≠ .unvisited)
    rw [hopen, if_neg nofun] at hcost
    unfold rounds
    rw [hstack, List.map_cons, List.sum_cons]
    unfold cost at *
    dsimp only
    omega

theorem SearchSound.advance (h : SearchSound edges n search)
    (hstack : search.stack = (node, cursor) :: rest) (hparent : (parents edges node)[cursor]? = some parent)
    (hclosed : search.colors parent = .closed) :
    let next : Search := { search with stack := (node, cursor + 1) :: rest }
    SearchSound edges n next ∧ rounds edges n next < rounds edges n search := by
  obtain ⟨hcursor, hparents, -, hrest⟩ := hstack ▸ h.stacked
  obtain ⟨hlt, -⟩ := List.getElem?_eq_some_iff.1 hparent
  have hopened := h.opened
  have hnodup := h.nodup
  have hbounded := h.bounded
  rw [hstack] at hopened hnodup hbounded
  refine ⟨⟨h.accessible, hopened, hnodup, ⟨hlt, fun v hv => ?_, nofun, hrest⟩, hbounded⟩, ?_⟩
  · rw [List.take_add_one, hparent, Option.toList_some] at hv
    rcases List.mem_append.1 hv with hv | hv
    · exact hparents v hv
    · exact .inl (List.mem_singleton.1 hv ▸ hclosed)
  · unfold rounds cost
    rw [hstack]
    simp only [List.map_cons, List.sum_cons]
    omega

theorem SearchSound.visit (h : SearchSound edges n search) (hstack : search.stack = (node, cursor) :: rest)
    (hparent : (parents edges node)[cursor]? = some parent)
    (hunvisited : search.colors parent = .unvisited) (hamong : Among edges n) :
    let next : Search := ⟨Function.update search.colors parent .open,
      (parent, 0) :: (node, cursor + 1) :: rest⟩
    SearchSound edges n next ∧ rounds edges n next < rounds edges n search := by
  obtain ⟨hcursor, hparents, -, hrest⟩ := hstack ▸ h.stacked
  obtain ⟨hlt, -⟩ := List.getElem?_eq_some_iff.1 hparent
  have hderived : Derived edges node parent := mem_parents.1 (List.mem_of_getElem? hparent)
  have hparentlt : parent < n := (hamong _ hderived).2
  have hopened := h.opened
  have hnodup := h.nodup
  have hbounded := h.bounded
  rw [hstack] at hopened hnodup hbounded
  have hnotin : parent ∉ ((node, cursor) :: rest).map Prod.fst := fun hmem => by
    rw [(hopened parent).2 hmem] at hunvisited
    cases hunvisited
  have hkept : ∀ v, search.colors v = .closed →
      Function.update search.colors parent .open v = .closed := by
    intro v hv
    have hne : v ≠ parent := by
      rintro rfl
      rw [hunvisited] at hv
      cases hv
    rwa [Function.update_of_ne hne]
  refine ⟨⟨fun v hv => ?_, fun v => ?_, List.nodup_cons.2 ⟨hnotin, hnodup⟩, ?_, ?_⟩, ?_⟩
  · dsimp only at hv
    by_cases heq : v = parent
    · subst heq
      rw [Function.update_self] at hv
      cases hv
    · rw [Function.update_of_ne heq] at hv
      exact h.accessible v hv
  · dsimp only
    by_cases heq : v = parent
    · subst heq
      rw [Function.update_self]
      exact iff_of_true rfl List.mem_cons_self
    · rw [Function.update_of_ne heq, hopened v]
      exact (List.mem_cons.trans (or_iff_right heq)).symm
  · refine ⟨Nat.zero_le _, fun v hv => absurd hv List.not_mem_nil, nofun, hlt, fun v hv => ?_, ?_,
      hrest.mono hkept⟩
    · rw [List.take_add_one, hparent, Option.toList_some] at hv
      rcases List.mem_append.1 hv with hv | hv
      · exact .inl (hkept v ((hparents v hv).resolve_right nofun))
      · exact .inr (congrArg some (List.mem_singleton.1 hv).symm)
    · rintro _ ⟨⟩
      exact hderived
  · exact List.forall_mem_cons.2 ⟨hparentlt, hbounded⟩
  · have hcost := unvisitedCost_update edges n search.colors hparentlt
      (nofun : Color.open ≠ .unvisited)
    rw [hunvisited, if_pos rfl] at hcost
    unfold rounds
    rw [hstack]
    simp only [List.map_cons, List.sum_cons]
    unfold cost at *
    omega

theorem SearchSound.reportsCycle (h : SearchSound edges n search)
    (hstack : search.stack = (node, cursor) :: rest)
    (hparent : (parents edges node)[cursor]? = some parent) (hopen : search.colors parent = .open) :
    ReportsCycle nodes edges n capacity (.failed .cycle (cyclePath nodes capacity search.stack parent))
      search := by
  obtain ⟨-, -, -, hrest⟩ := hstack ▸ h.stacked
  have hderived : Derived edges node parent := mem_parents.1 (List.mem_of_getElem? hparent)
  have hmem := (h.opened parent).1 hopen
  have hinside : parent ∈ node :: rest.map Prod.fst := by rwa [hstack] at hmem
  have hwalk := closedWalk_of_stack hrest.chain hinside hderived
  refine ⟨_, _, hwalk, List.forall_mem_append.2
    ⟨fun v hv => h.bounded v ?_, List.forall_mem_singleton.2 (h.bounded parent hmem)⟩, rfl, ?_, ?_⟩
  · rw [hstack]
    exact List.mem_reverse.1 ((List.dropWhile_suffix _).subset hv)
  · rw [hstack]
    rfl
  · rw [hstack]
    rfl

theorem visited_update {visited : List ℕ} (h : ∀ v ∈ visited, search.colors v ≠ .unvisited)
    (node : ℕ) {color : Color} (hcolor : color ≠ .unvisited) :
    ∀ v ∈ visited, Function.update search.colors node color v ≠ .unvisited := by
  intro v hv
  by_cases heq : v = node
  · rw [heq, Function.update_self]
    exact hcolor
  · rw [Function.update_of_ne heq]
    exact h v hv

theorem searchStep_meets (hamong : Among edges n) (bound : ℕ) (visited : List ℕ) (m : ℕ) :
    Meets (searchStep nodes edges capacity)
      (fun search => Searching edges n bound visited search ∧ rounds edges n search = m)
      (fun more search => if more then
          Searching edges n bound visited search ∧ rounds edges n search < m
        else Searching edges n bound visited search ∧ search.stack = [])
      (ReportsCycle nodes edges n capacity) := by
  refine .get_then fun search => ?_
  split
  · rename_i hstack
    refine .pure ?_
    rintro _ ⟨⟨h, -⟩, rfl⟩
    exact ⟨h, hstack⟩
  · rename_i node cursor rest hstack
    have hgoes : ∀ {next : Search}, SearchSound edges n next →
        rounds edges n next < rounds edges n search →
        (∀ v ∈ visited, next.colors v ≠ .unvisited) → ∀ {s : Search},
        (Searching edges n bound visited s ∧ rounds edges n s = m) ∧ s = search →
        Searching edges n bound visited next ∧ rounds edges n next < m := by
      rintro next hsound hless hvisited _ ⟨⟨h, rfl⟩, rfl⟩
      exact ⟨⟨hsound, hless.le.trans h.room, hvisited⟩, hless⟩
    split
    · rename_i hlast
      refine .modify_then _ ?_ (.pure fun _ h => h)
      rintro _ ⟨h, rfl⟩
      obtain ⟨hsound, hless⟩ := h.1.sound.close hstack hlast
      exact hgoes hsound hless (visited_update h.1.visited node nofun) ⟨h, rfl⟩
    · rename_i parent hparent
      split
      · rename_i hopen
        refine .throw ?_
        rintro _ ⟨⟨h, -⟩, rfl⟩
        exact h.sound.reportsCycle hstack hparent hopen
      · rename_i hunvisited
        refine .modify_then _ ?_ (.pure fun _ h => h)
        rintro _ ⟨h, rfl⟩
        obtain ⟨hsound, hless⟩ := h.1.sound.visit hstack hparent hunvisited hamong
        exact hgoes hsound hless (visited_update h.1.visited parent nofun) ⟨h, rfl⟩
      · rename_i hclosed
        refine .modify_then _ ?_ (.pure fun _ h => h)
        rintro _ ⟨h, rfl⟩
        obtain ⟨hsound, hless⟩ := h.1.sound.advance hstack hparent hclosed
        exact hgoes hsound hless h.1.visited ⟨h, rfl⟩

/-! ## The whole search -/

theorem SearchSound.restart (h : SearchSound edges n search) (hstack : search.stack = [])
    {start : ℕ} (hstart : start < n) (hunvisited : search.colors start = .unvisited) :
    let next : Search := ⟨Function.update search.colors start .open, [(start, 0)]⟩
    SearchSound edges n next ∧ rounds edges n next = rounds edges n search := by
  have hopened := h.opened
  rw [hstack] at hopened
  refine ⟨⟨fun v hv => ?_, fun v => ?_, List.nodup_singleton _,
    ⟨Nat.zero_le _, fun v hv => absurd hv List.not_mem_nil, nofun, trivial⟩,
    List.forall_mem_singleton.2 hstart⟩, ?_⟩
  · dsimp only at hv
    by_cases heq : v = start
    · subst heq
      rw [Function.update_self] at hv
      cases hv
    · rw [Function.update_of_ne heq] at hv
      exact h.accessible v hv
  · dsimp only
    by_cases heq : v = start
    · subst heq
      rw [Function.update_self]
      exact iff_of_true rfl List.mem_cons_self
    · rw [Function.update_of_ne heq, hopened v]
      exact iff_of_false List.not_mem_nil fun hv => heq (List.mem_singleton.1 hv)
  · have hcost := unvisitedCost_update edges n search.colors hstart
      (nofun : Color.open ≠ .unvisited)
    rw [hunvisited, if_pos rfl] at hcost
    unfold rounds
    rw [hstack]
    simp only [List.map_cons, List.map_nil, List.sum_cons, List.sum_nil]
    omega

theorem searchFrom_meets (hamong : Among edges n) {bound fuel : ℕ} (hfuel : bound < fuel) :
    ∀ (starts visited : List ℕ), (∀ start ∈ starts, start < n) →
      Meets (searchFrom nodes edges capacity fuel starts)
        (fun search => Searching edges n bound visited search ∧ search.stack = [])
        (fun _ search => Searching edges n bound (visited ++ starts) search ∧ search.stack = [])
        (ReportsCycle nodes edges n capacity)
  | [], visited, _ => .pure fun search h => by rwa [List.append_nil]
  | start :: starts, visited, hstarts => by
    obtain ⟨hstart, hstarts⟩ := List.forall_mem_cons.1 hstarts
    have hrest := searchFrom_meets hamong hfuel starts (visited ++ [start]) hstarts
    rw [List.append_assoc, List.singleton_append] at hrest
    refine .get_then fun search => .ite (fun hvisited => ?_) fun hunvisited => ?_
    · refine hrest.mono ?_ (fun _ _ h => h) fun _ _ h => h
      rintro _ ⟨⟨h, hstack⟩, rfl⟩
      exact ⟨⟨h.sound, h.room, List.forall_mem_append.2
        ⟨h.visited, List.forall_mem_singleton.2 hvisited⟩⟩, hstack⟩
    · rw [not_not] at hunvisited
      refine .modify_then (fun next => Searching edges n bound (visited ++ [start]) next ∧
        rounds edges n next < fuel) ?_ (.bind ?_ fun _ => hrest)
      · rintro _ ⟨⟨h, hstack⟩, rfl⟩
        obtain ⟨hsound, hrounds⟩ := h.sound.restart hstack hstart hunvisited
        refine ⟨⟨hsound, hrounds.le.trans h.room, List.forall_mem_append.2
          ⟨visited_update h.visited start nofun, List.forall_mem_singleton.2 ?_⟩⟩,
          hrounds ▸ h.room.trans_lt hfuel⟩
        dsimp only
        rw [Function.update_self]
        exact nofun
      · exact .loop (searchStep_meets hamong bound (visited ++ [start])) fuel

theorem searching_start (edges : List Edge) (n : ℕ) :
    Searching edges n (n * (edges.length + 1)) [] ⟨fun _ => .unvisited, []⟩ where
  sound := ⟨nofun, fun _ => iff_of_false nofun List.not_mem_nil, List.nodup_nil, trivial,
    List.forall_mem_nil _⟩
  room := unvisitedCost_le n _
  visited := List.forall_mem_nil _

theorem searchFrom_reports (hamong : Among edges n) {fuel : ℕ} (hfuel : n * (edges.length + 1) < fuel)
    {reason : Failure} {last : Search}
    (h : (searchFrom nodes edges capacity fuel (List.range n)).eval ⟨fun _ => .unvisited, []⟩ =
      (.error reason, last)) : ReportsCycle nodes edges n capacity reason last :=
  (searchFrom_meets hamong hfuel (List.range n) [] fun _ hv => List.mem_range.1 hv).of_error
    ⟨searching_start edges n, rfl⟩ h

theorem searchFrom_spec (hamong : Among edges n) {fuel : ℕ} (hfuel : n * (edges.length + 1) < fuel) :
    match ((searchFrom nodes edges capacity fuel (List.range n)).eval ⟨fun _ => .unvisited, []⟩).1 with
    | .ok () => ∀ v < n, Acc (fun p c => Derived edges c p) v
    | .error reason => (∃ error, reason = .failed .cycle error) ∧
        ∃ v, Relation.TransGen (Derived edges) v v := by
  have hmeets := @searchFrom_meets edges n nodes capacity hamong _ fuel hfuel (List.range n) []
    (fun v hv => List.mem_range.1 hv)
    ⟨fun _ => .unvisited, []⟩ ⟨searching_start edges n, rfl⟩
  rcases hrun : (searchFrom nodes edges capacity fuel (List.range n)).eval
    ⟨fun _ => .unvisited, []⟩ with ⟨reason | ⟨⟩, last⟩
  · rw [hrun] at hmeets
    exact hmeets.cyclic
  · rw [hrun] at hmeets
    obtain ⟨h, hstack⟩ := hmeets
    intro v hv
    refine h.sound.accessible v ?_
    have hvisited := h.visited v (List.mem_range.2 hv)
    cases hcolor : last.colors v with
    | unvisited => exact absurd hcolor hvisited
    | «open» =>
      have hmem := (h.sound.opened v).1 hcolor
      rw [hstack] at hmem
      exact absurd hmem List.not_mem_nil
    | closed => rfl

/-! ## The stack -/

/-- The states of a search: the one before it, and those that a new start and a round leave. -/
inductive SearchState (nodes : List LineageRecord) (edges : List Edge) (capacity : ℕ) : Search → Prop
  | before : SearchState nodes edges capacity ⟨fun _ => .unvisited, []⟩
  | start {search : Search} {start : ℕ} (state : SearchState nodes edges capacity search)
    (stack : search.stack = []) (node : start < nodes.length)
    (unvisited : search.colors start = .unvisited) :
    SearchState nodes edges capacity ⟨Function.update search.colors start .open, [(start, 0)]⟩
  | round {search next : Search} {more : Bool} (state : SearchState nodes edges capacity search)
    (step : (searchStep nodes edges capacity).eval search = (.ok more, next)) :
    SearchState nodes edges capacity next

theorem SearchState.sound (hamong : Among edges nodes.length)
    (h : SearchState nodes edges capacity search) : SearchSound edges nodes.length search := by
  induction h with
  | before => exact (searching_start edges nodes.length).sound
  | start _ hstack hnode hunvisited ih => exact (ih.restart hstack hnode hunvisited).1
  | @round search next more _ hstep ih =>
    have hround := (searchStep_meets hamong (rounds edges nodes.length search) [] _).of_ok
      ⟨⟨ih, le_rfl, List.forall_mem_nil _⟩, rfl⟩ hstep
    cases more with
    | false => exact hround.1.sound
    | true => exact hround.1.sound

theorem SearchState.stack_le (hamong : Among edges nodes.length)
    (h : SearchState nodes edges capacity search) : search.stack.length ≤ nodes.length := by
  have hsound := h.sound hamong
  have hsubset : search.stack.map Prod.fst ⊆ List.range nodes.length := fun v hv =>
    List.mem_range.2 (hsound.bounded v hv)
  have hle := (hsound.nodup.subperm hsubset).length_le
  rwa [List.length_map, List.length_range] at hle

end Laplace.Evidence
