import Laplace.QuerySearch.Emission
import Laplace.QuerySearch.Run

/-!
# The frontier (query_search_part02.inc:73-189, part03.inc:1-30, part01.inc:225-242)

`FrontierOk` is what the frontier budget and the lazy removal of queue entries rest on: the counter
is the number of live nodes, each of them has one live entry, and the kept labels of a dominance
key are incomparable. `Good` gives it wherever `Run` has not failed; here are the failures. Only
one of them breaks it: `InsertNode` stores its node before it looks at the priority, so OVERFLOW
leaves a node that is neither counted nor queued.
-/

namespace Laplace.QuerySearch

open Laplace.Checked

namespace Search

/-- The number of live entries of node `i`. -/
def liveEntries (s : Search) (i : Nat) : Nat :=
  s.frontier.countP fun entry => s.entryLive entry && entry.nodeIndex == i

/-- The counter, the queue and the labels of a search agree. -/
structure FrontierOk (s : Search) : Prop where
  count : s.activeFrontierCount.toNat = s.nodes.countP Node.live
  entries : ∀ i < s.nodes.length, (s.node i).live = true → s.liveEntries i = 1
  antichain : Antichain s

/-- A search whose last node was stored and then given up: without it the frontier is sound. -/
def Abandoned (s : Search) : Prop :=
  ∃ t n, FrontierOk t ∧ s = t.storeNode n ∧ n.live = true ∧ Antichain s

variable {blake3 : Blake3} {program : Program} {initials : List State}
  {s t : Search}

theorem countP_key_eq_one {entries : List QueueEntry} {p : QueueEntry → Bool} {i : Nat}
    (hnodup : (entries.map (·.nodeIndex)).Nodup) (hmem : ∃ e ∈ entries, e.nodeIndex = i ∧ p e = true) :
    entries.countP (fun e => p e && e.nodeIndex == i) = 1 := by
  induction entries with
  | nil =>
    obtain ⟨e, he, -⟩ := hmem
    cases he
  | cons x rest ih =>
    rw [List.map_cons, List.nodup_cons] at hnodup
    obtain ⟨hx, hrest⟩ := hnodup
    obtain ⟨e, he, hi, hp⟩ := hmem
    rcases List.mem_cons.1 he with rfl | he
    · -- the others have other keys
      have hnone : rest.countP (fun e => p e && e.nodeIndex == i) = 0 := by
        rw [List.countP_eq_zero]
        intro y hy hyi
        simp only [Bool.and_eq_true, beq_iff_eq] at hyi
        exact hx (List.mem_map.2 ⟨y, hy, hyi.2.trans hi.symm⟩)
      rw [List.countP_cons_of_pos (by simp [hi, hp]), hnone]
    · have hne : x.nodeIndex ≠ i := fun hxi =>
        hx (List.mem_map.2 ⟨e, he, hi.trans hxi.symm⟩)
      rw [List.countP_cons_of_neg (by simp [hne])]
      exact ih hrest ⟨e, he, hi, hp⟩

theorem QueueOk.liveEntries_eq (h : QueueOk program s) {i : Nat} (hi : i < s.nodes.length)
    (hl : (s.node i).live = true) : s.liveEntries i = 1 := by
  obtain ⟨e, he, rfl⟩ := h.live i hi hl
  exact countP_key_eq_one h.nodup ⟨e, he, rfl, by rw [h.entryLive_iff he]; exact hl⟩

theorem QueueOk.frontierOk (h : QueueOk program s) (ha : Antichain s) : FrontierOk s where
  count := h.active
  entries _ hi hl := h.liveEntries_eq hi hl
  antichain := ha

theorem WellFormed.frontierOk (h : WellFormed program initials s) : FrontierOk s :=
  h.queue.frontierOk h.antichain

theorem SameCore.frontierOk (h : SameCore s t) (ho : FrontierOk s) : FrontierOk t where
  count := by rw [h.active, h.nodes]; exact ho.count
  entries i hi hl := by
    rw [h.nodes] at hi
    rw [h.node] at hl
    rw [← ho.entries i hi hl, liveEntries, liveEntries, h.frontier]
    refine List.countP_congr fun entry _ => ?_
    rw [entryLive, entryLive, h.nodes, h.node]
  antichain i hi j hj := by
    rw [h.nodes] at hi hj
    rw [h.node, h.node]
    exact ho.antichain i hi j hj

/-! ## `InsertNode` when it fails -/

/-- `InsertNode` prunes a dominated label, so it does not fail on one. -/
theorem insertNode_overflow_not_dominated {state : State} {cost : UInt64} {parent : Nat}
    {incoming : Option Transition} {inserted : Bool} (hl : LabelsOk s)
    (h : insertNode program state cost parent incoming s = (.overflow, inserted, t)) :
    ∀ i < s.nodes.length, (s.node i).state.dominanceKey = state.dominanceKey →
      dominates (s.node i) cost state.depth = false := by
  intro i hi hkey
  by_contra hdom
  rw [Bool.not_eq_false] at hdom
  have hany : ((s.register state).labels state.dominanceKey).any
      (fun index => dominates ((s.register state).node index) cost state.depth) = true :=
    List.any_eq_true.2 ⟨i, (LabelsOk.mem hl).2 ⟨hi, hkey⟩, hdom⟩
  unfold insertNode at h
  rcases registerIdentity_cases state s with ⟨hreg, -⟩ | ⟨hreg, -⟩
  · rw [hreg] at h
    dsimp only at h
    rw [if_pos hany] at h
    cases h
  · rw [hreg] at h
    cases h

/-- What `InsertNode` leaves behind, whatever it returns. -/
theorem WellFormed.insertNode_frontier {state : State} {cost : UInt64} {parent : Nat}
    {incoming : Option Transition} {status : Status} {inserted : Bool} (hw : WellFormed program initials s)
    (hi : Insertable program initials s state cost parent incoming)
    (h : insertNode program state cost parent incoming s = (status, inserted, t)) :
    FrontierOk t ∨ status = .overflow ∧ Abandoned t := by
  have hnot := fun ho : status = .overflow =>
    insertNode_overflow_not_dominated hw.static.labels (ho ▸ h)
  have hr := (@insertNode_result program) hw.static.labels state cost parent incoming
  rw [h] at hr
  generalize hres : (status, inserted, t) = r at hr
  cases hr with
  | identity =>
    injection hres with _ hres
    injection hres with _ hres
    subst hres
    exact .inl hw.frontierOk
  | refused hu ha =>
    injection hres with _ hres
    injection hres with _ hres
    subst hres
    have hq : QueueOk program (s.register state) :=
      ⟨hw.queue.sorted, hw.queue.entry, hw.queue.nodup, hw.queue.live, hw.queue.active⟩
    have hchain : Antichain (s.register state) := hw.antichain
    exact .inl ((hq.mark hu (ha hw.queue.active)).frontierOk (hchain.relabel hu.relabelled hu.dominated))
  | @overflow u hu =>
    injection hres with hstatus hres
    injection hres with _ hres
    subst hres
    have hchain : Antichain (s.register state) := hw.antichain
    have hq : QueueOk program (s.register state) :=
      ⟨hw.queue.sorted, hw.queue.entry, hw.queue.nodup, hw.queue.live, hw.queue.active⟩
    have hok : FrontierOk u := (hq.mark hu.toMarked (hu.active hq.active)).frontierOk
      (hchain.relabel hu.relabelled hu.dominated)
    exact .inr ⟨hstatus, u, _, hok, rfl, rfl, hchain.insert hu (hnot hstatus)⟩
  | pruned hid hlt hkey hdom =>
    injection hres with hstatus hres
    injection hres with hinserted hres
    subst hstatus hinserted hres
    exact .inl (InsertResult.wellFormed (.pruned hid hlt hkey hdom) hi hw).frontierOk
  | exhausted hid hu hb =>
    injection hres with hstatus hres
    injection hres with hinserted hres
    subst hstatus hinserted hres
    exact .inl (InsertResult.wellFormed (.exhausted hid hu hb) hi hw).frontierOk
  | inserted hid hd hu hclosed hb ho =>
    injection hres with hstatus hres
    injection hres with hinserted hres
    subst hstatus hinserted hres
    exact .inl (InsertResult.wellFormed (.inserted hid hd hu hclosed hb ho) hi hw).frontierOk

end Search

/-! ## Along a run -/

open Search

/-- The state ids of the batch that is being filled or expanded. -/
def Phase.batchIds : Phase → Search → List Digest256
  | .pop _ _ batch, s => batch.map fun index => (s.node index).state.stateId
  | .expand batch, s => batch.map fun index => (s.node index).state.stateId
  | .insert sources _, _ => sources.map (·.1)
  | _, _ => []

/-- What holds of the frontier at a point of a run. -/
def FrontierPoint {σ : Type} (e : Execution σ) : Prop :=
  FrontierOk e.search ∨ e.phase = .halted .overflow ∧ Abandoned e.search

variable {blake3 : Blake3} {program : Program} {initials : List State} {σ : Type}
  {provider : Provider σ} {e e' : Execution σ}

theorem BatchOk.stateIds_nodup {s : Search} {batch : List Nat} (h : BatchOk program s batch)
    (hw : WellFormed program initials s) : (batch.map fun index => (s.node index).state.stateId).Nodup :=
  (List.nodup_map_iff_inj_on h.nodup).2 fun _ hi _ hj hij => h.stateId_inj hw hi hj hij

theorem Good.batchIds_nodup (h : Good program initials e) : (e.phase.batchIds e.search).Nodup := by
  obtain ⟨phase, s, p⟩ := e
  obtain ⟨hw, hp, -⟩ := h
  cases phase with
  | pop m limit batch => exact BatchOk.stateIds_nodup hp (hw rfl)
  | expand batch => exact BatchOk.stateIds_nodup hp (hw rfl)
  | insert sources rest => exact SourcesOk.nodup hp
  | addInitial | harvest | select | halted => exact List.nodup_nil

theorem Good.frontierPoint (h : Good program initials e) (hf : e.phase.failed = false) : FrontierPoint e :=
  .inl (h.wellFormed hf).frontierOk

theorem runInitial_frontier {s : Search} {rest : List State} {p : σ}
    (hw : WellFormed program initials s) (hsub : rest ⊆ initials) :
    FrontierPoint (⟨(s.runInitial program rest).1, (s.runInitial program rest).2, p⟩ : Execution σ) := by
  cases rest with
  | nil => exact .inl hw.frontierOk
  | cons state rest =>
    simp only [runInitial]
    split
    · exact .inl hw.frontierOk
    rename_i hv
    have hi : Insertable program initials s state 0 0 none :=
      .initial (by simpa using hv) (hsub (by simp))
    unfold addInitial
    obtain ⟨status, inserted, t, hr⟩ : ∃ status inserted t,
        insertNode program state 0 0 none s = (status, inserted, t) := ⟨_, _, _, rfl⟩
    have hpoint := hw.insertNode_frontier hi hr
    rw [hr]
    rcases hpoint with hok | ⟨rfl, habandoned⟩
    · refine .inl ?_
      cases status with
      | ok =>
        -- inserted, pruned or out of budget: the search is the same
        cases hx : t.resourceExhausted <;> cases inserted <;> simpa [hx] using hok
      | _ => exact hok
    · exact .inr ⟨rfl, habandoned⟩

theorem expandBatchDone_frontier {s : Search} {p : σ} (h : FrontierOk s) :
    FrontierPoint (⟨(s.expandBatchDone blake3 program).1, (s.expandBatchDone blake3 program).2, p⟩ :
      Execution σ) := by
  unfold expandBatchDone
  split
  · exact .inl ((finalize_core s).frontierOk h)
  · exact .inl h

theorem insertTransition_frontier {s : Search} {sources : List (Digest256 × Nat)}
    {rest : List Transition} {p : σ} (hw : WellFormed program initials s)
    (hs : SourcesOk program s sources) : FrontierPoint (⟨(s.insertTransition blake3 program sources rest).1,
      (s.insertTransition blake3 program sources rest).2, p⟩ : Execution σ) := by
  cases rest with
  | nil => exact expandBatchDone_frontier hw.frontierOk
  | cons tr rest =>
    unfold insertTransition
    dsimp only
    split
    · exact .inl hw.frontierOk
    rename_i source accumulated hc
    have hi := (checkTransition_ok hc).insertable hs hw
    have hrecord := hw.record tr.transitionId
    obtain ⟨status, inserted, t, hr⟩ : ∃ status inserted t,
        insertNode program tr.target accumulated source (some tr)
          { s with transitionIds := tr.transitionId :: s.transitionIds } = (status, inserted, t) :=
      ⟨_, _, _, rfl⟩
    rw [hr]
    rcases hrecord.insertNode_frontier hi hr with hok | ⟨rfl, habandoned⟩
    · cases status with
      | ok =>
        dsimp only
        have hhashed := (hashInsertion_core tr inserted t).frontierOk hok
        split
        · exact expandBatchDone_frontier hhashed
        · exact .inl hhashed
      | _ => exact .inl hok
    · exact .inr ⟨rfl, habandoned⟩

/-- **Step lemma.** -/
theorem Good.step_frontier (h : Good program initials e)
    (hs : step blake3 program provider e = some e') : FrontierPoint e' := by
  have hm := h.move hs
  have hgood := hm.good h
  obtain ⟨phase, s, p⟩ := e
  obtain ⟨hw, hp, -⟩ := h
  cases phase with
  | addInitial rest =>
    injection hs with hs
    subst hs
    exact runInitial_frontier (hw rfl) hp
  | insert sources rest =>
    injection hs with hs
    subst hs
    exact insertTransition_frontier (hw rfl) hp
  | expand batch =>
    cases hm with
    | callFails => exact .inl ((countCall_core _ _).frontierOk (hw rfl).frontierOk)
    | noRecordsLeft | callLimited | call => exact hgood.frontierPoint rfl
  | harvest =>
    cases hm with
    | harvestDone => exact hgood.frontierPoint rfl
    | harvestPath => exact hgood.frontierPoint (by split <;> rfl)
  | select =>
    cases hm with
    | enoughPaths | frontierEmpty | budgetReached | openBatch => exact hgood.frontierPoint rfl
  | pop m limit batch =>
    cases hm with
    | popDone =>
      refine hgood.frontierPoint ?_
      unfold popBatchDone
      split
      · rfl
      · split <;> rfl
    | popPath | popLastPath | popNode | popCut => exact hgood.frontierPoint rfl
  | halted => cases hs

theorem start_frontier (state : σ) : FrontierPoint (start blake3 program initials state) := by
  refine .inl ⟨?_, ?_, ?_⟩
  all_goals
    unfold start
    dsimp only
    split
  all_goals first | rfl | exact fun i hi => absurd hi (Nat.not_lt_zero i)

/-- **The frontier.** At every point of every run, unless `Run` has returned OVERFLOW, the counter,
the queue and the labels agree; after an OVERFLOW they agree but for the node stored last. No batch
holds a state twice. -/
theorem reachable_frontier {state : σ}
    (h : Machine.Reaches (step blake3 program provider) (start blake3 program initials state) e) :
    (e.phase ≠ .halted .overflow → FrontierOk e.search) ∧
    (e.phase = .halted .overflow → FrontierOk e.search ∨ Abandoned e.search) ∧
    Antichain e.search ∧ (e.phase.batchIds e.search).Nodup := by
  have hpoint : FrontierPoint e :=
    reachable_keeps h (start_frontier state) fun _ _ hg hs _ _ => hg.step_frontier hs
  have hids := (reachable_good h).batchIds_nodup
  rcases hpoint with hok | ⟨hphase, habandoned⟩
  · exact ⟨fun _ => hok, fun _ => .inl hok, hok.antichain, hids⟩
  · obtain ⟨t, n, -, -, -, hchain⟩ := id habandoned
    exact ⟨fun hne => absurd hphase hne, fun _ => .inr habandoned, hchain, hids⟩

/-- The one-edge graph, with its first batch waiting to be expanded. -/
def edgeWaiting : Execution Unit :=
  Machine.run (step (fun _ => 1) edgeProgram (edgeProvider stateTerminal)) 6
    (start (fun _ => 1) edgeProgram [edgeStart] ())

theorem reachable_frontier_edge : edgeWaiting.phase = .expand [0] ∧ FrontierOk edgeWaiting.search ∧
    (edgeWaiting.phase.batchIds edgeWaiting.search).Nodup := by
  have hphase : edgeWaiting.phase = .expand [0] := by decide +kernel
  obtain ⟨hok, -, -, hids⟩ := reachable_frontier (@Machine.reaches_run _
    (step (fun _ => 1) edgeProgram (edgeProvider stateTerminal)) 6
    (start (fun _ => 1) edgeProgram [edgeStart] ()))
  exact ⟨hphase, hok (hphase ▸ nofun), hids⟩

/-! ## An overflow -/

/-- An A* program. -/
def astarProgram : Program :=
  .plain (Flag.astar ||| Flag.heuristicConsistent) 1 1

/-- With the largest heuristic cost there is. -/
def farStart : State := .plain 1 1 0xFFFFFFFFFFFFFFFF

/-- The priority of `farStart` overflows, when its node is already stored. -/
theorem overflow_uncounted :
    ¬ ∀ (blake3 : Blake3) (program : Program) (initials : List State)
      (provider : Provider Unit) (e : Execution Unit), requestValid program provider = true →
      Machine.Reaches (step blake3 program provider) (start blake3 program initials ()) e →
      FrontierOk e.search ∧ (e.phase.batchIds e.search).Nodup := by
  intro hall
  have hreach := @Machine.reaches_run _ (step (fun _ => 1) astarProgram (edgeProvider 0)) 1
    (start (fun _ => 1) astarProgram [farStart] ())
  have hcount := (hall _ _ _ _ _ (by decide +kernel) hreach).1.count
  exact absurd hcount (by decide +kernel)

end Laplace.QuerySearch
