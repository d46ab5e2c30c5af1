import Laplace.QuerySearch.Invariant

/-!
# Paths: the parent walk of `AddPath`

`Reached s i ts` says that the parent links lead from a root to node `i` over the transitions `ts`.
`parentWalk_reached` shows that the walk of `AddPath` always finds them, `Reached.chained` and its
companions what they amount to, and `addPath_ok` that the path it stores is sound.
-/

namespace Laplace.QuerySearch

open Laplace.Checked

/-- The transitions lead from the first state to the second: each starts at the id where the one
before it ended. -/
inductive Chained : State → List Transition → State → Prop
  | nil (state : State) : Chained state [] state
  | cons {state last : State} {transition : Transition} {rest : List Transition}
    (hs : transition.sourceStateId = state.stateId) (h : Chained transition.target rest last) :
    Chained state (transition :: rest) last

theorem Chained.snoc {first last : State} {transitions : List Transition} {transition : Transition}
    (h : Chained first transitions last) (hs : transition.sourceStateId = last.stateId) :
    Chained first (transitions ++ [transition]) transition.target := by
  induction h with
  | nil state => exact .cons hs (.nil _)
  | cons hs' _ ih => exact .cons hs' (ih hs)

/-- The weighted cost of a list of transitions. -/
def Program.pathWeight (program : Program) (transitions : List Transition) : Nat :=
  (transitions.map program.weight).sum

/-- What a returned path promises. -/
structure PathSound (program : Program) (initials : List State) (path : Path) : Prop where
  chain : ∃ first ∈ initials, ∃ last, Chained first path.transitions last ∧
    last.stateId = path.summary.terminalStateId ∧ last.terminal = true ∧
    path.summary.terminalDepth.toNat = first.depth.toNat + path.transitions.length
  cost : path.summary.totalCost.toNat = program.pathWeight path.transitions
  count : path.summary.transitionCount.toNat = path.transitions.length
  distinct : (path.transitions.map (·.transitionId)).Nodup
  roots : path.summary.independentEvidenceRootCount.toNat =
    ((path.transitions.map (·.evidenceRootFingerprint)).toFinset.erase 0).card

namespace Search

/-- The parent links lead from a root to node `i` over these transitions. -/
inductive Reached (s : Search) : Nat → List Transition → Prop
  | root {i : Nat} (h : (s.node i).hasParent = false) : Reached s i []
  | step {i : Nat} {transitions : List Transition} (h : (s.node i).hasParent = true)
    (hr : Reached s (s.node i).parent transitions) :
    Reached s i (transitions ++ [(s.node i).incoming])

variable {program : Program} {initials : List State} {s : Search}

/-- The walk of `AddPath` reaches a root in as many rounds as there are nodes. -/
theorem parentWalk_reached (h : Static program initials s) :
    ∀ (rounds i : Nat) (path : List Transition), i < s.nodes.length → i < rounds →
      ∃ transitions, parentWalk s.nodes rounds i path = some (transitions ++ path) ∧ Reached s i transitions
  | 0, _, _, _, hr => by omega
  | rounds + 1, i, path, hi, hr => by
    have hnode : s.nodes.getD i {} = s.node i := rfl
    cases hp : (s.node i).hasParent with
    | false => exact ⟨[], by simp only [parentWalk, hnode, hp]; rfl, .root hp⟩
    | true =>
      have hlt := (h.derived i hi hp).parent_lt
      obtain ⟨transitions, hw, hreach⟩ :=
        parentWalk_reached h rounds (s.node i).parent ((s.node i).incoming :: path) (by omega) (by omega)
      refine ⟨transitions ++ [(s.node i).incoming], ?_, .step hp hreach⟩
      have hin : ¬ (s.node i).parent ≥ s.nodes.length := by omega
      simp only [parentWalk, hnode, hp, if_true, hin, if_false, hw, List.append_assoc,
        List.singleton_append]

theorem Reached.mem (h : Static program initials s) {i : Nat} {transitions : List Transition}
    (hr : Reached s i transitions) (hi : i < s.nodes.length) :
    ∀ t ∈ transitions, ∃ j ≤ i, (s.node j).hasParent = true ∧ (s.node j).incoming = t := by
  induction hr with
  | root _ => simp
  | @step i transitions hp _ ih =>
    have hlt := (h.derived i hi hp).parent_lt
    intro t ht
    rcases List.mem_append.1 ht with ht | ht
    · obtain ⟨j, hj, h1, h2⟩ := ih (by omega) t ht
      exact ⟨j, by omega, h1, h2⟩
    · exact ⟨i, Nat.le_refl _, hp, (List.mem_singleton.1 ht).symm⟩

theorem Reached.nodup (h : Static program initials s) {i : Nat} {transitions : List Transition}
    (hr : Reached s i transitions) (hi : i < s.nodes.length) :
    (transitions.map (·.transitionId)).Nodup := by
  induction hr with
  | root _ => exact List.nodup_nil
  | @step i transitions hp hr ih =>
    have hlt := (h.derived i hi hp).parent_lt
    rw [List.map_append, List.map_singleton]
    refine List.Nodup.append (ih (by omega)) (List.nodup_singleton _) ?_
    rw [List.disjoint_singleton]
    intro hmem
    obtain ⟨t, ht, heq⟩ := List.mem_map.1 hmem
    obtain ⟨j, hj, hpj, rfl⟩ := hr.mem h (by omega) t ht
    exact h.fresh i hi j (by omega) hp hpj heq

theorem Reached.chained (h : Static program initials s) {i : Nat} {transitions : List Transition}
    (hr : Reached s i transitions) (hi : i < s.nodes.length) :
    ∃ first ∈ initials, Chained first transitions (s.node i).state ∧
      (s.node i).accumulatedCost.toNat = program.pathWeight transitions ∧
      (s.node i).state.depth.toNat = first.depth.toNat + transitions.length := by
  induction hr with
  | @root i hp =>
    obtain ⟨hc, hm⟩ := h.root i hi hp
    exact ⟨_, hm, .nil _, by simp [hc, Program.pathWeight], by simp⟩
  | @step i transitions hp _ ih =>
    have hd := h.derived i hi hp
    obtain ⟨first, hf, hch, hcost, hdepth⟩ := ih (Nat.lt_trans hd.parent_lt hi)
    refine ⟨first, hf, ?_, ?_, ?_⟩
    · have := hch.snoc hd.source
      rwa [hd.target] at this
    · simp only [Program.pathWeight, List.map_append, List.sum_append, List.map_singleton,
        List.sum_singleton] at hcost ⊢
      rw [hd.cost, hcost]
    · rw [hd.depth, hdepth, List.length_append, List.length_singleton]
      omega

theorem evidenceRootCount_eq (transitions : List Transition) : evidenceRootCount transitions =
      ((transitions.map (·.evidenceRootFingerprint)).toFinset.erase 0).card := by
  rw [evidenceRootCount, ← List.card_toFinset]
  congr 1
  ext root
  simp [and_comm]

theorem evidenceRootCount_le (transitions : List Transition) :
    evidenceRootCount transitions ≤ transitions.length := by
  refine ((List.dedup_sublist _).length_le).trans ((List.length_filter_le _ _).trans ?_)
  rw [List.length_map]

variable {blake3 : Blake3}

/-- `AddPath` on a terminal node of the search cannot fail, and the path it appends is sound. -/
theorem addPath_ok (h : Static program initials s) {i : Nat} (hi : i < s.nodes.length)
    (ht : (s.node i).state.terminal = true) : ∃ path hasher, addPath program blake3 i s =
        (.ok, { s with paths := s.paths ++ [path], executionHasher := hasher }) ∧
      PathSound program initials path ∧ path.summary.totalCost = (s.node i).accumulatedCost ∧
      path.summary.terminalStateId = (s.node i).state.stateId ∧
      path.summary.rank = UInt32.ofNat (s.paths.length + 1) := by
  obtain ⟨transitions, hw, hr⟩ := parentWalk_reached h s.nodes.length i [] hi hi
  rw [List.append_nil] at hw
  obtain ⟨first, hf, hch, hcost, hdepth⟩ := hr.chained h hi
  have hlen : transitions.length < 2 ^ 64 := by
    have := (s.node i).state.depth.toNat_lt
    omega
  have hroots := evidenceRootCount_le transitions
  let path := s.pathOf program blake3 (s.node i) transitions
  refine ⟨path, s.executionHasher ++ path.summary.pathId.bytes, by simp only [addPath, hw]; rfl, ?_,
    rfl, rfl, rfl⟩
  exact
    { chain := ⟨first, hf, _, hch, rfl, ht, hdepth⟩
      cost := hcost
      count := Checked.toNat_ofNat hlen
      distinct := hr.nodup h hi
      roots := by
        rw [← evidenceRootCount_eq]
        exact Checked.toNat_ofNat (by omega) }

end Search

end Laplace.QuerySearch
