import Laplace.QuerySearch.Optimality
import Laplace.QuerySearch.Disposition

/-!
# What the certificates mean

For a provider that emits the transitions of each state: a certified path is the cheapest chain to a
terminal state within the depth limit, and `NO_ADMISSIBLE_PATH` says that there is no such chain.
-/

namespace Laplace.QuerySearch

open Search

/-- A chain of emitted transitions between two states. -/
inductive EmitChain (emit : State → List Transition) : State → List Transition → State → Prop
  | nil (state : State) : EmitChain emit state [] state
  | cons {state last : State} {transition : Transition} {rest : List Transition}
    (ht : transition ∈ emit state) (h : EmitChain emit transition.target rest last) :
    EmitChain emit state (transition :: rest) last

/-- The costs of the chains from an initial state to a terminal state within the depth limit. -/
def solutionCosts (program : Program) (emit : State → List Transition) (initials : List State) :
    Set Nat :=
  { cost | ∃ first ∈ initials, ∃ transitions last, EmitChain emit first transitions last ∧
    last.terminal = true ∧
    first.depth.toNat + transitions.length ≤ program.budget.maxDepth.toNat ∧
    program.pathWeight transitions = cost }

variable {blake3 : Blake3} {program : Program} {initials : List State}
  {emit : State → List Transition} {σ : Type} {provider : Provider σ} {state : σ}

theorem continues_iff {source : State} {k w : Nat} : (emissionGraph program emit).Continues source k w ↔
      ∃ transitions last, EmitChain emit source transitions last ∧ last.terminal = true ∧
        transitions.length = k ∧ program.pathWeight transitions = w := by
  constructor
  · intro h
    induction h with
    | here hg => exact ⟨[], _, .nil _, hg, rfl, rfl⟩
    | step he _ ih =>
      obtain ⟨transition, ht, rfl, rfl⟩ := he
      obtain ⟨transitions, last, hchain, hterm, rfl, rfl⟩ := ih
      exact ⟨_, last, .cons ht hchain, hterm, rfl, by simp [Program.pathWeight]⟩
  · rintro ⟨transitions, last, hchain, hterm, rfl, rfl⟩
    induction hchain with
    | nil => exact .here hterm
    | cons ht _ ih =>
      have := Graph.Continues.step (G := emissionGraph program emit) ⟨_, ht, rfl, rfl⟩ (ih hterm)
      simpa [Program.pathWeight] using this

theorem mem_solutionCosts {cost : Nat} :
    cost ∈ solutionCosts program emit initials ↔ ∃ first ∈ initials, ∃ k,
      (emissionGraph program emit).Continues first k cost ∧
      first.depth.toNat + k ≤ program.budget.maxDepth.toNat := by
  constructor
  · rintro ⟨first, hf, transitions, last, hchain, hterm, hdepth, hcost⟩
    exact ⟨first, hf, transitions.length,
      continues_iff.2 ⟨transitions, last, hchain, hterm, rfl, hcost⟩, hdepth⟩
  · rintro ⟨first, hf, k, hc, hdepth⟩
    obtain ⟨transitions, last, hchain, hterm, rfl, rfl⟩ := continues_iff.1 hc
    exact ⟨first, hf, transitions, last, hchain, hterm, hdepth, rfl⟩

/-- **Optimality.** A certified search returns a cheapest path first, and the costs do not fall. -/
theorem certified_optimal {outcome : Outcome} (hem : Emits provider emit)
    (hlaw : DominanceLaw program emit initials)
    (hadm : program.has Flag.astar = true → AdmissibleHeuristic program emit initials)
    (h : execute blake3 program provider initials state = some outcome) (hok : outcome.status = .ok)
    (hcert : hasFlag outcome.receipt.flags ReceiptFlag.optimalCertified = true) :
    ∃ best rest, outcome.paths = some (best :: rest) ∧ best.summary.rank = 1 ∧
      IsLeast (solutionCosts program emit initials) best.summary.totalCost.toNat ∧
      (∀ k (hk : k < (best :: rest).length), (best :: rest)[k].summary.rank = UInt32.ofNat (k + 1)) ∧
      (best :: rest).Pairwise fun a b => a.summary.totalCost.toNat ≤ b.summary.totalCost.toNat := by
  obtain ⟨e', he', hc⟩ := (certified_iff h).1 (.inr hcert)
  obtain ⟨e, he, rfl⟩ := execute_ok h hok
  obtain rfl := he.unique he'
  have hw := (reachable_good he.reaches).wellFormed he.not_failed
  have ho := (reachable_bestFirst hem hadm he.reaches).ordered he.not_failed
  simp only [certifies, stopAfterTerminal, Bool.and_eq_true, decide_eq_true_eq] at hc
  have hpositive := (programValid_positive (requestValid_program he.request)).1
  cases hp : e'.search.paths with
  | nil =>
    rw [hp, List.length_nil] at hc
    omega
  | cons best rest =>
    have hranked := hw.ranked
    obtain ⟨hsorted, hbest, hattained⟩ := ho
    rw [hp] at hsorted hbest hattained
    simp only [hp] at hranked
    refine ⟨best, rest, by rw [closeOutcome_ok_paths, hp], ?_, ⟨?_, ?_⟩, hranked, hsorted⟩
    · exact hranked 0 (by simp)
    · obtain ⟨first, hf, k, hcont, hdepth⟩ := hattained best (by simp)
      exact mem_solutionCosts.2 ⟨first, hf, k, hcont, hdepth⟩
    · intro cost hcost
      obtain ⟨first, hf, k, hcont, hdepth⟩ := mem_solutionCosts.1 hcost
      exact hbest hlaw best rfl first hf k cost hcont hdepth

theorem edge_reachable {flags : UInt32} {v : State}
    (h : (emissionGraph edgeProgram (edgeEmit flags)).Reachable (· ∈ [edgeStart]) v) :
    v = edgeStart ∨ v = edgeEnd flags := by
  refine h.inside (P := fun v => v = edgeStart ∨ v = edgeEnd flags)
    (fun v hv => .inl (List.mem_singleton.1 hv)) fun v c u _ he => ?_
  obtain ⟨transition, ht, rfl, -⟩ := he
  exact .inr (edge_emitted ht)

theorem edge_injective {flags : UInt32} {u v : State}
    (hu : (emissionGraph edgeProgram (edgeEmit flags)).Reachable (· ∈ [edgeStart]) u)
    (hv : (emissionGraph edgeProgram (edgeEmit flags)).Reachable (· ∈ [edgeStart]) v)
    (hk : u.dominanceKey = v.dominanceKey) : u = v := by
  rcases edge_reachable hu with rfl | rfl <;> rcases edge_reachable hv with rfl | rfl
  · rfl
  · cases hk
  · cases hk
  · rfl

/-- The certified path over one edge. -/
theorem certified_optimal_edge : ∃ outcome best rest,
      execute (fun _ => 1) edgeProgram (edgeProvider stateTerminal) [edgeStart] () = some outcome ∧
      outcome.paths = some (best :: rest) ∧
      IsLeast (solutionCosts edgeProgram (edgeEmit stateTerminal) [edgeStart])
        best.summary.totalCost.toNat := by
  obtain ⟨outcome, h⟩ := Option.isSome_iff_exists.1
    (@execute_isSome (fun _ => 1) edgeProgram [edgeStart] _ (edgeProvider stateTerminal) ())
  have hrun : (execute (fun _ => 1) edgeProgram (edgeProvider stateTerminal) [edgeStart] ()).map
      (fun outcome => (outcome.status, hasFlag outcome.receipt.flags ReceiptFlag.optimalCertified)) =
      some (.ok, true) := by decide +kernel
  rw [h, Option.map_some, Option.some.injEq, Prod.mk.injEq] at hrun
  obtain ⟨best, rest, hp, -, hleast, -⟩ := certified_optimal (edge_emits stateTerminal)
    (.of_injective fun _ _ => edge_injective) (fun hastar => by cases hastar) h hrun.1 hrun.2
  exact ⟨outcome, best, rest, h, hp, hleast⟩

theorem finalDisposition_eq_none {s : Search}
    (h : s.finalDisposition program = Disposition.noAdmissiblePath) :
    s.paths = [] ∧ s.resourceExhausted = false := by
  unfold finalDisposition at h
  simp only at h
  split at h
  · cases h
  split at h
  · split at h <;> cases h
  rename_i hp
  have hp : s.paths = [] := by simpa using hp
  split at h
  · cases h
  rename_i hx
  exact ⟨hp, by simpa using hx⟩

/-- States of one dominance key that a run can meet have the same continuations to a terminal state;
their costs may differ. -/
def ContinuationLaw (program : Program) (emit : State → List Transition) (initials : List State) :
    Prop :=
  (emissionGraph program emit).unweighted.Congruent (· ∈ initials) State.dominanceKey

/-- The weights aside, a continuation of an initial state is settled by a kept terminal node, or
there is an open one. -/
theorem Explored.settles_unweighted {phase : Phase} {s : Search}
    (hlaw : ContinuationLaw program emit initials)
    (hst : Static program initials s) (hx : Explored program emit initials phase s)
    (haw : phase.awaiting = []) {first : State} (hf : first ∈ initials) {k w : Nat}
    (hc : (emissionGraph program emit).Continues first k w)
    (hd : first.depth.toNat + k ≤ program.budget.maxDepth.toNat) :
    (∃ i < s.nodes.length, (s.node i).dominated = false ∧ (s.node i).state.terminal = true) ∨
      ∃ i < s.nodes.length, OpenNode phase s i := by
  have hcov : Covers s first.dominanceKey 0 first.depth.toNat := by
    rcases hx.initial first hf with h | h
    · rw [haw] at h
      cases h
    · exact h
  obtain ⟨i, hi, hdom, hkey, -, hdepth⟩ := hcov
  have hfree : Graph.CoveredBy
      { l : Label State | l.cost = 0 ∧ ∃ c, ⟨l.vertex, c, l.depth⟩ ∈ s.labelSet }
      State.dominanceKey first.dominanceKey 0 first.depth.toNat :=
    ⟨⟨(s.node i).state, 0, (s.node i).state.depth.toNat⟩, ⟨rfl, _, i, hi, hdom, rfl⟩, hkey,
      Nat.le_refl _, hdepth⟩
  rcases (hx.cut emissionGraph_spans hst).unweighted.covers_root hlaw (.root hf) hfree hc.unweighted hd with
    ⟨_, ⟨-, _, j, hj, hjd, heq⟩, hg, -⟩ | ⟨_, -, ⟨_, j, hj, hopen, -⟩, -⟩
  · injection heq with hvertex
    exact .inl ⟨j, hj, hjd, by rw [← hvertex]; exact hg⟩
  · exact .inr ⟨j, hj, hopen⟩

/-- **Completeness of the negative answer.** When no admissible path is reported, no chain leads to
a terminal state within the depth limit. -/
theorem no_admissible_path {outcome : Outcome} (hem : Emits provider emit)
    (hlaw : ContinuationLaw program emit initials)
    (h : execute blake3 program provider initials state = some outcome) (hok : outcome.status = .ok)
    (hnone : outcome.receipt.disposition = Disposition.noAdmissiblePath) :
    ∀ first ∈ initials, ∀ transitions last, EmitChain emit first transitions last →
      first.depth.toNat + transitions.length ≤ program.budget.maxDepth.toNat → last.terminal = false := by
  obtain ⟨e, he, rfl⟩ := execute_ok h hok
  have hw := (reachable_good he.reaches).wellFormed he.not_failed
  obtain ⟨s, hsearch, -⟩ := (reachable_finalized he.reaches).ended he.phase
  have hpositive := (programValid_positive (requestValid_program he.request)).1
  have hdisp : e.search.finalDisposition program = Disposition.noAdmissiblePath := by
    rw [← hnone, hsearch]
    rfl
  obtain ⟨hpaths, hx⟩ := finalDisposition_eq_none hdisp
  have hstop : e.search.stopAfterTerminal program = false := by
    simp only [stopAfterTerminal, hpaths, List.length_nil, ge_iff_le, decide_eq_false_iff_not]
    omega
  rcases (reachable_explored hem he.reaches).ended he.phase with hs | hs | ⟨hexplored, hdead⟩
  · rw [hstop] at hs
    cases hs
  · rw [hx] at hs
    cases hs
  obtain ⟨harvest, hh⟩ := reachable_harvest he.reaches he.not_failed hx
  have hempty : harvest = [] := by
    have := hh.costs
    rw [hpaths] at this
    simpa using this.symm
  rw [he.phase] at hexplored
  intro first hf transitions last hchain hdepth
  cases hterm : last.terminal with
  | false => rfl
  | true =>
    -- the chain would be settled by a closed terminal node, or pass through an open one
    have hc := (@continues_iff program).2 ⟨transitions, last, hchain, hterm, rfl, rfl⟩
    rcases hexplored.settles_unweighted hlaw hw.static rfl hf hc hdepth with
      ⟨i, hi, hdom, ht⟩ | ⟨i, hi, hopen⟩
    · have hclosed : (e.search.node i).closed = true := by
        have := hdead i hi
        simpa [Node.live, hdom] using this
      have hmem := (hh.mem i).2 ⟨hi, hclosed, ht⟩
      rw [hempty] at hmem
      cases hmem
    · rcases hopen with hl | hm | hm
      · rw [hdead i hi] at hl
        cases hl
      · cases hm
      · cases hm

/-- The one-edge graph without a terminal state. -/
theorem no_admissible_path_edge : (execute (fun _ => 1) edgeProgram (edgeProvider 0) [edgeStart] ()).map
        (fun outcome => outcome.receipt.disposition) = some Disposition.noAdmissiblePath ∧
      ∀ first ∈ [edgeStart], ∀ transitions last, EmitChain (edgeEmit 0) first transitions last →
        first.depth.toNat + transitions.length ≤ edgeProgram.budget.maxDepth.toNat →
        last.terminal = false := by
  obtain ⟨outcome, h⟩ := Option.isSome_iff_exists.1
    (@execute_isSome (fun _ => 1) edgeProgram [edgeStart] _ (edgeProvider 0) ())
  have hrun : (execute (fun _ => 1) edgeProgram (edgeProvider 0) [edgeStart] ()).map
      (fun outcome => (outcome.status, outcome.receipt.disposition)) =
      some (.ok, Disposition.noAdmissiblePath) := by decide +kernel
  have hlaw : ContinuationLaw edgeProgram (edgeEmit 0) [edgeStart] :=
    .of_injective fun _ _ hu hv => edge_injective (Graph.reachable_unweighted.1 hu)
      (Graph.reachable_unweighted.1 hv)
  rw [h, Option.map_some, Option.some.injEq, Prod.mk.injEq] at hrun
  exact ⟨by rw [h, Option.map_some, hrun.2], no_admissible_path (edge_emits 0) hlaw h hrun.1 hrun.2⟩

end Laplace.QuerySearch
