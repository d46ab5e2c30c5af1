import Laplace.QuerySearch.Execute

/-!
# Providers whose emissions are a function of each state

`Emits provider emit` is the promise of a provider that answers from a transition function: whenever
it answers at all, the transitions of every state of the batch arrive, in some order.
`Provider.ofEmission` is such a provider, with a disposition of its own choice in the receipt.
-/

namespace Laplace.QuerySearch

/-- Every reply that reports success and fits the buffer holds exactly the transitions of the
states it was asked about. -/
structure Emits {σ : Type} (provider : Provider σ) (emit : State → List Transition) : Prop where
  complete : ∀ (p : σ) (states : List State) (costs : List UInt64) (capacity : Nat),
    (provider.expandBatch p states costs capacity).1.status = 0 →
    (provider.expandBatch p states costs capacity).1.transitionCount.toNat ≤ capacity →
    (Search.received (provider.expandBatch p states costs capacity).1).Perm (states.flatMap emit)
  source : ∀ state, ∀ transition ∈ emit state, transition.sourceStateId = state.stateId

/-- The reply that holds these transitions; it fails when there are too many to count. -/
def ExpansionReply.holding (states : Nat) (transitions : List Transition) (limiting : UInt32) :
    ExpansionReply :=
  { status := if transitions.length < 2 ^ 64 then 0 else -1
    transitions
    transitionCount := UInt64.ofNat transitions.length
    receipt := {
      receiptId := 1
      frontierStateCount := UInt64.ofNat states
      emittedTransitionCount := UInt64.ofNat transitions.length
      limitingDisposition := limiting } }

/-- The provider that answers from the transition function `emit` and reports the disposition
`limiting` of the batch. -/
def Provider.ofEmission (emit : State → List Transition)
    (limiting : List State → UInt32) : Provider Unit where
  expandBatch := fun _ states _ _ =>
    (.holding states.length (states.flatMap emit) (limiting states), ())

theorem Provider.ofEmission_emits {emit : State → List Transition} {limiting : List State → UInt32}
    (hs : ∀ state, ∀ transition ∈ emit state, transition.sourceStateId = state.stateId) :
    Emits (Provider.ofEmission emit limiting) emit where
  complete p states costs capacity hok _ := by
    have hlt : (states.flatMap emit).length < 2 ^ 64 := by
      simp only [ofEmission, ExpansionReply.holding] at hok
      by_contra h
      rw [if_neg h] at hok
      cases hok
    have hcount : (UInt64.ofNat (states.flatMap emit).length).toNat = (states.flatMap emit).length :=
      Checked.toNat_ofNat hlt
    simp only [ofEmission, ExpansionReply.holding, Search.received, hcount, List.take_length,
      Nat.sub_self, List.replicate_zero, List.append_nil]
    exact .refl _
  source := hs

/-! ## Plain records, for closed instances -/

/-- A program on the boundary 1 that weighs the first cost component with one, with budgets that
small graphs do not reach. -/
def Program.plain (flags requested width : UInt32) : Program :=
  { programId := 1, goalId := 1, boundaryId := 1, evidenceEpoch := 1
    heuristicProofFingerprint := if hasFlag flags Flag.astar then 1 else 0
    resultContractFingerprint := 1
    costWeights := #v[1, 0, 0, 0, 0, 0, 0, 0]
    budget := ⟨64, 64, 64, 64, 0x1000000, 0, 0, 64, 16, requested, width, 64⟩
    flags }

/-- A state of the boundary 1. -/
def State.plain (stateId dominanceKey : Digest256) (heuristicCost : UInt64 := 0) (depth : UInt32 := 0)
    (flags : UInt32 := 0) : State :=
  { stateId, anchorId := 1, dominanceKey, obligationFingerprint := 1, contextFingerprint := 1
    evidenceEpoch := 1, boundaryId := 1, heuristicCost, depth, flags }

/-- A transition between two states that costs `cost`. -/
def Transition.plain (transitionId : Digest256) (source target : State) (cost : UInt64) : Transition :=
  { transitionId, sourceStateId := source.stateId, target, lawFingerprint := 1
    calculationReceipt := 1, costComponents := #v[cost, 0, 0, 0, 0, 0, 0, 0], relationFamily := 1
    sourceLayer := 1, direction := 1 }

/-- The transition function of a finite table. -/
def emitTable (table : List (State × Transition)) (state : State) : List Transition :=
  (table.filter fun entry => entry.1 == state).map (·.2)

theorem emitTable_source {table : List (State × Transition)}
    (h : ∀ entry ∈ table, entry.2.sourceStateId = entry.1.stateId) (state : State) :
    ∀ transition ∈ emitTable table state, transition.sourceStateId = state.stateId := by
  intro transition ht
  obtain ⟨entry, he, rfl⟩ := List.mem_map.1 ht
  obtain ⟨hmem, hstate⟩ := List.mem_filter.1 he
  rw [h entry hmem, beq_iff_eq.1 hstate]

/-- Two states with one transition of cost five between them; the second is terminal if `flags`
says so. -/
def edgeStart : State := .plain 1 1

def edgeEnd (flags : UInt32) : State := .plain 2 2 0 1 flags

def edgeEmit (flags : UInt32) : State → List Transition :=
  emitTable [(edgeStart, .plain 10 edgeStart (edgeEnd flags) 5)]

def edgeProvider (flags : UInt32) : Provider Unit := .ofEmission (edgeEmit flags) fun _ => 0

def edgeProgram : Program := .plain (Flag.boundaryComplete ||| Flag.requestOptimal) 1 1

theorem edge_emits (flags : UInt32) : Emits (edgeProvider flags) (edgeEmit flags) :=
  Provider.ofEmission_emits (emitTable_source (by simp [Transition.plain, edgeStart]))

theorem edge_emitted {flags : UInt32} {state : State} {transition : Transition}
    (h : transition ∈ edgeEmit flags state) : transition.target = edgeEnd flags := by
  obtain ⟨entry, he, rfl⟩ := List.mem_map.1 h
  rw [List.mem_singleton.1 (List.mem_filter.1 he).1]
  rfl

end Laplace.QuerySearch
