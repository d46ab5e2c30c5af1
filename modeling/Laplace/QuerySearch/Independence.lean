import Laplace.QuerySearch.Emission
import Laplace.Lib.Sorting

/-!
# The order in which a provider emits

`ExpandBatch` sorts the transitions of a batch before it looks at any of them, and no two
transitions with different ids compare equal. So the order in which they arrive is forgotten, and
two providers whose replies differ in it alone are run alike.
-/

namespace Laplace.QuerySearch

open Search

/-! ## The sort -/

/-- What the sort compares. -/
def transitionKey (transition : Transition) : ℕ ×ₗ ℕ ×ₗ ℕ :=
  toLex (transition.sourceStateId.toNat,
    toLex (transition.target.stateId.toNat, transition.transitionId.toNat))

theorem transitionBefore_iff (left right : Transition) :
    transitionBefore left right = true ↔ transitionKey left < transitionKey right := by
  rw [transitionKey, transitionKey, Prod.Lex.toLex_lt_toLex, Prod.Lex.toLex_lt_toLex, transitionBefore]
  dsimp only
  rw [BitVec.toNat_inj, BitVec.toNat_inj, ← BitVec.lt_def, ← BitVec.lt_def, ← BitVec.lt_def]
  split
  · rename_i hne
    simp [hne]
  · rename_i heq
    rw [not_not] at heq
    split
    · rename_i hne
      simp [heq, hne]
    · rename_i hsame
      rw [not_not] at hsame
      simp [heq, hsame]

theorem transitionKey_le_iff (left right : Transition) :
    (!transitionBefore right left) = true ↔ transitionKey left ≤ transitionKey right := by
  rw [Bool.not_eq_true', ← Bool.not_eq_true, transitionBefore_iff, not_lt]

/-- The sort is one of those by the key. -/
def transitionSorting : Sorting transitionKey where
  sort := sortTransitions
  perm _ := List.perm_insertionSort _ _
  sorted l := by
    have htotal : Std.Total fun left right : Transition => (!transitionBefore right left) = true :=
      ⟨fun left right => by
        rw [transitionKey_le_iff, transitionKey_le_iff]
        exact le_total _ _⟩
    have htrans : IsTrans Transition fun left right => (!transitionBefore right left) = true :=
      ⟨fun a b c => by
        rw [transitionKey_le_iff, transitionKey_le_iff, transitionKey_le_iff]
        exact le_trans⟩
    exact (List.pairwise_insertionSort _ l).imp fun h => (transitionKey_le_iff _ _).1 h

theorem sortTransitions_congr {l l' : List Transition} (hperm : l.Perm l')
    (hdistinct : (l.map (·.transitionId)).Nodup) : sortTransitions l = sortTransitions l' := by
  refine transitionSorting.sort_congr transitionSorting hperm ?_
  have hids : ((l.map transitionKey).map fun key => (ofLex (ofLex key).2).2) =
      (l.map (·.transitionId)).map BitVec.toNat := by
    rw [List.map_map, List.map_map]
    rfl
  refine List.Nodup.of_map (fun key : ℕ ×ₗ ℕ ×ₗ ℕ => (ofLex (ofLex key).2).2) ?_
  rw [hids]
  exact hdistinct.map fun _ _ => BitVec.toNat_inj.1

/-! ## Replies that differ in the order -/

structure SameUpToOrder (reply reply' : ExpansionReply) : Prop where
  status : reply.status = reply'.status
  transitionCount : reply.transitionCount = reply'.transitionCount
  receipt : reply.receipt = reply'.receipt
  permuted : (received reply).Perm (received reply')
  distinct : ((received reply).map (·.transitionId)).Nodup

variable {σ τ : Type} {blake3 : Blake3} {program : Program}

theorem receiveReply_congr (blake3 : Blake3) (program : Program)
    {reply reply' : ExpansionReply} (h : SameUpToOrder reply reply') (batch : List Nat) (s : Search) :
    receiveReply blake3 program batch reply s = receiveReply blake3 program batch reply' s := by
  have haccept (s : Search) : s.acceptReply reply = s.acceptReply reply' := by
    rw [acceptReply, acceptReply, h.receipt, h.transitionCount]
  have hmalformed (states capacity : Nat) :
      replyMalformed states capacity reply = replyMalformed states capacity reply' := by
    rw [replyMalformed, replyMalformed, h.receipt, h.transitionCount]
  have hbudget (s : Search) : s.replyOverBudget program reply = s.replyOverBudget program reply' := by
    rw [replyOverBudget, replyOverBudget, h.receipt]
  unfold receiveReply
  dsimp only
  rw [h.status, hmalformed, hbudget, haccept, h.receipt, sortTransitions_congr h.permuted h.distinct]

/-- The reply to a batch, and the provider's state after it. -/
def answer (program : Program) (provider : Provider σ) (batch : List Nat) (s : Search) (state : σ) :
    ExpansionReply × σ :=
  provider.expandBatch state (batch.map fun index => (s.node index).state)
    (batch.map fun index => (s.node index).accumulatedCost) (s.transitionCapacity program)

/-- From related states, `q` answers every call that the run with `p` makes as `p` does, up to the
order of the transitions, and the states stay related. -/
structure Permutes (blake3 : Blake3) (program : Program)
    (initialStates : List State) (p : Provider σ) (state : σ) (q : Provider τ)
    (related : σ → τ → Prop) : Prop where
  abiMajor : p.abiMajor = q.abiMajor
  abiMinor : p.abiMinor = q.abiMinor
  flags : p.flags = q.flags
  reserved : p.reserved = q.reserved
  replies : ∀ batch s a b,
    Machine.Reaches (step blake3 program p) (start blake3 program initialStates state)
      ⟨.expand batch, s, a⟩ → related a b →
    SameUpToOrder (answer program p batch s a).1 (answer program q batch s b).1 ∧
      related (answer program p batch s a).2 (answer program q batch s b).2

/-- The same point of two runs. -/
structure Alike (related : σ → τ → Prop) (e : Execution σ) (e' : Execution τ) : Prop where
  phase : e.phase = e'.phase
  search : e.search = e'.search
  provider : related e.provider e'.provider

/-! ## Runs -/

section Runs

variable {initialStates : List State} {p : Provider σ} {q : Provider τ} {state : σ} {state' : τ}
  {related : σ → τ → Prop}

/-- **Step lemma.** -/
theorem step_alike (h : Permutes blake3 program initialStates p state q related) {e : Execution σ}
    {e' : Execution τ}
    (hreach : Machine.Reaches (step blake3 program p) (start blake3 program initialStates state) e)
    (halike : Alike related e e') :
    Option.Rel (Alike related) (step blake3 program p e) (step blake3 program q e') := by
  obtain ⟨phase, s, a⟩ := e
  obtain ⟨phase', s', b⟩ := e'
  obtain ⟨rfl, rfl, hrelated⟩ := halike
  dsimp only at hrelated
  cases phase with
  | expand batch =>
    refine .some ?_
    unfold expandBatch
    split
    · exact ⟨rfl, rfl, hrelated⟩
    · obtain ⟨hreply, hnext⟩ := h.replies batch s a b hreach hrelated
      have hsame := receiveReply_congr blake3 program hreply batch s
      exact ⟨congrArg Prod.fst hsame, congrArg Prod.snd hsame, hnext⟩
  | halted status => exact .none
  | addInitial rest => exact .some ⟨rfl, rfl, hrelated⟩
  | harvest => exact .some ⟨rfl, rfl, hrelated⟩
  | select => exact .some ⟨rfl, rfl, hrelated⟩
  | pop minimumPriority batchLimit batch => exact .some ⟨rfl, rfl, hrelated⟩
  | insert sources rest => exact .some ⟨rfl, rfl, hrelated⟩

/-- **The order of emission does not show**: not in the status, not in the paths, not in the
receipt. -/
theorem execute_permuted (h : Permutes blake3 program initialStates p state q related)
    (hstate : related state state') :
    execute blake3 program p initialStates state = execute blake3 program q initialStates state' := by
  have hvalid : requestValid program p = requestValid program q := by
    rw [requestValid, requestValid, h.abiMajor, h.abiMinor, h.flags, h.reserved]
  have hstart : Alike related (start blake3 program initialStates state)
      (start blake3 program initialStates state') := by
    unfold start
    dsimp only
    split <;> exact ⟨rfl, rfl, hstate⟩
  have hrun := Machine.run_related (step blake3 program p) (step blake3 program q)
    (R := fun e e' => Machine.Reaches (step blake3 program p)
      (start blake3 program initialStates state) e ∧ Alike related e e') ?_
    (enoughRounds program initialStates) ⟨.refl, hstart⟩
  · obtain ⟨-, hphase, hsearch, -⟩ := hrun
    unfold execute
    dsimp only
    rw [hvalid, hphase, hsearch]
  · rintro e e' ⟨hreach, halike⟩
    have hstep := step_alike h hreach halike
    rcases hleft : step blake3 program p e with _ | next <;>
      rcases hright : step blake3 program q e' with _ | next'
    · exact .none
    · rw [hleft, hright] at hstep
      cases hstep
    · rw [hleft, hright] at hstep
      cases hstep
    · rw [hleft, hright] at hstep
      cases hstep with
      | some hnext => exact .some ⟨hreach.tail hleft, hnext⟩

end Runs

/-! ## A fork -/

/-- The provider that answers every call with these transitions. -/
def Provider.listing (transitions : List Transition) : Provider Unit where
  expandBatch := fun _ states _ _ => (.holding states.length transitions 0, ())

/-- From the first state to two terminal ones. -/
def forkTransitions : List Transition :=
  [.plain 10 edgeStart (.plain 2 2 0 1 stateTerminal) 5,
    .plain 11 edgeStart (.plain 3 3 0 1 stateTerminal) 5]

theorem listing_permutes (blake3 : Blake3) (program : Program)
    (initialStates : List State) {l l' : List Transition} (hperm : l.Perm l')
    (hlength : l.length < 2 ^ 64) (hdistinct : (l.map (·.transitionId)).Nodup) :
    Permutes blake3 program initialStates (.listing l) () (.listing l') fun _ _ => True where
  abiMajor := rfl
  abiMinor := rfl
  flags := rfl
  reserved := rfl
  replies batch s _ _ _ _ := by
    have hreceived {l : List Transition} (hlength : l.length < 2 ^ 64) (states : Nat) :
        received (.holding states l 0) = l := by
      simp only [received, ExpansionReply.holding, Checked.toNat_ofNat hlength,
        List.take_length, Nat.sub_self, List.replicate_zero, List.append_nil]
    have hlength' : l'.length < 2 ^ 64 := hperm.length_eq ▸ hlength
    refine ⟨⟨?_, ?_, ?_, ?_, ?_⟩, trivial⟩
    · simp only [answer, Provider.listing, ExpansionReply.holding, hperm.length_eq]
    · simp only [answer, Provider.listing, ExpansionReply.holding, hperm.length_eq]
    · simp only [answer, Provider.listing, ExpansionReply.holding, hperm.length_eq]
    · simp only [answer, Provider.listing, hreceived hlength, hreceived hlength']
      exact hperm
    · simp only [answer, Provider.listing, hreceived hlength]
      exact hdistinct

theorem execute_permuted_fork : execute (fun _ => 7) edgeProgram (.listing forkTransitions) [edgeStart] () =
      execute (fun _ => 7) edgeProgram (.listing forkTransitions.reverse) [edgeStart] () :=
  execute_permuted (listing_permutes _ _ _ (List.reverse_perm _).symm (by decide) (by decide))
    trivial

end Laplace.QuerySearch
