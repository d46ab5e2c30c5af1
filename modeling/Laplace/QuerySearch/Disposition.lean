import Laplace.QuerySearch.Outcome

/-!
# The final disposition and the provider's own (query_search_part01.inc:54-68, part04:1-37)

`MergeProviderDisposition` remembers what limited an accepted receipt, and `Finalize` reads what it
remembers in one of its six branches only. `certified_honest` says which replies do no harm.
-/

namespace Laplace.QuerySearch

open Search

variable {blake3 : Blake3} {program : Program} {initials : List State} {σ : Type}
  {provider : Provider σ} {e e' : Execution σ} {state : σ}

/-! ## What `Finalize` wrote -/

/-- The receipt's flags are clear until `Finalize` sets them, at the end of a successful run. -/
structure Finalized (blake3 : Blake3) (program : Program) (e : Execution σ) : Prop where
  running : e.phase ≠ .halted .ok → e.search.receipt.flags = 0 ∧ e.search.receipt.disposition = 0
  ended : e.phase = .halted .ok → ∃ s : Search, e.search = s.finalize program blake3 ∧ s.receipt.flags = 0

variable {s : Search}

theorem Search.Harvested.receipt {t : Search} {e : QueueEntry}
    (h : Harvested program initials s e t) : t.receipt = s.receipt := by
  obtain ⟨u, path, hasher, hp, -, -, -, -, rfl⟩ := h.popped
  have : u.receipt = s.receipt := by rw [hp.frame]
  exact this

theorem Finalized.of_finalize {p : σ} (h : s.receipt.flags = 0) :
    Finalized blake3 program (⟨.halted .ok, s.finalize program blake3, p⟩ : Execution σ) :=
  ⟨fun hne => absurd rfl hne, fun _ => ⟨s, rfl, h⟩⟩

theorem Finalized.of_clear {phase : Phase} {p : σ} (hne : phase ≠ .halted .ok)
    (h : s.receipt.flags = 0 ∧ s.receipt.disposition = 0) :
    Finalized blake3 program (⟨phase, s, p⟩ : Execution σ) :=
  ⟨fun _ => h, fun heq => absurd heq hne⟩

theorem halted_ne {status : Status} (hs : status ≠ .ok) : Phase.halted status ≠ .halted .ok :=
  fun h => hs (by injection h)

theorem start_finalized (state : σ) : Finalized blake3 program (start blake3 program initials state) := by
  unfold start
  split <;> exact .of_clear nofun ⟨rfl, rfl⟩

theorem Move.finalized (hm : Move blake3 program initials provider e e')
    (hf : Finalized blake3 program e) : Finalized blake3 program e' := by
  obtain ⟨h, -⟩ := hf
  cases hm with
  | settle | initialInvalid | harvestDone | openBatch => exact .of_clear nofun (h nofun)
  | initialFails hv hr hs =>
    obtain ⟨-, -, hflags, hdisp⟩ := hr.frame
    exact .of_clear (halted_ne hs) ⟨hflags.trans (h nofun).1, hdisp.trans (h nofun).2⟩
  | initial hv hr =>
    obtain ⟨-, -, hflags, hdisp⟩ := hr.frame
    exact .of_clear nofun ⟨hflags.trans (h nofun).1, hdisp.trans (h nofun).2⟩
  | harvestPath hp =>
    have hc := h nofun
    refine .of_clear ?_ (by rw [hp.receipt]; exact hc)
    split <;> exact nofun
  | enoughPaths | frontierEmpty | budgetReached | noRecordsLeft => exact .of_finalize (h nofun).1
  | @popDone m limit batch s t p ht =>
    have ht : t.receipt.flags = 0 ∧ t.receipt.disposition = 0 := by
      rcases ht with rfl | rfl <;> exact h nofun
    unfold popBatchDone
    split
    · exact .of_finalize ht.1
    split <;> exact .of_clear nofun ht
  | popPath hp => exact .of_clear nofun (by rw [hp.receipt]; exact h nofun)
  | popLastPath hp => exact .of_finalize (by rw [hp.receipt]; exact (h nofun).1)
  | popNode hp => exact .of_clear nofun (by rw [hp.frame]; exact h nofun)
  | popCut hp => exact .of_clear nofun (by rw [hp.frame]; exact h nofun)
  | callFails hs => exact .of_clear (halted_ne hs) (h nofun)
  | callLimited => exact .of_finalize (h nofun).1
  | call => exact .of_clear nofun (h nofun)
  | insertDone =>
    unfold expandBatchDone
    split
    · exact .of_finalize (h nofun).1
    · exact .of_clear nofun (h nofun)
  | transitionInvalid hs => exact .of_clear (halted_ne hs) (h nofun)
  | insertFails hc hr hs =>
    obtain ⟨-, -, hflags, hdisp⟩ := hr.frame
    exact .of_clear (halted_ne hs) ⟨hflags.trans (h nofun).1, hdisp.trans (h nofun).2⟩
  | insertLast hc hr =>
    obtain ⟨-, -, hflags, -⟩ := hr.frame
    exact .of_finalize (hflags.trans (h nofun).1)
  | insert hc hr =>
    obtain ⟨-, -, hflags, hdisp⟩ := hr.frame
    exact .of_clear nofun ⟨hflags.trans (h nofun).1, hdisp.trans (h nofun).2⟩

theorem reachable_finalized
    (h : Machine.Reaches (step blake3 program provider) (start blake3 program initials state) e) :
    Finalized blake3 program e :=
  reachable_keeps h (start_finalized state) fun _ _ _ _ hm hf => hm.finalized hf

/-! ## What the provider reported -/

/-- The receipt of a reply that passes every check of `ExpandBatch`. -/
def Search.acceptedOf (program : Program) (batch : List Nat) (reply : ExpansionReply) (s : Search) :
    Option ExpansionReceipt :=
  if reply.status ≠ 0 ∨ replyMalformed batch.length (s.transitionCapacity program) reply ∨
      (s.countCall batch.length).replyOverBudget program reply then none
  else some reply.receipt

/-- The expansion receipt that the next step accepts, if it is a provider call that is answered
well. -/
def acceptedReceipt (program : Program) (provider : Provider σ) (e : Execution σ) :
    Option ExpansionReceipt :=
  match e.phase with
  | .expand batch =>
    let s := e.search
    if program.budget.maxTransitionRecords - s.receipt.transitionRecordCount == 0 then none
    else s.acceptedOf program batch
      (provider.expandBatch e.provider (batch.map fun index => (s.node index).state)
        (batch.map fun index => (s.node index).accumulatedCost) (s.transitionCapacity program)).1
  | _ => none

/-- Every expansion receipt that the run accepted had the limiting disposition zero. -/
def Honest (blake3 : Blake3) (program : Program) (provider : Provider σ)
    (initials : List State) (state : σ) : Prop :=
  ∀ e, Machine.Reaches (step blake3 program provider) (start blake3 program initials state) e →
    ∀ receipt ∈ acceptedReceipt program provider e, receipt.limitingDisposition = 0

theorem Search.Harvested.disposition {t : Search} {e : QueueEntry}
    (h : Harvested program initials s e t) : t.providerDisposition = s.providerDisposition := by
  obtain ⟨u, path, hasher, hp, -, -, -, -, rfl⟩ := h.popped
  have : u.providerDisposition = s.providerDisposition := by rw [hp.frame]
  exact this

theorem Move.disposition_eq (hm : Move blake3 program initials provider e e')
    (hne : ∀ batch, e.phase ≠ .expand batch) :
    e'.search.providerDisposition = e.search.providerDisposition := by
  cases hm with
  | settle | initialInvalid | harvestDone | openBatch | transitionInvalid => rfl
  | enoughPaths | frontierEmpty | budgetReached => rfl
  | initialFails hv hr => exact hr.frame.2.1
  | initial hv hr => exact hr.frame.2.1
  | harvestPath hp | popPath hp | popLastPath hp => exact hp.disposition
  | @popDone m limit batch s t p ht =>
    have ht : t.providerDisposition = s.providerDisposition := by rcases ht with rfl | rfl <;> rfl
    unfold popBatchDone
    split
    · exact ht
    split <;> exact ht
  | popNode hp | popCut hp => rw [hp.frame]
  | noRecordsLeft | callFails | callLimited | call => exact absurd rfl (hne _)
  | insertDone =>
    unfold expandBatchDone
    split <;> rfl
  | insertFails hc hr => exact hr.frame.2.1
  | insertLast hc hr => exact hr.frame.2.1
  | insert hc hr => exact hr.frame.2.1

/-- The disposition after receipts were merged into it. -/
def mergedWith (current : UInt32) : Option ExpansionReceipt → UInt32
  | none => current
  | some receipt => mergeProviderDisposition current receipt.limitingDisposition

theorem receiveReply_disposition (batch : List Nat) (reply : ExpansionReply) (s : Search) :
    (s.receiveReply blake3 program batch reply).2.providerDisposition =
      mergedWith s.providerDisposition (s.acceptedOf program batch reply) := by
  unfold receiveReply acceptedOf
  simp only
  by_cases hstatus : reply.status ≠ 0
  · rw [if_pos hstatus, if_pos (.inl hstatus)]
    rfl
  rw [if_neg hstatus]
  by_cases hshape : replyMalformed batch.length (s.transitionCapacity program) reply = true
  · rw [if_pos hshape, if_pos (.inr (.inl hshape))]
    rfl
  rw [if_neg hshape]
  by_cases hcost : (s.countCall batch.length).replyOverBudget program reply = true
  · rw [if_pos hcost, if_pos (.inr (.inr hcost))]
    rfl
  have haccepted : ¬ (reply.status ≠ 0 ∨
      replyMalformed batch.length (s.transitionCapacity program) reply = true ∨
      (s.countCall batch.length).replyOverBudget program reply = true) := by
    rintro (h | h | h)
    exacts [hstatus h, hshape h, hcost h]
  rw [if_neg hcost, if_neg haccepted]
  split <;> rfl

theorem step_disposition (hg : Good program initials e) (hs : step blake3 program provider e = some e') :
    e'.search.providerDisposition =
      mergedWith e.search.providerDisposition (acceptedReceipt program provider e) := by
  by_cases hphase : ∃ batch, e.phase = .expand batch
  · obtain ⟨batch, hphase⟩ := hphase
    obtain ⟨phase, s, p⟩ := e
    simp only at hphase
    subst hphase
    simp only [step, Option.some.injEq] at hs
    subst hs
    simp only [acceptedReceipt, expandBatch]
    split
    · rfl
    · exact receiveReply_disposition _ _ _
  · have hne : ∀ batch, e.phase ≠ .expand batch := fun batch h => hphase ⟨batch, h⟩
    have hnone : acceptedReceipt program provider e = none := by
      unfold acceptedReceipt
      split
      · exact absurd ‹_› (hne _)
      · rfl
    rw [(hg.move hs).disposition_eq hne, hnone]
    rfl

/-- What `ExpandBatch` has checked of a reply it accepts. -/
theorem acceptedReceipt_cases {receipt : ExpansionReceipt}
    (h : acceptedReceipt program provider e = some receipt) :
    ∃ batch reply, e.phase = .expand batch ∧
      ¬ (program.budget.maxTransitionRecords - e.search.receipt.transitionRecordCount == 0) = true ∧
      reply = (provider.expandBatch e.provider (batch.map fun index => (e.search.node index).state)
        (batch.map fun index => (e.search.node index).accumulatedCost)
        (e.search.transitionCapacity program)).1 ∧
      ¬ reply.status ≠ 0 ∧
      ¬ replyMalformed batch.length (e.search.transitionCapacity program) reply = true ∧
      ¬ (e.search.countCall batch.length).replyOverBudget program reply = true ∧
      reply.receipt = receipt := by
  unfold acceptedReceipt at h
  split at h
  · rename_i batch hphase
    simp only [acceptedOf] at h
    split at h
    · cases h
    rename_i hrecords
    split at h
    · cases h
    rename_i haccepted
    simp only [not_or] at haccepted
    obtain ⟨hstatus, hshape, hcost⟩ := haccepted
    exact ⟨batch, _, hphase, hrecords, rfl, hstatus, hshape, hcost, Option.some.inj h⟩
  · cases h

theorem accepted_valid {receipt : ExpansionReceipt}
    (h : acceptedReceipt program provider e = some receipt) :
    providerDispositionValid receipt.limitingDisposition = true := by
  obtain ⟨batch, reply, -, -, -, -, hshape, -, rfl⟩ := acceptedReceipt_cases h
  simp only [replyMalformed, Bool.or_eq_true, Bool.not_eq_true', not_or] at hshape
  simpa using hshape.1.2

theorem merge_valid {current next : UInt32} (hc : providerDispositionValid current = true)
    (hn : providerDispositionValid next = true) :
    providerDispositionValid (mergeProviderDisposition current next) = true := by
  unfold mergeProviderDisposition
  split
  · exact hc
  split
  · exact hn
  · rfl

theorem reachable_disposition_valid
    (h : Machine.Reaches (step blake3 program provider) (start blake3 program initials state) e) :
    providerDispositionValid e.search.providerDisposition = true := by
  have h0 : (start blake3 program initials state).search.providerDisposition = 0 := by
    unfold start
    split <;> rfl
  refine reachable_keeps (P := fun e => providerDispositionValid e.search.providerDisposition = true) h
    (by rw [h0]; rfl) fun x y hg hs _ hvalid => ?_
  rw [step_disposition hg hs]
  cases ha : acceptedReceipt program provider x with
  | none => exact hvalid
  | some receipt => exact merge_valid hvalid (accepted_valid ha)

/-! ## When a certificate is honest -/

/-- The outcome reports a complete or a certified optimal search. -/
def Outcome.certified (outcome : Outcome) : Prop :=
  outcome.receipt.disposition = Disposition.complete ∨
    hasFlag outcome.receipt.flags ReceiptFlag.optimalCertified = true

/-- `Finalize` takes the branch that certifies. -/
def Search.certifies (program : Program) (s : Search) : Bool :=
  s.stopAfterTerminal program && program.has Flag.boundaryComplete && !s.resourceExhausted

theorem finalDisposition_eq_complete (hv : providerDispositionValid s.providerDisposition = true) :
    s.finalDisposition program = Disposition.complete ↔ s.certifies program = true := by
  unfold finalDisposition certifies
  simp only
  cases hc : s.stopAfterTerminal program && program.has Flag.boundaryComplete && !s.resourceExhausted with
  | true => simp only [if_true]
  | false =>
  simp only [Bool.false_eq_true, if_false, iff_false]
  split
  · split <;> decide
  split
  · decide
  split
  · decide
  split
  · intro heq
    rw [heq] at hv
    cases hv
  · decide

/-- With clear flags before it, `Finalize` sets the optimality flag in the same branch only. -/
theorem finalFlags_optimal (hf : s.receipt.flags = 0) :
    hasFlag (s.finalFlags program) ReceiptFlag.optimalCertified =
      (s.certifies program && program.has Flag.requestOptimal) := by
  unfold finalFlags certifies
  simp only [hf]
  cases s.stopAfterTerminal program <;> cases program.has Flag.requestOptimal <;>
    cases s.frontierExhausted <;> cases s.resourceExhausted <;>
    cases program.has Flag.boundaryComplete <;> rfl

theorem closeOutcome_receipt_of_ne {status : Status} (hs : status ≠ .ok) (s : Search) :
    (closeOutcome blake3 status s).receipt = { s.receipt with status := status.code } := by
  unfold closeOutcome
  rw [if_neg hs]

/-- An outcome that certifies is the end of a run on which `Finalize` took the certifying branch. -/
theorem certified_iff {outcome : Outcome}
    (h : execute blake3 program provider initials state = some outcome) : outcome.certified ↔
      ∃ e, Ended blake3 program provider initials state .ok e ∧ e.search.certifies program = true := by
  rcases execute_cases h with ⟨-, -, hr, hno⟩ | ⟨status, e, he, rfl⟩
  · refine ⟨fun hc => ?_, fun ⟨e, he, _⟩ => absurd he (hno _ e)⟩
    unfold Outcome.certified at hc
    rw [hr] at hc
    rcases hc with hc | hc <;> cases hc
  by_cases hs : status = .ok
  · subst hs
    have hfin := reachable_finalized he.reaches
    obtain ⟨s, hsearch, hflags⟩ := hfin.ended he.phase
    have hvalid : providerDispositionValid s.providerDisposition = true := by
      have := reachable_disposition_valid he.reaches
      rw [hsearch] at this
      exact this
    have hdisp : (closeOutcome blake3 .ok e.search).receipt.disposition =
        s.finalDisposition program := by rw [hsearch]; rfl
    have hflag : (closeOutcome blake3 .ok e.search).receipt.flags = s.finalFlags program := by
      rw [hsearch]
      rfl
    have hcert : e.search.certifies program = s.certifies program := by rw [hsearch]; rfl
    unfold Outcome.certified
    rw [hdisp, hflag, finalDisposition_eq_complete hvalid, finalFlags_optimal hflags]
    constructor
    · rintro (hc | hc)
      · exact ⟨e, he, hcert.trans hc⟩
      · exact ⟨e, he, hcert.trans (Bool.and_eq_true _ _ ▸ hc).1⟩
    · rintro ⟨e', he', hc⟩
      rw [he.unique he', hcert] at hc
      exact .inl hc
  · have hclear := (reachable_finalized he.reaches).running fun hp => by
      rw [he.phase] at hp
      exact hs (by injection hp)
    constructor
    · unfold Outcome.certified
      rw [closeOutcome_receipt_of_ne hs]
      rintro (hc | hc)
      · rw [show ({ e.search.receipt with status := status.code } : Receipt).disposition =
          e.search.receipt.disposition from rfl, hclear.2] at hc
        cases hc
      · rw [show ({ e.search.receipt with status := status.code } : Receipt).flags =
          e.search.receipt.flags from rfl, hclear.1] at hc
        cases hc
    · rintro ⟨e', he', -⟩
      have hphase := he'.phase
      rw [he.unique he', he.phase] at hphase
      exact absurd (by injection hphase) hs

/-- An accepted EXHAUSTED reply is the last one: the run ends and remembers it. -/
theorem step_exhausted {receipt : ExpansionReceipt}
    (ha : acceptedReceipt program provider e = some receipt)
    (hx : receipt.limitingDisposition = Disposition.exhausted) :
    ∃ e', step blake3 program provider e = some e' ∧ e'.phase = .halted .ok ∧
      e'.search.resourceExhausted = true := by
  obtain ⟨batch, reply, hphase, hrecords, hreply, hstatus, hshape, hcost, rfl⟩ :=
    acceptedReceipt_cases ha
  refine ⟨expandBatch blake3 program provider batch e.search e.provider, ?_, ?_⟩
  · simp only [step, hphase]
  simp only [expandBatch, if_neg hrecords, ← hreply, receiveReply, if_neg hstatus, if_neg hshape,
    if_neg hcost, hx, beq_self_eq_true, if_true]
  exact ⟨rfl, rfl⟩

/-- **What the replies must keep.** Without the complete boundary nothing is certified, and an
EXHAUSTED reply withdraws the certificate; with no other limited reply a run certifies only what it
has seen in full. -/
theorem certified_honest {outcome : Outcome}
    (h : execute blake3 program provider initials state = some outcome)
    (hreplies : program.has Flag.boundaryComplete = false ∨
      ∀ e, Machine.Reaches (step blake3 program provider) (start blake3 program initials state) e →
        ∀ receipt ∈ acceptedReceipt program provider e,
          receipt.limitingDisposition = 0 ∨ receipt.limitingDisposition = Disposition.exhausted)
    (hc : outcome.certified) : Honest blake3 program provider initials state := by
  obtain ⟨last, hlast, hcertifies⟩ := (certified_iff h).1 hc
  simp only [certifies, Bool.and_eq_true, Bool.not_eq_true'] at hcertifies
  obtain ⟨⟨-, hboundary⟩, hresource⟩ := hcertifies
  rcases hreplies with hno | hreplies
  · rw [hno] at hboundary
    cases hboundary
  intro a ha receipt hr
  rcases hreplies a ha receipt hr with hzero | hexhausted
  · exact hzero
  · obtain ⟨e', hs, hphase, hres⟩ := step_exhausted hr hexhausted
    have hended : Ended blake3 program provider initials state .ok e' :=
      ⟨hlast.initial, hlast.request, ha.tail hs, hphase⟩
    rw [hlast.unique hended, hresource] at hres
    cases hres

/-! ### A denied batch beside a path -/

/-- A provider over two initial states: the batch with the first one is denied, the second one
leads to a terminal state. -/
def deniedEmission : State → List Transition :=
  emitTable [(.plain 2 2, .plain 20 (.plain 2 2) (.plain 3 3 0 1 stateTerminal) 5)]

def deniedProvider : Provider Unit :=
  .ofEmission deniedEmission fun states =>
    if states.contains (.plain 1 1) then Disposition.denied else 0

def answeredProvider : Provider Unit := .ofEmission deniedEmission fun _ => 0

def deniedProgram : Program := .plain (Flag.boundaryComplete ||| Flag.requestOptimal) 1 1

def deniedInitials : List State := [.plain 1 1, .plain 2 2]

/-- The run accepts a denied batch and still certifies its path as complete and optimal. -/
theorem denied_batch_certified :
    ¬ ∀ (blake3 : Blake3) (program : Program) (initials : List State)
      (provider : Provider Unit) (outcome : Outcome),
      execute blake3 program provider initials () = some outcome →
      outcome.certified → Honest blake3 program provider initials () := by
  intro hall
  obtain ⟨outcome, h⟩ := Option.isSome_iff_exists.1
    (@execute_isSome (fun _ => 1) deniedProgram deniedInitials _ deniedProvider ())
  have hcert : (execute (fun _ => 1) deniedProgram deniedProvider deniedInitials ()).map
      (fun outcome => (outcome.receipt.disposition,
        hasFlag outcome.receipt.flags ReceiptFlag.optimalCertified)) =
      some (Disposition.complete, true) := by decide +kernel
  rw [h] at hcert
  have hc : outcome.certified := by
    simp only [Option.map_some, Option.some.injEq, Prod.mk.injEq] at hcert
    exact .inl hcert.1
  have hhonest := hall _ _ _ _ outcome h hc
  -- the first provider call is due after seven rounds
  have haccepted : (acceptedReceipt deniedProgram deniedProvider
      (Machine.run (step (fun _ => 1) deniedProgram deniedProvider) 7
        (start (fun _ => 1) deniedProgram deniedInitials ()))).map (·.limitingDisposition) =
      some Disposition.denied := by decide +kernel
  obtain ⟨receipt, hr, hd⟩ := Option.map_eq_some_iff.1 haccepted
  have := hhonest _ (Machine.reaches_run _ _) receipt hr
  rw [hd] at this
  cases this

/-- The same run with the first batch answered in full: the certificate is honest. -/
theorem certified_honest_answered :
    ∃ outcome, execute (fun _ => 1) deniedProgram answeredProvider deniedInitials () = some outcome ∧
      outcome.certified ∧ Honest (fun _ => 1) deniedProgram answeredProvider deniedInitials () := by
  obtain ⟨outcome, h⟩ := Option.isSome_iff_exists.1
    (@execute_isSome (fun _ => 1) deniedProgram deniedInitials _ answeredProvider ())
  have hcert : (execute (fun _ => 1) deniedProgram answeredProvider deniedInitials ()).map
      (fun outcome => outcome.receipt.disposition) = some Disposition.complete := by decide +kernel
  rw [h] at hcert
  have hc : outcome.certified := .inl (Option.some.inj hcert)
  refine ⟨outcome, h, hc, certified_honest h (.inr fun e _ receipt hr => .inl ?_) hc⟩
  obtain ⟨batch, reply, -, -, rfl, -, -, -, rfl⟩ := acceptedReceipt_cases hr
  rfl

end Laplace.QuerySearch
