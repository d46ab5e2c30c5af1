import Laplace.Cognition.ForwardPass
import Laplace.Cognition.Resolutions

/-!
# The layers of a forward pass (cognition_forward_pass_part01.inc, cognition_forward_pass_part02.inc)

Each stage of a layer keeps the accounts: every total is what the accepted answers of the provider
cost, and within the program's maxima. The stages leave the state alone but for the last one. It
resolves an open obligation, so the loop ends after at most as many layers as there are open
obligations.
-/

namespace Laplace.Cognition

open Laplace.Checked

/-! ## Totals -/

/-- No total is over its maximum. -/
structure Within (program : ForwardProgram) (receipt : ForwardReceipt) : Prop where
  layerCount : receipt.layerCount ≤ program.maxLayers
  providerCallCount : receipt.providerCallCount ≤ program.maxProviderCalls
  projectedQueryCount : receipt.projectedQueryCount ≤ program.maxProjectedQueries
  candidateOperationCount : receipt.candidateOperationCount ≤ program.maxCandidateOperations
  resolutionCount : receipt.resolutionCount ≤ program.maxResolutions
  resourceCost : receipt.resourceCost ≤ program.maxResourceCost
  ioOperations : receipt.ioOperations ≤ program.maxIoOperations
  databaseOperations : receipt.databaseOperations ≤ program.maxDatabaseOperations

/-- What is left of each maximum, without a wrap. -/
structure Remains (program : ForwardProgram) (receipt : ForwardReceipt) (left : Grant) : Prop where
  resourceCost :
    left.remainingResourceCost.toNat + receipt.resourceCost.toNat = program.maxResourceCost.toNat
  ioOperations :
    left.remainingIoOperations.toNat + receipt.ioOperations.toNat = program.maxIoOperations.toNat
  databaseOperations : left.remainingDatabaseOperations.toNat + receipt.databaseOperations.toNat =
    program.maxDatabaseOperations.toNat
  candidateOperations :
    left.remainingCandidateOperations.toNat + receipt.candidateOperationCount.toNat =
      program.maxCandidateOperations.toNat
  resolutions :
    left.remainingResolutions.toNat + receipt.resolutionCount.toNat = program.maxResolutions.toNat
  providerCalls : left.remainingProviderCalls.toNat + receipt.providerCallCount.toNat =
    program.maxProviderCalls.toNat
  layers : left.remainingLayers.toNat + receipt.layerCount.toNat = program.maxLayers.toNat

variable {maximum total : UInt64}

theorem remaining_toNat (h : total ≤ maximum) :
    (maximum - total).toNat + total.toNat = maximum.toNat := by
  rw [UInt64.toNat_sub_of_le _ _ h, Nat.sub_add_cancel (UInt64.le_iff_toNat_le.1 h)]

theorem Within.remains {program : ForwardProgram} {receipt : ForwardReceipt}
    (h : Within program receipt) : Remains program receipt (grant program receipt) where
  resourceCost := remaining_toNat h.resourceCost
  ioOperations := remaining_toNat h.ioOperations
  databaseOperations := remaining_toNat h.databaseOperations
  candidateOperations := remaining_toNat h.candidateOperationCount
  resolutions := remaining_toNat h.resolutionCount
  providerCalls := remaining_toNat h.providerCallCount
  layers := remaining_toNat h.layerCount

theorem succ_le_of_lt (h : total < maximum) :
    (total + 1).toNat = total.toNat + 1 ∧ total + 1 ≤ maximum := by
  rw [UInt64.lt_iff_toNat_lt] at h
  have hmaximum := maximum.toNat_lt
  have heq : (total + 1).toNat = total.toNat + 1 := toNat_add_of_lt (by
    rw [UInt64.toNat_one]
    omega)
  rw [UInt64.le_iff_toNat_le, heq]
  exact ⟨rfl, h⟩

theorem add_le_of_le_sub {value : UInt64} (htotal : total ≤ maximum) (h : value ≤ maximum - total) :
    total + value ≤ maximum := by
  have hleft := remaining_toNat htotal
  have hmaximum := maximum.toNat_lt
  rw [UInt64.le_iff_toNat_le] at h ⊢
  rw [toNat_add_of_lt (by omega)]
  omega

theorem min_le_right_word {left right : UInt64} : min left right ≤ right := by
  show (if left ≤ right then left else right) ≤ right
  split
  · assumption
  · exact UInt64.le_refl right

/-! ## Accounts -/

/-- What an accepted answer adds to a total. -/
def ProviderCall.charge : ProviderCall → Budget → ℕ
  | .enumerated _ false, _ | .executed _ false, _ => 0
  | .enumerated enumeration true, budget => match budget with
    | .resourceCost => enumeration.receipt.resourceCost.toNat
    | .ioOperations => enumeration.receipt.ioOperations.toNat
    | .databaseOperations => enumeration.receipt.databaseOperations.toNat
    | .candidateOperations => enumeration.operationCount.toNat
    | .resolutions => 0
  | .executed execution true, budget => match budget with
    | .resourceCost => execution.receipt.resourceCost.toNat
    | .ioOperations => execution.receipt.ioOperations.toNat
    | .databaseOperations => execution.receipt.databaseOperations.toNat
    | .candidateOperations => 0
    | .resolutions => execution.resolutionCount.toNat

/-- What the accepted answers of the calls cost. -/
def charged (calls : List ProviderCall) (budget : Budget) : ℕ :=
  (calls.map fun call => call.charge budget).sum

variable {σ : Type}

/-- The totals are what the calls cost, but for what is `owed` of the last one; no maximum is
overrun. -/
structure Accounts (program : ForwardProgram) (owed : Budget → ℕ) (pass : Pass σ) : Prop where
  layerCount : pass.receipt.layerCount ≤ program.maxLayers
  providerCallCount : pass.receipt.providerCallCount ≤ program.maxProviderCalls
  projectedQueryCount : pass.receipt.projectedQueryCount ≤ program.maxProjectedQueries
  calls : pass.receipt.providerCallCount.toNat = pass.calls.length
  charged : ∀ budget : Budget,
    (budget.total pass.receipt).toNat + owed budget = charged pass.calls budget
  bounded : ∀ budget : Budget, Cognition.charged pass.calls budget ≤ (budget.maximum program).toNat

theorem Accounts.within {program : ForwardProgram} {owed : Budget → ℕ} {pass : Pass σ}
    (h : Accounts program owed pass) : Within program pass.receipt := by
  have hle : ∀ budget : Budget, budget.total pass.receipt ≤ budget.maximum program := fun budget =>
    UInt64.le_iff_toNat_le.2 ((Nat.le_add_right _ _).trans ((h.charged budget).le.trans
      (h.bounded budget)))
  exact ⟨h.layerCount, h.providerCallCount, h.projectedQueryCount, hle .candidateOperations,
    hle .resolutions, hle .resourceCost, hle .ioOperations, hle .databaseOperations⟩

/-! ## Passes -/

/-- Each layer starts in the state where the one before it ends. -/
def Chained : Digest256 → List LayerReceipt → Digest256 → Prop
  | first, [], last => first = last
  | first, layer :: layers, last =>
    layer.priorStateId = first ∧ Chained layer.nextStateId layers last

theorem Chained.concat : ∀ {layers : List LayerReceipt} {first last : Digest256}
    {layer : LayerReceipt}, Chained first layers last → layer.priorStateId = last →
    Chained first (layers ++ [layer]) layer.nextStateId
  | [], _, _, _, h, hlayer => ⟨hlayer.trans h.symm, rfl⟩
  | _ :: _, _, _, _, h, hlayer => ⟨h.1, h.2.concat hlayer⟩

variable {program : ForwardProgram} {blake3 : Blake3}
  {start state : GuidanceState} {owed : Budget → ℕ}

/-- The invariant of a pass that began in `start`. -/
structure PassSound (program : ForwardProgram) (blake3 : Blake3)
    (start : GuidanceState) (owed : Budget → ℕ) (pass : Pass σ) : Prop where
  formed : Formed blake3 pass.finalState
  accounts : Accounts program owed pass
  granted : ∀ receipt ∈ pass.granted, Within program receipt
  chained : Chained start.stateId pass.layers pass.finalState.stateId
  layerCount : pass.receipt.layerCount.toNat = pass.layers.length
  initialStateId : pass.receipt.initialStateId = start.stateId
  progress : openCount pass.finalState.obligations + pass.layers.length ≤
    openCount start.obligations

/-- Within a layer that began in `state`. -/
structure InLayer (program : ForwardProgram) (blake3 : Blake3)
    (start state : GuidanceState) (owed : Budget → ℕ) (pass : Pass σ) : Prop where
  sound : PassSound program blake3 start owed pass
  finalState : pass.finalState = state
  room : pass.receipt.layerCount < program.maxLayers

/-- A layer that ends the pass leaves the state alone and does not report it complete. -/
structure LayerEnds (program : ForwardProgram) (blake3 : Blake3)
    (start state : GuidanceState) (reason : PassExit) (pass : Pass σ) : Prop where
  sound : PassSound program blake3 start 0 pass
  finalState : pass.finalState = state
  fuel : reason ≠ .outOfFuel
  failed : reason ≠ .hard .ok
  disposition : reason ≠ .disposed forwardComplete

variable {pass : Pass σ}

theorem InLayer.ends {reason : PassExit} (h : InLayer program blake3 start state 0 pass)
    (hreason : reason ≠ .outOfFuel ∧ reason ≠ .hard .ok ∧ reason ≠ .disposed forwardComplete) :
    LayerEnds program blake3 start state reason pass :=
  ⟨h.sound, h.finalState, hreason.1, hreason.2.1, hreason.2.2⟩

theorem InLayer.update {owed' : Budget → ℕ} {next : Pass σ}
    (h : InLayer program blake3 start state owed pass)
    (hstate : next.finalState = pass.finalState) (hlayers : next.layers = pass.layers)
    (hcount : next.receipt.layerCount = pass.receipt.layerCount)
    (hinitial : next.receipt.initialStateId = pass.receipt.initialStateId)
    (haccounts : Accounts program owed' next)
    (hgranted : ∀ receipt ∈ next.granted, Within program receipt) :
    InLayer program blake3 start state owed' next where
  sound :=
    { formed := hstate ▸ h.sound.formed
      accounts := haccounts
      granted := hgranted
      chained := by rw [hstate, hlayers]; exact h.sound.chained
      layerCount := by rw [hcount, hlayers]; exact h.sound.layerCount
      initialStateId := hinitial.trans h.sound.initialStateId
      progress := by rw [hstate, hlayers]; exact h.sound.progress }
  finalState := hstate.trans h.finalState
  room := hcount ▸ h.room

/-! ## The stages of a layer -/

open Program

theorem takeGrant_meets (P : ForwardReceipt → Prop) {ending : PassExit → Pass σ → Prop} :
    Meets (takeGrant program)
      (fun pass => InLayer program blake3 start state 0 pass ∧ P pass.receipt)
      (fun granted pass => InLayer program blake3 start state 0 pass ∧ P pass.receipt ∧
        granted = grant program pass.receipt) ending := by
  refine .get_then fun pass => .modify_then
    (fun pass' => InLayer program blake3 start state 0 pass' ∧ P pass'.receipt ∧
      pass'.receipt = pass.receipt) ?_ (.pure fun _ h => ⟨h.1, h.2.1, h.2.2 ▸ rfl⟩)
  rintro pass' ⟨⟨h, hreceipt⟩, rfl⟩
  refine ⟨h.update rfl rfl rfl rfl { h.sound.accounts with } ?_, hreceipt, rfl⟩
  exact List.forall_mem_append.2
    ⟨h.sound.granted, List.forall_mem_singleton.2 h.sound.accounts.within⟩

theorem callProvider_meets {α : Type} (answer : σ → GuidanceState → α × σ) {note : α → ProviderCall}
    {granted : Grant} (hfits : ∀ a receipt, granted = grant program receipt → ∀ budget : Budget,
      (note a).charge budget ≤ (budget.maximum program - budget.total receipt).toNat)
    {ending : PassExit → Pass σ → Prop} :
    Meets (callProvider answer note)
      (fun pass => InLayer program blake3 start state 0 pass ∧
        pass.receipt.providerCallCount < program.maxProviderCalls ∧
        granted = grant program pass.receipt)
      (fun a => InLayer program blake3 start state (note a).charge) ending := by
  refine .get_then fun pass => .modify_then
    (InLayer program blake3 start state (note (answer pass.providerState pass.finalState).1).charge)
    ?_ (.pure fun _ h => h)
  rintro pass' ⟨⟨h, hcalls, hgranted⟩, rfl⟩
  have haccounts := h.sound.accounts
  obtain ⟨hcount, hmaximum⟩ := succ_le_of_lt hcalls
  refine h.update rfl rfl rfl rfl { haccounts with
    providerCallCount := hmaximum
    calls := ?_
    charged := fun budget => ?_
    bounded := fun budget => ?_ } h.sound.granted
  · rw [hcount, haccounts.calls, List.length_append, List.length_singleton]
  all_goals
    have htotal := haccounts.charged budget
    simp only [charged, List.map_append, List.sum_append, List.map_singleton, List.sum_singleton] at htotal ⊢
  · simp only [Pi.zero_apply, Nat.add_zero] at htotal
    rw [← htotal]
    cases budget <;> rfl
  · have hcharge := hfits (answer pass'.providerState pass'.finalState).1 _ hgranted budget
    have hbounded := haccounts.bounded budget
    have hle : budget.total pass'.receipt ≤ budget.maximum program :=
      UInt64.le_iff_toNat_le.2 ((Nat.le_add_right _ _).trans ((haccounts.charged budget).le.trans hbounded))
    have hleft := remaining_toNat hle
    simp only [Pi.zero_apply] at htotal
    omega

theorem accumulate_meets {budget : Budget} {value : UInt64} (howed : owed budget = value.toNat)
    {ending : PassExit → Pass σ → Prop} :
    Meets (accumulate program budget value : Passing σ Unit)
      (InLayer program blake3 start state owed)
      (fun _ => InLayer program blake3 start state (Function.update owed budget 0)) ending := by
  refine .get_then fun pass => ?_
  -- what is owed fits, so there is neither an overflow nor too much
  have hsum : ∀ pass', InLayer program blake3 start state owed pass' ∧ pass' = pass →
      (budget.total pass.receipt).toNat + value.toNat ≤ (budget.maximum program).toNat := by
    rintro pass' ⟨h, rfl⟩
    have htotal := h.sound.accounts.charged budget
    have hbounded := h.sound.accounts.bounded budget
    omega
  split
  · rename_i hnone
    refine .throw fun pass' h => ?_
    have := hsum pass' h
    have := (budget.maximum program).toNat_lt
    rw [checkedAdd_eq_none] at hnone
    omega
  · rename_i next hnext
    have hnext := checkedAdd_eq_some.1 hnext
    refine .require_then (fun pass' h hnot => ?_) fun _ => .modify ?_
    · have := hsum pass' h
      rw [UInt64.le_iff_toNat_le] at hnot
      omega
    rintro pass' ⟨h, rfl⟩
    have haccounts := h.sound.accounts
    obtain ⟨hcalls, hprojected, hlayers, hinitial⟩ :
        (budget.store pass'.receipt next).providerCallCount = pass'.receipt.providerCallCount ∧
        (budget.store pass'.receipt next).projectedQueryCount = pass'.receipt.projectedQueryCount ∧
        (budget.store pass'.receipt next).layerCount = pass'.receipt.layerCount ∧
        (budget.store pass'.receipt next).initialStateId = pass'.receipt.initialStateId := by
      cases budget <;> exact ⟨rfl, rfl, rfl, rfl⟩
    refine h.update rfl rfl hlayers hinitial ⟨hlayers ▸ haccounts.layerCount,
      hcalls ▸ haccounts.providerCallCount, hprojected ▸ haccounts.projectedQueryCount,
      hcalls ▸ haccounts.calls, fun other => ?_, haccounts.bounded⟩ h.sound.granted
    have htotal := haccounts.charged other
    by_cases heq : other = budget
    · subst heq
      have hstored : other.total (other.store pass'.receipt next) = next := by cases other <;> rfl
      rw [hstored, Function.update_self, Nat.add_zero, hnext, ← howed]
      exact htotal
    · have hstored : other.total (budget.store pass'.receipt next) = other.total pass'.receipt := by
        cases other <;> cases budget <;> first | rfl | exact absurd rfl heq
      rw [hstored, Function.update_of_ne heq]
      exact htotal

theorem accumulateCosts_meets {resourceCost ioOperations databaseOperations : UInt64}
    (hresource : owed .resourceCost = resourceCost.toNat) (hio : owed .ioOperations = ioOperations.toNat)
    (hdatabase : owed .databaseOperations = databaseOperations.toNat)
    {ending : PassExit → Pass σ → Prop} :
    Meets (accumulateCosts program resourceCost ioOperations databaseOperations : Passing σ Unit)
      (InLayer program blake3 start state owed)
      (fun _ => InLayer program blake3 start state (Function.update (Function.update
        (Function.update owed .resourceCost 0) .ioOperations 0) .databaseOperations 0)) ending :=
  .bind (accumulate_meets hresource) fun _ => .bind (accumulate_meets (by simpa using hio)) fun _ =>
    accumulate_meets (by simpa using hdatabase)

theorem projectLayer_meets (memory : LayerMemory) :
    Meets (projectLayer program blake3 memory)
      (InLayer program blake3 start state 0 : Pass σ → Prop)
      (fun _ => InLayer program blake3 start state 0) (LayerEnds program blake3 start state) := by
  refine .get_then fun pass => ?_
  refine .require_then (fun pass' h _ => h.1.ends (by decide)) fun _ => ?_
  refine .require_then (fun pass' h _ => h.1.ends (by decide)) fun _ => ?_
  refine .require_then (fun pass' h _ => h.1.ends (by decide)) fun hfits => ?_
  refine .modify_then (InLayer program blake3 start state 0) ?_ (.pure fun _ h => h)
  rintro pass' ⟨h, rfl⟩
  have haccounts := h.sound.accounts
  refine h.update rfl rfl rfl rfl { haccounts with
    projectedQueryCount := add_le_of_le_sub haccounts.projectedQueryCount hfits
    charged := fun budget => ?_ } h.sound.granted
  rw [← haccounts.charged budget]
  cases budget <;> rfl

theorem enumerated_fits {receipt : ForwardReceipt} {stateId fingerprint : Digest256}
    {projectionCount capacity : UInt64} {enumeration : Enumeration} {accepted : Bool}
    (hcapacity : capacity ≤ (grant program receipt).remainingCandidateOperations)
    (h : accepted = true → enumerationAccepted stateId fingerprint projectionCount
      (grant program receipt) capacity enumeration = true) (budget : Budget) :
    (ProviderCall.enumerated enumeration accepted).charge budget ≤
      (budget.maximum program - budget.total receipt).toNat := by
  cases accepted with
  | false => exact Nat.zero_le _
  | true =>
    have h := h rfl
    simp only [enumerationAccepted, receiptCostFits, decide_eq_true_eq] at h
    obtain ⟨hcount, -, -, -, -, -, -, -, hresource, hio, hdatabase⟩ := h
    cases budget with
    | resourceCost => exact UInt64.le_iff_toNat_le.1 hresource
    | ioOperations => exact UInt64.le_iff_toNat_le.1 hio
    | databaseOperations => exact UInt64.le_iff_toNat_le.1 hdatabase
    | candidateOperations => exact UInt64.le_iff_toNat_le.1 (UInt64.le_trans hcount hcapacity)
    | resolutions => exact Nat.zero_le _

theorem executed_fits {receipt : ForwardReceipt} {stateId operationId : Digest256}
    {capacity : UInt64} {execution : Execution} {accepted : Bool}
    (hcapacity : capacity ≤ (grant program receipt).remainingResolutions)
    (h : accepted = true → executionAccepted stateId operationId (grant program receipt) capacity
      execution = true) (budget : Budget) : (ProviderCall.executed execution accepted).charge budget ≤
      (budget.maximum program - budget.total receipt).toNat := by
  cases accepted with
  | false => exact Nat.zero_le _
  | true =>
    have h := h rfl
    simp only [executionAccepted, receiptCostFits, decide_eq_true_eq] at h
    obtain ⟨-, hcount, -, -, -, -, -, -, -, hresource, hio, hdatabase⟩ := h
    cases budget with
    | resourceCost => exact UInt64.le_iff_toNat_le.1 hresource
    | ioOperations => exact UInt64.le_iff_toNat_le.1 hio
    | databaseOperations => exact UInt64.le_iff_toNat_le.1 hdatabase
    | candidateOperations => exact Nat.zero_le _
    | resolutions => exact UInt64.le_iff_toNat_le.1 (UInt64.le_trans hcount hcapacity)

theorem InLayer.paid (h : InLayer program blake3 start state owed pass)
    (howed : ∀ budget, owed budget = 0) : InLayer program blake3 start state 0 pass :=
  (funext howed : owed = 0) ▸ h

theorem enumerateLayer_meets (provider : Provider σ) (sortOperations : Sorting operationKey)
    (memory : LayerMemory) (projections : List QueryProjection) (fingerprint : Digest256) :
    Meets (enumerateLayer program provider sortOperations memory projections fingerprint)
      (InLayer program blake3 start state 0) (fun _ => InLayer program blake3 start state 0)
      (LayerEnds program blake3 start state) := by
  refine .get_then fun pass => ?_
  refine .require_then (fun pass' h _ => h.1.ends (by decide)) fun hcalls => ?_
  refine .of_pre (.bind (takeGrant_meets fun receipt =>
    receipt.providerCallCount < program.maxProviderCalls) fun granted => ?_)
    (fun pass' h => ⟨h.1, h.2 ▸ hcalls⟩)
  refine .require_then (fun pass' h _ => h.1.ends (by decide)) fun _ => ?_
  refine .require_then (fun pass' h _ => h.1.ends (by decide)) fun _ => ?_
  refine .bind (callProvider_meets _ ?_) fun enumeration => ?_
  · rintro enumeration receipt rfl
    exact enumerated_fits min_le_right_word fun h => (Bool.and_eq_true _ _ ▸ h).2
  refine .require_then (fun pass' h hno => (h.paid fun _ => ?_).ends (by decide)) fun hstatus => ?_
  · rw [decide_eq_false hno]
    rfl
  refine .require_then (fun pass' h hno => (h.paid fun _ => ?_).ends (by decide)) fun haccepted => ?_
  · rw [Bool.eq_false_iff.2 hno, Bool.and_false]
    rfl
  rw [decide_eq_true hstatus, haccepted]
  refine .bind (accumulateCosts_meets rfl rfl rfl) fun _ => ?_
  refine .bind (accumulate_meets rfl) fun _ => ?_
  refine .of_pre ?_ (fun pass' h => h.paid fun budget => by cases budget <;> rfl)
  refine .require_then (fun pass' h _ => h.ends (by decide)) fun _ => ?_
  exact .require_then (fun pass' h _ => h.ends (by decide)) fun _ => .pure fun _ h => h

theorem scheduleLayer_meets (memory : LayerMemory) (operations : List Operation) :
    Meets (scheduleLayer program blake3 memory operations)
      (InLayer program blake3 start state 0 : Pass σ → Prop)
      (fun _ => InLayer program blake3 start state 0) (LayerEnds program blake3 start state) := by
  refine .get_then fun pass => ?_
  refine .of_pre (.bind (takeGrant_meets fun _ => True) fun granted => ?_)
    (fun pass' h => ⟨h.1, trivial⟩)
  refine .require_then (fun pass' h _ => h.1.ends (by decide)) fun _ => ?_
  refine .require_then (fun pass' h _ => h.1.ends (by decide)) fun _ => ?_
  refine .require_then (fun pass' h _ => h.1.ends (by decide)) fun _ => ?_
  refine .require_then (fun pass' h _ => h.1.ends (by decide)) fun _ => ?_
  split
  · exact .throw fun pass' h => h.1.ends (by decide)
  · exact .pure fun pass' h => h.1

theorem runLayer_meets (provider : Provider σ) (memory : LayerMemory) (selected : Operation)
    (projections : List QueryProjection) :
    Meets (runLayer program provider memory selected projections)
      (InLayer program blake3 start state 0) (fun _ => InLayer program blake3 start state 0)
      (LayerEnds program blake3 start state) := by
  refine .get_then fun pass => ?_
  refine .require_then (fun pass' h _ => h.1.ends (by decide)) fun hcalls => ?_
  refine .of_pre (.bind (takeGrant_meets fun receipt =>
    receipt.providerCallCount < program.maxProviderCalls) fun granted => ?_)
    (fun pass' h => ⟨h.1, h.2 ▸ hcalls⟩)
  refine .require_then (fun pass' h _ => h.1.ends (by decide)) fun _ => ?_
  refine .require_then (fun pass' h _ => h.1.ends (by decide)) fun _ => ?_
  refine .bind (callProvider_meets _ ?_) fun execution => ?_
  · rintro execution receipt rfl
    exact executed_fits min_le_right_word fun h => (Bool.and_eq_true _ _ ▸ h).2
  refine .require_then (fun pass' h hno => (h.paid fun _ => ?_).ends (by decide)) fun hstatus => ?_
  · rw [decide_eq_false hno]
    rfl
  refine .require_then (fun pass' h hno => (h.paid fun _ => ?_).ends (by decide)) fun haccepted => ?_
  · rw [Bool.eq_false_iff.2 hno, Bool.and_false]
    rfl
  rw [decide_eq_true hstatus, haccepted]
  refine .bind (accumulateCosts_meets rfl rfl rfl) fun _ => ?_
  refine .bind (accumulate_meets rfl) fun _ => ?_
  exact .pure fun pass' h => h.paid fun budget => by cases budget <;> rfl

/-- What holds after a layer that goes on: an open obligation is resolved. -/
def Advances (program : ForwardProgram) (blake3 : Blake3)
    (start state : GuidanceState) (pass : Pass σ) : Prop :=
  PassSound program blake3 start 0 pass ∧
    openCount pass.finalState.obligations < openCount state.obligations

theorem InLayer.advances {next : Pass σ} (h : InLayer program blake3 start state 0 pass)
    {layer : LayerReceipt} (hprior : layer.priorStateId = state.stateId)
    (hnext : layer.nextStateId = next.finalState.stateId) (hformed : Formed blake3 next.finalState)
    (hopen : openCount next.finalState.obligations < openCount pass.finalState.obligations)
    (hlayers : next.layers = pass.layers ++ [layer])
    (hreceipt : next.receipt = { pass.receipt with layerCount := UInt64.ofNat next.layers.length })
    (hgranted : next.granted = pass.granted) (hcalls : next.calls = pass.calls) :
    Advances program blake3 start state next := by
  have hsound := h.sound
  obtain ⟨hcount, hroom⟩ := succ_le_of_lt h.room
  have hlength : next.layers.length = pass.layers.length + 1 := by
    rw [hlayers, List.length_append, List.length_singleton]
  have hlayerCount : next.receipt.layerCount = pass.receipt.layerCount + 1 := by
    rw [hreceipt, ← UInt64.toNat_inj, hcount, hsound.layerCount, ← hlength]
    refine Checked.toNat_ofNat ?_
    rw [hlength, ← hsound.layerCount, ← hcount]
    exact UInt64.toNat_lt _
  have hprogress := hsound.progress
  obtain ⟨-, hproviderCalls, hprojected, hcalled, hcharged, hbounded⟩ := hsound.accounts
  refine ⟨?_, h.finalState ▸ hopen⟩
  exact
    { formed := hformed
      accounts := by
        refine ⟨hlayerCount ▸ hroom, ?_, ?_, ?_, fun budget => ?_, hcalls ▸ hbounded⟩
        all_goals rw [hreceipt]
        · exact hproviderCalls
        · exact hprojected
        · exact hcalls ▸ hcalled
        · rw [hcalls, ← hcharged budget]
          cases budget <;> rfl
      granted := hgranted ▸ hsound.granted
      chained := by
        rw [hlayers, ← hnext]
        exact hsound.chained.concat (hprior.trans (congrArg GuidanceState.stateId h.finalState.symm))
      layerCount := by rw [hlayerCount, hcount, hsound.layerCount, hlength]
      initialStateId := by rw [hreceipt]; exact hsound.initialStateId
      progress := by omega }

theorem advanceLayer_meets (sortResolutions : Sorting resolutionKey)
    (sort : Sorting obligationKey) (memory : LayerMemory) (resolutions : List Resolution)
    {record : TransitionReceipt → LayerReceipt}
    (hprior : ∀ transition, (record transition).priorStateId = state.stateId)
    (hnext : ∀ transition, (record transition).nextStateId = transition.nextStateId) :
    Meets (advanceLayer program blake3 sortResolutions sort memory resolutions record)
      (InLayer program blake3 start state 0 : Pass σ → Prop)
      (fun _ => Advances program blake3 start state) (LayerEnds program blake3 start state) := by
  refine .get_then fun pass => ?_
  dsimp only
  split
  · exact .throw fun pass' h => h.1.ends (by decide)
  · rename_i nextState hstate
    refine .require_then (fun pass' h _ => h.1.ends (by decide)) fun _ => ?_
    refine .require_then (fun pass' h _ => h.1.ends (by decide)) fun _ => ?_
    refine .require_then (fun pass' h _ => h.1.ends (by decide)) fun _ => ?_
    refine .modify ?_
    rintro pass' ⟨h, rfl⟩
    have hpositive : 0 < resolutions.length := by
      refine List.length_pos_iff.2 ?_
      rintro rfl
      cases hstate
    cases applyResolutions_answered sortResolutions sort h.sound.formed resolutions memory.apply with
    | failed _ hnone => cases hnone.symm.trans hstate
    | resolved next _ hsome _ hformed hbatch _ hid =>
      cases hsome.symm.trans hstate
      have hopen : openCount nextState.obligations < openCount pass'.finalState.obligations := by
        have := hbatch.openCount
        omega
      refine h.advances ?_ ?_ hformed hopen rfl rfl rfl rfl
      · exact hprior _
      · exact (hnext _).trans hid

theorem executeLayer_meets (provider : Provider σ) (sortOperations : Sorting operationKey)
    (sortResolutions : Sorting resolutionKey) (sort : Sorting obligationKey)
    (memory : LayerMemory) :
    Meets (executeLayer program blake3 provider sortOperations sortResolutions sort memory)
      (InLayer program blake3 start state 0)
      (fun _ => Advances program blake3 start state) (LayerEnds program blake3 start state) := by
  refine .get_then fun pass => ?_
  by_cases hstate : pass.finalState = state
  · refine .of_pre (.bind (projectLayer_meets memory) fun projections => ?_)
      (fun pass' h => h.1)
    refine .bind (enumerateLayer_meets provider sortOperations memory projections _) ?_
    rintro ⟨enumeration, operations⟩
    refine .bind (scheduleLayer_meets memory operations) ?_
    rintro ⟨decision, selected⟩
    refine .bind (runLayer_meets provider memory selected projections) ?_
    rintro ⟨execution, resolutions⟩
    exact advanceLayer_meets sortResolutions sort memory resolutions
      (fun _ => congrArg GuidanceState.stateId hstate) fun _ => rfl
  · rintro pass' ⟨h, rfl⟩
    exact absurd h.finalState hstate

/-! ## The loop -/

/-- How a pass ends: it is disposed complete exactly when its state is. -/
structure PassEnds (program : ForwardProgram) (blake3 : Blake3)
    (start : GuidanceState) (reason : PassExit) (pass : Pass σ) : Prop where
  sound : PassSound program blake3 start 0 pass
  fuel : reason ≠ .outOfFuel
  failed : reason ≠ .hard .ok
  disposition : ∀ disposition, reason = .disposed disposition →
    (disposition = forwardComplete ↔ (completion pass.finalState).1 = completionComplete)

theorem headDisposition_complete :
    headDisposition program pass = forwardComplete ↔
      (completion pass.finalState).1 = completionComplete := by
  unfold headDisposition
  dsimp only
  split
  · rename_i h
    exact iff_of_true rfl h
  · rename_i h
    refine iff_of_false (fun heq => ?_) h
    split at heq
    · cases heq
    · split at heq
      · cases heq
      · split at heq <;> cases heq

theorem lt_of_headDisposition (h : headDisposition program pass = 0) :
    pass.receipt.layerCount < program.maxLayers := by
  unfold headDisposition at h
  dsimp only at h
  split at h
  · cases h
  · split at h
    · cases h
    · split at h
      · cases h
      · rename_i hroom
        exact UInt64.not_le.1 hroom

section

variable (provider : Provider σ) (sortOperations : Sorting operationKey)
  (sortResolutions : Sorting resolutionKey) (sort : Sorting obligationKey)
  (memory : ℕ → LayerMemory)

theorem runLayers_meets : ∀ fuel,
    Meets (runLayers program blake3 provider sortOperations sortResolutions sort memory fuel)
      (fun pass => PassSound program blake3 start 0 pass ∧
        openCount pass.finalState.obligations < fuel)
      (fun _ _ => False) (PassEnds program blake3 start)
  | 0 => fun pass h => absurd h.2 (Nat.not_lt_zero _)
  | fuel + 1 => by
    refine .get_then fun pass => ?_
    refine .require_then ?_ fun hhead => ?_
    · rintro pass' ⟨⟨h, -⟩, rfl⟩ hhead
      refine ⟨h, nofun, nofun, fun disposition heq => ?_⟩
      cases heq
      exact headDisposition_complete
    · by_cases hfuel : openCount pass.finalState.obligations < fuel + 1
      · have hincomplete : (completion pass.finalState).1 ≠ completionComplete := fun h => by
          rw [headDisposition_complete.2 h] at hhead
          cases hhead
        refine .bind (Q := fun _ => Advances program blake3 start pass.finalState) ?_ fun _ => ?_
        · refine (executeLayer_meets provider sortOperations sortResolutions sort
            (memory pass.layers.length)).mono ?_ (fun _ _ h => h) fun reason pass' h => ?_
          · rintro pass' ⟨⟨h, -⟩, rfl⟩
            exact ⟨h, rfl, lt_of_headDisposition hhead⟩
          · refine ⟨h.sound, h.fuel, h.failed, fun disposition heq => iff_of_false ?_ ?_⟩
            · rintro rfl
              exact h.disposition heq
            · rw [h.finalState]
              exact hincomplete
        -- the layer has resolved an obligation, so the rest needs one unit of fuel less
        · exact .of_pre (runLayers_meets fuel)
            (fun pass' h => ⟨h.1, h.2.trans_le (Nat.le_of_lt_succ hfuel)⟩)
      · rintro pass' ⟨⟨-, hopen⟩, rfl⟩
        exact absurd hopen hfuel

theorem runLayers_fuel : ∀ {fuel fuel' : ℕ} {pass : Pass σ}, PassSound program blake3 start 0 pass →
    openCount pass.finalState.obligations < fuel → openCount pass.finalState.obligations < fuel' →
    (runLayers program blake3 provider sortOperations sortResolutions sort memory fuel).eval pass =
      (runLayers program blake3 provider sortOperations sortResolutions sort memory fuel').eval pass
  | 0, _, _, _, h, _ => absurd h (Nat.not_lt_zero _)
  | _, 0, _, _, _, h => absurd h (Nat.not_lt_zero _)
  | fuel + 1, fuel' + 1, pass, hsound, hfuel, hfuel' => by
    unfold runLayers Program.require
    rw [eval_bind, eval_bind, eval_get]
    dsimp only
    by_cases hhead : headDisposition program pass = 0
    · rw [if_pos hhead, eval_bind, eval_bind, eval_pure]
      dsimp only
      rw [eval_bind, eval_bind]
      have hlayer := executeLayer_meets provider sortOperations sortResolutions sort
        (memory pass.layers.length) pass ⟨hsound, rfl, lt_of_headDisposition hhead⟩
      split
      · rename_i next heq
        rw [heq] at hlayer
        have hless := hlayer.2
        exact runLayers_fuel hlayer.1 (by omega) (by omega)
      · rfl
    · rw [if_neg hhead, eval_bind, eval_bind, eval_throw]

variable {pass : Pass σ}

/-- **Termination.** -/
theorem runLayers_terminates (h : PassSound program blake3 start 0 pass) :
    ∃ reason last, PassEnds program blake3 start reason last ∧
      ∀ fuel, openCount pass.finalState.obligations < fuel →
        (runLayers program blake3 provider sortOperations sortResolutions sort memory fuel).eval pass =
          (.error reason, last) := by
  have hends := runLayers_meets provider sortOperations sortResolutions sort memory
    (openCount pass.finalState.obligations + 1) pass ⟨h, Nat.lt_succ_self _⟩
  have hfuel := fun fuel (hfuel : openCount pass.finalState.obligations < fuel) =>
    runLayers_fuel provider sortOperations sortResolutions sort memory h hfuel
      (Nat.lt_succ_self (openCount pass.finalState.obligations))
  rcases hrun : (runLayers program blake3 provider sortOperations sortResolutions sort memory
    (openCount pass.finalState.obligations + 1)).eval pass with ⟨reason | ⟨⟩, last⟩
  · rw [hrun] at hends
    exact ⟨reason, last, hends, fun fuel h => (hfuel fuel h).trans hrun⟩
  · rw [hrun] at hends
    exact hends.elim

/-! ## The whole pass -/

/-- The receipt of a call that has not begun its first layer. -/
def startReceipt (status : ForwardStatus) (programFingerprint : Digest256) : ForwardReceipt :=
  { version := forwardVersion, status, programFingerprint }

theorem initialPass_sound (h : Formed blake3 start) (providerState : σ)
    (programFingerprint : Digest256) : PassSound program blake3 start 0
      (initialPass providerState start (startReceipt .ok programFingerprint)) where
  formed := h
  accounts := ⟨UInt64.zero_le, UInt64.zero_le, UInt64.zero_le, rfl,
    fun budget => by cases budget <;> rfl, fun budget => Nat.zero_le _⟩
  granted := List.forall_mem_nil _
  chained := rfl
  layerCount := rfl
  initialStateId := rfl
  progress := le_rfl

/-- What a finished call keeps to, also when it fails. -/
structure Bounded (program : ForwardProgram) (initialState : GuidanceState)
    (executed : Executed) : Prop where
  within : Within program executed.receipt
  layers : executed.receipt.layerCount.toNat ≤
    min program.maxLayers.toNat (openCount initialState.obligations)
  granted : ∀ receipt ∈ executed.granted, Within program receipt
  calls : executed.receipt.providerCallCount.toNat = executed.calls.length
  charged : ∀ budget : Budget,
    (budget.total executed.receipt).toNat = charged executed.calls budget
  status : executed.receipt.status = executed.status
  result : executed.status = .ok ↔ executed.result.isSome = true

/-- The result of a pass that comes to an end. -/
structure Concluded (initialState : GuidanceState) (result : ForwardResult) : Prop where
  layerCount : result.layers.length = result.receipt.layerCount.toNat
  initialStateId : result.receipt.initialStateId = initialState.stateId
  finalStateId : result.receipt.finalStateId = result.finalState.stateId
  chained : Chained initialState.stateId result.layers result.finalState.stateId
  finalCompletion : result.receipt.finalCompletion = (completion result.finalState).1
  disposition : result.receipt.disposition = forwardComplete ↔
    (completion result.finalState).1 = completionComplete

variable {initialState : GuidanceState}

theorem bounded_start {status : ForwardStatus} (hstatus : status ≠ .ok)
    (programFingerprint : Digest256) : Bounded program initialState
      { status, receipt := startReceipt status programFingerprint } where
  within := ⟨UInt64.zero_le, UInt64.zero_le, UInt64.zero_le, UInt64.zero_le, UInt64.zero_le,
    UInt64.zero_le, UInt64.zero_le, UInt64.zero_le⟩
  layers := Nat.zero_le _
  granted := List.forall_mem_nil _
  calls := rfl
  charged budget := by cases budget <;> rfl
  status := rfl
  result := iff_of_false hstatus nofun

theorem bounded_of_sound {status : ForwardStatus} {receipt : ForwardReceipt}
    {result : Option ForwardResult} (h : PassSound program blake3 initialState 0 pass)
    (hwithin : Within program receipt)
    (hlayers : receipt.layerCount = pass.receipt.layerCount)
    (hcalls : receipt.providerCallCount = pass.receipt.providerCallCount)
    (htotals : ∀ budget : Budget, budget.total receipt = budget.total pass.receipt)
    (hstatus : receipt.status = status) (hresult : status = .ok ↔ result.isSome = true) :
    Bounded program initialState ⟨status, receipt, result, pass.granted, pass.calls⟩ where
  within := hwithin
  layers := by
    refine le_min (UInt64.le_iff_toNat_le.1 hwithin.layerCount) ?_
    have hprogress := h.progress
    rw [hlayers, h.layerCount]
    omega
  granted := h.granted
  calls := hcalls ▸ h.accounts.calls
  charged budget := (congrArg UInt64.toNat (htotals budget)).trans (h.accounts.charged budget)
  status := hstatus
  result := hresult

theorem finalize_concluded {disposition : UInt32} (h : PassSound program blake3 initialState 0 pass)
    (hdisposition : disposition = forwardComplete ↔
      (completion pass.finalState).1 = completionComplete) : Concluded initialState
      ⟨pass.finalState, pass.layers, finalize program blake3 pass disposition⟩ where
  layerCount := h.layerCount.symm
  initialStateId := h.initialStateId
  finalStateId := rfl
  chained := h.chained
  finalCompletion := rfl
  disposition := hdisposition

theorem conclude_bounded {reason : PassExit} {last : Pass σ}
    (h : PassEnds program blake3 initialState reason last) :
    ∃ executed, conclude program blake3 (.error reason, last) = some executed ∧
      Bounded program initialState executed ∧ ∀ result, executed.result = some result →
        result.receipt = executed.receipt ∧ Concluded initialState result := by
  have hwithin := h.sound.accounts.within
  cases reason with
  | outOfFuel => exact absurd rfl h.fuel
  | hard status =>
    have hstatus : status ≠ .ok := by
      rintro rfl
      exact h.failed rfl
    exact ⟨_, rfl, bounded_of_sound h.sound { hwithin with } rfl rfl
      (fun budget => by cases budget <;> rfl) rfl (iff_of_false hstatus nofun), nofun⟩
  | badAlloc =>
    exact ⟨_, rfl, bounded_of_sound h.sound { hwithin with } rfl rfl
      (fun budget => by cases budget <;> rfl) rfl (iff_of_false nofun nofun), nofun⟩
  | disposed disposition =>
    refine ⟨_, rfl, ?_, fun result hresult => ?_⟩
    · exact bounded_of_sound h.sound { hwithin with } rfl rfl
        (fun budget => by cases budget <;> rfl) rfl (iff_of_true rfl rfl)
    · cases hresult
      exact ⟨rfl, finalize_concluded h.sound (h.disposition disposition rfl)⟩

/-- Every call comes to an end, whatever the provider hands back: with enough fuel it does not
depend on the fuel. Its totals are what the accepted answers cost, and it has a result exactly when
its status is OK. -/
theorem forward_pass_bounded (program : ForwardProgram) (blake3 : Blake3)
    {initialState : GuidanceState} (haccepted : Accepted blake3 initialState) (providerState : σ)
    (memory : PassMemory) :
    ∃ executed : Executed,
      (∀ fuel, openCount initialState.obligations < fuel →
        forwardPassExecute program blake3 provider sortOperations sortResolutions sort initialState
          providerState memory fuel = some executed) ∧
      Within program executed.receipt ∧
      executed.receipt.layerCount.toNat ≤
        min program.maxLayers.toNat (openCount initialState.obligations) ∧
      (∀ receipt ∈ executed.granted, Remains program receipt (grant program receipt)) ∧
      executed.receipt.providerCallCount.toNat = executed.calls.length ∧
      (∀ budget : Budget, (budget.total executed.receipt).toNat = charged executed.calls budget) ∧
      executed.receipt.status = executed.status ∧
      (executed.status = .ok ↔ executed.result.isSome = true) ∧
      ∀ result, executed.result = some result →
        result.receipt = executed.receipt ∧ Concluded initialState result := by
  have hformed := accepted_iff.1 haccepted
  suffices h : ∃ executed : Executed,
      (∀ fuel, openCount initialState.obligations < fuel →
        forwardPassExecute program blake3 provider sortOperations sortResolutions sort initialState
          providerState memory fuel = some executed) ∧
      Bounded program initialState executed ∧ ∀ result, executed.result = some result →
        result.receipt = executed.receipt ∧ Concluded initialState result by
    obtain ⟨executed, hrun, hbounded, hresult⟩ := h
    exact ⟨executed, hrun, hbounded.within, hbounded.layers,
      fun receipt hmem => (hbounded.granted receipt hmem).remains, hbounded.calls, hbounded.charged,
      hbounded.status, hbounded.result, hresult⟩
  unfold forwardPassExecute
  dsimp only
  split
  · exact ⟨_, fun _ _ => rfl, bounded_start (by decide) _, nofun⟩
  · split
    · exact ⟨_, fun _ _ => rfl, bounded_start (by decide) _, nofun⟩
    · split
      · exact ⟨_, fun _ _ => rfl, bounded_start (by decide) _, nofun⟩
      · have hclone : stateClone blake3 sort initialState memory.clone = _ :=
          hformed.buildState_eq sort memory.clone
        rw [hclone]
        cases memory.clone with
        | false => exact ⟨_, fun _ _ => rfl, bounded_start (by decide) _, nofun⟩
        | true =>
          have hstart := @initialPass_sound σ program blake3 initialState hformed providerState
            (blake3 (programBytes program))
          obtain ⟨reason, last, hends, hrun⟩ := runLayers_terminates provider sortOperations
            sortResolutions sort memory.layers hstart
          obtain ⟨executed, hconclude, hexecuted⟩ := conclude_bounded hends
          exact ⟨executed, fun fuel hfuel => (congrArg _ (hrun fuel hfuel)).trans hconclude, hexecuted⟩

end

section

/-- A provider that proposes one operation for the first open obligation and answers it. -/
def obligingProvider : Provider Unit where
  enumerate providerState state projections _ _ :=
    (⟨0, projections.head?.toList.map fun projection =>
        ⟨1, projection.obligationId, 1, 1, 1, 1, 1, 1, 1, 1, 1, operationStructuralCalculation,
          operationInformationSeeking⟩, 1,
      ⟨1, state.stateId, digits (projectionSetBytes state.stateId projections),
        UInt64.ofNat projections.length, 1, 2, 1, 1, 0, 0⟩⟩, providerState)
  execute providerState state operation _ _ _ :=
    (⟨0, [{ soloAnswer with obligationId := operation.targetObligationId }], 1,
      ⟨1, state.stateId, operation.operationId, 1, 1, 3, 1, 1, 0, 0⟩⟩, providerState)
  abiMajor := providerAbiMajor
  abiMinor := providerAbiMinor
  flags := 0
  reserved := 0

def pairProgram : ForwardProgram :=
  ⟨1, 1, 8, 8, 8, 8, 8, 64, 8, 8, 4, 4, requireStateProgress, forwardVersion, 0⟩

def executePair : ℕ → Option Executed :=
  forwardPassExecute pairProgram digits obligingProvider (.insertion _) (.insertion _)
    (.insertion _) pairState ()
    ⟨true, true, fun _ => ⟨true, true, true, true, ⟨true, true, true⟩, true⟩⟩

/-- Two obligations are answered in two layers, at the costs of four calls. -/
theorem forward_pass_bounded_pair : ∃ executed result, (∀ fuel, 2 < fuel →
      executePair fuel = some executed) ∧ executed.result = some result ∧
    result.layers.length = 2 ∧
    Chained pairState.stateId result.layers result.finalState.stateId ∧
    result.receipt.disposition = forwardComplete ∧ executed.calls.length = 4 ∧
    executed.receipt.resourceCost.toNat = 10 ∧ charged executed.calls .resourceCost = 10 := by
  obtain ⟨executed, hrun, -, -, -, -, hcharged, -, -, hresult⟩ := forward_pass_bounded
    obligingProvider (.insertion _) (.insertion _) (.insertion _) pairProgram digits
    pairState_accepted () ⟨true, true, fun _ => ⟨true, true, true, true, ⟨true, true, true⟩, true⟩⟩
  have hvalue : (executePair 3).map (fun executed =>
      (executed.result.map fun result => (result.layers.length, result.receipt.disposition),
        executed.calls.length, executed.receipt.resourceCost.toNat)) =
      some (some (2, forwardComplete), 4, 10) := by decide +kernel
  rw [show executePair 3 = some executed from hrun 3 (by decide)] at hvalue
  simp only [Option.map_some, Option.some.injEq, Prod.mk.injEq] at hvalue
  obtain ⟨hfinished, hcalls, hcost⟩ := hvalue
  obtain ⟨result, hsome, hpair⟩ := Option.map_eq_some_iff.1 hfinished
  rw [Prod.mk.injEq] at hpair
  exact ⟨executed, result, hrun, hsome, hpair.1, (hresult result hsome).2.chained, hpair.2, hcalls,
    hcost, (hcharged .resourceCost).symm.trans hcost⟩

end

end Laplace.Cognition
