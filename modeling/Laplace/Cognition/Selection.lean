import Laplace.Cognition.Guidance

/-!
# Selection and evidence (cognition_guidance_part02.inc)

An operation is better than another by five criteria, the last of which is its id, so the selected one
does not depend on the order of the candidates. Evidence is folded in the order of the observation
ids and counted by dependence roots.
-/

namespace Laplace.Cognition

/-! ## The operation order -/

/-- What `OperationBetter` compares. -/
def operationRank (operation : Operation) : ℕᵒᵈ ×ₗ ℕᵒᵈ ×ₗ ℕ ×ₗ ℕ ×ₗ ℕ :=
  toLex (OrderDual.toDual operation.expectedObligationReduction.toNat,
    toLex (OrderDual.toDual operation.informationValue.toNat, toLex (operation.resourceCost.toNat,
        toLex (operation.kind.toNat, operation.operationId.toNat))))

theorem operationBetter_iff {left right : Operation} :
    operationBetter left right = true ↔ operationRank left < operationRank right := by
  simp only [operationBetter, operationRank, Prod.Lex.toLex_lt_toLex, OrderDual.toDual_lt_toDual,
    EmbeddingLike.apply_eq_iff_eq, UInt64.toNat_inj, UInt32.toNat_inj, ← UInt64.lt_iff_toNat_lt,
    ← UInt32.lt_iff_toNat_lt]
  split_ifs <;> simp_all [BitVec.lt_def]

theorem operationRank_inj {left right : Operation} (h : operationRank left = operationRank right) :
    left.expectedObligationReduction = right.expectedObligationReduction ∧
      left.informationValue = right.informationValue ∧ left.resourceCost = right.resourceCost ∧
      left.kind = right.kind ∧ left.operationId = right.operationId := by
  simpa [operationRank, Prod.ext_iff, UInt64.toNat_inj, UInt32.toNat_inj, BitVec.toNat_inj] using h

/-- The better one of two. -/
def better (selected : Option Operation) (operation : Operation) : Option Operation :=
  match selected with
  | none => some operation
  | some best => if operationBetter operation best then some operation else some best

theorem foldl_better : ∀ {operations : List Operation} {first : Operation}, ∃ best ∈ first :: operations,
    operations.foldl better (some first) = some best ∧
      ∀ operation ∈ first :: operations, operationRank best ≤ operationRank operation := by
  intro operations
  induction operations with
  | nil => intro first; exact ⟨first, by simp, rfl, by simp⟩
  | cons operation operations ih =>
    intro first
    rw [List.foldl_cons, better]
    by_cases h : operationBetter operation first = true
    · obtain ⟨best, hmem, hfold, hbest⟩ := @ih operation
      have := operationBetter_iff.1 h
      refine ⟨best, by simp_all, by rw [if_pos h]; exact hfold, fun other hother => ?_⟩
      rcases List.mem_cons.1 hother with rfl | hother
      · exact (hbest operation List.mem_cons_self).trans this.le
      · exact hbest other hother
    · obtain ⟨best, hmem, hfold, hbest⟩ := @ih first
      have := not_lt.1 (operationBetter_iff.not.1 h)
      refine ⟨best, ?_, by rw [if_neg h]; exact hfold, fun other hother => ?_⟩
      · rcases List.mem_cons.1 hmem with rfl | hmem <;> simp [*]
      · rcases List.mem_cons.1 hother with rfl | hother
        · exact hbest _ List.mem_cons_self
        · rcases List.mem_cons.1 hother with rfl | hother
          · exact (hbest first List.mem_cons_self).trans this
          · exact hbest other (List.mem_cons_of_mem _ hother)

/-! ## Selection -/

section Selection

variable (blake3 : Blake3) (state : GuidanceState)

def Eligible (operation : Operation) : Prop :=
  operationEligible state operation (completion state).1 = true

/-- The decision without its receipt. -/
def Decision.withoutReceipt (decision : Decision) : Decision := { decision with decisionReceiptId := 0 }

/-- What a decision says of the selected operation. -/
structure Selects (decision : Decision) (operation : Operation) : Prop where
  operationId : decision.selectedOperationId = operation.operationId
  reduction : decision.selectedExpectedObligationReduction = operation.expectedObligationReduction
  informationValue : decision.selectedInformationValue = operation.informationValue
  resourceCost : decision.selectedResourceCost = operation.resourceCost
  kind : decision.selectedKind = operation.kind

variable {blake3 state} {operations operations' : List Operation}

theorem selectOperation_selected {best : Operation} (hnil : operations ≠ [])
    (h : (operations.filter fun operation => operationEligible state operation (completion state).1).foldl
      better none = some best) : (selectOperation blake3 state operations).1 = .ok ∧
      Selects (selectOperation blake3 state operations).2 best := by
  rw [selectOperation, if_neg hnil]
  dsimp only
  generalize hfold : List.foldl _ none _ = selected
  obtain rfl : selected = some best := hfold.symm.trans h
  exact ⟨rfl, rfl, rfl, rfl, rfl, rfl⟩

/-- **The selection** is a best one of the eligible operations, if there is one. -/
theorem selectOperation_cases : let result := selectOperation blake3 state operations
    (result.1 ≠ .ok ∧ ∀ operation ∈ operations, ¬Eligible state operation) ∨
    (result.1 = .ok ∧ ∃ best ∈ operations, Eligible state best ∧ Selects result.2 best ∧
      ∀ operation ∈ operations, Eligible state operation → operationRank best ≤ operationRank operation) := by
  by_cases hnil : operations = []
  · simp [selectOperation, hnil]
  cases hfilter : operations.filter fun operation =>
      operationEligible state operation (completion state).1 with
  | nil =>
    refine .inl ⟨by simp [selectOperation, hnil, hfilter], ?_⟩
    simpa [List.filter_eq_nil_iff, Eligible] using hfilter
  | cons first rest =>
    obtain ⟨best, hmem, hfold, hbest⟩ := @foldl_better rest first
    have hselected : (operations.filter fun operation =>
        operationEligible state operation (completion state).1).foldl better none = some best := by
      rw [hfilter]
      exact hfold
    have hmem' := hfilter ▸ hmem
    rw [List.mem_filter] at hmem'
    obtain ⟨hok, hselects⟩ := selectOperation_selected hnil hselected
    exact .inr ⟨hok, best, hmem'.1, hmem'.2, hselects, fun operation hoperation heligible =>
      hbest operation (hfilter ▸ List.mem_filter.2 ⟨hoperation, heligible⟩)⟩

theorem Selects.congr {decision decision' : Decision} {best best' : Operation}
    (h : Selects decision best) (h' : Selects decision' best')
    (hrank : operationRank best = operationRank best') :
    decision.selectedOperationId = decision'.selectedOperationId ∧
    decision.selectedExpectedObligationReduction = decision'.selectedExpectedObligationReduction ∧
    decision.selectedInformationValue = decision'.selectedInformationValue ∧
    decision.selectedResourceCost = decision'.selectedResourceCost ∧
    decision.selectedKind = decision'.selectedKind := by
  obtain ⟨hreduction, hinformation, hcost, hkind, hid⟩ := operationRank_inj hrank
  exact ⟨by rw [h.1, h'.1, hid], by rw [h.2, h'.2, hreduction], by rw [h.3, h'.3, hinformation],
    by rw [h.4, h'.4, hcost], by rw [h.5, h'.5, hkind]⟩

theorem selectOperation_rest : let result := selectOperation blake3 state operations
    result.1 = (if operations = [] then .invalidArgument else if result.1 = .ok then .ok
      else .noOperation) ∧ (result.1 ≠ .ok → result.2.withoutReceipt = (if operations = [] then {} else
      { stateId := state.stateId, status := .noOperation
        eligibleOperationCount := UInt64.ofNat (operations.countP fun operation =>
          operationEligible state operation (completion state).1)
        rejectedOperationCount := UInt64.ofNat (operations.countP fun operation =>
          !operationEligible state operation (completion state).1) })) ∧
    (result.1 = .ok → result.2.stateId = state.stateId ∧ result.2.status = .ok ∧
      result.2.eligibleOperationCount = UInt64.ofNat (operations.countP fun operation =>
        operationEligible state operation (completion state).1) ∧
      result.2.rejectedOperationCount = UInt64.ofNat (operations.countP fun operation =>
        !operationEligible state operation (completion state).1)) := by
  by_cases hnil : operations = []
  · simp [selectOperation, hnil, Decision.withoutReceipt]
  rw [selectOperation, if_neg hnil]
  dsimp only
  split <;> simp [Decision.withoutReceipt, hnil]

theorem selectOperation_perm (hperm : operations.Perm operations') :
    (selectOperation blake3 state operations).1 = (selectOperation blake3 state operations').1 ∧
    (selectOperation blake3 state operations).2.withoutReceipt =
      (selectOperation blake3 state operations').2.withoutReceipt := by
  have hnil : operations = [] ↔ operations' = [] := by
    constructor <;> rintro rfl
    · exact hperm.nil_eq.symm
    · exact hperm.eq_nil
  obtain ⟨hstatus, hnone, hsome⟩ := @selectOperation_rest blake3 state operations
  obtain ⟨hstatus', hnone', hsome'⟩ := @selectOperation_rest blake3 state operations'
  obtain ⟨h, hineligible⟩ | ⟨h, best, hmem, heligible, hselects, hbest⟩ :=
    @selectOperation_cases blake3 state operations <;>
  obtain ⟨h', hineligible'⟩ | ⟨h', best', hmem', heligible', hselects', hbest'⟩ :=
    @selectOperation_cases blake3 state operations'
  · rw [hstatus, hstatus', if_neg h, if_neg h', hnone h, hnone' h']
    simp only [hnil, hperm.countP_eq]
    exact ⟨trivial, trivial⟩
  · exact absurd heligible' (hineligible best' (hperm.mem_iff.2 hmem'))
  · exact absurd heligible (hineligible' best (hperm.mem_iff.1 hmem))
  · obtain ⟨hid, hreduction, hinformation, hcost, hkind⟩ := hselects.congr hselects'
      (le_antisymm (hbest best' (hperm.mem_iff.2 hmem') heligible')
        (hbest' best (hperm.mem_iff.1 hmem) heligible))
    obtain ⟨hstate, hok, heligibles, hrejected⟩ := hsome h
    obtain ⟨hstate', hok', heligibles', hrejected'⟩ := hsome' h'
    refine ⟨by rw [h, h'], ?_⟩
    simp only [Decision.withoutReceipt, hid, hreduction, hinformation, hcost, hkind, hstate, hok,
      heligibles, hrejected, hstate', hok', heligibles', hrejected', hperm.countP_eq]

theorem complete_of_terminal {operation : Operation} (h : Eligible state operation)
    (hkind : operationAnswer ≤ operation.kind) : (completion state).1 = completionComplete := by
  unfold Eligible operationEligible at h
  split_ifs at h
  simp_all

end Selection

/-! ## Evidence -/

/-- `laplace_cognition_evidence_observation` -/
structure Observation where
  observationId : Digest256
  propositionId : Digest256
  dependenceRootId : Digest256
  sourceId : Digest256
  contextFingerprint : Digest256
  evidenceEpoch : Digest256
  uncertaintyFingerprint : Digest256
  standingFingerprint : Digest256
  polarity : Int32
  flags : UInt32
deriving DecidableEq

/-- `laplace_cognition_evidence_fold_summary`; its flags stay zero and its status is that of the call. -/
structure FoldSummary where
  foldReceiptId : Digest256
  propositionId : Digest256
  contextFingerprint : Digest256
  evidenceEpoch : Digest256
  rootSetFingerprint : Digest256
  uncertaintyFingerprint : Digest256
  standingFingerprint : Digest256
  rawObservationCount : UInt64
  independentRootCount : UInt64
  positiveRootCount : UInt64
  negativeRootCount : UInt64
  contradictoryRootCount : UInt64
deriving DecidableEq

/-- `RootEvidence` -/
structure RootEvidence where
  positive : Bool := false
  negative : Bool := false
deriving DecidableEq

/-- `EvidenceObservationValid` -/
def observationValid (observation : Observation) : Bool :=
  observation.observationId ≠ 0 ∧ observation.propositionId ≠ 0 ∧ observation.dependenceRootId ≠ 0 ∧
    observation.sourceId ≠ 0 ∧ observation.contextFingerprint ≠ 0 ∧ observation.evidenceEpoch ≠ 0 ∧
    observation.uncertaintyFingerprint ≠ 0 ∧ observation.standingFingerprint ≠ 0 ∧
    (observation.polarity = 1 ∨ observation.polarity = -1) ∧ observation.flags = 0

/-- `ObservationLess` -/
def observationKey (observation : Observation) : ℕ := observation.observationId.toNat

/-- What all observations of a call have in common. -/
def subject (observation : Observation) : Digest256 × Digest256 × Digest256 :=
  (observation.propositionId, observation.contextFingerprint, observation.evidenceEpoch)

/-- The checks of the loop. -/
def checkObservations (expected : Digest256 × Digest256 × Digest256) :
    Option Digest256 → List Observation → Except GuidanceStatus Unit
  | _, [] => .ok ()
  | previous, observation :: observations =>
    if !observationValid observation ∨ subject observation ≠ expected then .error .stateInvalid
    else if previous = some observation.observationId then .error .duplicate
    else checkObservations expected (some observation.observationId) observations

def RootEvidence.add (evidence : RootEvidence) (observation : Observation) : RootEvidence :=
  ⟨evidence.positive || observation.polarity > 0, evidence.negative || observation.polarity < 0⟩

/-- `roots[Key(observation.dependence_root_id)]`, in the order of the keys. -/
def addRoot (observation : Observation) :
    List (Digest256 × RootEvidence) → List (Digest256 × RootEvidence)
  | [] => [(observation.dependenceRootId, RootEvidence.add {} observation)]
  | (rootId, evidence) :: roots =>
    if observation.dependenceRootId = rootId then (rootId, evidence.add observation) :: roots
    else if observation.dependenceRootId < rootId then
      (observation.dependenceRootId, RootEvidence.add {} observation) :: (rootId, evidence) :: roots
    else (rootId, evidence) :: addRoot observation roots

def foldDomain : List UInt8 := domainBytes "laplace-cognition-evidence-fold-v1"

def rootBytes (root : Digest256 × RootEvidence) : List UInt8 :=
  root.1.bytes ++ u32Bytes (if root.2.positive then 1 else 0) ++
    u32Bytes (if root.2.negative then 1 else 0)

/-- The summary of checked observations. -/
def summarize (blake3 : Blake3) (front : Observation) (ordered : List Observation) :
    FoldSummary :=
  let roots := ordered.foldl (fun roots observation => addRoot observation roots) []
  let summary : FoldSummary :=
    { foldReceiptId := 0
      propositionId := front.propositionId
      contextFingerprint := front.contextFingerprint
      evidenceEpoch := front.evidenceEpoch
      rootSetFingerprint := blake3 (foldDomain ++ front.propositionId.bytes ++ roots.flatMap rootBytes)
      uncertaintyFingerprint := blake3 (foldDomain ++ ordered.flatMap fun observation =>
        observation.observationId.bytes ++ observation.dependenceRootId.bytes ++
          observation.uncertaintyFingerprint.bytes)
      standingFingerprint := blake3 (foldDomain ++ ordered.flatMap fun observation =>
        observation.observationId.bytes ++ observation.dependenceRootId.bytes ++
          observation.standingFingerprint.bytes ++ u32Bytes observation.polarity.toUInt32)
      rawObservationCount := UInt64.ofNat ordered.length
      independentRootCount := UInt64.ofNat roots.length
      positiveRootCount := UInt64.ofNat (roots.countP (·.2.positive))
      negativeRootCount := UInt64.ofNat (roots.countP (·.2.negative))
      contradictoryRootCount :=
        UInt64.ofNat (roots.countP fun root => root.2.positive && root.2.negative) }
  { summary with
    foldReceiptId := blake3 (foldDomain ++ summary.propositionId.bytes ++
      summary.contextFingerprint.bytes ++ summary.evidenceEpoch.bytes ++
      summary.rootSetFingerprint.bytes ++ summary.uncertaintyFingerprint.bytes ++
      summary.standingFingerprint.bytes ++ u64Bytes summary.rawObservationCount ++
      u64Bytes summary.independentRootCount ++ u64Bytes summary.positiveRootCount ++
      u64Bytes summary.negativeRootCount ++ u64Bytes summary.contradictoryRootCount) }

/-- `laplace_cognition_evidence_fold`, where there is memory -/
def evidenceFold (blake3 : Blake3) (sort : Sorting observationKey)
    (observations : List Observation) : Except GuidanceStatus FoldSummary :=
  match sort.sort observations with
  | [] => .error .invalidArgument
  | front :: ordered => do
    checkObservations (subject front) none (front :: ordered)
    return summarize blake3 front (front :: ordered)

/-! ### The checks -/

section Checks

variable {expected : Digest256 × Digest256 × Digest256}

/-- What the loop accepts of one observation. -/
def Good (expected : Digest256 × Digest256 × Digest256) (observation : Observation) : Prop :=
  observationValid observation = true ∧ subject observation = expected

instance (observation : Observation) : Decidable (Good expected observation) :=
  inferInstanceAs (Decidable (_ ∧ _))

variable {observations : List Observation}

theorem checkObservations_cons {previous : Option Digest256} {observation : Observation} :
    checkObservations expected previous (observation :: observations) =
      if ¬Good expected observation then .error .stateInvalid
      else if previous = some observation.observationId then .error .duplicate
      else checkObservations expected (some observation.observationId) observations := by
  rw [checkObservations]
  refine if_congr ?_ rfl rfl
  simp [Good, imp_iff_not_or]

theorem observationKey_eq {left right : Observation} :
    observationKey left = observationKey right ↔ left.observationId = right.observationId :=
  BitVec.toNat_inj

theorem increasing_of_check : ∀ {previous : Option Digest256} {observations : List Observation},
    checkObservations expected previous observations = .ok () →
    (∀ id ∈ previous, ∀ observation ∈ observations.head?, observation.observationId ≠ id) ∧
      repeats observationKey observations = false := by
  intro previous observations
  induction observations generalizing previous with
  | nil => intro _; simp [repeats]
  | cons observation observations ih =>
    intro h
    rw [checkObservations_cons] at h
    split_ifs at h with hgood hprevious
    obtain ⟨hhead, hrepeats⟩ := ih h
    refine ⟨by rintro id hid _ ⟨⟩ rfl; exact hprevious hid, ?_⟩
    cases observations with
    | nil => rfl
    | cons second observations =>
      have := hhead _ rfl second rfl
      simp [repeats, hrepeats, observationKey_eq, this.symm]

theorem check_previous {previous : Option Digest256}
    (h : ∀ id ∈ previous, ∀ observation ∈ observations.head?, observation.observationId ≠ id) :
    checkObservations expected previous observations = checkObservations expected none observations := by
  cases observations with
  | nil => rfl
  | cons observation observations =>
    have hne : previous ≠ some observation.observationId := fun heq => h _ heq observation rfl rfl
    simp [checkObservations_cons, hne]

theorem check_pair {first second : Observation} (h : second.observationId = first.observationId) :
    checkObservations expected none (first :: second :: observations) =
      .error (if Good expected first ∧ Good expected second then .duplicate else .stateInvalid) := by
  rw [checkObservations_cons, checkObservations_cons]
  split_ifs <;> simp_all

def Sorted (observations : List Observation) : Prop :=
  observations.Pairwise fun a b => observationKey a ≤ observationKey b

/-- No id is there three times. -/
def AtMostTwice (observations : List Observation) : Prop :=
  ∀ key, observations.countP (observationKey · = key) ≤ 2

theorem pair_of_sorted {key : ℕ} (hsorted : Sorted observations)
    (hle : ∀ observation ∈ observations, key ≤ observationKey observation)
    (hcount : observations.countP (observationKey · = key) = 2) :
    ∃ first second rest, observations = first :: second :: rest ∧ observationKey first = key ∧
      observationKey second = key := by
  have hhead : ∀ {l : List Observation}, Sorted l → (∀ o ∈ l, key ≤ observationKey o) →
      l.countP (observationKey · = key) ≠ 0 → ∃ first rest, l = first :: rest ∧ observationKey first = key := by
    intro l hl hkey hne
    obtain ⟨o, ho, heq⟩ := List.countP_pos_iff.1 (Nat.pos_of_ne_zero hne)
    cases l with
    | nil => cases ho
    | cons first rest =>
      refine ⟨first, rest, rfl, le_antisymm ?_ (hkey first List.mem_cons_self)⟩
      rcases List.mem_cons.1 ho with rfl | ho
      · exact (of_decide_eq_true heq).le
      · exact (List.rel_of_pairwise_cons hl ho).trans (of_decide_eq_true heq).le
  obtain ⟨first, rest, rfl, hfirst⟩ := hhead hsorted hle (by omega)
  rw [List.countP_cons_of_pos (by simpa using hfirst)] at hcount
  obtain ⟨second, rest, rfl, hsecond⟩ := hhead (List.pairwise_cons.1 hsorted).2
    (fun o ho => hle o (List.mem_cons_of_mem _ ho)) (by omega)
  exact ⟨first, second, rest, rfl, hfirst, hsecond⟩

theorem pair_perm {l l' : List Observation} {key : ℕ} (hperm : l.Perm l')
    {first second first' second' : Observation} {rest rest' : List Observation}
    (hl : l = first :: second :: rest) (hl' : l' = first' :: second' :: rest')
    (hkeys : observationKey first = key ∧ observationKey second = key)
    (hkeys' : observationKey first' = key ∧ observationKey second' = key)
    (hcount : l.countP (observationKey · = key) ≤ 2) : [first, second].Perm [first', second'] := by
  have hpair : ∀ {a b : Observation} {t : List Observation}, observationKey a = key →
      observationKey b = key → (a :: b :: t).countP (observationKey · = key) ≤ 2 →
      (a :: b :: t).filter (observationKey · = key) = [a, b] := by
    intro a b t ha hb h
    rw [List.countP_cons_of_pos (by simpa using ha), List.countP_cons_of_pos (by simpa using hb)] at h
    have : t.filter (observationKey · = key) = [] := by
      rw [List.countP_eq_length_filter] at h
      exact List.length_eq_zero_iff.1 (by omega)
    simp [ha, hb, this]
  have := hperm.filter (observationKey · = key)
  rw [hl, hl', hpair hkeys.1 hkeys.2 (hl ▸ hcount),
    hpair hkeys'.1 hkeys'.2 (hl' ▸ (hperm.countP_eq _ ▸ hcount))] at this
  exact this

/-- **The first failure** of sorted lists with the same elements is the same, if no id is there three
times. -/
theorem check_perm : ∀ {l l' : List Observation}, l.Perm l' → Sorted l → Sorted l' → AtMostTwice l →
    checkObservations expected none l = checkObservations expected none l' := by
  intro l
  induction l with
  | nil => intro l' hperm _ _ _; rw [hperm.nil_eq.symm]
  | cons first rest ih =>
    intro l' hperm hsorted hsorted' htwice
    have hle : ∀ o ∈ first :: rest, observationKey first ≤ observationKey o := by
      simpa using fun o ho => List.rel_of_pairwise_cons hsorted ho
    have hle' : ∀ o ∈ l', observationKey first ≤ observationKey o := fun o ho =>
      hle o (hperm.mem_iff.2 ho)
    have hcount := htwice (observationKey first)
    by_cases hpair : (first :: rest).countP (observationKey · = observationKey first) = 2
    · -- the first id is there twice, and both lists begin with its two observations
      obtain ⟨_, second, rest', heq, -, hsecond⟩ := pair_of_sorted hsorted hle hpair
      cases heq
      obtain ⟨first', second', rest'', rfl, hfirst', hsecond'⟩ :=
        pair_of_sorted hsorted' hle' (hperm.countP_eq _ ▸ hpair)
      have hboth := pair_perm hperm rfl rfl ⟨rfl, hsecond⟩ ⟨hfirst', hsecond'⟩ hcount
      have hgood : Good expected first ∧ Good expected second ↔
          Good expected first' ∧ Good expected second' := by
        simpa [← Bool.decide_and] using (hboth.all_eq (f := fun o => decide (Good expected o)))
      rw [check_pair (observationKey_eq.1 hsecond),
        check_pair (observationKey_eq.1 (hsecond'.trans hfirst'.symm))]
      simp only [hgood]
    · -- it is there once, and both lists begin with its observation
      have hone : rest.countP (observationKey · = observationKey first) = 0 := by
        rw [List.countP_cons_of_pos (by simp)] at hpair hcount
        omega
      rw [List.countP_eq_zero] at hone
      obtain ⟨first', rest', rfl⟩ : ∃ first' rest', l' = first' :: rest' := by
        cases l' with
        | nil => exact absurd hperm.eq_nil (by simp)
        | cons first' rest' => exact ⟨first', rest', rfl⟩
      have hfirst : first' = first := by
        rcases List.mem_cons.1 (hperm.mem_iff.2 List.mem_cons_self) with h | h
        · exact h
        have hle := hle' first' List.mem_cons_self
        rcases List.mem_cons.1 (hperm.mem_iff.1 (List.mem_cons_self (a := first) (l := rest))) with h' | h'
        · exact h'.symm
        exact absurd (le_antisymm (List.rel_of_pairwise_cons hsorted' h') hle) (by simpa using hone first' h)
      subst hfirst
      have hrest := hperm.cons_inv
      have hfresh : ∀ {t : List Observation}, t.Perm rest → ∀ id ∈ some first'.observationId,
          ∀ o ∈ t.head?, o.observationId ≠ id := by
        rintro t ht id ⟨⟩ o ho heq
        exact absurd (observationKey_eq.2 heq)
          (by simpa using hone o (ht.mem_iff.1 (List.mem_of_mem_head? ho)))
      rw [checkObservations_cons, checkObservations_cons, check_previous (hfresh (.refl _)),
        check_previous (hfresh hrest.symm), ih hrest (List.pairwise_cons.1 hsorted).2
          (List.pairwise_cons.1 hsorted').2 fun key =>
            ((List.sublist_cons_self _ _).countP_le).trans (htwice key)]

end Checks

/-! ### The roots -/

section Roots

/-- What the observations of a root say. -/
def evidenceOf (observations : List Observation) (rootId : Digest256) : RootEvidence :=
  ⟨observations.any fun o => o.dependenceRootId = rootId && o.polarity > 0,
    observations.any fun o => o.dependenceRootId = rootId && o.polarity < 0⟩

def rootsOf (observations : List Observation) : List (Digest256 × RootEvidence) :=
  observations.foldl (fun roots observation => addRoot observation roots) []

theorem mem_addRoot {observation : Observation} : ∀ {roots : List (Digest256 × RootEvidence)},
    roots.Pairwise (fun a b => a.1.toNat < b.1.toNat) → ∀ root : Digest256 × RootEvidence,
    root ∈ addRoot observation roots ↔ root.1 ≠ observation.dependenceRootId ∧ root ∈ roots ∨
      root.1 = observation.dependenceRootId ∧
        ((∃ evidence, (root.1, evidence) ∈ roots ∧ root.2 = evidence.add observation) ∨
          (∀ evidence, (root.1, evidence) ∉ roots) ∧ root.2 = RootEvidence.add {} observation) := by
  intro roots
  induction roots with
  | nil => rintro - ⟨rootId, evidence⟩; simp [addRoot]
  | cons first roots ih =>
    rintro hsorted ⟨rootId, evidence⟩
    obtain ⟨key, found⟩ := first
    obtain ⟨hfirst, hrest⟩ := List.pairwise_cons.1 hsorted
    have hlater : ∀ evidence, (key, evidence) ∉ roots := fun evidence hmem =>
      lt_irrefl key.toNat (hfirst _ hmem)
    rw [addRoot]
    split_ifs with heq hlt
    · subst heq
      by_cases h : rootId = observation.dependenceRootId
      · subst h
        simp [hlater]
      · simp [h]
    · have hnone : ∀ evidence, (observation.dependenceRootId, evidence) ∉ (key, found) :: roots := by
        intro evidence hmem
        rcases List.mem_cons.1 hmem with h | h
        · exact heq (congrArg Prod.fst h)
        · exact lt_irrefl _ ((BitVec.lt_def.1 hlt).trans (hfirst _ h))
      by_cases h : rootId = observation.dependenceRootId
      · subst h
        simp [hnone]
      · simp [h]
    · rw [List.mem_cons, ih hrest]
      by_cases h : rootId = observation.dependenceRootId
      · subst h
        simp [Ne.symm (Ne.symm heq)]
      · simp [h]

theorem addRoot_sorted {observation : Observation} : ∀ {roots : List (Digest256 × RootEvidence)},
    roots.Pairwise (fun a b => a.1.toNat < b.1.toNat) →
    (addRoot observation roots).Pairwise fun a b => a.1.toNat < b.1.toNat := by
  intro roots
  induction roots with
  | nil => intro _; simp [addRoot]
  | cons first roots ih =>
    intro hsorted
    obtain ⟨hfirst, hrest⟩ := List.pairwise_cons.1 hsorted
    rw [addRoot]
    split_ifs with heq hlt
    · exact List.pairwise_cons.2 ⟨hfirst, hrest⟩
    · refine List.pairwise_cons.2 ⟨fun root hroot => ?_, hsorted⟩
      rcases List.mem_cons.1 hroot with rfl | hroot
      · exact BitVec.lt_def.1 hlt
      · exact (BitVec.lt_def.1 hlt).trans (hfirst root hroot)
    · refine List.pairwise_cons.2 ⟨fun root hroot => ?_, ih hrest⟩
      rcases (mem_addRoot hrest root).1 hroot with ⟨-, hroot⟩ | ⟨hkey, -⟩
      · exact hfirst root hroot
      · rw [hkey]
        exact lt_of_le_of_ne (not_lt.1 (BitVec.lt_def.not.1 hlt)) fun h => heq (BitVec.eq_of_toNat_eq h.symm)

/-- **The roots** are those of the observations, each once, with all that is said of it. -/
theorem rootsOf_spec (observations : List Observation) :
    (rootsOf observations).Pairwise (fun a b => a.1.toNat < b.1.toNat) ∧ ∀ root : Digest256 × RootEvidence,
      root ∈ rootsOf observations ↔
        (∃ o ∈ observations, o.dependenceRootId = root.1) ∧ root.2 = evidenceOf observations root.1 := by
  induction observations using List.reverseRecOn with
  | nil => simp [rootsOf]
  | append_singleton observations observation ih =>
    obtain ⟨hsorted, hmem⟩ := ih
    have hstep : rootsOf (observations ++ [observation]) = addRoot observation (rootsOf observations) := by
      simp [rootsOf]
    rw [hstep]
    refine ⟨addRoot_sorted hsorted, fun ⟨rootId, evidence⟩ => ?_⟩
    rw [mem_addRoot hsorted]
    by_cases h : rootId = observation.dependenceRootId
    · subst h
      by_cases hany : ∃ o ∈ observations, o.dependenceRootId = observation.dependenceRootId
      · have hkept : ∃ found, (observation.dependenceRootId, found) ∈ rootsOf observations :=
          ⟨evidenceOf observations observation.dependenceRootId, (hmem _).2 ⟨hany, rfl⟩⟩
        have hnone : ¬∀ found, (observation.dependenceRootId, found) ∉ rootsOf observations :=
          not_forall_not.2 hkept
        simp only [ne_eq, not_true, false_and, false_or, true_and, hnone, or_false]
        simp only [hmem, hany, true_and, exists_eq_left]
        simp [evidenceOf, RootEvidence.add]
      · have hnone : ∀ o ∈ observations, o.dependenceRootId ≠ observation.dependenceRootId :=
          fun o ho heq => hany ⟨o, ho, heq⟩
        have hall : ∀ p : Observation → Bool, (observations.any fun o =>
            o.dependenceRootId = observation.dependenceRootId && p o) = false := by
          intro p
          simp only [List.any_eq_false, Bool.and_eq_true, decide_eq_true_eq, not_and]
          exact fun o ho heq => absurd heq (hnone o ho)
        simp [hmem, hany, evidenceOf, RootEvidence.add, hall]
    · have hne : observation.dependenceRootId ≠ rootId := Ne.symm h
      simp [h, hmem, evidenceOf, hne]

/-- The roots of the observations with a property. -/
def rootsWith (p : Observation → Bool) (observations : List Observation) : Finset Digest256 :=
  ((observations.filter p).map (·.dependenceRootId)).toFinset

theorem rootsWith_perm {p : Observation → Bool} {l l' : List Observation} (h : l.Perm l') :
    rootsWith p l = rootsWith p l' :=
  List.toFinset_eq_of_perm _ _ ((h.filter p).map _)

theorem countP_rootsOf {q : RootEvidence → Bool} {observations : List Observation}
    {roots : Finset Digest256} (h : ∀ rootId, rootId ∈ roots ↔
      (∃ o ∈ observations, o.dependenceRootId = rootId) ∧ q (evidenceOf observations rootId) = true) :
    (rootsOf observations).countP (fun root => q root.2) = roots.card := by
  obtain ⟨hsorted, hmem⟩ := rootsOf_spec observations
  have hnodup : (((rootsOf observations).filter fun root => q root.2).map Prod.fst).Nodup :=
    List.pairwise_map.2 ((hsorted.filter _).imp fun hlt heq =>
      absurd (congrArg BitVec.toNat heq) (ne_of_lt hlt))
  rw [List.countP_eq_length_filter, ← List.length_map Prod.fst, ← List.toFinset_card_of_nodup hnodup]
  congr 1
  ext rootId
  simp only [List.mem_toFinset, List.mem_map, List.mem_filter, Prod.exists, exists_and_right,
    exists_eq_right, hmem, h]
  constructor
  · rintro ⟨evidence, ⟨hroot, rfl⟩, hq⟩
    exact ⟨hroot, hq⟩
  · rintro ⟨hroot, hq⟩
    exact ⟨_, ⟨hroot, rfl⟩, hq⟩

end Roots

/-! ### The fold -/

section Fold

variable {blake3 : Blake3} {sort sort' : Sorting observationKey}
  {observations observations' : List Observation} {summary : FoldSummary}

theorem evidenceFold_ok (h : evidenceFold blake3 sort observations = .ok summary) :
    ∃ front, (observations.map observationKey).Nodup ∧
      summary = summarize blake3 front (sort.sort observations) := by
  unfold evidenceFold at h
  split at h
  · cases h
  · rename_i front ordered heq
    cases hcheck : checkObservations (subject front) none (front :: ordered) with
    | error status => simp [hcheck, bind, Except.bind] at h
    | ok done =>
      simp only [hcheck, bind, Except.bind, pure, Except.pure, Except.ok.injEq] at h
      refine ⟨front, ?_, by rw [heq, h]⟩
      rw [← Sorting.repeats_eq_false_iff sort, heq]
      exact (increasing_of_check hcheck).2

theorem evidenceFold_nodup (hperm : observations.Perm observations')
    (hnodup : (observations.map observationKey).Nodup) :
    evidenceFold blake3 sort observations = evidenceFold blake3 sort' observations' := by
  rw [evidenceFold, evidenceFold, Sorting.sort_congr sort sort' hperm hnodup]

theorem evidenceFold_error {front : Observation} {ordered : List Observation}
    (hsort : sort.sort observations = front :: ordered)
    (hnodup : ¬(observations.map observationKey).Nodup) :
    ∃ status, checkObservations (subject front) none (front :: ordered) = .error status ∧
      evidenceFold blake3 sort observations = .error status := by
  cases hcheck : checkObservations (subject front) none (front :: ordered) with
  | error status => exact ⟨status, rfl, by simp [evidenceFold, hsort, hcheck, bind, Except.bind]⟩
  | ok done =>
    rw [← Sorting.repeats_eq_false_iff sort, hsort] at hnodup
    exact absurd (increasing_of_check hcheck).2 hnodup

theorem check_subjects {first first' : Observation} {rest rest' : List Observation}
    (hperm : (first :: rest).Perm (first' :: rest')) (hsorted : Sorted (first :: rest))
    (hsorted' : Sorted (first' :: rest')) (htwice : AtMostTwice (first :: rest))
    (hne : subject first ≠ subject first') :
    checkObservations (subject first) none (first :: rest) = .error .stateInvalid := by
  have hle : ∀ o ∈ first :: rest, observationKey first ≤ observationKey o := by
    simpa using fun o ho => List.rel_of_pairwise_cons hsorted ho
  have hle' : ∀ o ∈ first' :: rest', observationKey first' ≤ observationKey o := by
    simpa using fun o ho => List.rel_of_pairwise_cons hsorted' ho
  have hkey : observationKey first' = observationKey first :=
    le_antisymm (hle' _ (hperm.mem_iff.1 List.mem_cons_self)) (hle _ (hperm.mem_iff.2 List.mem_cons_self))
  have hfirst' : first' ∈ rest := by
    rcases List.mem_cons.1 (hperm.mem_iff.2 (List.mem_cons_self (a := first'))) with h | h
    · exact absurd (h ▸ rfl) hne
    · exact h
  have hpair : (first :: rest).countP (observationKey · = observationKey first) = 2 := by
    have hpos : 0 < rest.countP (observationKey · = observationKey first) :=
      List.countP_pos_iff.2 ⟨first', hfirst', by simpa using hkey⟩
    have := htwice (observationKey first)
    rw [List.countP_cons_of_pos (by simp)] at this ⊢
    omega
  obtain ⟨_, second, tail, heq, -, hsecond⟩ := pair_of_sorted hsorted hle hpair
  cases heq
  have htail : tail.countP (observationKey · = observationKey first) = 0 := by
    rw [List.countP_cons_of_pos (by simp), List.countP_cons_of_pos (by simpa using hsecond)] at hpair
    omega
  have hsame : first' = second := by
    rcases List.mem_cons.1 hfirst' with h | h
    · exact h
    · exact absurd hkey (by simpa using List.countP_eq_zero.1 htail first' h)
  rw [check_pair (observationKey_eq.1 hsecond), if_neg]
  rintro ⟨-, -, hsubject⟩
  exact hne (hsame ▸ hsubject.symm)

/-- **The order of the observations** does not matter, if no id is there three times. -/
theorem evidenceFold_perm (hperm : observations.Perm observations') (htwice : AtMostTwice observations) :
    evidenceFold blake3 sort observations = evidenceFold blake3 sort' observations' := by
  by_cases hnodup : (observations.map observationKey).Nodup
  · exact evidenceFold_nodup hperm hnodup
  have hnodup' := fun h => hnodup ((hperm.map observationKey).nodup_iff.2 h)
  have hordered : (sort.sort observations).Perm (sort'.sort observations') :=
    ((sort.perm _).trans hperm).trans (sort'.perm _).symm
  have hsorted := sort.sorted observations
  have hsorted' := sort'.sorted observations'
  have htwice : AtMostTwice (sort.sort observations) := fun key =>
    ((sort.perm observations).countP_eq _).trans_le (htwice key)
  have htwice' : AtMostTwice (sort'.sort observations') := fun key =>
    (hordered.countP_eq _).symm.trans_le (htwice key)
  cases hsort : sort.sort observations with
  | nil =>
    rw [hsort] at hordered
    simp [evidenceFold, hsort, hordered.nil_eq.symm]
  | cons first rest =>
    cases hsort' : sort'.sort observations' with
    | nil =>
      rw [hsort, hsort'] at hordered
      exact absurd hordered.eq_nil (by simp)
    | cons first' rest' =>
      obtain ⟨status, hcheck, hfold⟩ := @evidenceFold_error blake3 sort _ first rest hsort hnodup
      obtain ⟨status', hcheck', hfold'⟩ := @evidenceFold_error blake3 sort' _ first' rest' hsort' hnodup'
      rw [hsort] at hordered hsorted htwice
      rw [hsort'] at hordered hsorted' htwice'
      rw [hfold, hfold']
      by_cases hsubject : subject first = subject first'
      · rw [check_perm hordered hsorted hsorted' htwice, hsubject, hcheck', Except.error.injEq] at hcheck
        rw [hcheck]
      · rw [check_subjects hordered hsorted hsorted' htwice hsubject] at hcheck
        rw [check_subjects hordered.symm hsorted' hsorted htwice' (Ne.symm hsubject)] at hcheck'
        cases hcheck
        cases hcheck'
        rfl

/-- What a summary counts. -/
structure FoldSummary.Counts (summary : FoldSummary) (observations : List Observation) : Prop where
  raw : summary.rawObservationCount = UInt64.ofNat observations.length
  independent : summary.independentRootCount =
    UInt64.ofNat (rootsWith (fun _ => true) observations).card
  positive : summary.positiveRootCount = UInt64.ofNat (rootsWith (·.polarity > 0) observations).card
  negative : summary.negativeRootCount = UInt64.ofNat (rootsWith (·.polarity < 0) observations).card
  contradictory : summary.contradictoryRootCount = UInt64.ofNat
    (rootsWith (·.polarity > 0) observations ∩ rootsWith (·.polarity < 0) observations).card

theorem evidenceFold_counts (h : evidenceFold blake3 sort observations = .ok summary) :
    summary.Counts observations := by
  obtain ⟨front, -, rfl⟩ := evidenceFold_ok h
  have hperm := sort.perm observations
  have hcount := fun q roots => @countP_rootsOf q (sort.sort observations) roots
  refine ⟨by simp [summarize, hperm.length_eq], ?_, ?_, ?_, ?_⟩
  · rw [← rootsWith_perm hperm, ← hcount (fun _ => true) _ (by simp [rootsWith])]
    simp [summarize, rootsOf]
  · rw [← rootsWith_perm hperm, ← hcount (·.positive) _ (by intro rootId; simp [rootsWith, evidenceOf]; grind)]
    rfl
  · rw [← rootsWith_perm hperm, ← hcount (·.negative) _ (by intro rootId; simp [rootsWith, evidenceOf]; grind)]
    rfl
  · rw [← rootsWith_perm hperm, ← rootsWith_perm hperm,
      ← hcount (fun evidence => evidence.positive && evidence.negative) _
        (by intro rootId; simp [rootsWith, evidenceOf]; grind)]
    rfl

end Fold

/-! ## The results -/

/-- **Selection.** The operation order is a strict order, total where ids differ; the selected operation
is the best eligible one, whatever the order of the candidates, there is none exactly when none is
eligible, and a terminal act is selected in a complete state only. The fold of evidence counts every
root once, and its order matters for the failing status only, where an id is there three times. -/
theorem guidance_selection (blake3 : Blake3) (state : GuidanceState)
    (operations : List Operation) (sort sort' : Sorting observationKey) (observations : List Observation) :
    ((∀ a, operationBetter a a = false) ∧
      (∀ a b c, operationBetter a b = true → operationBetter b c = true → operationBetter a c = true) ∧
      ∀ a b, a.operationId ≠ b.operationId → operationBetter a b = true ∨ operationBetter b a = true) ∧
    (let result := selectOperation blake3 state operations;
      (result.1 ≠ .ok ∧ ∀ operation ∈ operations, ¬Eligible state operation) ∨
      (result.1 = .ok ∧ ∃ best ∈ operations, Eligible state best ∧ Selects result.2 best ∧
        (∀ other ∈ operations, Eligible state other → other.operationId ≠ best.operationId →
          operationBetter best other = true) ∧
        (operationAnswer ≤ result.2.selectedKind → (completion state).1 = completionComplete))) ∧
    (∀ operations', operations.Perm operations' →
      (selectOperation blake3 state operations).1 = (selectOperation blake3 state operations').1 ∧
      (selectOperation blake3 state operations).2.withoutReceipt =
        (selectOperation blake3 state operations').2.withoutReceipt) ∧
    (∀ observations', observations.Perm observations' →
      (∀ summary, evidenceFold blake3 sort observations = .ok summary ↔
        evidenceFold blake3 sort' observations' = .ok summary) ∧
      (AtMostTwice observations →
        evidenceFold blake3 sort observations = evidenceFold blake3 sort' observations')) ∧
    ∀ summary, evidenceFold blake3 sort observations = .ok summary → summary.Counts observations := by
  refine ⟨⟨fun a => ?_, fun a b c => ?_, fun a b hne => ?_⟩, ?_, fun _ => selectOperation_perm,
    fun observations' hperm => ⟨fun summary => ⟨fun h => ?_, fun h => ?_⟩, evidenceFold_perm hperm⟩,
    fun _ => evidenceFold_counts⟩
  · simp [Bool.eq_false_iff, operationBetter_iff]
  · simpa only [operationBetter_iff] using lt_trans
  · simp only [operationBetter_iff]
    exact lt_or_gt_of_ne fun h => hne (operationRank_inj h).2.2.2.2
  · refine selectOperation_cases.imp_right ?_
    rintro ⟨hok, best, hmem, heligible, hselects, hbest⟩
    refine ⟨hok, best, hmem, heligible, hselects, fun other hother h hne => ?_, fun hkind =>
      complete_of_terminal heligible (hselects.kind ▸ hkind)⟩
    exact operationBetter_iff.2 (lt_of_le_of_ne (hbest other hother h) fun heq =>
      hne (operationRank_inj heq).2.2.2.2.symm)
  · obtain ⟨-, hnodup, -⟩ := evidenceFold_ok h
    exact (evidenceFold_nodup hperm hnodup).symm.trans h
  · obtain ⟨-, hnodup, -⟩ := evidenceFold_ok h
    exact (evidenceFold_nodup hperm.symm hnodup).symm.trans h

/-- An observation of one root, with its flags. -/
def observationWith (sourceId : Digest256) (flags : UInt32) : Observation :=
  ⟨1, 1, 1, sourceId, 1, 1, 1, 1, 1, flags⟩

/-- Three observations with one id, one of them invalid: which failure is reported is up to their
order. -/
theorem evidenceFold_threefold : evidenceFold (fun _ => 0) (.insertion _)
        [observationWith 1 0, observationWith 2 0, observationWith 3 1] = .error .duplicate ∧
      evidenceFold (fun _ => 0) (.insertion _)
        [observationWith 1 0, observationWith 3 1, observationWith 2 0] = .error .stateInvalid := by
  decide +kernel

end Laplace.Cognition
