import Laplace.Geometry.Accumulator
import Mathlib.Algebra.BigOperators.Group.Multiset.Basic

/-!
# What an accumulator holds, whatever the order it was filled in

A plan is a tree of `init`, `add` and `merge`. An operation that is refused leaves the accumulator
as it was, so the accumulator of a plan is the exact sum of the terms that were accepted.
-/

namespace Laplace.Geometry

abbrev Term := Point4d × UInt64

def UnitPoint (point : Point4d) : Prop := ∀ component, UnitRange (point component)

/-- The number of points, each as often as its multiplicity says. -/
def total (terms : Multiset Term) : ℕ := (terms.map fun term => term.2.toNat).sum

/-- The exact sum of one component, in units of `2 ^ -1074`. -/
def exactSum (terms : Multiset Term) (component : Fin 4) : ℤ :=
  (terms.map fun term => termUnits (term.1 component) term.2).sum

@[simp] theorem total_zero : total 0 = 0 := rfl

@[simp] theorem total_cons (term : Term) (terms : Multiset Term) :
    total (term ::ₘ terms) = term.2.toNat + total terms := by
  simp [total]

@[simp] theorem total_add (left right : Multiset Term) :
    total (left + right) = total left + total right := by
  simp [total]

@[simp] theorem exactSum_zero (component : Fin 4) : exactSum 0 component = 0 := rfl

@[simp] theorem exactSum_cons (term : Term) (terms : Multiset Term) (component : Fin 4) :
    exactSum (term ::ₘ terms) component =
      termUnits (term.1 component) term.2 + exactSum terms component := by
  simp [exactSum]

@[simp] theorem exactSum_add (left right : Multiset Term) (component : Fin 4) :
    exactSum (left + right) component = exactSum left component + exactSum right component := by
  simp [exactSum]

theorem natAbs_exactSum_le {terms : Multiset Term} (component : Fin 4)
    (h : ∀ term ∈ terms, UnitPoint term.1) :
    (exactSum terms component).natAbs ≤ total terms * 2 ^ 1074 := by
  induction terms using Multiset.induction_on with
  | empty => exact Nat.zero_le _
  | cons term terms ih =>
    have hterm := @natAbs_termUnits_le _ term.2
      (h term (Multiset.mem_cons_self _ _) component)
    have hrest := ih fun t ht => h t (Multiset.mem_cons_of_mem ht)
    rw [exactSum_cons, total_cons, Nat.add_mul]
    exact (Int.natAbs_add_le _ _).trans (Nat.add_le_add hterm hrest)

/-- **Thirty-six limbs are enough** for as many points as a 64-bit count can count. -/
theorem natAbs_exactSum_lt {terms : Multiset Term} (component : Fin 4)
    (h : ∀ term ∈ terms, UnitPoint term.1) (hcount : total terms < 2 ^ 64) :
    (exactSum terms component).natAbs < bigLimit :=
  calc (exactSum terms component).natAbs
      ≤ total terms * 2 ^ 1074 := natAbs_exactSum_le component h
    _ < 2 ^ 64 * 2 ^ 1074 := Nat.mul_lt_mul_of_pos_right hcount (by positivity)
    _ = 2 ^ (64 + 1074) := by rw [pow_add]
    _ ≤ bigLimit := pow_le_bigLimit (by decide)

/-- The accumulator holds the exact sums of the terms. -/
structure Accumulator.Represents (accumulator : Accumulator) (terms : Multiset Term) : Prop where
  count : accumulator.logicalCount.toNat = total terms
  sum : ∀ component, (accumulator.sum component).Represents (exactSum terms component)
  unit : ∀ term ∈ terms, UnitPoint term.1

theorem Accumulator.Represents.eq_of_sums {left right : Accumulator} {terms others : Multiset Term}
    (hl : left.Represents terms) (hr : right.Represents others) (htotal : total terms = total others)
    (hsums : ∀ component, exactSum terms component = exactSum others component) : left = right := by
  obtain ⟨lsum, lcount⟩ := left
  obtain ⟨rsum, rcount⟩ := right
  have hsum : lsum = rsum := funext fun component =>
    (hl.sum component).unique (hsums component ▸ hr.sum component)
  have hcount : lcount = rcount :=
    UInt64.toNat_inj.1 (hl.count.trans (htotal.trans hr.count.symm))
  rw [hsum, hcount]

theorem Accumulator.Represents.unique {left right : Accumulator} {terms : Multiset Term}
    (hl : left.Represents terms) (hr : right.Represents terms) : left = right :=
  hl.eq_of_sums hr rfl fun _ => rfl

theorem represents_init : accumulatorInit.Represents 0 :=
  ⟨rfl, fun _ => ⟨rfl, Biguint.value_zero⟩, by simp⟩

theorem Accumulator.Represents.cons_zero {accumulator : Accumulator} {terms : Multiset Term}
    (h : accumulator.Represents terms) {point : Point4d} (hpoint : UnitPoint point) :
    accumulator.Represents ((point, 0) ::ₘ terms) := by
  refine ⟨by simpa using h.count, fun component => ?_, fun term ht => ?_⟩
  · rw [exactSum_cons, termUnits, UInt64.toNat_zero, Nat.cast_zero, zero_mul, zero_add]
    exact h.sum component
  · rcases Multiset.mem_cons.1 ht with rfl | ht
    · exact hpoint
    · exact h.unit term ht

theorem count_overflow_iff (count multiplicity : UInt64) :
    (18446744073709551615 : UInt64) - count < multiplicity ↔ 2 ^ 64 ≤ count.toNat + multiplicity.toNat := by
  have hlt := count.toNat_lt
  have hle : count ≤ 18446744073709551615 := by
    rw [UInt64.le_iff_toNat_le]
    simp only [UInt64.toNat_ofNat]
    omega
  rw [UInt64.lt_iff_toNat_lt, UInt64.toNat_sub_of_le _ _ hle]
  simp only [UInt64.toNat_ofNat]
  omega

/-! ## One operation -/

/-- What `laplace_geometry_accumulator_add` does to an accumulator of `terms`. -/
inductive AddResult (accumulator : Accumulator) (terms : Multiset Term) (point : Point4d)
    (multiplicity : UInt64) : Status × Accumulator → Prop
  | zero (h : multiplicity = 0) :
    AddResult accumulator terms point multiplicity (.zeroMultiplicity, accumulator)
  | count (h : multiplicity ≠ 0) (hcount : 2 ^ 64 ≤ multiplicity.toNat + total terms) :
    AddResult accumulator terms point multiplicity (.countOverflow, accumulator)
  | range (h : multiplicity ≠ 0) (hcount : multiplicity.toNat + total terms < 2 ^ 64)
    (hpoint : ¬ UnitPoint point) :
    AddResult accumulator terms point multiplicity (.coordinateOutOfRange, accumulator)
  | added (h : multiplicity ≠ 0) (hcount : multiplicity.toNat + total terms < 2 ^ 64)
    (hpoint : UnitPoint point) (next : Accumulator)
    (hnext : next.Represents ((point, multiplicity) ::ₘ terms)) :
    AddResult accumulator terms point multiplicity (.ok, next)

theorem accumulatorAdd_result {accumulator : Accumulator} {terms : Multiset Term}
    (h : accumulator.Represents terms) (point : Point4d) (multiplicity : UInt64) :
    AddResult accumulator terms point multiplicity (accumulatorAdd accumulator point multiplicity) := by
  unfold accumulatorAdd
  by_cases hzero : multiplicity = 0
  · rw [if_pos hzero]
    exact .zero hzero
  rw [if_neg hzero]
  have hiff := count_overflow_iff accumulator.logicalCount multiplicity
  rw [h.count] at hiff
  by_cases hover : (18446744073709551615 : UInt64) - accumulator.logicalCount < multiplicity
  · rw [if_pos hover]
    exact .count hzero (by have := hiff.1 hover; omega)
  have hcount : multiplicity.toNat + total terms < 2 ^ 64 := by
    have := mt hiff.2 hover
    omega
  rw [if_neg hover]
  by_cases hpoint : UnitPoint point
  · choose magnitude hmag hterm using
      fun component => checkedTerm_accepts (h.sum component) (hpoint component) hzero
    have hunit : ∀ term ∈ (point, multiplicity) ::ₘ terms, UnitPoint term.1 := by
      intro term ht
      rcases Multiset.mem_cons.1 ht with rfl | ht
      · exact hpoint
      · exact h.unit term ht
    have hfit : ∀ component, (exactSum terms component +
        termUnits (point component) multiplicity).natAbs < bigLimit := by
      intro component
      have := natAbs_exactSum_lt component hunit (by simpa using hcount)
      rwa [exactSum_cons, add_comm] at this
    choose next hnext hadd using
      fun component => addTerm_represents (h.sum component) (hmag component) (hfit component)
    simp only [eachComponent_ok hterm, eachComponent_ok hadd, bind, Except.bind]
    refine .added hzero hcount hpoint _ ⟨?_, fun component => ?_, hunit⟩
    · have hsmall : accumulator.logicalCount.toNat + multiplicity.toNat < 2 ^ 64 := by
        rw [h.count]
        omega
      rw [total_cons, ← h.count, Nat.add_comm]
      exact (UInt64.toNat_add _ _).trans (Nat.mod_eq_of_lt hsmall)
    · rw [exactSum_cons, Int.add_comm]
      exact hnext component
  · rcases eachComponent_cases fun component =>
      checkedTerm (accumulator.sum component) (point component) multiplicity with hok | herror
    · refine absurd (fun component => ?_) hpoint
      by_contra hrange
      obtain ⟨term, hterm⟩ := hok component
      rw [checkedTerm_refuses hrange] at hterm
      cases hterm
    · obtain ⟨component, status, hbody, heach⟩ := herror
      have hstatus : status = .coordinateOutOfRange := by
        by_cases hrange : UnitRange (point component)
        · obtain ⟨magnitude, -, hterm⟩ := checkedTerm_accepts (h.sum component) hrange hzero
          rw [hterm] at hbody
          cases hbody
        · rw [checkedTerm_refuses hrange] at hbody
          cases hbody
          rfl
      rw [heach, hstatus]
      exact .range hzero hcount hpoint

/-- What `laplace_geometry_accumulator_merge` does. -/
inductive MergeResult (accumulator : Accumulator) (terms others : Multiset Term) :
    Status × Accumulator → Prop
  | count (hcount : 2 ^ 64 ≤ total (terms + others)) :
    MergeResult accumulator terms others (.countOverflow, accumulator)
  | merged (hcount : total (terms + others) < 2 ^ 64) (next : Accumulator)
    (hnext : next.Represents (terms + others)) :
    MergeResult accumulator terms others (.ok, next)

theorem accumulatorMerge_result {accumulator source : Accumulator} {terms others : Multiset Term}
    (h : accumulator.Represents terms) (hs : source.Represents others) :
    MergeResult accumulator terms others (accumulatorMerge accumulator source) := by
  unfold accumulatorMerge
  have hiff := count_overflow_iff accumulator.logicalCount source.logicalCount
  rw [h.count, hs.count, ← total_add] at hiff
  by_cases hover : (18446744073709551615 : UInt64) - accumulator.logicalCount < source.logicalCount
  · rw [if_pos hover]
    exact .count (hiff.1 hover)
  have hcount : total (terms + others) < 2 ^ 64 := Nat.lt_of_not_le (mt hiff.2 hover)
  have hunit : ∀ term ∈ terms + others, UnitPoint term.1 := by
    intro term ht
    rcases Multiset.mem_add.1 ht with ht | ht
    · exact h.unit term ht
    · exact hs.unit term ht
  have hfit : ∀ component, (exactSum terms component + exactSum others component).natAbs <
      bigLimit := by
    intro component
    rw [← exactSum_add]
    exact natAbs_exactSum_lt component hunit hcount
  choose next hnext hmerge using
    fun component => mergeComponent_represents (h.sum component) (hs.sum component) (hfit component)
  rw [if_neg hover]
  simp only [eachComponent_ok hmerge, bind, Except.bind]
  refine .merged hcount _ ⟨?_, fun component => ?_, hunit⟩
  · rw [total_add] at hcount
    have hsmall : accumulator.logicalCount.toNat + source.logicalCount.toNat < 2 ^ 64 := by
      rw [h.count, hs.count]
      exact hcount
    rw [total_add, ← h.count, ← hs.count]
    exact (UInt64.toNat_add _ _).trans (Nat.mod_eq_of_lt hsmall)
  · rw [exactSum_add]
    exact hnext component

/-! ## Plans -/

inductive Plan
  | init
  | add (plan : Plan) (point : Point4d) (multiplicity : UInt64)
  | merge (plan source : Plan)

-- Projections under names of their own: with `.1` and `.2` the kernel would rather run the operation
-- than compare the arguments.
def answer (result : Status × Accumulator) : Status := result.1

def after (result : Status × Accumulator) : Accumulator := result.2

@[simp] theorem answer_mk (status : Status) (next : Accumulator) : answer (status, next) = status :=
  rfl

@[simp] theorem after_mk (status : Status) (next : Accumulator) : after (status, next) = next :=
  rfl

namespace Plan

def accumulator : Plan → Accumulator
  | init => accumulatorInit
  | add plan point multiplicity => after (accumulatorAdd plan.accumulator point multiplicity)
  | merge plan source => after (accumulatorMerge plan.accumulator source.accumulator)

/-- What the operations answered. -/
def statuses : Plan → List Status
  | init => []
  | add plan point multiplicity =>
    answer (accumulatorAdd plan.accumulator point multiplicity) :: plan.statuses
  | merge plan source =>
    answer (accumulatorMerge plan.accumulator source.accumulator) :: (plan.statuses ++ source.statuses)

/-- The terms the plan is over. -/
def terms : Plan → Multiset Term
  | init => 0
  | add plan point multiplicity => (point, multiplicity) ::ₘ plan.terms
  | merge plan source => plan.terms + source.terms

/-- The terms of the operations that answered `ok`. -/
def accepted : Plan → Multiset Term
  | init => 0
  | add plan point multiplicity =>
    if answer (accumulatorAdd plan.accumulator point multiplicity) = .ok then
      (point, multiplicity) ::ₘ plan.accepted
    else plan.accepted
  | merge plan source =>
    if answer (accumulatorMerge plan.accumulator source.accumulator) = .ok then
      plan.accepted + source.accepted
    else plan.accepted

theorem represents_accepted : ∀ plan : Plan, plan.accumulator.Represents plan.accepted
  | init => represents_init
  | add plan point multiplicity => by
    have ih := represents_accepted plan
    have hstep := accumulatorAdd_result ih point multiplicity
    rw [accumulator, accepted]
    generalize accumulatorAdd plan.accumulator point multiplicity = result at hstep ⊢
    cases hstep with
    | zero h => simpa using ih
    | count h hcount => simpa using ih
    | range h hcount hpoint => simpa using ih
    | added h hcount hpoint next hnext => simpa using hnext
  | merge plan source => by
    have ih := represents_accepted plan
    have hstep := accumulatorMerge_result ih (represents_accepted source)
    rw [accumulator, accepted]
    generalize accumulatorMerge plan.accumulator source.accumulator = result at hstep ⊢
    cases hstep with
    | count hcount => simpa using ih
    | merged hcount next hnext => simpa using hnext

theorem accumulatorOverflow_unreachable : ∀ plan : Plan, .accumulatorOverflow ∉ plan.statuses
  | init => by simp [statuses]
  | add plan point multiplicity => by
    have hstep := accumulatorAdd_result plan.represents_accepted point multiplicity
    have ih := accumulatorOverflow_unreachable plan
    rw [statuses]
    generalize accumulatorAdd plan.accumulator point multiplicity = result at hstep
    cases hstep <;> simpa using ih
  | merge plan source => by
    have hstep := accumulatorMerge_result plan.represents_accepted source.represents_accepted
    have ih := accumulatorOverflow_unreachable plan
    have ihs := accumulatorOverflow_unreachable source
    rw [statuses]
    generalize accumulatorMerge plan.accumulator source.accumulator = result at hstep
    cases hstep <;> simpa using ⟨ih, ihs⟩

theorem represents_terms : ∀ plan : Plan, (∀ term ∈ plan.terms, UnitPoint term.1) →
    total plan.terms < 2 ^ 64 → plan.accumulator.Represents plan.terms ∧
      ∀ status ∈ plan.statuses, status = .ok ∨ status = .zeroMultiplicity ∧ ∃ term ∈ plan.terms, term.2 = 0
  | init, _, _ => ⟨represents_init, by simp [statuses]⟩
  | add plan point multiplicity, hunit, hcount => by
    simp only [terms, total_cons, Multiset.mem_cons, forall_eq_or_imp] at hunit hcount
    obtain ⟨ih, ihs⟩ := represents_terms plan hunit.2 (by omega)
    have hstep := accumulatorAdd_result ih point multiplicity
    rw [accumulator, terms, statuses]
    have hrest : ∀ status ∈ plan.statuses, status = .ok ∨
        status = .zeroMultiplicity ∧ ∃ term ∈ (point, multiplicity) ::ₘ plan.terms, term.2 = 0 := by
      intro status hmem
      rcases ihs status hmem with hok | ⟨hzero, term, ht, hm⟩
      · exact .inl hok
      · exact .inr ⟨hzero, term, Multiset.mem_cons_of_mem ht, hm⟩
    generalize accumulatorAdd plan.accumulator point multiplicity = result at hstep ⊢
    cases hstep with
    | zero h =>
      subst h
      refine ⟨ih.cons_zero hunit.1, List.forall_mem_cons.2 ⟨.inr ⟨rfl, (point, 0), ?_, rfl⟩, hrest⟩⟩
      exact Multiset.mem_cons_self _ _
    | count h hover => omega
    | range h hover hpoint => exact absurd hunit.1 hpoint
    | added h hover hpoint next hnext =>
      exact ⟨hnext, List.forall_mem_cons.2 ⟨.inl rfl, hrest⟩⟩
  | merge plan source, hunit, hcount => by
    simp only [terms, Multiset.mem_add] at hunit hcount
    have htotal := total_add plan.terms source.terms
    obtain ⟨ih, ihs⟩ := represents_terms plan (fun t ht => hunit t (.inl ht)) (by omega)
    obtain ⟨ih', ihs'⟩ := represents_terms source (fun t ht => hunit t (.inr ht)) (by omega)
    have hstep := accumulatorMerge_result ih ih'
    rw [accumulator, terms, statuses]
    have hrest : ∀ status ∈ plan.statuses ++ source.statuses, status = .ok ∨
        status = .zeroMultiplicity ∧ ∃ term ∈ plan.terms + source.terms, term.2 = 0 := by
      intro status hmem
      rcases List.mem_append.1 hmem with hmem | hmem
      · exact (ihs status hmem).imp_right fun ⟨hzero, term, ht, hm⟩ =>
          ⟨hzero, term, Multiset.mem_add.2 (.inl ht), hm⟩
      · exact (ihs' status hmem).imp_right fun ⟨hzero, term, ht, hm⟩ =>
          ⟨hzero, term, Multiset.mem_add.2 (.inr ht), hm⟩
    generalize accumulatorMerge plan.accumulator source.accumulator = result at hstep ⊢
    cases hstep with
    | count hover => omega
    | merged hover next hnext => exact ⟨hnext, List.forall_mem_cons.2 ⟨.inl rfl, hrest⟩⟩

end Plan

theorem accumulatorAdd_unchanged (accumulator : Accumulator) (point : Point4d)
    (multiplicity : UInt64) (h : (accumulatorAdd accumulator point multiplicity).1 ≠ .ok) :
    (accumulatorAdd accumulator point multiplicity).2 = accumulator := by
  unfold accumulatorAdd at h ⊢
  exact written_unchanged _ _ h

theorem accumulatorMerge_unchanged (accumulator source : Accumulator)
    (h : (accumulatorMerge accumulator source).1 ≠ .ok) :
    (accumulatorMerge accumulator source).2 = accumulator := by
  unfold accumulatorMerge at h ⊢
  exact written_unchanged _ _ h

/-- **Exact accumulation.** Two plans over one multiset of unit points end with one accumulator,
bit for bit, and it holds the exact sums; more generally the accumulator of any plan holds the
exact sums of what was accepted. -/
theorem accumulation_exact : (∀ left right : Plan, left.terms = right.terms →
      (∀ term ∈ left.terms, UnitPoint term.1) → total left.terms < 2 ^ 64 →
      left.accumulator = right.accumulator ∧ left.accumulator.Represents left.terms ∧
        ∀ status ∈ left.statuses, status = .ok ∨
          status = .zeroMultiplicity ∧ ∃ term ∈ left.terms, term.2 = 0) ∧
    (∀ plan : Plan, plan.accumulator.Represents plan.accepted) ∧
    (∀ left right : Plan, left.accepted = right.accepted → left.accumulator = right.accumulator) ∧
    (∀ plan : Plan, .accumulatorOverflow ∉ plan.statuses) ∧
    (∀ accumulator point multiplicity, (accumulatorAdd accumulator point multiplicity).1 ≠ .ok →
      (accumulatorAdd accumulator point multiplicity).2 = accumulator) ∧
    (∀ accumulator source, (accumulatorMerge accumulator source).1 ≠ .ok →
      (accumulatorMerge accumulator source).2 = accumulator) := by
  refine ⟨fun left right hterms hunit hcount => ?_, Plan.represents_accepted,
    fun left right haccepted => ?_, Plan.accumulatorOverflow_unreachable,
    accumulatorAdd_unchanged, accumulatorMerge_unchanged⟩
  · obtain ⟨hleft, hstatuses⟩ := left.represents_terms hunit hcount
    rw [hterms] at hunit hcount
    have hright := (right.represents_terms hunit hcount).1
    rw [← hterms] at hright
    exact ⟨hleft.unique hright, hleft, hstatuses⟩
  · have hleft := left.represents_accepted
    rw [haccepted] at hleft
    exact hleft.unique right.represents_accepted

-- 1, the smallest subnormal and -1 cancel in any order
example :
    let one : Point4d := fun _ => 0x3ff0000000000000
    let tiny : Point4d := fun _ => 1
    let minusOne : Point4d := fun _ => 0xbff0000000000000
    (((Plan.init.add one 7).add tiny 2).add minusOne 7).accumulator =
      ((Plan.init.add tiny 2).merge ((Plan.init.add minusOne 7).add one 7)).accumulator := by
  decide +kernel

end Laplace.Geometry
