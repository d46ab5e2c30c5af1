import Laplace.Persistence.PhysicalityEntity

/-!
# Occurrence bindings (physicality_occurrence_binding.cpp:43-199)

Bindings and carriers are two run-length encodings of one sequence, cut at unrelated places. They
are walked in lock step, with counters of 64 bits, and neither is expanded.
-/

namespace Laplace.PhysicalityOccurrence

open Trajectory Persistence Checked

/-- `laplace_physicality_occurrence_status` -/
inductive Status
  | ok | invalidArgument | parentInvalid | bindingInvalid | limit | memoryFailure
deriving DecidableEq, Repr

/-- `LAPLACE_PHYSICALITY_OCCURRENCE_BINDING_VERSION` -/
def bindingVersion : UInt32 := 1

/-- `laplace_physicality_occurrence_binding` -/
structure Binding where
  parentPhysicalityId : Digest256
  entityId : Id128
  selectedPhysicalityId : Digest256
  firstLogicalOrdinal : UInt64
  logicalCount : UInt64
  metadata : UInt64
  version : UInt32
  reserved : UInt32
deriving DecidableEq

/-- `laplace_physicality_occurrence_parent` -/
structure Parent where
  physicality : PhysicalityRecord
  carriers : List Carrier
deriving DecidableEq

def mapStatus : PhysicalityEntity.Status → Status
  | .ok => .ok
  | .limit => .limit
  | .memoryFailure => .memoryFailure
  | _ => .parentInvalid

/-! ## `IntervalsMatch` -/

/-- The variables of the walk; `carriers` are those from `carrier_index` on. -/
structure Walk where
  covered : UInt64
  carriers : List Carrier
  decoded : UInt64
  remaining : UInt64
  occurrence : CompositionOccurrence

def Walk.start (carriers : List Carrier) : Walk := ⟨0, carriers, 0, 0, .zero⟩

/-- What is refused before the walk over a binding. -/
def admits (record : PhysicalityRecord) (covered : UInt64) (binding : Binding) : Bool :=
  ¬ (binding.version ≠ bindingVersion ∨ binding.reserved ≠ 0 ∨
    binding.selectedPhysicalityId = 0 ∨ binding.parentPhysicalityId ≠ record.physicalityId ∨
    covered = maxWord ∨ binding.firstLogicalOrdinal ≠ covered + 1 ∨
    binding.logicalCount = 0 ∨ binding.logicalCount > record.logicalCount - covered)

/-- The next carrier, when the run before it is used up. -/
def nextRun (record : PhysicalityRecord) (walk : Walk) : Option Walk :=
  match walk.carriers with
  | [] => none
  | carrier :: carriers =>
    if walk.decoded = maxWord then none
    else
      match compositionDecodeOne carrier (walk.decoded + 1) with
      | .error _ => none
      | .ok occurrence =>
        if occurrence.runLength.toUInt64 > record.logicalCount - walk.decoded then none
        else some
          { walk with
            carriers := carriers
            remaining := occurrence.runLength.toUInt64
            decoded := walk.decoded + occurrence.runLength.toUInt64
            occurrence := occurrence }

def sameOccurrence (binding : Binding) (occurrence : CompositionOccurrence) : Bool :=
  binding.entityId = occurrence.entityId ∧ binding.metadata = occurrence.metadata

/-- `covered` and `remaining` after a part of a run. -/
def Walk.advance (walk : Walk) (part : UInt64) : Walk :=
  { walk with remaining := walk.remaining - part, covered := walk.covered + part }

/-- The run that the walk is in, read where the one before it is used up. -/
def settle (record : PhysicalityRecord) (walk : Walk) : Option Walk :=
  if walk.remaining = 0 then nextRun record walk else some walk

/-- `std::min(unbound, remaining)` -/
def partOf (unbound remaining : UInt64) : UInt64 :=
  if remaining < unbound then remaining else unbound

theorem partOf_toNat (unbound remaining : UInt64) :
    (partOf unbound remaining).toNat = min unbound.toNat remaining.toNat := by
  rw [partOf]
  by_cases h : remaining < unbound
  · rw [if_pos h, Nat.min_eq_right (UInt64.lt_iff_toNat_lt.1 h).le]
  · rw [if_neg h, Nat.min_eq_left (Nat.le_of_not_lt (mt UInt64.lt_iff_toNat_lt.2 h))]

theorem toNat_sub_partOf (unbound remaining : UInt64) : (unbound - partOf unbound remaining).toNat =
      unbound.toNat - min unbound.toNat remaining.toNat := by
  have hpart := partOf_toNat unbound remaining
  rw [toNat_sub_of_le (by omega), hpart]

theorem nextRun_carriers {record : PhysicalityRecord} {walk next : Walk}
    (h : nextRun record walk = some next) : next.carriers.length < walk.carriers.length := by
  unfold nextRun at h
  split at h
  · cases h
  · rename_i carrier carriers hcarriers
    rw [hcarriers]
    repeat' split at h
    all_goals cases h
    exact Nat.lt_succ_self _

theorem settle_cases {record : PhysicalityRecord} {walk next : Walk} (h : settle record walk = some next) :
    next.carriers.length < walk.carriers.length ∨ next = walk ∧ walk.remaining.toNat ≠ 0 := by
  unfold settle at h
  split at h
  · exact .inl (nextRun_carriers h)
  · rename_i hne
    cases h
    exact .inr ⟨rfl, fun h0 => hne (UInt64.toNat_inj.1 h0)⟩

/-- `while (unbound != 0U)` -/
def cover (record : PhysicalityRecord) (binding : Binding) (unbound : UInt64) (walk : Walk) :
    Option Walk :=
  if _hdone : unbound = 0 then some walk
  else
    match _hnext : settle record walk with
    | none => none
    | some next =>
      if sameOccurrence binding next.occurrence then
        let part := partOf unbound next.remaining
        cover record binding (unbound - part) (next.advance part)
      else none
termination_by (walk.carriers.length, unbound.toNat)
decreasing_by
  have hpos : unbound.toNat ≠ 0 := fun h0 => _hdone (UInt64.toNat_inj.1 h0)
  obtain hlt | ⟨rfl, hne⟩ := settle_cases _hnext
  · exact Prod.Lex.left _ _ hlt
  · refine Prod.Lex.right _ ?_
    rw [toNat_sub_partOf]
    omega

/-- The loop over the bindings. -/
def coverAll (record : PhysicalityRecord) : List Binding → Walk → Option Walk
  | [], walk => some walk
  | binding :: bindings, walk =>
    if admits record walk.covered binding then
      (cover record binding binding.logicalCount walk).bind (coverAll record bindings)
    else none

/-- `IntervalsMatch` -/
def intervalsMatch (parent : Parent) (bindings : List Binding) : Bool :=
  match coverAll parent.physicality bindings (Walk.start parent.carriers) with
  | none => false
  | some walk => walk.covered = parent.physicality.logicalCount ∧ walk.remaining = 0 ∧
      walk.carriers = []

/-! ## What the two encodings stand for -/

/-- An entity with its metadata, once. -/
abbrev Item := Id128 × UInt64

def Binding.item (binding : Binding) : Item := (binding.entityId, binding.metadata)

def itemOf (occurrence : CompositionOccurrence) : Item :=
  (occurrence.entityId, occurrence.metadata)

def expandBindings (bindings : List Binding) : List Item :=
  bindings.flatMap fun binding => List.replicate binding.logicalCount.toNat binding.item

/-- The occurrences of carriers behind `decoded` others. -/
def expandCarriers (decoded : ℕ) : List Carrier → Option (List Item)
  | [] => some []
  | carrier :: carriers =>
    if decoded + 1 < 2 ^ 64 then
      match compositionDecodeOne carrier (UInt64.ofNat (decoded + 1)) with
      | .error _ => none
      | .ok occurrence =>
        (expandCarriers (decoded + occurrence.runLength.toNat) carriers).map
          (List.replicate occurrence.runLength.toNat (itemOf occurrence) ++ ·)
    else none

/-- The occurrences of a parent, when its carriers hold as many as it declares. -/
def Parent.expanded (parent : Parent) : Option (List Item) :=
  (expandCarriers 0 parent.carriers).filter
    fun items => items.length = parent.physicality.logicalCount.toNat

/-- A binding of this parent that covers something. -/
structure WellFormed (record : PhysicalityRecord) (binding : Binding) : Prop where
  version : binding.version = bindingVersion
  reserved : binding.reserved = 0
  selected : binding.selectedPhysicalityId ≠ 0
  parent : binding.parentPhysicalityId = record.physicalityId
  nonempty : binding.logicalCount ≠ 0

/-- First ordinals follow each other, from one behind `covered`. -/
def Contiguous (covered : ℕ) : List Binding → Prop
  | [] => True
  | binding :: bindings => binding.firstLogicalOrdinal.toNat = covered + 1 ∧
      Contiguous (covered + binding.logicalCount.toNat) bindings

/-! ## The walk -/

structure Walk.Sound (record : PhysicalityRecord) (walk : Walk) : Prop where
  decoded : walk.covered.toNat + walk.remaining.toNat = walk.decoded.toNat
  bounded : walk.decoded.toNat ≤ record.logicalCount.toNat

/-- The items that the walk has not covered yet, as many as the record still needs. -/
structure Walk.Rest (record : PhysicalityRecord) (walk : Walk) (items : List Item) : Prop where
  ahead : ∃ rest, expandCarriers walk.decoded.toNat walk.carriers = some rest ∧
    items = List.replicate walk.remaining.toNat (itemOf walk.occurrence) ++ rest
  length : walk.covered.toNat + items.length = record.logicalCount.toNat

variable {record : PhysicalityRecord} {walk next : Walk}

theorem start_sound (record : PhysicalityRecord) (carriers : List Carrier) : (Walk.start carriers).Sound record :=
  ⟨rfl, Nat.zero_le _⟩

variable {items : List Item}

theorem start_rest {parent : Parent} :
    (Walk.start parent.carriers).Rest parent.physicality items ↔ parent.expanded = some items := by
  rw [Parent.expanded, Option.filter_eq_some_iff, decide_eq_true_iff]
  constructor
  · rintro ⟨⟨rest, hrest, hitems⟩, hlen⟩
    exact ⟨hitems ▸ hrest, by simpa [Walk.start] using hlen⟩
  · rintro ⟨hitems, hlen⟩
    exact ⟨⟨items, hitems, rfl⟩, by simpa [Walk.start] using hlen⟩

variable {occurrence : CompositionOccurrence}

theorem runLength_ne_zero {carrier : Carrier} {ordinal : UInt64}
    (h : compositionDecodeOne carrier ordinal = .ok occurrence) : occurrence.runLength.toNat ≠ 0 :=
  (compositionDecodeOne_ok h).nonempty

/-- The walk in the run of the next carrier. -/
def Walk.enter (walk : Walk) (carriers : List Carrier) (occurrence : CompositionOccurrence) :
    Walk :=
  { walk with
    carriers := carriers
    remaining := occurrence.runLength.toUInt64
    decoded := walk.decoded + occurrence.runLength.toUInt64
    occurrence := occurrence }

theorem nextRun_eq_some (h : walk.decoded.toNat ≤ record.logicalCount.toNat) :
    nextRun record walk = some next ↔ ∃ carrier carriers occurrence,
      walk.carriers = carrier :: carriers ∧ walk.decoded.toNat + 1 < 2 ^ 64 ∧
      compositionDecodeOne carrier (UInt64.ofNat (walk.decoded.toNat + 1)) = .ok occurrence ∧
      walk.decoded.toNat + occurrence.runLength.toNat ≤ record.logicalCount.toNat ∧
      next = walk.enter carriers occurrence := by
  have hlt := walk.decoded.toNat_lt
  have hmax : walk.decoded = maxWord ↔ ¬ walk.decoded.toNat + 1 < 2 ^ 64 := by
    rw [← UInt64.toNat_inj, toNat_maxWord]
    omega
  have hnext : walk.decoded + 1 = UInt64.ofNat (walk.decoded.toNat + 1) := by
    rw [← UInt64.toNat_inj]
    simp
  have hroom (occurrence : CompositionOccurrence) :
      occurrence.runLength.toUInt64 > record.logicalCount - walk.decoded ↔
        ¬ walk.decoded.toNat + occurrence.runLength.toNat ≤ record.logicalCount.toNat := by
    rw [gt_iff_lt, UInt64.lt_iff_toNat_lt, toNat_sub_of_le h, UInt16.toNat_toUInt64]
    omega
  unfold nextRun
  cases hcarriers : walk.carriers with
  | nil => simp
  | cons carrier carriers =>
    simp only [List.cons.injEq, hmax, hnext, hroom]
    by_cases hfits : walk.decoded.toNat + 1 < 2 ^ 64
    · rw [if_neg (not_not.2 hfits)]
      cases hdecode : compositionDecodeOne carrier (UInt64.ofNat (walk.decoded.toNat + 1)) with
      | error status =>
        simp only [reduceCtorEq, false_iff]
        rintro ⟨_, _, occurrence, ⟨rfl, rfl⟩, -, hok, -⟩
        rw [hdecode] at hok
        cases hok
      | ok occurrence =>
        by_cases hrun : walk.decoded.toNat + occurrence.runLength.toNat ≤ record.logicalCount.toNat
        · simp only [hrun, not_true, if_false, Option.some.injEq]
          constructor
          · intro heq
            exact ⟨_, _, _, ⟨rfl, rfl⟩, hfits, hdecode, hrun, heq.symm⟩
          · rintro ⟨_, _, found, ⟨rfl, rfl⟩, -, hok, -, heq⟩
            rw [hdecode, Except.ok.injEq] at hok
            rw [heq, ← hok]
            rfl
        · simp only [hrun, not_false_eq_true, if_true, reduceCtorEq, false_iff]
          rintro ⟨_, _, found, ⟨rfl, rfl⟩, -, hok, hfound, -⟩
          rw [hdecode, Except.ok.injEq] at hok
          exact hrun (hok ▸ hfound)
    · rw [if_pos hfits]
      simp only [reduceCtorEq, false_iff]
      rintro ⟨_, _, _, -, hfound, -⟩
      exact hfits hfound

theorem enter_decoded (carriers : List Carrier)
    (h : walk.decoded.toNat + occurrence.runLength.toNat ≤ record.logicalCount.toNat) :
    (walk.enter carriers occurrence).decoded.toNat = walk.decoded.toNat + occurrence.runLength.toNat := by
  have hlt := record.logicalCount.toNat_lt
  rw [Walk.enter, toNat_add_of_lt (by rw [UInt16.toNat_toUInt64]; omega), UInt16.toNat_toUInt64]

theorem settle_some (hsound : walk.Sound record) (h : settle record walk = some next) :
    next.Sound record ∧ next.remaining.toNat ≠ 0 ∧ next.covered = walk.covered ∧
      ∀ items, next.Rest record items → walk.Rest record items := by
  unfold settle at h
  by_cases hzero : walk.remaining = 0
  · rw [if_pos hzero, nextRun_eq_some hsound.bounded] at h
    obtain ⟨carrier, carriers, occurrence, hcarriers, hfits, hdecode, hrun, rfl⟩ := h
    have hdecoded := enter_decoded carriers hrun
    have hcovered := hsound.decoded
    rw [hzero, UInt64.toNat_zero, Nat.add_zero] at hcovered
    have hremaining : (walk.enter carriers occurrence).remaining.toNat =
        occurrence.runLength.toNat := UInt16.toNat_toUInt64 _
    refine ⟨⟨?_, hdecoded ▸ hrun⟩, hremaining ▸ runLength_ne_zero hdecode, rfl, fun items hrest => ?_⟩
    · rw [hremaining, hdecoded, ← hcovered]
      rfl
    · obtain ⟨⟨rest, hrest, hitems⟩, hlen⟩ := hrest
      rw [hdecoded] at hrest
      rw [hremaining] at hitems
      refine ⟨⟨items, ?_, by rw [hzero]; rfl⟩, hlen⟩
      rw [hcarriers, expandCarriers, if_pos hfits, hdecode, hitems]
      dsimp only
      rw [show carriers = (walk.enter carriers occurrence).carriers from rfl, hrest]
      rfl
  · rw [if_neg hzero, Option.some.injEq] at h
    subst h
    exact ⟨hsound, fun h0 => hzero (UInt64.toNat_inj.1 h0), rfl, fun _ hrest => hrest⟩

theorem settle_of_rest (hsound : walk.Sound record) (hrest : walk.Rest record items) (hne : items ≠ []) :
    ∃ next, settle record walk = some next ∧ next.Rest record items := by
  unfold settle
  by_cases hzero : walk.remaining = 0
  · rw [if_pos hzero]
    obtain ⟨⟨rest, hrest, hitems⟩, hlen⟩ := hrest
    have hcovered := hsound.decoded
    rw [hzero, UInt64.toNat_zero, Nat.add_zero] at hcovered
    rw [hzero, UInt64.toNat_zero, List.replicate_zero, List.nil_append] at hitems
    cases hcarriers : walk.carriers with
    | nil =>
      rw [hcarriers, expandCarriers, Option.some.injEq] at hrest
      exact absurd (hitems.trans hrest.symm) hne
    | cons carrier carriers =>
      rw [hcarriers, expandCarriers] at hrest
      by_cases hfits : walk.decoded.toNat + 1 < 2 ^ 64
      · rw [if_pos hfits] at hrest
        cases hdecode : compositionDecodeOne carrier (UInt64.ofNat (walk.decoded.toNat + 1)) with
        | error status =>
          rw [hdecode] at hrest
          cases hrest
        | ok occurrence =>
          rw [hdecode] at hrest
          dsimp only at hrest
          rw [Option.map_eq_some_iff] at hrest
          obtain ⟨behind, hbehind, happend⟩ := hrest
          have hrun : walk.decoded.toNat + occurrence.runLength.toNat ≤
              record.logicalCount.toNat := by
            have hcount := congrArg List.length happend
            rw [List.length_append, List.length_replicate, ← hitems] at hcount
            omega
          have hdecoded := enter_decoded carriers hrun
          refine ⟨walk.enter carriers occurrence, (nextRun_eq_some hsound.bounded).2
            ⟨_, _, _, hcarriers, hfits, hdecode, hrun, rfl⟩, ⟨behind, ?_, ?_⟩, hlen⟩
          · rw [hdecoded]
            exact hbehind
          · rw [hitems, ← happend]
            rfl
      · rw [if_neg hfits] at hrest
        cases hrest
  · rw [if_neg hzero]
    exact ⟨walk, rfl, hrest⟩

theorem advance_sound (hsound : walk.Sound record) {part : UInt64}
    (hpart : part.toNat ≤ walk.remaining.toNat) : (walk.advance part).Sound record ∧
      (walk.advance part).covered.toNat = walk.covered.toNat + part.toNat ∧
      ∀ items, (walk.advance part).Rest record items ↔ walk.Rest record
        (List.replicate part.toNat (itemOf walk.occurrence) ++ items) := by
  have hdecoded := hsound.decoded
  have hbounded := hsound.bounded
  have hlt := record.logicalCount.toNat_lt
  have hcovered : (walk.advance part).covered.toNat = walk.covered.toNat + part.toNat :=
    toNat_add_of_lt (by omega)
  have hremaining : (walk.advance part).remaining.toNat = walk.remaining.toNat - part.toNat :=
    toNat_sub_of_le hpart
  have hsplit (rest : List Item) :
      List.replicate walk.remaining.toNat (itemOf walk.occurrence) ++ rest =
        List.replicate part.toNat (itemOf walk.occurrence) ++
          (List.replicate (walk.advance part).remaining.toNat (itemOf walk.occurrence) ++ rest) := by
    rw [← List.append_assoc, List.replicate_append_replicate, hremaining]
    congr 2
    omega
  refine ⟨⟨?_, hbounded⟩, hcovered, fun items => ⟨?_, ?_⟩⟩
  · rw [hcovered, hremaining]
    change _ = walk.decoded.toNat
    omega
  · rintro ⟨⟨rest, hrest, hitems⟩, hlen⟩
    refine ⟨⟨rest, hrest, ?_⟩, ?_⟩
    · rw [hsplit, hitems]
      rfl
    · rw [List.length_append, List.length_replicate, ← hlen, hcovered]
      omega
  · rintro ⟨⟨rest, hrest, hitems⟩, hlen⟩
    rw [hsplit] at hitems
    refine ⟨⟨rest, hrest, List.append_cancel_left hitems⟩, ?_⟩
    rw [List.length_append, List.length_replicate] at hlen
    rw [hcovered]
    omega

variable {binding : Binding}

theorem sameOccurrence_iff :
    sameOccurrence binding occurrence = true ↔ binding.item = itemOf occurrence := by
  rw [sameOccurrence, decide_eq_true_iff, Binding.item, itemOf, Prod.mk.injEq]

theorem partOf_le (unbound remaining : UInt64) : (partOf unbound remaining).toNat ≤ remaining.toNat := by
  rw [partOf_toNat]
  exact Nat.min_le_right _ _

theorem replicate_split (unbound remaining : UInt64) (item : Item) : List.replicate unbound.toNat item =
      List.replicate (partOf unbound remaining).toNat item ++
        List.replicate (unbound - partOf unbound remaining).toNat item := by
  rw [List.replicate_append_replicate, partOf_toNat, toNat_sub_partOf]
  congr 1
  omega

theorem cover_some {unbound : UInt64} (hsound : walk.Sound record)
    (h : cover record binding unbound walk = some next) :
    next.Sound record ∧ next.covered.toNat = walk.covered.toNat + unbound.toNat ∧
      ∀ items, next.Rest record items →
        walk.Rest record (List.replicate unbound.toNat binding.item ++ items) := by
  fun_induction cover record binding unbound walk with
  | case1 walk =>
    cases h
    exact ⟨hsound, rfl, fun _ hrest => hrest⟩
  | case2 => cases h
  | case3 unbound walk hne settled hsettle hsame part ih =>
    obtain ⟨hsettled, -, hcovered, hback⟩ := settle_some hsound hsettle
    obtain ⟨hadvanced, hadvancedCovered, hadvancedRest⟩ :=
      advance_sound hsettled (partOf_le unbound settled.remaining)
    obtain ⟨hnext, hnextCovered, hnextRest⟩ := ih hadvanced h
    refine ⟨hnext, ?_, fun items hitems => hback _ ?_⟩
    · rw [hnextCovered, hadvancedCovered, hcovered, partOf_toNat, toNat_sub_partOf]
      omega
    · rw [replicate_split unbound settled.remaining, List.append_assoc, sameOccurrence_iff.1 hsame]
      rw [sameOccurrence_iff.1 hsame] at hnextRest
      exact (hadvancedRest _).1 (hnextRest items hitems)
  | case4 => cases h

theorem cover_of_rest {unbound : UInt64} (hsound : walk.Sound record)
    (hrest : walk.Rest record (List.replicate unbound.toNat binding.item ++ items)) :
    ∃ next, cover record binding unbound walk = some next ∧ next.Rest record items := by
  fun_induction cover record binding unbound walk with
  | case1 walk => exact ⟨walk, rfl, hrest⟩
  | case2 unbound walk hne hsettle =>
    have hpos : unbound.toNat ≠ 0 := fun h0 => hne (UInt64.toNat_inj.1 h0)
    obtain ⟨settled, hsome, -⟩ := settle_of_rest hsound hrest (by simp [hpos])
    rw [hsettle] at hsome
    cases hsome
  | case3 unbound walk hne settled hsettle hsame part ih =>
    have hpos : unbound.toNat ≠ 0 := fun h0 => hne (UInt64.toNat_inj.1 h0)
    obtain ⟨found, hsome, hfound⟩ := settle_of_rest hsound hrest (by simp [hpos])
    rw [hsettle, Option.some.injEq] at hsome
    subst hsome
    obtain ⟨hsettled, -, -, -⟩ := settle_some hsound hsettle
    obtain ⟨hadvanced, -, hadvancedRest⟩ :=
      advance_sound hsettled (partOf_le unbound settled.remaining)
    refine ih hadvanced ((hadvancedRest _).2 ?_)
    rw [replicate_split unbound settled.remaining, List.append_assoc] at hfound
    rwa [sameOccurrence_iff.1 hsame] at hfound ⊢
  | case4 unbound walk hne settled hsettle hdiffers =>
    have hpos : unbound.toNat ≠ 0 := fun h0 => hne (UInt64.toNat_inj.1 h0)
    obtain ⟨found, hsome, hfound⟩ := settle_of_rest hsound hrest (by simp [hpos])
    rw [hsettle, Option.some.injEq] at hsome
    subst hsome
    obtain ⟨-, hremaining, -, -⟩ := settle_some hsound hsettle
    obtain ⟨⟨rest, -, hitems⟩, -⟩ := hfound
    obtain ⟨u, hu⟩ := Nat.exists_eq_succ_of_ne_zero hpos
    obtain ⟨r, hr⟩ := Nat.exists_eq_succ_of_ne_zero hremaining
    rw [hu, hr, List.replicate_succ, List.replicate_succ, List.cons_append, List.cons_append,
      List.cons.injEq] at hitems
    exact absurd (sameOccurrence_iff.2 hitems.1) hdiffers

/-! ## The bindings -/

theorem admits_iff {covered : UInt64} (hcovered : covered.toNat ≤ record.logicalCount.toNat)
    (binding : Binding) : admits record covered binding = true ↔
      WellFormed record binding ∧ binding.firstLogicalOrdinal.toNat = covered.toNat + 1 ∧
        covered.toNat + binding.logicalCount.toNat ≤ record.logicalCount.toNat := by
  have hlt := covered.toNat_lt
  have hmax : covered = maxWord ↔ ¬ covered.toNat + 1 < 2 ^ 64 := by
    rw [← UInt64.toNat_inj, toNat_maxWord]
    omega
  have hroom : binding.logicalCount > record.logicalCount - covered ↔
      ¬ covered.toNat + binding.logicalCount.toNat ≤ record.logicalCount.toNat := by
    rw [gt_iff_lt, UInt64.lt_iff_toNat_lt, toNat_sub_of_le hcovered]
    omega
  have hfirst (h : covered.toNat + 1 < 2 ^ 64) : binding.firstLogicalOrdinal = covered + 1 ↔
      binding.firstLogicalOrdinal.toNat = covered.toNat + 1 := by
    rw [← UInt64.toNat_inj, toNat_add_of_lt h]
    rfl
  have hord := binding.firstLogicalOrdinal.toNat_lt
  rw [admits, decide_eq_true_iff, hmax, hroom]
  simp only [not_or, not_not]
  constructor
  · rintro ⟨hversion, hreserved, hselected, hparent, hfits, hordinal, hcount, hle⟩
    exact ⟨⟨hversion, hreserved, hselected, hparent, hcount⟩, (hfirst hfits).1 hordinal, hle⟩
  · rintro ⟨⟨hversion, hreserved, hselected, hparent, hcount⟩, hordinal, hle⟩
    have hfits : covered.toNat + 1 < 2 ^ 64 := by omega
    exact ⟨hversion, hreserved, hselected, hparent, hfits, (hfirst hfits).2 hordinal, hcount, hle⟩

theorem expandBindings_cons (binding : Binding) (bindings : List Binding) :
    expandBindings (binding :: bindings) =
      List.replicate binding.logicalCount.toNat binding.item ++ expandBindings bindings :=
  List.flatMap_cons

theorem Walk.Sound.covered_le (h : walk.Sound record) : walk.covered.toNat ≤ record.logicalCount.toNat := by
  have hdecoded := h.decoded
  have hbounded := h.bounded
  omega

theorem coverAll_some {bindings : List Binding} (hsound : walk.Sound record)
    (h : coverAll record bindings walk = some next) :
    next.Sound record ∧ (∀ binding ∈ bindings, WellFormed record binding) ∧
      Contiguous walk.covered.toNat bindings ∧
      ∀ items, next.Rest record items → walk.Rest record (expandBindings bindings ++ items) := by
  induction bindings generalizing walk with
  | nil =>
    cases h
    exact ⟨hsound, by simp, trivial, fun _ hrest => hrest⟩
  | cons binding bindings ih =>
    rw [coverAll] at h
    by_cases hadmits : admits record walk.covered binding = true
    · rw [if_pos hadmits, Option.bind_eq_some_iff] at h
      obtain ⟨covered, hcover, hrest⟩ := h
      obtain ⟨hwell, hfirst, -⟩ := (admits_iff hsound.covered_le binding).1 hadmits
      obtain ⟨hcovered, hcount, hback⟩ := cover_some hsound hcover
      obtain ⟨hnext, hwells, hcontiguous, hbacks⟩ := ih hcovered hrest
      rw [hcount] at hcontiguous
      refine ⟨hnext, List.forall_mem_cons.2 ⟨hwell, hwells⟩, ⟨hfirst, hcontiguous⟩, fun items hitems => ?_⟩
      rw [expandBindings_cons, List.append_assoc]
      exact hback _ (hbacks items hitems)
    · rw [if_neg hadmits] at h
      cases h

theorem coverAll_of_rest {bindings : List Binding} (hsound : walk.Sound record)
    (hwell : ∀ binding ∈ bindings, WellFormed record binding)
    (hcontiguous : Contiguous walk.covered.toNat bindings)
    (hrest : walk.Rest record (expandBindings bindings ++ items)) :
    ∃ next, coverAll record bindings walk = some next ∧ next.Rest record items := by
  induction bindings generalizing walk with
  | nil => exact ⟨walk, rfl, hrest⟩
  | cons binding bindings ih =>
    obtain ⟨hwell, hwells⟩ := List.forall_mem_cons.1 hwell
    obtain ⟨hfirst, hcontiguous⟩ := hcontiguous
    rw [expandBindings_cons, List.append_assoc] at hrest
    have hlen := hrest.length
    rw [List.length_append, List.length_replicate] at hlen
    have hadmits := (admits_iff hsound.covered_le binding).2 ⟨hwell, hfirst, by omega⟩
    obtain ⟨covered, hcover, hcoveredRest⟩ := cover_of_rest hsound hrest
    obtain ⟨hcovered, hcount, -⟩ := cover_some hsound hcover
    rw [← hcount] at hcontiguous
    obtain ⟨next, hnext, hnextRest⟩ := ih hcovered hwells hcontiguous hcoveredRest
    exact ⟨next, by rw [coverAll, if_pos hadmits, hcover]; exact hnext, hnextRest⟩

theorem rest_nil_iff : walk.Rest record [] ↔
    walk.covered = record.logicalCount ∧ walk.remaining = 0 ∧ walk.carriers = [] := by
  constructor
  · rintro ⟨⟨rest, hrest, hitems⟩, hlen⟩
    rw [eq_comm, List.append_eq_nil_iff, List.replicate_eq_nil_iff] at hitems
    obtain ⟨hremaining, rfl⟩ := hitems
    refine ⟨UInt64.toNat_inj.1 (by simpa using hlen), UInt64.toNat_inj.1 hremaining, ?_⟩
    cases hcarriers : walk.carriers with
    | nil => rfl
    | cons carrier carriers =>
      rw [hcarriers, expandCarriers] at hrest
      split at hrest
      · split at hrest
        · cases hrest
        · rename_i occurrence hdecode
          rw [Option.map_eq_some_iff] at hrest
          obtain ⟨behind, -, happend⟩ := hrest
          rw [List.append_eq_nil_iff, List.replicate_eq_nil_iff] at happend
          exact absurd happend.1 (runLength_ne_zero hdecode)
      · cases hrest
  · rintro ⟨hcovered, hremaining, hcarriers⟩
    refine ⟨⟨[], by rw [hcarriers]; rfl, by rw [hremaining]; rfl⟩, by rw [hcovered]; rfl⟩

/-- **The interval walk compares the two expansions**: bindings that are well formed, follow each
other and expand to what the carriers of the parent expand to. -/
theorem intervalsMatch_iff (parent : Parent) (bindings : List Binding) :
    intervalsMatch parent bindings = true ↔
      (∀ binding ∈ bindings, WellFormed parent.physicality binding) ∧ Contiguous 0 bindings ∧
        parent.expanded = some (expandBindings bindings) := by
  have hstart := start_sound parent.physicality parent.carriers
  rw [intervalsMatch, ← start_rest]
  constructor
  · intro h
    split at h
    · cases h
    · rename_i walk hwalk
      rw [decide_eq_true_iff] at h
      obtain ⟨-, hwell, hcontiguous, hback⟩ := coverAll_some hstart hwalk
      have hrest := hback [] (rest_nil_iff.2 h)
      rw [List.append_nil] at hrest
      exact ⟨hwell, hcontiguous, hrest⟩
  · rintro ⟨hwell, hcontiguous, hrest⟩
    rw [← List.append_nil (expandBindings bindings)] at hrest
    obtain ⟨walk, hwalk, hnil⟩ := coverAll_of_rest hstart hwell hcontiguous hrest
    rw [hwalk]
    exact decide_eq_true (rest_nil_iff.1 hnil)

end Laplace.PhysicalityOccurrence
