import Laplace.Lib.Lists
import Laplace.Lib.Peeling
import Laplace.Lib.Sorting
import Laplace.Perfcache.Generation

/-!
# The dependencies of a generation (perfcache_registry.cpp:512-578)

The second loop of `DependenciesValid` counts for each artifact the dependencies that are not removed.
No two artifacts have one module, and no artifact depends on a module twice, so a removal lowers each
counter by the one dependency that it stands for.
-/

open Relation (TransGen)

namespace Laplace.Perfcache

/-- The module depends on the other. -/
def DependsOn (artifacts : List LoadedArtifact) (module dependency : Id128) : Prop :=
  ∃ artifact ∈ artifacts, artifact.contract.moduleId = module ∧
    dependency ∈ artifact.dependencies.map GenerationDependency.moduleId

def moduleIds (artifacts : List LoadedArtifact) : List Id128 :=
  artifacts.map fun artifact => artifact.contract.moduleId

/-! ## Ids in order -/

theorem modulesGrow_iff : ∀ {ids : List Id128}, modulesGrow ids = true ↔ ids.Pairwise (· < ·)
  | [] => by simp [modulesGrow]
  | [_] => by simp [modulesGrow]
  | first :: second :: rest => by
    rw [modulesGrow, Bool.and_eq_true, decide_eq_true_iff, modulesGrow_iff]
    constructor
    · rintro ⟨hlt, hrest⟩
      refine List.pairwise_cons.2 ⟨fun id hid => ?_, hrest⟩
      rcases List.mem_cons.1 hid with rfl | hid
      · exact hlt
      · exact BitVec.lt_trans hlt ((List.pairwise_cons.1 hrest).1 id hid)
    · intro h
      obtain ⟨hfirst, hrest⟩ := List.pairwise_cons.1 h
      exact ⟨hfirst second List.mem_cons_self, hrest⟩

theorem nodup_of_grow {ids : List Id128} (h : modulesGrow ids = true) : ids.Nodup :=
  (modulesGrow_iff.1 h).imp fun hlt => BitVec.ne_of_lt hlt

theorem findById_eq_some {α : Type} {id : α → Id128} {key : Id128} {a : α} : ∀ {elements : List α},
    (elements.map id).Pairwise (· < ·) → (findById id elements key = some a ↔ a ∈ elements ∧ id a = key)
  | [], _ => by simp [findById]
  | element :: elements, h => by
    rw [List.map_cons, List.pairwise_cons] at h
    have ih : findById id elements key = some a ↔ a ∈ elements ∧ id a = key := findById_eq_some h.2
    by_cases hlt : id element < key
    · have hstep : findById id (element :: elements) key = findById id elements key := by
        rw [findById, List.find?_cons, decide_eq_true hlt]
        rfl
      rw [hstep, ih, List.mem_cons]
      constructor
      · exact fun ⟨hmem, hkey⟩ => ⟨.inr hmem, hkey⟩
      · rintro ⟨rfl | hmem, hkey⟩
        · exact absurd hkey (BitVec.ne_of_lt hlt)
        · exact ⟨hmem, hkey⟩
    · have hstep : findById id (element :: elements) key =
          (some element).filter fun element => id element = key := by
        rw [findById, List.find?_cons, decide_eq_false hlt]
        rfl
      rw [hstep, Option.filter_eq_some_iff, Option.some.injEq, decide_eq_true_iff]
      constructor
      · rintro ⟨rfl, hkey⟩
        exact ⟨List.mem_cons_self, hkey⟩
      · rintro ⟨hmem, hkey⟩
        rcases List.mem_cons.1 hmem with rfl | hmem
        · exact ⟨rfl, hkey⟩
        · have := h.1 (id a) (List.mem_map_of_mem hmem)
          rw [hkey] at this
          exact absurd this hlt

/-! ## The removal loop -/

namespace Removal

def moduleId (entry : Removal) : Id128 := entry.artifact.contract.moduleId

def dependencyIds (entry : Removal) : List Id128 :=
  entry.artifact.dependencies.map GenerationDependency.moduleId

end Removal

/-- The module is that of an artifact that is not removed. -/
def pending (entries : List Removal) (module : Id128) : Bool :=
  entries.any fun entry => !entry.removed && decide (entry.moduleId = module)

theorem pending_iff {entries : List Removal} {module : Id128} : pending entries module = true ↔
    ∃ entry ∈ entries, entry.removed = false ∧ entry.moduleId = module := by
  simp [pending]

/-- Before the first round. -/
def initialRemovals (artifacts : List LoadedArtifact) : List Removal :=
  artifacts.map fun artifact => ⟨artifact, false, UInt64.ofNat artifact.dependencies.length⟩

/-- What holds between two removals. -/
structure Counted (artifacts : List LoadedArtifact) (entries : List Removal) : Prop where
  same : entries.map Removal.artifact = artifacts
  counts : ∀ entry ∈ entries, entry.removed = false →
    entry.remaining.toNat = entry.dependencyIds.countP (pending entries)
  grounded : ∀ entry ∈ entries, entry.removed = true → Grounded (DependsOn artifacts) entry.moduleId

/-- What the first loop has checked of the ids. -/
structure WellLinked (artifacts : List LoadedArtifact) : Prop where
  unique : (moduleIds artifacts).Nodup
  distinct : ∀ artifact ∈ artifacts,
    (artifact.dependencies.map GenerationDependency.moduleId).Nodup
  known : ∀ artifact ∈ artifacts, ∀ dependency ∈ artifact.dependencies,
    dependency.moduleId ∈ moduleIds artifacts

section Loop

variable {artifacts : List LoadedArtifact} {entries : List Removal} {entry dependent : Removal}
  {index : ℕ}

theorem Counted.mem_artifacts (h : Counted artifacts entries) (hentry : entry ∈ entries) :
    entry.artifact ∈ artifacts := h.same ▸ List.mem_map_of_mem hentry

theorem Counted.ids_eq (h : Counted artifacts entries) :
    entries.map Removal.moduleId = moduleIds artifacts := by
  rw [moduleIds, ← h.same, List.map_map]
  rfl

theorem Counted.eq_of_moduleId (h : Counted artifacts entries) (hlinked : WellLinked artifacts)
    (hentry : entry ∈ entries) (hdependent : dependent ∈ entries)
    (heq : entry.moduleId = dependent.moduleId) : entry = dependent :=
  List.inj_on_of_nodup_map (h.ids_eq ▸ hlinked.unique) hentry hdependent heq

/-- **No counter underflows**: what depends on an artifact that is not removed still counts it. -/
theorem Counted.remaining_ne_zero (h : Counted artifacts entries) (hentry : entry ∈ entries)
    (hleft : entry.removed = false) (hdependent : dependent ∈ entries)
    (hother : dependent.removed = false) (hdepends : entry.moduleId ∈ dependent.dependencyIds) :
    dependent.remaining ≠ 0 := by
  intro hzero
  have hcount := h.counts dependent hdependent hother
  rw [hzero, UInt64.toNat_zero, eq_comm, List.countP_eq_zero] at hcount
  exact hcount _ hdepends (pending_iff.2 ⟨entry, hentry, hleft, rfl⟩)

theorem Counted.grounded_of_ready (h : Counted artifacts entries) (hlinked : WellLinked artifacts)
    (hentry : entry ∈ entries) (hleft : entry.removed = false) (hready : entry.remaining = 0) :
    Grounded (DependsOn artifacts) entry.moduleId := by
  refine .intro fun module hdepends => ?_
  obtain ⟨artifact, hartifact, hmodule, hdependency⟩ := hdepends
  have hcount := h.counts entry hentry hleft
  rw [hready, UInt64.toNat_zero, eq_comm, List.countP_eq_zero] at hcount
  have hsame : artifact = entry.artifact :=
    List.inj_on_of_nodup_map hlinked.unique hartifact (h.mem_artifacts hentry) hmodule
  rw [hsame] at hdependency
  have hnot := hcount module hdependency
  obtain ⟨dependency, hmem, rfl⟩ := List.mem_map.1 hdependency
  have hknown := hlinked.known _ (h.mem_artifacts hentry) dependency hmem
  rw [← h.ids_eq] at hknown
  obtain ⟨target, htarget, htargetId⟩ := List.mem_map.1 hknown
  cases hremoved : target.removed with
  | false => exact absurd (pending_iff.2 ⟨target, htarget, hremoved, htargetId⟩) hnot
  | true => exact htargetId ▸ h.grounded target htarget hremoved

/-- What the removal of an artifact does to an artifact. -/
def Removal.lowered (entry dependent : Removal) : Removal :=
  if dependent.moduleId = entry.moduleId then { entry with removed := true }
  else if !dependent.removed && decide (entry.moduleId ∈ dependent.dependencyIds) then
    { dependent with remaining := dependent.remaining - 1 }
  else dependent

theorem removeArtifact_cases (hunique : (entries.map Removal.moduleId).Nodup) (progress : Bool)
    (index : ℕ) : (removeArtifact (entries, progress) index = (entries, progress) ∧
      ∀ entry, entries[index]? = some entry → entry.removed = true ∨ entry.remaining ≠ 0) ∨
    ∃ entry ∈ entries, entry.removed = false ∧ entry.remaining = 0 ∧
      removeArtifact (entries, progress) index = (entries.map entry.lowered, true) := by
  rw [removeArtifact]
  cases hentry : entries[index]? with
  | none => exact .inl ⟨rfl, fun entry h => nomatch h⟩
  | some entry =>
    by_cases hstuck : entry.removed = true ∨ entry.remaining ≠ 0
    · refine .inl ⟨if_pos hstuck, fun entry' h => ?_⟩
      rw [← Option.some.inj h]
      exact hstuck
    · rw [not_or, Bool.not_eq_true, not_not] at hstuck
      refine .inr ⟨entry, List.mem_of_getElem? hentry, hstuck.1, hstuck.2, ?_⟩
      dsimp only
      rw [if_neg (by simp [hstuck]), set_eq_map hunique hentry, List.map_map]
      congr 1
      refine List.map_congr_left fun dependent _ => ?_
      rw [Function.comp_apply, Removal.lowered]
      by_cases hsame : dependent.moduleId = entry.moduleId
      · rw [if_pos hsame, if_pos hsame]
        rfl
      · rw [if_neg hsame, if_neg hsame]
        have hany : (dependent.artifact.dependencies.any fun dependency =>
            decide (dependency.moduleId = entry.artifact.contract.moduleId)) =
              decide (entry.moduleId ∈ dependent.dependencyIds) := by
          rw [Bool.eq_iff_iff, List.any_eq_true, decide_eq_true_iff, Removal.dependencyIds, List.mem_map]
          simp only [decide_eq_true_iff]
          rfl
        rw [hany]

theorem lowered_artifact (hsame : dependent.moduleId = entry.moduleId → dependent = entry) :
    (entry.lowered dependent).artifact = dependent.artifact := by
  rw [Removal.lowered]
  split
  · next heq => rw [hsame heq]
  · split <;> rfl

theorem lowered_left_iff : (entry.lowered dependent).removed = false ↔
    dependent.removed = false ∧ dependent.moduleId ≠ entry.moduleId := by
  rw [Removal.lowered]
  split
  · next heq => simp [heq]
  · next hne =>
    split <;> simp [hne]

theorem pending_lowered (h : Counted artifacts entries) (hlinked : WellLinked artifacts)
    (hentry : entry ∈ entries) (module : Id128) : pending (entries.map entry.lowered) module =
      (pending entries module && decide (module ≠ entry.moduleId)) := by
  have hmoduleId : ∀ dependent ∈ entries, (entry.lowered dependent).moduleId = dependent.moduleId := by
    intro dependent hdependent
    rw [Removal.moduleId, lowered_artifact (h.eq_of_moduleId hlinked hdependent hentry)]
    rfl
  rw [Bool.eq_iff_iff, Bool.and_eq_true, decide_eq_true_iff, pending_iff, pending_iff]
  constructor
  · rintro ⟨lowered, hlowered, hleft, rfl⟩
    obtain ⟨dependent, hdependent, rfl⟩ := List.mem_map.1 hlowered
    rw [hmoduleId dependent hdependent]
    obtain ⟨hother, hne⟩ := lowered_left_iff.1 hleft
    exact ⟨⟨dependent, hdependent, hother, rfl⟩, hne⟩
  · rintro ⟨⟨dependent, hdependent, hleft, rfl⟩, hne⟩
    exact ⟨_, List.mem_map_of_mem hdependent, lowered_left_iff.2 ⟨hleft, hne⟩,
      hmoduleId dependent hdependent⟩

/-- **One removal.** -/
theorem Counted.lowered (h : Counted artifacts entries) (hlinked : WellLinked artifacts)
    (hentry : entry ∈ entries) (hleft : entry.removed = false) (hready : entry.remaining = 0) :
    Counted artifacts (entries.map entry.lowered) := by
  have hartifact : ∀ dependent ∈ entries, (entry.lowered dependent).artifact = dependent.artifact :=
    fun dependent hdependent => lowered_artifact (h.eq_of_moduleId hlinked hdependent hentry)
  constructor
  · rw [List.map_map, ← h.same]
    exact List.map_congr_left hartifact
  · intro lowered hlowered hother
    obtain ⟨dependent, hdependent, rfl⟩ := List.mem_map.1 hlowered
    obtain ⟨hother, hne⟩ := lowered_left_iff.1 hother
    have hcount := h.counts dependent hdependent hother
    have hone : dependent.dependencyIds.countP (fun module =>
          pending entries module && decide (module ≠ entry.moduleId)) +
        (if entry.moduleId ∈ dependent.dependencyIds then 1 else 0) =
          dependent.dependencyIds.countP (pending entries) :=
      countP_ne (pending_iff.2 ⟨entry, hentry, hleft, rfl⟩)
        (hlinked.distinct _ (h.mem_artifacts hdependent))
    have hpending : pending (entries.map entry.lowered) = fun module =>
        pending entries module && decide (module ≠ entry.moduleId) :=
      funext (pending_lowered h hlinked hentry)
    have hids : (entry.lowered dependent).dependencyIds = dependent.dependencyIds := by
      rw [Removal.dependencyIds, hartifact dependent hdependent]
      rfl
    rw [hpending, hids, Removal.lowered, if_neg hne, hother]
    by_cases hdepends : entry.moduleId ∈ dependent.dependencyIds
    · have hpos := h.remaining_ne_zero hentry hleft hdependent hother hdepends
      have hle : (1 : UInt64).toNat ≤ dependent.remaining.toNat :=
        Nat.pos_of_ne_zero fun hzero => hpos (UInt64.toNat_inj.1 hzero)
      have hsub := Checked.toNat_sub_of_le hle
      rw [if_pos hdepends] at hone
      rw [if_pos (by simp [hdepends])]
      change (dependent.remaining - 1).toNat = _
      rw [hsub, hcount, ← hone]
      rfl
    · rw [if_neg hdepends] at hone
      rw [if_neg (by simp [hdepends]), hcount, ← hone, Nat.add_zero]
  · intro lowered hlowered hremoved
    obtain ⟨dependent, hdependent, rfl⟩ := List.mem_map.1 hlowered
    rw [Removal.moduleId, hartifact dependent hdependent]
    by_cases hsame : dependent.moduleId = entry.moduleId
    · change Grounded _ dependent.moduleId
      rw [hsame]
      exact h.grounded_of_ready hlinked hentry hleft hready
    · refine h.grounded dependent hdependent ?_
      by_contra hother
      rw [Bool.not_eq_true] at hother
      rw [lowered_left_iff.2 ⟨hother, hsame⟩] at hremoved
      cases hremoved

end Loop

/-! ## The rounds -/

section Rounds

variable {artifacts : List LoadedArtifact}

/-- The states that removals reach. -/
inductive Peeling (artifacts : List LoadedArtifact) : List Removal → Prop
  | start : Peeling artifacts (initialRemovals artifacts)
  | step {entries : List Removal} (h : Peeling artifacts entries) (progress : Bool) (index : ℕ) :
    Peeling artifacts (removeArtifact (entries, progress) index).1

theorem counted_initial (hlinked : WellLinked artifacts)
    (hfit : ∀ artifact ∈ artifacts, artifact.dependencies.length < 2 ^ 64) :
    Counted artifacts (initialRemovals artifacts) := by
  have hsame : (initialRemovals artifacts).map Removal.artifact = artifacts := by
    rw [initialRemovals, List.map_map]
    exact List.map_id artifacts
  refine ⟨hsame, fun entry hentry _ => ?_, fun entry hentry hremoved => ?_⟩
  · obtain ⟨artifact, hartifact, rfl⟩ := List.mem_map.1 hentry
    change (UInt64.ofNat artifact.dependencies.length).toNat =
      (artifact.dependencies.map GenerationDependency.moduleId).countP _
    rw [Checked.toNat_ofNat (hfit artifact hartifact), List.countP_eq_length.2, List.length_map]
    intro module hmodule
    obtain ⟨dependency, hdependency, rfl⟩ := List.mem_map.1 hmodule
    obtain ⟨target, htarget, heq⟩ := List.mem_map.1 (hlinked.known artifact hartifact _ hdependency)
    exact pending_iff.2 ⟨_, List.mem_map_of_mem htarget, rfl, heq⟩
  · obtain ⟨artifact, hartifact, rfl⟩ := List.mem_map.1 hentry
    cases hremoved

variable {entries : List Removal}

theorem Counted.step (h : Counted artifacts entries) (hlinked : WellLinked artifacts)
    (progress : Bool) (index : ℕ) : Counted artifacts (removeArtifact (entries, progress) index).1 := by
  rcases removeArtifact_cases (h.ids_eq ▸ hlinked.unique) progress index with
    ⟨hnone, -⟩ | ⟨entry, hentry, hleft, hready, hremoved⟩
  · rw [hnone]
    exact h
  · rw [hremoved]
    exact h.lowered hlinked hentry hleft hready

theorem Peeling.counted (h : Peeling artifacts entries) (hlinked : WellLinked artifacts)
    (hfit : ∀ artifact ∈ artifacts, artifact.dependencies.length < 2 ^ 64) : Counted artifacts entries := by
  induction h with
  | start => exact counted_initial hlinked hfit
  | step _ progress index ih => exact ih.step hlinked progress index

/-- The number of artifacts that are removed. -/
def removedCount (entries : List Removal) : ℕ := entries.countP Removal.removed

theorem removedCount_lowered {entry : Removal} (hentry : entry ∈ entries) (hleft : entry.removed = false) :
    removedCount entries < removedCount (entries.map entry.lowered) := by
  rw [removedCount, removedCount, List.countP_map]
  refine countP_lt_of_mem (fun dependent _ hremoved => ?_) hentry hleft ?_
  · by_contra hother
    rw [Function.comp_apply, Bool.not_eq_true, lowered_left_iff, hremoved] at hother
    cases hother.1
  · by_contra hother
    rw [Function.comp_apply, Bool.not_eq_true, lowered_left_iff] at hother
    exact hother.2 rfl

/-- What a pass over some of the indices does. -/
structure Pass (artifacts : List LoadedArtifact) (start : List Removal × Bool) (indices : List ℕ)
    (result : List Removal × Bool) : Prop where
  counted : Counted artifacts result.1
  le : removedCount start.1 ≤ removedCount result.1
  progress : result.2 = true → start.2 = true ∨ removedCount start.1 < removedCount result.1
  stuck : result.2 = false → result = start ∧ ∀ index ∈ indices, ∀ entry,
    start.1[index]? = some entry → entry.removed = true ∨ entry.remaining ≠ 0

theorem foldl_removeArtifact (hlinked : WellLinked artifacts) : ∀ (indices : List ℕ)
    {start : List Removal × Bool}, Counted artifacts start.1 →
    Pass artifacts start indices (indices.foldl removeArtifact start)
  | [], start, h => ⟨h, Nat.le_refl _, .inl, fun _ => ⟨rfl, fun _ hindex => nomatch hindex⟩⟩
  | index :: indices, (entries, progress), h => by
    have hstep := h.step hlinked progress index
    have ih := foldl_removeArtifact hlinked indices hstep
    rw [List.foldl_cons]
    rcases removeArtifact_cases (h.ids_eq ▸ hlinked.unique) progress index with
      ⟨hnone, hstuck⟩ | ⟨entry, hentry, hleft, -, hremoved⟩
    · rw [hnone] at ih ⊢
      refine ⟨ih.counted, ih.le, ih.progress, fun hfalse => ?_⟩
      obtain ⟨hsame, hrest⟩ := ih.stuck hfalse
      exact ⟨hsame, List.forall_mem_cons.2 ⟨hstuck, hrest⟩⟩
    · rw [hremoved] at ih ⊢
      have hlt := removedCount_lowered hentry hleft
      refine ⟨ih.counted, (Nat.le_of_lt hlt).trans ih.le, fun _ => .inr (hlt.trans_le ih.le),
        fun hfalse => ?_⟩
      have htrue := congrArg Prod.snd (ih.stuck hfalse).1
      rw [hfalse] at htrue
      cases htrue

/-- A state that no round changes. -/
def Stuck (entries : List Removal) : Prop :=
  ∀ entry ∈ entries, entry.removed = true ∨ entry.remaining ≠ 0

theorem removedCount_le (entries : List Removal) : removedCount entries ≤ entries.length :=
  List.countP_le_length

/-- **The rounds end**: with a round for each artifact that is not removed, and one more, the state is
stuck, and further rounds leave it. -/
theorem removeRounds_stuck (hlinked : WellLinked artifacts) : ∀ (fuel : ℕ) {entries : List Removal},
    Counted artifacts entries → entries.length < removedCount entries + fuel →
    Counted artifacts (removeRounds fuel entries) ∧ Stuck (removeRounds fuel entries) ∧
      ∀ more, removeRounds (fuel + more) entries = removeRounds fuel entries
  | 0, entries, _, hfuel => absurd (removedCount_le entries) (Nat.not_le.2 hfuel)
  | fuel + 1, entries, h, hfuel => by
    have hpass : Pass artifacts (entries, false) (List.range entries.length)
        ((List.range entries.length).foldl removeArtifact (entries, false)) :=
      foldl_removeArtifact hlinked _ h
    have hround : ∀ fuel, removeRounds (fuel + 1) entries =
        if ((List.range entries.length).foldl removeArtifact (entries, false)).2 = true then
          removeRounds fuel ((List.range entries.length).foldl removeArtifact (entries, false)).1
        else ((List.range entries.length).foldl removeArtifact (entries, false)).1 := fun _ => rfl
    generalize (List.range entries.length).foldl removeArtifact (entries, false) = result
      at hpass hround
    by_cases hprogress : result.2 = true
    · have hlength : result.1.length = entries.length := by
        rw [← List.length_map Removal.artifact, hpass.counted.same, ← h.same, List.length_map]
      have hmore : removedCount entries < removedCount result.1 :=
        (hpass.progress hprogress).resolve_left Bool.false_ne_true
      obtain ⟨hcounted, hstuck, hsame⟩ := removeRounds_stuck hlinked fuel hpass.counted (by omega)
      rw [hround, if_pos hprogress]
      refine ⟨hcounted, hstuck, fun more => ?_⟩
      rw [Nat.add_right_comm, hround, if_pos hprogress]
      exact hsame more
    · obtain ⟨hsame, hindices⟩ := hpass.stuck (Bool.not_eq_true _ ▸ hprogress)
      rw [hround, if_neg hprogress]
      refine ⟨hpass.counted, ?_, fun more => ?_⟩
      · rw [hsame]
        intro entry hentry
        obtain ⟨index, hindex, heq⟩ := List.mem_iff_getElem.1 hentry
        exact hindices index (List.mem_range.2 hindex) entry
          (by rw [List.getElem?_eq_getElem hindex, heq])
      · rw [Nat.add_right_comm, hround, if_neg hprogress]

theorem Counted.peeled (h : Counted artifacts entries) (hlinked : WellLinked artifacts)
    (hstuck : Stuck entries) : Peeled (DependsOn artifacts) {module | module ∈ moduleIds artifacts}
      {module | pending entries module = false} := by
  have hentryOf : ∀ module ∈ moduleIds artifacts, ∃ entry ∈ entries, entry.moduleId = module := by
    intro module hmodule
    rw [← h.ids_eq] at hmodule
    exact List.mem_map.1 hmodule
  constructor
  · intro module hgone
    by_cases hmodule : module ∈ moduleIds artifacts
    · obtain ⟨entry, hentry, rfl⟩ := hentryOf module hmodule
      refine h.grounded entry hentry ?_
      by_contra hleft
      rw [Bool.not_eq_true] at hleft
      rw [Set.mem_ofPred_eq, pending_iff.2 ⟨entry, hentry, hleft, rfl⟩] at hgone
      cases hgone
    · refine .intro fun dependency hdepends => ?_
      obtain ⟨artifact, hartifact, rfl, -⟩ := hdepends
      exact absurd (List.mem_map_of_mem hartifact) hmodule
  · intro module hmodule hdependencies
    obtain ⟨entry, hentry, rfl⟩ := hentryOf module hmodule
    rw [Set.mem_ofPred_eq, ← Bool.not_eq_true, pending_iff]
    rintro ⟨entry', hentry', hleft, hsame⟩
    rw [h.eq_of_moduleId hlinked hentry' hentry hsame] at hleft
    have hzero : entry.remaining = 0 := by
      rw [← UInt64.toNat_inj, h.counts entry hentry hleft, UInt64.toNat_zero, List.countP_eq_zero]
      intro dependency hdependency
      rw [Bool.not_eq_true]
      exact hdependencies dependency ⟨entry.artifact, h.mem_artifacts hentry, rfl, hdependency⟩
    rcases hstuck entry hentry with hremoved | hne
    · rw [hleft] at hremoved
      cases hremoved
    · exact hne hzero

theorem Counted.all_removed_iff (h : Counted artifacts entries) (hlinked : WellLinked artifacts)
    (hstuck : Stuck entries) :
    entries.all Removal.removed = true ↔ ∀ module, ¬ TransGen (DependsOn artifacts) module module := by
  have hnodes : ∀ module dependency, DependsOn artifacts module dependency →
      module ∈ moduleIds artifacts ∧ dependency ∈ moduleIds artifacts := by
    rintro _ _ ⟨artifact, hartifact, rfl, hdependency⟩
    obtain ⟨dependency, hmem, rfl⟩ := List.mem_map.1 hdependency
    exact ⟨List.mem_map_of_mem hartifact, hlinked.known artifact hartifact dependency hmem⟩
  rw [← (h.peeled hlinked hstuck).all_iff (moduleIds artifacts).finite_toSet hnodes, List.all_eq_true]
  constructor
  · intro hall module _
    rw [Set.mem_ofPred_eq, ← Bool.not_eq_true, pending_iff]
    rintro ⟨entry, hentry, hleft, -⟩
    rw [hall entry hentry] at hleft
    cases hleft
  · intro hall entry hentry
    by_contra hleft
    rw [Bool.not_eq_true] at hleft
    have hgone := hall (h.ids_eq ▸ List.mem_map_of_mem hentry : entry.moduleId ∈ moduleIds artifacts)
    rw [Set.mem_ofPred_eq, pending_iff.2 ⟨entry, hentry, hleft, rfl⟩] at hgone
    cases hgone

end Rounds

/-! ## Validation -/

/-- What the dependencies of a manifest have to be. -/
structure EdgesValid (artifacts : List LoadedArtifact) : Prop where
  sorted : ∀ artifact ∈ artifacts,
    (artifact.dependencies.map GenerationDependency.moduleId).Pairwise (· < ·)
  known : ∀ artifact ∈ artifacts, ∀ dependency ∈ artifact.dependencies, ∃ target ∈ artifacts,
    target.contract.moduleId = dependency.moduleId ∧
      target.expectedArtifactDigest = dependency.artifactDigest
  others : ∀ artifact ∈ artifacts, ∀ dependency ∈ artifact.dependencies,
    artifact.contract.moduleId ≠ dependency.moduleId
  acyclic : ∀ module, ¬ TransGen (DependsOn artifacts) module module

section Validation

variable {blake3 : Blake3} {artifacts : List LoadedArtifact}

theorem artifactDependenciesValid_iff (hordered : modulesGrow (moduleIds artifacts) = true)
    (artifact : LoadedArtifact) : artifactDependenciesValid blake3 artifacts artifact = true ↔
      (artifact.dependencies.map GenerationDependency.moduleId).Pairwise (· < ·) ∧
      (∀ dependency ∈ artifact.dependencies,
        artifact.contract.moduleId ≠ dependency.moduleId ∧ ∃ target ∈ artifacts,
          target.contract.moduleId = dependency.moduleId ∧
            target.expectedArtifactDigest = dependency.artifactDigest) ∧
      dependencyFingerprint blake3 artifact.dependencies = artifact.contract.dependencyFingerprint := by
  have hfind : ∀ dependency : GenerationDependency,
      ((findArtifact artifacts dependency.moduleId).any fun target =>
        decide (target.expectedArtifactDigest = dependency.artifactDigest)) = true ↔
      ∃ target ∈ artifacts, target.contract.moduleId = dependency.moduleId ∧
        target.expectedArtifactDigest = dependency.artifactDigest := by
    intro dependency
    rw [Option.any_eq_true]
    constructor
    · rintro ⟨target, hfound, hdigest⟩
      obtain ⟨hmem, hid⟩ := (findById_eq_some (modulesGrow_iff.1 hordered)).1 hfound
      exact ⟨target, hmem, hid, of_decide_eq_true hdigest⟩
    · rintro ⟨target, hmem, hid, hdigest⟩
      exact ⟨target, (findById_eq_some (modulesGrow_iff.1 hordered)).2 ⟨hmem, hid⟩, decide_eq_true hdigest⟩
  rw [artifactDependenciesValid, Bool.and_eq_true, Bool.and_eq_true, modulesGrow_iff,
    decide_eq_true_iff, List.all_eq_true, and_assoc]
  simp only [Bool.and_eq_true, decide_eq_true_iff, hfind]

theorem wellLinked_of_valid (hordered : modulesGrow (moduleIds artifacts) = true)
    (h : artifacts.all (artifactDependenciesValid blake3 artifacts) = true) : WellLinked artifacts := by
  have hvalid := fun artifact hartifact =>
    (artifactDependenciesValid_iff hordered artifact).1 (List.all_eq_true.1 h artifact hartifact)
  refine ⟨nodup_of_grow hordered, fun artifact hartifact =>
    nodup_of_grow (modulesGrow_iff.2 (hvalid artifact hartifact).1),
    fun artifact hartifact dependency hdependency => ?_⟩
  obtain ⟨-, target, htarget, heq, -⟩ := (hvalid artifact hartifact).2.1 dependency hdependency
  exact heq ▸ List.mem_map_of_mem htarget

theorem removeRounds_initial (hlinked : WellLinked artifacts)
    (hfit : ∀ artifact ∈ artifacts, artifact.dependencies.length < 2 ^ 64) :
    Counted artifacts (removeRounds (artifacts.length + 1) (initialRemovals artifacts)) ∧
      Stuck (removeRounds (artifacts.length + 1) (initialRemovals artifacts)) ∧
      ∀ more, removeRounds (artifacts.length + 1 + more) (initialRemovals artifacts) =
        removeRounds (artifacts.length + 1) (initialRemovals artifacts) := by
  refine removeRounds_stuck hlinked _ (counted_initial hlinked hfit) ?_
  rw [initialRemovals, List.length_map]
  omega

end Validation

/-- **Dependency validation.** A manifest is accepted when its edges are sorted, lead to other
artifacts of the manifest with the digests that they have, and do not come round, and every contract
names the fingerprint of the dependencies that are listed. The rounds come to an end, and no counter is
lowered below zero on the way. -/
theorem dependency_validation (blake3 : Blake3) (artifacts : List LoadedArtifact)
    (hordered : modulesGrow (artifacts.map fun artifact => artifact.contract.moduleId) = true)
    (hfit : ∀ artifact ∈ artifacts, artifact.dependencies.length < 2 ^ 64) :
    (dependenciesValid blake3 artifacts = true ↔ EdgesValid artifacts ∧
      ∀ artifact ∈ artifacts, dependencyFingerprint blake3 artifact.dependencies =
        artifact.contract.dependencyFingerprint) ∧
    (artifacts.all (artifactDependenciesValid blake3 artifacts) = true →
      (∀ more, removeRounds (artifacts.length + 1 + more) (initialRemovals artifacts) =
        removeRounds (artifacts.length + 1) (initialRemovals artifacts)) ∧
      ∀ entries, Peeling artifacts entries → ∀ entry ∈ entries, ∀ dependent ∈ entries,
        entry.removed = false → dependent.removed = false →
        entry.moduleId ∈ dependent.dependencyIds → dependent.remaining ≠ 0) := by
  have hrounds : artifacts.all (artifactDependenciesValid blake3 artifacts) = true →
      ((removeRounds (artifacts.length + 1) (initialRemovals artifacts)).all Removal.removed = true ↔
        ∀ module, ¬ TransGen (DependsOn artifacts) module module) := by
    intro hfirst
    have hlinked := wellLinked_of_valid hordered hfirst
    obtain ⟨hcounted, hstuck, -⟩ := removeRounds_initial hlinked hfit
    exact hcounted.all_removed_iff hlinked hstuck
  refine ⟨?_, fun hfirst => ?_⟩
  · change (_ && (removeRounds (artifacts.length + 1) (initialRemovals artifacts)).all
      Removal.removed) = true ↔ _
    rw [Bool.and_eq_true]
    constructor
    · rintro ⟨hfirst, hremoved⟩
      have hvalid := fun artifact hartifact => (artifactDependenciesValid_iff hordered artifact).1
        (List.all_eq_true.1 hfirst artifact hartifact)
      refine ⟨⟨fun artifact hartifact => (hvalid artifact hartifact).1,
        fun artifact hartifact dependency hdependency =>
          ((hvalid artifact hartifact).2.1 dependency hdependency).2,
        fun artifact hartifact dependency hdependency =>
          ((hvalid artifact hartifact).2.1 dependency hdependency).1, (hrounds hfirst).1 hremoved⟩,
        fun artifact hartifact => (hvalid artifact hartifact).2.2⟩
    · rintro ⟨⟨hsorted, hknown, hothers, hacyclic⟩, hfingerprint⟩
      have hfirst : artifacts.all (artifactDependenciesValid blake3 artifacts) = true :=
        List.all_eq_true.2 fun artifact hartifact =>
          (artifactDependenciesValid_iff hordered artifact).2 ⟨hsorted artifact hartifact,
            fun dependency hdependency => ⟨hothers artifact hartifact dependency hdependency,
              hknown artifact hartifact dependency hdependency⟩, hfingerprint artifact hartifact⟩
      exact ⟨hfirst, (hrounds hfirst).2 hacyclic⟩
  · have hlinked := wellLinked_of_valid hordered hfirst
    refine ⟨(removeRounds_initial hlinked hfit).2.2, fun entries hentries entry hentry dependent
      hdependent hleft hother hdepends => ?_⟩
    exact (hentries.counted hlinked hfit).remaining_ne_zero hentry hleft hdependent hother hdepends

/-- An artifact that names no file and has the dependencies that are listed. -/
def artifactOf (moduleId : Id128) (dependencies : List GenerationDependency) : LoadedArtifact where
  module := ⟨moduleId, 0, 0, 0, 0, 0, 0, 0⟩
  path := ⟨[], List.not_mem_nil⟩
  contract := { moduleId }
  expectedArtifactDigest := 0
  dependencies
  flags := 0

theorem dependency_validation_pair :
    (dependenciesValid (fun _ => 0) [artifactOf 1 [], artifactOf 2 [⟨1, 0⟩]] = true ↔
      EdgesValid [artifactOf 1 [], artifactOf 2 [⟨1, 0⟩]] ∧
      ∀ artifact ∈ [artifactOf 1 [], artifactOf 2 [⟨1, 0⟩]],
        dependencyFingerprint (fun _ => 0) artifact.dependencies =
          artifact.contract.dependencyFingerprint) ∧
    dependenciesValid (fun _ => 0) [artifactOf 1 [], artifactOf 2 [⟨1, 0⟩]] = true :=
  ⟨(dependency_validation (fun _ => 0) [artifactOf 1 [], artifactOf 2 [⟨1, 0⟩]] (by decide)
    (by decide)).1, by decide⟩

/-- A contract that does not name the fingerprint of its dependencies. -/
theorem dependency_validation_unnamed :
    ¬ (dependenciesValid (fun _ => 1) [artifactOf 1 []] = true ↔ EdgesValid [artifactOf 1 []]) := by
  have hinvalid : dependenciesValid (fun _ => 1) [artifactOf 1 []] = false := by decide
  have hedges : EdgesValid [artifactOf 1 []] := by
    have hnone : ∀ artifact ∈ [artifactOf 1 []], artifact.dependencies = [] := by
      intro artifact hartifact
      rw [List.mem_singleton.1 hartifact]
      rfl
    refine ⟨fun artifact hartifact => ?_, fun artifact hartifact dependency hdependency => ?_,
      fun artifact hartifact dependency hdependency => ?_, fun module hcycle => ?_⟩
    · rw [hnone artifact hartifact]
      exact .nil
    · rw [hnone artifact hartifact] at hdependency
      cases hdependency
    · rw [hnone artifact hartifact] at hdependency
      cases hdependency
    · obtain ⟨dependency, ⟨artifact, hartifact, -, hdependency⟩, -⟩ := TransGen.head'_iff.1 hcycle
      rw [hnone artifact hartifact] at hdependency
      cases hdependency
  rw [hinvalid]
  exact fun h => Bool.false_ne_true (h.2 hedges)

end Laplace.Perfcache
