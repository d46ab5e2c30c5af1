import Laplace.Lib.Runs
import Laplace.Unicode.SortKey

/-!
# Canonical decomposition and ordering (unicode_ducet.cpp:480-561)

Decomposition replaces positions by their canonical mappings until none is left; ordering sorts the
marks between two starters by their classes. Both are stated apart from the loops, and what
`NormalizeNfd` returns is the one after the other.
-/

namespace Laplace.Unicode

open Runs

/-! ## Specification -/

def Hangul (position : ℕ) : Prop := hangulBase ≤ position ∧ position ≤ hangulLast

instance : DecidablePred Hangul := fun _ => inferInstanceAs (Decidable (_ ∧ _))

/-- The canonical mapping of a Hangul syllable. -/
def hangulParts (position : ℕ) : PositionSequence :=
  let syllable := position - hangulBase
  let trailing := syllable % 28
  [0x1100 + syllable / (21 * 28), 0x1161 + syllable % (21 * 28) / 28] ++
    if trailing ≠ 0 then [0x11a7 + trailing] else []

/-- The positions in the decomposition field of a record. -/
def decompositionField (core : CoreTable) (position : ℕ) : PositionSequence :=
  match core position with
  | none => []
  | some record => readPositions (record.fields 6)

/-- What a position is canonically replaced by. -/
def canonicalMapping (core : CoreTable) (position : ℕ) : PositionSequence :=
  if Hangul position then hangulParts position
  else decompositionField core position

/-- Positions are replaced, from the front on, as long as they have a mapping. -/
inductive FullyDecomposes (core : CoreTable) : PositionSequence → PositionSequence → Prop
  | nil : FullyDecomposes core [] []
  | keep {position : ℕ} {rest decomposed : PositionSequence}
    (none : canonicalMapping core position = []) (next : FullyDecomposes core rest decomposed) :
    FullyDecomposes core (position :: rest) (position :: decomposed)
  | replace {position : ℕ} {rest decomposed : PositionSequence}
    (some : canonicalMapping core position ≠ [])
    (next : FullyDecomposes core (canonicalMapping core position ++ rest) decomposed) :
    FullyDecomposes core (position :: rest) decomposed

/-- The class of a position, 0 for a starter. -/
def combiningClass (core : CoreTable) (position : ℕ) : ℕ :=
  (canonicalCombiningClass core position).getD 0

def Jamo (position : ℕ) : Prop :=
  0x1100 ≤ position ∧ position ≤ 0x1112 ∨ 0x1161 ≤ position ∧ position ≤ 0x1175 ∨
    0x11a8 ≤ position ∧ position ≤ 0x11c2

/-- A core table: every position has a record with a class and a list of positions as its
decomposition. The decompositions are acyclic, no chain of them is longer than 64, and conjoining
jamo have none. -/
structure CanonicalTable (core : CoreTable) : Prop where
  record : ∀ position < rootPopulation, ∃ record, core position = some record ∧
    (∃ value, record.fields 2 = [value]) ∧ (record.fields 6).length % 4 = 0
  within : ∀ position < rootPopulation, ∀ child ∈ decompositionField core position,
    child < rootPopulation
  acyclic : ∃ rank : ℕ → ℕ, ∀ position < rootPopulation, rank position ≤ 64 ∧
    (¬ Hangul position → ∀ child ∈ decompositionField core position, rank child < rank position)
  jamo : ∀ position, Jamo position → decompositionField core position = []

/-- Positions that the table has. -/
def InPopulation (sequence : PositionSequence) : Prop :=
  ∀ position ∈ sequence, position < rootPopulation

/-! ## The decomposition of a position -/

/-- What `AppendCanonicalDecomposition` appends. -/
def decomposition (core : CoreTable) (position : ℕ) : PositionSequence :=
  (appendCanonicalDecomposition core 65 position).getD []

variable {core : CoreTable}

theorem mapM_eq_map {α β : Type} {f : α → Option β} {g : α → β} : ∀ {l : List α},
    (∀ a ∈ l, f a = some (g a)) → l.mapM f = some (l.map g)
  | [], _ => rfl
  | a :: l, h => by
    rw [List.mapM_cons, h a List.mem_cons_self, mapM_eq_map fun b hb => h b (List.mem_cons_of_mem a hb)]
    rfl

theorem readPositions_eq_nil_iff {payload : List UInt8} (h : payload.length % 4 = 0) :
    readPositions payload = [] ↔ payload = [] := by
  match payload, h with
  | [], _ => exact ⟨fun _ => rfl, fun _ => rfl⟩
  | [_], h => simp at h
  | [_, _], h => simp at h
  | [_, _, _], h => simp at h
  | _ :: _ :: _ :: _ :: _, _ => simp [readPositions]

theorem FullyDecomposes.append {x y dx dy : PositionSequence} (hx : FullyDecomposes core x dx)
    (hy : FullyDecomposes core y dy) : FullyDecomposes core (x ++ y) (dx ++ dy) := by
  induction hx with
  | nil => exact hy
  | keep hnone _ ih => exact .keep hnone ih
  | @replace position rest decomposed hsome _ ih =>
    rw [List.append_assoc] at ih
    exact .replace hsome ih

variable {sequence : PositionSequence}

theorem FullyDecomposes.flatMap {f : ℕ → PositionSequence}
    (h : ∀ position ∈ sequence, FullyDecomposes core [position] (f position)) :
    FullyDecomposes core sequence (sequence.flatMap f) := by
  induction sequence with
  | nil => exact .nil
  | cons position sequence ih =>
    exact (h position List.mem_cons_self).append
      (ih fun p hp => h p (List.mem_cons_of_mem position hp))

theorem FullyDecomposes.unique {d d' : PositionSequence} (h : FullyDecomposes core sequence d)
    (h' : FullyDecomposes core sequence d') : d = d' := by
  induction h generalizing d' with
  | nil => cases h'; rfl
  | keep hnone _ ih =>
    cases h' with
    | keep _ next => rw [ih next]
    | replace hsome _ => exact absurd hnone hsome
  | replace hsome _ ih =>
    cases h' with
    | keep hnone _ => exact absurd hnone hsome
    | replace _ next => exact ih next

/-- A position that is decomposed. -/
def Decomposed (core : CoreTable) (position : ℕ) : Prop :=
  position < rootPopulation ∧ canonicalMapping core position = []

variable {position : ℕ}

theorem hangulParts_decomposed (h : CanonicalTable core) (hlast : position ≤ hangulLast) :
    ∀ part ∈ hangulParts position, Decomposed core part := by
  have hjamo {part : ℕ} (hpart : Jamo part) : Decomposed core part := by
    have hbelow : part < hangulBase := by
      unfold Jamo at hpart
      unfold hangulBase
      omega
    refine ⟨hbelow.trans (by decide), ?_⟩
    rw [canonicalMapping, if_neg fun hhangul => Nat.not_lt.2 hhangul.1 hbelow, h.jamo part hpart]
  have hsyllable : position - hangulBase < 19 * (21 * 28) := by
    unfold hangulLast at hlast
    unfold hangulBase
    omega
  intro part hpart
  refine hjamo ?_
  simp only [hangulParts, List.mem_append, List.mem_cons, List.not_mem_nil, or_false] at hpart
  unfold Jamo
  rcases hpart with (rfl | rfl) | hpart
  · omega
  · omega
  · split at hpart
    · rw [List.mem_singleton] at hpart
      omega
    · exact absurd hpart List.not_mem_nil

theorem fullyDecomposes_self {parts : PositionSequence}
    (hparts : ∀ part ∈ parts, Decomposed core part) : FullyDecomposes core parts parts := by
  have hflat := FullyDecomposes.flatMap fun part hpart => .keep (hparts part hpart).2 .nil
  rwa [List.flatMap_singleton'] at hflat

theorem append_record {record : CoreRecord} (h : ¬ Hangul position)
    (hrecord : core position = some record) (fuel : ℕ) :
    appendCanonicalDecomposition core (fuel + 1) position = if record.fields 6 = [] then some [position]
      else if (record.fields 6).length % 4 ≠ 0 then none
      else do
        let parts ← (readPositions (record.fields 6)).mapM fun child =>
          if child ≥ rootPopulation then none else appendCanonicalDecomposition core fuel child
        return parts.flatten := by
  refine (if_neg h).trans ?_
  rw [hrecord]

theorem append_spec (h : CanonicalTable core) {rank : ℕ → ℕ}
    (hrank : ∀ position < rootPopulation, ¬ Hangul position →
      ∀ child ∈ decompositionField core position, rank child < rank position) (bound : ℕ) :
    ∀ position, rank position < bound → position < rootPopulation → ∃ d, (∀ fuel, rank position < fuel →
          appendCanonicalDecomposition core fuel position = some d) ∧
        FullyDecomposes core [position] d ∧ ∀ part ∈ d, Decomposed core part := by
  induction bound with
  | zero => exact fun _ hlt => absurd hlt (Nat.not_lt_zero _)
  | succ bound ih =>
    intro position hlt hposition
    by_cases hhangul : Hangul position
    · have hmapping : canonicalMapping core position = hangulParts position := if_pos hhangul
      have hparts := hangulParts_decomposed h hhangul.2
      refine ⟨hangulParts position, fun fuel hfuel => ?_, ?_, hparts⟩
      · obtain ⟨fuel, rfl⟩ := Nat.exists_eq_add_of_lt hfuel
        exact if_pos hhangul
      · refine .replace (by rw [hmapping]; simp [hangulParts]) ?_
        rw [hmapping, List.append_nil]
        exact fullyDecomposes_self hparts
    obtain ⟨record, hrecord, -, hpayload⟩ := h.record position hposition
    have hfield : decompositionField core position = readPositions (record.fields 6) := by
      rw [decompositionField, hrecord]
    have hmapping : canonicalMapping core position = readPositions (record.fields 6) :=
      (if_neg hhangul).trans hfield
    have hchildren := hrank position hposition hhangul
    have hwithin := h.within position hposition
    rw [hfield] at hchildren hwithin
    by_cases hnil : record.fields 6 = []
    · have hnone : canonicalMapping core position = [] := by
        rw [hmapping, hnil]
        rfl
      refine ⟨[position], fun fuel hfuel => ?_, .keep hnone .nil, fun part hpart => ?_⟩
      · obtain ⟨fuel, rfl⟩ := Nat.exists_eq_add_of_lt hfuel
        refine (append_record hhangul hrecord _).trans ?_
        exact if_pos hnil
      · rw [List.mem_singleton.1 hpart]
        exact ⟨hposition, hnone⟩
    · have hne : canonicalMapping core position ≠ [] := fun hnone =>
        hnil ((readPositions_eq_nil_iff hpayload).1 (hmapping.symm.trans hnone))
      have hparts : ∀ child, ∃ d, child ∈ readPositions (record.fields 6) →
          (∀ fuel, rank child < fuel → appendCanonicalDecomposition core fuel child = some d) ∧
            FullyDecomposes core [child] d ∧ ∀ part ∈ d, Decomposed core part := by
        intro child
        by_cases hmem : child ∈ readPositions (record.fields 6)
        · obtain ⟨d, hd⟩ := ih child ((hchildren child hmem).trans_le (Nat.le_of_lt_succ hlt))
            (hwithin child hmem)
          exact ⟨d, fun _ => hd⟩
        · exact ⟨[], fun hin => absurd hin hmem⟩
      choose parts hparts using hparts
      refine ⟨(readPositions (record.fields 6)).flatMap parts, fun fuel hfuel => ?_, ?_,
        fun part hpart => ?_⟩
      · obtain ⟨fuel, rfl⟩ := Nat.exists_eq_add_of_lt hfuel
        rw [append_record hhangul hrecord, if_neg hnil, if_neg (not_not.2 hpayload),
          mapM_eq_map (g := parts) fun child hmem => ?_]
        · rfl
        · rw [if_neg (Nat.not_le_of_lt (hwithin child hmem))]
          exact (hparts child hmem).1 _ ((hchildren child hmem).trans_le (by omega))
      · refine .replace hne ?_
        rw [hmapping, List.append_nil]
        exact .flatMap fun child hmem => (hparts child hmem).2.1
      · obtain ⟨child, hmem, hpart⟩ := List.mem_flatMap.1 hpart
        exact (hparts child hmem).2.2 part hpart

theorem decomposition_spec (h : CanonicalTable core) (hposition : position < rootPopulation) :
    appendCanonicalDecomposition core 65 position = some (decomposition core position) ∧
      FullyDecomposes core [position] (decomposition core position) ∧
      ∀ part ∈ decomposition core position, Decomposed core part := by
  obtain ⟨rank, hrank⟩ := h.acyclic
  obtain ⟨d, happend, hd⟩ := append_spec h (fun p hp => (hrank p hp).2) 65 position
    (Nat.lt_succ_of_le (hrank position hposition).1) hposition
  have hsome := happend 65 (Nat.lt_succ_of_le (hrank position hposition).1)
  have heq : decomposition core position = d := by rw [decomposition, hsome, Option.getD_some]
  rw [heq]
  exact ⟨hsome, hd⟩

theorem mem_place {p : ℕ} : ∀ {before : PositionSequence},
    p ∈ place (combiningClass core) position before → p = position ∨ p ∈ before
  | [], hp => .inl (List.mem_singleton.1 hp)
  | previous :: before, hp => by
    unfold place at hp
    split at hp
    · exact List.mem_cons.1 hp
    · rcases List.mem_cons.1 hp with rfl | hp
      · exact .inr List.mem_cons_self
      · exact (mem_place hp).imp id (List.mem_cons_of_mem previous)

/-! ## The decomposition of a sequence -/

section Sequences

variable (h : CanonicalTable core)
include h

variable {sequence : PositionSequence}

theorem fullyDecomposes_flatMap (hs : InPopulation sequence) :
    FullyDecomposes core sequence (sequence.flatMap (decomposition core)) :=
  .flatMap fun position hposition => (decomposition_spec h (hs position hposition)).2.1

theorem decomposed_flatMap (hs : InPopulation sequence) :
    ∀ part ∈ sequence.flatMap (decomposition core), Decomposed core part := by
  intro part hpart
  obtain ⟨position, hposition, hpart⟩ := List.mem_flatMap.1 hpart
  exact (decomposition_spec h (hs position hposition)).2.2 part hpart

theorem flatMap_eq_of_fullyDecomposes {d : PositionSequence} (hs : InPopulation sequence)
    (hd : FullyDecomposes core sequence d) : sequence.flatMap (decomposition core) = d :=
  (fullyDecomposes_flatMap h hs).unique hd

theorem flatMap_mapping {position : ℕ} (hposition : position < rootPopulation)
    (hsome : canonicalMapping core position ≠ []) : InPopulation (canonicalMapping core position) ∧
      (canonicalMapping core position).flatMap (decomposition core) = decomposition core position := by
  have hin : InPopulation (canonicalMapping core position) := by
    intro child hchild
    unfold canonicalMapping at hchild
    split at hchild
    · rename_i hhangul
      exact (hangulParts_decomposed h hhangul.2 child hchild).1
    · exact h.within position hposition child hchild
  refine ⟨hin, flatMap_eq_of_fullyDecomposes h hin ?_⟩
  have hfull := (decomposition_spec h hposition).2.1
  generalize decomposition core position = d at hfull ⊢
  cases hfull with
  | keep hnone _ => exact absurd hnone hsome
  | replace _ next => rwa [List.append_nil] at next

theorem flatMap_decomposed {parts : PositionSequence} (hparts : ∀ part ∈ parts, Decomposed core part) :
    parts.flatMap (decomposition core) = parts :=
  flatMap_eq_of_fullyDecomposes h (fun part hpart => (hparts part hpart).1)
    (fullyDecomposes_self hparts)

/-! ## The order of the marks -/

theorem canonicalCombiningClass_eq {position : ℕ} (hposition : position < rootPopulation) :
    canonicalCombiningClass core position = some (combiningClass core position) := by
  obtain ⟨record, hrecord, ⟨value, hvalue⟩, -⟩ := h.record position hposition
  have hclass : canonicalCombiningClass core position = some value.toNat := by
    rw [canonicalCombiningClass, hrecord]
    dsimp only
    rw [hvalue]
  rw [combiningClass, hclass, Option.getD_some]

theorem insertMark_eq (position : ℕ) : ∀ {before : PositionSequence}, InPopulation before →
    insertMark core position (combiningClass core position) before =
      some (place (combiningClass core) position before)
  | [], _ => rfl
  | previous :: before, hbefore => by
    have hprevious := canonicalCombiningClass_eq h (hbefore previous List.mem_cons_self)
    unfold insertMark place
    rw [hprevious]
    dsimp only
    split
    · rfl
    · rw [insertMark_eq position fun p hp => hbefore p (List.mem_cons_of_mem previous hp)]
      rfl

theorem orderMarks_eq : ∀ {rest before : PositionSequence}, InPopulation before →
    InPopulation rest → orderMarks core before rest = some (arrange (combiningClass core) before rest)
  | [], before, _, _ => by rw [orderMarks, arrange]
  | position :: rest, [], _, hrest => by
    have hposition := hrest position List.mem_cons_self
    have hrest' : InPopulation rest := fun p hp => hrest p (List.mem_cons_of_mem position hp)
    have hfirst : arrange (combiningClass core) [] (position :: rest) =
        arrange (combiningClass core) [position] rest := by
      rw [arrange, place, ite_self]
    rw [orderMarks, hfirst]
    exact orderMarks_eq (fun p hp => List.mem_singleton.1 hp ▸ hposition) hrest'
  | position :: rest, previous :: before, hbefore, hrest => by
    have hposition := hrest position List.mem_cons_self
    have hrest' : InPopulation rest := fun p hp => hrest p (List.mem_cons_of_mem position hp)
    rw [orderMarks, canonicalCombiningClass_eq h hposition, arrange]
    dsimp only
    split
    · refine orderMarks_eq (fun p hp => ?_) hrest'
      rcases List.mem_cons.1 hp with rfl | hp
      · exact hposition
      · exact hbefore p hp
    · rw [insertMark_eq h position hbefore]
      refine orderMarks_eq (fun p hp => ?_) hrest'
      rcases mem_place hp with rfl | hp
      · exact hposition
      · exact hbefore p hp

/-- **What `NormalizeNfd` returns.** -/
theorem normalizeNfd_eq (hs : InPopulation sequence) : normalizeNfd core sequence =
      some (arrange (combiningClass core) [] (sequence.flatMap (decomposition core))) := by
  unfold normalizeNfd
  rw [mapM_eq_map (g := decomposition core) fun position hposition => ?_]
  · have hparts := decomposed_flatMap h hs
    show orderMarks core [] (sequence.map (decomposition core)).flatten = _
    rw [← List.flatMap_def]
    exact orderMarks_eq h (fun p hp => absurd hp List.not_mem_nil) fun p hp => (hparts p hp).1
  · rw [if_neg (Nat.not_le_of_lt (hs position hposition))]
    exact (decomposition_spec h (hs position hposition)).1

end Sequences

/-! ## Canonical equivalence -/

/-- Sequences that normalize to the same have the same key. -/
def SameKey (core : CoreTable) (sequence sequence' : PositionSequence) : Prop :=
  ∀ table alternateHandling,
    (calculateCollation table core sequence alternateHandling).map CalculatedCollation.key =
      (calculateCollation table core sequence' alternateHandling).map CalculatedCollation.key

theorem sameKey_of_normalizeNfd {sequence' : PositionSequence}
    (h : normalizeNfd core sequence = normalizeNfd core sequence') : SameKey core sequence sequence' := by
  intro table alternateHandling
  unfold calculateCollation
  rw [h]
  rcases normalizeNfd core sequence' with _ | normalized
  · rfl
  · simp only [Option.bind_eq_bind, Option.bind_some]
    rcases produceCollationElements table core normalized with _ | ⟨elements, usedImplicit⟩
    · rfl
    · simp only [Option.bind_some]
      rcases formSortKey normalized elements alternateHandling with _ | key
      · rfl
      · simp only [Option.bind_some]
        split <;> rfl

/-- What normalization does on a core table. -/
structure CanonicalNormalization (core : CoreTable) : Prop where
  returns : ∀ sequence, InPopulation sequence → ∃ decomposed normalized,
    FullyDecomposes core sequence decomposed ∧
      Sorts (combiningClass core) decomposed normalized ∧
      normalizeNfd core sequence = some normalized
  idempotent : ∀ sequence normalized, InPopulation sequence →
    normalizeNfd core sequence = some normalized → normalizeNfd core normalized = some normalized
  concatenates : ∀ x y nx ny, InPopulation x → InPopulation y → normalizeNfd core x = some nx →
    normalizeNfd core y = some ny → normalizeNfd core (x ++ y) = normalizeNfd core (nx ++ ny)
  replaces : ∀ x position parts y, InPopulation (x ++ position :: y) →
    (parts = canonicalMapping core position ∧ parts ≠ [] ∨ FullyDecomposes core [position] parts) →
      normalizeNfd core (x ++ position :: y) = normalizeNfd core (x ++ parts ++ y) ∧
        SameKey core (x ++ position :: y) (x ++ parts ++ y)
  swaps : ∀ x p q dp dq y, InPopulation (x ++ p :: q :: y) → FullyDecomposes core [p] dp →
    FullyDecomposes core [q] dq → (∀ part ∈ dp ++ dq, combiningClass core part ≠ 0) →
    (∀ part ∈ dp, ∀ part' ∈ dq, combiningClass core part ≠ combiningClass core part') →
      normalizeNfd core (x ++ p :: q :: y) = normalizeNfd core (x ++ q :: p :: y) ∧
        SameKey core (x ++ p :: q :: y) (x ++ q :: p :: y)

section Equivalence

variable (h : CanonicalTable core)
include h

theorem normalizeNfd_congr {s s' : PositionSequence} (hs : InPopulation s) (hs' : InPopulation s')
    (hsame : Same (combiningClass core) (s.flatMap (decomposition core))
      (s'.flatMap (decomposition core))) : normalizeNfd core s = normalizeNfd core s' := by
  rw [normalizeNfd_eq h hs, normalizeNfd_eq h hs', hsame.arrange_eq]

theorem decomposed_normalizeNfd {s normalized : PositionSequence} (hs : InPopulation s)
    (hn : normalizeNfd core s = some normalized) :
    Same (combiningClass core) (s.flatMap (decomposition core)) normalized ∧
      ∀ part ∈ normalized, Decomposed core part := by
  rw [normalizeNfd_eq h hs] at hn
  obtain rfl := Option.some.inj hn
  have hsame := @same_arrange _ (combiningClass core) (s.flatMap (decomposition core))
  exact ⟨hsame, fun part hpart => decomposed_flatMap h hs part ((hsame.mem_iff part).2 hpart)⟩

/-- **Canonical decomposition and ordering.** -/
theorem normalizeNfd_canonical : CanonicalNormalization core where
  returns s hs :=
    ⟨_, _, fullyDecomposes_flatMap h hs, sorts_iff.2 rfl, normalizeNfd_eq h hs⟩
  idempotent s normalized hs hn := by
    obtain ⟨hsame, hdecomposed⟩ := decomposed_normalizeNfd h hs hn
    rw [← hn]
    refine normalizeNfd_congr h (fun p hp => (hdecomposed p hp).1) hs ?_
    rw [flatMap_decomposed h hdecomposed]
    exact hsame.symm
  concatenates x y nx ny hx hy hnx hny := by
    obtain ⟨hsamex, hdx⟩ := decomposed_normalizeNfd h hx hnx
    obtain ⟨hsamey, hdy⟩ := decomposed_normalizeNfd h hy hny
    have hin : InPopulation (x ++ y) := fun p hp => (List.mem_append.1 hp).elim (hx p) (hy p)
    have hnin : InPopulation (nx ++ ny) := fun p hp =>
      (List.mem_append.1 hp).elim (fun hp => (hdx p hp).1) fun hp => (hdy p hp).1
    refine normalizeNfd_congr h hin hnin ?_
    rw [List.flatMap_append, List.flatMap_append, flatMap_decomposed h hdx, flatMap_decomposed h hdy]
    exact hsamex.append hsamey
  replaces x position parts y hin hparts := by
    have hposition : position < rootPopulation :=
      hin position (List.mem_append_right x List.mem_cons_self)
    have hflat : InPopulation parts ∧
        parts.flatMap (decomposition core) = decomposition core position := by
      rcases hparts with ⟨rfl, hsome⟩ | hfull
      · exact flatMap_mapping h hposition hsome
      · obtain ⟨-, hspec, hdecomposed⟩ := decomposition_spec h hposition
        obtain rfl := hspec.unique hfull
        exact ⟨fun part hpart => (hdecomposed part hpart).1, flatMap_decomposed h hdecomposed⟩
    have hin' : InPopulation (x ++ parts ++ y) := by
      intro p hp
      rcases List.mem_append.1 hp with hp | hp
      · rcases List.mem_append.1 hp with hp | hp
        · exact hin p (List.mem_append_left _ hp)
        · exact hflat.1 p hp
      · exact hin p (List.mem_append_right x (List.mem_cons_of_mem position hp))
    have heq : normalizeNfd core (x ++ position :: y) = normalizeNfd core (x ++ parts ++ y) := by
      refine normalizeNfd_congr h hin hin' ?_
      rw [List.flatMap_append, List.flatMap_append, List.flatMap_append, List.flatMap_cons, hflat.2,
        List.append_assoc]
      exact .refl _
    exact ⟨heq, sameKey_of_normalizeNfd heq⟩
  swaps x p q dp dq y hin hdp hdq hmarks hdiffer := by
    have hp : p < rootPopulation := hin p (List.mem_append_right x List.mem_cons_self)
    have hq : q < rootPopulation :=
      hin q (List.mem_append_right x (List.mem_cons_of_mem p List.mem_cons_self))
    obtain rfl := (decomposition_spec h hp).2.1.unique hdp
    obtain rfl := (decomposition_spec h hq).2.1.unique hdq
    have hin' : InPopulation (x ++ q :: p :: y) := by
      intro r hr
      refine hin r ?_
      simp only [List.mem_append, List.mem_cons] at hr ⊢
      tauto
    have heq : normalizeNfd core (x ++ p :: q :: y) = normalizeNfd core (x ++ q :: p :: y) := by
      refine normalizeNfd_congr h hin hin' ?_
      simp only [List.flatMap_append, List.flatMap_cons]
      refine Same.append (.refl _) ?_
      rw [← List.append_assoc, ← List.append_assoc]
      exact (Same.comm hmarks hdiffer).append (.refl _)
    exact ⟨heq, sameKey_of_normalizeNfd heq⟩

end Equivalence

/-! ## Two tables -/

/-- A letter that stands for a letter with an accent, the accent, and a dot below. -/
def accentClass (position : ℕ) : UInt8 :=
  if position = 0x0301 then 230 else if position = 0x0323 then 220 else 0

/-- Records with these classes and with a decomposition at one position. -/
def coreWith (decomposed : ℕ) (parts : List UInt8) : CoreTable := fun position =>
  some ⟨fun field => if field = 2 then [accentClass position]
    else if field = 6 ∧ position = decomposed then parts else [], .assignedScalar⟩

theorem decompositionField_coreWith (decomposed : ℕ) (parts : List UInt8) (position : ℕ) :
    decompositionField (coreWith decomposed parts) position =
      if position = decomposed then readPositions parts else [] := by
  by_cases h : position = decomposed
  · simp [decompositionField, coreWith, h]
  · simp [decompositionField, coreWith, h, readPositions]

theorem canonicalTable_coreWith {decomposed : ℕ} {parts : List UInt8}
    (hlength : parts.length % 4 = 0) (hwithin : InPopulation (readPositions parts))
    (hnot : decomposed ∉ readPositions parts) (hjamo : ¬ Jamo decomposed) :
    CanonicalTable (coreWith decomposed parts) where
  record position _ := by
    refine ⟨_, rfl, ⟨_, rfl⟩, ?_⟩
    dsimp only
    rw [if_neg (by decide)]
    split
    · exact hlength
    · rfl
  within position _ child hchild := by
    rw [decompositionField_coreWith] at hchild
    split at hchild
    · exact hwithin child hchild
    · exact absurd hchild List.not_mem_nil
  acyclic := by
    refine ⟨fun position => if position = decomposed then 1 else 0, fun position _ => ⟨?_, ?_⟩⟩
    · dsimp only
      split <;> decide
    · intro _ child hchild
      dsimp only
      rw [decompositionField_coreWith] at hchild
      split at hchild
      · rename_i heq
        have hne : child ≠ decomposed := fun hsame => hnot (hsame ▸ hchild)
        rw [if_pos heq, if_neg hne]
        exact Nat.zero_lt_one
      · exact absurd hchild List.not_mem_nil
  jamo position hposition := by
    rw [decompositionField_coreWith, if_neg]
    rintro rfl
    exact hjamo hposition

/-- The letter with an accent decomposes into the letter and the accent. -/
theorem normalizeNfd_canonical_accent :
    CanonicalNormalization (coreWith 0xe9 [0x65, 0, 0, 0, 0x01, 0x03, 0, 0]) :=
  normalizeNfd_canonical
    (canonicalTable_coreWith (by decide) (by unfold InPopulation; decide) (by decide) (by unfold Jamo; decide))

/-- An accent that decomposes into a letter: it is a mark, but what it stands for is not. -/
theorem normalizeNfd_swap_fails : CanonicalTable (coreWith 0x0301 [0x65, 0, 0, 0]) ∧
      combiningClass (coreWith 0x0301 [0x65, 0, 0, 0]) 0x0301 = 230 ∧
      combiningClass (coreWith 0x0301 [0x65, 0, 0, 0]) 0x0323 = 220 ∧
      normalizeNfd (coreWith 0x0301 [0x65, 0, 0, 0]) [0x0301, 0x0323] ≠
        normalizeNfd (coreWith 0x0301 [0x65, 0, 0, 0]) [0x0323, 0x0301] := by
  refine ⟨canonicalTable_coreWith (by decide) (by unfold InPopulation; decide) (by decide)
    (by unfold Jamo; decide), by decide, by decide, by decide⟩

end Laplace.Unicode
