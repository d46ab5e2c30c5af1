import Laplace.Unicode.Ducet

/-!
# Contractions (UTS #10, steps S2.1 to S2.6)

At each point the longest initial substring with a mapping is extended by the unblocked marks behind
it, and these are taken out of the sequence. The program stops at the first blocked mark instead of
passing over it (unicode_ducet.cpp:710-712): it misses the marks of higher classes behind it.
-/

namespace Laplace.Unicode

variable (table : DucetTable) (core : CoreTable)

/-! ## The specification -/

/-- S2.1: the longest initial substring that has a mapping. -/
structure LongestInitial (remaining : PositionSequence) (count : ℕ) (mapping : Mapping) : Prop where
  pos : 0 < count
  le : count ≤ remaining.length
  found : findMapping table (remaining.take count) = some mapping
  longest : ∀ other, count < other → other ≤ remaining.length →
    findMapping table (remaining.take other) = none

/-- S2.1.1 to S2.1.3: each following mark that is unblocked and extends the match is taken out. The
classes are those of the marks that remain between the match and the mark. -/
inductive Extends : Mapping → PositionSequence → List ℕ → PositionSequence →
    Mapping → PositionSequence → PositionSequence → Prop
  | nil (mapping : Mapping) (matched : PositionSequence) (classes : List ℕ) :
    Extends mapping matched classes [] mapping matched []
  | starter (mapping : Mapping) (matched : PositionSequence) (classes : List ℕ) {position : ℕ}
    {rest : PositionSequence} (hclass : canonicalCombiningClass core position = some 0) :
    Extends mapping matched classes (position :: rest) mapping matched (position :: rest)
  | blocked {mapping mapping' : Mapping} {matched matched' kept rest : PositionSequence}
    {classes : List ℕ} {position cls : ℕ}
    (hclass : canonicalCombiningClass core position = some cls) (hmark : cls ≠ 0)
    (hblocked : cls ∈ classes)
    (hrest : Extends mapping matched (cls :: classes) rest mapping' matched' kept) :
    Extends mapping matched classes (position :: rest) mapping' matched' (position :: kept)
  | extended {mapping extended mapping' : Mapping} {matched matched' kept rest : PositionSequence}
    {classes : List ℕ} {position cls : ℕ}
    (hclass : canonicalCombiningClass core position = some cls) (hmark : cls ≠ 0)
    (hunblocked : cls ∉ classes) (hfound : findMapping table (matched ++ [position]) = some extended)
    (hrest : Extends extended (matched ++ [position]) classes rest mapping' matched' kept) :
    Extends mapping matched classes (position :: rest) mapping' matched' kept
  | passed {mapping mapping' : Mapping} {matched matched' kept rest : PositionSequence}
    {classes : List ℕ} {position cls : ℕ}
    (hclass : canonicalCombiningClass core position = some cls) (hmark : cls ≠ 0)
    (hunblocked : cls ∉ classes) (hnone : findMapping table (matched ++ [position]) = none)
    (hrest : Extends mapping matched (cls :: classes) rest mapping' matched' kept) :
    Extends mapping matched classes (position :: rest) mapping' matched' (position :: kept)

/-- What is taken at a point, and what remains. -/
inductive UtsStep : PositionSequence → Match → PositionSequence → Prop
  | mapped {remaining matched kept : PositionSequence} {count : ℕ} {mapping mapping' : Mapping}
    (hlongest : LongestInitial table remaining count mapping)
    (hextends : Extends table core mapping (remaining.take count) [] (remaining.drop count)
      mapping' matched kept) :
    UtsStep remaining (.mapped matched mapping') kept
  | implicit {position : ℕ} {rest : PositionSequence} {elements : List CollationElement}
    (hnone : ∀ count, 0 < count → count ≤ rest.length + 1 →
      findMapping table ((position :: rest).take count) = none)
    (himplicit : implicitElements table core position = some elements) :
    UtsStep (position :: rest) (.implicit position elements) rest

/-- What the program takes at a point. -/
def ProgramStep : PositionSequence → Match → PositionSequence → Prop
  | [], _, _ => False
  | position :: rest, found, next => matchStep table core position rest = some (found, next)

/-- Rounds of a step until nothing remains. -/
inductive Rounds (step : PositionSequence → Match → PositionSequence → Prop) :
    PositionSequence → List Match → Prop
  | nil : Rounds step [] []
  | cons {remaining next : PositionSequence} {found : Match} {rest : List Match}
    (hstep : step remaining found next) (hrest : Rounds step next rest) :
    Rounds step remaining (found :: rest)

/-! ## Where the program misses a mark -/

/-- Further on among the marks there is an unblocked one that extends the match. -/
inductive Later (matched : PositionSequence) : List ℕ → PositionSequence → Prop
  | here {classes : List ℕ} {position cls : ℕ} {rest : PositionSequence}
    (hclass : canonicalCombiningClass core position = some cls) (hmark : cls ≠ 0)
    (hunblocked : cls ∉ classes) (hfound : findMapping table (matched ++ [position]) ≠ none) :
    Later matched classes (position :: rest)
  | there {classes : List ℕ} {position cls : ℕ} {rest : PositionSequence}
    (hclass : canonicalCombiningClass core position = some cls) (hmark : cls ≠ 0)
    (hnone : cls ∈ classes ∨ findMapping table (matched ++ [position]) = none)
    (hlater : Later matched (cls :: classes) rest) :
    Later matched classes (position :: rest)

/-- A blocked mark stands in front of an unblocked one that extends the match. -/
inductive Hidden : PositionSequence → List ℕ → PositionSequence → Prop
  | blocked {matched rest : PositionSequence} {classes : List ℕ} {position cls : ℕ}
    (hclass : canonicalCombiningClass core position = some cls) (hmark : cls ≠ 0)
    (hblocked : cls ∈ classes) (hlater : Later table core matched (cls :: classes) rest) :
    Hidden matched classes (position :: rest)
  | extended {matched rest : PositionSequence} {classes : List ℕ} {position cls : ℕ}
    (hclass : canonicalCombiningClass core position = some cls) (hmark : cls ≠ 0)
    (hunblocked : cls ∉ classes) (hfound : findMapping table (matched ++ [position]) ≠ none)
    (hhidden : Hidden (matched ++ [position]) classes rest) :
    Hidden matched classes (position :: rest)
  | passed {matched rest : PositionSequence} {classes : List ℕ} {position cls : ℕ}
    (hclass : canonicalCombiningClass core position = some cls) (hmark : cls ≠ 0)
    (hunblocked : cls ∉ classes) (hnone : findMapping table (matched ++ [position]) = none)
    (hhidden : Hidden matched (cls :: classes) rest) :
    Hidden matched classes (position :: rest)

/-- At a point the program misses a mark. -/
def Misses (remaining : PositionSequence) : Prop :=
  ∃ count mapping, LongestInitial table remaining count mapping ∧
    Hidden table core (remaining.take count) [] (remaining.drop count)

/-! ## Normalized sequences -/

/-- In the order of the classes: a mark does not follow one of a higher class. -/
def Follows (before position : ℕ) : Prop :=
  ∃ cls, canonicalCombiningClass core position = some cls ∧
    (cls = 0 ∨ ∃ previous, canonicalCombiningClass core before = some previous ∧ previous ≤ cls)

/-- What normalization makes of a sequence. -/
structure Normalized (sequence : PositionSequence) : Prop where
  range : ∀ position ∈ sequence, position < rootPopulation
  records : ∀ position ∈ sequence, core position ≠ none
  ordered : sequence.IsChain (Follows core)

/-! ## Extending -/

variable {table core}

theorem Extends.length_le {mapping mapping' : Mapping} {matched matched' rest kept : PositionSequence}
    {classes : List ℕ} (h : Extends table core mapping matched classes rest mapping' matched' kept) :
    matched.length ≤ matched'.length := by
  induction h with
  | nil => exact le_rfl
  | starter => exact le_rfl
  | blocked _ _ _ _ ih => exact ih
  | extended _ _ _ _ _ ih =>
    rw [List.length_append] at ih
    exact (Nat.le_add_right _ _).trans ih
  | passed _ _ _ _ _ ih => exact ih

theorem Extends.sublist {mapping mapping' : Mapping} {matched matched' rest kept : PositionSequence}
    {classes : List ℕ} (h : Extends table core mapping matched classes rest mapping' matched' kept) :
    kept.Sublist rest := by
  induction h with
  | nil => exact .slnil
  | starter => exact List.Sublist.refl _
  | blocked _ _ _ _ ih => exact ih.cons_cons _
  | extended _ _ _ _ _ ih => exact ih.cons _
  | passed _ _ _ _ _ ih => exact ih.cons_cons _

theorem Extends.unique {mapping m₁ m₂ : Mapping} {matched s₁ s₂ rest k₁ k₂ : PositionSequence}
    {classes : List ℕ} (h₁ : Extends table core mapping matched classes rest m₁ s₁ k₁)
    (h₂ : Extends table core mapping matched classes rest m₂ s₂ k₂) : m₁ = m₂ ∧ s₁ = s₂ ∧ k₁ = k₂ := by
  induction h₁ generalizing m₂ s₂ k₂ with
  | nil =>
    cases h₂
    exact ⟨rfl, rfl, rfl⟩
  | starter =>
    cases h₂ with
    | starter => exact ⟨rfl, rfl, rfl⟩
    | blocked => grind
    | extended => grind
    | passed => grind
  | blocked hclass hmark hblocked _ ih =>
    cases h₂ with
    | starter => grind
    | blocked hclass' _ _ hrest =>
      cases Option.some.inj (hclass.symm.trans hclass')
      obtain ⟨rfl, rfl, rfl⟩ := ih hrest
      exact ⟨rfl, rfl, rfl⟩
    | extended => grind
    | passed => grind
  | extended hclass hmark hunblocked hfound _ ih =>
    cases h₂ with
    | starter => grind
    | blocked => grind
    | extended _ _ _ hfound' hrest =>
      cases Option.some.inj (hfound.symm.trans hfound')
      exact ih hrest
    | passed => grind
  | passed hclass hmark hunblocked hnone _ ih =>
    cases h₂ with
    | starter => grind
    | blocked => grind
    | extended => grind
    | passed hclass' _ _ _ hrest =>
      cases Option.some.inj (hclass.symm.trans hclass')
      obtain ⟨rfl, rfl, rfl⟩ := ih hrest
      exact ⟨rfl, rfl, rfl⟩

theorem extends_of_not_later (mapping : Mapping) (matched : PositionSequence) :
    ∀ {rest : PositionSequence} {classes : List ℕ},
      (∀ position ∈ rest, ∃ cls, canonicalCombiningClass core position = some cls) →
      ¬ Later table core matched classes rest →
      Extends table core mapping matched classes rest mapping matched rest
  | [], classes, _, _ => .nil mapping matched classes
  | position :: rest, classes, hdefined, hlater => by
    obtain ⟨⟨cls, hclass⟩, hdefined⟩ := List.forall_mem_cons.1 hdefined
    by_cases hmark : cls = 0
    · subst hmark
      exact .starter mapping matched classes hclass
    · by_cases hblocked : cls ∈ classes
      · exact .blocked hclass hmark hblocked (extends_of_not_later mapping matched hdefined
          fun h => hlater (.there hclass hmark (.inl hblocked) h))
      · have hnone : findMapping table (matched ++ [position]) = none := by
          by_contra hfound
          exact hlater (.here hclass hmark hblocked hfound)
        exact .passed hclass hmark hblocked hnone (extends_of_not_later mapping matched hdefined
          fun h => hlater (.there hclass hmark (.inr hnone) h))

theorem Later.length_lt {mapping mapping' : Mapping} {matched matched' rest kept : PositionSequence}
    {classes : List ℕ} (h : Later table core matched classes rest)
    (hextends : Extends table core mapping matched classes rest mapping' matched' kept) :
    matched.length < matched'.length := by
  induction h generalizing kept with
  | here hclass hmark hunblocked hfound =>
    cases hextends with
    | starter => grind
    | blocked => grind
    | extended _ _ _ _ hrest =>
      have hle := hrest.length_le
      rw [List.length_append, List.length_singleton] at hle
      exact hle
    | passed => grind
  | there hclass hmark hnone _ ih =>
    cases hextends with
    | starter => grind
    | blocked hclass' _ _ hrest =>
      cases Option.some.inj (hclass.symm.trans hclass')
      exact ih hrest
    | extended => grind
    | passed hclass' _ _ _ hrest =>
      cases Option.some.inj (hclass.symm.trans hclass')
      exact ih hrest

/-- The blocking class is the highest of the classes passed over, which end at a position. -/
structure Scanned (core : CoreTable) (before blockingClass : ℕ) (classes : List ℕ) : Prop where
  top : (blockingClass = 0 ∧ classes = []) ∨ blockingClass ∈ classes
  le : ∀ cls ∈ classes, cls ≤ blockingClass ∧
    ∃ previous, canonicalCombiningClass core before = some previous ∧ cls ≤ previous

section Scan

variable {before blockingClass position cls : ℕ} {classes : List ℕ}
  (h : Scanned core before blockingClass classes) (hfollows : Follows core before position)
  (hclass : canonicalCombiningClass core position = some cls) (hmark : cls ≠ 0)

include h hfollows hclass hmark

theorem Scanned.le_next : ∀ other ∈ classes, other ≤ cls := by
  intro other hother
  obtain ⟨cls', hclass', horder⟩ := hfollows
  cases Option.some.inj (hclass.symm.trans hclass')
  obtain ⟨previous, hprevious, hle⟩ := horder.resolve_left hmark
  obtain ⟨-, previous', hprevious', hle'⟩ := h.le other hother
  cases Option.some.inj (hprevious.symm.trans hprevious')
  exact hle'.trans hle

theorem Scanned.blocks_iff : blockingClass ≥ cls ↔ cls ∈ classes := by
  refine ⟨fun hge => ?_, fun hmem => (h.le cls hmem).1⟩
  rcases h.top with ⟨rfl, -⟩ | htop
  · omega
  · have hle := h.le_next hfollows hclass hmark _ htop
    rwa [show cls = blockingClass by omega]

theorem Scanned.pass : Scanned core position (max blockingClass cls) (cls :: classes) := by
  have hle := h.le_next hfollows hclass hmark
  have hmax : max blockingClass cls = cls := by
    rcases h.top with ⟨rfl, -⟩ | htop
    · exact Nat.zero_max cls
    · exact max_eq_right (hle _ htop)
  rw [hmax]
  exact ⟨.inr List.mem_cons_self, List.forall_mem_cons.2 ⟨⟨le_rfl, cls, hclass, le_rfl⟩,
    fun other hother => ⟨hle other hother, cls, hclass, hle other hother⟩⟩⟩

theorem Scanned.extend : Scanned core position blockingClass classes :=
  ⟨h.top, fun other hother =>
    ⟨(h.le other hother).1, cls, hclass, h.le_next hfollows hclass hmark other hother⟩⟩

end Scan

theorem Follows.classes {before : ℕ} : ∀ {rest : PositionSequence},
    (before :: rest).IsChain (Follows core) →
    ∀ position ∈ rest, ∃ cls, canonicalCombiningClass core position = some cls
  | [], _ => List.forall_mem_nil _
  | position :: rest, h => by
    obtain ⟨⟨cls, hclass, -⟩, hrest⟩ := List.isChain_cons_cons.1 h
    exact List.forall_mem_cons.2 ⟨⟨cls, hclass⟩, Follows.classes hrest⟩

theorem extendMatch_spec : ∀ {rest matched : PositionSequence} {mapping : Mapping}
    {before blockingClass : ℕ} {classes : List ℕ}, Scanned core before blockingClass classes →
    (before :: rest).IsChain (Follows core) → ∃ mapping' matched' kept,
      extendMatch table core mapping matched blockingClass rest = some (mapping', matched', kept) ∧
      (¬ Hidden table core matched classes rest →
        Extends table core mapping matched classes rest mapping' matched' kept) ∧
      (Hidden table core matched classes rest → ∀ mapping'' matched'' kept'',
        Extends table core mapping matched classes rest mapping'' matched'' kept'' →
          matched'.length < matched''.length)
  | [], matched, mapping, before, blockingClass, classes, _, _ =>
    ⟨mapping, matched, [], rfl, fun _ => .nil mapping matched classes, nofun⟩
  | position :: rest, matched, mapping, before, blockingClass, classes, hscanned, hchain => by
    obtain ⟨hfollows, hrest⟩ := List.isChain_cons_cons.1 hchain
    obtain ⟨cls, hclass, -⟩ := id hfollows
    unfold extendMatch
    rw [hclass]
    dsimp only
    by_cases hmark : cls = 0
    · subst hmark
      rw [if_pos rfl]
      refine ⟨mapping, matched, position :: rest, rfl,
        fun _ => .starter mapping matched classes hclass, fun h => ?_⟩
      cases h with
      | blocked => grind
      | extended => grind
      | passed => grind
    · rw [if_neg hmark]
      have hblocks := hscanned.blocks_iff hfollows hclass hmark
      by_cases hblocked : cls ∈ classes
      · rw [if_pos (hblocks.2 hblocked)]
        refine ⟨mapping, matched, position :: rest, rfl, fun h => ?_, fun h mapping'' matched'' kept''
          hextends => ?_⟩
        · exact .blocked hclass hmark hblocked (extends_of_not_later mapping matched
            (Follows.classes hrest) fun hlater => h (.blocked hclass hmark hblocked hlater))
        · cases h with
          | blocked hclass' _ _ hlater =>
            cases Option.some.inj (hclass.symm.trans hclass')
            cases hextends with
            | starter => grind
            | blocked hclass'' _ _ hextends =>
              cases Option.some.inj (hclass.symm.trans hclass'')
              exact hlater.length_lt hextends
            | extended => grind
            | passed => grind
          | extended => grind
          | passed => grind
      · rw [if_neg (fun h => hblocked (hblocks.1 h))]
        cases hfound : findMapping table (matched ++ [position]) with
        | some extended =>
          obtain ⟨mapping', matched', kept, hrun, hagree, hless⟩ := @extendMatch_spec rest
            (matched ++ [position]) extended position blockingClass classes
            (hscanned.extend hfollows hclass hmark) hrest
          have hsome : findMapping table (matched ++ [position]) ≠ none := by
            rw [hfound]
            exact Option.some_ne_none _
          refine ⟨mapping', matched', kept, hrun, fun h => ?_, fun h mapping'' matched'' kept''
            hextends => ?_⟩
          · exact .extended hclass hmark hblocked hfound
              (hagree fun hhidden => h (.extended hclass hmark hblocked hsome hhidden))
          · cases hextends with
            | starter => grind
            | blocked => grind
            | extended _ _ _ hfound' hextends =>
              cases Option.some.inj (hfound.symm.trans hfound')
              refine hless ?_ _ _ _ hextends
              cases h with
              | blocked => grind
              | extended _ _ _ _ hhidden => exact hhidden
              | passed => grind
            | passed => grind
        | none =>
          obtain ⟨mapping', matched', kept, hrun, hagree, hless⟩ := @extendMatch_spec rest
            matched mapping position (max blockingClass cls) (cls :: classes)
            (hscanned.pass hfollows hclass hmark) hrest
          refine ⟨mapping', matched', position :: kept, by rw [hrun], fun h => ?_,
            fun h mapping'' matched'' kept'' hextends => ?_⟩
          · exact .passed hclass hmark hblocked hfound
              (hagree fun hhidden => h (.passed hclass hmark hblocked hfound hhidden))
          · cases hextends with
            | starter => grind
            | blocked => grind
            | extended => grind
            | passed hclass' _ _ _ hextends =>
              cases Option.some.inj (hclass.symm.trans hclass')
              refine hless ?_ _ _ _ hextends
              cases h with
              | blocked => grind
              | extended => grind
              | passed hclass'' _ _ _ hhidden =>
                cases Option.some.inj (hclass.symm.trans hclass'')
                exact hhidden

theorem Extends.exists : ∀ {rest matched : PositionSequence} {mapping : Mapping} {classes : List ℕ},
    (∀ position ∈ rest, ∃ cls, canonicalCombiningClass core position = some cls) →
    ∃ mapping' matched' kept, Extends table core mapping matched classes rest mapping' matched' kept
  | [], matched, mapping, classes, _ => ⟨mapping, matched, [], .nil mapping matched classes⟩
  | position :: rest, matched, mapping, classes, hdefined => by
    obtain ⟨⟨cls, hclass⟩, hdefined⟩ := List.forall_mem_cons.1 hdefined
    by_cases hmark : cls = 0
    · subst hmark
      exact ⟨mapping, matched, position :: rest, .starter mapping matched classes hclass⟩
    · by_cases hblocked : cls ∈ classes
      · obtain ⟨mapping', matched', kept, h⟩ := Extends.exists hdefined
        exact ⟨mapping', matched', position :: kept, .blocked hclass hmark hblocked h⟩
      · cases hfound : findMapping table (matched ++ [position]) with
        | some extended =>
          obtain ⟨mapping', matched', kept, h⟩ := Extends.exists hdefined
          exact ⟨mapping', matched', kept, .extended hclass hmark hblocked hfound h⟩
        | none =>
          obtain ⟨mapping', matched', kept, h⟩ := Extends.exists hdefined
          exact ⟨mapping', matched', position :: kept, .passed hclass hmark hblocked hfound h⟩

theorem Extends.chain_cons {mapping mapping' : Mapping} {matched matched' rest kept : PositionSequence}
    {classes : List ℕ} (h : Extends table core mapping matched classes rest mapping' matched' kept)
    {before : ℕ} (hchain : (before :: rest).IsChain (Follows core)) :
    (before :: kept).IsChain (Follows core) := by
  induction h generalizing before with
  | nil => exact hchain
  | starter => exact hchain
  | blocked _ _ _ _ ih =>
    obtain ⟨hfollows, hrest⟩ := List.isChain_cons_cons.1 hchain
    exact List.isChain_cons_cons.2 ⟨hfollows, ih hrest⟩
  | passed _ _ _ _ _ ih =>
    obtain ⟨hfollows, hrest⟩ := List.isChain_cons_cons.1 hchain
    exact List.isChain_cons_cons.2 ⟨hfollows, ih hrest⟩
  | @extended _ _ _ _ _ _ rest _ _ cls hclass hmark _ _ _ ih =>
    obtain ⟨hfollows, hrest⟩ := List.isChain_cons_cons.1 hchain
    refine ih ?_
    cases rest with
    | nil => exact List.isChain_singleton _
    | cons next rest =>
      obtain ⟨hnext, hrest⟩ := List.isChain_cons_cons.1 hrest
      refine List.isChain_cons_cons.2 ⟨?_, hrest⟩
      -- the mark between them is of a class that is neither below the one nor above the other
      obtain ⟨nextClass, hnextClass, horder⟩ := hnext
      refine ⟨nextClass, hnextClass, horder.imp_right ?_⟩
      rintro ⟨cls', hclass', hle⟩
      cases Option.some.inj (hclass.symm.trans hclass')
      obtain ⟨cls', hclass', horder'⟩ := hfollows
      cases Option.some.inj (hclass.symm.trans hclass')
      obtain ⟨previous, hprevious, hle'⟩ := horder'.resolve_left hmark
      exact ⟨previous, hprevious, hle'.trans hle⟩

/-! ## A point -/

variable {mapping : Mapping}

theorem findMapping_length {sequence : PositionSequence} (h : findMapping table sequence = some mapping) :
    sequence.length ≤ table.maximumSequenceCount := by
  unfold findMapping at h
  have hsequence := List.find?_some h
  rw [decide_eq_true_iff] at hsequence
  have hmem : mapping ∈ table.mappings := List.mem_of_find?_eq_some h
  rw [← hsequence]
  unfold DucetTable.maximumSequenceCount
  exact List.le_max_of_le' 0 (List.mem_map_of_mem hmem) le_rfl

variable {remaining : PositionSequence}

theorem longestInitial_none : ∀ {count : ℕ}, longestInitial table remaining count = none →
      ∀ other, 0 < other → other ≤ count → findMapping table (remaining.take other) = none
  | 0, _, other, hpos, hle => absurd hle (Nat.not_le.2 hpos)
  | count + 1, h, other, hpos, hle => by
    unfold longestInitial at h
    split at h
    · cases h
    · rename_i hnone
      rcases Nat.le_succ_iff.1 hle with hle | rfl
      · exact longestInitial_none h other hpos hle
      · exact hnone

theorem findMapping_take_none {other : ℕ} (hle : other ≤ remaining.length)
    (hmax : table.maximumSequenceCount < other) : findMapping table (remaining.take other) = none := by
  by_contra hfound
  obtain ⟨mapping, hmapping⟩ := Option.ne_none_iff_exists'.1 hfound
  have hlength := findMapping_length hmapping
  rw [List.length_take, min_eq_left hle] at hlength
  omega

theorem longestInitial_some {count : ℕ}
    (h : longestInitial table remaining (min table.maximumSequenceCount remaining.length) =
      some (mapping, count)) : LongestInitial table remaining count mapping := by
  obtain ⟨hpos, hle, hfound, hlongest⟩ := longestInitial_count h
  refine ⟨hpos, hle.trans (min_le_right _ _), hfound, fun other hlt hother => ?_⟩
  rcases Nat.lt_or_ge table.maximumSequenceCount other with hmax | hmax
  · exact findMapping_take_none hother hmax
  · exact hlongest other hlt (le_min hmax hother)

theorem LongestInitial.unique {count count' : ℕ} {mapping' : Mapping}
    (h : LongestInitial table remaining count mapping)
    (h' : LongestInitial table remaining count' mapping') : count = count' ∧ mapping = mapping' := by
  have hcount : count = count' := by
    rcases Nat.lt_trichotomy count count' with hlt | heq | hlt
    · exact absurd ((h.longest count' hlt h'.le).symm.trans h'.found) nofun
    · exact heq
    · exact absurd ((h'.longest count hlt h.le).symm.trans h.found) nofun
  subst hcount
  exact ⟨rfl, Option.some.inj (h.found.symm.trans h'.found)⟩

theorem rangeLead_le {position lead source : ℕ} (h : rangeLead table position = some (lead, source)) :
    lead ≤ 0xffff := by
  unfold rangeLead at h
  split at h
  · cases h
  · rename_i range _
    cases h
    exact Nat.le_of_lt_succ range.leadPrimary.toNat_lt

theorem implicitSource_le (record : CoreRecord) {position : ℕ} (hrange : position < rootPopulation) :
    (implicitSource table record position).1 ≤ 0xffff := by
  have hshift : position >>> 15 ≤ 0x21 := by
    unfold rootPopulation at hrange
    rw [Nat.shiftRight_eq_div_pow]
    omega
  have hranged : ((rangeLead table position).getD (0, position)).1 ≤ 0xffff := by
    cases hlead : rangeLead table position with
    | none => exact Nat.zero_le _
    | some found => exact rangeLead_le hlead
  unfold implicitSource
  dsimp only
  split_ifs
  all_goals first | exact hranged | omega

theorem implicitElements_isSome {position : ℕ} (hrange : position < rootPopulation)
    (hrecord : core position ≠ none) : ∃ elements, implicitElements table core position = some elements := by
  obtain ⟨record, hrecord⟩ := Option.ne_none_iff_exists'.1 hrecord
  have hlead := @implicitSource_le table record position hrange
  unfold implicitElements
  rw [hrecord]
  dsimp only
  generalize implicitSource table record position = source at hlead ⊢
  have htrail : (source.2 &&& 0x7fff) ||| 0x8000 < 2 ^ 16 :=
    Nat.or_lt_two_pow (Nat.and_le_right.trans_lt (by decide)) (by decide)
  rw [if_neg (by omega)]
  exact ⟨_, rfl⟩

/-! ## Rounds -/

theorem LongestInitial.before {remaining : PositionSequence} {count : ℕ} {mapping : Mapping}
    (h : LongestInitial table remaining count mapping) (hchain : remaining.IsChain (Follows core)) :
    ∃ before, (before :: remaining.drop count).IsChain (Follows core) := by
  obtain ⟨last, rfl⟩ := Nat.exists_eq_succ_of_ne_zero h.pos.ne'
  have hlast : last < remaining.length := h.le
  have hdrop : remaining.drop last = remaining[last] :: remaining.drop (last + 1) :=
    List.drop_eq_getElem_cons hlast
  exact ⟨_, hdrop ▸ hchain.drop last⟩

theorem UtsStep.normalized {remaining next : PositionSequence} {found : Match}
    (h : UtsStep table core remaining found next) (hnormalized : Normalized core remaining) :
    Normalized core next := by
  cases h with
  | implicit hnone himplicit =>
    exact ⟨fun p hp => hnormalized.range p (List.mem_cons_of_mem _ hp),
      fun p hp => hnormalized.records p (List.mem_cons_of_mem _ hp), hnormalized.ordered.tail⟩
  | @mapped _ _ _ count _ _ hlongest hextends =>
    have hsub : next.Sublist remaining := hextends.sublist.trans (List.drop_sublist _ _)
    obtain ⟨before, hchain⟩ := hlongest.before hnormalized.ordered
    exact ⟨fun p hp => hnormalized.range p (hsub.subset hp),
      fun p hp => hnormalized.records p (hsub.subset hp), (hextends.chain_cons hchain).tail⟩

theorem UtsStep.length_lt {next : PositionSequence} {found : Match}
    (h : UtsStep table core remaining found next) : next.length < remaining.length := by
  cases h with
  | implicit => exact Nat.lt_succ_self _
  | mapped hlongest hextends =>
    have hle := hextends.sublist.length_le
    have hpos := hlongest.pos
    have hcount := hlongest.le
    rw [List.length_drop] at hle
    omega

theorem UtsStep.unique {next next' : PositionSequence} {found found' : Match}
    (h : UtsStep table core remaining found next) (h' : UtsStep table core remaining found' next') :
    found = found' ∧ next = next' := by
  cases h with
  | mapped hlongest hextends =>
    cases h' with
    | mapped hlongest' hextends' =>
      obtain ⟨rfl, rfl⟩ := hlongest.unique hlongest'
      obtain ⟨rfl, rfl, rfl⟩ := hextends.unique hextends'
      exact ⟨rfl, rfl⟩
    | implicit hnone =>
      exact absurd ((hnone _ hlongest.pos hlongest.le).symm.trans hlongest.found) nofun
  | implicit hnone himplicit =>
    cases h' with
    | mapped hlongest =>
      exact absurd ((hnone _ hlongest.pos hlongest.le).symm.trans hlongest.found) nofun
    | implicit _ himplicit' =>
      rw [Option.some.inj (himplicit.symm.trans himplicit')]
      exact ⟨rfl, rfl⟩

theorem matchStep_spec {position : ℕ} {rest : PositionSequence} (h : Normalized core (position :: rest)) :
    ∃ found next found' next', matchStep table core position rest = some (found, next) ∧
      UtsStep table core (position :: rest) found' next' ∧
      (found = found' → ¬ Misses table core (position :: rest)) ∧
      (¬ Misses table core (position :: rest) → found = found' ∧ next = next') := by
  unfold matchStep
  dsimp only
  split
  · rename_i hnone
    have hnone' : ∀ count, 0 < count → count ≤ rest.length + 1 →
        findMapping table ((position :: rest).take count) = none := by
      intro count hpos hle
      rcases Nat.lt_or_ge table.maximumSequenceCount count with hmax | hmax
      · exact findMapping_take_none hle hmax
      · exact longestInitial_none hnone count hpos (le_min hmax hle)
    obtain ⟨elements, helements⟩ := @implicitElements_isSome table core position
      (h.range _ List.mem_cons_self) (h.records _ List.mem_cons_self)
    rw [helements]
    refine ⟨_, _, _, _, rfl, .implicit hnone' helements, fun _ => ?_, fun _ => ⟨rfl, rfl⟩⟩
    rintro ⟨count, mapping, hlongest, -⟩
    exact absurd ((hnone' _ hlongest.pos hlongest.le).symm.trans hlongest.found) nofun
  · rename_i mapping count hfound
    have hlongest := longestInitial_some hfound
    obtain ⟨before, hchain⟩ := hlongest.before h.ordered
    obtain ⟨mapping', matched', kept, hrun, hagree, hless⟩ := @extendMatch_spec table core _
      ((position :: rest).take count) mapping before 0 [] ⟨.inl ⟨rfl, rfl⟩, List.forall_mem_nil _⟩ hchain
    obtain ⟨mapping'', matched'', kept'', hextends⟩ := @Extends.exists table core _
      ((position :: rest).take count) mapping [] (Follows.classes hchain)
    rw [hrun]
    refine ⟨_, _, _, _, rfl, .mapped hlongest hextends, ?_, fun hnot => ?_⟩
    · rintro heq ⟨count', other, hlongest', hhidden⟩
      obtain ⟨rfl, rfl⟩ := hlongest.unique hlongest'
      have hlt := hless hhidden _ _ _ hextends
      cases heq
      exact lt_irrefl _ hlt
    · obtain ⟨rfl, rfl, rfl⟩ := (hagree fun hhidden =>
        hnot ⟨count, mapping, hlongest, hhidden⟩).unique hextends
      exact ⟨rfl, rfl⟩

theorem produceFrom_of_rounds {found : List Match}
    (h : Rounds (ProgramStep table core) remaining found) : ∀ elements usedImplicit,
    produceFrom table core remaining elements usedImplicit =
      some (elements ++ found.flatMap Match.elements, usedImplicit || found.any Match.isImplicit) := by
  induction h with
  | nil =>
    intro elements usedImplicit
    unfold produceFrom
    rw [List.flatMap_nil, List.append_nil, List.any_nil, Bool.or_false]
  | @cons remaining next first rest hstep _ ih =>
    intro elements usedImplicit
    cases remaining with
    | nil => exact absurd hstep id
    | cons position remaining =>
      unfold produceFrom
      split
      · rename_i hnone
        cases hstep.symm.trans hnone
      · rename_i found next' hsome
        cases Option.some.inj (hstep.symm.trans hsome)
        rw [ih, List.flatMap_cons, List.any_cons, List.append_assoc, Bool.or_assoc]

theorem Rounds.unique {found found' : List Match} (h : Rounds (UtsStep table core) remaining found)
    (h' : Rounds (UtsStep table core) remaining found') : found = found' := by
  induction h generalizing found' with
  | nil =>
    cases h' with
    | nil => rfl
    | cons hstep => exact absurd hstep.length_lt (Nat.not_lt_zero _)
  | cons hstep _ ih =>
    cases h' with
    | nil => exact absurd hstep.length_lt (Nat.not_lt_zero _)
    | cons hstep' hrest' =>
      obtain ⟨rfl, rfl⟩ := hstep.unique hstep'
      rw [ih hrest']

/-! ## The whole sequence -/

/-- The points that the specification comes to. -/
def Reaches (table : DucetTable) (core : CoreTable) : PositionSequence → PositionSequence → Prop :=
  Relation.ReflTransGen fun remaining next => ∃ found, UtsStep table core remaining found next

theorem not_misses_nil : ¬ Misses table core [] := by
  rintro ⟨count, mapping, hlongest, -⟩
  exact absurd hlongest.le (Nat.not_le.2 hlongest.pos)

theorem rounds_iff {remaining : PositionSequence} (h : Normalized core remaining) :
    (∃ found, Rounds (UtsStep table core) remaining found ∧
        Rounds (ProgramStep table core) remaining found) ↔
      ∀ point, Reaches table core remaining point → ¬ Misses table core point := by
  induction hlength : remaining.length using Nat.strong_induction_on generalizing remaining with
  | _ length ih =>
  cases remaining with
  | nil =>
    refine iff_of_true ⟨[], .nil, .nil⟩ fun point hreaches => ?_
    rcases Relation.ReflTransGen.cases_head hreaches with rfl | ⟨next, ⟨found, hstep⟩, -⟩
    · exact not_misses_nil
    · exact absurd hstep.length_lt (Nat.not_lt_zero _)
  | cons position rest =>
    obtain ⟨found, next, found', next', hprogram, huts, hmissed, hagree⟩ :=
      @matchStep_spec table core position rest h
    have ih := ih next'.length (hlength ▸ huts.length_lt) (huts.normalized h) rfl
    constructor
    · rintro ⟨rounds, hrounds, hrounds'⟩ point hreaches
      cases hrounds with
      | cons hstep hrest =>
        cases hrounds' with
        | cons hstep' hrest' =>
          obtain ⟨rfl, rfl⟩ := hstep.unique huts
          cases Option.some.inj (hstep'.symm.trans hprogram)
          have hnot := hmissed rfl
          obtain ⟨-, rfl⟩ := hagree hnot
          rcases Relation.ReflTransGen.cases_head hreaches with rfl | ⟨other, ⟨_, hother⟩, hpoint⟩
          · exact hnot
          · obtain ⟨-, rfl⟩ := hother.unique huts
            exact ih.1 ⟨_, hrest, hrest'⟩ point hpoint
    · intro hnone
      obtain ⟨rfl, rfl⟩ := hagree (hnone _ .refl)
      obtain ⟨rounds, hrounds, hrounds'⟩ := ih.2 fun point hpoint =>
        hnone point (.head ⟨found, huts⟩ hpoint)
      exact ⟨found :: rounds, .cons huts hrounds, .cons hprogram hrounds'⟩

/-- The program yields the elements of the specification, round by round, if and only if no point
that the specification comes to has a blocked mark in front of an unblocked one that extends the
match. -/
theorem produceCollationElements_iff {normalized : PositionSequence} (h : Normalized core normalized) :
    (∃ found, Rounds (UtsStep table core) normalized found ∧
        Rounds (ProgramStep table core) normalized found ∧ produceCollationElements table core normalized =
          some (found.flatMap Match.elements, found.any Match.isImplicit)) ↔
      ∀ point, Reaches table core normalized point → ¬ Misses table core point := by
  rw [← rounds_iff h]
  refine exists_congr fun found => and_congr_right fun _ => and_iff_left_of_imp fun hrounds => ?_
  exact produceFrom_of_rounds hrounds [] false

/-! ## A missed mark -/

/-- The letters and marks of the tests for contractions (tests/unicode_source_tests.cpp:1238-1250),
with a second mark below. -/
def cyrillicTable : DucetTable where
  mappings := [ ⟨[0x0438], [⟨0x2854, 0x20, 0x02, false⟩]⟩,
    ⟨[0x0438, 0x0306], [⟨0x2861, 0x20, 0x02, false⟩]⟩,
    ⟨[0x0306], [⟨0, 0x26, 0x02, false⟩]⟩,
    ⟨[0x0323], [⟨0, 0x70, 0x02, false⟩]⟩,
    ⟨[0x0324], [⟨0, 0x71, 0x02, false⟩]⟩,
    ⟨[0x0591], [⟨0, 0, 0, false⟩]⟩]
  implicitRanges := []

def cyrillicClass (position : ℕ) : UInt8 :=
  if position = 0x0306 then 230
  else if position = 0x0323 ∨ position = 0x0324 ∨ position = 0x0591 then 220
  else 0

def cyrillicCore : CoreTable := fun position =>
  some ⟨fun field => if field = 2 then [cyrillicClass position] else [], .assignedScalar⟩

theorem cyrillicCore_class (position : ℕ) :
    canonicalCombiningClass cyrillicCore position = some (cyrillicClass position).toNat := rfl

theorem cyrillicCore_normalized {sequence : PositionSequence}
    (hrange : ∀ position ∈ sequence, position < rootPopulation)
    (hordered : sequence.IsChain fun before position =>
      cyrillicClass position = 0 ∨ cyrillicClass before ≤ cyrillicClass position) :
    Normalized cyrillicCore sequence := by
  refine ⟨hrange, fun _ _ => nofun, hordered.imp fun before position h => ?_⟩
  refine ⟨_, cyrillicCore_class position, h.imp (fun h => ?_) fun h => ?_⟩
  · rw [h]
    rfl
  · exact ⟨_, cyrillicCore_class before, UInt8.le_iff_toNat_le.1 h⟩

theorem produceCollationElements_test : Normalized cyrillicCore [0x0438, 0x0591, 0x0306] ∧
    ∀ point, Reaches cyrillicTable cyrillicCore [0x0438, 0x0591, 0x0306] point →
      ¬ Misses cyrillicTable cyrillicCore point := by
  have hnormalized : Normalized cyrillicCore [0x0438, 0x0591, 0x0306] :=
    cyrillicCore_normalized (by decide) (by decide)
  refine ⟨hnormalized, (produceCollationElements_iff hnormalized).1 ?_⟩
  have hprogram : Rounds (ProgramStep cyrillicTable cyrillicCore) [0x0438, 0x0591, 0x0306]
      [.mapped [0x0438, 0x0306] ⟨[0x0438, 0x0306], [⟨0x2861, 0x20, 0x02, false⟩]⟩,
        .mapped [0x0591] ⟨[0x0591], [⟨0, 0, 0, false⟩]⟩] :=
    .cons rfl (.cons rfl .nil)
  refine ⟨_, ?_, hprogram, produceFrom_of_rounds hprogram [] false⟩
  refine @Rounds.cons _ _ [0x0591] _ _ (.mapped (longestInitial_some rfl) ?_)
    (@Rounds.cons _ _ [] _ _ (.mapped (longestInitial_some rfl) ?_) .nil)
  · exact .passed (cyrillicCore_class _) (by decide) (by decide) rfl
      (.extended (cyrillicCore_class _) (by decide) (by decide) rfl (.nil _ _ _))
  · exact .nil _ _ _

/-- The mark above is of another class than the two below, and the letter with it has a mapping; but
the second mark below is blocked, and the program looks no further. -/
theorem produceCollationElements_missed : Normalized cyrillicCore [0x0438, 0x0323, 0x0324, 0x0306] ∧
    Rounds (UtsStep cyrillicTable cyrillicCore) [0x0438, 0x0323, 0x0324, 0x0306]
      [.mapped [0x0438, 0x0306] ⟨[0x0438, 0x0306], [⟨0x2861, 0x20, 0x02, false⟩]⟩,
        .mapped [0x0323] ⟨[0x0323], [⟨0, 0x70, 0x02, false⟩]⟩,
        .mapped [0x0324] ⟨[0x0324], [⟨0, 0x71, 0x02, false⟩]⟩] ∧
    produceCollationElements cyrillicTable cyrillicCore [0x0438, 0x0323, 0x0324, 0x0306] =
      some ([⟨0x2854, 0x20, 0x02, false⟩, ⟨0, 0x70, 0x02, false⟩, ⟨0, 0x71, 0x02, false⟩,
        ⟨0, 0x26, 0x02, false⟩], false) ∧
    ∀ found, Rounds (UtsStep cyrillicTable cyrillicCore) [0x0438, 0x0323, 0x0324, 0x0306] found →
      produceCollationElements cyrillicTable cyrillicCore [0x0438, 0x0323, 0x0324, 0x0306] ≠
        some (found.flatMap Match.elements, found.any Match.isImplicit) := by
  have huts : Rounds (UtsStep cyrillicTable cyrillicCore) [0x0438, 0x0323, 0x0324, 0x0306]
      [.mapped [0x0438, 0x0306] ⟨[0x0438, 0x0306], [⟨0x2861, 0x20, 0x02, false⟩]⟩,
        .mapped [0x0323] ⟨[0x0323], [⟨0, 0x70, 0x02, false⟩]⟩,
        .mapped [0x0324] ⟨[0x0324], [⟨0, 0x71, 0x02, false⟩]⟩] := by
    refine @Rounds.cons _ _ [0x0323, 0x0324] _ _ (.mapped (longestInitial_some rfl) ?_)
      (@Rounds.cons _ _ [0x0324] _ _ (.mapped (longestInitial_some rfl) ?_)
        (@Rounds.cons _ _ [] _ _ (.mapped (longestInitial_some rfl) ?_) .nil))
    · exact .passed (cyrillicCore_class _) (by decide) (by decide) rfl
        (.blocked (cyrillicCore_class _) (by decide) (by decide)
          (.extended (cyrillicCore_class _) (by decide) (by decide) rfl (.nil _ _ _)))
    · exact .passed (cyrillicCore_class _) (by decide) (by decide) rfl (.nil _ _ _)
    · exact .nil _ _ _
  have hprogram : Rounds (ProgramStep cyrillicTable cyrillicCore) [0x0438, 0x0323, 0x0324, 0x0306]
      [.mapped [0x0438] ⟨[0x0438], [⟨0x2854, 0x20, 0x02, false⟩]⟩,
        .mapped [0x0323] ⟨[0x0323], [⟨0, 0x70, 0x02, false⟩]⟩,
        .mapped [0x0324] ⟨[0x0324], [⟨0, 0x71, 0x02, false⟩]⟩,
        .mapped [0x0306] ⟨[0x0306], [⟨0, 0x26, 0x02, false⟩]⟩] :=
    .cons rfl (.cons rfl (.cons rfl (.cons rfl .nil)))
  have hproduce := produceFrom_of_rounds hprogram [] false
  refine ⟨cyrillicCore_normalized (by decide) (by decide), huts, hproduce, fun found hfound => ?_⟩
  rw [← huts.unique hfound]
  exact fun heq => absurd (hproduce.symm.trans heq) (by decide)

end Laplace.Unicode
