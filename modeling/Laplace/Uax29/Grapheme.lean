import Laplace.Uax29.Rules
import Laplace.Uax29.Segment

/-!
# `GraphemeNext` and GB3 to GB13

The flags of the loop are contexts of the rules (`GraphemeOk`), with one exception: `saw_pictograph`
survives a ZWJ, so it stands for `ExtPict (Extend | ZWJ)*` where GB11 has `ExtPict Extend*`. After
`ExtPict (Extend | ZWJ)* ZWJ Extend* ZWJ` the loop joins a pictograph that GB999 splits off.
-/

namespace Laplace.Uax29

open BreakRule
open scoped Computability

variable {t : Tables}

/-! ## Contexts -/

/-- `ExtPict (Extend | ZWJ)*` -/
def looseEmoji (t : Tables) : Language UInt32 := anything * extPict t * (gb t [.extend, .zwj])∗

/-- `ExtPict Extend*` -/
def strictEmoji (t : Tables) : Language UInt32 := anything * extPict t * (gb t [.extend])∗

/-- `ExtPict (Extend | ZWJ)* ZWJ Extend*` -/
def strayEmoji (t : Tables) : Language UInt32 := looseEmoji t * gb t [.zwj] * (gb t [.extend])∗

/-- `Consonant (Extend | Linker)*` -/
def conjunctHead (t : Tables) : Language UInt32 :=
  anything * incbIs t [.consonant] * (incbIs t [.extend, .linker])∗

/-- `Consonant (Extend | Linker)* Linker (Extend | Linker)*` -/
def conjunctLinked (t : Tables) : Language UInt32 :=
  conjunctHead t * incbIs t [.linker] * (incbIs t [.extend, .linker])∗

section
variable {before : List UInt32} {cp : UInt32}

theorem looseEmoji_snoc : before ++ [cp] ∈ looseEmoji t ↔ t.extendedPictographic cp = true ∨
    (t.grapheme cp = .extend ∨ t.grapheme cp = .zwj) ∧ before ∈ looseEmoji t := by
  simp [looseEmoji, extPict, gb]

theorem strictEmoji_snoc : before ++ [cp] ∈ strictEmoji t ↔
    t.extendedPictographic cp = true ∨ t.grapheme cp = .extend ∧ before ∈ strictEmoji t := by
  simp [strictEmoji, extPict, gb]

theorem strayEmoji_snoc : before ++ [cp] ∈ strayEmoji t ↔ (t.grapheme cp = .zwj ∧ before ∈ looseEmoji t) ∨
      t.grapheme cp = .extend ∧ before ∈ strayEmoji t := by
  simp [strayEmoji, gb]

theorem conjunctHead_snoc : before ++ [cp] ∈ conjunctHead t ↔ t.incb cp = .consonant ∨
    (t.incb cp = .extend ∨ t.incb cp = .linker) ∧ before ∈ conjunctHead t := by
  simp [conjunctHead, incbIs]

theorem conjunctLinked_snoc : before ++ [cp] ∈ conjunctLinked t ↔
    (t.incb cp = .linker ∧ before ∈ conjunctHead t) ∨
      (t.incb cp = .extend ∨ t.incb cp = .linker) ∧ before ∈ conjunctLinked t := by
  simp [conjunctLinked, incbIs]

theorem looseEmoji_nil : [] ∉ looseEmoji t := by simp [looseEmoji, extPict, gb]

theorem strictEmoji_nil : [] ∉ strictEmoji t := by simp [strictEmoji, extPict, gb]

theorem strayEmoji_nil : [] ∉ strayEmoji t := by simp [strayEmoji, gb]

theorem conjunctHead_nil : [] ∉ conjunctHead t := by simp [conjunctHead, incbIs]

theorem conjunctLinked_nil : [] ∉ conjunctLinked t := by simp [conjunctLinked, incbIs]

end

theorem looseEmoji_iff (before : List UInt32) :
    before ∈ looseEmoji t ↔ before ∈ strictEmoji t ∨ before ∈ strayEmoji t := by
  induction before using List.reverseRecOn with
  | nil => simp [looseEmoji_nil, strictEmoji_nil, strayEmoji_nil]
  | append_singleton before cp ih =>
    rw [looseEmoji_snoc, strictEmoji_snoc, strayEmoji_snoc, ih]
    tauto

theorem conjunctLinked_head (before : List UInt32) :
    before ∈ conjunctLinked t → before ∈ conjunctHead t := by
  induction before using List.reverseRecOn with
  | nil => exact fun h => absurd h conjunctLinked_nil
  | append_singleton before cp ih =>
    rw [conjunctLinked_snoc, conjunctHead_snoc]
    rintro (⟨hlinker, hhead⟩ | ⟨hmark, hlinked⟩)
    · exact .inr ⟨.inr hlinker, hhead⟩
    · exact .inr ⟨hmark, ih hlinked⟩

theorem strictEmoji_not_stray (hu : t.UnicodeConsistent) (before : List UInt32) :
    before ∈ strictEmoji t → before ∉ strayEmoji t := by
  induction before using List.reverseRecOn with
  | nil => exact fun h => absurd h strictEmoji_nil
  | append_singleton before cp ih =>
    rw [strictEmoji_snoc, strayEmoji_snoc]
    rintro (hep | ⟨hext, hstrict⟩)
    · rw [hu.pictograph_grapheme cp hep]
      simp
    · simp [hext, ih hstrict]

/-! ## The state of the loop -/

/-- What the variables of the loop say about the text before `index`. -/
structure GraphemeOk (t : Tables) (st : GraphemeState) (before : List UInt32) : Prop where
  previous : before.getLast? = some st.previousCp
  riRun : st.riRun = (before.reverse.takeWhile (graphemeRi t)).length
  pictograph : st.sawPictograph = true ↔ before ∈ looseEmoji t
  consonant : st.sawIncbConsonant = true ↔ before ∈ conjunctHead t
  linker : st.sawIncbLinker = true ↔ before ∈ conjunctLinked t

variable {before : List UInt32}

theorem GraphemeOk.advance {st : GraphemeState} (h : GraphemeOk t st before) (cp : UInt32) :
    GraphemeOk t (graphemeAdvance t st cp) (before ++ [cp]) where
  previous := by simp [graphemeAdvance]
  riRun := by
    simp only [graphemeAdvance, h.riRun, graphemeRi, List.reverse_append, List.reverse_singleton,
      List.singleton_append, List.takeWhile_cons, decide_eq_true_eq]
    split <;> simp
  pictograph := by
    rw [looseEmoji_snoc, ← h.pictograph]
    cases hep : t.extendedPictographic cp <;> cases hg : t.grapheme cp <;>
      simp [graphemeAdvance, hep, hg]
  consonant := by
    rw [conjunctHead_snoc, ← h.consonant]
    cases hi : t.incb cp <;> simp [graphemeAdvance, hi]
  linker := by
    rw [conjunctLinked_snoc, ← h.linker, ← h.consonant]
    cases hi : t.incb cp <;> cases hc : st.sawIncbConsonant <;> simp [graphemeAdvance, hi, hc]

theorem exists_graphemeOk (before : List UInt32) (last : UInt32) :
    ∃ st, GraphemeOk t st (before ++ [last]) := by
  classical
  exact ⟨{ previousCp := last
           riRun := ((before ++ [last]).reverse.takeWhile (graphemeRi t)).length
           sawPictograph := decide (before ++ [last] ∈ looseEmoji t)
           sawIncbConsonant := decide (before ++ [last] ∈ conjunctHead t)
           sawIncbLinker := decide (before ++ [last] ∈ conjunctLinked t) },
    by simp, rfl, by simp, by simp, by simp⟩

/-! ## The cascade and the rules -/

/-- The pictograph `cp` would be joined by the loop alone. -/
def Stray (t : Tables) (before : List UInt32) (cp : UInt32) : Prop :=
  t.extendedPictographic cp = true ∧ before ∈ strayEmoji t * gb t [.zwj]

variable {cp : UInt32}

theorem gb_snoc {values : List GraphemeBreak} :
    before ++ [cp] ∈ anything * gb t values ↔ t.grapheme cp ∈ values := by
  simp [gb]

theorem gb_cons {after : List UInt32} {values : List GraphemeBreak} :
    cp :: after ∈ gb t values * anything ↔ t.grapheme cp ∈ values := by
  simp [gb]

variable {last : UInt32}

/-- GB11 and `saw_pictograph`. -/
theorem looseEmoji_zwj (hu : t.UnicodeConsistent) (hstray : ¬ Stray t (before ++ [last]) cp) :
    (before ++ [last] ∈ looseEmoji t ∧ t.grapheme last = .zwj ∧ t.extendedPictographic cp = true) ↔
      before ++ [last] ∈ strictEmoji t * gb t [.zwj] ∧ t.extendedPictographic cp = true := by
  rw [looseEmoji_snoc, gb, snoc_mem_cls, List.mem_singleton]
  constructor
  · rintro ⟨hep | ⟨-, hloose⟩, hzwj, hcp⟩
    · rw [hu.pictograph_grapheme last hep] at hzwj
      cases hzwj
    · refine ⟨⟨hzwj, ?_⟩, hcp⟩
      exact ((looseEmoji_iff before).1 hloose).resolve_right fun h =>
        hstray ⟨hcp, snoc_mem_cls.2 ⟨List.mem_singleton.2 hzwj, h⟩⟩
  · rintro ⟨⟨hzwj, hstrict⟩, hcp⟩
    exact ⟨.inr ⟨.inr hzwj, (looseEmoji_iff before).2 (.inl hstrict)⟩, hzwj, hcp⟩

theorem graphemeNoBreak_iff (hu : t.UnicodeConsistent) {st : GraphemeState} {before : List UInt32}
    {cp : UInt32} {rest : List UInt32} (h : GraphemeOk t st before) (hstray : ¬ Stray t before cp) :
    graphemeNoBreak t st cp = true ↔ graphemeJoins t before (cp :: rest) := by
  obtain ⟨q, last, rfl⟩ : ∃ q last, before = q ++ [last] := by
    rcases List.eq_nil_or_concat before with rfl | ⟨q, last, rfl⟩
    · cases h.previous
    · exact ⟨q, last, List.concat_eq_append⟩
  have hlast : st.previousCp = last := by simpa using h.previous.symm
  unfold graphemeNoBreak graphemeJoins graphemeRules
  rw [hlast]
  refine decides_cons rfl ?_ fun _ => decides_cons rfl ?_ fun _ => decides_cons rfl ?_ fun _ =>
    decides_cons rfl ?_ fun _ => decides_cons rfl ?_ fun _ => decides_cons rfl ?_ fun _ =>
    decides_cons rfl ?_ fun _ => decides_cons rfl ?_ fun _ => decides_cons rfl ?_ fun _ =>
    decides_cons rfl ?_ fun _ => decides_cons rfl ?_ fun _ => decides_cons₂ rfl rfl ?_ fun _ => ?_
  iterate 9 simp [matches_join, matches_split, gb_snoc, gb_cons]
  · have hlinked : q ++ [last] ∈ anything * (incbIs t [.consonant] * (incbIs t [.extend, .linker])∗ *
        incbIs t [.linker] * (incbIs t [.extend, .linker])∗) ↔
        st.sawIncbConsonant = true ∧ st.sawIncbLinker = true := by
      rw [h.consonant, h.linker, and_iff_right_of_imp (conjunctLinked_head _)]
      simp only [conjunctLinked, conjunctHead, mul_assoc]
    rw [matches_join, hlinked]
    simp [incbIs, and_assoc]
  · rw [h.pictograph, looseEmoji_zwj hu hstray, matches_join]
    simp only [strictEmoji, mul_assoc]
    simp [extPict]
  · have hodd := @oddRun_iff _ (q ++ [last]) (graphemeRi t)
    rw [← h.riRun] at hodd
    rw [matches_joinAtStart, matches_join, gb_cons, ← or_and_right, hodd, List.mem_singleton]
    constructor
    · exact fun ⟨_, hcp, hrun⟩ => ⟨hrun, hcp⟩
    · rintro ⟨hrun, hcp⟩
      refine ⟨?_, hcp, hrun⟩
      by_contra hri
      rw [h.riRun] at hrun
      simp [graphemeRi, hri] at hrun
  · rw [Decides.of_match (by simp [matches_split])]
    rfl

theorem stray_differs (hu : t.UnicodeConsistent) {st : GraphemeState} {before : List UInt32}
    {cp : UInt32} {rest : List UInt32} (h : GraphemeOk t st before) (hstray : Stray t before cp) :
    graphemeNoBreak t st cp = true ∧ ¬ graphemeJoins t before (cp :: rest) := by
  obtain ⟨hep, q, hq, y, ⟨last, hzwj, rfl⟩, rfl⟩ := hstray
  rw [List.mem_singleton] at hzwj
  have hother := hu.pictograph_grapheme cp hep
  have hincb := hu.pictograph_incb cp hep
  have hlast : st.previousCp = last := by simpa using h.previous.symm
  have hloose : st.sawPictograph = true :=
    h.pictograph.2 (looseEmoji_snoc.2 (.inr ⟨.inr hzwj, (looseEmoji_iff q).2 (.inr hq)⟩))
  refine ⟨by simp [graphemeNoBreak, hlast, hzwj, hother, hloose, hep], not_decides ?_ not_false⟩
  have hstrict : q ++ [last] ∉ anything * (extPict t * (gb t [.extend])∗ * gb t [.zwj]) := by
    rw [← mul_assoc, ← mul_assoc]
    exact fun hs => strictEmoji_not_stray hu q (snoc_mem_cls.1 hs).2 hq
  simp only [graphemeRules, List.forall_mem_cons]
  simp [matches_join, matches_split, matches_joinAtStart, gb_snoc, gb_cons, hzwj, hother, hstrict,
    incbIs, hincb]

/-! ## The beginning of a segment -/

/-- GB9 and GB9a: a mark is joined to what is not a control. -/
theorem graphemeJoins_mark (hu : t.UnicodeConsistent) {rest : List UInt32}
    (hlast : t.grapheme last ∉ [GraphemeBreak.control, .cr, .lf])
    (hcp : t.grapheme cp = .extend ∨ t.grapheme cp = .zwj ∨ t.grapheme cp = .spacingMark) :
    graphemeJoins t (before ++ [last]) (cp :: rest) := by
  obtain ⟨st, hst⟩ := exists_graphemeOk (t := t) before last
  have hprevious : st.previousCp = last := by simpa using hst.previous.symm
  rw [← graphemeNoBreak_iff hu hst]
  · simp only [List.mem_cons, List.not_mem_nil, or_false, not_or] at hlast
    rcases hcp with hcp | hcp | hcp <;> simp [graphemeNoBreak, hprevious, hcp, hlast]
  · rintro ⟨hep, -⟩
    rw [hu.pictograph_grapheme cp hep] at hcp
    simp at hcp

variable {pre : List UInt32} {first : UInt32} {tail : List UInt32}

theorem begins_not_mark (hu : t.UnicodeConsistent)
    (hbegins : BeginsAfter (graphemeJoins t) pre (first :: tail))
    (hfirst : t.grapheme first = .extend ∨ t.grapheme first = .zwj ∨ t.grapheme first = .spacingMark)
    {X : Language UInt32} (hnil : [] ∉ X)
    (hX : ∀ q last, q ++ [last] ∈ X → t.grapheme last ∉ [GraphemeBreak.control, .cr, .lf]) : pre ∉ X := by
  intro hpre
  rcases List.eq_nil_or_concat pre with rfl | ⟨q, last, rfl⟩
  · exact hnil hpre
  · rw [List.concat_eq_append] at hbegins hpre
    exact hbegins.elim (by simp) fun hno =>
      hno (graphemeJoins_mark hu (hX q last hpre) hfirst)

theorem looseEmoji_last (hu : t.UnicodeConsistent) {q : List UInt32}
    (h : q ++ [last] ∈ looseEmoji t) : t.grapheme last ∉ [GraphemeBreak.control, .cr, .lf] := by
  rcases looseEmoji_snoc.1 h with hep | ⟨hext | hzwj, -⟩
  · simp [hu.pictograph_grapheme last hep]
  · simp [hext]
  · simp [hzwj]

theorem conjunctHead_last (hu : t.UnicodeConsistent) {q : List UInt32}
    (h : q ++ [last] ∈ conjunctHead t) : t.grapheme last ∉ [GraphemeBreak.control, .cr, .lf] := by
  rcases conjunctHead_snoc.1 h with hc | ⟨hmark, -⟩
  · simp [hu.consonant_grapheme last hc]
  · rcases hu.mark_grapheme last hmark with hg | hg | hg <;> simp [hg]

theorem GraphemeOk.enter (hu : t.UnicodeConsistent)
    (hbegins : BeginsAfter (graphemeJoins t) pre (first :: tail)) :
    GraphemeOk t (graphemeEnter t pre.reverse first) (pre ++ [first]) where
  previous := by simp [graphemeEnter]
  riRun := by
    simp only [graphemeEnter, graphemeRi, List.reverse_append, List.reverse_singleton,
      List.singleton_append, List.takeWhile_cons, decide_eq_true_eq]
    split
    · rw [List.length_cons, Nat.add_comm]
      rfl
    · rfl
  pictograph := by
    rw [looseEmoji_snoc, or_iff_left]
    · rfl
    · exact fun ⟨hmark, hpre⟩ => begins_not_mark hu hbegins (by tauto) looseEmoji_nil
        (fun _ _ => looseEmoji_last hu) hpre
  consonant := by
    rw [conjunctHead_snoc, or_iff_left]
    · simp [graphemeEnter]
    · exact fun ⟨hmark, hpre⟩ => begins_not_mark hu hbegins (hu.mark_grapheme first hmark)
        conjunctHead_nil (fun _ _ => conjunctHead_last hu) hpre
  linker := by
    rw [conjunctLinked_snoc]
    refine iff_of_false (by simp [graphemeEnter]) ?_
    rintro (⟨hlinker, hpre⟩ | ⟨hmark, hpre⟩)
    · exact begins_not_mark hu hbegins (hu.mark_grapheme first (.inr hlinker)) conjunctHead_nil
        (fun _ _ => conjunctHead_last hu) hpre
    · exact begins_not_mark hu hbegins (hu.mark_grapheme first hmark) conjunctHead_nil
        (fun _ _ => conjunctHead_last hu) (conjunctLinked_head _ hpre)

theorem grapheme_stateAfter (hu : t.UnicodeConsistent)
    (hbegins : BeginsAfter (graphemeJoins t) pre (first :: tail)) (seg : List UInt32) :
    GraphemeOk t ((graphemeScanner t).stateAfter pre first seg) (pre ++ first :: seg) := by
  induction seg using List.reverseRecOn with
  | nil => exact .enter hu hbegins
  | append_singleton seg cp ih =>
    rw [Scanner.stateAfter_snoc, ← List.cons_append, ← List.append_assoc]
    exact ih.advance cp

/-- The text has a pictograph after `ExtPict (Extend | ZWJ)* ZWJ Extend* ZWJ`. -/
def HasStray (t : Tables) (cps : List UInt32) : Prop :=
  ∃ before cp rest, cps = before ++ cp :: rest ∧ t.extendedPictographic cp = true ∧
    before ∈ anything * extPict t * (gb t [.extend, .zwj])∗ * gb t [.zwj] * (gb t [.extend])∗ * gb t [.zwj]

/-- **Grapheme clusters.** Under a consistent property assignment the grapheme boundaries that are
emitted are the positions that GB3 to GB13 and GB999 split, exactly when the text has no pictograph
that only the surviving flag joins. -/
theorem grapheme_boundaries_iff (hu : t.UnicodeConsistent) (text : DecodedText) :
    (∀ i, i ∈ boundaries t .grapheme text ↔
      Breaks text.codepoints.length (At (graphemeJoins t) text.codepoints) i) ↔
      ¬ HasStray t text.codepoints := by
  rw [boundaries_eq]
  refine (Scanner.segments_iff_of (m := graphemeScanner t) (K := fun before after =>
    ∃ cp rest, after = cp :: rest ∧ (Stray t before cp ∨ graphemeJoins t before after)) ?_).trans ?_
  · intro pre first seg cp rest _ hbegins
    have hok := grapheme_stateAfter hu hbegins seg
    by_cases hstray : Stray t (pre ++ first :: seg) cp
    · exact iff_of_true (@stray_differs t hu _ _ _ rest hok hstray).1 ⟨cp, rest, rfl, .inl hstray⟩
    · refine (@graphemeNoBreak_iff t hu _ _ _ rest hok hstray).trans
        ⟨fun h => ⟨cp, rest, rfl, .inr h⟩, ?_⟩
      rintro ⟨cp', rest', heq, h | h⟩
      · injection heq with hcp _
        rw [← hcp] at h
        exact absurd h hstray
      · exact h
  · constructor
    · rintro hall ⟨before, cp, rest, htext, hstray⟩
      obtain ⟨q, last, rfl⟩ : ∃ q last, before = q ++ [last] := by
        obtain ⟨-, q, -, y, ⟨last, -, rfl⟩, rfl⟩ := hstray
        exact ⟨q, last, rfl⟩
      obtain ⟨st, hst⟩ := exists_graphemeOk (t := t) q last
      exact (stray_differs hu hst hstray).2
        ((hall _ cp rest htext (by simp)).1 ⟨cp, rest, rfl, .inl hstray⟩)
    · intro hno before cp rest htext hne
      constructor
      · rintro ⟨cp', rest', heq, h | h⟩
        · injection heq with hcp _
          rw [← hcp] at h
          exact absurd ⟨before, cp, rest, htext, h⟩ hno
        · exact h
      · exact fun h => ⟨cp, rest, rfl, .inr h⟩

/-! ### A family with one joiner and with two -/

/-- U+1F469 is a pictograph and U+200D the joiner; other code points have no properties. -/
def emojiTables : Tables where
  grapheme cp := if cp = 0x200D then .zwj else .other
  word cp := if cp = 0x200D then .zwj else .other
  sentence cp := if cp = 0x200D then .extend else .other
  incb cp := if cp = 0x200D then .extend else .none
  extendedPictographic cp := cp == 0x1F469

theorem emojiTables_consistent : emojiTables.UnicodeConsistent where
  pictograph_grapheme cp h := by
    rw [beq_iff_eq.1 h]
    rfl
  pictograph_incb cp h := by
    rw [beq_iff_eq.1 h]
    decide
  pictograph_word cp h := by
    rw [beq_iff_eq.1 h]
    decide
  consonant_grapheme cp h := by
    simp only [emojiTables] at h
    split at h <;> cases h
  mark_grapheme cp h := by
    simp only [emojiTables] at h ⊢
    split at h <;> simp_all

theorem grapheme_boundaries_family : ¬ HasStray emojiTables [0x1F469, 0x200D, 0x1F469] ∧
    ∀ i, i ∈ boundaries emojiTables .grapheme ⟨[0x1F469, 0x200D, 0x1F469], [0, 4, 7, 11]⟩ ↔
      Breaks 3 (At (graphemeJoins emojiTables) [0x1F469, 0x200D, 0x1F469]) i := by
  refine (fun h => ⟨h, (grapheme_boundaries_iff emojiTables_consistent ⟨_, _⟩).2 h⟩) ?_
  rintro ⟨before, cp, rest, htext, hep, hbefore⟩
  have one : ∀ X : Language UInt32, [0x1F469] ∈ X * gb emojiTables [.zwj] * (gb emojiTables [.extend])∗ →
      False := by
    intro X h
    rcases (@snoc_mem_star _ _ _ []).1 h with h | h
    · exact absurd ((@snoc_mem_cls _ _ _ []).1 h).1 (by decide)
    · exact absurd h.1 (by decide)
  rcases before with _ | ⟨a, _ | ⟨b, _ | ⟨c, before⟩⟩⟩
  · exact nil_mem_mul_cls.1 hbefore
  · exact nil_mem_mul_cls.1 ((mem_mul_star.1 ((@snoc_mem_cls _ _ _ []).1 hbefore).2).elim id
      fun h => (nil_mem_mul_cls.1 h).elim)
  · simp only [List.cons_append, List.nil_append, List.cons.injEq] at htext
    obtain ⟨rfl, rfl, -⟩ := htext
    exact one _ ((@snoc_mem_cls _ _ _ [0x1F469]).1 hbefore).2
  · simp at htext

/-- Two joiners: the loop keeps one cluster, GB999 ends it before the second pictograph. -/
theorem grapheme_joins_stray : ¬ ∀ (t : Tables) (text : DecodedText), t.UnicodeConsistent →
    ∀ i, i ∈ boundaries t .grapheme text ↔
      Breaks text.codepoints.length (At (graphemeJoins t) text.codepoints) i := by
  intro h
  obtain ⟨st, hst⟩ := exists_graphemeOk (t := emojiTables) [0x1F469, 0x200D] 0x200D
  have hloose : [0x1F469] ∈ looseEmoji emojiTables := (@looseEmoji_snoc _ []).2 (.inl rfl)
  have hstray : Stray emojiTables [0x1F469, 0x200D, 0x200D] 0x1F469 :=
    ⟨rfl, (@snoc_mem_cls _ _ _ [0x1F469, 0x200D]).2
      ⟨by decide, (@strayEmoji_snoc _ [0x1F469]).2 (.inl ⟨rfl, hloose⟩)⟩⟩
  have hmem := (h emojiTables ⟨[0x1F469, 0x200D, 0x200D, 0x1F469], [0, 4, 7, 10, 14]⟩
    emojiTables_consistent 3).2 ⟨by decide, by decide, fun _ =>
      (stray_differs emojiTables_consistent hst hstray).2⟩
  exact absurd hmem (by decide +kernel)

end Laplace.Uax29
