import Laplace.Uax29.Rules
import Laplace.Uax29.Segment

/-!
# `WordNext` and WB3 to WB16

The cascade follows the rules but for two slips. The branch for `AHLetter × MidLetter | MidNumLetQ`
comes first and settles `Hebrew_Letter × Single_Quote` by WB6 alone, so WB7a is never reached. And when
a segment begins at a regional indicator, the indicators before it are counted back to the first code
point that is ignored, while WB15 and WB16 count past the ignored ones.
-/

namespace Laplace.Uax29

open BreakRule
open scoped Computability

variable {t : Tables}

theorem word_separate : Separate (fun cp => wordIgnored (t.word cp)) (wordResets t) := by
  intro cp h
  simp only [wordResets, decide_eq_true_eq] at h
  rcases h with h | h | h <;> simp [wordIgnored, h]

variable {cp : UInt32} {before : List UInt32}

theorem previousSignificant_cons : previousSignificant t (cp :: before) =
      if wordIgnored (t.word cp) then previousSignificant t before else some (cp, before) := rfl

/-- Classes that hold neither ignored code points nor line ends. -/
def WordInner (values : List WordBreak) : Prop :=
  ∀ value ∈ values, wordIgnored value = false ∧ value ∉ [WordBreak.newline, .cr, .lf]

instance (values : List WordBreak) : Decidable (WordInner values) := List.decidableBAll ..

variable {values : List WordBreak}

theorem word_mem_class (hv : WordInner values) {X : Language UInt32} {r : List UInt32} :
    wordStrip t r.reverse ∈ X * wb t values ↔
      ∃ cp before, previousSignificant t r = some (cp, before) ∧ t.word cp ∈ values ∧
        wordStrip t before.reverse ∈ X := by
  refine strip_mem_cls word_separate (fun cp h => ?_) r
  obtain ⟨hignored, hreset⟩ := hv _ h
  exact ⟨hignored, by simpa [wordResets] using hreset⟩

/-! ## Regional indicators -/

/-- The regional indicators at the end of the text, past the ignored code points; the text is
reversed. -/
def significantRun (t : Tables) (r : List UInt32) : Nat :=
  ((r.filter fun cp => !wordIgnored (t.word cp)).takeWhile (wordRi t)).length

/-- The regional indicators at the end of the text, next to each other. -/
def literalRun (t : Tables) (r : List UInt32) : Nat := (r.takeWhile (wordRi t)).length

section
variable {cp : UInt32} {r : List UInt32}

theorem significantRun_ri (h : t.word cp = .regionalIndicator) :
    significantRun t (cp :: r) = significantRun t r + 1 := by
  simp [significantRun, wordRi, h, wordIgnored]

theorem significantRun_ignored (h : wordIgnored (t.word cp) = true) :
    significantRun t (cp :: r) = significantRun t r := by
  simp [significantRun, h]

theorem significantRun_other (h : wordIgnored (t.word cp) = false)
    (hri : t.word cp ≠ .regionalIndicator) : significantRun t (cp :: r) = 0 := by
  simp [significantRun, h, wordRi, hri]

theorem literalRun_ri (h : t.word cp = .regionalIndicator) :
    literalRun t (cp :: r) = literalRun t r + 1 := by
  simp [literalRun, wordRi, h]

theorem significantRun_pos : ∀ r : List UInt32, 0 < significantRun t r ↔
    ∃ x before, previousSignificant t r = some (x, before) ∧ t.word x = .regionalIndicator
  | [] => by simp [significantRun, previousSignificant, lastKept]
  | cp :: r => by
    rw [previousSignificant_cons]
    cases hi : wordIgnored (t.word cp) with
    | true =>
      rw [significantRun_ignored hi, significantRun_pos r, if_pos rfl]
    | false =>
      rw [if_neg (by simp)]
      by_cases hri : t.word cp = .regionalIndicator
      · rw [significantRun_ri hri]
        exact iff_of_true (Nat.succ_pos _) ⟨cp, r, rfl, hri⟩
      · rw [significantRun_other hi hri]
        simp [hri]

theorem significantRun_pos_of {x : UInt32} {before : List UInt32}
    (h : previousSignificant t r = some (x, before)) :
    0 < significantRun t r ↔ t.word x = .regionalIndicator := by
  rw [significantRun_pos, h]
  constructor
  · rintro ⟨y, _, heq, hy⟩
    injection heq with heq
    injection heq with hxy _
    rw [hxy]
    exact hy
  · exact fun hx => ⟨x, before, rfl, hx⟩

theorem literalRun_le : literalRun t r ≤ significantRun t r := by
  induction r with
  | nil => exact Nat.le_refl _
  | cons cp r ih =>
    by_cases hri : t.word cp = .regionalIndicator
    · rw [literalRun_ri hri, significantRun_ri hri]
      omega
    · simp [literalRun, wordRi, hri]

/-- WB15 and WB16 count the significant run. -/
theorem word_oddRun {r : List UInt32} : wordStrip t r.reverse ∈ oddRun (wordRi t) ∨
      wordStrip t r.reverse ∈ anything * (cls (fun cp => wordRi t cp = false) * oddRun (wordRi t)) ↔
      significantRun t r % 2 = 1 := by
  rw [oddRun_iff, wordStrip, strip_run word_separate (fun cp h => ?_), significantRun]
  have hri : t.word cp = .regionalIndicator := by simpa [wordRi] using h
  simp [hri, wordIgnored, wordResets]

end

/-! ## The look-ahead -/

variable {rest : List UInt32}

theorem lookAhead_cons :
    lookAhead t (cp :: rest) = if wordIgnored (t.word cp) then lookAhead t rest else some (t.word cp) := by
  unfold lookAhead
  rw [List.dropWhile_cons]
  split <;> rfl

theorem word_look (hv : WordInner values) : ∀ rest : List UInt32,
    strip (fun cp => wordIgnored (t.word cp)) (wordResets t) true rest ∈ wb t values * anything ↔
      ∃ value ∈ values, lookAhead t rest = some value
  | [] => by simp [strip, lookAhead, wb]
  | cp :: rest => by
    rw [lookAhead_cons, strip]
    cases hi : wordIgnored (t.word cp) with
    | true =>
      have hreset : wordResets t cp = false := by
        cases hr : wordResets t cp with
        | false => rfl
        | true =>
          have hno : wordIgnored (t.word cp) = false := word_separate cp hr
          rw [hi] at hno
          cases hno
      simpa [hreset] using word_look hv rest
    | false => simp [wb]

/-! ## The rules on classes -/

/-- WB5 to WB16 at two significant code points: their classes, those of the significant code points
behind and ahead, and whether an odd run of regional indicators ends at the left one. -/
def classesJoin (previous current : WordBreak) (behind ahead : Option WordBreak) (odd : Bool) : Bool :=
  ahLetter previous && ahLetter current ||
  ahLetter previous && midLetterOrQuote current && ahead.any ahLetter ||
  midLetterOrQuote previous && ahLetter current && behind.any ahLetter ||
  previous == .hebrewLetter && current == .singleQuote ||
  previous == .hebrewLetter && current == .doubleQuote && ahead.any (· == .hebrewLetter) ||
  previous == .doubleQuote && current == .hebrewLetter && behind.any (· == .hebrewLetter) ||
  previous == .numeric && current == .numeric ||
  ahLetter previous && current == .numeric ||
  previous == .numeric && ahLetter current ||
  midNumOrQuote previous && current == .numeric && behind.any (· == .numeric) ||
  previous == .numeric && midNumOrQuote current && ahead.any (· == .numeric) ||
  previous == .katakana && current == .katakana ||
  wb13aLeft previous && current == .extendNumLet ||
  previous == .extendNumLet && wb13bRight current ||
  current == .regionalIndicator && odd

theorem mem_behind (hv : WordInner values) : wordStrip t before.reverse ∈ anything * wb t values ↔
      ∃ value ∈ values, lookBehind t before = some value := by
  rw [word_mem_class hv, lookBehind]
  rcases previousSignificant t before with _ | ⟨x, before'⟩ <;> simp

/-- The rules after WB4 at a position. -/
theorem wordRules_iff {r : List UInt32} {cp : UInt32} {rest : List UInt32} (hcp : wordResets t cp = false) :
    Decides (wordJoinRules t ++ [split 1 1]) False (wordStrip t r.reverse) (wordStrip t (cp :: rest)) ↔
      ∃ x before, previousSignificant t r = some (x, before) ∧
        classesJoin (t.word x) (t.word cp) (lookBehind t before) (lookAhead t rest)
          (significantRun t r % 2 == 1) = true := by
  have hafter : wordStrip t (cp :: rest) =
      cp :: strip (fun cp => wordIgnored (t.word cp)) (wordResets t) true rest := by
    simp [wordStrip, strip, hcp]
  have hright : ∀ values, wordStrip t (cp :: rest) ∈ wb t values * anything ↔ t.word cp ∈ values := by
    intro values
    rw [hafter, wb, cons_mem_cls, and_iff_left mem_anything]
  have hahead : ∀ values ahead, WordInner ahead →
      (wordStrip t (cp :: rest) ∈ wb t values * wb t ahead * anything ↔
        t.word cp ∈ values ∧ ∃ value ∈ ahead, lookAhead t rest = some value) := by
    intro values ahead hv
    rw [hafter, ← word_look hv, wb, cons_mem_cls_mul]
  have hlast : ¬ Decides [split 1 1] False (wordStrip t r.reverse) (wordStrip t (cp :: rest)) :=
    not_decides (by simp) not_false
  rw [decides_append, decides_joins (by simp [wordJoinRules]), or_iff_left hlast]
  simp only [wordJoinRules, List.exists_mem_cons_iff, matches_join, matches_joinAtStart, ahLetterClass]
  have hleft : ∀ values, WordInner values → (wordStrip t r.reverse ∈ anything * wb t values ↔
      ∃ x before, previousSignificant t r = some (x, before) ∧ t.word x ∈ values) := by
    intro values hv
    simp only [word_mem_class hv, mem_anything, and_true]
  have hbehind : ∀ behind values, WordInner behind → WordInner values →
      (wordStrip t r.reverse ∈ anything * (wb t behind * wb t values) ↔
        ∃ x before, previousSignificant t r = some (x, before) ∧ t.word x ∈ values ∧
          ∃ value ∈ behind, lookBehind t before = some value) := by
    intro behind values hb hv
    rw [← mul_assoc, word_mem_class hv]
    simp only [mem_behind hb]
  have hodd := word_oddRun (t := t) (r := r)
  have letter : WordInner [.aletter, .hebrewLetter] := by decide
  have hebrew : WordInner [.hebrewLetter] := by decide
  have numeric : WordInner [.numeric] := by decide
  simp only [hright, hahead _ _ letter, hahead _ _ hebrew, hahead _ _ numeric, hleft _ letter,
    hleft _ hebrew, hleft _ numeric, hleft [.katakana] (by decide), hleft [.extendNumLet] (by decide),
    hleft [.aletter, .hebrewLetter, .numeric, .katakana, .extendNumLet] (by decide),
    hbehind _ (.midLetter :: midNumLetQ) letter (by decide), hbehind _ [.doubleQuote] hebrew (by decide),
    hbehind _ (.midNum :: midNumLetQ) numeric (by decide), List.mem_singleton]
  rw [← or_assoc (a := _ ∈ oddRun (wordRi t) ∧ _), ← or_and_right, hodd]
  rcases hp : previousSignificant t r with _ | ⟨x, before⟩
  · have hzero : significantRun t r = 0 := by
      by_contra hne
      obtain ⟨x, before, h, -⟩ := (significantRun_pos r).1 (Nat.pos_of_ne_zero hne)
      rw [hp] at h
      cases h
    simp [hzero]
  · generalize t.word cp = current
    rcases lookAhead t rest with _ | ahead <;> rcases hb : lookBehind t before with _ | behind <;>
      simp [hb, classesJoin, ahLetter, midLetterOrQuote, midNumOrQuote, wb13aLeft, wb13bRight,
        midNumLetQ, or_assoc, and_assoc, and_comm, and_left_comm]

variable {value : WordBreak}

theorem ahLetter_iff : ahLetter value = true ↔ value = .aletter ∨ value = .hebrewLetter := by
  simp [ahLetter]

theorem midLetterOrQuote_iff : midLetterOrQuote value = true ↔
    value = .midLetter ∨ value = .midNumLet ∨ value = .singleQuote := by
  simp [midLetterOrQuote, or_assoc]

theorem midNumOrQuote_iff : midNumOrQuote value = true ↔
    value = .midNum ∨ value = .midNumLet ∨ value = .singleQuote := by
  simp [midNumOrQuote, or_assoc]

/-- Where WB7a is not cut off, the cascade decides as the rules on classes do. -/
theorem significantNoBreak_eq {riRun : Nat} {previous current : WordBreak} {odd : Bool}
    (hquote : ¬ (previous = .hebrewLetter ∧ current = .singleQuote ∧ (lookAhead t rest).any ahLetter = false))
    (hodd : current = .regionalIndicator → ((previous = .regionalIndicator ∧ riRun % 2 = 1) ↔ odd = true)) :
    significantNoBreak t riRun previous before current rest =
      classesJoin previous current (lookBehind t before) (lookAhead t rest) odd := by
  unfold significantNoBreak classesJoin
  generalize lookAhead t rest = ahead at hquote ⊢
  generalize lookBehind t before = behind
  cases h1 : ahLetter previous && ahLetter current
  case true => rfl
  cases h2 : ahLetter previous && midLetterOrQuote current
  case true =>
    obtain ⟨hp, hc⟩ := Bool.and_eq_true_iff.1 h2
    rcases ahLetter_iff.1 hp with rfl | rfl <;> rcases midLetterOrQuote_iff.1 hc with rfl | rfl | rfl <;>
      cases ha : ahead.any ahLetter <;> first | rfl | exact absurd ⟨rfl, rfl, ha⟩ hquote
  cases h3 : midLetterOrQuote previous && ahLetter current
  case true =>
    obtain ⟨hp, hc⟩ := Bool.and_eq_true_iff.1 h3
    rcases midLetterOrQuote_iff.1 hp with rfl | rfl | rfl <;> rcases ahLetter_iff.1 hc with rfl | rfl <;>
      cases behind.any ahLetter <;> rfl
  cases h4 : previous == .hebrewLetter && current == .singleQuote
  case true => rfl
  cases h5 : previous == .hebrewLetter && current == .doubleQuote
  case true =>
    obtain ⟨hp, hc⟩ := Bool.and_eq_true_iff.1 h5
    rw [beq_iff_eq.1 hp, beq_iff_eq.1 hc]
    cases ahead.any (· == .hebrewLetter) <;> rfl
  cases h6 : previous == .doubleQuote && current == .hebrewLetter
  case true =>
    obtain ⟨hp, hc⟩ := Bool.and_eq_true_iff.1 h6
    rw [beq_iff_eq.1 hp, beq_iff_eq.1 hc]
    cases behind.any (· == .hebrewLetter) <;> rfl
  cases h7 : previous == .numeric && current == .numeric
  case true => rfl
  cases h8 : ahLetter previous && current == .numeric
  case true => rfl
  cases h9 : previous == .numeric && ahLetter current
  case true => rfl
  cases h10 : midNumOrQuote previous && current == .numeric
  case true =>
    obtain ⟨hp, hc⟩ := Bool.and_eq_true_iff.1 h10
    rw [beq_iff_eq.1 hc]
    rcases midNumOrQuote_iff.1 hp with rfl | rfl | rfl <;> cases behind.any (· == .numeric) <;> rfl
  cases h11 : previous == .numeric && midNumOrQuote current
  case true =>
    obtain ⟨hp, hc⟩ := Bool.and_eq_true_iff.1 h11
    rw [beq_iff_eq.1 hp]
    rcases midNumOrQuote_iff.1 hc with rfl | rfl | rfl <;> cases ahead.any (· == .numeric) <;> rfl
  cases h12 : previous == .katakana && current == .katakana
  case true => rfl
  cases h13 : wb13aLeft previous && current == .extendNumLet
  case true => rfl
  cases h14 : previous == .extendNumLet && wb13bRight current
  case true => rfl
  rw [Bool.eq_iff_iff]
  simp only [Bool.false_eq_true, if_false, Bool.false_and, Bool.or_false, Bool.false_or,
    Bool.and_eq_true, beq_iff_eq]
  constructor
  · rintro ⟨⟨hp, hc⟩, hrun⟩
    exact ⟨hc, (hodd hc).1 ⟨hp, hrun⟩⟩
  · rintro ⟨hc, ho⟩
    obtain ⟨hp, hrun⟩ := (hodd hc).2 ho
    exact ⟨⟨hp, hc⟩, hrun⟩

/-! ## The cascade and the rules -/

section
variable {last cp : UInt32} {r rest : List UInt32} {values : List WordBreak}

theorem wb_snoc : (last :: r).reverse ∈ anything * wb t values ↔ t.word last ∈ values := by
  rw [List.reverse_cons, wb, snoc_mem_cls, and_iff_left mem_anything]

theorem wb_cons : cp :: rest ∈ wb t values * anything ↔ t.word cp ∈ values := by
  rw [wb, cons_mem_cls, and_iff_left mem_anything]

/-- WB3 to WB4, with `inner` for the branches below. -/
theorem wordLiteral_iff {inner : Bool} {otherwise : Prop}
    (h : wordIgnored (t.word cp) = false → wordResets t cp = false → (inner = true ↔ otherwise)) :
    (if t.word last = .cr ∧ t.word cp = .lf then true
      else if t.word last = .newline ∨ t.word last = .cr ∨ t.word last = .lf then false
      else if t.word cp = .newline ∨ t.word cp = .cr ∨ t.word cp = .lf then false
      else if t.word last = .zwj ∧ t.extendedPictographic cp then true
      else if t.word last = .wsegspace ∧ t.word cp = .wsegspace then true
      else if wordIgnored (t.word cp) then true
      else inner) = true ↔ Decides (wordLiteralRules t) otherwise (last :: r).reverse (cp :: rest) := by
  unfold wordLiteralRules
  refine decides_cons rfl ?_ fun _ => decides_cons rfl ?_ fun _ => decides_cons rfl ?_ fun hreset =>
    decides_cons rfl ?_ fun _ => decides_cons rfl ?_ fun _ => decides_cons rfl ?_ fun hi => ?_
  · rw [matches_join, wb_snoc, wb_cons, List.mem_singleton, List.mem_singleton]
  · rw [matches_split, wb_snoc]
    simp
  · rw [matches_split, wb_cons]
    simp
  · rw [matches_join, wb_snoc]
    simp [extPict]
  · rw [matches_join, wb_snoc, wb_cons, List.mem_singleton, List.mem_singleton]
  · rw [matches_join, wb_cons]
    simp [wordIgnored, or_assoc]
  · exact h (by simpa using hi) (by simpa [wordResets] using hreset)

/-- A Hebrew letter and a single quote that no letter follows: WB7a joins them, the loop does not. -/
def QuoteEdge (t : Tables) (r : List UInt32) (cp : UInt32) (rest : List UInt32) : Prop :=
  t.word cp = .singleQuote ∧
    (∃ x before, previousSignificant t r = some (x, before) ∧ t.word x = .hebrewLetter) ∧
    (lookAhead t rest).any ahLetter = false

theorem wordNoBreak_iff {st : WordState} (hbefore : st.before = last :: r)
    (hliteral : st.previousLiteral = t.word last) (hquote : ¬ QuoteEdge t (last :: r) cp rest)
    (hrun : t.word cp = .regionalIndicator → 0 < significantRun t (last :: r) →
      st.riRun % 2 = significantRun t (last :: r) % 2) :
    wordNoBreak t st cp rest = true ↔ wordJoins t (last :: r).reverse (cp :: rest) := by
  unfold wordNoBreak wordJoins
  rw [hbefore, hliteral]
  refine wordLiteral_iff fun hi hreset => ?_
  rw [wordRules_iff hreset]
  rcases hp : previousSignificant t (last :: r) with _ | ⟨x, before⟩
  · simp
  · have hpos := significantRun_pos_of hp
    have hjoin : significantNoBreak t st.riRun (t.word x) before (t.word cp) rest =
        classesJoin (t.word x) (t.word cp) (lookBehind t before) (lookAhead t rest)
          (significantRun t (last :: r) % 2 == 1) := by
      refine significantNoBreak_eq (fun ⟨hx, hc, ha⟩ => hquote ⟨hc, ⟨x, before, hp, hx⟩, ha⟩)
        fun hc => ?_
      rw [beq_iff_eq]
      constructor
      · rintro ⟨hx, hr⟩
        rw [← hrun hc (hpos.2 hx), hr]
      · intro ho
        have h0 : 0 < significantRun t (last :: r) := by omega
        exact ⟨hpos.1 h0, by rw [hrun hc h0, ho]⟩
    simp [hjoin]

theorem not_reset_of_previous {x : UInt32} {before : List UInt32}
    (h : previousSignificant t (last :: r) = some (x, before)) (hx : wordResets t x = false) :
    t.word last ≠ .newline ∧ t.word last ≠ .cr ∧ t.word last ≠ .lf := by
  rw [previousSignificant_cons] at h
  split at h
  · rename_i hi
    refine ⟨fun hl => ?_, fun hl => ?_, fun hl => ?_⟩ <;> simp [hl, wordIgnored] at hi
  · injection h with h
    injection h with hl _
    rw [hl]
    simpa [wordResets] using hx

/-- WB7a at an edge that the loop cuts. -/
theorem quoteEdge_differs (hu : t.UnicodeConsistent) {st : WordState} (hbefore : st.before = last :: r)
    (hliteral : st.previousLiteral = t.word last) (h : QuoteEdge t (last :: r) cp rest) :
    wordNoBreak t st cp rest = false ∧ wordJoins t (last :: r).reverse (cp :: rest) := by
  obtain ⟨hcp, ⟨x, before, hp, hx⟩, hahead⟩ := h
  have hep : t.extendedPictographic cp = false := by
    cases hep : t.extendedPictographic cp with
    | false => rfl
    | true => exact absurd hcp (hu.pictograph_word cp hep).2
  obtain ⟨hnewline, hcr, hlf⟩ := not_reset_of_previous hp (by simp [wordResets, hx])
  constructor
  · simp [wordNoBreak, hbefore, hliteral, hnewline, hcr, hlf, hcp, hep, hp, hx, hahead, wordIgnored,
      significantNoBreak, ahLetter, midLetterOrQuote]
  · have hjoin := (@wordLiteral_iff t last cp r rest true _ fun _ hreset =>
      iff_of_true rfl ((@wordRules_iff _ (last :: r) _ rest hreset).2
        ⟨x, before, hp, by simp [classesJoin, hx, hcp]⟩)).1
    exact hjoin (by simp [hnewline, hcr, hlf, hcp, hep])

/-- WB4: an ignored code point is joined to what does not end a line. -/
theorem wordJoins_ignored (hcp : wordIgnored (t.word cp) = true) (hlast : wordResets t last = false) :
    wordJoins t (last :: r).reverse (cp :: rest) := by
  refine ((@wordLiteral_iff _ _ _ _ _ false) fun hno => ?_).1 ?_
  · rw [hcp] at hno
    cases hno
  · simp only [wordResets, decide_eq_false_iff_not] at hlast
    cases hw : t.word cp <;> simp [hw, wordIgnored] at hcp <;> simp [hlast, wordIgnored]

theorem wordNoBreak_ri (hu : t.UnicodeConsistent) {st : WordState} (hbefore : st.before = last :: r)
    (hliteral : st.previousLiteral = t.word last) (hcp : t.word cp = .regionalIndicator)
    (hrun : 0 < significantRun t (last :: r)) : wordNoBreak t st cp rest = (st.riRun % 2 == 1) := by
  have hep : t.extendedPictographic cp = false := by
    cases hep : t.extendedPictographic cp with
    | false => rfl
    | true => exact absurd hcp (hu.pictograph_word cp hep).1
  obtain ⟨x, before, hp, hx⟩ := (significantRun_pos (t := t) _).1 hrun
  obtain ⟨hnewline, hcr, hlf⟩ := not_reset_of_previous hp (by simp [wordResets, hx])
  simp [wordNoBreak, hbefore, hliteral, hnewline, hcr, hlf, hcp, hep, hp, hx, wordIgnored,
    significantNoBreak, ahLetter, midLetterOrQuote, midNumOrQuote, wb13aLeft, wb13bRight]

/-- WB15 and WB16 at two regional indicators. -/
theorem wordJoins_ri (hu : t.UnicodeConsistent) (hcp : t.word cp = .regionalIndicator)
    (hrun : 0 < significantRun t (last :: r)) :
    wordJoins t (last :: r).reverse (cp :: rest) ↔ significantRun t (last :: r) % 2 = 1 := by
  rw [← @wordNoBreak_iff _ _ _ _ _ ⟨significantRun t (last :: r), t.word last, last :: r⟩ rfl rfl
    (fun h => by
      have := h.1
      rw [hcp] at this
      cases this) fun _ _ => rfl, wordNoBreak_ri hu rfl rfl hcp hrun, beq_iff_eq]

end

/-! ## The state of the loop -/

/-- All code points from the beginning of the segment on are regional indicators or ignored, the first
one an indicator. -/
def RunFrom (t : Tables) (first : UInt32) (seg : List UInt32) : Prop :=
  t.word first = .regionalIndicator ∧
    ∀ cp ∈ seg, t.word cp = .regionalIndicator ∨ wordIgnored (t.word cp) = true

/-- What the variables of the loop say about a segment `first :: seg` after `pre`. -/
structure WordOk (t : Tables) (st : WordState) (pre : List UInt32) (first : UInt32)
    (seg : List UInt32) : Prop where
  before : st.before = (pre ++ first :: seg).reverse
  literal : ∀ last r, (pre ++ first :: seg).reverse = last :: r → st.previousLiteral = t.word last
  counted : RunFrom t first seg → st.riRun + significantRun t pre.reverse =
    literalRun t pre.reverse + significantRun t (pre ++ first :: seg).reverse
  exact : ¬ RunFrom t first seg → st.riRun = significantRun t (pre ++ first :: seg).reverse

variable {pre : List UInt32} {first : UInt32} {tail : List UInt32}

theorem begins_ignored (hbegins : BeginsAfter (wordJoins t) pre (first :: tail))
    (hi : wordIgnored (t.word first) = true) : significantRun t pre.reverse = 0 := by
  rw [← List.reverse_reverse pre] at hbegins
  cases hr : pre.reverse with
  | nil => rfl
  | cons last r =>
    rw [hr] at hbegins
    cases hreset : wordResets t last with
    | false => exact absurd (wordJoins_ignored hi hreset) (hbegins.resolve_left (by simp))
    | true =>
      refine significantRun_other (word_separate last hreset) fun hri => ?_
      simp [wordResets, hri] at hreset

theorem WordOk.enter (hbegins : BeginsAfter (wordJoins t) pre (first :: tail)) :
    WordOk t (wordEnter t pre.reverse first) pre first [] where
  before := by simp [wordEnter]
  literal last r h := by
    simp only [List.reverse_append, List.reverse_singleton, List.singleton_append, List.cons.injEq] at h
    rw [← h.1]
    rfl
  counted h := by
    rw [List.reverse_append, List.reverse_singleton, List.singleton_append, significantRun_ri h.1]
    have : (wordEnter t pre.reverse first).riRun = 1 + literalRun t pre.reverse := by
      rw [wordEnter, if_pos h.1]
      rfl
    omega
  exact h := by
    have hri : t.word first ≠ .regionalIndicator := fun hri => h ⟨hri, by simp⟩
    rw [List.reverse_append, List.reverse_singleton, List.singleton_append, wordEnter, if_neg hri]
    cases hi : wordIgnored (t.word first) with
    | false => rw [significantRun_other hi hri]
    | true => rw [significantRun_ignored hi, begins_ignored hbegins hi]

variable {seg : List UInt32}

theorem WordOk.advance {st : WordState} (h : WordOk t st pre first seg) (cp : UInt32) :
    WordOk t (wordAdvance t st cp) pre first (seg ++ [cp]) := by
  have hrev : (pre ++ first :: (seg ++ [cp])).reverse = cp :: (pre ++ first :: seg).reverse := by simp
  have hfrom : RunFrom t first (seg ++ [cp]) ↔ RunFrom t first seg ∧
      (t.word cp = .regionalIndicator ∨ wordIgnored (t.word cp) = true) := by
    simp only [RunFrom, List.mem_append, List.mem_singleton, or_imp, forall_and, forall_eq, and_assoc]
  constructor
  · rw [hrev, ← h.before]
    rfl
  · intro last r heq
    rw [hrev] at heq
    injection heq with heq _
    rw [← heq]
    rfl
  · intro hrun
    obtain ⟨hseg, hcp⟩ := hfrom.1 hrun
    have := h.counted hseg
    rw [hrev]
    by_cases hri : t.word cp = .regionalIndicator
    · rw [significantRun_ri hri, wordAdvance, if_pos hri]
      simp only
      omega
    · have hi := hcp.resolve_left hri
      rw [significantRun_ignored hi, wordAdvance, if_neg hri, if_neg (by simp [hi])]
      exact this
  · intro hrun
    rw [hrev]
    by_cases hri : t.word cp = .regionalIndicator
    · rw [significantRun_ri hri, wordAdvance, if_pos hri, h.exact fun hseg => hrun (hfrom.2 ⟨hseg, .inl hri⟩)]
    · cases hi : wordIgnored (t.word cp) with
      | false => rw [significantRun_other hi hri, wordAdvance, if_neg hri, if_pos (by simp [hi])]
      | true =>
        rw [significantRun_ignored hi, wordAdvance, if_neg hri, if_neg (by simp [hi])]
        exact h.exact fun hseg => hrun (hfrom.2 ⟨hseg, .inr hi⟩)

theorem word_stateAfter (hbegins : BeginsAfter (wordJoins t) pre (first :: tail)) (seg : List UInt32) :
    WordOk t ((wordScanner t).stateAfter pre first seg) pre first seg := by
  induction seg using List.reverseRecOn with
  | nil => exact .enter hbegins
  | append_singleton seg cp ih =>
    rw [Scanner.stateAfter_snoc]
    exact ih.advance cp

/-! ## Where the loop follows the rules -/

/-- A Hebrew letter and a single quote that no letter follows, ignored code points aside. -/
def HasQuoteEdge (t : Tables) (cps : List UInt32) : Prop :=
  ∃ before cp rest, cps = before ++ cp :: rest ∧ QuoteEdge t before.reverse cp rest

/-- An odd-numbered regional indicator of a run with a further one, at the end of an even number of
indicators next to each other. -/
def HasSplitRun (t : Tables) (cps : List UInt32) : Prop :=
  ∃ before cp rest, cps = before ++ cp :: rest ∧ t.word cp = .regionalIndicator ∧
    lookAhead t rest = some .regionalIndicator ∧ significantRun t (cp :: before.reverse) % 2 = 1 ∧
    literalRun t (cp :: before.reverse) % 2 = 0

theorem lookAhead_run (hcp : t.word cp = .regionalIndicator)
    (hseg : ∀ c ∈ seg, t.word c = .regionalIndicator ∨ wordIgnored (t.word c) = true) :
    lookAhead t (seg ++ cp :: rest) = some .regionalIndicator := by
  induction seg with
  | nil => simp [lookAhead_cons, hcp, wordIgnored]
  | cons c seg ih =>
    rw [List.cons_append, lookAhead_cons]
    rcases hseg c List.mem_cons_self with hc | hc
    · simp [hc, wordIgnored]
    · rw [if_pos hc]
      exact ih fun d hd => hseg d (List.mem_cons_of_mem _ hd)

theorem lookAhead_some : ∀ {rest : List UInt32}, lookAhead t rest = some value →
    ∃ seg cp rest', rest = seg ++ cp :: rest' ∧ (∀ c ∈ seg, wordIgnored (t.word c) = true) ∧
      t.word cp = value
  | cp :: rest, h => by
    rw [lookAhead_cons] at h
    split at h
    · rename_i hi
      obtain ⟨seg, c, rest', rfl, hseg, hc⟩ := lookAhead_some h
      exact ⟨cp :: seg, c, rest', rfl, List.forall_mem_cons.2 ⟨hi, hseg⟩, hc⟩
    · injection h with h
      exact ⟨[], cp, rest, rfl, by simp, h⟩

theorem significantRun_ignored_append {r : List UInt32} (h : ∀ cp ∈ seg, wordIgnored (t.word cp) = true) :
    significantRun t (seg ++ r) = significantRun t r := by
  induction seg with
  | nil => rfl
  | cons cp seg ih =>
    rw [List.cons_append, significantRun_ignored (h cp List.mem_cons_self)]
    exact ih fun c hc => h c (List.mem_cons_of_mem _ hc)

theorem begins_even (hu : t.UnicodeConsistent) (hbegins : BeginsAfter (wordJoins t) pre (first :: tail))
    (hfirst : t.word first = .regionalIndicator) : significantRun t pre.reverse % 2 = 0 := by
  rw [← List.reverse_reverse pre] at hbegins
  cases hr : pre.reverse with
  | nil => rfl
  | cons last r =>
    rw [hr] at hbegins
    rcases Nat.eq_zero_or_pos (significantRun t (last :: r)) with h0 | hpos
    · rw [h0]
    · have := (@wordJoins_ri _ _ _ _ tail hu hfirst hpos).not.1 (hbegins.resolve_left (by simp))
      omega

theorem word_agrees (hu : t.UnicodeConsistent)
    (hquote : ¬ HasQuoteEdge t (pre ++ first :: (seg ++ cp :: rest)))
    (hsplit : ¬ HasSplitRun t (pre ++ first :: (seg ++ cp :: rest)))
    (hbegins : BeginsAfter (wordJoins t) pre (first :: (seg ++ cp :: rest))) :
    wordNoBreak t ((wordScanner t).stateAfter pre first seg) cp rest = true ↔
      wordJoins t (pre ++ first :: seg) (cp :: rest) := by
  have hok := word_stateAfter hbegins seg
  have hcut : pre ++ first :: (seg ++ cp :: rest) = (pre ++ first :: seg) ++ cp :: rest := by simp
  rw [← List.reverse_reverse (pre ++ first :: seg)]
  obtain ⟨last, r, hr⟩ : ∃ last r, (pre ++ first :: seg).reverse = last :: r :=
    List.exists_cons_of_ne_nil (by simp)
  rw [hr]
  refine wordNoBreak_iff (hok.before.trans hr) (hok.literal last r hr) (fun hedge => ?_)
    fun hcp _ => ?_
  · exact hquote ⟨pre ++ first :: seg, cp, rest, hcut, by rw [hr]; exact hedge⟩
  · rw [← hr]
    by_cases hrun : RunFrom t first seg
    · have hcounted := hok.counted hrun
      have heven := begins_even hu hbegins hrun.1
      have hodd : literalRun t (first :: pre.reverse) % 2 ≠ 0 := fun h0 =>
        hsplit ⟨pre, first, seg ++ cp :: rest, rfl, hrun.1, lookAhead_run hcp hrun.2, by
          rw [significantRun_ri hrun.1]
          omega, h0⟩
      rw [literalRun_ri hrun.1] at hodd
      omega
    · rw [hok.exact hrun]

/-- The loop decides as the rules do within the segments of the rules. -/
def WordAgrees (t : Tables) (cps : List UInt32) : Prop :=
  ∀ pre first seg cp rest, cps = pre ++ first :: (seg ++ cp :: rest) →
    BeginsAfter (wordJoins t) pre (first :: (seg ++ cp :: rest)) →
    (∀ s d s', seg = s ++ d :: s' → wordJoins t (pre ++ first :: s) (d :: (s' ++ cp :: rest))) →
    (wordNoBreak t ((wordScanner t).stateAfter pre first seg) cp rest = true ↔
      wordJoins t (pre ++ first :: seg) (cp :: rest))

theorem WordAgrees.no_quoteEdge (hu : t.UnicodeConsistent) {cps : List UInt32}
    (hall : WordAgrees t cps) : ¬ HasQuoteEdge t cps := by
  rintro ⟨before, cp, rest, htext, hedge⟩
  have hne : before.reverse ≠ [] := by
    rintro hnil
    obtain ⟨-, ⟨x, b, hp, -⟩, -⟩ := hedge
    rw [hnil] at hp
    cases hp
  obtain ⟨pre, first, seg, hsplit, hbegins, hin⟩ :=
    exists_segment (wordJoins t) before.reverse (cp :: rest) hne
  rw [List.reverse_reverse] at hsplit
  subst hsplit
  have hok := word_stateAfter hbegins seg
  have hagree := hall pre first seg cp rest (by rw [htext]; simp) hbegins hin
  obtain ⟨last, r, hr⟩ := List.exists_cons_of_ne_nil hne
  rw [hr] at hedge
  obtain ⟨hno, hyes⟩ := quoteEdge_differs hu (hok.before.trans hr) (hok.literal last r hr) hedge
  rw [← hr, List.reverse_reverse] at hyes
  have htrue : wordNoBreak t _ cp rest = true := hagree.2 hyes
  rw [hno] at htrue
  cases htrue

theorem WordAgrees.no_splitRun (hu : t.UnicodeConsistent) {cps : List UInt32}
    (hall : WordAgrees t cps) : ¬ HasSplitRun t cps := by
  rintro ⟨before, first, rest, htext, hfirst, hahead, hodd, heven⟩
  obtain ⟨seg, cp, rest, rfl, hseg, hcp⟩ := lookAhead_some hahead
  have hle := literalRun_le (t := t) (r := before.reverse)
  rw [significantRun_ri hfirst] at hodd
  rw [literalRun_ri hfirst] at heven
  have hbegins : BeginsAfter (wordJoins t) before (first :: (seg ++ cp :: rest)) := by
    refine .inr ?_
    obtain ⟨last, r, hr⟩ : ∃ last r, before.reverse = last :: r := by
      refine List.exists_cons_of_ne_nil fun hnil => ?_
      rw [hnil] at heven
      cases heven
    rw [hr] at hodd hle heven
    rw [← List.reverse_reverse before, hr, wordJoins_ri hu hfirst (by omega)]
    omega
  have hin : ∀ s d s', seg = s ++ d :: s' →
      wordJoins t (before ++ first :: s) (d :: (s' ++ cp :: rest)) := by
    rintro s d s' rfl
    have hd := hseg d (by simp)
    rcases List.eq_nil_or_concat s with rfl | ⟨s, last, rfl⟩
    · rw [← List.reverse_reverse (before ++ [first]), List.reverse_append]
      exact wordJoins_ignored hd (by simp [wordResets, hfirst])
    · have hlast := hseg last (by simp)
      rw [← List.reverse_reverse (before ++ first :: s.concat last), List.concat_eq_append,
        ← List.cons_append, ← List.append_assoc, List.reverse_append]
      refine wordJoins_ignored hd ?_
      cases hreset : wordResets t last with
      | false => rfl
      | true => exact absurd (word_separate last hreset) (by simp [hlast])
  have hrun : RunFrom t first seg := ⟨hfirst, fun c hc => .inr (hseg c hc)⟩
  have hok := word_stateAfter hbegins seg
  have hcounted := hok.counted hrun
  have hagree := hall before first seg cp rest htext hbegins hin
  have hall : significantRun t (before ++ first :: seg).reverse =
      significantRun t before.reverse + 1 := by
    rw [List.reverse_append, List.reverse_cons, List.append_assoc, significantRun_ignored_append
      fun c hc => hseg c (List.mem_reverse.1 hc)]
    exact significantRun_ri hfirst
  obtain ⟨last, r, hr⟩ : ∃ last r, (before ++ first :: seg).reverse = last :: r :=
    List.exists_cons_of_ne_nil (by simp)
  have hno : wordNoBreak t _ cp rest = _ := wordNoBreak_ri hu (hok.before.trans hr)
    (hok.literal last r hr) hcp (by rw [← hr, hall]; omega)
  have hyes : wordJoins t (before ++ first :: seg) (cp :: rest) := by
    rw [← List.reverse_reverse (before ++ first :: seg), hr,
      wordJoins_ri hu hcp (by rw [← hr, hall]; omega), ← hr, hall]
    omega
  have htrue : wordNoBreak t _ cp rest = true := hagree.2 hyes
  rw [hno, beq_iff_eq] at htrue
  omega

/-- **Word boundaries.** Under a consistent property assignment the word boundaries that are emitted
are the positions that WB3 to WB16 and WB999 split, exactly when the text has neither a quote edge nor
a split run of regional indicators. -/
theorem word_boundaries_iff (hu : t.UnicodeConsistent) (text : DecodedText) :
    (∀ i, i ∈ boundaries t .word text ↔
      Breaks text.codepoints.length (At (wordJoins t) text.codepoints) i) ↔
      ¬ HasQuoteEdge t text.codepoints ∧ ¬ HasSplitRun t text.codepoints := by
  rw [boundaries_eq]
  refine (Scanner.segments_iff (m := wordScanner t)).trans
    ⟨fun hall => ⟨WordAgrees.no_quoteEdge hu hall, WordAgrees.no_splitRun hu hall⟩, ?_⟩
  rintro ⟨hquote, hsplit⟩ pre first seg cp rest htext hbegins _
  rw [htext] at hquote hsplit
  exact word_agrees hu hquote hsplit hbegins

/-! ### Quotes and flags -/

/-- U+05D0 is a Hebrew letter, U+0027 the single quote, U+0308 a mark, and U+1F1E6 to U+1F1FF are the
regional indicators; other code points have no properties. -/
def wordTables : Tables where
  grapheme _ := .other
  word cp :=
    if cp = 0x05D0 then .hebrewLetter
    else if cp = 0x27 then .singleQuote
    else if cp = 0x0308 then .extend
    else if 0x1F1E6 ≤ cp ∧ cp ≤ 0x1F1FF then .regionalIndicator
    else .other
  sentence _ := .other
  incb _ := .none
  extendedPictographic _ := false

theorem wordTables_consistent : wordTables.UnicodeConsistent where
  pictograph_grapheme _ h := by cases h
  pictograph_incb _ h := by cases h
  pictograph_word _ h := by cases h
  consonant_grapheme _ h := by cases h
  mark_grapheme _ h := by rcases h with h | h <;> cases h

/-- A flag of two indicators. -/
theorem word_boundaries_flag :
    (¬ HasQuoteEdge wordTables [0x1F1E6, 0x1F1E7] ∧ ¬ HasSplitRun wordTables [0x1F1E6, 0x1F1E7]) ∧
    ∀ i, i ∈ boundaries wordTables .word ⟨[0x1F1E6, 0x1F1E7], [0, 4, 8]⟩ ↔
      Breaks 2 (At (wordJoins wordTables) [0x1F1E6, 0x1F1E7]) i := by
  refine (fun h => ⟨h, (word_boundaries_iff wordTables_consistent ⟨_, _⟩).2 h⟩) ⟨?_, ?_⟩
  · rintro ⟨before, cp, rest, htext, hcp, -⟩
    have hmem : cp ∈ [0x1F1E6, 0x1F1E7] := by
      rw [show [0x1F1E6, 0x1F1E7] = before ++ cp :: rest from htext]
      simp
    rcases List.mem_pair.1 hmem with rfl | rfl <;> exact absurd hcp (by decide)
  · rintro ⟨before, cp, rest, htext, -, hahead, -, heven⟩
    rcases before with _ | ⟨a, _ | ⟨b, before⟩⟩
    · injection htext with hcp _
      subst hcp
      exact absurd heven (by decide)
    · injection htext with _ htext
      injection htext with _ hrest
      subst hrest
      cases hahead
    · simp at htext

/-- A Hebrew letter and a quote at the end of the text: WB7a joins them, the loop does not. -/
theorem word_splits_quote : ¬ ∀ (t : Tables) (text : DecodedText), t.UnicodeConsistent →
    ∀ i, i ∈ boundaries t .word text ↔
      Breaks text.codepoints.length (At (wordJoins t) text.codepoints) i := by
  intro h
  have hedge : QuoteEdge wordTables [0x05D0] 0x27 [] :=
    ⟨by decide, ⟨0x05D0, [], by decide, by decide⟩, by decide⟩
  have hjoin := (@quoteEdge_differs _ _ _ _ _ wordTables_consistent ⟨0, .hebrewLetter, [0x05D0]⟩ rfl
    (by decide) hedge).2
  have hbreak := (h wordTables ⟨[0x05D0, 0x27], [0, 2, 3]⟩ wordTables_consistent 1).1
    (by decide +kernel)
  exact hbreak.2.2 (by decide) hjoin

end Laplace.Uax29
