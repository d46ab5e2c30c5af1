import Laplace.Uax29.Rules
import Laplace.Uax29.Segment

/-!
# `SentenceNext` follows SB3 to SB11 and SB998

`SentenceNext` reads the text before `index` backwards past the ignored code points, over the end of
the paragraph too; the rules drop only what follows a code point of the same paragraph. The two
readings agree because no context of the rules contains a paragraph separator or an ignored code point
(`strip_mem_cls`).
-/

namespace Laplace.Uax29

open BreakRule
open scoped Computability

variable {t : Tables}

theorem sentence_separate : Separate (fun cp => sentenceIgnored (t.sentence cp)) (sentenceResets t) := by
  intro cp h
  simp only [sentenceResets, paraSep] at h
  cases hs : t.sentence cp <;> simp_all [sentenceIgnored]

/-- `lastKept` for the code points that sentences do not ignore. -/
abbrev sentenceKept (t : Tables) (before : List UInt32) : Option (UInt32 × List UInt32) :=
  lastKept (fun cp => sentenceIgnored (t.sentence cp)) before

/-- Classes that hold neither ignored code points nor paragraph separators. -/
def Inner (values : List SentenceBreak) : Prop :=
  ∀ value ∈ values, sentenceIgnored value = false ∧ value ∉ paraSep

instance (values : List SentenceBreak) : Decidable (Inner values) := List.decidableBAll ..

variable {r : List UInt32}

theorem sentence_mem_class {values : List SentenceBreak} (hv : Inner values) {X : Language UInt32} :
    sentenceStrip t r.reverse ∈ X * sb t values ↔
      ∃ cp before, sentenceKept t r = some (cp, before) ∧ t.sentence cp ∈ values ∧
        sentenceStrip t before.reverse ∈ X := by
  refine strip_mem_cls sentence_separate (fun cp h => ?_) r
  obtain ⟨hignored, hreset⟩ := hv _ h
  exact ⟨hignored, by simpa [sentenceResets] using hreset⟩

theorem sentence_mem_star {values : List SentenceBreak} (hv : Inner values) {X : Language UInt32} :
    sentenceStrip t r.reverse ∈ X * (sb t values)∗ ↔ sentenceStrip t r.reverse ∈ X ∨
      ∃ cp before, sentenceKept t r = some (cp, before) ∧ t.sentence cp ∈ values ∧
        sentenceStrip t before.reverse ∈ X * (sb t values)∗ := by
  rw [mem_mul_star, sentence_mem_class hv]

/-! ## `TrailingTerm` -/

/-- `TrailingTerm` looks at the code points that are not ignored. -/
theorem trailingTermFrom_kept {allowSpaces allowClose : Bool} : ∀ {hadSpaces : Bool} (r : List UInt32),
    trailingTermFrom t allowSpaces allowClose hadSpaces r = (sentenceKept t r).bind fun p =>
      let value := t.sentence p.1
      if allowSpaces && value == .sp then trailingTermFrom t allowSpaces allowClose true p.2
      else if allowClose && value == .close then trailingTermFrom t false allowClose hadSpaces p.2
      else if value == .aterm then some (true, hadSpaces)
      else if value == .sterm then some (false, hadSpaces)
      else none
  | _, [] => rfl
  | hadSpaces, cp :: r => by
    rw [trailingTermFrom, sentenceKept, lastKept.eq_def]
    simp only
    split
    · exact trailingTermFrom_kept r
    · rfl

/-- The class of the terminator that `TrailingTerm` reports. -/
def termOf (isAterm : Bool) : SentenceBreak := if isAterm then .aterm else .sterm

theorem termOf_inner (isAterm : Bool) : Inner [termOf isAterm] := by
  cases isAterm <;> decide

theorem trailingClose_iff {hadSpaces had isAterm : Bool} (r : List UInt32) :
    trailingTermFrom t false true hadSpaces r = some (isAterm, had) ↔ had = hadSpaces ∧
        sentenceStrip t r.reverse ∈ anything * sb t [termOf isAterm] * (sb t [.close])∗ := by
  rw [trailingTermFrom_kept, sentence_mem_star (by decide), sentence_mem_class (termOf_inner _)]
  cases hk : sentenceKept t r with
  | none => simp
  | some p =>
    obtain ⟨cp, before⟩ := p
    have hlt := lastKept_length hk
    have ih := @trailingClose_iff hadSpaces had isAterm before
    simp only [Option.bind_some, Bool.false_and, Bool.false_eq_true, if_false, Bool.true_and,
      beq_iff_eq, Option.some.injEq, Prod.mk.injEq, List.mem_singleton]
    by_cases hclose : t.sentence cp = .close
    · rw [if_pos hclose, ih]
      cases isAterm <;> simp [hclose, termOf]
    · rw [if_neg hclose]
      cases hs : t.sentence cp <;> cases isAterm <;> cases had <;> cases hadSpaces <;>
        simp_all [termOf]
termination_by r.length

theorem trailingTerm_iff {hadSpaces had isAterm : Bool} (r : List UInt32) :
    trailingTermFrom t true true hadSpaces r = some (isAterm, had) ↔ (had = hadSpaces ∧
        sentenceStrip t r.reverse ∈ anything * sb t [termOf isAterm] * (sb t [.close])∗) ∨
      (had = true ∧ sentenceStrip t r.reverse ∈
        anything * sb t [termOf isAterm] * (sb t [.close])∗ * (sb t [.sp])∗ * sb t [.sp]) := by
  rw [← @trailingClose_iff _ hadSpaces, trailingTermFrom_kept r,
    @trailingTermFrom_kept _ false _ _ r, sentence_mem_class (by decide)]
  cases hk : sentenceKept t r with
  | none => simp
  | some p =>
    obtain ⟨cp, before⟩ := p
    have hlt := lastKept_length hk
    have ih := @trailingTerm_iff true had isAterm before
    by_cases hsp : t.sentence cp = .sp
    · have hkept : ∀ Z : Language UInt32, (∃ cp' before', some (cp, before) = some (cp', before') ∧
          t.sentence cp' ∈ [SentenceBreak.sp] ∧ sentenceStrip t before'.reverse ∈ Z) ↔
          sentenceStrip t before.reverse ∈ Z := by simp [hsp]
      rw [hkept, mem_mul_star, and_or_left]
      simp [hsp, ih]
    · simp [hsp]
termination_by r.length

theorem trailingTerm_mem {isAterm : Bool} :
    sentenceStrip t r.reverse ∈ anything * sb t [termOf isAterm] * (sb t [.close])∗ * (sb t [.sp])∗ ↔
      ∃ had, trailingTerm t r = some (isAterm, had) := by
  unfold trailingTerm
  simp only [trailingTerm_iff]
  rw [mem_mul_star]
  constructor
  · rintro (h | h)
    · exact ⟨false, .inl ⟨rfl, h⟩⟩
    · exact ⟨true, .inr ⟨rfl, h⟩⟩
  · rintro ⟨had, ⟨-, h⟩ | ⟨-, h⟩⟩
    · exact .inl h
    · exact .inr h

theorem trailingTerm_mem_close {isAterm : Bool} :
    sentenceStrip t r.reverse ∈ anything * sb t [termOf isAterm] * (sb t [.close])∗ ↔
      trailingTerm t r = some (isAterm, false) := by
  unfold trailingTerm
  simp [trailingTerm_iff]

/-- `SATerm` is one terminator or the other. -/
theorem saTerm_eq : saTerm t = sb t [termOf true] + sb t [termOf false] := by
  ext w
  rw [Language.mem_add]
  constructor
  · rintro ⟨cp, h, rfl⟩
    rcases List.mem_pair.1 h with h | h
    · exact .inr ⟨cp, List.mem_singleton.2 h, rfl⟩
    · exact .inl ⟨cp, List.mem_singleton.2 h, rfl⟩
  · rintro (⟨cp, h, rfl⟩ | ⟨cp, h, rfl⟩)
    · exact ⟨cp, List.mem_pair.2 (.inr (List.mem_singleton.1 h)), rfl⟩
    · exact ⟨cp, List.mem_pair.2 (.inl (List.mem_singleton.1 h)), rfl⟩

theorem saTerm_mem : sentenceStrip t r.reverse ∈ anything * saTerm t * (sb t [.close])∗ * (sb t [.sp])∗ ↔
      ∃ result, trailingTerm t r = some result := by
  rw [saTerm_eq, mul_add, add_mul, add_mul, Language.mem_add, trailingTerm_mem, trailingTerm_mem]
  constructor
  · rintro (⟨had, h⟩ | ⟨had, h⟩)
    · exact ⟨_, h⟩
    · exact ⟨_, h⟩
  · rintro ⟨⟨isAterm, had⟩, h⟩
    cases isAterm with
    | true => exact .inl ⟨had, h⟩
    | false => exact .inr ⟨had, h⟩

theorem saTerm_mem_close : sentenceStrip t r.reverse ∈ anything * saTerm t * (sb t [.close])∗ ↔
      ∃ isAterm, trailingTerm t r = some (isAterm, false) := by
  rw [saTerm_eq, mul_add, add_mul, Language.mem_add, trailingTerm_mem_close, trailingTerm_mem_close]
  constructor
  · rintro (h | h)
    · exact ⟨true, h⟩
    · exact ⟨false, h⟩
  · rintro ⟨isAterm, h⟩
    cases isAterm with
    | true => exact .inl h
    | false => exact .inr h

/-! ## The look-ahead of SB8 -/

/-- `Sb8FindsLower` skips what SB8 skips, ignored code points among them. -/
theorem sb8FindsLower_iff : ∀ {absorbing : Bool} (rest : List UInt32),
    strip (fun cp => sentenceIgnored (t.sentence cp)) (sentenceResets t) absorbing rest ∈
      (sb8Skipped t)∗ * sb t [.lower] * anything ↔ sb8FindsLower t rest = true
  | _, [] => by simp [strip, sb8FindsLower, sb8Skipped, sb, mul_assoc]
  | absorbing, cp :: rest => by
    have ih := fun absorbing => @sb8FindsLower_iff absorbing rest
    have hcons : ∀ w, cp :: w ∈ (sb8Skipped t)∗ * sb t [.lower] * anything ↔
        t.sentence cp = .lower ∨ (t.sentence cp ∉ [SentenceBreak.oletter, .upper, .lower, .sep, .cr,
          .lf, .sterm, .aterm] ∧ w ∈ (sb8Skipped t)∗ * sb t [.lower] * anything) := by
      intro w
      rw [mul_assoc, sb8Skipped, cons_mem_star, sb, cons_mem_cls, List.mem_singleton,
        and_iff_left mem_anything]
    rw [strip, sb8FindsLower]
    split
    · rename_i hdrop
      simp only [Bool.and_eq_true] at hdrop
      simp only [hdrop.2, if_true]
      exact ih _
    · rw [hcons, ih]
      cases hs : t.sentence cp <;> simp [sentenceIgnored]

/-! ## The rules and the loop -/

section
variable {after : List UInt32} {values : List SentenceBreak} {cp : UInt32}

theorem sentence_snoc {r : List UInt32} :
    (cp :: r).reverse ∈ anything * sb t values ↔ t.sentence cp ∈ values := by
  rw [List.reverse_cons, sb, snoc_mem_cls, and_iff_left mem_anything]

theorem sentence_cons : cp :: after ∈ sb t values * anything ↔ t.sentence cp ∈ values := by
  rw [sb, cons_mem_cls, and_iff_left mem_anything]

end

/-- The rules after SB5, at a position that is not after a paragraph separator. -/
theorem sentenceRules_iff {cp : UInt32} {rest : List UInt32}
    (hpara : ∀ x, r.head? = some x → t.sentence x ∉ paraSep) :
    (if ((sentenceKept t r).map fun p => t.sentence p.1) = some .aterm ∧ t.sentence cp = .numeric then
        true
      else if sb7Matches t (sentenceKept t r) (t.sentence cp) then true
      else match trailingTerm t r with
        | none => true
        | some (isAterm, hadSpaces) =>
          if isAterm && sb8FindsLower t (cp :: rest) then true
          else if t.sentence cp = .scontinue ∨ t.sentence cp = .sterm ∨ t.sentence cp = .aterm then true
          else if !hadSpaces ∧ (t.sentence cp = .close ∨ t.sentence cp = .sp ∨ t.sentence cp = .sep ∨
              t.sentence cp = .cr ∨ t.sentence cp = .lf) then true
          else if t.sentence cp = .sp ∨ t.sentence cp = .sep ∨ t.sentence cp = .cr ∨
              t.sentence cp = .lf then true
          else false) = true ↔
      Decides (sentenceRules t) False (sentenceStrip t r.reverse) (sentenceStrip t (cp :: rest)) := by
  have hstrip : sentenceStrip t (cp :: rest) = cp :: strip (fun cp => sentenceIgnored (t.sentence cp))
      (sentenceResets t) (!sentenceResets t cp) rest := by simp [sentenceStrip, strip]
  have hright : ∀ values, sentenceStrip t (cp :: rest) ∈ sb t values * anything ↔
      t.sentence cp ∈ values := fun values => by rw [hstrip, sentence_cons]
  unfold sentenceRules
  refine decides_cons rfl ?_ fun h6 => decides_cons rfl ?_ fun h7 => ?_
  · rw [matches_join, hright, sentence_mem_class (by decide)]
    rcases sentenceKept t r with _ | ⟨x, before⟩ <;> simp [and_comm]
  · rw [matches_join, hright, ← mul_assoc, sentence_mem_class (by decide)]
    simp only [sentence_mem_class (show Inner [.upper, .lower] by decide)]
    rcases sentenceKept t r with _ | ⟨x, before⟩
    · simp [sb7Matches]
    · simp only [sb7Matches]
      rcases hk : sentenceKept t before with _ | ⟨y, before'⟩
      · simp [hk]
      · simp [hk, and_comm, and_assoc]
  · have hsp : sentenceStrip t r.reverse ∈
        anything * (saTerm t * (sb t [.close])∗ * (sb t [.sp])∗) ↔ ∃ p, trailingTerm t r = some p := by
      rw [← saTerm_mem]
      simp only [mul_assoc]
    have haterm : sentenceStrip t r.reverse ∈
        anything * (sb t [.aterm] * (sb t [.close])∗ * (sb t [.sp])∗) ↔
          ∃ had, trailingTerm t r = some (true, had) := by
      rw [← trailingTerm_mem]
      simp only [mul_assoc, termOf, if_true]
    have hclose : sentenceStrip t r.reverse ∈ anything * (saTerm t * (sb t [.close])∗) ↔
        ∃ isAterm, trailingTerm t r = some (isAterm, false) := by
      rw [← saTerm_mem_close]
      simp only [mul_assoc]
    have hterm : sentenceStrip t r.reverse ∈
        anything * (saTerm t * (sb t [.close])∗ * (sb t [.sp])∗ * (1 + sb t paraSep)) ↔
          ∃ p, trailingTerm t r = some p := by
      rw [mul_add, mul_one, mul_add, Language.mem_add, hsp, or_iff_left]
      -- the stripped text would end in a paragraph separator, and so would the text
      rintro ⟨x, -, y, ⟨z, -, w, ⟨d, hd, rfl⟩, rfl⟩, h⟩
      exact hpara d (strip_ends_reset sentence_separate (by simpa [sentenceResets] using hd) r
        (((List.append_assoc x z [d]).trans h).symm)) hd
    cases htt : trailingTerm t r with
    | none =>
      rw [htt] at hsp haterm hclose hterm
      refine iff_of_true rfl ?_
      rw [Decides.of_not_match fun h => by simpa using haterm.1 h.1,
        Decides.of_not_match fun h => by simpa using hsp.1 h.1,
        Decides.of_not_match fun h => by simpa using hclose.1 h.1,
        Decides.of_not_match fun h => by simpa using hsp.1 h.1,
        Decides.of_not_match fun h => by simpa using hterm.1 h.1, Decides.of_match]
      · rfl
      · simp [matches_join]
    | some p =>
      obtain ⟨isAterm, hadSpaces⟩ := p
      refine decides_cons rfl ?_ fun _ => decides_cons rfl ?_ fun _ => decides_cons rfl ?_ fun _ =>
        decides_cons rfl ?_ fun _ => ?_
      · rw [matches_join, haterm, htt, sentenceStrip, sb8FindsLower_iff]
        simp [and_comm]
      · rw [matches_join, hsp, htt, hright]
        simp
      · rw [matches_join, hclose, htt, hright]
        simp [paraSep]
      · rw [matches_join, hsp, htt, hright]
        simp [paraSep]
      · rw [Decides.of_match]
        · simp [split]
        · rw [matches_split, hterm, htt]
          simp

theorem sentenceContinues_iff {p : UInt32} {cp : UInt32} {rest : List UInt32} :
    sentenceContinues t (p :: r) cp rest = true ↔ sentenceJoins t (p :: r).reverse (cp :: rest) := by
  unfold sentenceContinues sentenceJoins sentenceLiteralRules
  simp only [List.head?_cons, Option.map_some, Option.some.injEq]
  refine decides_cons rfl ?_ fun _ => decides_cons rfl ?_ fun hpara => decides_cons rfl ?_ fun _ => ?_
  · rw [matches_join, sentence_snoc, sentence_cons]
    simp
  · rw [matches_split, sentence_snoc]
    simp [paraSep]
  · rw [matches_join, sentence_cons]
    simp [sentenceIgnored]
  · refine sentenceRules_iff fun x hx => ?_
    injection hx with hx
    rw [← hx]
    simpa [paraSep] using hpara

theorem sentence_stateAfter (pre : List UInt32) (first : UInt32) (seg : List UInt32) :
    (sentenceScanner t).stateAfter pre first seg = (pre ++ first :: seg).reverse := by
  induction seg using List.reverseRecOn with
  | nil => simp [Scanner.stateAfter, sentenceScanner]
  | append_singleton seg c ih =>
    rw [Scanner.stateAfter_snoc, ih]
    simp [sentenceScanner]

/-- **Sentence boundaries.** For every property assignment and every text, the sentence boundaries
that are emitted are the positions that SB3 to SB11 and SB998 do not join. -/
theorem sentence_boundaries (t : Tables) (text : DecodedText) : ∀ i, i ∈ boundaries t .sentence text ↔
      Breaks text.codepoints.length (At (sentenceJoins t) text.codepoints) i := by
  rw [boundaries_eq]
  refine (Scanner.segments_iff_of (m := sentenceScanner t) (K := sentenceJoins t) ?_).2
    fun _ _ _ _ _ => Iff.rfl
  intro pre first seg c rest _ _
  rw [sentence_stateAfter]
  obtain ⟨p, r, hr⟩ : ∃ p r, (pre ++ first :: seg).reverse = p :: r :=
    List.exists_cons_of_ne_nil (by simp)
  rw [← List.reverse_reverse (pre ++ first :: seg), hr, List.reverse_reverse]
  exact sentenceContinues_iff

end Laplace.Uax29
