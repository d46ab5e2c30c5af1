import Mathlib.Data.List.Basic
import Mathlib.Tactic

/-!
# Cutting a text into segments

A loop that asks again and again for the end of the next segment, with an end that is the first
position where the text is not joined. `segments_iff`: the loop cuts exactly at the breaks of `J` when
and only when, after a break of `J` and before the next one, what the loop calls joined is joined.
`Scanner` is such a loop whose decisions come from a state that is carried along the segment.
`Tiles` is what spans do that follow each other without a gap.
-/

namespace Laplace

/-- The ends of the segments from `start` on; `next start` is the end of the segment at `start`. -/
def ends (next : Nat → Nat) (n : Nat) : Nat → Nat → List Nat
  | 0, _ => []
  | rounds + 1, start => if start < n then next start :: ends next n rounds (next start) else []

/-- `next start` is the first position after `start` that is not joined, or the end. -/
structure FirstBreak (n : Nat) (joined : Nat → Nat → Prop) (next : Nat → Nat) : Prop where
  lt : ∀ start < n, start < next start
  le : ∀ start < n, next start ≤ n
  joins : ∀ start < n, ∀ i, start < i → i < next start → joined start i
  breaks : ∀ start < n, next start < n → ¬ joined start (next start)

/-- Position `i` ends a segment: the end of the text, or a position inside that `J` does not join. -/
def Breaks (n : Nat) (J : Nat → Prop) (i : Nat) : Prop := 0 < i ∧ i ≤ n ∧ (i < n → ¬ J i)

/-- A segment may begin at `start`. -/
def Begins (J : Nat → Prop) (start : Nat) : Prop := start = 0 ∨ ¬ J start

/-- Within the segments of `J` the decisions of the loop are those of `J`. -/
def Agrees (n : Nat) (joined : Nat → Nat → Prop) (J : Nat → Prop) : Prop :=
  ∀ start i, Begins J start → start < i → i < n → (∀ k, start < k → k < i → J k) →
    (joined start i ↔ J i)

section
variable {n : Nat} {joined : Nat → Nat → Prop} {next : Nat → Nat} {J K : Nat → Prop}

theorem Breaks.begins {i : Nat} (h : Breaks n J i) (hi : i < n) : Begins J i := .inr (h.2.2 hi)

theorem not_breaks {i : Nat} (h0 : 0 < i) (hi : i < n) : ¬ Breaks n J i ↔ J i := by
  constructor
  · intro h
    by_contra hJ
    exact h ⟨h0, Nat.le_of_lt hi, fun _ => hJ⟩
  · exact fun hJ h => h.2.2 hi hJ

theorem ends_succ {rounds start : Nat} (h : start < n) :
    ends next n (rounds + 1) start = next start :: ends next n rounds (next start) := if_pos h

theorem ends_gt (hf : FirstBreak n joined next) :
    ∀ rounds start, ∀ i ∈ ends next n rounds start, start < i
  | 0, _, _, hi => by cases hi
  | rounds + 1, start, i, hi => by
    unfold ends at hi
    split at hi
    · rename_i hlt
      rcases List.mem_cons.1 hi with rfl | hi
      · exact hf.lt start hlt
      · exact Nat.lt_trans (hf.lt start hlt) (ends_gt hf rounds _ i hi)
    · cases hi

/-- In a segment of `J` the loop finds the end of the segment. -/
theorem FirstBreak.joins_of (hf : FirstBreak n joined next) (ha : Agrees n joined J) {start : Nat}
    (hs : Begins J start) (hlt : start < n) : ∀ k, start < k → k < next start → J k := by
  intro k
  induction k using Nat.strong_induction_on with
  | _ k ih =>
    intro hsk hk
    have hin : ∀ k', start < k' → k' < k → J k' := fun k' h h' => ih k' h' h (by omega)
    exact (ha start k hs hsk (Nat.lt_of_lt_of_le hk (hf.le start hlt)) hin).1
      (hf.joins start hlt k hsk hk)

theorem mem_ends (hf : FirstBreak n joined next) (ha : Agrees n joined J) :
    ∀ rounds start, n ≤ start + rounds → Begins J start →
      ∀ i, i ∈ ends next n rounds start ↔ start < i ∧ Breaks n J i
  | 0, start, hn, _, i => by
    constructor
    · intro hi
      cases hi
    · rintro ⟨hsi, -, hin, -⟩
      omega
  | rounds + 1, start, hn, hs, i => by
    by_cases hlt : start < n
    · have hnext := hf.lt start hlt
      have hjoins := hf.joins_of ha hs hlt
      have hbreaks : Breaks n J (next start) := ⟨by omega, hf.le start hlt, fun hin hJ =>
        hf.breaks start hlt hin ((ha start _ hs hnext hin hjoins).2 hJ)⟩
      rw [ends_succ hlt, List.mem_cons]
      by_cases hend : next start < n
      · rw [mem_ends hf ha rounds _ (by omega) (hbreaks.begins hend) i]
        constructor
        · rintro (rfl | ⟨hi, hb⟩)
          · exact ⟨hnext, hbreaks⟩
          · exact ⟨by omega, hb⟩
        · rintro ⟨hi, hb⟩
          rcases Nat.lt_trichotomy i (next start) with h | h | h
          · exact absurd hb ((not_breaks hb.1 (by omega)).2 (hjoins i hi h))
          · exact .inl h
          · exact .inr ⟨h, hb⟩
      · have heq : next start = n := Nat.le_antisymm (hf.le start hlt) (by omega)
        have hnil : ends next n rounds (next start) = [] := by
          cases rounds with
          | zero => rfl
          | succ rounds => exact if_neg hend
        rw [hnil, List.mem_nil_iff, or_false]
        constructor
        · rintro rfl
          exact ⟨hnext, hbreaks⟩
        · rintro ⟨hi, hb⟩
          by_contra hne
          have := hb.2.1
          exact (not_breaks hb.1 (by omega)).2 (hjoins i hi (by omega)) hb
    · rw [show ends next n (rounds + 1) start = [] from if_neg hlt]
      constructor
      · intro hi
        cases hi
      · rintro ⟨hsi, -, hin, -⟩
        omega

theorem next_mem_ends (hf : FirstBreak n joined next) :
    ∀ rounds start, n ≤ start + rounds → ∀ x, x = start ∨ x ∈ ends next n rounds start → x < n →
      next x ∈ ends next n rounds start ∧ ∀ k ∈ ends next n rounds start, k ≤ x ∨ next x ≤ k
  | 0, start, hn, x, hx, hxn => by
    rcases hx with rfl | hx
    · omega
    · cases hx
  | rounds + 1, start, hn, x, hx, hxn => by
    have hlt : start < n := by
      by_contra hge
      rcases hx with rfl | hx
      · exact hge hxn
      · rw [show ends next n (rounds + 1) start = [] from if_neg hge] at hx
        cases hx
    have hgt := ends_gt hf rounds (next start)
    rw [ends_succ hlt] at hx ⊢
    rcases hx with rfl | hx
    · refine ⟨List.mem_cons_self, fun k hk => .inr ?_⟩
      rcases List.mem_cons.1 hk with rfl | hk
      · exact Nat.le_refl _
      · exact Nat.le_of_lt (hgt k hk)
    · rw [List.mem_cons] at hx
      have hlater := hf.lt start hlt
      obtain ⟨hmem, hall⟩ := next_mem_ends hf rounds (next start) (by omega) x hx hxn
      refine ⟨List.mem_cons_of_mem _ hmem, fun k hk => ?_⟩
      rcases List.mem_cons.1 hk with rfl | hk
      · rcases hx with rfl | hx
        · exact .inl (Nat.le_refl _)
        · exact .inl (Nat.le_of_lt (hgt x hx))
      · exact hall k hk

/-- **Segments.** The loop cuts at the breaks of `J` exactly when it agrees with `J` within the
segments of `J`. -/
theorem segments_iff (hf : FirstBreak n joined next) :
    (∀ i, i ∈ ends next n n 0 ↔ Breaks n J i) ↔ Agrees n joined J := by
  constructor
  · intro hall start i hs hsi hin hJ
    have hmem : start = 0 ∨ start ∈ ends next n n 0 := by
      rcases Nat.eq_zero_or_pos start with h0 | h0
      · exact .inl h0
      · refine .inr ((hall start).2 ⟨h0, by omega, fun _ => ?_⟩)
        exact hs.resolve_left (by omega)
    obtain ⟨hnext, hbetween⟩ := next_mem_ends hf n 0 (by omega) start hmem (by omega)
    have hlt := hf.lt start (by omega)
    have hge : i ≤ next start := by
      by_contra hgt
      exact ((hall _).1 hnext).2.2 (by omega) (hJ _ hlt (by omega))
    rcases Nat.lt_or_eq_of_le hge with hgt | rfl
    · have hno : ¬ Breaks n J i := fun hb => by
        have := hbetween i ((hall i).2 hb)
        omega
      exact iff_of_true (hf.joins start (by omega) i hsi hgt) ((not_breaks (by omega) hin).1 hno)
    · exact iff_of_false (hf.breaks start (by omega) hin) (((hall _).1 hnext).2.2 hin)
  · intro ha i
    rw [mem_ends hf ha n 0 (by omega) (.inl rfl) i]
    exact ⟨fun h => h.2, fun h => ⟨h.1, h⟩⟩

theorem exists_begins (J : Nat → Prop) : ∀ i, 0 < i →
    ∃ start < i, Begins J start ∧ ∀ k, start < k → k < i → J k
  | i + 1, _ => by
    by_cases hi : Begins J i
    · exact ⟨i, by omega, hi, fun k hk hki => by omega⟩
    · have h0 : i ≠ 0 := fun h => hi (.inl h)
      obtain ⟨start, hlt, hs, hJ⟩ := exists_begins J i (by omega)
      refine ⟨start, by omega, hs, fun k hk hki => ?_⟩
      rcases Nat.lt_or_eq_of_le (Nat.le_of_lt_succ hki) with h | rfl
      · exact hJ k hk h
      · exact Classical.not_not.1 fun hJ => hi (.inr hJ)

theorem agrees_iff
    (h : ∀ start i, Begins J start → start < i → i < n → (joined start i ↔ K i)) :
    Agrees n joined J ↔ ∀ i, 0 < i → i < n → (K i ↔ J i) := by
  constructor
  · intro ha i h0 hin
    obtain ⟨start, hlt, hs, hJ⟩ := exists_begins J i h0
    rw [← h start i hs hlt hin]
    exact ha start i hs hlt hin hJ
  · intro hK start i hs hsi hin _
    rw [h start i hs hsi hin]
    exact hK i (by omega) hin

end

/-! ## Scanners -/

/-- A loop that carries a state along the segment: `enter` sees the text before the segment, last
element first, and its first element; `joins` sees the next element and what follows it. -/
structure Scanner (α σ : Type*) where
  enter : List α → α → σ
  joins : σ → α → List α → Bool
  advance : σ → α → σ

namespace Scanner

variable {α σ : Type*} (m : Scanner α σ)

/-- The loop from position `index` on. -/
def scan : σ → Nat → List α → Nat
  | _, index, [] => index
  | st, index, c :: rest =>
    if m.joins st c rest then scan (m.advance st c) (index + 1) rest else index

/-- The end of the segment at `start`. -/
def next (text : List α) (start : Nat) : Nat :=
  match text.drop start with
  | [] => text.length
  | first :: rest => m.scan (m.enter (text.take start).reverse first) (start + 1) rest

/-- The state after the elements `first :: seg` of a segment that begins after `pre`. -/
def stateAfter (pre : List α) (first : α) (seg : List α) : σ :=
  seg.foldl m.advance (m.enter pre.reverse first)

/-- The decision at position `i` of a segment that begins at `start`. -/
def joined (text : List α) (start i : Nat) : Prop :=
  ∀ pre first seg c rest, text = pre ++ first :: (seg ++ c :: rest) → pre.length = start →
    pre.length + 1 + seg.length = i → m.joins (m.stateAfter pre first seg) c rest = true

variable {m} {text : List α} {J : List α → List α → Prop}

theorem stateAfter_snoc {pre : List α} {first : α} {seg : List α} {c : α} :
    m.stateAfter pre first (seg ++ [c]) = m.advance (m.stateAfter pre first seg) c := by
  rw [stateAfter, List.foldl_append]
  rfl

theorem scan_bounds :
    ∀ (tail : List α) (st : σ) (index : Nat),
      index ≤ m.scan st index tail ∧ m.scan st index tail ≤ index + tail.length
  | [], _, index => ⟨Nat.le_refl _, Nat.le_refl _⟩
  | c :: rest, st, index => by
    unfold scan
    have hrest := scan_bounds rest (m.advance st c) (index + 1)
    rw [List.length_cons]
    split <;> omega

theorem scan_decides :
    ∀ (tail : List α) (st : σ) (index : Nat) (seg : List α) (c : α) (rest : List α),
      tail = seg ++ c :: rest → index + seg.length ≤ m.scan st index tail →
      m.joins (seg.foldl m.advance st) c rest = decide (index + seg.length < m.scan st index tail)
  | [], _, _, seg, c, rest, h, _ => by simp at h
  | d :: tail, st, index, seg, c, rest, h, hle => by
    have hbounds := scan_bounds (m := m) tail (m.advance st d) (index + 1)
    unfold scan at hle ⊢
    cases seg with
    | nil =>
      injection h with hdc hrest
      rw [← hdc, ← hrest, List.length_nil, List.foldl_nil]
      split
      · rename_i hd
        exact hd.trans (decide_eq_true (by omega)).symm
      · rename_i hd
        exact (eq_false_of_ne_true hd).trans (decide_eq_false (by omega)).symm
    | cons e seg =>
      injection h with hde htail
      rw [List.length_cons] at hle ⊢
      split at hle
      · rename_i hd
        rw [if_pos hd, ← hde, List.foldl_cons, ← Nat.add_assoc, Nat.add_right_comm]
        exact scan_decides tail _ (index + 1) seg c rest htail (by omega)
      · omega

theorem exists_split {start i : Nat} (hsi : start < i) (hi : i < text.length) :
    ∃ pre first seg c rest, text = pre ++ first :: (seg ++ c :: rest) ∧ pre.length = start ∧
      pre.length + 1 + seg.length = i := by
  refine ⟨text.take start, text[start], (text.drop (start + 1)).take (i - start - 1), text[i],
    text.drop (i + 1), ?_, by simp; omega, by simp; omega⟩
  have hdrop : text.drop i = (text.drop (start + 1)).drop (i - start - 1) := by
    rw [List.drop_drop]
    congr 1
    omega
  rw [← List.drop_eq_getElem_cons hi, hdrop, List.take_append_drop, ← List.drop_eq_getElem_cons,
    List.take_append_drop]

theorem next_eq {pre : List α} {first : α} {tail : List α} :
    m.next (pre ++ first :: tail) pre.length = m.scan (m.enter pre.reverse first) (pre.length + 1) tail := by
  simp [next]

theorem next_firstBreak : FirstBreak text.length (m.joined text) (m.next text) := by
  have cut : ∀ start < text.length, ∃ pre first tail, text = pre ++ first :: tail ∧
      pre.length = start := fun start h =>
    ⟨text.take start, text[start], text.drop (start + 1), by
      rw [← List.drop_eq_getElem_cons h, List.take_append_drop], by simp; omega⟩
  constructor
  · intro start h
    obtain ⟨pre, first, tail, rfl, rfl⟩ := cut start h
    rw [next_eq]
    exact (scan_bounds ..).1
  · intro start h
    obtain ⟨pre, first, tail, rfl, rfl⟩ := cut start h
    have := (scan_bounds (m := m) tail (m.enter pre.reverse first) (pre.length + 1)).2
    rw [next_eq]
    simp
    omega
  · rintro start h i - hi pre first seg c rest rfl rfl rfl
    rw [next_eq] at hi
    exact (scan_decides _ _ _ seg c rest rfl hi.le).trans (decide_eq_true hi)
  · intro start h hend hjoined
    obtain ⟨pre, first, seg, c, rest, htext, hstart, hi⟩ :=
      @exists_split _ text start (m.next text start)
        (by
          obtain ⟨pre, first, tail, rfl, rfl⟩ := cut start h
          rw [next_eq]
          exact (scan_bounds ..).1) hend
    have htrue := hjoined pre first seg c rest htext hstart hi
    subst htext hstart
    rw [next_eq] at hi
    have hfalse := (scan_decides _ _ _ seg c rest rfl hi.le).trans (decide_eq_false hi.not_lt)
    rw [stateAfter, hfalse] at htrue
    cases htrue

end Scanner

/-! ## Breaks of a text -/

/-- `J` at a position of the text, given what lies before it and what follows. -/
def At {α : Type*} (J : List α → List α → Prop) (text : List α) (i : Nat) : Prop :=
  J (text.take i) (text.drop i)

/-- A segment may begin after `pre`. -/
def BeginsAfter {α : Type*} (J : List α → List α → Prop) (pre tail : List α) : Prop :=
  pre = [] ∨ ¬ J pre tail

section
variable {α σ : Type*} {m : Scanner α σ} {text : List α} {J K : List α → List α → Prop}

theorem at_length {pre tail : List α} : At J (pre ++ tail) pre.length ↔ J pre tail := by
  rw [At, List.take_left, List.drop_left]

theorem at_split {pre : List α} {first : α} {seg tail : List α} :
    At J (pre ++ first :: (seg ++ tail)) (pre.length + 1 + seg.length) ↔ J (pre ++ first :: seg) tail := by
  have h : pre ++ first :: (seg ++ tail) = (pre ++ first :: seg) ++ tail := by simp
  have hlen : pre.length + 1 + seg.length = (pre ++ first :: seg).length := by simp; omega
  rw [h, hlen, at_length]

theorem begins_length {pre tail : List α} :
    Begins (At J (pre ++ tail)) pre.length ↔ BeginsAfter J pre tail := by
  rw [Begins, at_length, List.length_eq_zero_iff, BeginsAfter]

theorem Scanner.joined_split {pre : List α} {first : α} {seg : List α} {c : α} {rest : List α} :
    m.joined (pre ++ first :: (seg ++ c :: rest)) pre.length (pre.length + 1 + seg.length) ↔
      m.joins (m.stateAfter pre first seg) c rest = true := by
  constructor
  · exact fun h => h pre first seg c rest rfl rfl rfl
  · intro h pre' first' seg' c' rest' htext hstart hi
    obtain ⟨rfl, htail⟩ := List.append_inj htext hstart.symm
    injection htail with hfirst htail
    obtain ⟨rfl, hlast⟩ := List.append_inj htail (by omega)
    injection hlast with hc hrest
    rw [← hfirst, ← hc, ← hrest]
    exact h

/-- Every position inside a text lies in a segment of `J`. -/
theorem exists_segment (J : List α → List α → Prop) :
    ∀ (r tail : List α), r ≠ [] → ∃ pre first seg, r.reverse = pre ++ first :: seg ∧
      BeginsAfter J pre (first :: (seg ++ tail)) ∧
      ∀ s d s', seg = s ++ d :: s' → J (pre ++ first :: s) (d :: (s' ++ tail))
  | [], _, h => absurd rfl h
  | x :: r, tail, _ => by
    rw [List.reverse_cons]
    by_cases hb : BeginsAfter J r.reverse (x :: tail)
    · exact ⟨r.reverse, x, [], rfl, hb, fun s d s' h => by simp at h⟩
    · obtain ⟨hne, hJ⟩ := not_or.1 hb
      obtain ⟨pre, first, seg, hr, hbegins, hin⟩ :=
        exists_segment J r (x :: tail) fun h => hne (List.reverse_eq_nil_iff.2 h)
      refine ⟨pre, first, seg ++ [x], by rw [hr]; simp, by simpa using hbegins, fun s d s' h => ?_⟩
      rcases List.eq_nil_or_concat s' with rfl | ⟨s', y, rfl⟩
      · obtain ⟨rfl, hxd⟩ := List.append_inj' h rfl
        injection hxd with hxd
        rw [← hr, ← hxd]
        exact Classical.not_not.1 hJ
      · rw [List.concat_eq_append, ← List.cons_append, ← List.append_assoc] at h
        obtain ⟨hseg, hxy⟩ := List.append_inj' h rfl
        injection hxy with hxy
        rw [List.concat_eq_append, ← hxy, List.append_assoc]
        exact hin s d s' hseg

/-- **Scanner rule.** A scanner cuts exactly at the breaks of `J` when and only when its state decides
as `J` does within the segments of `J`. -/
theorem Scanner.segments_iff :
    (∀ i, i ∈ ends (m.next text) text.length text.length 0 ↔ Breaks text.length (At J text) i) ↔
      ∀ pre first seg c rest, text = pre ++ first :: (seg ++ c :: rest) →
        BeginsAfter J pre (first :: (seg ++ c :: rest)) →
        (∀ s d s', seg = s ++ d :: s' → J (pre ++ first :: s) (d :: (s' ++ c :: rest))) →
        (m.joins (m.stateAfter pre first seg) c rest = true ↔ J (pre ++ first :: seg) (c :: rest)) := by
  rw [Laplace.segments_iff m.next_firstBreak]
  constructor
  · rintro h pre first seg c rest rfl hbegins hin
    have := h pre.length (pre.length + 1 + seg.length) (begins_length.2 hbegins) (by omega)
      (by simp; omega) fun k hk hki => ?_
    · rwa [joined_split, at_split] at this
    · have hlt : k - pre.length - 1 < seg.length := by omega
      obtain ⟨s, d, s', rfl, hs⟩ : ∃ s d s', seg = s ++ d :: s' ∧ pre.length + 1 + s.length = k :=
        ⟨seg.take (k - pre.length - 1), seg[k - pre.length - 1],
          seg.drop (k - pre.length - 1 + 1), by
            rw [← List.drop_eq_getElem_cons, List.take_append_drop], by simp; omega⟩
      rw [← hs, List.append_assoc, at_split]
      exact hin s d s' rfl
  · intro h start i hbegins hsi hi hin
    obtain ⟨pre, first, seg, c, rest, rfl, rfl, rfl⟩ := exists_split hsi hi
    rw [joined_split, at_split]
    refine h pre first seg c rest rfl (begins_length.1 hbegins) ?_
    rintro s d s' rfl
    have := hin (pre.length + 1 + s.length) (by omega) (by simp)
    rwa [List.append_assoc, at_split] at this

/-- A scanner whose decisions `K` do not depend on where the segment began. -/
theorem Scanner.segments_iff_of
    (h : ∀ pre first seg c rest, text = pre ++ first :: (seg ++ c :: rest) →
      BeginsAfter J pre (first :: (seg ++ c :: rest)) →
      (m.joins (m.stateAfter pre first seg) c rest = true ↔ K (pre ++ first :: seg) (c :: rest))) :
    (∀ i, i ∈ ends (m.next text) text.length text.length 0 ↔ Breaks text.length (At J text) i) ↔
      ∀ before c rest, text = before ++ c :: rest → before ≠ [] →
        (K before (c :: rest) ↔ J before (c :: rest)) := by
  rw [Laplace.segments_iff m.next_firstBreak, agrees_iff (K := At K text)]
  · constructor
    · rintro hK before c rest rfl hne
      have := hK before.length (List.length_pos_iff.2 hne) (by simp)
      rwa [at_length, at_length] at this
    · intro hK i h0 hi
      have htext : text = text.take i ++ text[i] :: text.drop (i + 1) := by
        rw [← List.drop_eq_getElem_cons, List.take_append_drop]
      have := hK (text.take i) text[i] (text.drop (i + 1)) htext
        (by rw [← List.length_pos_iff, List.length_take]; omega)
      rwa [← List.drop_eq_getElem_cons] at this
  · intro start i hbegins hsi hi
    obtain ⟨pre, first, seg, c, rest, rfl, rfl, rfl⟩ := exists_split hsi hi
    rw [joined_split, at_split]
    exact h pre first seg c rest rfl (begins_length.1 hbegins)

end

/-! ## Spans that tile a range -/

/-- The spans follow each other without a gap, from `start` to `stop`. -/
def Tiles : List (ℕ × ℕ) → ℕ → ℕ → Prop
  | [], start, stop => start = stop
  | span :: spans, start, stop => span.1 = start ∧ start ≤ span.2 ∧ Tiles spans span.2 stop

namespace Tiles

variable {spans spans' : List (ℕ × ℕ)} {start middle stop : ℕ}

@[simp] theorem nil : Tiles [] start stop ↔ start = stop := Iff.rfl

@[simp] theorem cons {span : ℕ × ℕ} : Tiles (span :: spans) start stop ↔
    span.1 = start ∧ start ≤ span.2 ∧ Tiles spans span.2 stop := Iff.rfl

theorem single (h : start ≤ stop) : Tiles [(start, stop)] start stop := ⟨rfl, h, rfl⟩

theorem append : ∀ {spans : List (ℕ × ℕ)} {start : ℕ}, Tiles spans start middle →
    Tiles spans' middle stop → Tiles (spans ++ spans') start stop
  | [], _, h, h' => (show _ = _ from h) ▸ h'
  | _ :: _, _, ⟨hstart, hspan, hrest⟩, h' => ⟨hstart, hspan, hrest.append h'⟩

end Tiles

end Laplace
