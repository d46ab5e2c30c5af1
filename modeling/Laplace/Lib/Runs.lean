import Mathlib.Tactic

/-!
# Sorting between barriers

Elements with key 0 are barriers, the others are marks: between two barriers the marks are sorted
by their keys, and marks with one key keep their order. What such a sort keeps is, for every key,
the sequence of the barriers and the marks with that key; two lists that agree in all of these and
are both in order are the same. So a sort between barriers forgets how marks with different keys
were mixed, and nothing else.
-/

namespace Laplace

variable {α : Type*} (key : α → ℕ)

namespace Runs

/-- The elements in the order of their keys, those with one key in the order they had. -/
structure StableSort (run sorted : List α) : Prop where
  ordered : sorted.Pairwise fun a b => key a ≤ key b
  stable : ∀ k, sorted.filter (fun a => key a = k) = run.filter fun a => key a = k

/-- Every maximal run of marks is sorted. -/
inductive Sorts : List α → List α → Prop
  | last {run sorted : List α} (marks : ∀ a ∈ run, key a ≠ 0) (sort : StableSort key run sorted) :
    Sorts run sorted
  | barrier {run sorted rest rest' : List α} {a : α} (marks : ∀ a ∈ run, key a ≠ 0)
    (sort : StableSort key run sorted) (zero : key a = 0) (next : Sorts rest rest') :
    Sorts (run ++ a :: rest) (sorted ++ a :: rest')

/-- The barriers, and the marks with one key. -/
def trace (k : ℕ) (l : List α) : List α := l.filter fun a => key a = 0 ∨ key a = k

/-- The lists differ in how marks with different keys are mixed. -/
def Same (l l' : List α) : Prop := ∀ k, trace key k l = trace key k l'

/-- A mark does not follow one with a higher key. -/
def Ordered (l : List α) : Prop := l.IsChain fun a b => key b = 0 ∨ key a ≤ key b

/-- Insert an element behind the elements that stay before it; they are given in reverse. -/
def place (a : α) : List α → List α
  | [] => [a]
  | b :: before => if key b = 0 ∨ key b ≤ key a then a :: b :: before else b :: place a before

/-- Insert the elements one by one. -/
def arrange : List α → List α → List α
  | before, [] => before.reverse
  | before, a :: rest => arrange (if key a = 0 then a :: before else place key a before) rest

variable {key} {l l' x x' y y' : List α}

/-! ## Traces -/

theorem trace_append (k : ℕ) (x y : List α) : trace key k (x ++ y) = trace key k x ++ trace key k y :=
  List.filter_append ..

theorem trace_reverse (k : ℕ) (l : List α) : trace key k l.reverse = (trace key k l).reverse :=
  List.filter_reverse ..

theorem trace_cons_zero {a : α} (h : key a = 0) (k : ℕ) (l : List α) :
    trace key k (a :: l) = a :: trace key k l :=
  List.filter_cons_of_pos (decide_eq_true (.inl h))

theorem trace_cons_self (a : α) (l : List α) : trace key (key a) (a :: l) = a :: trace key (key a) l :=
  List.filter_cons_of_pos (decide_eq_true (.inr rfl))

theorem trace_cons_other {a : α} (h : key a ≠ 0) {k : ℕ} (hk : key a ≠ k) (l : List α) :
    trace key k (a :: l) = trace key k l :=
  List.filter_cons_of_neg (by simp [h, hk])

theorem Same.refl (l : List α) : Same key l l := fun _ => rfl

theorem Same.symm (h : Same key l l') : Same key l' l := fun k => (h k).symm

theorem Same.trans {l'' : List α} (h : Same key l l') (h' : Same key l' l'') : Same key l l'' :=
  fun k => (h k).trans (h' k)

theorem Same.append (hx : Same key x x') (hy : Same key y y') : Same key (x ++ y) (x' ++ y') :=
  fun k => by rw [trace_append, trace_append, hx k, hy k]

theorem Same.comm (hmarks : ∀ a ∈ x ++ y, key a ≠ 0) (hdiffer : ∀ a ∈ x, ∀ b ∈ y, key a ≠ key b) :
    Same key (x ++ y) (y ++ x) := by
  intro k
  have hnil {l : List α} (hl : ∀ a ∈ l, key a ≠ 0) (hk : ∀ a ∈ l, key a ≠ k) :
      trace key k l = [] :=
    List.filter_eq_nil_iff.2 fun a ha => by simp [hl a ha, hk a ha]
  have hx : ∀ a ∈ x, key a ≠ 0 := fun a ha => hmarks a (List.mem_append_left y ha)
  have hy : ∀ a ∈ y, key a ≠ 0 := fun a ha => hmarks a (List.mem_append_right x ha)
  rw [trace_append, trace_append]
  by_cases h : ∃ a ∈ x, key a = k
  · obtain ⟨a, ha, rfl⟩ := h
    rw [hnil hy fun b hb => (hdiffer a ha b hb).symm, List.append_nil, List.nil_append]
  · push Not at h
    rw [hnil hx h, List.append_nil, List.nil_append]

theorem Same.mem_iff (h : Same key l l') (a : α) : a ∈ l ↔ a ∈ l' := by
  have hmem (l : List α) : a ∈ l ↔ a ∈ trace key (key a) l := by
    rw [trace, List.mem_filter]
    simp
  rw [hmem l, hmem l', h]

/-! ## One order -/

theorem Ordered.le_first {k : ℕ} : ∀ {l : List α} {a b : α} {rest : List α},
    Ordered key (b :: l) → key b ≠ 0 → key a ≠ 0 → trace key k (b :: l) = a :: rest → key b ≤ key a
  | l, a, b, rest, hordered, hb, ha, htrace => by
    by_cases hk : key b = k
    · subst hk
      rw [trace_cons_self] at htrace
      rw [(List.cons.inj htrace).1]
    · rw [trace_cons_other hb hk] at htrace
      match l with
      | [] => exact absurd htrace (by simp [trace])
      | c :: l =>
        obtain ⟨hbc, hordered⟩ := List.isChain_cons_cons.1 hordered
        by_cases hc : key c = 0
        · rw [trace_cons_zero hc] at htrace
          exact absurd ((List.cons.inj htrace).1 ▸ hc) ha
        · exact (hbc.resolve_left hc).trans (Ordered.le_first hordered hc ha htrace)

theorem Same.eq_of_ordered : ∀ {l l' : List α}, Same key l l' → Ordered key l → Ordered key l' → l = l'
  | [], [], _, _, _ => rfl
  | [], b :: l', h, _, _ => absurd ((h.mem_iff b).2 List.mem_cons_self) List.not_mem_nil
  | a :: l, [], h, _, _ => absurd ((h.mem_iff a).1 List.mem_cons_self) List.not_mem_nil
  | a :: l, b :: l', h, hl, hl' => by
    have ha := h (key a)
    have hb := h (key b)
    rw [trace_cons_self] at ha hb
    have hab : a = b := by
      by_cases hza : key a = 0
      · rw [trace_cons_zero hza] at hb
        exact (List.cons.inj hb).1
      by_cases hzb : key b = 0
      · rw [trace_cons_zero hzb] at ha
        exact (List.cons.inj ha).1
      by_cases hkey : key a = key b
      · rw [hkey, trace_cons_self] at ha
        exact (List.cons.inj ha).1
      · exact absurd (le_antisymm (hl.le_first hza hzb hb) (hl'.le_first hzb hza ha.symm)) hkey
    subst hab
    refine congrArg (a :: ·) (Same.eq_of_ordered (fun k => ?_) hl.tail hl'.tail)
    have hk := h k
    by_cases hin : key a = 0 ∨ key a = k
    · have hkeep (l : List α) : trace key k (a :: l) = a :: trace key k l :=
        List.filter_cons_of_pos (decide_eq_true hin)
      rw [hkeep, hkeep] at hk
      exact (List.cons.inj hk).2
    · rw [not_or] at hin
      rwa [trace_cons_other hin.1 hin.2, trace_cons_other hin.1 hin.2] at hk

/-! ## Insertion -/

theorem trace_place {a : α} (ha : key a ≠ 0) (k : ℕ) : ∀ before : List α,
    trace key k (place key a before) = trace key k (a :: before)
  | [] => rfl
  | b :: before => by
    unfold place
    split
    · rfl
    · rename_i h
      rw [not_or] at h
      have hne : key b ≠ key a := fun heq => h.2 heq.le
      by_cases hk : key a = k
      · have hb : key b ≠ k := hk ▸ hne
        rw [trace_cons_other h.1 hb, trace_place ha k before]
        subst hk
        rw [trace_cons_self, trace_cons_self, trace_cons_other h.1 hb]
      · rw [trace_cons_other ha hk]
        by_cases hb : key b = k
        · subst hb
          rw [trace_cons_self, trace_cons_self, trace_place ha _ before, trace_cons_other ha hk]
        · rw [trace_cons_other h.1 hb, trace_cons_other h.1 hb, trace_place ha k before,
            trace_cons_other ha hk]

/-- The order of a list given in reverse. -/
def Backward (key : α → ℕ) (before : List α) : Prop :=
  before.IsChain fun b a => key b = 0 ∨ key a ≤ key b

theorem head_place {a c : α} : ∀ {before : List α}, c ∈ (place key a before).head? →
    c = a ∨ c ∈ before.head?
  | [], hc => .inl (Option.mem_some_iff.1 hc).symm
  | b :: before, hc => by
    unfold place at hc
    split at hc
    · exact .inl (Option.mem_some_iff.1 hc).symm
    · exact .inr hc

theorem backward_place {a : α} : ∀ {before : List α}, Backward key before →
    Backward key (place key a before)
  | [], _ => List.IsChain.singleton _
  | b :: before, h => by
    unfold place
    split
    · rename_i hstay
      refine List.isChain_cons_cons.2 ⟨.inr ?_, h⟩
      rcases hstay with hzero | hle
      · rw [hzero]
        exact Nat.zero_le _
      · exact hle
    · rename_i hpass
      rw [not_or, not_le] at hpass
      refine List.isChain_cons.2 ⟨fun c hc => ?_, backward_place h.tail⟩
      rcases head_place hc with rfl | hc
      · exact .inr hpass.2.le
      · exact (List.isChain_cons.1 h).1 c hc

theorem arrange_spec : ∀ {before rest : List α}, Backward key before →
    Ordered key (arrange key before rest) ∧ Same key (before.reverse ++ rest) (arrange key before rest)
  | before, [], h => by
    refine ⟨List.isChain_reverse.2 h, ?_⟩
    rw [List.append_nil]
    exact .refl _
  | before, a :: rest, h => by
    unfold arrange
    by_cases ha : key a = 0
    · rw [if_pos ha]
      have hnext : Backward key (a :: before) := by
        match before with
        | [] => exact List.IsChain.singleton _
        | b :: before => exact List.isChain_cons_cons.2 ⟨.inl ha, h⟩
      obtain ⟨hordered, hsame⟩ := @arrange_spec (a :: before) rest hnext
      rw [List.reverse_cons, List.append_assoc] at hsame
      exact ⟨hordered, hsame⟩
    · rw [if_neg ha]
      obtain ⟨hordered, hsame⟩ := @arrange_spec (place key a before) rest (backward_place h)
      refine ⟨hordered, Same.trans (fun k => ?_) hsame⟩
      rw [trace_append, trace_append, trace_reverse, trace_reverse, trace_place ha k before]
      by_cases hk : key a = k
      · subst hk
        rw [trace_cons_self, trace_cons_self, List.reverse_cons, List.append_assoc]
        rfl
      · rw [trace_cons_other ha hk, trace_cons_other ha hk]

theorem ordered_arrange (l : List α) : Ordered key (arrange key [] l) :=
  (arrange_spec List.IsChain.nil).1

theorem same_arrange (l : List α) : Same key l (arrange key [] l) :=
  (@arrange_spec _ key [] l List.IsChain.nil).2

theorem Same.arrange_eq (h : Same key l l') : arrange key [] l = arrange key [] l' :=
  Same.eq_of_ordered ((same_arrange l).symm.trans (h.trans (same_arrange l'))) (ordered_arrange l)
    (ordered_arrange l')

/-! ## The arrangement sorts every run -/

theorem Sorts.same (h : Sorts key l l') : Same key l l' := by
  have hrun {run sorted : List α} (marks : ∀ a ∈ run, key a ≠ 0) (sort : StableSort key run sorted) :
      Same key run sorted := by
    intro k
    have hfilter {l : List α} (hl : ∀ a ∈ l, key a ≠ 0) :
        trace key k l = l.filter fun a => key a = k :=
      List.filter_congr fun a ha => by simp [hl a ha]
    have hmem (a : α) (ha : a ∈ sorted) : a ∈ run := by
      have hin : a ∈ sorted.filter fun b => key b = key a := by simp [ha]
      rw [sort.stable] at hin
      exact (List.mem_filter.1 hin).1
    rw [hfilter marks, hfilter fun a ha => marks a (hmem a ha), sort.stable]
  induction h with
  | last marks sort => exact hrun marks sort
  | barrier marks sort zero _ ih =>
    refine (hrun marks sort).append fun k => ?_
    rw [trace_cons_zero zero, trace_cons_zero zero, ih k]

theorem Sorts.ordered (h : Sorts key l l') : Ordered key l' := by
  have hrun {run sorted : List α} (sort : StableSort key run sorted) : Ordered key sorted :=
    (sort.ordered.isChain).imp fun _ _ hle => .inr hle
  induction h with
  | last _ sort => exact hrun sort
  | @barrier run sorted rest rest' a _ sort zero _ ih =>
    refine List.isChain_append.2 ⟨hrun sort, ?_, ?_⟩
    · match rest' with
      | [] => exact List.IsChain.singleton _
      | b :: rest' => exact List.isChain_cons_cons.2 ⟨.inr (zero ▸ Nat.zero_le _), ih⟩
    · intro b _ c hc
      rw [List.head?_cons, Option.mem_some_iff] at hc
      exact .inl (hc ▸ zero)

theorem stableSort_arrange {run : List α} (marks : ∀ a ∈ run, key a ≠ 0) :
    StableSort key run (arrange key [] run) := by
  have hsame := @same_arrange _ key run
  have hmarks : ∀ a ∈ arrange key [] run, key a ≠ 0 := fun a ha => marks a ((hsame.mem_iff a).2 ha)
  have htrace {l : List α} (hl : ∀ a ∈ l, key a ≠ 0) (k : ℕ) :
      trace key k l = l.filter fun a => key a = k :=
    List.filter_congr fun a ha => by simp [hl a ha]
  refine ⟨?_, fun k => ?_⟩
  · have : IsTrans α fun a b => key a ≤ key b := ⟨fun _ _ _ => le_trans⟩
    refine List.isChain_iff_pairwise.1 ((ordered_arrange run).imp_of_mem_imp ?_)
    exact fun a b _ hb hle => hle.resolve_left (hmarks b hb)
  · rw [← htrace hmarks, ← htrace marks, hsame]

theorem sorts_exists (l : List α) : ∃ sorted, Sorts key l sorted := by
  have hrun (run : List α) (marks : ∀ a ∈ run, key a ≠ 0) : ∃ sorted, Sorts key (run ++ l) sorted := by
    induction l generalizing run with
    | nil => exact ⟨_, .last (by rwa [List.append_nil]) (stableSort_arrange (by rwa [List.append_nil]))⟩
    | cons a l ih =>
      by_cases ha : key a = 0
      · obtain ⟨rest', hrest⟩ := ih [] fun _ h => absurd h List.not_mem_nil
        exact ⟨_, .barrier marks (stableSort_arrange marks) ha hrest⟩
      · have hmarks : ∀ b ∈ run ++ [a], key b ≠ 0 := by
          intro b hb
          rcases List.mem_append.1 hb with hb | hb
          · exact marks b hb
          · exact List.mem_singleton.1 hb ▸ ha
        obtain ⟨sorted, hsorted⟩ := ih (run ++ [a]) hmarks
        rw [List.append_assoc] at hsorted
        exact ⟨sorted, hsorted⟩
  exact hrun [] fun _ h => absurd h List.not_mem_nil

/-- **There is one sort between the barriers**, and insertion gives it. -/
theorem sorts_iff : Sorts key l l' ↔ arrange key [] l = l' := by
  have heq {sorted : List α} (h : Sorts key l sorted) : arrange key [] l = sorted :=
    ((same_arrange l).symm.trans h.same).eq_of_ordered (ordered_arrange l) h.ordered
  refine ⟨heq, ?_⟩
  rintro rfl
  obtain ⟨sorted, hsorted⟩ := sorts_exists l
  exact heq hsorted ▸ hsorted

end Runs

end Laplace
