import Mathlib.Tactic

/-!
# Sorts by a key

`std::sort` may put elements with equal keys in any order, so a sort is any function that permutes
a list into the order of the keys. Where no two keys are equal there is only one such order.
`lowerBound` is `std::lower_bound` in a list in that order.
-/

namespace Laplace

variable {α κ : Type*} [LinearOrder κ] {key : α → κ}

structure Sorting (key : α → κ) where
  sort : List α → List α
  perm : ∀ l, (sort l).Perm l
  sorted : ∀ l, (sort l).Pairwise fun a b => key a ≤ key b

/-- The sort that keeps the order of elements with equal keys. -/
def Sorting.stable (key : α → κ) : Sorting key where
  sort l := l.mergeSort fun a b => decide (key a ≤ key b)
  perm l := List.mergeSort_perm l _
  sorted l := by
    refine (List.pairwise_mergeSort (fun a b c => ?_) (fun a b => ?_) l).imp of_decide_eq_true
    · rw [decide_eq_true_eq, decide_eq_true_eq, decide_eq_true_eq]
      exact le_trans
    · rw [Bool.or_eq_true, decide_eq_true_eq, decide_eq_true_eq]
      exact le_total _ _

/-- The sort that inserts one element after another. -/
def Sorting.insertion (key : α → κ) : Sorting key where
  sort l := l.insertionSort fun a b => key a ≤ key b
  perm l := List.perm_insertionSort _ l
  sorted l := by
    have htotal : Std.Total fun a b : α => key a ≤ key b := ⟨fun a b => le_total _ _⟩
    have htrans : IsTrans α fun a b => key a ≤ key b := ⟨fun a b c => le_trans⟩
    exact List.pairwise_insertionSort _ l

theorem Sorting.stable_sort {l : List α} (h : l.Pairwise fun a b => key a ≤ key b) :
    (stable key).sort l = l :=
  List.mergeSort_of_pairwise (h.imp fun hle => decide_eq_true hle)

/-- Whether two neighbours have the same key. -/
def repeats (key : α → κ) : List α → Bool
  | first :: second :: rest => decide (key first = key second) || repeats key (second :: rest)
  | _ => false

theorem increasing_of_repeats : ∀ {l : List α}, l.Pairwise (fun a b => key a ≤ key b) →
    repeats key l = false → l.Pairwise fun a b => key a < key b
  | [], _, _ => .nil
  | [_], _, _ => List.pairwise_singleton _ _
  | first :: second :: rest, hsorted, hrepeats => by
    unfold repeats at hrepeats
    rw [Bool.or_eq_false_iff, decide_eq_false_iff_not] at hrepeats
    obtain ⟨hfirst, hsorted⟩ := List.pairwise_cons.1 hsorted
    have hrest := increasing_of_repeats hsorted hrepeats.2
    refine List.pairwise_cons.2 ⟨fun a ha => ?_, hrest⟩
    have hlt : key first < key second := lt_of_le_of_ne (hfirst second List.mem_cons_self) hrepeats.1
    rcases List.mem_cons.1 ha with rfl | ha
    · exact hlt
    · exact hlt.trans ((List.pairwise_cons.1 hrest).1 a ha)

theorem repeats_of_nodup : ∀ {l : List α}, (l.map key).Nodup → repeats key l = false
  | [], _ => rfl
  | [_], _ => rfl
  | first :: second :: rest, hnodup => by
    obtain ⟨hfirst, hnodup⟩ := List.nodup_cons.1 hnodup
    unfold repeats
    rw [repeats_of_nodup hnodup, Bool.or_false, decide_eq_false_iff_not]
    exact fun heq => hfirst (heq ▸ List.mem_map_of_mem List.mem_cons_self)

theorem nodup_of_increasing {l : List α} (h : l.Pairwise fun a b => key a < key b) : (l.map key).Nodup := by
  rw [List.Nodup, List.pairwise_map]
  exact h.imp fun hlt => hlt.ne

namespace Sorting

variable (s t : Sorting key)

theorem increasing {l : List α} (h : (l.map key).Nodup) : (s.sort l).Pairwise fun a b => key a < key b :=
  increasing_of_repeats (s.sorted l) (repeats_of_nodup (((s.perm l).map key).nodup_iff.2 h))

theorem repeats_eq_false_iff {l : List α} : repeats key (s.sort l) = false ↔ (l.map key).Nodup := by
  refine ⟨fun h => ?_, fun h => repeats_of_nodup (((s.perm l).map key).nodup_iff.2 h)⟩
  exact ((s.perm l).map key).nodup_iff.1 (nodup_of_increasing (increasing_of_repeats (s.sorted l) h))

theorem eq_of_perm_of_increasing {l l' : List α} (hperm : l.Perm l')
    (h : l.Pairwise fun a b => key a < key b) (h' : l'.Pairwise fun a b => key a < key b) : l = l' :=
  hperm.eq_of_pairwise (fun _ _ _ _ hab hba => absurd (hab.trans hba) (lt_irrefl _)) h h'

theorem sort_congr {l l' : List α} (hperm : l.Perm l') (h : (l.map key).Nodup) : s.sort l = t.sort l' :=
  eq_of_perm_of_increasing (((s.perm l).trans hperm).trans (t.perm l').symm) (s.increasing h)
    (t.increasing ((hperm.map key).nodup_iff.1 h))

theorem sort_increasing {l : List α} (h : l.Pairwise fun a b => key a < key b) : s.sort l = l :=
  eq_of_perm_of_increasing (s.perm l) (s.increasing (nodup_of_increasing h)) h

end Sorting

/-! ## Searching -/

/-- The first element whose key is not less. -/
def lowerBound (key : α → κ) (l : List α) (bound : κ) : ℕ :=
  l.findIdx fun a => !decide (key a < bound)

theorem split_of_lowerBound {l : List α} {bound : κ} {a : α} (h : l[lowerBound key l bound]? = some a) :
    ∃ before after, l = before ++ a :: after ∧ before.length = lowerBound key l bound := by
  obtain ⟨hlt, rfl⟩ := List.getElem?_eq_some_iff.1 h
  refine ⟨l.take (lowerBound key l bound), l.drop (lowerBound key l bound + 1), ?_,
    List.length_take_of_le hlt.le⟩
  rw [← List.drop_eq_getElem_cons, List.take_append_drop]

end Laplace
