import Laplace.Lib.Sorting

/-!
# Neighbours in a sorted list

What is asked of neighbours only is known of all elements where a list is sorted: that keys are
distinct, that what has one key has one value, how many keys there are, and which elements share one.
-/

namespace Laplace.Neighbours

variable {α κ ν : Type*}

/-- The second of the first two neighbours that are bad. -/
def findBad (bad : α → α → Bool) : List α → Option α
  | first :: second :: rest => if bad first second then some second else findBad bad (second :: rest)
  | _ => none

section Keys

variable [LinearOrder κ] {key : α → κ}

theorem findBad_same : ∀ {l : List α},
    findBad (fun a b => decide (key a = key b)) l = none ↔ repeats key l = false
  | [] => iff_of_true rfl rfl
  | [_] => iff_of_true rfl rfl
  | first :: second :: rest => by
    rw [findBad, repeats]
    by_cases hsame : key first = key second
    · rw [decide_eq_true hsame, if_pos rfl, Bool.true_or]
      exact iff_of_false nofun nofun
    · rw [decide_eq_false hsame, if_neg Bool.false_ne_true, Bool.false_or, findBad_same]

theorem findBad_collision [LinearOrder ν] {value : α → ν} : ∀ {l : List α},
    l.Pairwise (fun a b => toLex (key a, value a) ≤ toLex (key b, value b)) →
      (findBad (fun a b => decide (key a = key b) && decide (value a ≠ value b)) l = none ↔
        ∀ a ∈ l, ∀ b ∈ l, key a = key b → value a = value b)
  | [], _ => iff_of_true rfl fun _ hmem => absurd hmem List.not_mem_nil
  | [a], _ => by
    refine iff_of_true rfl fun b hb c hc _ => ?_
    rw [List.mem_singleton.1 hb, List.mem_singleton.1 hc]
  | first :: second :: rest, hsorted => by
    obtain ⟨hfirst, hsorted⟩ := List.pairwise_cons.1 hsorted
    have hrest := findBad_collision hsorted
    rw [findBad]
    by_cases hbad : key first = key second ∧ value first ≠ value second
    · rw [decide_eq_true hbad.1, decide_eq_true hbad.2, Bool.and_self, if_pos rfl]
      refine iff_of_false nofun fun h => hbad.2 ?_
      exact h first List.mem_cons_self second (List.mem_cons_of_mem _ List.mem_cons_self) hbad.1
    have hgood : (decide (key first = key second) && decide (value first ≠ value second)) = false := by
      rw [← Bool.decide_and, decide_eq_false hbad]
    rw [hgood, if_neg Bool.false_ne_true, hrest]
    refine ⟨fun h => ?_, fun h a ha b hb => h a (List.mem_cons_of_mem _ ha) b (List.mem_cons_of_mem _ hb)⟩
    -- an element with the key of the first is behind the second, which has that key too
    have hhead (b : α) (hb : b ∈ second :: rest) (hkey : key first = key b) : value first = value b := by
      have hle : key first ≤ key second := by
        rcases Prod.Lex.toLex_le_toLex.1 (hfirst second List.mem_cons_self) with hlt | ⟨heq, -⟩
        · exact hlt.le
        · exact heq.le
      have hge : key second ≤ key b := by
        rcases List.mem_cons.1 hb with rfl | hb
        · exact le_rfl
        rcases Prod.Lex.toLex_le_toLex.1 ((List.pairwise_cons.1 hsorted).1 b hb) with hlt | ⟨heq, -⟩
        · exact hlt.le
        · exact heq.le
      have hsame : key first = key second := le_antisymm hle (hkey ▸ hge)
      have hvalue : value first = value second := by
        by_contra hne
        exact hbad ⟨hsame, hne⟩
      rw [hvalue]
      exact h second List.mem_cons_self b hb (hsame ▸ hkey)
    intro a ha b hb hkey
    rcases List.mem_cons.1 ha with rfl | harest <;> rcases List.mem_cons.1 hb with rfl | hbrest
    · rfl
    · exact hhead b hbrest hkey
    · exact (hhead a harest hkey.symm).symm
    · exact h a harest b hbrest hkey

/-! ## Runs -/

/-- The number of runs of one key. -/
def countRuns (key : α → κ) : List α → ℕ
  | first :: second :: rest =>
    if key first ≠ key second then countRuns key (second :: rest) + 1
    else countRuns key (second :: rest)
  | [_] => 1
  | [] => 0

theorem countRuns_eq : ∀ {l : List α}, l.Pairwise (fun a b => key a ≤ key b) →
    countRuns key l = (l.map key).toFinset.card
  | [], _ => rfl
  | [_], _ => rfl
  | first :: second :: rest, hsorted => by
    obtain ⟨hfirst, hsorted⟩ := List.pairwise_cons.1 hsorted
    rw [countRuns, countRuns_eq hsorted, List.map_cons (l := second :: rest), List.toFinset_cons]
    split
    · rename_i hne
      rw [Finset.card_insert_of_notMem]
      rw [List.mem_toFinset, List.mem_map]
      rintro ⟨b, hb, hkey⟩
      -- the keys behind the second are not less than its own
      have hlt : key first < key second := lt_of_le_of_ne (hfirst second List.mem_cons_self) hne
      rcases List.mem_cons.1 hb with rfl | hb
      · exact hne hkey.symm
      · exact absurd ((List.pairwise_cons.1 hsorted).1 b hb) (not_le.2 (hkey ▸ hlt))
    · rename_i hsame
      rw [Finset.insert_eq_of_mem]
      rw [List.mem_toFinset, not_not.1 hsame]
      exact List.mem_cons_self

/-- The runs of one key. -/
def runs (key : α → κ) : List α → List (List α)
  | [] => []
  | first :: rest =>
    (first :: rest.takeWhile fun a => key a = key first) ::
      runs key (rest.dropWhile fun a => key a = key first)
termination_by l => l.length
decreasing_by
  have := (List.dropWhile_suffix (l := rest) fun a => decide (key a = key first)).length_le
  rw [List.length_cons]
  omega

theorem takeWhile_eq_filter {first : α} : ∀ {rest : List α},
    (first :: rest).Pairwise (fun a b => key a ≤ key b) →
      (rest.takeWhile fun a => key a = key first) = rest.filter (fun a => key a = key first) ∧
      (rest.dropWhile fun a => key a = key first) = rest.filter (fun a => key a ≠ key first)
  | [], _ => ⟨rfl, rfl⟩
  | second :: rest, hsorted => by
    obtain ⟨hfirst, hrest⟩ := List.pairwise_cons.1 hsorted
    obtain ⟨hsecond, hsorted⟩ := List.pairwise_cons.1 hrest
    by_cases hsame : key second = key first
    · have hskip : (first :: rest).Pairwise fun a b => key a ≤ key b :=
        List.pairwise_cons.2 ⟨fun a ha => hfirst a (List.mem_cons_of_mem _ ha), hsorted⟩
      have ih := takeWhile_eq_filter hskip
      have hneg : ¬ decide (key second ≠ key first) = true := by simpa using hsame
      rw [List.takeWhile_cons_of_pos (p := fun a => decide (key a = key first)) (decide_eq_true hsame),
        List.filter_cons_of_pos (p := fun a => decide (key a = key first)) (decide_eq_true hsame),
        List.dropWhile_cons_of_pos (p := fun a => decide (key a = key first)) (decide_eq_true hsame),
        List.filter_cons_of_neg (p := fun a => decide (key a ≠ key first)) hneg, ih.1, ih.2]
      exact ⟨rfl, rfl⟩
    · have hlt : key first < key second :=
        lt_of_le_of_ne (hfirst second List.mem_cons_self) (Ne.symm hsame)
      have hother (a : α) (ha : a ∈ second :: rest) : key a ≠ key first := by
        rcases List.mem_cons.1 ha with rfl | ha
        · exact hsame
        · exact (hlt.trans_le (hsecond a ha)).ne'
      have hneg : ¬ decide (key second = key first) = true := by simpa using hsame
      rw [List.takeWhile_cons_of_neg (p := fun a => decide (key a = key first)) hneg,
        List.dropWhile_cons_of_neg (p := fun a => decide (key a = key first)) hneg]
      constructor
      · symm
        rw [List.filter_eq_nil_iff]
        intro a ha
        simpa using hother a ha
      · symm
        rw [List.filter_eq_self]
        intro a ha
        simpa using hother a ha

/-- **The runs of a sorted list** are its elements by their keys. -/
theorem mem_runs_iff {l : List α} (hsorted : l.Pairwise fun a b => key a ≤ key b) {run : List α} :
    run ∈ runs key l ↔ ∃ a ∈ l, run = l.filter fun b => key b = key a := by
  induction l using runs.induct key with
  | case1 =>
    rw [runs]
    simp
  | case2 first rest ih =>
    obtain ⟨htake, hdrop⟩ := takeWhile_eq_filter hsorted
    have hrest := (List.pairwise_cons.1 hsorted).2
    rw [hdrop] at ih
    have ih := ih (hrest.filter _)
    rw [runs, List.mem_cons, hdrop, ih, htake]
    have hself : (first :: rest).filter (fun b => key b = key first) =
        first :: rest.filter fun b => key b = key first :=
      List.filter_cons_of_pos (decide_eq_true rfl)
    constructor
    · rintro (rfl | ⟨a, ha, rfl⟩)
      · exact ⟨first, List.mem_cons_self, hself.symm⟩
      · obtain ⟨hmem, hne⟩ := List.mem_filter.1 ha
        have hne := of_decide_eq_true hne
        refine ⟨a, List.mem_cons_of_mem _ hmem, ?_⟩
        rw [List.filter_cons_of_neg (by simpa using Ne.symm hne), List.filter_filter]
        refine List.filter_congr fun b _ => ?_
        by_cases hkey : key b = key a
        · rw [decide_eq_true hkey, Bool.true_and, decide_eq_true (hkey ▸ hne)]
        · rw [decide_eq_false hkey, Bool.false_and]
    · rintro ⟨a, ha, rfl⟩
      by_cases hkey : key a = key first
      · left
        rw [hkey]
        exact hself
      · right
        have hmem : a ∈ rest := (List.mem_cons.1 ha).resolve_left fun heq => hkey (heq ▸ rfl)
        refine ⟨a, List.mem_filter.2 ⟨hmem, decide_eq_true hkey⟩, ?_⟩
        rw [List.filter_cons_of_neg (by simpa using Ne.symm hkey), List.filter_filter]
        refine List.filter_congr fun b _ => ?_
        by_cases hb : key b = key a
        · rw [decide_eq_true hb, Bool.true_and, decide_eq_true (hb ▸ hkey)]
        · rw [decide_eq_false hb, Bool.false_and]

end Keys

end Laplace.Neighbours
