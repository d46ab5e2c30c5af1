import Mathlib.Data.List.TakeWhile
import Mathlib.Tactic

/-!
# Walks along a relation, and tables of minima

A walk of length `n` takes `n` steps of a relation, and a closed walk is a list of what it passes, with
the first again at the end. `Minima` is a table with one entry for every key
of a set of candidates, at the least value of that key: adding a candidate adds an entry, lowers
one or changes nothing.
-/

namespace Laplace

variable {α : Type*} {r : α → α → Prop}

inductive Walk (r : α → α → Prop) : α → α → ℕ → Prop
  | refl (a : α) : Walk r a a 0
  | cons {a b c : α} {n : ℕ} (step : r a b) (walk : Walk r b c n) : Walk r a c (n + 1)

/-- No step leads on. -/
def Terminal (r : α → α → Prop) (a : α) : Prop := ∀ b, ¬ r a b

theorem walk_of_reflTransGen {a b : α} (h : Relation.ReflTransGen r a b) : ∃ n, Walk r a b n := by
  induction h using Relation.ReflTransGen.head_induction_on with
  | refl => exact ⟨0, .refl b⟩
  | head step _ ih =>
    obtain ⟨n, hn⟩ := ih
    exact ⟨n + 1, .cons step hn⟩

theorem Walk.reflTransGen {a b : α} {n : ℕ} (h : Walk r a b n) : Relation.ReflTransGen r a b := by
  induction h with
  | refl => exact .refl
  | cons step _ ih => exact .head step ih

/-- Levels that go down with every step, and by one with some step, are the lengths of longest
walks. -/
theorem Walk.isGreatest_level (level : α → ℕ) (hdown : ∀ a b, r a b → level b < level a)
    (hreach : ∀ a, 0 < level a → ∃ b, r a b ∧ level a = level b + 1) (a : α) :
    IsGreatest {n | ∃ b, Walk r a b n} (level a) := by
  constructor
  · induction h : level a generalizing a with
    | zero => exact ⟨a, .refl a⟩
    | succ n ih =>
      obtain ⟨b, hstep, heq⟩ := hreach a (by omega)
      obtain ⟨c, hwalk⟩ := ih b (by omega)
      exact ⟨c, .cons hstep hwalk⟩
  · rintro n ⟨b, hwalk⟩
    induction hwalk with
    | refl => exact Nat.zero_le _
    | cons hstep _ ih =>
      have := hdown _ _ hstep
      omega

theorem not_self_of_acc {a : α} (h : Acc r a) : ¬ r a a := by
  induction h with
  | intro a _ ih => exact fun hself => ih a hself hself

section

variable {β : Type*} {s : β → β → Prop} {f : α → β}

theorem Walk.map (hmap : ∀ a b, r a b → s (f a) (f b)) {a b : α} {n : ℕ} (h : Walk r a b n) :
    Walk s (f a) (f b) n := by
  induction h with
  | refl a => exact .refl (f a)
  | cons step _ ih => exact .cons (hmap _ _ step) ih

theorem Walk.lift {p : α → Prop}
    (hlift : ∀ a y, p a → s (f a) y → ∃ b, p b ∧ r a b ∧ f b = y) {x y : β} {n : ℕ}
    (h : Walk s x y n) : ∀ a, p a → f a = x → ∃ b, p b ∧ f b = y ∧ Walk r a b n := by
  induction h with
  | refl x => exact fun a ha heq => ⟨a, ha, heq, .refl a⟩
  | cons step _ ih =>
    rintro a ha rfl
    obtain ⟨b, hb, hstep, heq⟩ := hlift a _ ha step
    obtain ⟨c, hc, hend, hwalk⟩ := ih b hb heq
    exact ⟨c, hc, hend, .cons hstep hwalk⟩

end

/-! ## Closed walks -/

/-- A walk back to where it starts, as the list of what it passes. -/
structure ClosedWalk (r : α → α → Prop) (path : List α) : Prop where
  long : 2 ≤ path.length
  closed : path.head? = path.getLast?
  steps : path.IsChain r

theorem transGen_getLast : ∀ {a b : α} {rest : List α}, (a :: b :: rest).IsChain r →
    ∀ c ∈ (b :: rest).getLast?, Relation.TransGen r a c
  | a, b, [], h, c, hc => by
    cases hc
    exact .single (List.isChain_cons_cons.1 h).1
  | a, b, b' :: rest, h, c, hc => by
    obtain ⟨hstep, hrest⟩ := List.isChain_cons_cons.1 h
    rw [List.getLast?_cons_cons] at hc
    exact .head hstep (transGen_getLast hrest c hc)

theorem ClosedWalk.transGen {path : List α} (h : ClosedWalk r path) : ∃ a, Relation.TransGen r a a := by
  obtain ⟨hlong, hclosed, hsteps⟩ := h
  match path, hlong with
  | a :: b :: rest, _ =>
    rw [List.head?_cons, List.getLast?_cons_cons] at hclosed
    exact ⟨a, transGen_getLast hsteps a hclosed.symm⟩

theorem ClosedWalk.map {β : Type*} {s : β → β → Prop} {f : α → β}
    (hmap : ∀ a b, r a b → s (f a) (f b)) {path : List α} (h : ClosedWalk r path) :
    ClosedWalk s (path.map f) where
  long := by
    rw [List.length_map]
    exact h.long
  closed := by rw [List.head?_map, List.getLast?_map, h.closed]
  steps := List.isChain_map_of_isChain f hmap h.steps

/-- A stack whose entries lead to the ones above them is closed by a step from the top to one of them:
the walk begins at that entry. -/
theorem closedWalk_of_stack [DecidableEq α] {top repeated : α} {below : List α}
    (hsteps : (top :: below).IsChain fun above entry => r entry above)
    (hmem : repeated ∈ top :: below) (hstep : r top repeated) :
    ClosedWalk r ((top :: below).reverse.dropWhile (· ≠ repeated) ++ [repeated]) := by
  have hreverse : (top :: below).reverse.IsChain r := List.isChain_reverse.2 hsteps
  have hsuffix : (top :: below).reverse.dropWhile (· ≠ repeated) <:+ (top :: below).reverse :=
    List.dropWhile_suffix _
  have hne : (top :: below).reverse.dropWhile (· ≠ repeated) ≠ [] := fun hnil => by
    have hall := List.dropWhile_eq_nil_iff.1 hnil repeated (List.mem_reverse.2 hmem)
    exact of_decide_eq_true hall rfl
  have hhead : ((top :: below).reverse.dropWhile (· ≠ repeated)).head? = some repeated := by
    rw [List.head?_eq_some_head hne]
    have hfirst := List.head_dropWhile_not (fun entry => decide (entry ≠ repeated)) hne
    rw [decide_eq_false_iff_not, not_not] at hfirst
    rw [hfirst]
  have hlast : ((top :: below).reverse.dropWhile (· ≠ repeated)).getLast? = some top := by
    rw [List.getLast?_eq_some_getLast hne, hsuffix.getLast hne]
    rw [List.getLast_reverse, List.head_cons]
  refine ⟨?_, ?_, ?_⟩
  · have hpos := List.length_pos_iff.2 hne
    rw [List.length_append, List.length_singleton]
    omega
  · rw [List.head?_append, hhead, List.getLast?_append, List.getLast?_singleton]
    rfl
  · refine (hreverse.suffix hsuffix).append (List.isChain_singleton _) ?_
    rintro a ha b hb
    rw [hlast] at ha
    cases ha
    cases hb
    exact hstep

/-! ## Minima -/

variable {ε κ : Type*} (key : ε → κ) (value : ε → ℕ)

structure Minima (candidates : κ → ℕ → Prop) (entries : List ε) : Prop where
  nodup : (entries.map key).Nodup
  sound : ∀ entry ∈ entries, candidates (key entry) (value entry)
  least : ∀ entry ∈ entries, ∀ n, candidates (key entry) n → value entry ≤ n
  complete : ∀ k n, candidates k n → ∃ entry ∈ entries, key entry = k

variable {key value} {candidates candidates' : κ → ℕ → Prop} {entries : List ε}

theorem Minima.nil (h : ∀ k n, ¬ candidates k n) : Minima key value candidates [] where
  nodup := List.nodup_nil
  sound := List.forall_mem_nil _
  least := List.forall_mem_nil _
  complete k n hn := absurd hn (h k n)

theorem Minima.congr (h : Minima key value candidates entries)
    (hsub : ∀ k n, candidates k n → candidates' k n)
    (hbelow : ∀ k n, candidates' k n → ∃ m, candidates k m ∧ m ≤ n) :
    Minima key value candidates' entries where
  nodup := h.nodup
  sound entry hentry := hsub _ _ (h.sound entry hentry)
  least entry hentry n hn := by
    obtain ⟨m, hm, hle⟩ := hbelow _ n hn
    exact (h.least entry hentry m hm).trans hle
  complete k n hn := by
    obtain ⟨m, hm, -⟩ := hbelow k n hn
    exact h.complete k m hm

theorem Minima.add (h : Minima key value candidates entries) {entry : ε}
    (hnew : key entry ∉ entries.map key) :
    Minima key value (fun k n => candidates k n ∨ (k = key entry ∧ n = value entry))
      (entry :: entries) where
  nodup := List.nodup_cons.2 ⟨hnew, h.nodup⟩
  sound := List.forall_mem_cons.2 ⟨.inr ⟨rfl, rfl⟩, fun e he => .inl (h.sound e he)⟩
  least := by
    refine List.forall_mem_cons.2 ⟨fun n hn => ?_, fun e he n hn => ?_⟩
    · rcases hn with hn | ⟨-, rfl⟩
      · obtain ⟨e, he, hkey⟩ := h.complete _ n hn
        exact absurd (hkey ▸ List.mem_map_of_mem he) hnew
      · exact le_rfl
    · rcases hn with hn | ⟨hkey, -⟩
      · exact h.least e he n hn
      · exact absurd (hkey ▸ List.mem_map_of_mem he) hnew
  complete k n hn := by
    rcases hn with hn | ⟨rfl, -⟩
    · obtain ⟨e, he, hkey⟩ := h.complete k n hn
      exact ⟨e, List.mem_cons_of_mem _ he, hkey⟩
    · exact ⟨entry, List.mem_cons_self, rfl⟩

theorem Minima.keep (h : Minima key value candidates entries) {entry : ε} (hentry : entry ∈ entries)
    {n : ℕ} (hle : value entry ≤ n) :
    Minima key value (fun k m => candidates k m ∨ (k = key entry ∧ m = n)) entries := by
  refine h.congr (fun k m hm => .inl hm) fun k m hm => ?_
  rcases hm with hm | ⟨rfl, rfl⟩
  · exact ⟨m, hm, le_rfl⟩
  · exact ⟨value entry, h.sound entry hentry, hle⟩

theorem Minima.lower {before after : List ε} {entry lowered : ε}
    (h : Minima key value candidates (before ++ entry :: after)) (hkey : key lowered = key entry)
    (hlt : value lowered < value entry) :
    Minima key value (fun k n => candidates k n ∨ (k = key entry ∧ n = value lowered))
      (before ++ lowered :: after) := by
  have hmap : (before ++ lowered :: after).map key = (before ++ entry :: after).map key := by
    simp only [List.map_append, List.map_cons, hkey]
  have hother : ∀ e, e ∈ before ∨ e ∈ after → key e ≠ key entry := by
    have hnodup := h.nodup
    rw [List.map_append, List.map_cons, List.nodup_append] at hnodup
    obtain ⟨-, hafter, hbefore⟩ := hnodup
    rintro e (he | he)
    · exact hbefore _ (List.mem_map_of_mem he) _ List.mem_cons_self
    · exact fun heq => (List.nodup_cons.1 hafter).1 (heq ▸ List.mem_map_of_mem he)
  refine ⟨hmap ▸ h.nodup, fun e he => ?_, fun e he n hn => ?_, fun k n hn => ?_⟩
  · rcases List.mem_append.1 he with he | he
    · exact .inl (h.sound e (List.mem_append_left _ he))
    · rcases List.mem_cons.1 he with rfl | he
      · exact .inr ⟨hkey, rfl⟩
      · exact .inl (h.sound e (List.mem_append_right _ (List.mem_cons_of_mem _ he)))
  · rcases List.mem_append.1 he with he | he
    · rcases hn with hn | ⟨heq, -⟩
      · exact h.least e (List.mem_append_left _ he) n hn
      · exact absurd heq (hother e (.inl he))
    · rcases List.mem_cons.1 he with rfl | he
      · rcases hn with hn | ⟨-, rfl⟩
        · rw [hkey] at hn
          have := h.least entry (List.mem_append_right _ List.mem_cons_self) n hn
          omega
        · exact le_rfl
      · rcases hn with hn | ⟨heq, -⟩
        · exact h.least e (List.mem_append_right _ (List.mem_cons_of_mem _ he)) n hn
        · exact absurd heq (hother e (.inr he))
  · have hmem : k ∈ (before ++ entry :: after).map key := by
      rcases hn with hn | ⟨rfl, -⟩
      · obtain ⟨e, he, rfl⟩ := h.complete k n hn
        exact List.mem_map_of_mem he
      · exact List.mem_map_of_mem (List.mem_append_right _ List.mem_cons_self)
    rw [← hmap] at hmem
    exact List.mem_map.1 hmem

end Laplace
