import Mathlib.Data.Finset.Card
import Mathlib.Data.List.Perm.Basic
import Mathlib.Tactic

/-!
# Lists of distinct elements, maps that may fail, and counts
-/

namespace Laplace

/-! ## An element among distinct ones -/

theorem set_eq_map {α κ : Type} [DecidableEq κ] {key : α → κ} {a b : α} : ∀ {l : List α} {index : ℕ},
    (l.map key).Nodup → l[index]? = some a → l.set index b = l.map fun x => if key x = key a then b else x
  | [], _, _, hindex => by simp at hindex
  | x :: l, 0, hunique, hindex => by
    rw [List.getElem?_cons_zero, Option.some.injEq] at hindex
    subst hindex
    rw [List.set_cons_zero, List.map_cons, if_pos rfl]
    congr 1
    conv_lhs => rw [← List.map_id l]
    refine List.map_congr_left fun y hy => ?_
    rw [if_neg, id]
    exact fun heq => (List.nodup_cons.1 hunique).1 (heq ▸ List.mem_map_of_mem hy)
  | x :: l, index + 1, hunique, hindex => by
    rw [List.getElem?_cons_succ] at hindex
    rw [List.map_cons, List.nodup_cons] at hunique
    have hne : key x ≠ key a := fun heq =>
      hunique.1 (heq ▸ List.mem_map_of_mem (List.mem_of_getElem? hindex))
    rw [List.set_cons_succ, List.map_cons, if_neg hne, set_eq_map hunique.2 hindex]

theorem countP_ne {α : Type*} [DecidableEq α] {p : α → Bool} {a : α} (ha : p a = true) :
    ∀ {l : List α}, l.Nodup →
      l.countP (fun x => p x && decide (x ≠ a)) + (if a ∈ l then 1 else 0) = l.countP p
  | [], _ => rfl
  | x :: l, hunique => by
    obtain ⟨hnot, hunique⟩ := List.nodup_cons.1 hunique
    have ih := countP_ne (p := p) ha hunique
    rw [List.countP_cons, List.countP_cons]
    by_cases hx : x = a
    · subst hx
      rw [if_neg hnot] at ih
      simp [ha, ← ih]
    · have hmem : a ∈ x :: l ↔ a ∈ l := by simp [Ne.symm hx]
      simp only [hmem, decide_eq_true hx, Bool.and_true]
      omega

theorem countP_lt_of_mem {α : Type*} {p q : α → Bool} {a : α} : ∀ {l : List α},
    (∀ x ∈ l, p x = true → q x = true) → a ∈ l → p a = false → q a = true → l.countP p < l.countP q
  | x :: l, h, ha, hp, hq => by
    obtain ⟨hx, hl⟩ := List.forall_mem_cons.1 h
    rw [List.countP_cons, List.countP_cons]
    rcases List.mem_cons.1 ha with rfl | ha
    · have hle := List.countP_mono_left hl
      rw [if_neg (by simp [hp]), if_pos hq]
      omega
    · have ih := countP_lt_of_mem hl ha hp hq
      by_cases hpx : p x = true
      · rw [if_pos hpx, if_pos (hx hpx)]
        omega
      · rw [if_neg hpx]
        omega

/-! ## Maps that may fail -/

theorem mapM_eq_some {α β : Type} {f : α → Option β} : ∀ {l : List α} {l' : List β},
    l.mapM f = some l' ↔ List.Forall₂ (fun a b => f a = some b) l l'
  | [], l' => by
    rw [List.mapM_nil, List.forall₂_nil_left_iff]
    exact ⟨fun h => (Option.some.inj h).symm, fun h => h ▸ rfl⟩
  | a :: l, l' => by
    rw [List.mapM_cons, List.forall₂_cons_left_iff]
    constructor
    · intro h
      obtain ⟨b, hb, h⟩ := Option.bind_eq_some_iff.1 h
      obtain ⟨rest, hrest, h⟩ := Option.bind_eq_some_iff.1 h
      exact ⟨b, rest, hb, mapM_eq_some.1 hrest, (Option.some.inj h).symm⟩
    · rintro ⟨b, rest, hb, hrest, rfl⟩
      rw [hb, mapM_eq_some.2 hrest]
      rfl

theorem mapM_perm {α β : Type} {f : α → Option β} {l l' : List α} (hperm : l'.Perm l) :
    (l'.mapM f = none ∧ l.mapM f = none) ∨
      ∃ entries entries', l.mapM f = some entries ∧ l'.mapM f = some entries' ∧ entries'.Perm entries := by
  cases hentries : l.mapM f with
  | some entries =>
    obtain ⟨entries', hentries', hperm'⟩ := List.perm_comp_forall₂ hperm (mapM_eq_some.1 hentries)
    exact .inr ⟨entries, entries', rfl, mapM_eq_some.2 hentries', hperm'⟩
  | none =>
    refine .inl ⟨Option.eq_none_iff_forall_not_mem.2 fun entries' hentries' => ?_, rfl⟩
    obtain ⟨entries, hfound, -⟩ := List.perm_comp_forall₂ hperm.symm (mapM_eq_some.1 hentries')
    rw [mapM_eq_some.2 hfound] at hentries
    cases hentries

/-! ## Images -/

theorem card_map_congr {α β γ : Type*} [DecidableEq β] [DecidableEq γ] {f : α → β} {g : α → γ} :
    ∀ {l : List α}, (∀ a ∈ l, ∀ b ∈ l, f a = f b ↔ g a = g b) →
      (l.map f).toFinset.card = (l.map g).toFinset.card
  | [], _ => rfl
  | a :: l, h => by
    have ih := card_map_congr fun b hb c hc =>
      h b (List.mem_cons_of_mem a hb) c (List.mem_cons_of_mem a hc)
    have hmem : f a ∈ (l.map f).toFinset ↔ g a ∈ (l.map g).toFinset := by
      rw [List.mem_toFinset, List.mem_toFinset, List.mem_map, List.mem_map]
      exact exists_congr fun b => and_congr_right fun hb =>
        h b (List.mem_cons_of_mem a hb) a List.mem_cons_self
    rw [List.map_cons, List.map_cons, List.toFinset_cons, List.toFinset_cons]
    by_cases hold : f a ∈ (l.map f).toFinset
    · rw [Finset.insert_eq_of_mem hold, Finset.insert_eq_of_mem (hmem.1 hold), ih]
    · rw [Finset.card_insert_of_notMem hold, Finset.card_insert_of_notMem (hmem.not.1 hold), ih]

end Laplace
