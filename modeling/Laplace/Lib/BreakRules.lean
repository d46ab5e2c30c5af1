import Mathlib.Computability.Language
import Mathlib.Tactic

/-!
# Break rules

A rule joins or splits a text at a position when what lies before the position is in one language and
what follows in another; of a list of rules the first that matches decides. Languages built from
classes of elements by concatenation and star are read off one element at a time, from the right for
the text before (`snoc_mem_cls`, `snoc_mem_star`) and from the left for the text after.
-/

namespace Laplace

open scoped Computability

variable {α : Type*} {A B : α → Prop} {X Y Z : Language α} {before after : List α} {c : α}

/-- One element of the class `A`. -/
def cls (A : α → Prop) : Language α := { w | ∃ c, A c ∧ w = [c] }

/-- Any text. -/
def anything : Language α := Set.univ

structure BreakRule (α : Type*) where
  left : Language α
  right : Language α
  joins : Bool

namespace BreakRule

def Matches (rule : BreakRule α) (before after : List α) : Prop :=
  before ∈ rule.left ∧ after ∈ rule.right

/-- `left × right` -/
def join (left right : Language α) : BreakRule α := ⟨anything * left, right * anything, true⟩

/-- `left ÷ right` -/
def split (left right : Language α) : BreakRule α := ⟨anything * left, right * anything, false⟩

/-- `sot left × right` -/
def joinAtStart (left right : Language α) : BreakRule α := ⟨left, right * anything, true⟩

section
variable {left right : Language α} {before after : List α}

@[simp] theorem joins_join : (join left right).joins = true := rfl

@[simp] theorem joins_split : (split left right).joins = false := rfl

@[simp] theorem joins_joinAtStart : (joinAtStart left right).joins = true := rfl

theorem matches_join :
    (join left right).Matches before after ↔ before ∈ anything * left ∧ after ∈ right * anything :=
  Iff.rfl

theorem matches_split :
    (split left right).Matches before after ↔ before ∈ anything * left ∧ after ∈ right * anything :=
  Iff.rfl

theorem matches_joinAtStart :
    (joinAtStart left right).Matches before after ↔ before ∈ left ∧ after ∈ right * anything :=
  Iff.rfl

end

end BreakRule

/-- The first rule that matches decides whether the position is joined. -/
def Decides : List (BreakRule α) → Prop → List α → List α → Prop
  | [], otherwise, _, _ => otherwise
  | rule :: rules, otherwise, before, after =>
    (rule.Matches before after → rule.joins = true) ∧
      (¬ rule.Matches before after → Decides rules otherwise before after)

/-- The text without the ignored elements that follow an element which does not reset; `absorbing`
says whether such an element lies before the text. -/
def strip (ignored resets : α → Bool) : Bool → List α → List α
  | _, [] => []
  | absorbing, c :: text =>
    if absorbing && ignored c then strip ignored resets (!resets c) text
    else c :: strip ignored resets (!resets c) text

/-! ## Deciding -/

section
variable {rule : BreakRule α} {rules : List (BreakRule α)} {otherwise : Prop}

theorem Decides.of_match (h : rule.Matches before after) :
    Decides (rule :: rules) otherwise before after ↔ rule.joins = true :=
  ⟨fun hd => hd.1 h, fun hj => ⟨fun _ => hj, fun hn => absurd h hn⟩⟩

theorem Decides.of_not_match (h : ¬ rule.Matches before after) :
    Decides (rule :: rules) otherwise before after ↔ Decides rules otherwise before after :=
  ⟨fun hd => hd.2 h, fun hr => ⟨fun hm => absurd hm h, fun _ => hr⟩⟩

theorem decides_cons {hit : Prop} {_ : Decidable hit} {verdict miss : Bool}
    (hj : rule.joins = verdict) (hm : hit ↔ rule.Matches before after)
    (hr : ¬ hit → (miss = true ↔ Decides rules otherwise before after)) :
    (if hit then verdict else miss) = true ↔ Decides (rule :: rules) otherwise before after := by
  by_cases h : hit
  · rw [if_pos h, Decides.of_match (hm.1 h), hj]
  · rw [if_neg h, Decides.of_not_match fun hn => h (hm.2 hn)]
    exact hr h

theorem decides_cons₂ {hit : Prop} {_ : Decidable hit} {verdict miss : Bool} {rule' : BreakRule α}
    (hj : rule.joins = verdict) (hj' : rule'.joins = verdict)
    (hm : hit ↔ rule.Matches before after ∨ rule'.Matches before after)
    (hr : ¬ hit → (miss = true ↔ Decides rules otherwise before after)) :
    (if hit then verdict else miss) = true ↔ Decides (rule :: rule' :: rules) otherwise before after := by
  by_cases h : hit
  · rw [if_pos h]
    by_cases h1 : rule.Matches before after
    · rw [Decides.of_match h1, hj]
    · rw [Decides.of_not_match h1, Decides.of_match ((hm.1 h).resolve_left h1), hj']
  · rw [if_neg h, Decides.of_not_match fun hn => h (hm.2 (.inl hn)),
      Decides.of_not_match fun hn => h (hm.2 (.inr hn))]
    exact hr h

theorem not_decides : ∀ {rules : List (BreakRule α)},
    (∀ r ∈ rules, r.joins = true → ¬ r.Matches before after) → ¬ otherwise →
    ¬ Decides rules otherwise before after
  | [], _, ho => ho
  | r :: rules, h, ho => fun hd => by
    by_cases hm : r.Matches before after
    · exact h r List.mem_cons_self (hd.1 hm) hm
    · exact not_decides (fun r' hr => h r' (List.mem_cons_of_mem _ hr)) ho (hd.2 hm)

theorem decides_joins : ∀ {rules : List (BreakRule α)}, (∀ rule ∈ rules, rule.joins = true) →
    (Decides rules otherwise before after ↔ (∃ rule ∈ rules, rule.Matches before after) ∨ otherwise)
  | [], _ => by simp [Decides]
  | rule :: rules, h => by
    have ih : Decides rules otherwise before after ↔
        (∃ rule ∈ rules, rule.Matches before after) ∨ otherwise :=
      decides_joins fun r hr => h r (List.mem_cons_of_mem _ hr)
    by_cases hm : rule.Matches before after
    · rw [Decides.of_match hm]
      exact iff_of_true (h rule List.mem_cons_self) (.inl ⟨rule, List.mem_cons_self, hm⟩)
    · rw [Decides.of_not_match hm, ih]
      simp [hm]

theorem decides_append {rules' : List (BreakRule α)} :
    ∀ {rules : List (BreakRule α)}, Decides (rules ++ rules') otherwise before after ↔
      Decides rules (Decides rules' otherwise before after) before after
  | [] => Iff.rfl
  | rule :: rules => by
    by_cases hm : rule.Matches before after
    · rw [List.cons_append, Decides.of_match hm, Decides.of_match hm]
    · rw [List.cons_append, Decides.of_not_match hm, Decides.of_not_match hm, decides_append]

end

/-! ## Reading languages off the text -/

@[simp] theorem mem_anything : before ∈ (anything : Language α) := Set.mem_univ before

@[simp] theorem snoc_mem_cls : before ++ [c] ∈ X * cls A ↔ A c ∧ before ∈ X := by
  constructor
  · rintro ⟨x, hx, y, ⟨d, hd, rfl⟩, h⟩
    obtain ⟨rfl, hdc⟩ := List.append_inj' h rfl
    injection hdc with hdc
    exact ⟨hdc ▸ hd, hx⟩
  · rintro ⟨hc, hb⟩
    exact ⟨before, hb, [c], ⟨c, hc, rfl⟩, rfl⟩

@[simp] theorem nil_mem_mul_cls : [] ∈ X * cls A ↔ False := by
  refine iff_of_false ?_ not_false
  rintro ⟨x, -, y, ⟨d, -, rfl⟩, h⟩
  simp at h

/-- `X A* = X ∪ X A* A` -/
theorem mul_star_eq : X * Y∗ = X + X * Y∗ * Y := by
  rw [mul_assoc]
  nth_rewrite 1 [← Language.one_add_kstar_mul_self_eq_kstar]
  rw [mul_add, mul_one]

theorem mem_mul_star : before ∈ X * Y∗ ↔ before ∈ X ∨ before ∈ X * Y∗ * Y := by
  nth_rewrite 1 [mul_star_eq]
  exact Language.mem_add _ _ _

@[simp] theorem snoc_mem_star :
    before ++ [c] ∈ X * (cls A)∗ ↔ before ++ [c] ∈ X ∨ (A c ∧ before ∈ X * (cls A)∗) := by
  rw [mem_mul_star, snoc_mem_cls]

@[simp] theorem nil_mem_star : [] ∈ X * (cls A)∗ ↔ [] ∈ X := by
  rw [mem_mul_star, nil_mem_mul_cls, or_false]

@[simp] theorem snoc_mem_mul_cls : before ++ [c] ∈ X * (Y * cls A) ↔ A c ∧ before ∈ X * Y := by
  rw [← mul_assoc, snoc_mem_cls]

@[simp] theorem snoc_mem_mul_star : before ++ [c] ∈ X * (Y * (cls A)∗) ↔
    before ++ [c] ∈ X * Y ∨ (A c ∧ before ∈ X * (Y * (cls A)∗)) := by
  rw [← mul_assoc, snoc_mem_star]

@[simp] theorem cons_mem_cls : c :: after ∈ cls A * Y ↔ A c ∧ after ∈ Y := by
  constructor
  · rintro ⟨x, ⟨d, hd, rfl⟩, y, hy, h⟩
    injection h with hdc hya
    exact ⟨hdc ▸ hd, hya ▸ hy⟩
  · rintro ⟨hc, ha⟩
    exact ⟨[c], ⟨c, hc, rfl⟩, after, ha, rfl⟩

@[simp] theorem nil_mem_cls_mul : [] ∈ cls A * Y ↔ False := by
  refine iff_of_false ?_ not_false
  rintro ⟨x, ⟨d, -, rfl⟩, y, -, h⟩
  cases h

@[simp] theorem cons_mem_cls_mul : c :: after ∈ cls A * X * Y ↔ A c ∧ after ∈ X * Y := by
  rw [mul_assoc, cons_mem_cls]

@[simp] theorem cons_mem_star : c :: after ∈ (cls A)∗ * Y ↔
    c :: after ∈ Y ∨ (A c ∧ after ∈ (cls A)∗ * Y) := by
  nth_rewrite 1 [← Language.one_add_self_mul_kstar_eq_kstar]
  rw [add_mul, one_mul, Language.mem_add, mul_assoc, cons_mem_cls]

@[simp] theorem nil_mem_star_mul : [] ∈ (cls A)∗ * Y ↔ [] ∈ Y := by
  nth_rewrite 1 [← Language.one_add_self_mul_kstar_eq_kstar]
  rw [add_mul, one_mul, Language.mem_add, mul_assoc, nil_mem_cls_mul, or_false]

/-! ## Pairing -/

/-- Whether a run of `A` at the end of the text is even or odd, as languages say it: `(A A)*` or
`(A A)* A`, after the start of the text or an element outside `A`. -/
theorem run_parity {A : α → Bool} : ∀ r : List α, (r.reverse ∈ (1 + anything * cls (fun c => A c = false)) *
        (cls (fun c => A c = true) * cls (fun c => A c = true))∗ ↔ (r.takeWhile A).length % 2 = 0) ∧
    (r.reverse ∈ (1 + anything * cls (fun c => A c = false)) *
        (cls (fun c => A c = true) * cls (fun c => A c = true))∗ * cls (fun c => A c = true) ↔
      (r.takeWhile A).length % 2 = 1)
  | [] =>
    ⟨iff_of_true ⟨[], .inl rfl, [], Language.nil_mem_kstar _, rfl⟩ rfl,
      iff_of_false (nil_mem_mul_cls.not.2 not_false) (by simp)⟩
  | c :: r => by
    obtain ⟨heven, hodd⟩ := run_parity (A := A) r
    rw [List.reverse_cons]
    constructor
    · rw [mul_star_eq, Language.mem_add, ← mul_assoc, snoc_mem_cls, hodd, Language.mem_add, snoc_mem_cls]
      cases hc : A c with
      | true =>
        simp [hc]
        omega
      | false => simp [hc]
    · rw [snoc_mem_cls, heven]
      cases hc : A c with
      | true =>
        simp [hc]
        omega
      | false => simp [hc]

/-- `(A A)* A` -/
def oddRun (A : α → Bool) : Language α :=
  (cls (fun c => A c = true) * cls (fun c => A c = true))∗ * cls (fun c => A c = true)

/-- An odd run at the end of the text, after its start or after an element outside `A`. -/
theorem oddRun_iff {A : α → Bool} :
    before ∈ oddRun A ∨ before ∈ anything * (cls (fun c => A c = false) * oddRun A) ↔
      (before.reverse.takeWhile A).length % 2 = 1 := by
  rw [← (run_parity before.reverse).2, List.reverse_reverse, mul_assoc, add_mul, one_mul,
    Language.mem_add, oddRun, mul_assoc anything]

/-! ## Ignored elements -/

section
variable {ignored resets : α → Bool} {absorbing : Bool}

/-- Whether an ignored element after `text` is dropped. -/
def absorbs (resets : α → Bool) (absorbing : Bool) (text : List α) : Bool :=
  (text.getLast?.map fun c => !resets c).getD absorbing

theorem absorbs_snoc : absorbs resets absorbing (before ++ [c]) = !resets c := by
  simp [absorbs]

theorem strip_snoc : ∀ {absorbing : Bool} {text : List α}, strip ignored resets absorbing (text ++ [c]) =
      if absorbs resets absorbing text && ignored c then strip ignored resets absorbing text
      else strip ignored resets absorbing text ++ [c]
  | absorbing, [] => by
    cases h : absorbing && ignored c <;> simp [strip, absorbs, h]
  | absorbing, d :: text => by
    have habsorbs : absorbs resets absorbing (d :: text) = absorbs resets (!resets d) text := by
      cases text with
      | nil => rfl
      | cons e text => simp [absorbs, List.getLast?_cons]
    rw [List.cons_append, strip, strip, strip_snoc, habsorbs]
    split <;> split <;> rfl

/-- The last element that is not ignored, and what lies before it; the text is reversed. -/
def lastKept (ignored : α → Bool) : List α → Option (α × List α)
  | [] => none
  | c :: before => if ignored c then lastKept ignored before else some (c, before)

theorem lastKept_length : ∀ {r : List α} {c : α} {before : List α}, lastKept ignored r = some (c, before) →
      before.length < r.length
  | d :: r, c, before, h => by
    unfold lastKept at h
    split at h
    · exact Nat.lt_succ_of_lt (lastKept_length h)
    · injection h with h
      injection h with _ h
      rw [← h]
      exact Nat.lt_succ_self _

/-- No element that resets is ignored. -/
def Separate (ignored resets : α → Bool) : Prop := ∀ c, resets c = true → ignored c = false

theorem strip_mem_cls (hs : Separate ignored resets)
    (hA : ∀ c, A c → ignored c = false ∧ resets c = false) :
    ∀ r : List α, strip ignored resets false r.reverse ∈ X * cls A ↔
      ∃ c before, lastKept ignored r = some (c, before) ∧ A c ∧
        strip ignored resets false before.reverse ∈ X
  | [] => by simp [strip, lastKept]
  | c :: r => by
    rw [List.reverse_cons, strip_snoc, lastKept]
    cases hc : ignored c with
    | false => simp
    | true =>
      have hno : ¬ A c := fun h => by
        rw [(hA c h).1] at hc
        cases hc
      cases habsorbs : absorbs resets false r.reverse with
      | true => simpa using strip_mem_cls hs hA r
      | false =>
        refine iff_of_false (by simp [hno]) ?_
        rintro ⟨d, before, hd, hAd, -⟩
        -- a line begins here, so the last kept element is the one that ends the line before
        cases r with
        | nil => cases hd
        | cons e r =>
          have he : resets e = true := by simpa [absorbs] using habsorbs
          simp only [if_true, lastKept, hs e he, Bool.false_eq_true, if_false,
            Option.some.injEq, Prod.mk.injEq] at hd
          rw [hd.1, (hA d hAd).2] at he
          cases he

/-- A run of the class `A` at the end of a stripped text, past the ignored elements. -/
theorem strip_run {A : α → Bool} (hs : Separate ignored resets)
    (hA : ∀ c, A c = true → ignored c = false ∧ resets c = false) :
    ∀ r : List α, (strip ignored resets false r.reverse).reverse.takeWhile A =
      (r.filter fun c => !ignored c).takeWhile A
  | [] => rfl
  | c :: r => by
    have ih := strip_run hs hA r
    rw [List.reverse_cons, strip_snoc, List.filter_cons]
    cases hc : ignored c with
    | false =>
      simp only [Bool.and_false, Bool.false_eq_true, if_false, List.reverse_append,
        List.reverse_singleton, List.singleton_append, Bool.not_false, if_true, List.takeWhile_cons, ih]
    | true =>
      have hno : A c = false := Bool.eq_false_iff.2 fun h => by
        rw [(hA c h).1] at hc
        cases hc
      cases habsorbs : absorbs resets false r.reverse with
      | true => simpa using ih
      | false =>
        have hnil : (r.filter fun c => !ignored c).takeWhile A = [] := by
          cases r with
          | nil => rfl
          | cons e r =>
            have he : resets e = true := by simpa [absorbs] using habsorbs
            have hne : A e = false := Bool.eq_false_iff.2 fun h => by
              rw [(hA e h).2] at he
              cases he
            simp [hs e he, hne]
        simp [hno, hnil]

theorem strip_ends_reset (hs : Separate ignored resets) {q : List α} (hc : resets c = true) :
    ∀ r : List α, strip ignored resets false r.reverse = q ++ [c] → r.head? = some c
  | [], h => by simp [strip] at h
  | d :: r, h => by
    rw [List.reverse_cons, strip_snoc] at h
    split at h
    · rename_i hd
      simp only [Bool.and_eq_true] at hd
      have hr := strip_ends_reset hs hc r h
      cases r with
      | nil => cases hr
      | cons e r =>
        injection hr with hr
        rw [List.reverse_cons, absorbs_snoc, hr, hc] at hd
        cases hd.1
    · obtain ⟨-, hlast⟩ := List.append_inj' h rfl
      injection hlast with hdc
      rw [hdc]
      rfl

end

end Laplace
