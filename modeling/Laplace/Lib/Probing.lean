import Mathlib.Tactic

/-!
# Linear probing

The slots of a table lie on a circle. A key is sought from its home on, slot by slot, up to the
first one that is empty. What a check establishes of every slot that holds a key makes every search
come to its end.
-/

namespace Laplace.Probing

/-- How a search ends: at the slot of the key, at an empty one, or after all of them. -/
inductive Probe
  | found (slot : ℕ)
  | absent
  | full
deriving DecidableEq, Repr

variable {κ : Type*} [DecidableEq κ] (capacity : ℕ) (slots : ℕ → Option κ)

/-- The search for a key in so many slots, from one on. -/
def probe (key : κ) : ℕ → ℕ → Probe
  | 0, _ => .full
  | probes + 1, slot =>
    match slots slot with
    | none => .absent
    | some other => if other = key then .found slot else probe key probes ((slot + 1) % capacity)

/-- Whether the slot `target` is come to, before one that is empty or has the key as well. -/
def reaches (key : κ) (target : ℕ) : ℕ → ℕ → Bool
  | 0, _ => false
  | probes + 1, slot =>
    match slots slot with
    | none => false
    | some other =>
      if slot ≠ target ∧ other = key then false
      else if slot = target then true
      else reaches key target probes ((slot + 1) % capacity)

/-- Every key is reached from its home. -/
def Seated (home : κ → ℕ) : Prop :=
  ∀ slot < capacity, ∀ key, slots slot = some key →
    reaches capacity slots key slot capacity (home key) = true

variable {capacity : ℕ} {slots : ℕ → Option κ} {key : κ}

theorem probe_of_reaches {target : ℕ} (htarget : slots target = some key) :
    ∀ {probes slot : ℕ}, reaches capacity slots key target probes slot = true →
      probe capacity slots key probes slot = .found target
  | 0, _, h => absurd h Bool.false_ne_true
  | probes + 1, slot, h => by
    cases hslot : slots slot with
    | none =>
      rw [reaches, hslot] at h
      exact absurd h Bool.false_ne_true
    | some other =>
      rw [reaches, hslot] at h
      dsimp only at h
      rw [probe, hslot]
      dsimp only
      by_cases heq : slot = target
      · rw [heq, htarget] at hslot
        rw [if_pos (Option.some.inj hslot).symm, heq]
      · have hother : other ≠ key := fun hkey => by
          rw [if_pos ⟨heq, hkey⟩] at h
          exact Bool.false_ne_true h
        rw [if_neg fun hboth => hother hboth.2, if_neg heq] at h
        rw [if_neg hother]
        exact probe_of_reaches htarget h

theorem stored_of_probe (hcapacity : 0 < capacity) : ∀ {probes slot target : ℕ}, slot < capacity →
    probe capacity slots key probes slot = .found target → target < capacity ∧ slots target = some key
  | 0, _, _, _, h => nomatch h
  | probes + 1, slot, target, hlt, h => by
    cases hslot : slots slot with
    | none =>
      rw [probe, hslot] at h
      cases h
    | some other =>
      rw [probe, hslot] at h
      dsimp only at h
      split at h
      · rename_i hkey
        cases h
        exact ⟨hlt, hkey ▸ hslot⟩
      · exact stored_of_probe hcapacity (Nat.mod_lt _ hcapacity) h

theorem occupied_of_full : ∀ {probes slot : ℕ}, slot < capacity →
    probe capacity slots key probes slot = .full →
      ∀ distance < probes, slots ((slot + distance) % capacity) ≠ none
  | 0, _, _, _, distance, hdistance => absurd hdistance (Nat.not_lt_zero _)
  | probes + 1, slot, hlt, h, distance, hdistance => by
    cases hslot : slots slot with
    | none =>
      rw [probe, hslot] at h
      cases h
    | some other =>
      rw [probe, hslot] at h
      dsimp only at h
      split at h
      · cases h
      cases distance with
      | zero =>
        rw [Nat.add_zero, Nat.mod_eq_of_lt hlt, hslot]
        exact Option.some_ne_none _
      | succ distance =>
        have hrest := occupied_of_full (Nat.mod_lt _ (by omega)) h distance (by omega)
        rwa [Nat.mod_add_mod, Nat.add_assoc, Nat.add_comm 1] at hrest

theorem probe_ne_full {slot empty : ℕ} (hslot : slot < capacity) (hempty : empty < capacity)
    (hnone : slots empty = none) : probe capacity slots key capacity slot ≠ .full := by
  intro hfull
  have hdistance : (empty + (capacity - slot)) % capacity < capacity := Nat.mod_lt _ (by omega)
  have hat : (slot + (empty + (capacity - slot)) % capacity) % capacity = empty := by
    rw [Nat.add_mod_mod, show slot + (empty + (capacity - slot)) = empty + capacity by omega,
      Nat.add_mod_right, Nat.mod_eq_of_lt hempty]
  exact occupied_of_full hslot hfull _ hdistance (by rw [hat]; exact hnone)

section Seated

variable {home : κ → ℕ} (hseated : Seated capacity slots home)
include hseated

theorem Seated.probe_eq {slot : ℕ} (hslot : slot < capacity) (hkey : slots slot = some key) :
    probe capacity slots key capacity (home key) = .found slot :=
  probe_of_reaches hkey (hseated slot hslot key hkey)

theorem Seated.slot_unique {first second : ℕ} (hfirst : first < capacity)
    (hsecond : second < capacity) (hkey : slots first = some key) (hkey' : slots second = some key) :
    first = second :=
  Probe.found.inj ((hseated.probe_eq hfirst hkey).symm.trans (hseated.probe_eq hsecond hkey'))

/-- **Every search ends, at the key where it is in the table and at an empty slot elsewhere.** -/
theorem Seated.probe_cases (hhome : home key < capacity) {empty : ℕ} (hempty : empty < capacity)
    (hnone : slots empty = none) : (∃ slot < capacity, slots slot = some key ∧
      probe capacity slots key capacity (home key) = .found slot) ∨
    ((∀ slot < capacity, slots slot ≠ some key) ∧
      probe capacity slots key capacity (home key) = .absent) := by
  cases hprobe : probe capacity slots key capacity (home key) with
  | found slot =>
    obtain ⟨hslot, hkey⟩ := stored_of_probe (by omega) hhome hprobe
    exact .inl ⟨slot, hslot, hkey, rfl⟩
  | absent =>
    refine .inr ⟨fun slot hslot hkey => ?_, rfl⟩
    rw [hseated.probe_eq hslot hkey] at hprobe
    cases hprobe
  | full => exact absurd hprobe (probe_ne_full hhome hempty hnone)

end Seated

end Laplace.Probing
