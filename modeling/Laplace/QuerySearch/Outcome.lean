import Laplace.QuerySearch.Budgets
import Laplace.QuerySearch.Emission

/-!
# What `laplace_query_search_execute` hands back

`execute_cases` reads an outcome as the end of a run, so that what holds at every point of a run
holds of the outcome. Sound paths and the budgets are the two results that need no promise of the
provider.
-/

namespace Laplace.QuerySearch

open Search

variable {blake3 : Blake3} {program : Program} {initials : List State} {σ : Type}
  {provider : Provider σ} {state : σ}

theorem requestValid_program (h : requestValid program provider = true) : programValid program = true := by
  simp only [requestValid, Bool.and_eq_true] at h
  exact h.1.1.1.1

theorem execute_isSome : (execute blake3 program provider initials state).isSome = true := by
  unfold execute
  split
  · rfl
  split
  · rfl
  rename_i hvalid
  obtain ⟨status, hstatus⟩ := step_eq_none.1
    (@run_returns blake3 _ initials _ provider
      (@requestValid_program _ _ provider (by simpa using hvalid)) state)
  simp only [hstatus, Option.isSome_some]

/-- `execute` ran, and `e` is where the run ended. -/
structure Ended (blake3 : Blake3) (program : Program) (provider : Provider σ)
    (initials : List State) (state : σ) (status : Status) (e : Execution σ) : Prop where
  initial : initials.isEmpty = false
  request : requestValid program provider = true
  reaches : Machine.Reaches (step blake3 program provider) (start blake3 program initials state) e
  phase : e.phase = .halted status

variable {e : Execution σ}

theorem Ended.stopped {status : Status} (h : Ended blake3 program provider initials state status e) :
    step blake3 program provider e = none :=
  step_eq_none.2 ⟨status, h.phase⟩

theorem Ended.not_failed (h : Ended blake3 program provider initials state .ok e) :
    e.phase.failed = false := by
  rw [h.phase]
  rfl

theorem Ended.unique {status status' : Status} {e' : Execution σ}
    (h : Ended blake3 program provider initials state status e)
    (h' : Ended blake3 program provider initials state status' e') : e' = e :=
  h'.reaches.end_unique h'.stopped h.reaches h.stopped

variable {outcome : Outcome}

theorem execute_cases (h : execute blake3 program provider initials state = some outcome) :
    (outcome.status ≠ .ok ∧ outcome.paths = none ∧ outcome.receipt = { version := 1 } ∧
        ∀ status e, ¬ Ended blake3 program provider initials state status e) ∨
      ∃ status e, Ended blake3 program provider initials state status e ∧
        outcome = closeOutcome blake3 status e.search := by
  unfold execute at h
  split at h
  · rename_i hempty
    injection h with h
    subst h
    exact .inl ⟨by simp, rfl, rfl, fun _ _ he => by rw [he.initial] at hempty; cases hempty⟩
  rename_i hempty
  split at h
  · rename_i hrequest
    injection h with h
    subst h
    exact .inl ⟨by simp, rfl, rfl, fun _ _ he => by rw [he.request] at hrequest; cases hrequest⟩
  rename_i hrequest
  simp only at h
  split at h
  · rename_i status hphase
    injection h with h
    exact .inr ⟨status, _, ⟨by simpa using hempty, by simpa using hrequest, Machine.reaches_run _ _,
      hphase⟩, h.symm⟩
  · cases h

theorem execute_ok (h : execute blake3 program provider initials state = some outcome)
    (hok : outcome.status = .ok) : ∃ e, Ended blake3 program provider initials state .ok e ∧
      outcome = closeOutcome blake3 .ok e.search := by
  rcases execute_cases h with ⟨hne, -⟩ | ⟨status, e, he, rfl⟩
  · exact absurd hok hne
  · have : status = .ok := by
      unfold closeOutcome at hok
      by_contra hne
      rw [if_neg hne] at hok
      exact hne hok
    subst this
    exact ⟨e, he, rfl⟩

theorem execute_paths {paths : List Path}
    (h : execute blake3 program provider initials state = some outcome)
    (hp : outcome.paths = some paths) : outcome.status = .ok := by
  rcases execute_cases h with ⟨-, hnone, -⟩ | ⟨status, e, -, rfl⟩
  · rw [hnone] at hp
    cases hp
  · unfold closeOutcome at hp ⊢
    split
    · rfl
    · rename_i hne
      rw [if_neg hne] at hp
      cases hp

@[simp] theorem closeOutcome_ok_paths (s : Search) : (closeOutcome blake3 .ok s).paths = some s.paths :=
  rfl

/-- Whatever the provider answered, every returned path is sound. -/
theorem execute_paths_sound {outcome : Outcome} {paths : List Path}
    (h : execute blake3 program provider initials state = some outcome)
    (hp : outcome.paths = some paths) : ∀ path ∈ paths, PathSound program initials path := by
  obtain ⟨e, he, rfl⟩ := execute_ok h (execute_paths h hp)
  rw [closeOutcome_ok_paths, Option.some.injEq] at hp
  subst hp
  exact ((reachable_good he.reaches).wellFormed he.not_failed).sound

/-- A path over one edge is sound. -/
theorem execute_paths_sound_edge : ∃ outcome paths path,
      execute (fun _ => 1) edgeProgram (edgeProvider stateTerminal) [edgeStart] () = some outcome ∧
      outcome.paths = some paths ∧ path ∈ paths ∧ PathSound edgeProgram [edgeStart] path := by
  obtain ⟨outcome, h⟩ := Option.isSome_iff_exists.1
    (@execute_isSome (fun _ => 1) edgeProgram [edgeStart] _ (edgeProvider stateTerminal) ())
  have hlen : (execute (fun _ => 1) edgeProgram (edgeProvider stateTerminal) [edgeStart] ()).map
      (fun outcome => outcome.paths.map (·.length)) = some (some 1) := by decide +kernel
  rw [h, Option.map_some, Option.some.injEq, Option.map_eq_some_iff] at hlen
  obtain ⟨paths, hp, hone⟩ := hlen
  obtain ⟨path, hpath⟩ := List.exists_mem_of_length_pos (l := paths) (by omega)
  exact ⟨outcome, paths, path, h, hp, hpath, execute_paths_sound h hp path hpath⟩

/-- The search returns, and no budget is exceeded at any point on the way. -/
theorem execute_within_budget (blake3 : Blake3) (program : Program)
    (initials : List State) {σ : Type} (provider : Provider σ) (state : σ) :
    (execute blake3 program provider initials state).isSome = true ∧
      ∀ e, Machine.Reaches (step blake3 program provider) (start blake3 program initials state) e →
        WithinBudget program e.search :=
  ⟨execute_isSome, fun _ hr => (reachable_budgeted hr).within⟩

/-- The budgets at a point in the middle of a run. -/
theorem execute_within_budget_edge :
    (execute (fun _ => 1) edgeProgram (edgeProvider stateTerminal) [edgeStart] ()).isSome = true ∧
      WithinBudget edgeProgram (Machine.run (step (fun _ => 1) edgeProgram (edgeProvider stateTerminal)) 6
          (start (fun _ => 1) edgeProgram [edgeStart] ())).search :=
  have h := execute_within_budget (fun _ => 1) edgeProgram [edgeStart] (edgeProvider stateTerminal) ()
  ⟨h.1, h.2 _ (Machine.reaches_run 6 _)⟩

end Laplace.QuerySearch
