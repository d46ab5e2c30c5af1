import Laplace.Execution.Work
import Mathlib.Data.List.Perm.Basic
import Mathlib.Data.List.Nodup
import Mathlib.Logic.Function.Basic

/-!
# The workers of the oneAPI provider (execution_oneapi.cpp:96-146)

Workers take chunks from a shared counter until the chunks are over or a call of the task has failed.
An action is one atomic access or one call of the task, which is taken to be atomic; a schedule says
who acts next, and any interleaving is one. Invariant: what is called or running is what the counter
has handed out, and a failure that is not announced yet has a worker that will announce it.

| here | there |
| --- | --- |
| `Phase`    | where a worker stands in the loop of `:117-139` |
| `Dispatch` | `next_chunk`, `first_failure`, `results` and what the task keeps |
-/

namespace Laplace.Execution

/-! ## Calls -/

/-- The result of a chunk for which the task returned `outcome`. -/
def resultOf (outcome : Status × Digest256) : ChunkResult :=
  ⟨outcome.2, if outcome.1 = .ok then chunkComplete else chunkFailed,
    UInt32.ofNat outcome.1.ctorIdx⟩

theorem resultOf_complete (outcome : Status × Digest256) :
    (resultOf outcome).complete = true ↔ outcome.1 = .ok := by
  obtain ⟨status, fingerprint⟩ := outcome
  cases status <;> simp [resultOf, ChunkResult.complete, chunkComplete, chunkFailed, statusOk]
  rfl

theorem resultOf_valid (outcome : Status × Digest256) : (resultOf outcome).valid = true := by
  obtain ⟨status, fingerprint⟩ := outcome
  cases status <;> simp [resultOf, ChunkResult.valid, ChunkResult.complete, chunkComplete, chunkFailed,
    chunkNotStarted, statusOk] <;> decide

section Calls

variable {τ : Type*} (task : WorkTask τ) (chunks : List Chunk)

/-- Call the task for a chunk and leave the result in its place. -/
def callChunk (index : ℕ) (memory : (ℕ → ChunkResult) × τ) : Status × ((ℕ → ChunkResult) × τ) :=
  match chunks[index]? with
  | none => (.ok, memory)
  | some chunk =>
    let (outcome, taskState) := task chunk memory.2
    (outcome.1, (Function.update memory.1 index (resultOf outcome), taskState))

/-- The chunks are called in some order. -/
def callChunks (order : List ℕ) (taskState : τ) : (ℕ → ChunkResult) × τ :=
  order.foldl (fun memory index => (callChunk task chunks index memory).2) (fun _ => {}, taskState)

theorem callChunk_written {index : ℕ} (h : index < chunks.length) (memory : (ℕ → ChunkResult) × τ) :
    ∃ fingerprint, (callChunk task chunks index memory).2.1 =
      Function.update memory.1 index (resultOf ((callChunk task chunks index memory).1, fingerprint)) := by
  unfold callChunk
  rw [List.getElem?_eq_getElem h]
  exact ⟨_, rfl⟩

end Calls

/-! ## The loop -/

inductive Phase
  | load | fetch | run (index : ℕ) | fail (status : Status) | left
deriving DecidableEq

/-- The turns that are left to a worker at most when the chunks are over. -/
def Phase.rest : Phase → ℕ
  | .load => 2
  | .fetch => 1
  | .run _ => 4
  | .fail _ => 3
  | .left => 0

/-- What the workers share, and where each of them stands; `called` records the calls. -/
structure Dispatch (τ : Type*) where
  nextChunk : ℕ := 0
  firstFailure : Status := .ok
  memory : (ℕ → ChunkResult) × τ
  called : List ℕ := []
  phase : ℕ → Phase

namespace Dispatch

variable {τ : Type*} {task : WorkTask τ} {chunks : List Chunk} {workers : ℕ} {taskState : τ}
  {s : Dispatch τ}

def start (workers : ℕ) (taskState : τ) : Dispatch τ where
  memory := (fun _ => {}, taskState)
  phase := fun worker => if worker < workers then .load else .left

/-- The next action of a worker. -/
def turn (task : WorkTask τ) (chunks : List Chunk) (s : Dispatch τ) (worker : ℕ) : Dispatch τ :=
  let goto := Function.update s.phase worker
  match s.phase worker with
  | .load => { s with phase := goto (if s.firstFailure = .ok then .fetch else .left) }
  | .fetch =>
    { s with
      nextChunk := s.nextChunk + 1
      phase := goto (if s.nextChunk < chunks.length then .run s.nextChunk else .left) }
  | .run index =>
    let (status, memory) := callChunk task chunks index s.memory
    { s with
      memory := memory
      called := s.called ++ [index]
      phase := goto (if status = .ok then .load else .fail status) }
  | .fail status =>
    { s with
      firstFailure := if s.firstFailure = .ok then status else s.firstFailure
      phase := goto .load }
  | .left => s

def after (task : WorkTask τ) (chunks : List Chunk) (schedule : List ℕ) (s : Dispatch τ) :
    Dispatch τ :=
  schedule.foldl (turn task chunks) s

/-! ## Invariant -/

structure Sound (task : WorkTask τ) (chunks : List Chunk) (workers : ℕ) (taskState : τ)
    (s : Dispatch τ) : Prop where
  idle : ∀ worker, workers ≤ worker → s.phase worker = .left
  calls : callChunks task chunks s.called taskState = s.memory
  nodup : s.called.Nodup
  taken : ∀ index ∈ s.called, index < s.nextChunk ∧ index < chunks.length
  running : ∀ worker index, s.phase worker = .run index →
    index < s.nextChunk ∧ index < chunks.length ∧ index ∉ s.called
  alone : ∀ worker other index, s.phase worker = .run index → s.phase other = .run index →
    worker = other
  covered : ∀ index < chunks.length, index < s.nextChunk →
    index ∈ s.called ∨ ∃ worker, s.phase worker = .run index
  failing : ∀ worker status, s.phase worker = .fail status → status ≠ .ok ∧
    ∃ index ∈ s.called, ∃ fingerprint, s.memory.1 index = resultOf (status, fingerprint)
  failed : s.firstFailure ≠ .ok →
    ∃ index ∈ s.called, ∃ fingerprint, s.memory.1 index = resultOf (s.firstFailure, fingerprint)
  noticed : ∀ index ∈ s.called, (s.memory.1 index).complete ∨ s.firstFailure ≠ .ok ∨
    ∃ worker status, s.phase worker = .fail status
  leaves : ∀ worker < workers, s.phase worker = .left →
    s.firstFailure ≠ .ok ∨ chunks.length ≤ s.nextChunk

theorem Sound.start (task : WorkTask τ) (chunks : List Chunk) (workers : ℕ) (taskState : τ) :
    (start workers taskState).Sound task chunks workers taskState := by
  refine ⟨?_, rfl, List.nodup_nil, nofun, ?_, ?_, nofun, ?_, fun h => absurd rfl h, nofun, ?_⟩
  all_goals grind [Dispatch.start]

theorem Sound.turn (h : s.Sound task chunks workers taskState) (worker : ℕ) :
    (s.turn task chunks worker).Sound task chunks workers taskState := by
  have hphase : ∀ phase other, Function.update s.phase worker phase other =
      if other = worker then phase else s.phase other := fun _ _ => Function.update_apply _ _ _ _
  have hidle := h.idle
  have halone := h.alone
  unfold Dispatch.turn
  dsimp only
  split
  · refine ⟨?_, h.calls, h.nodup, h.taken, ?_, ?_, ?_, ?_, h.failed, ?_, ?_⟩ <;> simp only [hphase]
    all_goals grind [h.running, h.covered, h.failing, h.noticed, h.leaves]
  · have hbelow : ∀ worker index, s.phase worker = .run index → index < s.nextChunk :=
      fun worker index hrun => (h.running worker index hrun).1
    refine ⟨?_, h.calls, h.nodup, fun index hindex => ?_, ?_, ?_, fun index hlt hnext => ?_, ?_, h.failed,
      ?_, ?_⟩ <;> simp only [hphase]
    · grind
    · exact (h.taken index hindex).imp_left Nat.lt_succ_of_lt
    · grind [h.running, h.taken]
    · grind
    · rcases Nat.lt_succ_iff_lt_or_eq.1 hnext with hnext | rfl
      · grind [h.covered]
      · exact .inr ⟨worker, by rw [if_pos rfl, if_pos hlt]⟩
    all_goals grind [h.failing, h.noticed, h.leaves]
  · rename_i index hrun
    obtain ⟨htaken, hlt, hnew⟩ := h.running worker index hrun
    obtain ⟨fingerprint, hwritten⟩ := callChunk_written task chunks hlt s.memory
    have hold : ∀ other ∈ s.called, (callChunk task chunks index s.memory).2.1 other =
        s.memory.1 other := by
      intro other hother
      rw [hwritten, Function.update_of_ne]
      exact ne_of_mem_of_not_mem hother hnew
    have hself : (callChunk task chunks index s.memory).2.1 index =
        resultOf ((callChunk task chunks index s.memory).1, fingerprint) := by
      rw [hwritten, Function.update_self]
    have hkept : ∀ status, (∃ other ∈ s.called, ∃ fingerprint,
        s.memory.1 other = resultOf (status, fingerprint)) → ∃ other ∈ s.called ++ [index],
          ∃ fingerprint, (callChunk task chunks index s.memory).2.1 other =
            resultOf (status, fingerprint) := by
      rintro status ⟨other, hother, fingerprint, hresult⟩
      exact ⟨other, List.mem_append_left _ hother, fingerprint, (hold other hother).trans hresult⟩
    have hlast : index ∈ s.called ++ [index] := List.mem_append_right _ List.mem_cons_self
    refine ⟨?_, ?_, ?_, fun other hother => ?_, ?_, ?_, ?_, ?_, fun hfailed => hkept _ (h.failed hfailed),
      fun other hother => ?_, ?_⟩ <;> simp only [hphase]
    · grind
    · have hcalls := h.calls
      unfold callChunks at hcalls ⊢
      rw [List.foldl_append, hcalls]
      rfl
    · grind [h.nodup]
    · rcases List.mem_append.1 hother with hother | hother
      · exact h.taken other hother
      · exact List.mem_singleton.1 hother ▸ ⟨htaken, hlt⟩
    · intro other place hother
      have hne : other ≠ worker := by grind
      rw [if_neg hne] at hother
      obtain ⟨hnext, hplace, hfresh⟩ := h.running other place hother
      exact ⟨hnext, hplace, by grind⟩
    · grind
    · grind [h.covered]
    · intro other status hfail
      by_cases heq : other = worker
      · rw [if_pos heq] at hfail
        split at hfail
        · cases hfail
        · rename_i hstatus
          cases hfail
          exact ⟨hstatus, index, hlast, fingerprint, hself⟩
      · rw [if_neg heq] at hfail
        exact (h.failing other status hfail).imp_right (hkept status)
    · rcases List.mem_append.1 hother with hother | hother
      · rw [hold other hother]
        grind [h.noticed]
      · rw [List.mem_singleton.1 hother, hself, resultOf_complete]
        by_cases hok : (callChunk task chunks index s.memory).1 = .ok
        · exact .inl hok
        · exact .inr (.inr ⟨worker, _, by rw [if_pos rfl, if_neg hok]⟩)
    · grind [h.leaves]
  · rename_i status hfail
    obtain ⟨hstatus, hwho⟩ := h.failing worker status hfail
    refine ⟨?_, h.calls, h.nodup, h.taken, ?_, ?_, ?_, ?_, fun _ => ?_, ?_, ?_⟩ <;> simp only [hphase]
    case refine_6 =>
      split
      · exact hwho
      · rename_i hfailed
        exact h.failed hfailed
    all_goals grind [h.running, h.covered, h.failing, h.noticed, h.leaves]
  · exact h

theorem Sound.after (h : s.Sound task chunks workers taskState) (schedule : List ℕ) :
    (s.after task chunks schedule).Sound task chunks workers taskState := by
  induction schedule generalizing s with
  | nil => exact h
  | cons worker schedule ih => exact ih (h.turn worker)

/-- Once all workers have left without a failure, every chunk was called, and is complete. -/
theorem Sound.all (h : s.Sound task chunks workers taskState) (hworkers : 0 < workers)
    (hleft : ∀ worker, s.phase worker = .left) (hok : s.firstFailure = .ok) :
    ∀ index < chunks.length, index ∈ s.called ∧ (s.memory.1 index).complete := by
  have hall := (h.leaves 0 hworkers (hleft 0)).resolve_left (not_not.2 hok)
  intro index hindex
  have hcalled : index ∈ s.called := by
    refine (h.covered index hindex (hindex.trans_le hall)).resolve_right ?_
    rintro ⟨worker, hrun⟩
    cases hrun.symm.trans (hleft worker)
  refine ⟨hcalled, (h.noticed index hcalled).resolve_right ?_⟩
  rintro (hfailed | ⟨worker, status, hfail⟩)
  · exact hfailed hok
  · cases hfail.symm.trans (hleft worker)

theorem Sound.perm (h : s.Sound task chunks workers taskState) (hworkers : 0 < workers)
    (hleft : ∀ worker, s.phase worker = .left) (hok : s.firstFailure = .ok) :
    s.called.Perm (List.range chunks.length) := by
  rw [List.perm_ext_iff_of_nodup h.nodup List.nodup_range]
  intro index
  rw [List.mem_range]
  exact ⟨fun hcalled => (h.taken index hcalled).2,
    fun hindex => (h.all hworkers hleft hok index hindex).1⟩

/-! ## Length -/

/-- The turns that are left to a worker at most. -/
def rest (chunks : List Chunk) (worker : ℕ) (s : Dispatch τ) : ℕ :=
  4 * (chunks.length - s.nextChunk) + (s.phase worker).rest

theorem turn_rest (task : WorkTask τ) (chunks : List Chunk) (s : Dispatch τ) {worker : ℕ}
    (hleft : s.phase worker ≠ .left) : (s.turn task chunks worker).rest chunks worker < s.rest chunks worker := by
  unfold turn rest
  dsimp only
  split <;> rename_i hphase
  · simp only [hphase, Function.update_self]
    split
    · exact Nat.add_lt_add_left (by decide) _
    · exact Nat.add_lt_add_left (by decide) _
  · simp only [hphase, Function.update_self]
    split
    · change 4 * (chunks.length - (s.nextChunk + 1)) + 4 < 4 * (chunks.length - s.nextChunk) + 1
      omega
    · change 4 * (chunks.length - (s.nextChunk + 1)) + 0 < 4 * (chunks.length - s.nextChunk) + 1
      omega
  · simp only [hphase, Function.update_self]
    split
    · exact Nat.add_lt_add_left (by decide : 2 < 4) _
    · exact Nat.add_lt_add_left (by decide : 3 < 4) _
  · simp only [hphase, Function.update_self]
    exact Nat.add_lt_add_left (by decide : 2 < 3) _
  · exact absurd hphase hleft

/-- A turn of another worker leaves a worker where it is, and no chunks more. -/
theorem turn_other (task : WorkTask τ) (chunks : List Chunk) (s : Dispatch τ) {worker other : ℕ}
    (h : worker ≠ other) : (s.turn task chunks other).phase worker = s.phase worker ∧
      s.nextChunk ≤ (s.turn task chunks other).nextChunk := by
  unfold turn
  dsimp only
  split
  all_goals simp only [Function.update_of_ne h, Nat.le_refl, Nat.le_succ, and_self]

theorem after_left (task : WorkTask τ) (chunks : List Chunk) {worker : ℕ} :
    ∀ (schedule : List ℕ) {s : Dispatch τ}, s.phase worker = .left →
      (s.after task chunks schedule).phase worker = .left
  | [], _, h => h
  | other :: schedule, s, h => by
    refine after_left task chunks schedule ?_
    by_cases heq : worker = other
    · rw [← heq, turn, h]
      exact h
    · rw [(turn_other task chunks s heq).1, h]

/-- A worker has left, or its turns were not too many. -/
theorem after_rest (task : WorkTask τ) (chunks : List Chunk) (worker : ℕ) :
    ∀ (schedule : List ℕ) (s : Dispatch τ), (s.after task chunks schedule).phase worker = .left ∨
      schedule.count worker ≤ s.rest chunks worker
  | [], _ => .inr (Nat.zero_le _)
  | other :: schedule, s => by
    by_cases hleft : s.phase worker = .left
    · exact .inl (after_left task chunks _ hleft)
    · refine (after_rest task chunks worker schedule (s.turn task chunks other)).imp_right fun hcount => ?_
      by_cases heq : worker = other
      · subst heq
        have hrest := turn_rest task chunks s hleft
        rw [List.count_cons_self]
        omega
      · obtain ⟨hphase, hnext⟩ := turn_other task chunks s heq
        rw [List.count_cons_of_ne (Ne.symm heq)]
        rw [rest, hphase] at hcount
        unfold rest
        omega

theorem start_rest (chunks : List Chunk) (workers worker : ℕ) (taskState : τ) :
    (Dispatch.start workers taskState).rest chunks worker ≤ 4 * chunks.length + 2 := by
  refine Nat.add_le_add_left ?_ _
  change (if worker < workers then Phase.load else Phase.left).rest ≤ 2
  split <;> decide

/-- **Interleavings.** Whatever the workers do in whatever order, it is a serial run over some chunks:
none is called twice or held by two workers, and the failure that is kept is one of a chunk. -/
theorem dispatch_serial (task : WorkTask τ) (chunks : List Chunk) (workers : ℕ) (taskState : τ)
    (schedule : List ℕ) :
    let s := (Dispatch.start workers taskState).after task chunks schedule
    s.memory = callChunks task chunks s.called taskState ∧ s.called.Nodup ∧
      (∀ index ∈ s.called, index < chunks.length) ∧
      (∀ worker other index, s.phase worker = .run index → index ∉ s.called ∧
        (s.phase other = .run index → worker = other)) ∧
      (s.firstFailure = .ok ∨ ∃ index ∈ s.called, ∃ fingerprint,
        s.memory.1 index = resultOf (s.firstFailure, fingerprint)) := by
  intro s
  have h := (Sound.start task chunks workers taskState).after schedule
  exact ⟨h.calls.symm, h.nodup, fun index hindex => (h.taken index hindex).2,
    fun worker other index hrun => ⟨(h.running worker index hrun).2.2, h.alone worker other index hrun⟩,
    Classical.or_iff_not_imp_left.2 h.failed⟩

/-- **No worker waits.** A worker leaves after a bounded number of turns of its own, whatever the others
do; once all have left without a failure, every chunk was called once, and is complete. -/
theorem dispatch_ends (task : WorkTask τ) (chunks : List Chunk) (others : ℕ) (taskState : τ)
    (schedule : List ℕ) :
    let s := (Dispatch.start (others + 1) taskState).after task chunks schedule
    (∀ worker, s.phase worker = .left ∨ schedule.count worker ≤ 4 * chunks.length + 2) ∧
    ((∀ worker, s.phase worker = .left) → s.firstFailure = .ok →
      s.called.Perm (List.range chunks.length) ∧
        ∀ index < chunks.length, (s.memory.1 index).complete) := by
  intro s
  refine ⟨fun worker => ?_, fun hleft hok => ?_⟩
  · exact (after_rest task chunks worker schedule _).imp_right
      (·.trans (start_rest chunks (others + 1) worker taskState))
  · have h := (Sound.start task chunks (others + 1) taskState).after schedule
    exact ⟨h.perm others.succ_pos hleft hok,
      fun index hindex => (h.all others.succ_pos hleft hok index hindex).2⟩

end Dispatch

end Laplace.Execution
