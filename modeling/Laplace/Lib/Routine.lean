import Laplace.Lib.Reader

/-!
# Routines that read, allocate and divide

A routine is the tree of what it does with an input that nobody checked: it takes bytes where there
are enough, makes room for a number of elements, and divides. A run shows every step and how it
ends; the memory is an opponent who may refuse any request. `Sound` says of the tree alone that no
run does harm, and `reader` is what the routine reads.
-/

namespace Laplace

open Reader

inductive Routine (ε α : Type)
  | done (value : α)
  | stop (error : ε)
  | take (count : ℕ) (short : ε) (next : List UInt8 → Routine ε α)
  | measure (next : ℕ → Routine ε α)
  | allocate (count width : ℕ) (full : ε) (next : Routine ε α)
  | divide (dividend divisor : UInt64) (next : UInt64 → Routine ε α)

namespace Routine

variable {ε α β : Type}

def bind : Routine ε α → (α → Routine ε β) → Routine ε β
  | .done value, next => next value
  | .stop error, _ => .stop error
  | .take count short rest, next => .take count short fun bytes => (rest bytes).bind next
  | .measure rest, next => .measure fun count => (rest count).bind next
  | .allocate count width full rest, next => .allocate count width full (rest.bind next)
  | .divide dividend divisor rest, next => .divide dividend divisor fun quotient =>
      (rest quotient).bind next

instance : Monad (Routine ε) where
  pure := .done
  bind := bind

/-! ## Steps -/

/-- Leave with `error` unless `condition` holds. -/
def require (condition : Prop) [Decidable condition] (error : ε) : Routine ε Unit :=
  if condition then .done () else .stop error

/-- The next bytes, as the value they are loaded as. -/
def load (width : ℕ) (value : List UInt8 → α) (short : ε) : Routine ε α :=
  .take width short fun bytes => .done (value bytes)

/-- How many bytes are left. -/
def remaining : Routine ε ℕ := .measure .done

/-- `resize` of a vector of `count` elements of `width` bytes. -/
def resize (count width : ℕ) (full : ε) : Routine ε Unit := .allocate count width full (.done ())

def quotient (dividend divisor : UInt64) : Routine ε UInt64 := .divide dividend divisor .done

/-- The same routine a number of times. -/
def many (routine : Routine ε α) : ℕ → Routine ε (List α)
  | 0 => return []
  | count + 1 => do
    let value ← routine
    let values ← routine.many count
    return value :: values

/-! ## Runs -/

/-- `PTRDIFF_MAX`, which no object is larger than. -/
def objectLimit : ℕ := 2 ^ 63 - 1

/-- The size of an object in memory. -/
abbrev ObjectSize := {size : ℕ // size ≤ objectLimit}

/-- `max_size` of a vector with elements of `width` bytes. -/
def maxSize (width : ℕ) : ℕ := objectLimit / width

inductive Event
  | take (offset count : ℕ)
  | allocate (count width left : ℕ)
  | divide (divisor : UInt64)
deriving DecidableEq, Repr

/-- How a run ends; an allocation that is refused is reported as an error, a vector that cannot be
so long throws `std::length_error`. -/
inductive Ending (ε α : Type)
  | returned (value : α)
  | failed (error : ε)
  | refused (error : ε)
  | lengthError
  | divisionByZero
deriving DecidableEq, Repr

/-- The memory answers a request by the sizes of the requests so far, the last first. -/
abbrev Memory := List ℕ → Bool

def run (memory : Memory) (input : List UInt8) :
    Routine ε α → ℕ → List ℕ → List Event × Ending ε α
  | .done value, _, _ => ([], .returned value)
  | .stop error, _, _ => ([], .failed error)
  | .take count short next, offset, requests =>
    if count > input.length - offset then ([], .failed short)
    else
      let rest := run memory input (next ((input.drop offset).take count)) (offset + count) requests
      (.take offset count :: rest.1, rest.2)
  | .measure next, offset, requests => run memory input (next (input.length - offset)) offset requests
  | .allocate count width full next, offset, requests =>
    let event := Event.allocate count width (input.length - offset)
    if count > maxSize width then ([event], .lengthError)
    else if memory (count * width :: requests) then
      let rest := run memory input next offset (count * width :: requests)
      (event :: rest.1, rest.2)
    else ([event], .refused full)
  | .divide dividend divisor next, offset, requests =>
    if divisor = 0 then ([.divide divisor], .divisionByZero)
    else
      let rest := run memory input (next (dividend / divisor)) offset requests
      (.divide divisor :: rest.1, rest.2)

/-- How a run from the start of the input ends. -/
def ends (routine : Routine ε α) (memory : Memory) (input : List UInt8) : Ending ε α :=
  (run memory input routine 0 []).2

/-- A step that does no harm: a read inside the input, a table of no more elements than there are
bytes left, no division by zero. -/
def Event.Harmless (input : List UInt8) : Event → Prop
  | .take offset count => offset + count ≤ input.length
  | .allocate count _ left => count ≤ left
  | .divide divisor => divisor ≠ 0

def Ending.Regular : Ending ε α → Prop
  | .returned _ | .failed _ | .refused _ => True
  | .lengthError | .divisionByZero => False

/-- Whatever the memory does, every step is harmless and the run ends regularly. -/
def Total (routine : Routine ε α) (input : List UInt8) : Prop :=
  ∀ memory, (∀ event ∈ (run memory input routine 0 []).1, event.Harmless input) ∧
    (routine.ends memory input).Regular

/-! ## What a routine reads -/

def reader : Routine ε α → Reader α
  | .done value => return value
  | .stop _ => failure
  | .take count _ next => do
    let bytes ← Reader.take count
    (next bytes).reader
  | .measure next => do
    let count ← Reader.remaining
    (next count).reader
  | .allocate count width _ next => do
    guard (count ≤ maxSize width)
    next.reader
  | .divide dividend divisor next => do
    guard (divisor ≠ 0)
    (next (dividend / divisor)).reader

theorem reader_bind : ∀ (routine : Routine ε α) (next : α → Routine ε β),
    (routine >>= next).reader = routine.reader >>= fun value => (next value).reader
  | .done value, next => by
    change (next value).reader = (pure value >>= fun value => (next value).reader)
    rw [pure_bind]
  | .stop error, next => rfl
  | .take count short rest, next => by
    change (Reader.take count >>= fun bytes => ((rest bytes) >>= next).reader) =
      (Reader.take count >>= fun bytes => (rest bytes).reader) >>= fun value => (next value).reader
    rw [bind_assoc]
    exact congrArg _ (funext fun bytes => reader_bind (rest bytes) next)
  | .measure rest, next => by
    change (Reader.remaining >>= fun count => ((rest count) >>= next).reader) =
      (Reader.remaining >>= fun count => (rest count).reader) >>= fun value => (next value).reader
    rw [bind_assoc]
    exact congrArg _ (funext fun count => reader_bind (rest count) next)
  | .allocate count width full rest, next => by
    change (guard (count ≤ maxSize width) >>= fun _ => (rest >>= next).reader) =
      (guard (count ≤ maxSize width) >>= fun _ => rest.reader) >>= fun value => (next value).reader
    rw [bind_assoc, reader_bind rest next]
  | .divide dividend divisor rest, next => by
    change (guard (divisor ≠ 0) >>= fun _ => (rest (dividend / divisor) >>= next).reader) =
      (guard (divisor ≠ 0) >>= fun _ => (rest (dividend / divisor)).reader) >>=
        fun value => (next value).reader
    rw [bind_assoc, reader_bind (rest (dividend / divisor)) next]

theorem reader_pure (value : α) : (pure value : Routine ε α).reader = pure value := rfl

theorem reader_remaining : (remaining : Routine ε ℕ).reader = Reader.remaining := by
  change Reader.remaining >>= pure = _
  rw [bind_pure]

theorem reader_require (condition : Prop) [Decidable condition] (error : ε) :
    (require condition error).reader = guard condition := by
  unfold require guard
  split <;> rfl

theorem reader_resize (count width : ℕ) (full : ε) :
    (resize count width full).reader = guard (count ≤ maxSize width) := by
  change guard (count ≤ maxSize width) >>= pure = _
  rw [bind_pure]

theorem reader_many (routine : Routine ε α) : ∀ count,
    (routine.many count).reader = routine.reader.many count
  | 0 => rfl
  | count + 1 => by
    rw [many, Reader.many, reader_bind]
    simp only [reader_bind, reader_many routine count, reader_pure]

/-! ## Runs and reading -/

variable {memory : Memory} {input : List UInt8}

theorem reader_take_run {count : ℕ} {short : ε} {next : List UInt8 → Routine ε α}
    {bytes : List UInt8} (h : count ≤ bytes.length) : (Routine.take count short next).reader.run bytes =
      (next (bytes.take count)).reader.run (bytes.drop count) := by
  change ((if count ≤ bytes.length then some (bytes.take count, bytes.drop count) else none).bind _) = _
  rw [if_pos h]
  rfl

theorem reader_of_run : ∀ (routine : Routine ε α) {offset : ℕ} {requests : List ℕ} {value : α},
    offset ≤ input.length → (run memory input routine offset requests).2 = .returned value →
      ∃ rest, routine.reader.run (input.drop offset) = some (value, rest)
  | .done _, _, _, _, _, h => by
    cases h
    exact ⟨_, rfl⟩
  | .stop _, _, _, _, _, h => by cases h
  | .take count short next, offset, requests, value, hoffset, h => by
    unfold run at h
    split at h
    · cases h
    · rename_i hcount
      obtain ⟨rest, hrest⟩ := reader_of_run (next _) (by omega) h
      refine ⟨rest, ?_⟩
      rw [reader_take_run (by rw [List.length_drop]; omega), List.drop_drop, hrest]
  | .measure next, offset, requests, value, hoffset, h => by
    obtain ⟨rest, hrest⟩ := reader_of_run (next _) hoffset h
    refine ⟨rest, ?_⟩
    change (next (input.drop offset).length).reader.run (input.drop offset) = _
    rw [List.length_drop]
    exact hrest
  | .allocate count width full next, offset, requests, value, hoffset, h => by
    unfold run at h
    dsimp only at h
    split at h
    · cases h
    · rename_i hmax
      split at h
      · obtain ⟨rest, hrest⟩ := reader_of_run next hoffset h
        exact ⟨rest, (run_guard_then _ _ _).trans ((if_pos (Nat.not_lt.1 hmax)).trans hrest)⟩
      · cases h
  | .divide dividend divisor next, offset, requests, value, hoffset, h => by
    unfold run at h
    split at h
    · cases h
    · rename_i hdivisor
      obtain ⟨rest, hrest⟩ := reader_of_run (next _) hoffset h
      exact ⟨rest, (run_guard_then _ _ _).trans ((if_pos hdivisor).trans hrest)⟩

theorem run_of_reader : ∀ (routine : Routine ε α) {offset : ℕ} {requests : List ℕ} {value : α}
    {rest : List UInt8}, offset ≤ input.length →
      routine.reader.run (input.drop offset) = some (value, rest) →
      (run memory input routine offset requests).2 = .returned value ∨ (∃ request, memory request = false) ∧
          ∃ error, (run memory input routine offset requests).2 = .refused error
  | .done _, _, _, _, _, _, h => by
    cases h
    exact .inl rfl
  | .stop _, _, _, _, _, _, h => by cases h
  | .take count short next, offset, requests, value, rest, hoffset, h => by
    rcases Nat.lt_or_ge (input.drop offset).length count with hcount | hcount
    · change ((if count ≤ (input.drop offset).length then
        some ((input.drop offset).take count, (input.drop offset).drop count) else none).bind _) = _ at h
      rw [if_neg (Nat.not_le.2 hcount)] at h
      cases h
    · rw [reader_take_run hcount, List.drop_drop] at h
      rw [List.length_drop] at hcount
      unfold run
      rw [if_neg (Nat.not_lt.2 hcount)]
      exact run_of_reader (next _) (by omega) h
  | .measure next, offset, requests, value, rest, hoffset, h => by
    replace h : (next (input.drop offset).length).reader.run (input.drop offset) = _ := h
    rw [List.length_drop] at h
    exact run_of_reader (next _) hoffset h
  | .allocate count width full next, offset, requests, value, rest, hoffset, h => by
    replace h := (run_guard_then _ _ _).symm.trans h
    split at h
    · rename_i hmax
      unfold run
      dsimp only
      rw [if_neg (Nat.not_lt.2 hmax)]
      cases hmemory : memory (count * width :: requests) with
      | true => exact run_of_reader next hoffset h
      | false => exact .inr ⟨⟨_, hmemory⟩, full, rfl⟩
    · cases h
  | .divide dividend divisor next, offset, requests, value, rest, hoffset, h => by
    replace h := (run_guard_then _ _ _).symm.trans h
    split at h
    · rename_i hdivisor
      unfold run
      rw [if_neg hdivisor]
      exact run_of_reader (next _) hoffset h
    · cases h

/-- The memory that refuses nothing. -/
def unlimited : Memory := fun _ => true

theorem returned_iff {routine : Routine ε α} {value : α} : routine.ends unlimited input = .returned value ↔
      ∃ rest, routine.reader.run input = some (value, rest) := by
  constructor
  · exact fun h => reader_of_run _ (Nat.zero_le _) h
  · rintro ⟨rest, hrest⟩
    rcases run_of_reader _ (Nat.zero_le _) hrest with h | ⟨⟨request, hrequest⟩, -⟩
    · exact h
    · cases hrequest

theorem returned_any {routine : Routine ε α} {value : α}
    (h : routine.ends memory input = .returned value) (memory' : Memory) :
    routine.ends memory' input = .returned value ∨
      (∃ request, memory' request = false) ∧ ∃ error, routine.ends memory' input = .refused error := by
  obtain ⟨rest, hrest⟩ := reader_of_run _ (Nat.zero_le _) h
  exact run_of_reader _ (Nat.zero_le _) hrest

theorem length_of_reader : ∀ (routine : Routine ε α) {bytes rest : List UInt8} {value : α},
    routine.reader.run bytes = some (value, rest) → rest.length ≤ bytes.length
  | .done _, _, _, _, h => by
    cases h
    exact le_rfl
  | .stop _, _, _, _, h => by cases h
  | .take count short next, bytes, rest, value, h => by
    rcases Nat.lt_or_ge bytes.length count with hcount | hcount
    · change ((if count ≤ bytes.length then some (bytes.take count, bytes.drop count)
        else none).bind _) = _ at h
      rw [if_neg (Nat.not_le.2 hcount)] at h
      cases h
    · rw [reader_take_run hcount] at h
      have hnext := length_of_reader (next _) h
      rw [List.length_drop] at hnext
      omega
  | .measure next, bytes, rest, value, h => length_of_reader (next bytes.length) h
  | .allocate count width full next, bytes, rest, value, h => by
    replace h := (run_guard_then _ _ _).symm.trans h
    split at h
    · exact length_of_reader next h
    · cases h
  | .divide dividend divisor next, bytes, rest, value, h => by
    replace h := (run_guard_then _ _ _).symm.trans h
    split at h
    · exact length_of_reader (next _) h
    · cases h

/-! ## Harm -/

/-- No step from here on can do harm, with some bytes left. -/
def Sound : Routine ε α → List UInt8 → Prop
  | .done _, _ => True
  | .stop _, _ => True
  | .take count _ next, bytes =>
    count ≤ bytes.length → Sound (next (bytes.take count)) (bytes.drop count)
  | .measure next, bytes => Sound (next bytes.length) bytes
  | .allocate count width _ next, bytes =>
    count ≤ bytes.length ∧ count ≤ maxSize width ∧ Sound next bytes
  | .divide dividend divisor next, bytes => divisor ≠ 0 ∧ Sound (next (dividend / divisor)) bytes

instance decidableSound : ∀ (routine : Routine ε α) (bytes : List UInt8), Decidable (routine.Sound bytes)
  | .done _, _ => .isTrue trivial
  | .stop _, _ => .isTrue trivial
  | .take count _ next, bytes =>
    have := decidableSound (next (bytes.take count)) (bytes.drop count)
    inferInstanceAs (Decidable (_ → _))
  | .measure next, bytes => decidableSound (next bytes.length) bytes
  | .allocate _ _ _ next, bytes =>
    have := decidableSound next bytes
    inferInstanceAs (Decidable (_ ∧ _ ∧ _))
  | .divide dividend divisor next, bytes =>
    have := decidableSound (next (dividend / divisor)) bytes
    inferInstanceAs (Decidable (_ ∧ _))

theorem run_of_sound : ∀ (routine : Routine ε α) {offset : ℕ} {requests : List ℕ},
    offset ≤ input.length → Sound routine (input.drop offset) →
      (∀ event ∈ (run memory input routine offset requests).1, event.Harmless input) ∧
        (run memory input routine offset requests).2.Regular
  | .done _, _, _, _, _ => ⟨nofun, trivial⟩
  | .stop _, _, _, _, _ => ⟨nofun, trivial⟩
  | .take count short next, offset, requests, hoffset, h => by
    unfold run
    split
    · exact ⟨nofun, trivial⟩
    · rename_i hcount
      have hnext := h (by rw [List.length_drop]; omega)
      rw [List.drop_drop] at hnext
      obtain ⟨hevents, hending⟩ := run_of_sound (next _) (by omega) hnext
      refine ⟨List.forall_mem_cons.2 ⟨?_, hevents⟩, hending⟩
      change offset + count ≤ input.length
      omega
  | .measure next, offset, requests, hoffset, h => by
    unfold Sound at h
    rw [List.length_drop] at h
    exact run_of_sound (next _) hoffset h
  | .allocate count width full next, offset, requests, hoffset, h => by
    obtain ⟨hleft, hmax, hnext⟩ := h
    rw [List.length_drop] at hleft
    unfold run
    dsimp only
    rw [if_neg (Nat.not_lt.2 hmax)]
    split
    · obtain ⟨hevents, hending⟩ := run_of_sound next hoffset hnext
      exact ⟨List.forall_mem_cons.2 ⟨hleft, hevents⟩, hending⟩
    · exact ⟨List.forall_mem_cons.2 ⟨hleft, nofun⟩, trivial⟩
  | .divide dividend divisor next, offset, requests, hoffset, h => by
    obtain ⟨hdivisor, hnext⟩ := h
    unfold run
    rw [if_neg hdivisor]
    obtain ⟨hevents, hending⟩ := run_of_sound (next _) hoffset hnext
    exact ⟨List.forall_mem_cons.2 ⟨hdivisor, hevents⟩, hending⟩

theorem sound_of_run : ∀ (routine : Routine ε α) {offset : ℕ} {requests : List ℕ}, offset ≤ input.length →
      (∀ event ∈ (run unlimited input routine offset requests).1, event.Harmless input) →
      (run unlimited input routine offset requests).2.Regular → Sound routine (input.drop offset)
  | .done _, _, _, _, _, _ => trivial
  | .stop _, _, _, _, _, _ => trivial
  | .take count short next, offset, requests, hoffset, hevents, hending => by
    intro hcount
    rw [List.length_drop] at hcount
    unfold run at hevents hending
    rw [if_neg (Nat.not_lt.2 hcount)] at hevents hending
    rw [List.drop_drop]
    exact sound_of_run (next _) (by omega) (List.forall_mem_cons.1 hevents).2 hending
  | .measure next, offset, requests, hoffset, hevents, hending => by
    unfold Sound
    rw [List.length_drop]
    exact sound_of_run (next _) hoffset hevents hending
  | .allocate count width full next, offset, requests, hoffset, hevents, hending => by
    unfold run at hevents hending
    dsimp only at hevents hending
    split at hending
    · exact hending.elim
    · rename_i hmax
      rw [if_neg hmax] at hevents
      obtain ⟨hleft, hevents⟩ := List.forall_mem_cons.1 hevents
      refine ⟨?_, Nat.not_lt.1 hmax, sound_of_run next hoffset hevents hending⟩
      rw [List.length_drop]
      exact hleft
  | .divide dividend divisor next, offset, requests, hoffset, hevents, hending => by
    unfold run at hevents hending
    split at hending
    · exact hending.elim
    · rename_i hdivisor
      rw [if_neg hdivisor] at hevents
      exact ⟨hdivisor, sound_of_run (next _) hoffset (List.forall_mem_cons.1 hevents).2 hending⟩

theorem total_iff {routine : Routine ε α} : routine.Total input ↔ routine.Sound input := by
  constructor
  · intro h
    obtain ⟨hevents, hending⟩ := h unlimited
    exact sound_of_run _ (Nat.zero_le _) hevents hending
  · exact fun h memory => run_of_sound _ (Nat.zero_le _) h

/-- **Sequence rule.** -/
@[simp] theorem sound_bind {next : α → Routine ε β} : ∀ {routine : Routine ε α} {bytes : List UInt8},
    (routine >>= next).Sound bytes ↔ routine.Sound bytes ∧
      ∀ value rest, routine.reader.run bytes = some (value, rest) → (next value).Sound rest
  | .done value, bytes => by
    refine ⟨fun h => ⟨trivial, ?_⟩, fun h => h.2 value bytes rfl⟩
    rintro _ _ ⟨⟩
    exact h
  | .stop error, bytes => ⟨fun _ => ⟨trivial, nofun⟩, fun _ => trivial⟩
  | .take count short rest, bytes => by
    rcases Nat.lt_or_ge bytes.length count with hcount | hcount
    · refine iff_of_true (fun h => absurd h (Nat.not_le.2 hcount))
        ⟨fun h => absurd h (Nat.not_le.2 hcount), fun value left h => ?_⟩
      change ((if count ≤ bytes.length then some (bytes.take count, bytes.drop count)
        else none).bind _) = _ at h
      rw [if_neg (Nat.not_le.2 hcount)] at h
      cases h
    · have hrest : ((rest (bytes.take count)) >>= next).Sound (bytes.drop count) ↔ _ := sound_bind
      rw [reader_take_run hcount]
      exact ⟨fun h => ⟨fun _ => (hrest.1 (h hcount)).1, (hrest.1 (h hcount)).2⟩,
        fun h _ => hrest.2 ⟨h.1 hcount, h.2⟩⟩
  | .measure rest, bytes => by
    have hrest : (rest bytes.length >>= next).Sound bytes ↔ _ := sound_bind
    exact hrest
  | .allocate count width full rest, bytes => by
    have hrest : (rest >>= next).Sound bytes ↔ _ := sound_bind
    have hreader (value : α) (left : List UInt8) (hmax : count ≤ maxSize width) :
        (Routine.allocate count width full rest).reader.run bytes = some (value, left) ↔
          rest.reader.run bytes = some (value, left) := by
      rw [← if_pos (c := count ≤ maxSize width) (t := rest.reader.run bytes) (e := none) hmax]
      exact Eq.congr_left (run_guard_then _ _ _)
    constructor
    · rintro ⟨hleft, hmax, h⟩
      obtain ⟨hsound, hnext⟩ := hrest.1 h
      exact ⟨⟨hleft, hmax, hsound⟩, fun value left h => hnext value left ((hreader _ _ hmax).1 h)⟩
    · rintro ⟨⟨hleft, hmax, hsound⟩, hnext⟩
      exact ⟨hleft, hmax, hrest.2 ⟨hsound, fun value left h =>
        hnext value left ((hreader _ _ hmax).2 h)⟩⟩
  | .divide dividend divisor rest, bytes => by
    have hrest : (rest (dividend / divisor) >>= next).Sound bytes ↔ _ := sound_bind
    have hreader (value : α) (left : List UInt8) (hdivisor : divisor ≠ 0) :
        (Routine.divide (ε := ε) dividend divisor rest).reader.run bytes = some (value, left) ↔
          (rest (dividend / divisor)).reader.run bytes = some (value, left) := by
      rw [← if_pos (c := divisor ≠ 0) (t := (rest (dividend / divisor)).reader.run bytes) (e := none)
        hdivisor]
      exact Eq.congr_left (run_guard_then _ _ _)
    constructor
    · rintro ⟨hdivisor, h⟩
      obtain ⟨hsound, hnext⟩ := hrest.1 h
      exact ⟨⟨hdivisor, hsound⟩, fun value left h => hnext value left ((hreader _ _ hdivisor).1 h)⟩
    · rintro ⟨⟨hdivisor, hsound⟩, hnext⟩
      exact ⟨hdivisor, hrest.2 ⟨hsound, fun value left h =>
        hnext value left ((hreader _ _ hdivisor).2 h)⟩⟩

@[simp] theorem sound_pure (value : α) (bytes : List UInt8) : (pure value : Routine ε α).Sound bytes :=
  trivial

@[simp] theorem sound_require (condition : Prop) [Decidable condition] (error : ε) (bytes : List UInt8) :
    (require condition error).Sound bytes := by
  unfold require
  split <;> trivial

theorem sound_require_then {condition : Prop} [Decidable condition] {error : ε}
    {next : Unit → Routine ε α} {bytes : List UInt8} :
    (require condition error >>= next).Sound bytes ↔ (condition → (next ()).Sound bytes) := by
  by_cases h : condition
  · rw [require, if_pos h]
    exact ⟨fun hsound _ => hsound, fun hsound => hsound h⟩
  · rw [require, if_neg h]
    exact iff_of_true trivial fun hcondition => absurd hcondition h

theorem sound_remaining_then {next : ℕ → Routine ε α} {bytes : List UInt8} :
    (remaining >>= next).Sound bytes ↔ (next bytes.length).Sound bytes := Iff.rfl

theorem sound_resize_then {count width : ℕ} {full : ε} {next : Unit → Routine ε α}
    {bytes : List UInt8} : (resize count width full >>= next).Sound bytes ↔
      count ≤ bytes.length ∧ count ≤ maxSize width ∧ (next ()).Sound bytes := Iff.rfl

theorem sound_quotient_then {dividend divisor : UInt64} {next : UInt64 → Routine ε α}
    {bytes : List UInt8} : (quotient dividend divisor >>= next).Sound bytes ↔
      divisor ≠ 0 ∧ (next (dividend / divisor)).Sound bytes := Iff.rfl

theorem sound_many {routine : Routine ε α} {limit : ℕ}
    (h : ∀ bytes : List UInt8, bytes.length ≤ limit → routine.Sound bytes) :
    ∀ (count : ℕ) {bytes : List UInt8}, bytes.length ≤ limit → (routine.many count).Sound bytes
  | 0, _, _ => trivial
  | count + 1, bytes, hlength => sound_bind.2 ⟨h bytes hlength, fun _ _ hrun =>
      sound_bind.2 ⟨sound_many h count ((length_of_reader routine hrun).trans hlength),
        fun _ _ _ => trivial⟩⟩

/-! ## Routines that only calculate -/

theorem run_require_then {condition : Prop} [Decidable condition] {error : ε}
    {next : Unit → Routine ε α} {bytes : List UInt8} {result : α × List UInt8} :
    (require condition error >>= next).reader.run bytes = some result ↔
      condition ∧ (next ()).reader.run bytes = some result := by
  rw [reader_bind, reader_require, run_guard_eq_some]

theorem run_remaining_then (next : ℕ → Routine ε α) (bytes : List UInt8) :
    (remaining >>= next).reader.run bytes = (next bytes.length).reader.run bytes := rfl

theorem run_resize_then {count width : ℕ} {full : ε} {next : Unit → Routine ε α}
    {bytes : List UInt8} {result : α × List UInt8} :
    (resize count width full >>= next).reader.run bytes = some result ↔
      count ≤ maxSize width ∧ (next ()).reader.run bytes = some result := by
  rw [reader_bind, reader_resize, run_guard_eq_some]

theorem run_quotient_then {dividend divisor : UInt64} {next : UInt64 → Routine ε α}
    {bytes : List UInt8} {result : α × List UInt8} :
    (quotient dividend divisor >>= next).reader.run bytes = some result ↔
      divisor ≠ 0 ∧ (next (dividend / divisor)).reader.run bytes = some result := by
  change (guard (divisor ≠ 0) >>= fun _ => (next (dividend / divisor)).reader).run bytes = _ ↔ _
  exact run_guard_eq_some

theorem run_bind_eq_some {routine : Routine ε α} {next : α → Routine ε β} {bytes : List UInt8}
    {result : β × List UInt8} : (routine >>= next).reader.run bytes = some result ↔
      ∃ value rest, routine.reader.run bytes = some (value, rest) ∧
        (next value).reader.run rest = some result := by
  rw [reader_bind, run_bind, Option.bind_eq_some_iff]
  exact ⟨fun ⟨⟨value, rest⟩, h⟩ => ⟨value, rest, h⟩, fun ⟨value, rest, h⟩ => ⟨(value, rest), h⟩⟩

/-- The input is left alone, and the result does not depend on it. -/
def Idle (routine : Routine ε α) : Prop :=
  ∀ bytes value rest, routine.reader.run bytes = some (value, rest) →
    rest = bytes ∧ ∀ bytes', routine.reader.run bytes' = some (value, bytes')

theorem idle_pure (value : α) : (pure value : Routine ε α).Idle := by
  rintro bytes _ _ ⟨⟩
  exact ⟨rfl, fun _ => rfl⟩

theorem idle_stop (error : ε) : (stop error : Routine ε α).Idle := by
  rintro bytes _ _ ⟨⟩

theorem idle_require_then {condition : Prop} [Decidable condition] {error : ε}
    {next : Unit → Routine ε α} (h : (next ()).Idle) : (require condition error >>= next).Idle := by
  intro bytes value rest hrun
  obtain ⟨hcondition, hnext⟩ := run_require_then.1 hrun
  obtain ⟨hrest, hany⟩ := h bytes value rest hnext
  exact ⟨hrest, fun bytes' => run_require_then.2 ⟨hcondition, hany bytes'⟩⟩

theorem idle_require {condition : Prop} [Decidable condition] {error : ε} :
    (require condition error).Idle := by
  unfold require
  split
  · exact idle_pure ()
  · exact idle_stop error

theorem idle_quotient_then {dividend divisor : UInt64} {next : UInt64 → Routine ε α}
    (h : (next (dividend / divisor)).Idle) : (quotient dividend divisor >>= next).Idle := by
  intro bytes value rest hrun
  obtain ⟨hdivisor, hnext⟩ := run_quotient_then.1 hrun
  obtain ⟨hrest, hany⟩ := h bytes value rest hnext
  exact ⟨hrest, fun bytes' => run_quotient_then.2 ⟨hdivisor, hany bytes'⟩⟩

theorem idle_bind {routine : Routine ε α} {next : α → Routine ε β} (h : routine.Idle)
    (hnext : ∀ value, (next value).Idle) : (routine >>= next).Idle := by
  intro bytes value rest hrun
  obtain ⟨middle, left, hfirst, hsecond⟩ := run_bind_eq_some.1 hrun
  obtain ⟨rfl, hany⟩ := h bytes middle left hfirst
  obtain ⟨hrest, hany'⟩ := hnext middle _ value rest hsecond
  exact ⟨hrest, fun bytes' => run_bind_eq_some.2 ⟨middle, bytes', hany bytes', hany' bytes'⟩⟩

end Routine

end Laplace
