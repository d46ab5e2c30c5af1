import Laplace.Lib.Layout

/-!
# Readers that undo writers

A reader takes a value off the front of a byte string. `Reads reader write valid` says that it takes
exactly the strings that `write` puts for the valid values: what is written is read back whatever
follows it, and what is read was written so. There is one rule for every way to put a reader
together; a reader that undoes a writer cannot stop at two places of one string.
-/

namespace Laplace

abbrev Reader (α : Type) := StateT (List UInt8) Option α

namespace Reader

variable {α β γ : Type}

def take (count : ℕ) : Reader (List UInt8) := fun bytes =>
  if count ≤ bytes.length then some (bytes.take count, bytes.drop count) else none

/-- How many bytes are left. -/
def remaining : Reader ℕ := fun bytes => some (bytes.length, bytes)

/-- The first bytes, and the value they are loaded as. -/
def load (width : ℕ) (value : List UInt8 → α) : Reader α := do
  let bytes ← take width
  return value bytes

/-- The same reader a number of times. -/
def many (reader : Reader α) : ℕ → Reader (List α)
  | 0 => return []
  | count + 1 => do
    let value ← reader
    let values ← reader.many count
    return value :: values

theorem run_bind (reader : Reader α) (next : α → Reader β) (bytes : List UInt8) :
    (reader >>= next).run bytes = (reader.run bytes).bind fun result => (next result.1).run result.2 := rfl

theorem run_guard_then (condition : Prop) [Decidable condition] (next : Unit → Reader α)
    (bytes : List UInt8) : (guard condition >>= next : Reader α).run bytes =
      if condition then (next ()).run bytes else none := by
  by_cases h : condition
  · rw [if_pos h]
    simp only [guard, if_pos h]
    rfl
  · rw [if_neg h]
    simp only [guard, if_neg h]
    rfl

theorem run_guard_eq_some {condition : Prop} [Decidable condition] {next : Unit → Reader α}
    {bytes : List UInt8} {result : α × List UInt8} :
    (guard condition >>= next : Reader α).run bytes = some result ↔
      condition ∧ (next ()).run bytes = some result := by
  rw [run_guard_then, Option.ite_none_right_eq_some]

/-! ## Rules -/

structure Reads (reader : Reader α) (write : α → List UInt8) (valid : α → Prop) : Prop where
  accepts : ∀ value rest, valid value → reader.run (write value ++ rest) = some (value, rest)
  canonical : ∀ bytes value rest, reader.run bytes = some (value, rest) →
    valid value ∧ bytes = write value ++ rest

variable {reader : Reader α} {write write' : α → List UInt8} {valid valid' : α → Prop}

/-- **Consequence rule.** -/
theorem Reads.congr (h : Reads reader write valid) (hvalid : ∀ value, valid value ↔ valid' value)
    (hwrite : ∀ value, valid value → write value = write' value) : Reads reader write' valid' := by
  refine ⟨fun value rest hv => ?_, fun bytes value rest hrun => ?_⟩
  · rw [← hwrite value ((hvalid value).2 hv)]
    exact h.accepts value rest ((hvalid value).2 hv)
  · obtain ⟨hv, hbytes⟩ := h.canonical bytes value rest hrun
    exact ⟨(hvalid value).1 hv, by rw [hbytes, hwrite value hv]⟩

theorem Reads.pure {whole : α} (h : ∀ value, valid value ↔ value = whole) :
    Reads (Pure.pure whole) (fun _ => []) valid := by
  refine ⟨fun value rest hv => ?_, fun bytes value rest hrun => ?_⟩
  · rw [(h value).1 hv]
    rfl
  · obtain ⟨rfl, rfl⟩ := Prod.mk.inj (Option.some.inj hrun)
    exact ⟨(h _).2 rfl, rfl⟩

theorem Reads.fields (h : Reads reader write fun value => valid value ∧ True) : Reads reader write valid :=
  h.congr (fun _ => and_iff_left trivial) fun _ _ => rfl

/-- **Sequence rule.** A field of the whole value, and then the rest of it, when the field is
known. -/
theorem Reads.bind {next : α → Reader β} {write' : β → List UInt8} {valid' known : β → Prop}
    (h : Reads reader write valid) (field : β → α)
    (hfield : ∀ whole, valid' whole ∧ known whole → valid (field whole)) (hnext : ∀ value, valid value →
      Reads (next value) write' fun whole => valid' whole ∧ known whole ∧ field whole = value) :
    Reads (reader >>= next) (fun whole => write (field whole) ++ write' whole)
      fun whole => valid' whole ∧ known whole := by
  refine ⟨fun whole rest hv => ?_, fun bytes whole rest hrun => ?_⟩
  · rw [run_bind, List.append_assoc, h.accepts _ _ (hfield whole hv)]
    exact (hnext (field whole) (hfield whole hv)).accepts whole rest ⟨hv.1, hv.2, rfl⟩
  · rw [run_bind] at hrun
    obtain ⟨⟨value, middle⟩, hfirst, hsecond⟩ := Option.bind_eq_some_iff.1 hrun
    obtain ⟨hvalue, rfl⟩ := h.canonical bytes value middle hfirst
    obtain ⟨⟨hvalid, hknown, rfl⟩, rfl⟩ := (hnext value hvalue).canonical middle whole rest hsecond
    exact ⟨⟨hvalid, hknown⟩, (List.append_assoc _ _ _).symm⟩

/-- **Sequence rule** for a field that may hold anything. -/
theorem Reads.field {next : α → Reader β} {write' : β → List UInt8} {valid' known : β → Prop}
    (h : Reads reader write fun _ => True) (field : β → α) (hnext : ∀ value,
      Reads (next value) write' fun whole => valid' whole ∧ known whole ∧ field whole = value) :
    Reads (reader >>= next) (fun whole => write (field whole) ++ write' whole)
      fun whole => valid' whole ∧ known whole :=
  h.bind field (fun _ _ => trivial) fun value _ => hnext value

theorem Reads.last {whole : α → β} {valid' known : β → Prop} (h : Reads reader write valid)
    (field : β → α) (hfield : ∀ whole, valid' whole ∧ known whole → valid (field whole))
    (hwhole : ∀ value, valid value → ∀ result,
      valid' result ∧ known result ∧ field result = value ↔ result = whole value) :
    Reads (reader >>= fun value => Pure.pure (whole value)) (fun result => write (field result))
      fun result => valid' result ∧ known result :=
  (h.bind field hfield fun value hvalue => .pure (hwhole value hvalue)).congr (fun _ => Iff.rfl)
    fun _ _ => List.append_nil _

theorem Reads.guard_then {condition : Prop} [Decidable condition] {next : Unit → Reader α}
    (hcondition : ∀ value, valid value → condition) (h : condition → Reads (next ()) write valid) :
    Reads (guard condition >>= next) write valid := by
  refine ⟨fun value rest hv => ?_, fun bytes value rest hrun => ?_⟩
  · rw [run_guard_then, if_pos (hcondition value hv)]
    exact (h (hcondition value hv)).accepts value rest hv
  · rw [run_guard_then] at hrun
    split at hrun
    · rename_i hholds
      exact (h hholds).canonical bytes value rest hrun
    · cases hrun

theorem Reads.of_guard {condition : Prop} [Decidable condition] {valid : Unit → Prop}
    (h : valid () ↔ condition) : Reads (guard condition) (fun _ => []) valid := by
  have hrun (bytes : List UInt8) : (guard condition : Reader Unit).run bytes =
      if condition then some ((), bytes) else none := by
    have hthen := run_guard_then condition (Pure.pure : Unit → Reader Unit) bytes
    rwa [bind_pure] at hthen
  refine ⟨fun _ rest hv => ?_, fun bytes _ rest hrun' => ?_⟩
  · rw [hrun, if_pos (h.1 hv)]
    rfl
  · rw [hrun] at hrun'
    split at hrun'
    · rename_i hcondition
      obtain ⟨-, rfl⟩ := Prod.mk.inj (Option.some.inj hrun')
      exact ⟨h.2 hcondition, rfl⟩
    · cases hrun'

theorem Reads.remaining_then {condition : ℕ → Prop} [DecidablePred condition]
    {next : Unit → Reader α} (h : Reads (next ()) write valid)
    (hmeets : ∀ value left, valid value → (write value).length ≤ left → condition left) :
    Reads (remaining >>= fun left => guard (condition left) >>= next) write valid := by
  have hrun : ∀ bytes, (remaining >>= fun left => guard (condition left) >>= next : Reader α).run
      bytes = if condition bytes.length then (next ()).run bytes else none := fun bytes =>
    run_guard_then (condition bytes.length) next bytes
  refine ⟨fun value rest hv => ?_, fun bytes value rest hread => ?_⟩
  · rw [hrun, if_pos (hmeets value _ hv (by rw [List.length_append]; omega))]
    exact h.accepts value rest hv
  · rw [hrun] at hread
    split at hread
    · exact h.canonical bytes value rest hread
    · cases hread

theorem reads_take (count : ℕ) :
    Reads (take count) (fun bytes => bytes) fun bytes => bytes.length = count := by
  refine ⟨fun bytes rest hlength => ?_, fun bytes front rest hrun => ?_⟩
  · subst hlength
    simp [take, StateT.run]
  · change (if count ≤ bytes.length then some (bytes.take count, bytes.drop count) else none) =
      some (front, rest) at hrun
    split at hrun
    · rename_i hle
      obtain ⟨rfl, rfl⟩ := Prod.mk.inj (Option.some.inj hrun)
      exact ⟨List.length_take_of_le hle, (List.take_append_drop _ _).symm⟩
    · cases hrun

theorem reads_load (layout : Layout α) {value : List UInt8 → α}
    (hvalue : ∀ bytes, value bytes = layout.load bytes)
    (hwrite : ∀ result, write result = layout.store result) :
    Reads (load layout.width value) write fun _ => True := by
  have htake := reads_take layout.width
  refine ⟨fun result rest _ => ?_, fun bytes result rest hrun => ?_⟩
  · have h := htake.accepts (layout.store result) rest (layout.length_store result)
    rw [load, run_bind, hwrite]
    rw [h]
    change some (value (layout.store result), rest) = _
    rw [hvalue, layout.load_store']
  · rw [load, run_bind] at hrun
    obtain ⟨⟨front, middle⟩, hfirst, hsecond⟩ := Option.bind_eq_some_iff.1 hrun
    obtain ⟨hlength, rfl⟩ := htake.canonical bytes front middle hfirst
    obtain ⟨rfl, rfl⟩ := Prod.mk.inj (Option.some.inj hsecond)
    refine ⟨trivial, ?_⟩
    rw [hwrite, hvalue, layout.store_load front (by omega), ← hlength, List.take_length]

theorem Reads.many (h : Reads reader write valid) : ∀ count, Reads (reader.many count)
    (fun values => values.flatMap write) fun values => values.length = count ∧ ∀ value ∈ values, valid value
  | 0 => by
    have hnil : ∀ values : List α,
        values.length = 0 ∧ (∀ value ∈ values, valid value) ↔ values = [] := fun values => by
      rw [List.length_eq_zero_iff, and_iff_left_iff_imp]
      rintro rfl value ⟨⟩
    refine (Reads.pure hnil).congr (fun _ => Iff.rfl) fun values hv => ?_
    rw [(hnil values).1 hv, List.flatMap_nil]
  | count + 1 => by
    have hrest := h.many count
    refine ⟨fun values rest hv => ?_, fun bytes values rest hrun => ?_⟩
    · obtain ⟨hlength, hvalid⟩ := hv
      cases values with
      | nil => cases hlength
      | cons value values =>
        obtain ⟨hvalue, hvalues⟩ := List.forall_mem_cons.1 hvalid
        rw [Reader.many, run_bind, List.flatMap_cons, List.append_assoc,
          h.accepts value _ hvalue, Option.bind_some, run_bind,
          hrest.accepts values rest ⟨Nat.succ.inj hlength, hvalues⟩]
        rfl
    · rw [Reader.many, run_bind] at hrun
      obtain ⟨⟨value, middle⟩, hfirst, hsecond⟩ := Option.bind_eq_some_iff.1 hrun
      rw [run_bind] at hsecond
      obtain ⟨⟨others, last⟩, hmiddle, hlast⟩ := Option.bind_eq_some_iff.1 hsecond
      obtain ⟨rfl, rfl⟩ := Prod.mk.inj (Option.some.inj hlast)
      obtain ⟨hvalue, rfl⟩ := h.canonical bytes value middle hfirst
      obtain ⟨⟨hlength, hvalid⟩, rfl⟩ := hrest.canonical middle others last hmiddle
      refine ⟨⟨by rw [List.length_cons, hlength], List.forall_mem_cons.2 ⟨hvalue, hvalid⟩⟩, ?_⟩
      rw [List.flatMap_cons, List.append_assoc]

/-! ## Where a reader stops -/

theorem Reads.write_append_inj (h : Reads reader write valid) {left right : α}
    {rest rest' : List UInt8} (hleft : valid left) (hright : valid right)
    (heq : write left ++ rest = write right ++ rest') : left = right ∧ rest = rest' := by
  have hrun := h.accepts left rest hleft
  rw [heq, h.accepts right rest' hright] at hrun
  obtain ⟨hvalue, hrest⟩ := Prod.mk.inj (Option.some.inj hrun)
  exact ⟨hvalue.symm, hrest.symm⟩

end Reader

end Laplace
