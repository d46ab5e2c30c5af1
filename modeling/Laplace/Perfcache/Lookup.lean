import Laplace.Perfcache.ArtifactCodec

/-!
# Looking up keys (perfcache.c:156-228, 654-720)

Records are found by bisection where their keys are sorted, and by their number where the keys are
the numbers from zero on. A read outside of the records or of the keys is a trap.
-/

namespace Laplace.Perfcache

open Guarded
open Checked (maxWord)

/-- `laplace_perfcache_status`, for what the lookup returns besides OK. -/
inductive LookupStatus
  | artifact (status : ArtifactStatus)
  | lookupUnsupported
deriving DecidableEq, Repr

/-- A calculation of the artifact as a part of the lookup. -/
def raised {α : Type} : Guarded ArtifactStatus α → Guarded LookupStatus α
  | .ok value => .ok value
  | .error (.fails status) => .error (.fails (.artifact status))
  | .error .trap => .error .trap

/-- The keys of a batch, one after another in one array. -/
structure KeyBatch (keyBytes : UInt32) where
  keyCount : UInt64
  bytes : List UInt8
  bytes_length : bytes.length = keyCount.toNat * keyBytes.toNat
  bytes_lt : bytes.length < 2 ^ 64

/-- The outputs for one key. -/
structure LookupAnswer where
  found : Bool
  recordIndex : UInt64
deriving DecidableEq, Repr

def LookupAnswer.missing : LookupAnswer := ⟨false, maxWord⟩

/-- A read of `count` bytes at an offset of an array. -/
def readBytes {ε : Type} (bytes : List UInt8) (offset count : ℕ) : Guarded ε (List UInt8) :=
  if offset + count ≤ bytes.length then .ok ((bytes.drop offset).take count) else .error .trap

section Functions

variable (view : ArtifactView)

/-- The key of a record. -/
def readRecordKey (index : UInt64) : Guarded LookupStatus (List UInt8) := do
  let offset ← mul index view.recordStride.toUInt64
  readBytes view.records offset.toNat view.contract.keyBytes.toNat

theorem toNat_middle {low high : UInt64} (h : low < high) :
    (low + (high - low) / 2).toNat = low.toNat + (high.toNat - low.toNat) / 2 := by
  have hlt := UInt64.lt_iff_toNat_lt.1 h
  have hhigh := high.toNat_lt
  have hhalf : ((high - low) / 2).toNat = (high.toNat - low.toNat) / 2 := by
    rw [UInt64.toNat_div, UInt64.toNat_sub_of_le _ _ (UInt64.le_iff_toNat_le.2 hlt.le)]
    rfl
  rw [Checked.toNat_add_of_lt (by omega), hhalf]

theorem toNat_middle_succ {low high : UInt64} (h : low < high) :
    (low + (high - low) / 2 + 1).toNat = low.toNat + (high.toNat - low.toNat) / 2 + 1 := by
  have hlt := UInt64.lt_iff_toNat_lt.1 h
  have hhigh := high.toNat_lt
  have hone : (1 : UInt64).toNat = 1 := rfl
  rw [Checked.toNat_add_of_lt (by rw [toNat_middle h]; omega), toNat_middle h, hone]

/-- The loop of `laplace_perfcache_lookup_batch` that narrows the records down. The middle is never
larger than `high`, so that nothing wraps around. -/
def bisectRecords (key : List UInt8) (low high : UInt64) : Guarded LookupStatus UInt64 :=
  if h : low < high then do
    let middle := low + (high - low) / 2
    let record ← readRecordKey view middle
    if record < key then bisectRecords key (middle + 1) high else bisectRecords key low middle
  else return low
termination_by high.toNat - low.toNat
decreasing_by
  · have hlt := UInt64.lt_iff_toNat_lt.1 h
    rw [toNat_middle_succ h]
    omega
  · have hlt := UInt64.lt_iff_toNat_lt.1 h
    rw [toNat_middle h]
    omega

/-- The body of the loop of `laplace_perfcache_lookup_batch`. -/
def lookupKey (key : List UInt8) : Guarded LookupStatus LookupAnswer :=
  if view.contract.accessLaw = accessDenseU32ZeroBased then
    let index := (loadU32 key).toUInt64
    if index < view.recordCount then return ⟨true, index⟩ else return .missing
  else do
    require (view.contract.accessLaw = accessSortedUniqueFixed) (.artifact .invalidArgument)
    let low ← bisectRecords view key 0 view.recordCount
    if low < view.recordCount then do
      let record ← readRecordKey view low
      if record = key then return ⟨true, low⟩ else return .missing
    else return .missing

/-- A key of a batch. -/
def readKey {keyBytes : UInt32} (batch : KeyBatch keyBytes) (index : ℕ) :
    Guarded LookupStatus (List UInt8) := do
  let offset ← mul (UInt64.ofNat index) keyBytes.toUInt64
  readBytes batch.bytes offset.toNat keyBytes.toNat

/-- `laplace_perfcache_lookup_batch` -/
def lookupBatch (batch : KeyBatch view.contract.keyBytes) :
    Guarded LookupStatus (List LookupAnswer) := do
  let valid ← raised (contractValid view.contract)
  require valid (.artifact .invalidArgument)
  let stride ← add32 view.contract.keyBytes view.contract.valueBytes
  require (view.recordStride = stride) (.artifact .invalidArgument)
  require (view.contract.accessLaw ≠ accessModuleDefined) .lookupUnsupported
  if batch.keyCount ≠ 0 then do
    let limit ← div maxWord view.contract.keyBytes.toUInt64
    require (batch.keyCount ≤ limit) (.artifact .invalidArgument)
  (List.range batch.keyCount.toNat).mapM fun index => do
    let key ← readKey batch index
    lookupKey view key

end Functions

/-! ## Accepted views -/

/-- What the validator knows of a view. -/
structure ArtifactView.Accepted (view : ArtifactView) : Prop where
  usable : Usable view.contract
  stride : view.recordStride = view.contract.keyBytes + view.contract.valueBytes
  records_length : view.records.length = view.recordCount.toNat * strideOf view.contract
  records_lt : view.records.length < 2 ^ 64
  law : recordsAccessLawValid view.records view.recordCount view.contract view.recordStride = .ok ()

/-- The key of a record, where there is one. -/
def ArtifactView.keyAt (view : ArtifactView) (index : ℕ) : List UInt8 :=
  (view.records.drop (index * strideOf view.contract)).take view.contract.keyBytes.toNat

theorem validate_accepted {blake3 : Blake3} {artifact : List UInt8}
    {expectedContract : Contract} {view : ArtifactView}
    (h : validate blake3 artifact expectedContract = .ok view) :
    view.Accepted ∧ view.contract = expectedContract := by
  obtain ⟨spec, hcontract, hadmissible, -, hview⟩ := (safe_validate blake3 _ _).of_ok h
  have hsize := hadmissible.size
  rw [hview]
  refine ⟨⟨hadmissible.usable, rfl, spec.records_eq.symm, ?_, hadmissible.law⟩, hcontract⟩
  change spec.records.length < 2 ^ 64
  unfold ArtifactSpec.digestOffset ArtifactSpec.metadataOffset at hsize
  omega

theorem all_ok {ε α : Type} {holds : α → Bool} : ∀ {values : List α},
    (all (fun value => .ok (holds value)) values : Guarded ε Bool) = .ok (values.all holds)
  | [] => rfl
  | value :: values => by
    rw [all, ok_bind, List.all_cons]
    cases holds value with
    | false => rfl
    | true => exact all_ok

namespace ArtifactView.Accepted

variable {view : ArtifactView} (h : view.Accepted)
include h

theorem toNat_stride : view.recordStride.toNat = strideOf view.contract := by
  rw [h.stride]
  exact Perfcache.toNat_stride h.usable

theorem fits : view.recordCount.toNat * view.recordStride.toNat < 2 ^ 64 := by
  rw [h.toNat_stride, ← h.records_length]
  exact h.records_lt

variable {index : ℕ}

theorem record_le (hindex : index < view.recordCount.toNat) :
    index * strideOf view.contract + strideOf view.contract ≤ view.records.length := by
  have hle := Nat.mul_le_mul_right (strideOf view.contract) hindex
  rwa [h.records_length, ← Nat.succ_mul]

theorem keyAt_length (hindex : index < view.recordCount.toNat) :
    (view.keyAt index).length = view.contract.keyBytes.toNat := by
  have hle := h.record_le hindex
  have hstride : strideOf view.contract =
      view.contract.keyBytes.toNat + view.contract.valueBytes.toNat := rfl
  rw [keyAt, List.length_take, List.length_drop]
  omega

theorem readRecordKey_eq {index : UInt64} (hindex : index < view.recordCount) :
    readRecordKey view index = .ok (view.keyAt index.toNat) := by
  have hlt := UInt64.lt_iff_toNat_lt.1 hindex
  have hle := h.record_le hlt
  have hfits := h.fits
  have hproduct := Nat.mul_le_mul_right view.recordStride.toNat hlt.le
  have hword : view.recordStride.toUInt64.toNat = view.recordStride.toNat := rfl
  have hstride : strideOf view.contract =
      view.contract.keyBytes.toNat + view.contract.valueBytes.toNat := rfl
  unfold readRecordKey
  rw [mul_ok (by rw [hword]; omega), ok_bind, toNat_mul_of_lt (by rw [hword]; omega), hword,
    h.toNat_stride, readBytes, if_pos (by omega)]
  rfl

theorem keyAt_lt_succ (hlaw : view.contract.accessLaw = accessSortedUniqueFixed)
    (hindex : index + 1 < view.recordCount.toNat) : view.keyAt index < view.keyAt (index + 1) := by
  have hvalid := h.law
  have hcount : view.recordCount ≠ 0 := by
    intro hzero
    rw [hzero] at hindex
    exact absurd hindex (Nat.not_lt_zero _)
  rw [recordsAccessLawValid, if_neg hcount, if_pos hlaw, recordsSortedUnique_eq h.fits, all_ok,
    ok_bind] at hvalid
  have hall := (safe_require _ _).of_ok hvalid
  have hat := List.all_eq_true.1 hall (index + 1) (List.mem_range'_1.2 ⟨by omega, by omega⟩)
  rw [decide_eq_true_eq, Nat.add_sub_cancel, h.toNat_stride] at hat
  exact hat

theorem keyAt_lt (hlaw : view.contract.accessLaw = accessSortedUniqueFixed) {first : ℕ} :
    ∀ {second : ℕ}, first < second → second < view.recordCount.toNat → view.keyAt first < view.keyAt second
  | 0, hlt, _ => absurd hlt (Nat.not_lt_zero _)
  | second + 1, hlt, hsecond => by
    have hstep := h.keyAt_lt_succ hlaw hsecond
    rcases Nat.lt_or_eq_of_le (Nat.le_of_lt_succ hlt) with hbefore | rfl
    · exact List.lt_trans (keyAt_lt hlaw hbefore (by omega)) hstep
    · exact hstep

theorem keyAt_dense (hlaw : view.contract.accessLaw = accessDenseU32ZeroBased) :
    view.recordCount.toNat ≤ 2 ^ 32 ∧ ∀ index < view.recordCount.toNat,
      loadU32 (view.keyAt index) = (UInt64.ofNat index).toUInt32 := by
  have hvalid := h.law
  by_cases hcount : view.recordCount = 0
  · rw [hcount]
    exact ⟨Nat.zero_le _, fun index hindex => absurd hindex (Nat.not_lt_zero _)⟩
  have hsorted : view.contract.accessLaw ≠ accessSortedUniqueFixed := by
    rw [hlaw]
    decide
  rw [recordsAccessLawValid, if_neg hcount, if_neg hsorted, if_pos hlaw,
    denseU32ZeroBasedKeys_eq h.fits] at hvalid
  split at hvalid
  · cases hvalid
  rename_i hsmall
  rw [all_ok, ok_bind] at hvalid
  have hall := (safe_require _ _).of_ok hvalid
  refine ⟨by unfold uint32Max at hsmall; omega, fun index hindex => ?_⟩
  have hat := List.all_eq_true.1 hall index (List.mem_range.2 hindex)
  rw [decide_eq_true_eq, h.toNat_stride] at hat
  have hfour : view.contract.keyBytes = 4 := h.usable.2.2.2.2.1 hlaw
  have hlength := h.keyAt_length hindex
  rw [← hat, loadU32_eq, loadU32_eq, ← List.take_append_drop view.contract.keyBytes.toNat
    (view.records.drop (index * strideOf view.contract))]
  exact (Layout.load_append _ (by rw [show _ = _ from hlength, hfour]; rfl) _).symm

end ArtifactView.Accepted

/-! ## Bisection -/

section Bisection

variable {view : ArtifactView} {key : List UInt8}

/-- Records before `low` come before the key, and those from `high` on do not. -/
structure Brackets (view : ArtifactView) (key : List UInt8) (low high : ℕ) : Prop where
  low_le : low ≤ high
  high_le : high ≤ view.recordCount.toNat
  before : ∀ index < low, view.keyAt index < key
  after : ∀ index < view.recordCount.toNat, high ≤ index → ¬ view.keyAt index < key

theorem brackets_all (key : List UInt8) : Brackets view key 0 view.recordCount.toNat :=
  ⟨Nat.zero_le _, le_rfl, fun _ hindex => absurd hindex (Nat.not_lt_zero _),
    fun _ hindex hle => absurd hindex (not_lt.2 hle)⟩

variable (h : view.Accepted) (hlaw : view.contract.accessLaw = accessSortedUniqueFixed)
include h hlaw

theorem Brackets.upper {low high middle : ℕ} (hbrackets : Brackets view key low high)
    (hlow : low ≤ middle) (hhigh : middle < high)
    (hless : view.keyAt middle < key) : Brackets view key (middle + 1) high := by
  refine ⟨hhigh, hbrackets.high_le, fun index hindex => ?_, hbrackets.after⟩
  rcases Nat.lt_or_eq_of_le (Nat.le_of_lt_succ hindex) with hbefore | rfl
  · exact List.lt_trans (h.keyAt_lt hlaw hbefore (hhigh.trans_le hbrackets.high_le)) hless
  · exact hless

theorem Brackets.lower {low high middle : ℕ} (hbrackets : Brackets view key low high)
    (hlow : low ≤ middle) (hhigh : middle < high)
    (hless : ¬ view.keyAt middle < key) : Brackets view key low middle := by
  refine ⟨hlow, hhigh.le.trans hbrackets.high_le, hbrackets.before, fun index hindex hle hkey => ?_⟩
  rcases Nat.lt_or_eq_of_le hle with hafter | rfl
  · exact hless (List.lt_trans (h.keyAt_lt hlaw hafter hindex) hkey)
  · exact hless hkey

theorem bisectRecords_brackets (low high : UInt64) (hbrackets : Brackets view key low.toNat high.toNat) :
    ∃ bound, bisectRecords view key low high = .ok bound ∧ Brackets view key bound.toNat bound.toNat := by
  induction low, high using bisectRecords.induct with
  | case1 low high hlt middle ihUpper ihLower =>
    have hnat := UInt64.lt_iff_toNat_lt.1 hlt
    have hmiddle : middle.toNat = low.toNat + (high.toNat - low.toNat) / 2 := toNat_middle hlt
    have hsucc : (middle + 1).toNat = middle.toNat + 1 :=
      (toNat_middle_succ hlt).trans (congrArg (· + 1) hmiddle.symm)
    have hhigh := hbrackets.high_le
    rw [bisectRecords, dif_pos hlt]
    dsimp only
    rw [h.readRecordKey_eq (UInt64.lt_iff_toNat_lt.2 (show middle.toNat < _ by omega)), ok_bind]
    split
    · rename_i hless
      exact ihUpper (hsucc ▸ hbrackets.upper h hlaw (by omega) (by omega) hless)
    · rename_i hless
      exact ihLower (hbrackets.lower h hlaw (by omega) (by omega) hless)
  | case2 low high hge =>
    have heq : low.toNat = high.toNat :=
      le_antisymm hbrackets.low_le (not_lt.1 fun hlt => hge (UInt64.lt_iff_toNat_lt.2 hlt))
    rw [bisectRecords, dif_neg hge]
    rw [← heq] at hbrackets
    exact ⟨low, rfl, hbrackets⟩

end Bisection

/-! ## Answers -/

/-- There is a record with the key, at the index. -/
def ArtifactView.Holds (view : ArtifactView) (key : List UInt8) (index : ℕ) : Prop :=
  index < view.recordCount.toNat ∧ view.keyAt index = key

/-- The answer for a key: it is found where a record has it, and that is the one. -/
structure LookupAnswer.Answers (answer : LookupAnswer) (view : ArtifactView) (key : List UInt8) :
    Prop where
  found_iff : answer.found = true ↔ ∃ index, view.Holds key index
  holds_iff : answer.found = true → ∀ index, view.Holds key index ↔ index = answer.recordIndex.toNat
  missing : answer.found = false → answer.recordIndex = maxWord

section Answers

variable {view : ArtifactView} {key : List UInt8}

theorem answers_found {index : UInt64} (h : ∀ other, view.Holds key other ↔ other = index.toNat) :
    (⟨true, index⟩ : LookupAnswer).Answers view key :=
  ⟨iff_of_true rfl ⟨index.toNat, (h _).2 rfl⟩, fun _ => h, nofun⟩

theorem answers_missing (h : ∀ index, ¬ view.Holds key index) : LookupAnswer.missing.Answers view key :=
  ⟨iff_of_false Bool.false_ne_true fun ⟨index, hindex⟩ => h index hindex, nofun, fun _ => rfl⟩

variable (h : view.Accepted)
include h

theorem holds_dense (hlaw : view.contract.accessLaw = accessDenseU32ZeroBased)
    (hkey : key.length = view.contract.keyBytes.toNat) (index : ℕ) :
    view.Holds key index ↔ index < view.recordCount.toNat ∧ index = (loadU32 key).toNat := by
  obtain ⟨hcount, hdense⟩ := h.keyAt_dense hlaw
  have hfour : view.contract.keyBytes = 4 := h.usable.2.2.2.2.1 hlaw
  have hwidth : view.contract.keyBytes.toNat = 4 := by
    rw [hfour]
    rfl
  refine and_congr_right fun hindex => ?_
  have hnumber : (UInt64.ofNat index).toUInt32.toNat = index := by
    rw [UInt64.toNat_toUInt32, Checked.toNat_ofNat (by omega),
      Nat.mod_eq_of_lt (by omega)]
  constructor
  · rintro rfl
    rw [hdense index hindex, hnumber]
  · intro hload
    have hword : loadU32 (view.keyAt index) = loadU32 key := by
      rw [hdense index hindex, ← UInt32.toNat_inj, hnumber, hload]
    have hlength := h.keyAt_length hindex
    have hstore {bytes : List UInt8} (hbytes : bytes.length = 4) : u32Bytes (loadU32 bytes) = bytes := by
      rw [loadU32_eq, u32Bytes_eq, Layout.word32.store_load bytes (show 4 ≤ _ from hbytes.ge)]
      exact List.take_of_length_le hbytes.le
    rw [← hstore (hlength.trans hwidth), ← hstore (hkey.trans hwidth), hword]

/-- **One key.** -/
theorem lookupKey_answers (hlaw : view.contract.accessLaw ≠ accessModuleDefined)
    (hkey : key.length = view.contract.keyBytes.toNat) :
    ∃ answer, lookupKey view key = .ok answer ∧ answer.Answers view key := by
  unfold lookupKey
  split
  · rename_i hdense
    have hindex : (loadU32 key).toUInt64.toNat = (loadU32 key).toNat := UInt32.toNat_toUInt64 _
    have hholds := holds_dense h hdense hkey
    dsimp only
    split
    · rename_i hlt
      have hnat := UInt64.lt_iff_toNat_lt.1 hlt
      refine ⟨_, rfl, answers_found fun other => ?_⟩
      rw [hholds, hindex, and_iff_right_iff_imp]
      rintro rfl
      rwa [← hindex]
    · rename_i hge
      refine ⟨_, rfl, answers_missing fun index hat => hge (UInt64.lt_iff_toNat_lt.2 ?_)⟩
      obtain ⟨hcount, rfl⟩ := (hholds index).1 hat
      rwa [hindex]
  · rename_i hdense
    have hsorted : view.contract.accessLaw = accessSortedUniqueFixed :=
      (h.usable.2.2.2.2.2.resolve_right fun hrest => hrest.elim hdense hlaw)
    obtain ⟨bound, hbound, hbrackets⟩ := bisectRecords_brackets h hsorted 0 view.recordCount
      (@brackets_all view key)
    rw [require_ok hsorted, ok_bind, hbound, ok_bind]
    -- a record before the bound comes before the key, and one behind it comes after what is there
    have hholds {index : ℕ} (hat : view.Holds key index) : bound.toNat ≤ index := by
      by_contra hbefore
      have hless := hbrackets.before index (not_le.1 hbefore)
      rw [hat.2] at hless
      exact List.lt_irrefl key hless
    split
    · rename_i hlt
      have hnat := UInt64.lt_iff_toNat_lt.1 hlt
      have hunique {index : ℕ} (hat : view.Holds key index) : index = bound.toNat := by
        by_contra hne
        have hless := h.keyAt_lt hsorted (lt_of_le_of_ne (hholds hat) (Ne.symm hne)) hat.1
        rw [hat.2] at hless
        exact hbrackets.after bound.toNat hnat le_rfl hless
      rw [h.readRecordKey_eq hlt, ok_bind]
      split
      · rename_i hrecord
        refine ⟨_, rfl, answers_found fun other => ⟨hunique, ?_⟩⟩
        rintro rfl
        exact ⟨hnat, hrecord⟩
      · rename_i hrecord
        refine ⟨_, rfl, answers_missing fun index hat => hrecord ?_⟩
        rw [← hunique hat]
        exact hat.2
    · rename_i hge
      refine ⟨_, rfl, answers_missing fun index hat => hge (UInt64.lt_iff_toNat_lt.2 ?_)⟩
      exact (hholds hat).trans_lt hat.1

end Answers

/-! ## Batches -/

theorem mapM_ok {ε α β : Type} {calculate : α → Guarded ε β} {result : α → β} :
    ∀ {values : List α}, (∀ value ∈ values, calculate value = .ok (result value)) →
      values.mapM calculate = .ok (values.map result)
  | [], _ => rfl
  | value :: values, h => by
    rw [List.forall_mem_cons] at h
    rw [List.mapM_cons, h.1, ok_bind, mapM_ok h.2]
    rfl

/-- A key of a batch, where there is one. -/
def KeyBatch.key {keyBytes : UInt32} (batch : KeyBatch keyBytes) (index : ℕ) : List UInt8 :=
  (batch.bytes.drop (index * keyBytes.toNat)).take keyBytes.toNat

section Batches

variable {keyBytes : UInt32} (batch : KeyBatch keyBytes)

variable {index : ℕ}

theorem KeyBatch.key_le (hindex : index < batch.keyCount.toNat) :
    index * keyBytes.toNat + keyBytes.toNat ≤ batch.bytes.length := by
  have hle := Nat.mul_le_mul_right keyBytes.toNat hindex
  rwa [batch.bytes_length, ← Nat.succ_mul]

theorem KeyBatch.key_length (hindex : index < batch.keyCount.toNat) :
    (batch.key index).length = keyBytes.toNat := by
  have hle := batch.key_le hindex
  rw [key, List.length_take, List.length_drop]
  omega

theorem readKey_eq (hindex : index < batch.keyCount.toNat) :
    readKey batch index = .ok (batch.key index) := by
  have hle := batch.key_le hindex
  have hlt := batch.bytes_lt
  have hcount := batch.keyCount.toNat_lt
  have hword : keyBytes.toUInt64.toNat = keyBytes.toNat := rfl
  have hnumber : (UInt64.ofNat index).toNat = index :=
    Checked.toNat_ofNat (by omega)
  unfold readKey
  rw [mul_ok (by rw [hword, hnumber]; omega), ok_bind,
    toNat_mul_of_lt (by rw [hword, hnumber]; omega), hword, hnumber, readBytes, if_pos hle]
  rfl

theorem KeyBatch.count_le (hkey : keyBytes ≠ 0) : batch.keyCount ≤ maxWord / keyBytes.toUInt64 := by
  have hne : keyBytes.toUInt64 ≠ 0 := fun hzero =>
    hkey (UInt32.toNat_inj.1 (congrArg UInt64.toNat hzero))
  refine (le_maxWord_div hne).2 ?_
  have hlt := batch.bytes_lt
  rwa [batch.bytes_length] at hlt

end Batches

theorem Usable.keyBytes_ne_zero {contract : Contract} (h : Usable contract)
    (hlaw : contract.accessLaw ≠ accessModuleDefined) : contract.keyBytes ≠ 0 := by
  obtain ⟨-, -, -, hsorted, hdense, hlaws⟩ := h
  rcases hlaws with heq | heq | heq
  · exact hsorted heq
  · rw [hdense heq]
    decide
  · exact absurd heq hlaw

theorem lookupBatch_eq {view : ArtifactView} (h : view.Accepted)
    (hlaw : view.contract.accessLaw ≠ accessModuleDefined) {answer : List UInt8 → LookupAnswer}
    (hanswer : ∀ key, key.length = view.contract.keyBytes.toNat →
      lookupKey view key = .ok (answer key)) (batch : KeyBatch view.contract.keyBytes) :
    lookupBatch view batch =
      .ok ((List.range batch.keyCount.toNat).map fun index => answer (batch.key index)) := by
  have hkey := h.usable.keyBytes_ne_zero hlaw
  have hne : view.contract.keyBytes.toUInt64 ≠ 0 := fun hzero =>
    hkey (UInt32.toNat_inj.1 (congrArg UInt64.toNat hzero))
  have hsum : view.contract.keyBytes.toNat + view.contract.valueBytes.toNat ≤ uint32Max :=
    h.usable.2.1
  have hmax : uint32Max = 2 ^ 32 - 1 := rfl
  have hkeys : ((List.range batch.keyCount.toNat).mapM fun index => do
      let key ← readKey batch index
      lookupKey view key) =
      .ok ((List.range batch.keyCount.toNat).map fun index => answer (batch.key index)) := by
    refine mapM_ok fun index hindex => ?_
    have hlt := List.mem_range.1 hindex
    rw [readKey_eq batch hlt, ok_bind, hanswer _ (batch.key_length hlt)]
  unfold lookupBatch
  rw [contractValid_eq, raised, ok_bind, require_ok (decide_eq_true h.usable), ok_bind,
    add32_ok (by omega), ok_bind, require_ok h.stride, ok_bind, require_ok hlaw, ok_bind]
  split
  · rw [div_ok hne, ok_bind, require_ok (batch.count_le hkey)]
    exact hkeys
  · exact hkeys

/-- **Batches.** There is one answer to every key, whatever batch it stands in, and it is the record
that has the key. -/
theorem lookupBatch_answers {blake3 : Blake3} {artifact : List UInt8}
    {expectedContract : Contract} {view : ArtifactView}
    (hvalidate : validate blake3 artifact expectedContract = .ok view)
    (hlaw : expectedContract.accessLaw = accessSortedUniqueFixed ∨
      expectedContract.accessLaw = accessDenseU32ZeroBased) : ∃ answer : List UInt8 → LookupAnswer,
      (∀ batch : KeyBatch view.contract.keyBytes, lookupBatch view batch =
        .ok ((List.range batch.keyCount.toNat).map fun index => answer (batch.key index))) ∧
      ∀ key, key.length = view.contract.keyBytes.toNat → (answer key).Answers view key := by
  obtain ⟨haccepted, hcontract⟩ := validate_accepted hvalidate
  rw [← hcontract] at hlaw
  have hmodule : view.contract.accessLaw ≠ accessModuleDefined := by
    rcases hlaw with heq | heq <;> rw [heq] <;> decide
  have hkeys : ∀ key : List UInt8, ∃ answer, key.length = view.contract.keyBytes.toNat →
      lookupKey view key = .ok answer ∧ answer.Answers view key := by
    intro key
    by_cases hkey : key.length = view.contract.keyBytes.toNat
    · obtain ⟨answer, hanswer⟩ := lookupKey_answers haccepted hmodule hkey
      exact ⟨answer, fun _ => hanswer⟩
    · exact ⟨.missing, fun hlength => absurd hlength hkey⟩
  choose answer hanswer using hkeys
  exact ⟨answer, lookupBatch_eq haccepted hmodule fun key hkey => (hanswer key hkey).1,
    fun key hkey => (hanswer key hkey).2⟩

/-- A key that stands in a record, and one that does not. -/
def twoKeys : KeyBatch (twoRecords.view fun _ => 0).contract.keyBytes := ⟨2, [2, 3], rfl, by decide⟩

theorem lookupBatch_answers_twoRecords : ∃ present missing : LookupAnswer,
    lookupBatch (twoRecords.view fun _ => 0) twoKeys = .ok [present, missing] ∧
    present.Answers (twoRecords.view fun _ => 0) [2] ∧ missing.Answers (twoRecords.view fun _ => 0) [3] ∧
    present.found = true ∧ missing.found = false := by
  obtain ⟨answer, hbatch, hanswer⟩ :=
    lookupBatch_answers (validate_artifact _ twoRecords_admissible) (.inl rfl)
  have hresult : lookupBatch (twoRecords.view fun _ => 0) twoKeys = .ok [⟨true, 1⟩, .missing] := by
    decide +kernel
  have hanswers := Except.ok.inj ((hbatch twoKeys).symm.trans hresult)
  have hpresent : answer [2] = ⟨true, 1⟩ := (List.cons.inj hanswers).1
  have hmissing : answer [3] = .missing := (List.cons.inj (List.cons.inj hanswers).2).1
  exact ⟨_, _, hresult, hpresent ▸ hanswer [2] rfl, hmissing ▸ hanswer [3] rfl, rfl, rfl⟩

end Laplace.Perfcache
