import Laplace.Framework.Types

/-!
# The activation state machine (framework.c:1254-1524)

The receipt is held by the caller and every call authenticates it by its hash. A provider is a
state and three callbacks on it. A receipt can be committed or aborted while it is admitted; both
calls take it out of that state for good, and a call that is rejected leaves it as it is.
-/

namespace Laplace.Framework

/-- `context->epochs[slot]` -/
def Context.epoch (context : Context) (slot : ℕ) : Digest256 :=
  if h : slot < epochCount then context.epochs ⟨slot, h⟩ else 0

/-- `laplace_framework_activation_provider_v1` with callbacks on a state -/
structure ActivationProvider (σ : Type) where
  prepare : Context → StreamReceipt → ActivationRequest → σ → (Status × Digest256) × σ
  commit : ActivationRequest → Digest256 → σ → (Status × Digest256) × σ
  abort : ActivationRequest → Digest256 → σ → σ
  callbacks : Bool
  abiMajor : UInt16
  abiMinor : UInt16
  flags : UInt32
  reserved : UInt32

/-- `activation_provider_is_valid` -/
def ActivationProvider.valid {σ : Type} (provider : ActivationProvider σ) : Bool :=
  provider.callbacks && provider.abiMajor == activationProviderAbiMajor &&
  provider.abiMinor ≤ activationProviderAbiMinor && provider.flags == 0 && provider.reserved == 0

section Functions

variable {σ : Type} (blake3 : Blake3)

def admittedReceiptIsValid (receipt : ActivationReceipt) : Bool :=
  if receipt.status ≠ .ok ∨ receipt.effectDisposition ≠ effectActivationAdmitted ∨
      epochCount ≤ receipt.epochSlot.toNat ∨ receipt.reserved ≠ 0 then false
  else receipt.receiptId = (hashActivationReceipt blake3 receipt).receiptId

/-- `laplace_framework_admit_staged_stream`; it returns the status of the receipt. -/
def admitStagedStream (context : Context) (stagedReceipt : StreamReceipt)
    (request : ActivationRequest) (provider : ActivationProvider σ) (state : σ) :
    ActivationReceipt × σ :=
  let close (receipt : ActivationReceipt) (status : Status) : ActivationReceipt :=
    hashActivationReceipt blake3 { receipt with status }
  let fingerprint := contextFingerprint blake3 context
  let receipt : ActivationReceipt := { contextFingerprint := fingerprint.2 }
  if fingerprint.1 ≠ .ok then (close receipt fingerprint.1, state)
  else if streamReceiptValidate blake3 context stagedReceipt ≠ .ok ∨
      epochCount ≤ request.epochSlot.toNat ∨ request.flags ≠ knownActivationFlags ∨
      request.reserved ≠ 0 ∨ request.expectedEpoch = request.nextEpoch then
    (close receipt .activationRequestInvalid, state)
  else
    let receipt : ActivationReceipt :=
      { receipt with
        stagedReceiptId := stagedReceipt.receiptId
        expectedEpoch := request.expectedEpoch
        nextEpoch := request.nextEpoch
        epochSlot := request.epochSlot
        requestFingerprint := blake3 (activationRequestBytes stagedReceipt.receiptId request) }
    if context.flags &&& contextReadOnly ≠ 0 then (close receipt .effectNotAuthorized, state)
    else if !context.present request.epochSlot.toNat ∨
        context.epoch request.epochSlot.toNat ≠ request.expectedEpoch then
      (close receipt .activationRequestInvalid, state)
    else if !provider.valid then (close receipt .activationProviderInvalid, state)
    else
      let ((status, preparationFingerprint), state) :=
        provider.prepare context stagedReceipt request state
      let receipt := { receipt with preparationFingerprint }
      if status ≠ .ok then
        (close { receipt with effectDisposition := effectStagedInert } .activationAdmissionFailed,
          provider.abort request preparationFingerprint state)
      else (close { receipt with effectDisposition := effectActivationAdmitted } .ok, state)

/-- `laplace_framework_admitted_stream_validate` -/
def admittedStreamValidate (context : Context) (request : ActivationRequest)
    (provider : ActivationProvider σ) (receipt : ActivationReceipt) : Status :=
  let fingerprint := contextFingerprint blake3 context
  if !provider.valid ∨ fingerprint.1 ≠ .ok ∨ !admittedReceiptIsValid blake3 receipt ∨
      receipt.contextFingerprint ≠ fingerprint.2 ∨ receipt.epochSlot ≠ request.epochSlot ∨
      receipt.expectedEpoch ≠ request.expectedEpoch ∨ receipt.nextEpoch ≠ request.nextEpoch then
    .activationRequestInvalid
  else .ok

/-- `laplace_framework_commit_admitted_stream` -/
def commitAdmittedStream (context : Context) (request : ActivationRequest)
    (provider : ActivationProvider σ) (receipt : ActivationReceipt) (state : σ) :
    Status × ActivationReceipt × σ :=
  match admittedStreamValidate blake3 context request provider receipt with
  | .ok =>
    let ((status, activationFingerprint), state) :=
      provider.commit request receipt.preparationFingerprint state
    let receipt := { receipt with activationFingerprint }
    if status ≠ .ok then
      (.activationCommitFailed,
        hashActivationReceipt blake3 { receipt with status := .activationCommitFailed },
        provider.abort request receipt.preparationFingerprint state)
    else
      (.ok, hashActivationReceipt blake3
        { receipt with effectDisposition := effectActivated, status := .ok }, state)
  | status => (status, receipt, state)

/-- `laplace_framework_abort_admitted_stream`, whose checks are those of
`laplace_framework_admitted_stream_validate` -/
def abortAdmittedStream (context : Context) (request : ActivationRequest)
    (provider : ActivationProvider σ) (receipt : ActivationReceipt) (state : σ) :
    Status × ActivationReceipt × σ :=
  let fingerprint := contextFingerprint blake3 context
  if !provider.valid ∨ fingerprint.1 ≠ .ok ∨ !admittedReceiptIsValid blake3 receipt ∨
      receipt.contextFingerprint ≠ fingerprint.2 ∨ receipt.epochSlot ≠ request.epochSlot ∨
      receipt.expectedEpoch ≠ request.expectedEpoch ∨ receipt.nextEpoch ≠ request.nextEpoch then
    (.activationRequestInvalid, receipt, state)
  else
    (.ok, hashActivationReceipt blake3 { receipt with
          activationFingerprint := 0
          effectDisposition := effectStagedInert
          status := .ok },
      provider.abort request receipt.preparationFingerprint state)

/-- `laplace_framework_activate_staged_stream` -/
def activateStagedStream (context : Context) (stagedReceipt : StreamReceipt)
    (request : ActivationRequest) (provider : ActivationProvider σ) (state : σ) :
    Status × ActivationReceipt × σ :=
  match admitStagedStream blake3 context stagedReceipt request provider state with
  | (receipt, state) =>
    if receipt.status ≠ .ok then (receipt.status, receipt, state)
    else commitAdmittedStream blake3 context request provider receipt state

/-- `laplace_framework_committed_receipts_validate` -/
def committedReceiptsValidate (contextFingerprint stagedReceiptId : Digest256)
    (request : ActivationRequest) (preparationFingerprint activationFingerprint
      admissionReceiptId activationReceiptId : Digest256) : Status :=
  if epochCount ≤ request.epochSlot.toNat ∨ request.flags ≠ knownActivationFlags ∨
      request.reserved ≠ 0 ∨ request.expectedEpoch = request.nextEpoch then
    .activationRequestInvalid
  else
    let expected := hashActivationReceipt blake3
      { contextFingerprint, stagedReceiptId
        expectedEpoch := request.expectedEpoch
        nextEpoch := request.nextEpoch
        epochSlot := request.epochSlot
        preparationFingerprint
        status := .ok
        effectDisposition := effectActivationAdmitted
        requestFingerprint := blake3 (activationRequestBytes stagedReceiptId request) }
    if expected.receiptId ≠ admissionReceiptId then .activationRequestInvalid
    else
      let expected := hashActivationReceipt blake3
        { expected with activationFingerprint, effectDisposition := effectActivated }
      if expected.receiptId = activationReceiptId then .ok else .activationRequestInvalid

end Functions

/-! ## What is accepted -/

section Accepted

variable {σ : Type} {blake3 : Blake3}

/-- The receipt is admitted, for this context and for these epochs. -/
structure AdmittedFor (blake3 : Blake3) (context : Context)
    (request : ActivationRequest) (receipt : ActivationReceipt) : Prop where
  status_eq : receipt.status = .ok
  effect_eq : receipt.effectDisposition = effectActivationAdmitted
  receiptId_eq : receipt.receiptId = blake3 (activationReceiptBytes receipt)
  context_eq : contextFingerprint blake3 context = (.ok, receipt.contextFingerprint)
  slot_eq : receipt.epochSlot = request.epochSlot
  expected_eq : receipt.expectedEpoch = request.expectedEpoch
  next_eq : receipt.nextEpoch = request.nextEpoch

variable {receipt : ActivationReceipt}

theorem admittedReceipt_of_valid (h : admittedReceiptIsValid blake3 receipt = true) :
    receipt.status = .ok ∧ receipt.effectDisposition = effectActivationAdmitted ∧
      receipt.receiptId = blake3 (activationReceiptBytes receipt) := by
  rw [admittedReceiptIsValid] at h
  split at h
  · cases h
  · rename_i hfields
    simp only [not_or, not_not] at hfields
    exact ⟨hfields.1, hfields.2.1, of_decide_eq_true h⟩

variable {context : Context} {request : ActivationRequest} {provider : ActivationProvider σ}

theorem admittedFor_of_validate (h : admittedStreamValidate blake3 context request provider receipt = .ok) :
    AdmittedFor blake3 context request receipt := by
  rw [admittedStreamValidate] at h
  split at h
  · cases h
  · rename_i hfields
    simp only [not_or, not_not, Bool.not_eq_true, Bool.not_eq_false'] at hfields
    obtain ⟨-, hok, hvalid, hcontext, hslot, hexpected, hnext⟩ := hfields
    obtain ⟨hstatus, heffect, hid⟩ := admittedReceipt_of_valid hvalid
    exact ⟨hstatus, heffect, hid, Prod.ext hok hcontext.symm, hslot, hexpected, hnext⟩

theorem abortAdmittedStream_eq (context : Context) (request : ActivationRequest)
    (provider : ActivationProvider σ) (receipt : ActivationReceipt) (state : σ) :
    abortAdmittedStream blake3 context request provider receipt state =
      match admittedStreamValidate blake3 context request provider receipt with
      | .ok =>
        (.ok, hashActivationReceipt blake3 { receipt with
              activationFingerprint := 0
              effectDisposition := effectStagedInert
              status := .ok },
          provider.abort request receipt.preparationFingerprint state)
      | status => (status, receipt, state) := by
  rw [abortAdmittedStream, admittedStreamValidate]
  split <;> rfl

theorem admittedStreamValidate_cases (context : Context) (request : ActivationRequest)
    (provider : ActivationProvider σ) (receipt : ActivationReceipt) :
    admittedStreamValidate blake3 context request provider receipt = .ok ∨
      admittedStreamValidate blake3 context request provider receipt = .activationRequestInvalid := by
  rw [admittedStreamValidate]
  split
  · exact .inr rfl
  · exact .inl rfl

/-! ## Sequences of calls on one receipt -/

/-- A call on a receipt that was admitted; each comes with its own context, request and provider. -/
inductive ReceiptCall (σ : Type)
  | commit (context : Context) (request : ActivationRequest) (provider : ActivationProvider σ)
  | abort (context : Context) (request : ActivationRequest) (provider : ActivationProvider σ)

/-- The checks of a call. -/
def ReceiptCall.validate (blake3 : Blake3) (receipt : ActivationReceipt) :
    ReceiptCall σ → Status
  | .commit context request provider | .abort context request provider =>
    admittedStreamValidate blake3 context request provider receipt

def ReceiptCall.apply (blake3 : Blake3) (receipt : ActivationReceipt) (state : σ) :
    ReceiptCall σ → Status × ActivationReceipt × σ
  | .commit context request provider =>
    commitAdmittedStream blake3 context request provider receipt state
  | .abort context request provider =>
    abortAdmittedStream blake3 context request provider receipt state

/-- The statuses of a sequence of calls, and the receipt after them. -/
def ReceiptCall.applyAll (blake3 : Blake3) :
    List (ReceiptCall σ) → ActivationReceipt → σ → List Status × ActivationReceipt × σ
  | [], receipt, state => ([], receipt, state)
  | call :: calls, receipt, state =>
    let (status, receipt, state) := call.apply blake3 receipt state
    let (statuses, receipt, state) := applyAll blake3 calls receipt state
    (status :: statuses, receipt, state)

variable {state : σ}

theorem ReceiptCall.apply_of_rejected {call : ReceiptCall σ} (h : call.validate blake3 receipt ≠ .ok) :
    call.apply blake3 receipt state = (.activationRequestInvalid, receipt, state) := by
  cases call with
  | commit context request provider =>
    have hinvalid := (admittedStreamValidate_cases context request provider receipt).resolve_left h
    rw [ReceiptCall.apply, commitAdmittedStream, hinvalid]
  | abort context request provider =>
    have hinvalid := (admittedStreamValidate_cases context request provider receipt).resolve_left h
    rw [ReceiptCall.apply, abortAdmittedStream_eq, hinvalid]

/-- A receipt whose status or effect is not the admitted one. -/
def ActivationReceipt.Spent (receipt : ActivationReceipt) : Prop :=
  receipt.status ≠ .ok ∨ receipt.effectDisposition ≠ effectActivationAdmitted

theorem ReceiptCall.spent_of_accepted {call : ReceiptCall σ} (h : call.validate blake3 receipt = .ok) :
    (call.apply blake3 receipt state).2.1.Spent := by
  cases call with
  | commit context request provider =>
    change admittedStreamValidate blake3 context request provider receipt = .ok at h
    rw [ReceiptCall.apply, commitAdmittedStream, h]
    rcases provider.commit request receipt.preparationFingerprint state with ⟨⟨status, _⟩, _⟩
    by_cases hstatus : status = .ok
    · simp only [hstatus, ne_eq, not_true_eq_false, if_false]
      exact .inr (by change effectActivated ≠ effectActivationAdmitted; decide)
    · simp only [ne_eq, hstatus, not_false_eq_true, if_true]
      exact .inl (by change Status.activationCommitFailed ≠ Status.ok; decide)
  | abort context request provider =>
    change admittedStreamValidate blake3 context request provider receipt = .ok at h
    rw [ReceiptCall.apply, abortAdmittedStream_eq, h]
    exact .inr (by change effectStagedInert ≠ effectActivationAdmitted; decide)

theorem ReceiptCall.rejected_of_spent (hspent : receipt.Spent) (call : ReceiptCall σ) :
    call.validate blake3 receipt ≠ .ok := by
  intro h
  have hadmitted : receipt.status = .ok ∧ receipt.effectDisposition = effectActivationAdmitted := by
    cases call with
    | commit context request provider =>
      have := admittedFor_of_validate h
      exact ⟨this.status_eq, this.effect_eq⟩
    | abort context request provider =>
      have := admittedFor_of_validate h
      exact ⟨this.status_eq, this.effect_eq⟩
  exact hspent.elim (· hadmitted.1) (· hadmitted.2)

theorem ReceiptCall.applyAll_of_spent (hspent : receipt.Spent) :
    ∀ (calls : List (ReceiptCall σ)) (state : σ), applyAll blake3 calls receipt state =
      (List.replicate calls.length .activationRequestInvalid, receipt, state)
  | [], _ => rfl
  | call :: calls, state => by
    rw [applyAll, apply_of_rejected (rejected_of_spent hspent call)]
    simp only [applyAll_of_spent hspent calls state]
    rfl

/-! ## Admission, commit and the stored identities -/

/-- The request that both `admit` and the check of stored identities accept. -/
def ActivationRequest.WellFormed (request : ActivationRequest) : Prop :=
  request.epochSlot.toNat < epochCount ∧ request.flags = knownActivationFlags ∧
    request.reserved = 0 ∧ request.expectedEpoch ≠ request.nextEpoch

/-- The receipt of a successful admission. -/
def admissionReceipt (blake3 : Blake3) (contextFingerprint stagedReceiptId : Digest256)
    (request : ActivationRequest) (preparationFingerprint : Digest256) : ActivationReceipt :=
  hashActivationReceipt blake3
    { contextFingerprint, stagedReceiptId
      expectedEpoch := request.expectedEpoch
      nextEpoch := request.nextEpoch
      epochSlot := request.epochSlot
      preparationFingerprint
      status := .ok
      effectDisposition := effectActivationAdmitted
      requestFingerprint := blake3 (activationRequestBytes stagedReceiptId request) }

/-- The receipt of a successful commit. -/
def commitReceipt (blake3 : Blake3) (admission : ActivationReceipt)
    (activationFingerprint : Digest256) : ActivationReceipt :=
  hashActivationReceipt blake3
    { admission with activationFingerprint, effectDisposition := effectActivated }

theorem admission_of_ok {stagedReceipt : StreamReceipt}
    (h : (admitStagedStream blake3 context stagedReceipt request provider state).1.status = .ok) :
    request.WellFormed ∧ ∃ preparationFingerprint,
      (admitStagedStream blake3 context stagedReceipt request provider state).1 =
        admissionReceipt blake3 (contextFingerprint blake3 context).2 stagedReceipt.receiptId request
          preparationFingerprint := by
  rw [admitStagedStream] at h ⊢
  by_cases hcontext : (contextFingerprint blake3 context).1 = .ok
  swap
  · simp only [hcontext, ne_eq, not_false_eq_true, if_true] at h
    exact absurd h hcontext
  simp only [hcontext, ne_eq, not_true_eq_false, if_false] at h ⊢
  split at h
  · cases h
  rename_i hrequest
  rw [if_neg hrequest]
  simp only [not_or, not_not, not_le] at hrequest
  split at h
  · cases h
  rename_i hauthorized
  rw [if_neg hauthorized]
  split at h
  · cases h
  rename_i hepoch
  rw [if_neg hepoch]
  split at h
  · cases h
  rename_i hprovider
  rw [if_neg hprovider]
  refine ⟨hrequest.2, ?_⟩
  by_cases hstatus : (provider.prepare context stagedReceipt request state).1.1 = .ok
  · rw [if_neg (not_not.mpr hstatus)]
    exact ⟨_, rfl⟩
  · rw [if_pos hstatus] at h
    cases h

theorem committed_of_ok (h : (commitAdmittedStream blake3 context request provider receipt state).1 = .ok) :
    ∃ activationFingerprint, (commitAdmittedStream blake3 context request provider receipt state).2.1 =
        commitReceipt blake3 receipt activationFingerprint := by
  rcases @admittedStreamValidate_cases _ blake3 context request provider receipt with
    hok | hinvalid
  · have hadmitted := admittedFor_of_validate hok
    rw [commitAdmittedStream, hok] at h ⊢
    generalize provider.commit request receipt.preparationFingerprint state = committed at h ⊢
    obtain ⟨⟨status, activationFingerprint⟩, after⟩ := committed
    by_cases hstatus : status = .ok
    · simp only [hstatus, ne_eq, not_true_eq_false, if_false]
      refine ⟨activationFingerprint, ?_⟩
      rw [commitReceipt, ← hadmitted.status_eq]
    · simp only [ne_eq, hstatus, not_false_eq_true, if_true] at h
      cases h
  · rw [commitAdmittedStream, hinvalid] at h
    cases h

/-- What the check of stored identities accepts: the two ids that an admission and a commit with
the given fields write. -/
theorem committedReceiptsValidate_iff (contextFingerprint stagedReceiptId : Digest256)
    (request : ActivationRequest) (preparationFingerprint activationFingerprint
      admissionReceiptId activationReceiptId : Digest256) :
    committedReceiptsValidate blake3 contextFingerprint stagedReceiptId request
        preparationFingerprint activationFingerprint admissionReceiptId activationReceiptId = .ok ↔
      request.WellFormed ∧
        admissionReceiptId = (admissionReceipt blake3 contextFingerprint stagedReceiptId request
          preparationFingerprint).receiptId ∧
        activationReceiptId = (commitReceipt blake3 (admissionReceipt blake3 contextFingerprint
          stagedReceiptId request preparationFingerprint) activationFingerprint).receiptId := by
  rw [committedReceiptsValidate]
  split
  · rename_i hrequest
    refine iff_of_false (by decide) fun h => ?_
    obtain ⟨⟨hslot, hflags, hreserved, hepochs⟩, -⟩ := h
    rcases hrequest with h | h | h | h
    · omega
    · exact h hflags
    · exact h hreserved
    · exact hepochs h
  · rename_i hrequest
    simp only [not_or, not_not, not_le] at hrequest
    change (if (admissionReceipt blake3 contextFingerprint stagedReceiptId request
        preparationFingerprint).receiptId ≠ admissionReceiptId then Status.activationRequestInvalid
      else if (commitReceipt blake3 (admissionReceipt blake3 contextFingerprint stagedReceiptId
          request preparationFingerprint) activationFingerprint).receiptId = activationReceiptId
        then Status.ok else Status.activationRequestInvalid) = .ok ↔ _
    split
    · rename_i hadmission
      exact iff_of_false (by decide) fun h => hadmission h.2.1.symm
    · rename_i hadmission
      split
      · rename_i hactivation
        exact iff_of_true rfl ⟨hrequest, (not_not.mp hadmission).symm, hactivation.symm⟩
      · rename_i hactivation
        exact iff_of_false (by decide) fun h => hactivation h.2.2.symm

end Accepted

/-! ## The state machine -/

/-- The receipt is admitted for the context and the epochs that the call names. -/
def ReceiptCall.Admits {σ : Type} (blake3 : Blake3) (receipt : ActivationReceipt) :
    ReceiptCall σ → Prop
  | .commit context request _ | .abort context request _ =>
    AdmittedFor blake3 context request receipt

/-- A call succeeds only on a receipt that is admitted for its context and epochs; one whose checks
pass, whatever the provider answers, leaves a receipt that every later call rejects; one that is
rejected changes nothing; and the check of stored identities accepts the two ids of an admission
and a commit, whose provenance its caller has to prove. -/
theorem activation_state_machine {σ : Type} (blake3 : Blake3) :
    (∀ (receipt : ActivationReceipt) (state : σ) (call : ReceiptCall σ),
      (call.apply blake3 receipt state).1 = .ok → call.Admits blake3 receipt) ∧
    (∀ (receipt : ActivationReceipt) (state : σ) (call : ReceiptCall σ)
      (later : List (ReceiptCall σ)) (state' : σ), call.validate blake3 receipt = .ok →
      ReceiptCall.applyAll blake3 later (call.apply blake3 receipt state).2.1 state' =
        (List.replicate later.length .activationRequestInvalid,
          (call.apply blake3 receipt state).2.1, state')) ∧
    (∀ (receipt : ActivationReceipt) (state : σ) (call : ReceiptCall σ),
      call.validate blake3 receipt ≠ .ok →
      call.apply blake3 receipt state = (.activationRequestInvalid, receipt, state)) ∧
    (∀ (context : Context) (stagedReceipt : StreamReceipt) (request : ActivationRequest)
      (provider : ActivationProvider σ) (state : σ) (request' : ActivationRequest)
      (context' : Context) (provider' : ActivationProvider σ) (state' : σ),
      let admission := (admitStagedStream blake3 context stagedReceipt request provider state).1
      let commit := commitAdmittedStream blake3 context' request' provider' admission state'
      admission.status = .ok → commit.1 = .ok →
      committedReceiptsValidate blake3 admission.contextFingerprint admission.stagedReceiptId
        request admission.preparationFingerprint commit.2.1.activationFingerprint
        admission.receiptId commit.2.1.receiptId = .ok) ∧
    (∀ (contextFingerprint stagedReceiptId : Digest256) (request : ActivationRequest)
      (preparationFingerprint activationFingerprint admissionReceiptId activationReceiptId : Digest256),
      committedReceiptsValidate blake3 contextFingerprint stagedReceiptId request
          preparationFingerprint activationFingerprint admissionReceiptId activationReceiptId = .ok ↔
        request.WellFormed ∧
          admissionReceiptId = (admissionReceipt blake3 contextFingerprint stagedReceiptId request
            preparationFingerprint).receiptId ∧
          activationReceiptId = (commitReceipt blake3 (admissionReceipt blake3 contextFingerprint
            stagedReceiptId request preparationFingerprint) activationFingerprint).receiptId) := by
  refine ⟨fun receipt state call h => ?_, fun receipt state call later state' h => ?_,
    fun receipt state call h => ReceiptCall.apply_of_rejected h, ?_, committedReceiptsValidate_iff⟩
  · have haccepted : call.validate blake3 receipt = .ok := by
      by_contra hrejected
      rw [ReceiptCall.apply_of_rejected hrejected] at h
      cases h
    cases call with
    | commit => exact admittedFor_of_validate haccepted
    | abort => exact admittedFor_of_validate haccepted
  · exact ReceiptCall.applyAll_of_spent (ReceiptCall.spent_of_accepted h) later state'
  · intro context stagedReceipt request provider state request' context' provider' state'
      admission commit hadmission hcommit
    obtain ⟨hrequest, preparation, hreceipt⟩ := admission_of_ok hadmission
    obtain ⟨activation, hcommitted⟩ := committed_of_ok hcommit
    refine (committedReceiptsValidate_iff ..).mpr ⟨hrequest, ?_, ?_⟩
    · rw [show admission = _ from hreceipt]
      rfl
    · rw [show commit.2.1 = _ from hcommitted, show admission = _ from hreceipt]
      rfl

/-! ### One activation -/

/-- A hash that is never zero. -/
def oddDigits (bytes : List UInt8) : Digest256 := digits bytes ||| 1

def activatingContext : Context where
  epochs slot := if slot.val = 7 then 5 else 0
  authorityFingerprint := 0
  resourceGrant := ⟨1, 1, 1⟩
  epochMask := 128
  major := major
  minor := minor
  flags := 0
  reserved := 0

def activationRequest : ActivationRequest :=
  { expectedEpoch := 5, nextEpoch := 6, epochSlot := 7, flags := 0, reserved := 0 }

/-- A provider that accepts everything. -/
def acceptingProvider : ActivationProvider Unit where
  prepare _ _ _ state := ((.ok, 11), state)
  commit _ _ state := ((.ok, 12), state)
  abort _ _ state := state
  callbacks := true
  abiMajor := activationProviderAbiMajor
  abiMinor := activationProviderAbiMinor
  flags := 0
  reserved := 0

/-- The receipt of an admission of the stream with the id 9. -/
def admittedReceipt : ActivationReceipt :=
  admissionReceipt oddDigits (oddDigits (contextBytes activatingContext)) 9 activationRequest 11

theorem activation_state_machine_once : ReceiptCall.applyAll oddDigits
        [.commit activatingContext activationRequest acceptingProvider,
          .abort activatingContext activationRequest acceptingProvider]
        (ReceiptCall.apply oddDigits admittedReceipt ()
          (.commit activatingContext activationRequest acceptingProvider)).2.1 () =
      ([.activationRequestInvalid, .activationRequestInvalid],
        (ReceiptCall.apply oddDigits admittedReceipt ()
          (.commit activatingContext activationRequest acceptingProvider)).2.1, ()) :=
  (activation_state_machine oddDigits).2.1 admittedReceipt ()
    (.commit activatingContext activationRequest acceptingProvider) _ () (by decide +kernel)

/-- A commit with a request that differs in its flags from the one that was admitted succeeds, a
commit that is rejected does not spend the receipt, and the check of stored identities accepts ids
whose context fingerprint is the one of no context. -/
theorem activation_of_other_request : (ReceiptCall.apply oddDigits admittedReceipt ()
      (.commit activatingContext { activationRequest with flags := 1 } acceptingProvider)).1 = .ok ∧
    ReceiptCall.apply oddDigits admittedReceipt ()
      (.commit activatingContext { activationRequest with nextEpoch := 8 } acceptingProvider) =
        (.activationRequestInvalid, admittedReceipt, ()) ∧
    (ReceiptCall.apply oddDigits admittedReceipt ()
      (.commit activatingContext activationRequest acceptingProvider)).1 = .ok ∧
    (∀ context, contextFingerprint oddDigits context ≠ (.ok, 0)) ∧
    committedReceiptsValidate oddDigits 0 9 activationRequest 11 12
      (admissionReceipt oddDigits 0 9 activationRequest 11).receiptId
      (commitReceipt oddDigits (admissionReceipt oddDigits 0 9 activationRequest 11) 12).receiptId =
        .ok := by
  refine ⟨by decide +kernel, by decide +kernel, by decide +kernel, fun context h => ?_,
    by decide +kernel⟩
  have hodd : ∀ number : Digest256, number ||| 1 ≠ 0 := fun number hzero => by
    have := congrArg (fun value : Digest256 => value.getLsbD 0) hzero
    simp at this
  rw [contextFingerprint] at h
  split at h
  · exact hodd _ (congrArg Prod.snd h)
  · rename_i hstatus
    exact hstatus (congrArg Prod.fst h)

end Laplace.Framework
