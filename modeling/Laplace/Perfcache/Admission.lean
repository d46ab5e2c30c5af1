import Laplace.Framework.Activation
import Laplace.Perfcache.Epochs

/-!
# Activations of the framework on the registry

`laplace_perfcache_activation_create` makes a provider of its activation: the framework admits,
commits and aborts through the three callbacks. When an admission fails the framework calls `abort`,
which ends whatever reservation the activation holds, of this admission or of an earlier one.
-/

namespace Laplace.Perfcache

open Framework Perfcache.System

/-! ## The provider of an activation -/

section Provider

variable (blake3 : Blake3)

/-- The provider that `laplace_perfcache_activation_create` fills in; a callback that faults leaves no
state. -/
def activationProvider (address : ℕ) (memory : Bool) : ActivationProvider (Except Fault System) where
  prepare context stagedReceipt request state :=
    match state with
    | .error fault => ((.activationAdmissionFailed, 0), .error fault)
    | .ok s =>
      match s.prepareFrameworkActivation blake3 address context stagedReceipt request memory with
      | .error fault => ((.activationAdmissionFailed, 0), .error fault)
      | .ok (outcome, s') => ((outcome.framework.getD .ok, outcome.fingerprint.getD 0), .ok s')
  commit _ preparationFingerprint state :=
    match state with
    | .error fault => ((.activationCommitFailed, 0), .error fault)
    | .ok s =>
      match s.commitFrameworkActivation blake3 address preparationFingerprint with
      | .error fault => ((.activationCommitFailed, 0), .error fault)
      | .ok (outcome, s') => ((outcome.framework.getD .ok, outcome.fingerprint.getD 0), .ok s')
  abort _ _ state := do
    let s ← state
    let (_, s') ← s.abortFrameworkActivation blake3 address
    .ok s'
  callbacks := true
  abiMajor := activationProviderAbiMajor
  abiMinor := activationProviderAbiMinor
  flags := 0
  reserved := 0

/-- What a client gives to an admission, and whether there is memory for the ticket. -/
structure Admission where
  context : Context
  stagedReceipt : StreamReceipt
  request : ActivationRequest
  memory : Bool

def Admission.apply (address : ℕ) (admission : Admission) (state : Except Fault System) :
    ActivationReceipt × Except Fault System :=
  admitStagedStream blake3 admission.context admission.stagedReceipt admission.request
    (activationProvider blake3 address admission.memory) state

/-- A call of the framework on one activation. -/
inductive FrameworkCall
  | admitStream (admission : Admission)
  | activateStream (admission : Admission)
  | commitStream (context : Context) (request : ActivationRequest) (receipt : ActivationReceipt)
  | abortStream (context : Context) (request : ActivationRequest) (receipt : ActivationReceipt)

/-- The admission that a call makes. -/
def FrameworkCall.admission : FrameworkCall → Option Admission
  | .admitStream admission | .activateStream admission => some admission
  | .commitStream .. | .abortStream .. => none

def FrameworkCall.apply (address : ℕ) (state : Except Fault System) :
    FrameworkCall → Except Fault System
  | .admitStream admission => (admission.apply blake3 address state).2
  | .activateStream admission =>
    (activateStagedStream blake3 admission.context admission.stagedReceipt
      admission.request (activationProvider blake3 address admission.memory) state).2.2
  | .commitStream context request receipt =>
    (commitAdmittedStream blake3 context request (activationProvider blake3 address true)
      receipt state).2.2
  | .abortStream context request receipt =>
    (abortAdmittedStream blake3 context request (activationProvider blake3 address true)
      receipt state).2.2

/-- The state after a sequence of calls on one activation. -/
def FrameworkCall.applyAll (address : ℕ) (calls : List FrameworkCall) (state : Except Fault System) :
    Except Fault System :=
  calls.foldl (FrameworkCall.apply blake3 address) state

end Provider

/-! ## What the framework asks -/

/-- The checks that come before the provider is asked. -/
def Asked (blake3 : Blake3) (context : Context) (stagedReceipt : StreamReceipt)
    (request : ActivationRequest) : Prop :=
  (contextFingerprint blake3 context).1 = .ok ∧
    streamReceiptValidate blake3 context stagedReceipt = .ok ∧ request.WellFormed ∧
    context.flags &&& contextReadOnly = 0 ∧ context.present request.epochSlot.toNat ∧
    context.epoch request.epochSlot.toNat = request.expectedEpoch

section Framework

variable {σ : Type} {blake3 : Blake3} {context : Context}
  {stagedReceipt : StreamReceipt} {request : ActivationRequest} {provider : ActivationProvider σ}
  {state : σ}

theorem admit_of_refused (h : ¬ Asked blake3 context stagedReceipt request) :
    (admitStagedStream blake3 context stagedReceipt request provider state).2 = state := by
  unfold admitStagedStream
  dsimp only
  split
  · rfl
  rename_i hcontext
  split
  · rfl
  rename_i hrequest
  split
  · rfl
  rename_i hflags
  split
  · rfl
  rename_i hepoch
  refine absurd ⟨not_not.1 hcontext, ?_⟩ h
  simp only [not_or, not_not, not_le, Bool.not_eq_true, Bool.not_eq_false'] at hrequest hflags hepoch
  exact ⟨hrequest.1, hrequest.2, hflags, hepoch⟩

theorem admit_of_asked (state : σ) (h : Asked blake3 context stagedReceipt request)
    (hvalid : provider.valid = true) : let prepared := provider.prepare context stagedReceipt request state
    let admitted := admitStagedStream blake3 context stagedReceipt request provider state
    (admitted.1.status = .ok ↔ prepared.1.1 = .ok) ∧
      admitted.2 = if prepared.1.1 = .ok then prepared.2
        else provider.abort request prepared.1.2 prepared.2 := by
  obtain ⟨hcontext, hstaged, hrequest, hflags, hpresent, hepoch⟩ := h
  obtain ⟨hslot, hknown, hreserved, hepochs⟩ := hrequest
  unfold admitStagedStream
  dsimp only
  rw [if_neg (not_not.2 hcontext), if_neg (by simp [hstaged, hslot, hknown, hreserved, hepochs]),
    if_neg (not_not.2 hflags), if_neg (by simp [hpresent, hepoch]), if_neg (by simp [hvalid])]
  by_cases hstatus : (provider.prepare context stagedReceipt request state).1.1 = .ok
  · rw [if_neg (not_not.2 hstatus), if_pos hstatus]
    exact ⟨iff_of_true rfl hstatus, rfl⟩
  · rw [if_pos hstatus, if_neg hstatus]
    exact ⟨iff_of_false (by change Framework.Status.activationAdmissionFailed ≠ _; decide) hstatus, rfl⟩

end Framework

/-! ## Sequences of calls -/

section Calls

variable {blake3 : Blake3} {state : Except Fault System}

theorem activationProvider_valid (address : ℕ) (memory : Bool) :
    (activationProvider blake3 address memory).valid = true := by
  simp [activationProvider, ActivationProvider.valid]

theorem prepare_reachable (h : Gives state (System.Reachable blake3)) (address : ℕ) (memory : Bool)
    (context : Context) (stagedReceipt : StreamReceipt) (request : ActivationRequest) :
    Gives ((activationProvider blake3 address memory).prepare context stagedReceipt request state).2
      (System.Reachable blake3) := by
  dsimp only [activationProvider]
  split
  · exact gives_error _
  · rename_i s
    split
    · exact gives_error _
    · exact gives_ok.2 (.step (.prepareActivation ..) (gives_ok.1 h) ‹_›)

theorem commit_reachable (h : Gives state (System.Reachable blake3)) (address : ℕ) (memory : Bool)
    (request : ActivationRequest) (preparationFingerprint : Digest256) :
    Gives ((activationProvider blake3 address memory).commit request preparationFingerprint state).2
      (System.Reachable blake3) := by
  dsimp only [activationProvider]
  split
  · exact gives_error _
  · split
    · exact gives_error _
    · exact gives_ok.2 (.step (.commitActivation ..) (gives_ok.1 h) ‹_›)

theorem abort_reachable (h : Gives state (System.Reachable blake3)) (address : ℕ) (memory : Bool)
    (request : ActivationRequest) (preparationFingerprint : Digest256) :
    Gives ((activationProvider blake3 address memory).abort request preparationFingerprint state)
      (System.Reachable blake3) := by
  refine h.bind fun s hreachable result habort => ?_
  cases hstep : s.abortFrameworkActivation blake3 address with
  | error fault =>
    rw [hstep] at habort
    cases habort
  | ok ended =>
    rw [hstep] at habort
    cases habort
    exact .step (.abortActivation address) hreachable hstep

theorem admission_reachable (h : Gives state (System.Reachable blake3)) (address : ℕ) (admission : Admission) :
    Gives (admission.apply blake3 address state).2 (System.Reachable blake3) := by
  unfold Admission.apply
  by_cases hasked : Asked blake3 admission.context admission.stagedReceipt admission.request
  · rw [(admit_of_asked _ hasked (activationProvider_valid _ _)).2]
    have hprepared := prepare_reachable h address admission.memory admission.context
      admission.stagedReceipt admission.request
    split
    · exact hprepared
    · exact abort_reachable hprepared address admission.memory admission.request _
  · rw [admit_of_refused hasked]
    exact h

theorem commitAdmitted_reachable (h : Gives state (System.Reachable blake3)) (address : ℕ) (memory : Bool)
    (context : Context) (request : ActivationRequest) (receipt : ActivationReceipt) :
    Gives (commitAdmittedStream blake3 context request
      (activationProvider blake3 address memory) receipt state).2.2 (System.Reachable blake3) := by
  have hcommitted := commit_reachable h address memory request
    receipt.preparationFingerprint
  unfold commitAdmittedStream
  split
  · dsimp only
    split
    · exact abort_reachable hcommitted address memory request receipt.preparationFingerprint
    · exact hcommitted
  · exact h

theorem abortAdmitted_reachable (h : Gives state (System.Reachable blake3)) (address : ℕ) (memory : Bool)
    (context : Context) (request : ActivationRequest) (receipt : ActivationReceipt) :
    Gives (abortAdmittedStream blake3 context request
      (activationProvider blake3 address memory) receipt state).2.2 (System.Reachable blake3) := by
  unfold abortAdmittedStream
  dsimp only
  split
  · exact h
  · exact abort_reachable h address memory request receipt.preparationFingerprint

theorem call_reachable (h : Gives state (System.Reachable blake3)) (address : ℕ) (call : FrameworkCall) :
    Gives (call.apply blake3 address state) (System.Reachable blake3) := by
  cases call with
  | admitStream admission => exact admission_reachable h address admission
  | activateStream admission =>
    have hadmitted := admission_reachable h address admission
    unfold FrameworkCall.apply activateStagedStream
    dsimp only
    split
    · exact hadmitted
    · exact commitAdmitted_reachable hadmitted _ _ _ _ _
  | commitStream context request receipt => exact commitAdmitted_reachable h _ _ _ _ _
  | abortStream context request receipt => exact abortAdmitted_reachable h _ _ _ _ _

theorem calls_reachable (h : Gives state (System.Reachable blake3)) (address : ℕ) (calls : List FrameworkCall) :
    Gives (FrameworkCall.applyAll blake3 address calls state) (System.Reachable blake3) := by
  induction calls generalizing state with
  | nil => exact h
  | cons call calls ih => exact ih (call_reachable h address call)

end Calls

/-! ## What an admission that fails leaves -/

/-- The registry is what it was, and so is every reservation. -/
structure Unharmed (s s' : System) : Prop where
  registry : s'.registry = s.registry
  generations : s'.generations = s.generations
  prepared : s'.prepared = s.prepared
  tickets : s'.tickets = s.tickets
  closing : s'.closing = s.closing
  reservations : ∀ address activation, s.activations.read address = some activation →
    activation.ticket.isSome → s'.activations.read address = some activation

/-- Every reservation can be committed with its fingerprint, and can be aborted. -/
structure Endable (blake3 : Blake3) (s s' : System) : Prop where
  commits : ∀ address activation, s.activations.read address = some activation →
    activation.ticket.isSome → ∃ outcome ended,
      s'.commitFrameworkActivation blake3 address activation.receipt.receiptId =
        .ok (outcome, ended) ∧ outcome.registry = some .ok
  aborts : ∀ address activation, s.activations.read address = some activation →
    activation.ticket.isSome → ∃ outcome ended,
      s'.abortFrameworkActivation blake3 address = .ok (outcome, ended) ∧
        outcome.registry = some .ok

section Failing

variable {s : System} {blake3 : Blake3}

theorem Unharmed.refl (s : System) : Unharmed s s := ⟨rfl, rfl, rfl, rfl, rfl, fun _ _ h _ => h⟩

variable {address : ℕ} {activation : Activation}

theorem activation_eq (h : s.activations.read address = some activation) :
    s.activation address = .ok activation := by
  rw [System.activation, h]

theorem registry_of_reservation {ticket : ℕ} (h : s.reservation = some ticket) :
    ∃ registry, s.registry = some registry ∧ registry.reservation = some ticket :=
  Option.bind_eq_some_iff.1 h

theorem abort_of_ticket (blake3 : Blake3) (h : Sound s)
    (hactivation : s.activations.read address = some activation) (hticket : activation.ticket.isSome) :
    ∃ outcome s', s.abortFrameworkActivation blake3 address = .ok (outcome, s') ∧
      outcome.registry = some .ok ∧ s'.reservation = none := by
  obtain ⟨ticket, hticket⟩ := Option.isSome_iff_exists.1 hticket
  obtain ⟨hreservation, target, htarget⟩ := h.ticket_reserved hactivation hticket
  obtain ⟨registry, hregistry, hreserved⟩ := registry_of_reservation hreservation
  obtain ⟨generation, hread⟩ := h.read_ticket htarget
  unfold abortFrameworkActivation abort theRegistry
  simp only [activation_eq hactivation, hticket, ticket_eq htarget, hregistry, hreserved,
    generation_eq hread, bind, Except.bind, ne_eq, not_true_eq_false, if_false]
  exact ⟨_, _, rfl, rfl, rfl⟩

theorem retire_ok (h : Sound s) (registry : Registry) {target : ℕ} {generation : LoadedGeneration}
    (hread : s.generations.read target = some generation) :
    ∃ s' generation', s.retire registry s.active = .ok s' ∧
      s'.generations.read target = some generation' := by
  cases hactive : s.active with
  | none => exact ⟨_, generation, rfl, hread⟩
  | some previous =>
    obtain ⟨old, hold⟩ := h.read_active hactive
    rw [retire, generation_eq hold]
    dsimp only
    by_cases heq : target = previous
    · exact ⟨_, { old with retired := true }, rfl, heq ▸ read_written hold _⟩
    · refine ⟨_, generation, rfl, ?_⟩
      rw [Heap.read_write (Heap.lt_of_read hold), if_neg heq, hread]

theorem commit_of_ticket (h : Sound s) (hactivation : s.activations.read address = some activation)
    (hticket : activation.ticket.isSome) :
    ∃ outcome s', s.commitFrameworkActivation blake3 address activation.receipt.receiptId =
      .ok (outcome, s') ∧ outcome.registry = some .ok := by
  obtain ⟨ticket, hticket⟩ := Option.isSome_iff_exists.1 hticket
  obtain ⟨hreservation, target, htarget⟩ := h.ticket_reserved hactivation hticket
  obtain ⟨registry, hregistry, hreserved⟩ := registry_of_reservation hreservation
  obtain ⟨generation, hread⟩ := h.read_ticket htarget
  obtain ⟨s', generation', hretire, hread'⟩ := retire_ok h
    { registry with active := some target, reservation := none } hread
  rw [active_of_registry hregistry] at hretire
  unfold commitFrameworkActivation commit theRegistry
  simp only [activation_eq hactivation, hticket, ticket_eq htarget, hregistry, hreserved, hretire,
    generation_eq hread', bind, Except.bind, ne_eq, not_true_eq_false, if_false]
  exact ⟨_, _, rfl, rfl⟩

theorem Unharmed.endable {s' : System} (h : Unharmed s s') (hsound : Sound s') : Endable blake3 s s' where
  commits address activation hread hticket :=
    commit_of_ticket hsound (h.reservations address activation hread hticket) hticket
  aborts address activation hread hticket :=
    let ⟨outcome, ended, habort, hok, _⟩ :=
      abort_of_ticket blake3 hsound (h.reservations address activation hread hticket) hticket
    ⟨outcome, ended, habort, hok⟩

theorem reserve_failed (h : Sound s) {handle : ℕ} (hhandle : (s.prepared.read handle).isSome)
    (expected : Option Epoch) (memory : Bool) :
    Gives (s.reserve blake3 handle expected memory) fun result =>
      result.1.status ≠ .ok → result.2 = s := by
  unfold reserve
  refine safe_theRegistry.gives.bind fun registry hregistry => gives_any.bind fun prepared _ => ?_
  split
  · exact gives_ok.2 fun _ => rfl
  refine gives_any.bind fun generation _ => ?_
  dsimp only
  split
  · exact gives_ok.2 fun _ => rfl
  split
  · exact gives_ok.2 fun _ => rfl
  split
  · exact gives_ok.2 fun _ => rfl
  refine gives_any.bind fun expectedMatches _ => ?_
  split
  · exact gives_ok.2 fun _ => rfl
  split
  · rename_i hcount
    obtain ⟨cell, hcell⟩ := Option.isSome_iff_exists.1 hhandle
    exact absurd ((preparedCount_of_registry hregistry).trans hcount) (h.preparedCount_ne hcell)
  · exact gives_ok.2 fun hfailed => absurd rfl hfailed

theorem prepare_failed (h : Sound s) (address : ℕ) (context : Context)
    (stagedReceipt : StreamReceipt) (request : ActivationRequest) (memory : Bool) :
    Gives (s.prepareFrameworkActivation blake3 address context stagedReceipt request memory)
      fun result => result.1.framework.getD .ok ≠ .ok → Unharmed s result.2 ∧
        ∀ activation, s.activations.read address = some activation →
          ∃ activation', result.2.activations.read address = some activation' ∧
            activation'.ticket = activation.ticket := by
  have hsame : ∀ activation, s.activations.read address = some activation →
      ∃ activation', s.activations.read address = some activation' ∧
        activation'.ticket = activation.ticket := fun activation hread => ⟨activation, hread, rfl⟩
  unfold prepareFrameworkActivation
  refine safe_activation.gives.bind fun activation hactivation => ?_
  split
  · exact gives_ok.2 fun _ => ⟨.refl s, hsame⟩
  rename_i handle hhandle
  split
  · exact gives_ok.2 fun _ => ⟨.refl s, hsame⟩
  rename_i hfree
  simp only [not_or, Bool.not_eq_true, Option.isSome_eq_false_iff, Option.isNone_iff_eq_none] at hfree
  have hprepared : (s.prepared.read handle).isSome := by
    obtain ⟨target, hread⟩ := h.prepared_target
      (Nat.add_pos_right _ (Heap.count_pos _ hactivation hhandle))
    rw [hread]
    rfl
  refine gives_any.bind fun prepared _ => ?_
  split
  · exact gives_ok.2 fun _ => ⟨.refl s, hsame⟩
  refine gives_any.bind fun generation _ => ?_
  dsimp only
  split
  · exact gives_ok.2 fun _ => ⟨.refl s, hsame⟩
  refine (reserve_failed h hprepared _ _).bind fun ⟨reserved, s'⟩ hfailed => ?_
  dsimp only at hfailed ⊢
  split
  · rename_i hstatus
    cases hfailed hstatus
    refine gives_ok.2 fun _ => ⟨⟨rfl, rfl, rfl, rfl, rfl, fun other activation' hread hticket => ?_⟩,
      fun activation' hread => ⟨_, read_written hactivation _, ?_⟩⟩
    · dsimp only
      rw [Heap.read_write (Heap.lt_of_read hactivation), if_neg, hread]
      rintro rfl
      cases hactivation.symm.trans hread
      rw [hfree.1] at hticket
      cases hticket
    · cases hactivation.symm.trans hread
      rfl
  · exact gives_ok.2 fun hfailed => absurd rfl hfailed

/-- The activation holds a ticket. -/
def System.Holds (s : System) (address : ℕ) : Prop :=
  ∃ activation, s.activations.read address = some activation ∧ activation.ticket.isSome

theorem admission_failed (h : Sound s) {admission : Admission} {s' : System}
    (hfails : (admission.apply blake3 address (.ok s)).1.status ≠ .ok)
    (hstate : (admission.apply blake3 address (.ok s)).2 = .ok s') : Unharmed s s' ↔ ¬ (s.Holds address ∧
      Asked blake3 admission.context admission.stagedReceipt admission.request) := by
  by_cases hasked : Asked blake3 admission.context admission.stagedReceipt admission.request
  swap
  · rw [Admission.apply, admit_of_refused hasked] at hstate
    cases hstate
    exact iff_of_true (.refl s) fun hholds => hasked hholds.2
  rw [and_iff_left hasked]
  obtain ⟨hstatus, hended⟩ := admit_of_asked (.ok s) hasked
    (activationProvider_valid address admission.memory)
  replace hfails := fun hprepared => hfails (hstatus.2 hprepared)
  rw [Admission.apply, hended, if_neg hfails] at hstate
  clear hstatus hended
  dsimp only [activationProvider] at hfails hstate
  cases hprepare : s.prepareFrameworkActivation blake3 address admission.context
      admission.stagedReceipt admission.request admission.memory with
  | error fault =>
    rw [hprepare] at hstate
    cases hstate
  | ok prepared =>
    rw [hprepare] at hfails hstate
    obtain ⟨outcome, s₁⟩ := prepared
    dsimp only at hfails
    replace hstate : s₁.abortFrameworkActivation blake3 address >>= (fun ended => .ok ended.2) =
        .ok s' := hstate
    obtain ⟨hunharmed, hticket⟩ := prepare_failed h _ _ _ _ _ _ hprepare hfails
    have hsound : Sound s₁ := ((prepareActivation_safe h _ _ _ _ _).of_ok hprepare).1.sound
    obtain ⟨activation, hactivation⟩ : ∃ activation, s.activations.read address = some activation := by
      cases hread : s.activations.read address with
      | some activation => exact ⟨activation, rfl⟩
      | none =>
        have hfault : s.activation address = .error .outsideContract := by rw [System.activation, hread]
        rw [prepareFrameworkActivation, hfault] at hprepare
        cases hprepare
    obtain ⟨activation₁, hactivation₁, hsame⟩ := hticket activation hactivation
    by_cases hsome : activation.ticket.isSome
    · refine iff_of_false (fun hkept => ?_) (not_not.2 ⟨activation, hactivation, hsome⟩)
      obtain ⟨outcome', s₂, habort, -, hnone⟩ := abort_of_ticket blake3 hsound
        hactivation₁ (hsame ▸ hsome)
      rw [habort] at hstate
      cases hstate
      obtain ⟨ticket, hsome⟩ := Option.isSome_iff_exists.1 hsome
      have hreservation := (h.ticket_reserved hactivation hsome).1
      rw [System.reservation, ← hkept.registry] at hreservation
      cases hnone.symm.trans hreservation
    · refine iff_of_true ?_ fun hheld => ?_
      · rw [abortFrameworkActivation, activation_eq hactivation₁] at hstate
        rw [Option.not_isSome_iff_eq_none] at hsome
        simp only [bind, Except.bind, hsame, hsome] at hstate
        cases hstate
        exact hunharmed
      · obtain ⟨other, hother, hholds⟩ := hheld
        cases hactivation.symm.trans hother
        exact hsome hholds

theorem call_of_failed {state : Except Fault System} {call : FrameworkCall} {admission : Admission}
    (hcall : call.admission = some admission)
    (hfails : (admission.apply blake3 address state).1.status ≠ .ok) :
    call.apply blake3 address state = (admission.apply blake3 address state).2 := by
  cases call with
  | admitStream admitted =>
    cases hcall
    rfl
  | activateStream activated =>
    cases hcall
    unfold Admission.apply at hfails
    rw [FrameworkCall.apply, activateStagedStream, Admission.apply]
    dsimp only
    rw [if_pos hfails]
  | commitStream => cases hcall
  | abortStream => cases hcall

end Failing

/-- After any sequence of calls on one activation, an admission that fails, alone or in an
activation, leaves the registry and every reservation as they were, and each of them can still be
committed or aborted, exactly when the activation holds no reservation of its own or the framework
refuses the request before it asks the provider. -/
theorem failed_admission_unharmed {blake3 : Blake3} {start : System}
    (h : System.Reachable blake3 start) (address : ℕ) (calls : List FrameworkCall) {s : System}
    (hcalls : FrameworkCall.applyAll blake3 address calls (.ok start) = .ok s) (call : FrameworkCall)
    {admission : Admission} (hcall : call.admission = some admission)
    (hfails : (admission.apply blake3 address (.ok s)).1.status ≠ .ok) {s' : System}
    (hstate : call.apply blake3 address (.ok s) = .ok s') : (Unharmed s s' ∧ Endable blake3 s s') ↔
      ¬ (s.Holds address ∧ Asked blake3 admission.context admission.stagedReceipt admission.request) := by
  have hreachable : System.Reachable blake3 s := calls_reachable (gives_ok.2 h) address calls s hcalls
  have hended : System.Reachable blake3 s' := call_reachable (gives_ok.2 hreachable) address call s' hstate
  rw [call_of_failed hcall hfails] at hstate
  rw [← admission_failed (reachable_sound hreachable) hfails hstate]
  exact and_iff_left_of_imp fun hunharmed => hunharmed.endable (reachable_sound hended)

/-! ### An admission that is made twice -/

def earlierAdmission : Admission where
  context := earlierContext
  stagedReceipt := mappingReceipt
  request := ⟨1, 0, epochPerfcache, 0, 0⟩
  memory := true

/-- A prepared generation behind an activation that expects no active generation. -/
def earlierActivation : System :=
  mappingRegistry.after zeroDigest
    [.prepare (earlierCall 1) ⟨true, true, true⟩, .activationCreate 0 none true]

theorem earlierActivation_reachable : System.Reachable zeroDigest earlierActivation :=
  reachable_after (.create _) _

theorem earlierAdmission_twice :
    (earlierAdmission.apply zeroDigest 0 (.ok earlierActivation)).2.toOption.map
        System.reservation = some (some 0) ∧ (earlierAdmission.apply zeroDigest 0
      (earlierAdmission.apply zeroDigest 0 (.ok earlierActivation)).2).1.status =
        .activationAdmissionFailed ∧ (earlierAdmission.apply zeroDigest 0
      (earlierAdmission.apply zeroDigest 0 (.ok earlierActivation)).2).2.toOption.map
        System.reservation = some none := by
  decide +kernel

/-- A request whose next epoch is the expected one is refused by the framework, and the earlier
reservation stays. -/
theorem failed_admission_unharmed_once : ∃ s s',
    (earlierAdmission.apply zeroDigest 0 (.ok earlierActivation)).2 = .ok s ∧
      s.reservation = some 0 ∧ Unharmed s s' := by
  cases hadmitted : (earlierAdmission.apply zeroDigest 0 (.ok earlierActivation)).2 with
  | error fault =>
    have hreserved := earlierAdmission_twice.1
    rw [hadmitted] at hreserved
    cases hreserved
  | ok s =>
    have hreserved := earlierAdmission_twice.1
    rw [hadmitted] at hreserved
    let refused : Admission := { earlierAdmission with request := ⟨0, 0, epochPerfcache, 0, 0⟩ }
    have hrefused : ¬ Asked zeroDigest refused.context refused.stagedReceipt refused.request :=
      fun hasked => hasked.2.2.1.2.2.2 rfl
    have hsame : (refused.apply zeroDigest 0 (.ok s)).2 = .ok s := admit_of_refused hrefused
    have hfails : (refused.apply zeroDigest 0 (.ok s)).1.status ≠ .ok := by
      intro hok
      exact (admission_of_ok hok).1.2.2.2 rfl
    exact ⟨s, s, rfl, Option.some.inj hreserved,
      ((failed_admission_unharmed earlierActivation_reachable 0 [.admitStream earlierAdmission] hadmitted
        (.admitStream refused) rfl hfails hsame).2 fun hholds => hrefused hholds.2).1⟩

/-- The second of two equal admissions fails and ends the reservation of the first. -/
theorem failed_admission_harms : ¬ ∀ (blake3 : Blake3) (s : System),
    System.Reachable blake3 s → ∀ address (admission : Admission) s',
      (admission.apply blake3 address (.ok s)).1.status ≠ .ok →
      (admission.apply blake3 address (.ok s)).2 = .ok s' → Unharmed s s' := by
  intro h
  obtain ⟨hreserved, hfailed, hnone⟩ := earlierAdmission_twice
  have hreachable := admission_reachable (gives_ok.2 earlierActivation_reachable) 0
    earlierAdmission
  cases hadmitted : (earlierAdmission.apply zeroDigest 0 (.ok earlierActivation)).2 with
  | error fault =>
    rw [hadmitted] at hreserved
    cases hreserved
  | ok s =>
    rw [hadmitted] at hreserved hfailed hnone hreachable
    cases hended : (earlierAdmission.apply zeroDigest 0 (.ok s)).2 with
    | error fault =>
      rw [hended] at hnone
      cases hnone
    | ok s' =>
      rw [hended] at hnone
      have hkept := (h zeroDigest s (gives_ok.1 hreachable) 0 earlierAdmission s'
        (by rw [hfailed]; decide) hended).registry
      have hsame : s'.reservation = s.reservation := by
        rw [System.reservation, hkept, System.reservation]
      rw [Option.some.inj hnone, Option.some.inj hreserved] at hsame
      cases hsame

end Laplace.Perfcache
