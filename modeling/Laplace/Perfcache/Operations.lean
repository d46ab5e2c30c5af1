import Laplace.Perfcache.Moves

/-!
# What each operation does

`Safe` says that a call that stays inside the contract never reads a freed object, and what holds
when it returns. The operations here keep `Sound` and return no internal error, and all of them but
a commit that takes effect leave the active generation where it is.
-/

namespace Laplace.Perfcache

open Heap Perfcache.System

/-! ## Results that are safe -/

def Safe {α : Type} (result : Except Fault α) (post : α → Prop) : Prop :=
  match result with
  | .ok value => post value
  | .error fault => fault = .outsideContract

section Rules

variable {α β : Type} {result : Except Fault α} {post post' : α → Prop}

theorem Safe.of_ok (h : Safe result post) {value : α} (hok : result = .ok value) : post value := by
  subst hok
  exact h

theorem Safe.fault (h : Safe result post) {fault : Fault} (herror : result = .error fault) :
    fault = .outsideContract := by
  subst herror
  exact h

theorem Safe.mono (h : Safe result post) (hpost : ∀ value, post value → post' value) :
    Safe result post' := by
  cases result with
  | ok value => exact hpost value h
  | error fault => exact h

theorem Safe.and (h : Safe result post) (h' : Safe result post') :
    Safe result fun value => post value ∧ post' value := by
  cases result with
  | ok value => exact ⟨h, h'⟩
  | error fault => exact h

theorem Safe.bind {next : α → Except Fault β} {post' : β → Prop} (h : Safe result post)
    (hnext : ∀ value, post value → Safe (next value) post') : Safe (result >>= next) post' := by
  cases result with
  | ok value => exact hnext value h
  | error fault => exact h

end Rules

section Reads

variable {s : System} {address : ℕ}

theorem safe_theRegistry : Safe s.theRegistry fun registry => s.registry = some registry := by
  unfold theRegistry
  cases s.registry with
  | none => exact rfl
  | some registry => exact rfl

theorem safe_activation :
    Safe (s.activation address) fun activation => s.activations.read address = some activation := by
  unfold activation
  cases s.activations.read address with
  | none => exact rfl
  | some activation => exact rfl

theorem generation_eq {generation : LoadedGeneration}
    (h : s.generations.read address = some generation) : s.generation address = .ok generation := by
  rw [System.generation, h]

theorem ticket_eq {ticket : ActivationTicket} (h : s.tickets.read address = some ticket) :
    s.ticket address = .ok ticket := by
  rw [System.ticket, h]

theorem preparedGeneration_eq {prepared : PreparedGeneration}
    (h : s.prepared.read address = some prepared) : s.preparedGeneration address = .ok prepared := by
  rw [preparedGeneration, h]

variable {registry : Registry}

theorem active_of_registry (h : s.registry = some registry) : s.active = registry.active := by
  unfold active
  rw [h]
  rfl

theorem retired_of_registry (h : s.registry = some registry) : s.retired = registry.retired := by
  unfold retired
  rw [h]
  rfl

theorem reservation_of_registry (h : s.registry = some registry) :
    s.reservation = registry.reservation := by
  unfold reservation
  rw [h]
  rfl

theorem preparedCount_of_registry (h : s.registry = some registry) :
    s.preparedCount = registry.preparedCount := by
  unfold preparedCount
  rw [h]
  rfl

end Reads

/-! ## The active generation -/

/-- What becomes of an activation: it expects the epoch that it did, and once it has given up its
prepared generation it gets no other and no other ticket. -/
structure Follows (activation activation' : Activation) : Prop where
  expected : activation'.expectedEpoch = activation.expectedEpoch
  spent : activation.prepared = none →
    activation'.prepared = none ∧ (activation'.ticket = activation.ticket ∨ activation'.ticket = none)

theorem Follows.refl (activation : Activation) : Follows activation activation :=
  ⟨rfl, fun hprepared => ⟨hprepared, .inl rfl⟩⟩

theorem Follows.trans {activation activation' activation'' : Activation}
    (h : Follows activation activation') (h' : Follows activation' activation'') :
    Follows activation activation'' where
  expected := h'.expected.trans h.expected
  spent hprepared := by
    obtain ⟨hprepared', hticket⟩ := h.spent hprepared
    obtain ⟨hprepared'', hticket'⟩ := h'.spent hprepared'
    refine ⟨hprepared'', ?_⟩
    rcases hticket' with hsame | hnone
    · rw [hsame]
      exact hticket
    · exact .inr hnone

/-- Every activation that there was is gone, or has only gone on. -/
structure Persists (before after : Heap Activation) : Prop where
  length_le : before.length ≤ after.length
  follows : ∀ address < before.length, ∀ activation', after.read address = some activation' →
    ∃ activation, before.read address = some activation ∧ Follows activation activation'

namespace Persists

variable {before middle after : Heap Activation}

theorem refl (heap : Heap Activation) : Persists heap heap where
  length_le := Nat.le_refl _
  follows _ _ activation' hread := ⟨activation', hread, .refl _⟩

theorem trans (h : Persists before middle) (h' : Persists middle after) : Persists before after where
  length_le := h.length_le.trans h'.length_le
  follows address hlt _ hread := by
    obtain ⟨activation', hread', hfollows⟩ := h'.follows address (hlt.trans_le h.length_le) _ hread
    obtain ⟨activation, hread, hfollows'⟩ := h.follows address hlt activation' hread'
    exact ⟨activation, hread, hfollows'.trans hfollows⟩

theorem alloc (heap : Heap Activation) (activation : Activation) :
    Persists heap (heap.alloc activation) where
  length_le := by
    rw [length_alloc]
    omega
  follows address hlt activation' hread := by
    rw [read_alloc, if_neg hlt.ne] at hread
    exact ⟨activation', hread, .refl _⟩

theorem write {heap : Heap Activation} {address : ℕ} {activation activation' : Activation}
    (hread : heap.read address = some activation) (hfollows : Follows activation activation') :
    Persists heap (heap.write address activation') where
  length_le := (length_write heap address activation').ge
  follows other _ result hresult := by
    rw [read_write (lt_of_read hread)] at hresult
    split at hresult
    · rename_i heq
      cases hresult
      exact ⟨activation, heq ▸ hread, hfollows⟩
    · exact ⟨result, hresult, .refl _⟩

theorem free (heap : Heap Activation) (address : ℕ) : Persists heap (heap.free address) where
  length_le := (length_free heap address).ge
  follows other _ result hresult := by
    rw [read_free] at hresult
    split at hresult
    · cases hresult
    · exact ⟨result, hresult, .refl _⟩

end Persists

/-- A step that leaves the active generation. -/
structure Keeps (s s' : System) : Prop where
  active : s'.active = s.active
  activeEpoch : s'.activeEpoch = s.activeEpoch
  persists : Persists s.activations s'.activations

namespace Keeps

variable {s s' s'' : System}

theorem refl (s : System) : Keeps s s := ⟨rfl, rfl, .refl _⟩

theorem of_epochs (hactive : s'.active = s.active) (hepochs : ∀ address, s.active = some address →
      (s'.generations.read address).map LoadedGeneration.epoch =
        (s.generations.read address).map LoadedGeneration.epoch)
    (hpersists : Persists s.activations s'.activations) : Keeps s s' :=
  ⟨hactive, Sound.activeEpoch_congr hactive hepochs, hpersists⟩

end Keeps

/-- What an operation that ends inside the contract has done. -/
structure Ends (s : System) (status : Option RegistryStatus) (s' : System) : Prop where
  sound : Sound s'
  plain : status ≠ some .internalError
  keeps : Keeps s s'

theorem Ends.refl {s : System} (h : Sound s) {status : RegistryStatus}
    (hstatus : status ≠ .internalError) : Ends s (some status) s :=
  ⟨h, fun heq => hstatus (Option.some.inj heq), .refl s⟩

section Operations

variable {s : System} {blake3 : Blake3}

theorem prepare_safe (h : Sound s) (call : PrepareCall) (memory : PrepareMemory) :
    Safe (s.prepare blake3 call memory) fun result => Ends s (some result.1) result.2.2 := by
  unfold prepare
  cases hfound : s.theRegistry with
  | error fault => exact safe_theRegistry.fault hfound
  | ok registry =>
    have hregistry := safe_theRegistry.of_ok hfound
    dsimp only
    split
    · exact .refl h RegistryStatus.noConfusion
    split
    · exact .refl h RegistryStatus.noConfusion
    rename_i hmemory
    simp only [Bool.not_eq_true', not_or, Bool.not_eq_false] at hmemory
    have hfits : ∀ contents : Bool, contents = (memory.contents &&
        decide (s.generations.total (fun generation => generation.artifacts.length) +
          call.request.artifacts.length < UInt64.size)) →
        s.generations.total (fun generation => generation.artifacts.length) +
          (if contents then call.request.artifacts.length else 0) < UInt64.size := by
      intro contents heq
      cases contents with
      | false => exact h.artifacts_lt
      | true => exact of_decide_eq_true (Bool.and_eq_true_iff.1 heq.symm).2
    generalize hcontents : (memory.contents && _) = contents
    have hload := loadGeneration_result blake3 registry.modules call contents
    revert hload
    generalize loadGeneration blake3 registry.modules call contents = loaded
    rintro ⟨hreaders, hlength, hplain⟩
    have hartifacts := (Nat.add_le_add_left hlength _).trans_lt (hfits contents hcontents.symm)
    have hkeeps : ∀ generation, ∀ s', s'.active = s.active →
        s'.generations = s.generations.alloc generation → s'.activations = s.activations →
        Keeps s s' := fun generation s' hactive hgenerations hactivations =>
      .of_epochs hactive (fun address haddress => by
        rw [hgenerations, read_alloc, if_neg (h.lt_of_active haddress).ne])
        (hactivations ▸ .refl _)
    cases loaded with
    | error failure =>
      exact ⟨h.allocClosing hreaders hmemory.2 hartifacts,
        fun heq => hplain failure rfl (Option.some.inj heq), hkeeps failure.generation _ rfl rfl rfl⟩
    | ok generation =>
      dsimp only
      split
      · exact ⟨h.allocClosing hreaders hmemory.2 hartifacts, by simp,
          hkeeps generation _ rfl rfl rfl⟩
      · rename_i hhandles
        simp only [Bool.not_eq_true', not_or, Bool.not_eq_false] at hhandles
        refine ⟨h.allocPrepared hregistry hreaders hmemory.2 hhandles.2 hartifacts, by simp,
          hkeeps generation _ ?_ rfl rfl⟩
        unfold active
        rw [hregistry]
        rfl

theorem activationCreate_safe (h : Sound s) (handle : ℕ) (expectedEpoch : Option Epoch) (memory : Bool) :
    Safe (s.activationCreate handle expectedEpoch memory) fun result =>
      Ends s (some result.1) result.2 := by
  unfold activationCreate
  split
  · exact rfl
  rename_i hheld
  rw [not_not] at hheld
  have hholders : 0 < s.holders handle := by
    have := List.count_pos_iff.2 hheld
    unfold holders
    omega
  obtain ⟨target, hprepared⟩ := h.prepared_target hholders
  rw [preparedGeneration_eq hprepared]
  dsimp only [bind, Except.bind, Option.isNone_some]
  split
  · exact .refl h RegistryStatus.noConfusion
  split
  · exact .refl h RegistryStatus.noConfusion
  · exact ⟨h.activationCreate hheld expectedEpoch, by simp,
      .of_epochs rfl (fun _ _ => rfl) (.alloc _ _)⟩

/-! ### Activations -/

variable {address : ℕ}

theorem read_written {α : Type} {heap : Heap α} {value : α} (h : heap.read address = some value)
    (value' : α) : (heap.write address value').read address = some value' := by
  rw [read_write (lt_of_read h), if_pos rfl]

theorem expectedMatches_eq (h : Sound s) (expected : Option Epoch) :
    s.expectedMatches s.active expected = .ok (decide (s.activeEpoch = expected)) := by
  unfold activeEpoch
  rcases hactive : s.active with _ | address
  · cases expected with
    | none => rfl
    | some epoch => rfl
  · obtain ⟨generation, hread⟩ := h.read_active hactive
    rw [Option.bind_some, hread, Option.map_some]
    cases expected with
    | none => rfl
    | some epoch =>
      simp only [expectedMatches, generation_eq hread, Option.some.injEq]

variable {handle : ℕ}

/-- A reservation fails and changes nothing, or it is the only one, made against the epoch that is
active. -/
theorem reserve_safe (h : Sound s) {target : ℕ}
    (hprepared : s.prepared.read handle = some ⟨some target⟩) (expected : Option Epoch)
    (memory : Bool) : Safe (s.reserve blake3 handle expected memory) fun result =>
      (result.1.status ≠ .ok ∧ result.1.status ≠ .internalError ∧ result.2 = s) ∨
      ∃ registry receipt, s.registry = some registry ∧ registry.reservation = none ∧
        registry.preparedCount ≠ 0 ∧ s.activeEpoch = expected ∧
        result = (⟨.ok, some s.tickets.length, some receipt⟩, { s with
            registry := some { registry with
              reservation := some s.tickets.length
              preparedCount := registry.preparedCount - 1 }
            prepared := s.prepared.free handle
            tickets := s.tickets.alloc ⟨some target⟩ }) := by
  obtain ⟨generation, htarget⟩ := h.read_prepared hprepared
  unfold reserve
  refine safe_theRegistry.bind fun registry hregistry => ?_
  rw [preparedGeneration_eq hprepared]
  dsimp only [bind, Except.bind]
  rw [generation_eq htarget]
  dsimp only
  split
  · exact .inl ⟨RegistryStatus.noConfusion, RegistryStatus.noConfusion, rfl⟩
  split
  · exact .inl ⟨RegistryStatus.noConfusion, RegistryStatus.noConfusion, rfl⟩
  split
  · exact .inl ⟨RegistryStatus.noConfusion, RegistryStatus.noConfusion, rfl⟩
  rename_i hreservation
  have hmatches : s.expectedMatches registry.active expected =
      .ok (decide (s.activeEpoch = expected)) := by
    rw [← active_of_registry hregistry]
    exact expectedMatches_eq h expected
  rw [hmatches]
  dsimp only
  split
  · exact .inl ⟨RegistryStatus.noConfusion, RegistryStatus.noConfusion, rfl⟩
  rename_i hmatches
  split
  · rename_i hzero
    have hne := h.preparedCount_ne hprepared
    unfold preparedCount at hne
    rw [hregistry] at hne
    exact absurd hzero hne
  · rename_i hcount
    refine .inr ⟨registry, _, hregistry, ?_, hcount, ?_, rfl⟩
    · exact Option.not_isSome_iff_eq_none.1 hreservation
    · simpa using hmatches

theorem prepareActivation_safe (h : Sound s) (address : ℕ) (context : Framework.Context)
    (stagedReceipt : Framework.StreamReceipt) (request : Framework.ActivationRequest) (memory : Bool) :
    Safe (s.prepareFrameworkActivation blake3 address context stagedReceipt request memory)
      fun result => Ends s result.1.registry result.2 ∧
        (result.1.registry = some .ok → ∃ activation, s.activations.read address = some activation ∧
          s.activeEpoch = activation.expectedEpoch ∧ ∃ activation',
            result.2.activations.read address = some activation' ∧
            activation'.expectedEpoch = activation.expectedEpoch ∧ activation'.prepared = none) := by
  have hrejected : ∀ outcome : Outcome, outcome.registry = none →
      Ends s outcome.registry s ∧ (outcome.registry = some .ok → ∃ activation,
        s.activations.read address = some activation ∧ s.activeEpoch = activation.expectedEpoch ∧
          ∃ activation', s.activations.read address = some activation' ∧
            activation'.expectedEpoch = activation.expectedEpoch ∧ activation'.prepared = none) :=
    fun outcome hnone =>
    ⟨⟨h, by simp [hnone], .refl s⟩, by simp [hnone]⟩
  unfold prepareFrameworkActivation
  refine safe_activation.bind fun activation hactivation => ?_
  split
  · exact hrejected _ rfl
  rename_i handle hhandle
  split
  · exact hrejected _ rfl
  rename_i hfresh
  rw [not_or, Option.not_isSome_iff_eq_none] at hfresh
  have hholders : 0 < s.holders handle := by
    have := count_pos (fun activation : Activation =>
      activation.prepared = some handle) hactivation hhandle
    unfold holders
    omega
  obtain ⟨target, hprepared⟩ := h.prepared_target hholders
  obtain ⟨generation, htarget⟩ := h.read_prepared hprepared
  rw [preparedGeneration_eq hprepared]
  dsimp only [bind, Except.bind]
  rw [generation_eq htarget]
  dsimp only
  split
  · exact hrejected _ rfl
  refine (reserve_safe h hprepared activation.expectedEpoch memory).bind fun result hresult => ?_
  rcases hresult with ⟨hstatus, hplain, hsame⟩ | ⟨registry, receipt, hregistry, hreservation, hcount,
    hepoch, hreserved⟩
  · rw [if_pos hstatus, hsame]
    exact ⟨⟨h.activationReceipt hactivation _, fun heq => hplain (Option.some.inj heq),
      .of_epochs rfl (fun _ _ => rfl) (.write hactivation ⟨rfl, fun hprepared => ⟨hprepared, .inl rfl⟩⟩)⟩,
      fun heq => absurd (Option.some.inj heq) hstatus⟩
  · subst hreserved
    have hactive := (active_of_registry hregistry).symm
    exact ⟨⟨h.reserve hregistry hprepared hactivation hhandle hfresh.1 hreservation hcount hepoch
      receipt, by simp, .of_epochs hactive (fun _ _ => rfl) (.write hactivation ⟨rfl, fun hnone =>
        absurd (hnone.symm.trans hhandle) nofun⟩)⟩,
      fun _ => ⟨activation, hactivation, hepoch, _, read_written hactivation _, rfl, rfl⟩⟩

/-- A commit that takes effect: the epoch that the activation expects is active, and what was active
is retired. -/
structure Swaps (s : System) (address : ℕ) (s' : System) : Prop where
  sound : Sound s'
  activation : ∃ activation ticket target, s.activations.read address = some activation ∧
    activation.ticket = some ticket ∧ s.tickets.read ticket = some ⟨some target⟩ ∧
    s.activeEpoch = activation.expectedEpoch ∧ s'.active = some target
  retired : s'.retired = s.active.toList ++ s.retired
  persists : Persists s.activations s'.activations
  spent : ∀ activation, s'.activations.read address = some activation → activation.ticket = none

theorem commitActivation_safe (h : Sound s) (address : ℕ) (preparationFingerprint : Digest256) :
    Safe (s.commitFrameworkActivation blake3 address preparationFingerprint) fun result =>
      (result.1.registry ≠ some .ok ∧ result.1.registry ≠ some .internalError ∧ result.2 = s) ∨
      (result.1.registry = some .ok ∧ Swaps s address result.2) := by
  unfold commitFrameworkActivation
  refine safe_activation.bind fun activation hactivation => ?_
  split
  · exact .inl ⟨by simp, by simp, rfl⟩
  rename_i ticket hticket
  split
  · exact .inl ⟨by simp, by simp, rfl⟩
  obtain ⟨hreservation, target, htarget⟩ := h.ticket_reserved hactivation hticket
  obtain ⟨generation, hread⟩ := h.read_ticket htarget
  have hepoch := h.expected address activation hactivation (by rw [hticket]; rfl)
  unfold commit
  rw [ticket_eq htarget]
  dsimp only [bind, Except.bind]
  cases hfound : s.theRegistry with
  | error fault => exact safe_theRegistry.fault hfound
  | ok registry =>
    have hregistry := safe_theRegistry.of_ok hfound
    rw [reservation_of_registry hregistry] at hreservation
    dsimp only
    rw [if_neg (not_not.2 hreservation)]
    rcases hactive : registry.active with _ | previous
    · have hgeneration : ∀ registry, (s.setRegistry registry).generation target = .ok generation :=
        fun _ => generation_eq hread
      dsimp only [retire]
      rw [hgeneration]
      refine .inr ⟨rfl, (h.abort hregistry hactivation hticket htarget _).install rfl rfl hactive rfl,
        ⟨activation, ticket, target, hactivation, hticket, htarget, hepoch, rfl⟩, ?_,
        .write hactivation ⟨rfl, fun hprepared => ⟨hprepared, .inr rfl⟩⟩, fun activation hafter => ?_⟩
      · rw [active_of_registry hregistry, retired_of_registry hregistry, hactive]
        rfl
      · cases (read_written hactivation _).symm.trans hafter
        rfl
    · obtain ⟨old, hold⟩ := h.read_active ((active_of_registry hregistry).trans hactive)
      dsimp only [retire]
      rw [generation_eq hold]
      dsimp only
      have hgeneration : ∃ generation', (s.generations.write previous
          { old with retired := true }).read target = some generation' := by
        rw [read_write (lt_of_read hold)]
        split
        · exact ⟨_, rfl⟩
        · exact ⟨generation, hread⟩
      obtain ⟨generation', hread'⟩ := hgeneration
      unfold System.generation
      dsimp only
      rw [hread']
      refine .inr ⟨rfl, ((h.abort hregistry hactivation hticket htarget _).retireActive rfl rfl hactive
        hold).install rfl rfl rfl rfl,
        ⟨activation, ticket, target, hactivation, hticket, htarget, hepoch, rfl⟩, ?_, .write hactivation ⟨rfl, fun hprepared => ⟨hprepared, .inr rfl⟩⟩, fun activation hafter => ?_⟩
      · rw [active_of_registry hregistry, retired_of_registry hregistry, hactive]
        rfl
      · cases (read_written hactivation _).symm.trans hafter
        rfl

theorem abortActivation_safe (h : Sound s) (address : ℕ) :
    Safe (s.abortFrameworkActivation blake3 address) fun result =>
      Ends s result.1.registry result.2 ∧
      ∀ activation, s.activations.read address = some activation →
        ∃ activation', result.2.activations.read address = some activation' ∧
          activation'.prepared = activation.prepared ∧ activation'.ticket = none := by
  unfold abortFrameworkActivation
  refine safe_activation.bind fun activation hactivation => ?_
  rw [hactivation]
  split
  · rename_i hticket
    refine ⟨⟨h, by simp, .refl s⟩, fun activation' heq => ⟨activation', heq ▸ hactivation, rfl, ?_⟩⟩
    cases heq
    exact hticket
  rename_i ticket hticket
  obtain ⟨hreservation, target, htarget⟩ := h.ticket_reserved hactivation hticket
  obtain ⟨generation, hread⟩ := h.read_ticket htarget
  unfold abort
  rw [ticket_eq htarget]
  dsimp only [bind, Except.bind]
  cases hfound : s.theRegistry with
  | error fault => exact safe_theRegistry.fault hfound
  | ok registry =>
    have hregistry := safe_theRegistry.of_ok hfound
    rw [reservation_of_registry hregistry] at hreservation
    dsimp only
    rw [if_neg (not_not.2 hreservation), generation_eq hread]
    refine ⟨⟨h.abort hregistry hactivation hticket htarget _, by simp,
      .of_epochs (active_of_registry hregistry).symm (fun _ _ => rfl)
        (.write hactivation ⟨rfl, fun hprepared => ⟨hprepared, .inr rfl⟩⟩)⟩, fun activation' heq => ?_⟩
    cases heq
    exact ⟨_, read_written hactivation _, rfl, rfl⟩

/-! ### Prepared generations -/

theorem discardOwned_safe {target : ℕ} (hprepared : s.prepared.read handle = some ⟨some target⟩)
    (hcount : s.preparedCount ≠ 0) :
    Safe (s.discardOwned handle) fun s' => ∃ registry, s.registry = some registry ∧ s' = { s with
      registry := some { registry with preparedCount := registry.preparedCount - 1 }
      prepared := s.prepared.free handle
      closing := target :: s.closing } := by
  unfold discardOwned
  rw [preparedGeneration_eq hprepared]
  refine safe_theRegistry.bind fun registry hregistry => ⟨registry, hregistry, ?_⟩
  rw [preparedCount_of_registry hregistry] at hcount
  rw [if_pos hcount]

theorem holders_pos_of_held (hheld : handle ∈ s.held) : 0 < s.holders handle :=
  Nat.add_pos_left (List.count_pos_iff.2 hheld) _

theorem discardPrepared_safe (h : Sound s) (handle : ℕ) :
    Safe (s.discardPrepared handle) fun s' => Ends s none s' := by
  unfold discardPrepared
  split
  · exact rfl
  rename_i hheld
  rw [not_not] at hheld
  obtain ⟨target, hprepared⟩ := h.prepared_target (holders_pos_of_held hheld)
  refine (discardOwned_safe (s := { s with held := s.held.erase handle }) hprepared
    (h.preparedCount_ne hprepared)).mono ?_
  rintro _ ⟨registry, hregistry, rfl⟩
  exact ⟨h.discard hregistry hprepared (Sound.holders_erase hheld) (fun _ => rfl) fun _ _ => id, by simp,
    .of_epochs (active_of_registry hregistry).symm (fun _ _ => rfl) (.refl _)⟩

theorem Keeps.free_activation {s s' s'' : System} (hkeeps : Keeps s s')
    (hactive : s''.active = s'.active) (hgenerations : s''.generations = s'.generations)
    (hactivations : s''.activations = s'.activations.free address) : Keeps s s'' where
  active := hactive.trans hkeeps.active
  activeEpoch := by
    rw [← hkeeps.activeEpoch]
    exact Sound.activeEpoch_congr hactive fun _ _ => by rw [hgenerations]
  persists := hactivations ▸ hkeeps.persists.trans (.free _ _)

theorem activationDestroy_safe (h : Sound s) (address : ℕ) :
    Safe (s.activationDestroy blake3 address) fun result => Ends s result.1.registry result.2 := by
  unfold activationDestroy
  refine safe_activation.bind fun activation hactivation => ?_
  have haborted : Safe (if activation.ticket.isSome then s.abortFrameworkActivation blake3 address
      else .ok ({}, s)) fun result => Ends s result.1.registry result.2 ∧
        ∃ activation', result.2.activations.read address = some activation' ∧
          activation'.prepared = activation.prepared ∧ activation'.ticket = none := by
    split
    · exact (abortActivation_safe h address).mono fun result hresult =>
        ⟨hresult.1, hresult.2 activation hactivation⟩
    · rename_i hticket
      exact ⟨⟨h, by simp, .refl s⟩, activation, hactivation, rfl,
        Option.not_isSome_iff_eq_none.1 hticket⟩
  refine haborted.bind ?_
  rintro ⟨outcome, s'⟩ ⟨hends, activation', hactivation', hsame, hticket⟩
  obtain ⟨hsound, hplain, hkeeps⟩ := hends
  dsimp only at hsound hplain hkeeps hactivation' ⊢
  rw [← hsame]
  split
  · rename_i hprepared
    exact ⟨hsound.freeActivation hactivation' hprepared hticket, hplain, hkeeps.free_activation rfl rfl rfl⟩
  · rename_i handle hhandle
    have hholders : 0 < s'.holders handle := Nat.add_pos_right _ (count_pos _ hactivation' hhandle)
    obtain ⟨target, hprepared⟩ := hsound.prepared_target hholders
    refine (discardOwned_safe hprepared (hsound.preparedCount_ne hprepared)).bind ?_
    rintro _ ⟨registry, hregistry, rfl⟩
    refine ⟨hsound.discard hregistry hprepared (Sound.holders_free hactivation' hhandle) (fun t => ?_)
      fun a other hread => ?_, hplain,
      hkeeps.free_activation (active_of_registry hregistry).symm rfl rfl⟩
    · have hfree := count_free (fun activation : Activation =>
        activation.ticket = some t) hactivation'
      rw [hticket, if_neg (by simp)] at hfree
      exact hfree
    · rw [read_free] at hread
      split at hread
      · cases hread
      · exact hread

theorem findGeneration_eq (epoch : Epoch) : ∀ addresses : List ℕ,
    (∀ address ∈ addresses, ∃ generation, s.generations.read address = some generation) →
    ∃ found, s.findGeneration epoch addresses = .ok found ∧
      ∀ address, found = some address → address ∈ addresses
  | [], _ => ⟨none, rfl, fun _ h => by cases h⟩
  | address :: addresses, h => by
    obtain ⟨generation, hread⟩ := h address List.mem_cons_self
    unfold findGeneration
    rw [generation_eq hread]
    dsimp only
    split
    · refine ⟨some address, rfl, fun other heq => ?_⟩
      cases heq
      exact List.mem_cons_self
    · obtain ⟨found, hfound, hmem⟩ := findGeneration_eq epoch addresses fun other hother =>
        h other (List.mem_cons_of_mem _ hother)
      exact ⟨found, hfound, fun other heq => List.mem_cons_of_mem _ (hmem other heq)⟩

theorem findInstalled (h : Sound s) {registry : Registry} (hregistry : s.registry = some registry)
    (epoch : Epoch) :
    ∃ found, s.findGeneration epoch (registry.active.toList ++ registry.retired) = .ok found ∧
      ∀ address, found = some address → s.active = some address ∨ address ∈ s.retired := by
  rw [← active_of_registry hregistry, ← retired_of_registry hregistry]
  obtain ⟨found, hfound, hmem⟩ := findGeneration_eq epoch (s.active.toList ++ s.retired)
    fun address haddress => by
      rcases List.mem_append.1 haddress with hactive | hretired
      · exact h.read_active (Option.mem_toList.1 hactive)
      · exact h.read_retired hretired
  exact ⟨found, hfound, fun address heq =>
    (List.mem_append.1 (hmem address heq)).imp_left Option.mem_toList.1⟩

theorem materializePrepared_safe (h : Sound s) (handle : ℕ) :
    Safe (s.materializePrepared blake3 handle) fun result => Ends s (some result.1) result.2.2 := by
  unfold materializePrepared
  split
  · exact rfl
  rename_i hheld
  rw [not_not] at hheld
  obtain ⟨target, hprepared⟩ := h.prepared_target (holders_pos_of_held hheld)
  obtain ⟨generation, htarget⟩ := h.read_prepared hprepared
  have hcount := h.preparedCount_ne hprepared
  rw [preparedGeneration_eq hprepared]
  refine safe_theRegistry.bind fun registry hregistry => ?_
  rw [preparedCount_of_registry hregistry] at hcount
  obtain ⟨found, hfound, -⟩ := findInstalled h hregistry generation.epoch
  rw [generation_eq htarget]
  dsimp only [bind, Except.bind]
  rw [hfound]
  dsimp only
  split
  · exact .refl h RegistryStatus.noConfusion
  · exact ⟨h.materialize hregistry hheld hprepared htarget, by simp,
      .of_epochs (active_of_registry hregistry).symm
        (fun address _ => Sound.epoch_write htarget (by rfl) address) (.refl _)⟩

/-! ### Pins -/

theorem readers_ne_max (h : Sound s) {slot : ℕ} (hslot : s.pins[slot]? = some none)
    {generation : LoadedGeneration} (hread : s.generations.read address = some generation) :
    generation.readers ≠ Checked.maxWord := by
  have hreaders := h.readers address generation hread
  have hset := Sound.pinsOn_set hslot (some (address, generation.epoch)) address
  have hle := List.countP_le_length (p := fun pin : Pin => decide (pin.map Prod.fst = some address))
    (l := s.pins.set slot (some (address, generation.epoch)))
  have hlt := h.pins_lt
  rw [List.length_set] at hle
  simp only [Option.map_none, Option.map_some, reduceCtorEq, if_false, if_true] at hset
  unfold UInt64.size at hlt
  intro hmax
  rw [hmax] at hreaders
  change 18446744073709551615 = _ at hreaders
  omega

theorem pinGeneration_ends (h : Sound s) {slot : ℕ} (hslot : s.pins[slot]? = some none)
    (hplace : s.active = some address ∨ address ∈ s.retired) {generation : LoadedGeneration}
    (hread : s.generations.read address = some generation) (epoch : Epoch) :
    Ends s (some .ok) (s.pinGeneration slot address generation epoch) where
  sound := h.pin hslot hplace hread (readers_ne_max h hslot hread) epoch
  plain := by simp
  keeps := .of_epochs rfl (fun address _ => Sound.epoch_write hread (by rfl) address)
    (.refl _)

theorem pin_safe (h : Sound s) (slot : ℕ) (expected : Option Epoch) :
    Safe (s.pin slot expected) fun result => Ends s (some result.1) result.2 := by
  unfold pin
  split
  · exact rfl
  · exact .refl h RegistryStatus.noConfusion
  rename_i hslot
  refine safe_theRegistry.bind fun registry hregistry => ?_
  split
  · exact .refl h RegistryStatus.noConfusion
  rename_i address hactive
  rw [← active_of_registry hregistry] at hactive
  obtain ⟨generation, hread⟩ := h.read_active hactive
  rw [generation_eq hread]
  dsimp only [bind, Except.bind]
  split
  · exact .refl h RegistryStatus.noConfusion
  · rw [if_neg (readers_ne_max h hslot hread)]
    exact pinGeneration_ends h hslot (.inl hactive) hread _

theorem pinEpoch_safe (h : Sound s) (slot : ℕ) (epoch : Epoch) :
    Safe (s.pinEpoch slot epoch) fun result => Ends s (some result.1) result.2 := by
  unfold pinEpoch
  split
  · exact rfl
  · exact .refl h RegistryStatus.noConfusion
  rename_i hslot
  refine safe_theRegistry.bind fun registry hregistry => ?_
  obtain ⟨found, hfound, hplace⟩ := findInstalled h hregistry epoch
  dsimp only [bind, Except.bind]
  rw [hfound]
  dsimp only
  split
  · exact .refl h RegistryStatus.noConfusion
  · rename_i address
    have hinstalled := hplace address rfl
    obtain ⟨generation, hread⟩ : ∃ generation, s.generations.read address = some generation :=
      hinstalled.elim h.read_active h.read_retired
    rw [generation_eq hread]
    dsimp only
    rw [if_neg (readers_ne_max h hslot hread)]
    exact pinGeneration_ends h hslot hinstalled hread epoch

theorem pinRelease_safe (h : Sound s) (slot : ℕ) :
    Safe (s.pinRelease slot) fun result => Ends s (some result.1) result.2 := by
  unfold pinRelease
  split
  · exact rfl
  · exact .refl h RegistryStatus.noConfusion
  rename_i address epoch hslot
  refine safe_theRegistry.bind fun registry hregistry => ?_
  have hset := Sound.pinsOn_set hslot none address
  simp only [Option.map_none, Option.map_some, reduceCtorEq, if_false, if_true] at hset
  obtain ⟨generation, hread⟩ : ∃ generation, s.generations.read address = some generation :=
    (h.pinned address (by omega)).elim h.read_active h.read_retired
  have hreaders := h.readers address generation hread
  rw [generation_eq hread]
  dsimp only [bind, Except.bind]
  split
  · rename_i hzero
    rw [hzero, UInt64.toNat_zero] at hreaders
    omega
  · exact ⟨h.release hslot hread, by simp,
      .of_epochs rfl (fun address _ => Sound.epoch_write hread (by rfl) address)
        (.refl _)⟩

theorem newPin_ends (h : Sound s) : Ends s none s.newPin := by
  have hkeeps : Keeps s s.newPin := by
    unfold newPin
    split
    · exact .of_epochs rfl (fun _ _ => rfl) (.refl _)
    · exact .refl s
  exact ⟨h.newPin, by simp, hkeeps⟩

theorem closeGeneration_safe (h : Sound s) (address : ℕ) :
    Safe (s.closeGeneration address) fun result => Ends s none result.2 ∧
      s.active ≠ some address ∧ s.pinsOn address = 0 ∧ address ∉ s.closed ∧
      result.2.closed = address :: s.closed := by
  unfold closeGeneration
  split
  · exact rfl
  rename_i hclosing
  rw [not_not] at hclosing
  obtain ⟨generation, hread⟩ := h.read_closing hclosing
  have hpos := List.count_pos_iff.2 hclosing
  have hplaced := h.placed address
  rw [if_pos (lt_of_read hread)] at hplaced
  have hactive : s.active ≠ some address := fun heq => by
    have := List.count_pos_iff.2 (Option.mem_toList.2 heq)
    unfold places at hplaced
    omega
  have hretired : address ∉ s.retired := fun hmem => by
    have := List.count_pos_iff.2 hmem
    unfold places at hplaced
    omega
  have hclosed : address ∉ s.closed := fun hmem => by
    have := List.count_pos_iff.2 hmem
    unfold places at hplaced
    omega
  have hpins : s.pinsOn address = 0 := by
    by_contra hne
    exact (h.pinned address (Nat.pos_of_ne_zero hne)).elim hactive hretired
  rw [generation_eq hread]
  refine ⟨⟨h.close hclosing, by simp, .of_epochs rfl (fun other hother => ?_)
    (.refl _)⟩, hactive, hpins, hclosed, rfl⟩
  have hne : other ≠ address := fun heq => hactive (heq ▸ hother)
  rw [read_free, if_neg hne]

end Operations

end Laplace.Perfcache
