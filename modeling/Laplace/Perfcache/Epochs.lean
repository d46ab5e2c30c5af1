import Laplace.Perfcache.Swap

/-!
# The epochs of the installed generations

A generation is installed when it is active or retired. Only a commit and a materialization install
one, and no step changes the epoch of an installed one. A materialization looks for the epoch first;
a commit does not, so two generations of one epoch can be installed, and `pin_epoch` then takes the
one that it finds first.
-/

namespace Laplace.Perfcache

open Perfcache.System

namespace System

/-- The generations that `FindGeneration` looks through. -/
def installed (s : System) : List ℕ := s.active.toList ++ s.retired

def epochAt (s : System) (address : ℕ) : Option Epoch :=
  (s.generations.read address).map LoadedGeneration.epoch

/-- No two installed generations have one epoch. -/
def EpochsDistinct (s : System) : Prop :=
  ∀ address ∈ s.installed, ∀ other ∈ s.installed, s.epochAt address = s.epochAt other →
    address = other

/-- Every pin on an epoch that succeeds is a pin on the only installed generation of the epoch. -/
def PinsResolve (s : System) : Prop :=
  ∀ slot epoch s', s.pinEpoch slot epoch = .ok (.ok, s') →
    ∃ address ∈ s.installed, s'.pins[slot]? = some (some (address, epoch)) ∧
      ∀ other ∈ s.installed, s.epochAt other = some epoch ↔ other = address

/-- The generation that the activation has reserved, and the fingerprint of its reservation. -/
def Commits (s : System) (address : ℕ) (fingerprint : Digest256) (target : ℕ) : Prop :=
  ∃ activation ticket, s.activations.read address = some activation ∧
    activation.ticket = some ticket ∧ activation.receipt.receiptId = fingerprint ∧
    s.tickets.read ticket = some ⟨some target⟩

/-- A commit that takes effect in this state installs an epoch that no installed generation has. -/
def CommitsFresh (s : System) (action : Action) : Prop :=
  ∀ address fingerprint target, action = .commitActivation address fingerprint →
    s.Commits address fingerprint target →
    ∀ other ∈ s.installed, s.epochAt other ≠ s.epochAt target

end System

/-! ## What a call that returns has done -/

def Gives {α : Type} (result : Except Fault α) (post : α → Prop) : Prop :=
  ∀ value, result = .ok value → post value

section Rules

variable {α β : Type} {result : Except Fault α} {post : α → Prop}

@[simp] theorem gives_ok {value : α} : Gives (.ok value) post ↔ post value :=
  ⟨fun h => h value rfl, fun h _ heq => Except.ok.inj heq ▸ h⟩

@[simp] theorem gives_error (fault : Fault) : Gives (.error fault) post := nofun

theorem Safe.gives (h : Safe result post) : Gives result post := fun _ => h.of_ok

theorem gives_any : Gives result fun _ => True := fun _ _ => trivial

theorem Gives.bind {next : α → Except Fault β} {post' : β → Prop} (h : Gives result post)
    (hnext : ∀ value, post value → Gives (next value) post') : Gives (result >>= next) post' := by
  cases result with
  | ok value => exact hnext value (h value rfl)
  | error fault => exact nofun

end Rules

/-! ## Steps that install nothing -/

/-- What is installed was installed, with the epoch that it has. -/
structure Retains (s s' : System) : Prop where
  installed : ∀ address ∈ s'.installed, address ∈ s.installed
  epochAt : ∀ address ∈ s'.installed, s'.epochAt address = s.epochAt address

namespace Retains

variable {s s' s'' : System}

theorem refl (s : System) : Retains s s := ⟨fun _ => id, fun _ _ => rfl⟩

theorem trans (h : Retains s s') (h' : Retains s' s'') : Retains s s'' where
  installed address hmem := h.installed address (h'.installed address hmem)
  epochAt address hmem :=
    (h'.epochAt address hmem).trans (h.epochAt address (h'.installed address hmem))

theorem of_epochs (hactive : s'.active = s.active) (hretired : s'.retired = s.retired)
    (hepochs : ∀ address ∈ s.installed, s'.epochAt address = s.epochAt address) : Retains s s' := by
  have hsame : s'.installed = s.installed := by
    unfold System.installed
    rw [hactive, hretired]
  exact ⟨fun _ hmem => hsame ▸ hmem, fun address hmem => hepochs address (hsame ▸ hmem)⟩

theorem of_registry {registry registry' : Registry} (hregistry : s.registry = some registry)
    (hregistry' : s'.registry = some registry') (hactive : registry'.active = registry.active)
    (hretired : registry'.retired = registry.retired) (hgenerations : s'.generations = s.generations) :
    Retains s s' :=
  of_epochs
    ((active_of_registry hregistry').trans (hactive.trans (active_of_registry hregistry).symm))
    ((retired_of_registry hregistry').trans (hretired.trans (retired_of_registry hregistry).symm))
    fun address _ => by rw [System.epochAt, System.epochAt, hgenerations]

theorem distinct (h : Retains s s') (hdistinct : s.EpochsDistinct) : s'.EpochsDistinct :=
  fun address hmem other hother hepoch =>
    hdistinct address (h.installed address hmem) other (h.installed other hother)
      ((h.epochAt address hmem).symm.trans (hepoch.trans (h.epochAt other hother)))

end Retains

section Operations

variable {s : System} {blake3 : Blake3}

variable {address : ℕ}

theorem Sound.lt_of_installed (h : Sound s) (hmem : address ∈ s.installed) :
    address < s.generations.length :=
  (List.mem_append.1 hmem).elim (fun hactive => h.lt_of_active (Option.mem_toList.1 hactive))
    h.lt_of_retired

variable {s' : System} {generation : LoadedGeneration}

theorem epochAt_alloc (h : Sound s) (hgenerations : s'.generations = s.generations.alloc generation)
    (address : ℕ) (hmem : address ∈ s.installed) : s'.epochAt address = s.epochAt address := by
  rw [System.epochAt, hgenerations, Heap.read_alloc, if_neg (h.lt_of_installed hmem).ne]
  rfl

theorem prepare_retains (h : Sound s) (call : PrepareCall) (memory : PrepareMemory) :
    Gives (s.prepare blake3 call memory) fun result => Retains s result.2.2 := by
  unfold prepare
  split
  · exact gives_error _
  rename_i registry hfound
  have hregistry := safe_theRegistry.of_ok hfound
  split
  · exact gives_ok.2 (.refl s)
  split
  · exact gives_ok.2 (.refl s)
  dsimp only
  split
  · exact gives_ok.2 (.of_epochs rfl rfl (epochAt_alloc h rfl))
  split
  · exact gives_ok.2 (.of_epochs rfl rfl (epochAt_alloc h rfl))
  · exact gives_ok.2 (.of_epochs (active_of_registry hregistry).symm
      (retired_of_registry hregistry).symm (epochAt_alloc h rfl))

theorem activationCreate_retains (address : ℕ) (expectedEpoch : Option Epoch) (memory : Bool) :
    Gives (s.activationCreate address expectedEpoch memory) fun result => Retains s result.2 := by
  unfold activationCreate
  split
  · exact gives_error _
  refine gives_any.bind fun prepared _ => ?_
  split
  · exact gives_ok.2 (.refl s)
  split
  · exact gives_ok.2 (.refl s)
  · exact gives_ok.2 (.of_epochs rfl rfl fun _ _ => rfl)

theorem reserve_retains (address : ℕ) (expected : Option Epoch) (memory : Bool) :
    Gives (s.reserve blake3 address expected memory) fun result => Retains s result.2 := by
  unfold reserve
  refine safe_theRegistry.gives.bind fun registry hregistry => gives_any.bind fun prepared _ => ?_
  split
  · exact gives_ok.2 (.refl s)
  refine gives_any.bind fun generation _ => ?_
  dsimp only
  split
  · exact gives_ok.2 (.refl s)
  split
  · exact gives_ok.2 (.refl s)
  split
  · exact gives_ok.2 (.refl s)
  refine gives_any.bind fun expectedMatches _ => ?_
  split
  · exact gives_ok.2 (.refl s)
  split
  · exact gives_ok.2 (.of_epochs rfl rfl fun _ _ => rfl)
  · exact gives_ok.2 (.of_registry hregistry rfl rfl rfl rfl)

theorem prepareActivation_retains (address : ℕ) (context : Framework.Context)
    (stagedReceipt : Framework.StreamReceipt) (request : Framework.ActivationRequest) (memory : Bool) :
    Gives (s.prepareFrameworkActivation blake3 address context stagedReceipt request memory)
      fun result => Retains s result.2 := by
  unfold prepareFrameworkActivation
  refine gives_any.bind fun activation _ => ?_
  split
  · exact gives_ok.2 (.refl s)
  split
  · exact gives_ok.2 (.refl s)
  refine gives_any.bind fun prepared _ => ?_
  split
  · exact gives_ok.2 (.refl s)
  refine gives_any.bind fun generation _ => ?_
  dsimp only
  split
  · exact gives_ok.2 (.refl s)
  refine (reserve_retains _ _ _).bind fun ⟨reserved, s'⟩ hretains => ?_
  dsimp only
  split
  · exact gives_ok.2 (hretains.trans (.of_epochs rfl rfl fun _ _ => rfl))
  · exact gives_ok.2 (hretains.trans (.of_epochs rfl rfl fun _ _ => rfl))

theorem abort_retains (ticket : ℕ) : Gives (s.abort blake3 ticket) fun result => Retains s result.2.2 := by
  unfold abort
  refine gives_any.bind fun ticket _ => ?_
  split
  · exact gives_ok.2 (.refl s)
  refine safe_theRegistry.gives.bind fun registry hregistry => ?_
  split
  · exact gives_ok.2 (.refl s)
  refine gives_any.bind fun generation _ => ?_
  exact gives_ok.2 (.of_registry hregistry rfl rfl rfl rfl)

theorem abortActivation_retains (address : ℕ) :
    Gives (s.abortFrameworkActivation blake3 address) fun result => Retains s result.2 := by
  unfold abortFrameworkActivation
  refine gives_any.bind fun activation _ => ?_
  split
  · exact gives_ok.2 (.refl s)
  refine (abort_retains _).bind fun ⟨status, receipt, s'⟩ hretains => ?_
  dsimp only
  split
  · exact gives_ok.2 hretains
  · exact gives_ok.2 (hretains.trans (.of_epochs rfl rfl fun _ _ => rfl))

theorem discardOwned_retains (address : ℕ) : Gives (s.discardOwned address) fun s' => Retains s s' := by
  unfold discardOwned
  refine gives_any.bind fun prepared _ => ?_
  split
  · exact gives_ok.2 (.of_epochs rfl rfl fun _ _ => rfl)
  refine safe_theRegistry.gives.bind fun registry hregistry => ?_
  exact gives_ok.2 (.of_registry hregistry rfl rfl rfl rfl)

theorem discardPrepared_retains (address : ℕ) :
    Gives (s.discardPrepared address) fun s' => Retains s s' := by
  unfold discardPrepared
  split
  · exact gives_error _
  · intro s' hdiscard
    have hretains := discardOwned_retains address s' hdiscard
    have hheld : Retains s { s with held := s.held.erase address } := .of_epochs rfl rfl fun _ _ => rfl
    exact hheld.trans hretains

theorem activationDestroy_retains (address : ℕ) :
    Gives (s.activationDestroy blake3 address) fun result => Retains s result.2 := by
  unfold activationDestroy
  refine gives_any.bind fun activation _ => ?_
  have haborted : Gives (if activation.ticket.isSome then s.abortFrameworkActivation blake3 address
      else .ok ({}, s)) fun result => Retains s result.2 := by
    split
    · exact abortActivation_retains address
    · exact gives_ok.2 (.refl s)
  refine haborted.bind fun ⟨outcome, s'⟩ hretains => ?_
  refine Gives.bind (?discarded : Gives _ fun s'' => Retains s' s'') fun s'' hretains' => ?_
  case discarded =>
    split
    · exact gives_ok.2 (.refl s')
    · exact discardOwned_retains _
  exact gives_ok.2 (hretains.trans (hretains'.trans (.of_epochs rfl rfl fun _ _ => rfl)))

theorem gives_generation :
    Gives (s.generation address) fun generation => s.generations.read address = some generation := by
  unfold generation
  split
  · exact gives_ok.2 ‹_›
  · exact gives_error _

theorem epochAt_write {generation' : LoadedGeneration}
    (hread : s.generations.read address = some generation) (hepoch : generation'.epoch = generation.epoch)
    (hgenerations : s'.generations = s.generations.write address generation') (other : ℕ) :
    s'.epochAt other = s.epochAt other := by
  rw [System.epochAt, hgenerations]
  exact Sound.epoch_write hread hepoch other

theorem pinGeneration_retains {slot : ℕ} {epoch : Epoch}
    (hread : s.generations.read address = some generation) :
    Retains s (s.pinGeneration slot address generation epoch) :=
  .of_epochs rfl rfl fun other _ => epochAt_write hread (by rfl) rfl other

theorem pin_retains (slot : ℕ) (expected : Option Epoch) :
    Gives (s.pin slot expected) fun result => Retains s result.2 := by
  unfold pin
  split
  · exact gives_error _
  · exact gives_ok.2 (.refl s)
  refine gives_any.bind fun registry _ => ?_
  split
  · exact gives_ok.2 (.refl s)
  refine gives_generation.bind fun generation hread => ?_
  split
  · exact gives_ok.2 (.refl s)
  split
  · exact gives_ok.2 (.refl s)
  · exact gives_ok.2 (pinGeneration_retains hread)

theorem pinEpoch_retains (slot : ℕ) (epoch : Epoch) :
    Gives (s.pinEpoch slot epoch) fun result => Retains s result.2 := by
  unfold pinEpoch
  split
  · exact gives_error _
  · exact gives_ok.2 (.refl s)
  refine gives_any.bind fun registry _ => gives_any.bind fun found _ => ?_
  split
  · exact gives_ok.2 (.refl s)
  refine gives_generation.bind fun generation hread => ?_
  split
  · exact gives_ok.2 (.refl s)
  · exact gives_ok.2 (pinGeneration_retains hread)

theorem pinRelease_retains (slot : ℕ) : Gives (s.pinRelease slot) fun result => Retains s result.2 := by
  unfold pinRelease
  split
  · exact gives_error _
  · exact gives_ok.2 (.refl s)
  refine gives_any.bind fun registry _ => gives_generation.bind fun generation hread => ?_
  split
  · exact gives_ok.2 (.refl s)
  · exact gives_ok.2 (.of_epochs rfl rfl fun other _ => epochAt_write hread (by rfl) rfl other)

theorem newPin_retains : Retains s s.newPin := by
  unfold newPin
  split
  · exact .of_epochs rfl rfl fun _ _ => rfl
  · exact .refl s

theorem loaded_addresses : ∀ addresses : List ℕ,
    Gives (s.loaded addresses) fun generations => generations.map Prod.fst = addresses
  | [] => gives_ok.2 rfl
  | address :: addresses => by
    unfold loaded
    refine gives_any.bind fun generation _ => (loaded_addresses addresses).bind fun rest hrest => ?_
    exact gives_ok.2 (congrArg (address :: ·) hrest)

theorem collect_retains : Gives s.collect fun result => Retains s result.2.2 := by
  unfold collect
  refine safe_theRegistry.gives.bind fun registry hregistry => ?_
  refine (loaded_addresses _).bind fun generations haddresses => ?_
  have hread : Retains s (s.setRegistry { registry with
      retired := (generations.filter fun entry => entry.2.readers ≠ 0).map Prod.fst }) := by
    refine ⟨fun address hmem => ?_, fun _ _ => rfl⟩
    unfold System.installed
    rw [active_of_registry hregistry, retired_of_registry hregistry, ← haddresses]
    refine (List.mem_append.1 hmem).elim (List.mem_append_left _) fun hretired => ?_
    obtain ⟨entry, hentry, rfl⟩ := List.mem_map.1 hretired
    exact List.mem_append_right _ (List.mem_map_of_mem (List.mem_of_mem_filter hentry))
  split
  · exact gives_ok.2 (.refl s)
  dsimp only
  split
  · exact gives_ok.2 hread
  · exact gives_ok.2 (hread.trans (.of_epochs rfl rfl fun _ _ => rfl))

theorem destroy_retains : Gives s.destroy fun result => Retains s result.2 := by
  unfold destroy
  refine gives_any.bind fun registry _ => gives_any.bind fun retired _ =>
    gives_any.bind fun active _ => ?_
  split
  · exact gives_ok.2 (.refl s)
  · exact gives_ok.2 ⟨nofun, nofun⟩

theorem installed_iff : address ∈ s.installed ↔ s.active = some address ∨ address ∈ s.retired := by
  rw [System.installed, List.mem_append, Option.mem_toList]

theorem closeGeneration_retains (h : Sound s) (address : ℕ) :
    Gives (s.closeGeneration address) fun result => Retains s result.2 := by
  unfold closeGeneration
  split
  · exact gives_error _
  rename_i hclosing
  rw [not_not] at hclosing
  split
  · exact gives_error _
  refine gives_ok.2 (.of_epochs rfl rfl fun other hmem => ?_)
  have hne : other ≠ address := fun heq =>
    (not_closed_of_installed h (installed_iff.1 hmem)).1 (heq ▸ hclosing)
  rw [System.epochAt, Heap.read_free, if_neg hne]
  rfl

/-! ## Steps that install a generation -/

/-- The target becomes installed, and no epoch changes. -/
structure Installs (s : System) (target : ℕ) (s' : System) : Prop where
  installed : ∀ address, address ∈ s'.installed ↔ address = target ∨ address ∈ s.installed
  epochAt : ∀ address, s'.epochAt address = s.epochAt address

theorem Installs.distinct_iff {target : ℕ} (h : Installs s target s') (hnew : target ∉ s.installed)
    (hdistinct : s.EpochsDistinct) :
    s'.EpochsDistinct ↔ ∀ other ∈ s.installed, s.epochAt other ≠ s.epochAt target := by
  constructor
  · intro hdistinct' other hother hepoch
    have heq := hdistinct' other ((h.installed other).2 (.inr hother)) target
      ((h.installed target).2 (.inl rfl)) (by rw [h.epochAt, h.epochAt, hepoch])
    exact hnew (heq ▸ hother)
  · intro hfresh address hmem other hother hepoch
    rw [h.epochAt, h.epochAt] at hepoch
    rcases (h.installed address).1 hmem with rfl | hmem
    · rcases (h.installed other).1 hother with rfl | hother
      · rfl
      · exact absurd hepoch.symm (hfresh other hother)
    · rcases (h.installed other).1 hother with rfl | hother
      · exact absurd hepoch (hfresh address hmem)
      · exact hdistinct address hmem other hother hepoch

theorem retire_gives {registry : Registry} {previous : Option ℕ} :
    Gives (s.retire registry previous) fun s' => (∀ address, s'.epochAt address = s.epochAt address) ∧
      s'.active = registry.active ∧ s'.retired = previous.toList ++ registry.retired := by
  unfold retire
  split
  · exact gives_ok.2 ⟨fun _ => rfl, rfl, rfl⟩
  split
  · exact gives_error _
  rename_i generation hfound
  have hread := gives_generation _ hfound
  exact gives_ok.2 ⟨epochAt_write hread (by rfl) rfl, rfl, rfl⟩

theorem commit_gives (address : ℕ) : Gives (s.commit blake3 address) fun result =>
      (result.1 ≠ .ok ∧ result.2.2 = s ∧
        ∀ target, s.tickets.read address = some ⟨some target⟩ → s.reservation ≠ some address) ∨
      (result.1 = .ok ∧ ∃ target, s.tickets.read address = some ⟨some target⟩ ∧
        Installs s target result.2.2) := by
  unfold commit
  have hticket : Gives (s.ticket address) fun ticket => s.tickets.read address = some ticket := by
    unfold ticket
    split
    · exact gives_ok.2 ‹_›
    · exact gives_error _
  refine hticket.bind fun ticket hread => ?_
  split
  · rename_i hnone
    refine gives_ok.2 (.inl ⟨by simp, rfl, fun target htarget => ?_⟩)
    rw [Option.some.inj (hread.symm.trans htarget)] at hnone
    cases hnone
  rename_i target htarget
  refine safe_theRegistry.gives.bind fun registry hregistry => ?_
  split
  · rename_i hreservation
    rw [← reservation_of_registry hregistry] at hreservation
    exact gives_ok.2 (.inl ⟨by simp, rfl, fun _ _ => hreservation⟩)
  refine retire_gives.bind fun s' ⟨hepochs, hactive, hretired⟩ => gives_any.bind fun generation _ => ?_
  refine gives_ok.2 (.inr ⟨rfl, target, ?_, fun other => ?_, hepochs⟩)
  · rw [hread, ← htarget]
  · change other ∈ s'.active.toList ++ s'.retired ↔ _
    rw [hactive, hretired, System.installed, active_of_registry hregistry, retired_of_registry hregistry]
    simp

theorem commitActivation_gives (h : Sound s) (address : ℕ) (fingerprint : Digest256) :
    Gives (s.commitFrameworkActivation blake3 address fingerprint) fun result =>
      (Retains s result.2 ∧ ∀ target, ¬ s.Commits address fingerprint target) ∨
      ∃ target, s.Commits address fingerprint target ∧ Installs s target result.2 := by
  unfold commitFrameworkActivation
  refine safe_activation.gives.bind fun activation hactivation => ?_
  have hsame : ∀ {target}, s.Commits address fingerprint target → ∃ ticket,
      activation.ticket = some ticket ∧ activation.receipt.receiptId = fingerprint ∧
      s.tickets.read ticket = some ⟨some target⟩ := by
    rintro target ⟨activation', ticket, hread, hcommits⟩
    cases hactivation.symm.trans hread
    exact ⟨ticket, hcommits⟩
  split
  · rename_i hnone
    refine gives_ok.2 (.inl ⟨.refl s, fun target hcommits => ?_⟩)
    obtain ⟨ticket, hticket, -⟩ := hsame hcommits
    cases hnone.symm.trans hticket
  rename_i ticket hticket
  split
  · rename_i hfingerprint
    refine gives_ok.2 (.inl ⟨.refl s, fun target hcommits => ?_⟩)
    obtain ⟨-, -, heq, -⟩ := hsame hcommits
    exact hfingerprint heq.symm
  rename_i hfingerprint
  refine (commit_gives ticket).bind fun ⟨status, receipt, s'⟩ hcommit => ?_
  dsimp only at hcommit ⊢
  rcases hcommit with ⟨hstatus, rfl, hreservation⟩ | ⟨rfl, target, htarget, hinstalls⟩
  · rw [if_pos hstatus]
    refine gives_ok.2 (.inl ⟨.refl s', fun target hcommits => ?_⟩)
    obtain ⟨ticket', hticket', -, htarget⟩ := hsame hcommits
    cases hticket.symm.trans hticket'
    exact hreservation target htarget (h.ticket_reserved hactivation hticket).1
  · rw [if_neg (by simp)]
    exact gives_ok.2 (.inr ⟨target, ⟨activation, ticket, hactivation, hticket,
      (not_not.1 hfingerprint).symm, htarget⟩, hinstalls.installed, hinstalls.epochAt⟩)

theorem findGeneration_gives (epoch : Epoch) : ∀ addresses : List ℕ,
    Gives (s.findGeneration epoch addresses) fun found =>
      match found with
      | some address => address ∈ addresses ∧ s.epochAt address = some epoch
      | none => ∀ address ∈ addresses, s.epochAt address ≠ some epoch
  | [] => gives_ok.2 nofun
  | address :: addresses => by
    unfold findGeneration
    split
    · exact gives_error _
    rename_i generation hfound
    have hepoch : s.epochAt address = some generation.epoch := by
      rw [System.epochAt, gives_generation _ hfound]
      rfl
    split
    · rename_i heq
      exact gives_ok.2 ⟨List.mem_cons_self, hepoch.trans (congrArg some heq)⟩
    · rename_i hne
      intro found hrest
      have hfirst := findGeneration_gives epoch addresses found hrest
      cases found with
      | some other => exact ⟨List.mem_cons_of_mem _ hfirst.1, hfirst.2⟩
      | none =>
        refine fun other hother => ?_
        rcases List.mem_cons.1 hother with rfl | hother
        · exact fun heq => hne (Option.some.inj (hepoch.symm.trans heq))
        · exact hfirst other hother

theorem not_installed_of_place (h : Sound s) {target : ℕ}
    (hplace : 0 < s.tickets.count (fun ticket => ticket.generation = some target) +
      s.prepared.count (fun prepared => prepared.generation = some target)) : target ∉ s.installed := by
  intro hmem
  have hplaced := h.placed target
  have hinstalled : 0 < s.active.toList.count target + s.retired.count target := by
    rw [← List.count_append]
    exact List.count_pos_iff.2 hmem
  unfold places at hplaced
  split at hplaced <;> omega

theorem materializePrepared_gives (h : Sound s) (address : ℕ) :
    Gives (s.materializePrepared blake3 address) fun result => Retains s result.2.2 ∨
      ∃ target, target ∉ s.installed ∧ (∀ other ∈ s.installed, s.epochAt other ≠ s.epochAt target) ∧
        Installs s target result.2.2 := by
  unfold materializePrepared
  split
  · exact gives_error _
  have hprepared : Gives (s.preparedGeneration address) fun prepared =>
      s.prepared.read address = some prepared := by
    unfold preparedGeneration
    split
    · exact gives_ok.2 ‹_›
    · exact gives_error _
  refine hprepared.bind fun prepared hread => ?_
  split
  · exact gives_ok.2 (.inl (.refl s))
  rename_i target htarget
  have hplace := Nat.add_pos_right (s.tickets.count fun ticket => ticket.generation = some target)
    (Heap.count_pos (fun prepared : PreparedGeneration => prepared.generation = some target) hread
      htarget)
  clear hread
  refine safe_theRegistry.gives.bind fun registry hregistry =>
    gives_generation.bind fun generation hread => (findGeneration_gives _ _).bind fun found hfound => ?_
  split
  · exact gives_ok.2 (.inl (.refl s))
  rename_i hnone
  split
  · exact gives_ok.2 (.inl (.refl s))
  rw [Option.not_isSome_iff_eq_none] at hnone
  subst hnone
  have hepoch : s.epochAt target = some generation.epoch := by
    rw [System.epochAt, hread]
    rfl
  rw [← active_of_registry hregistry, ← retired_of_registry hregistry] at hfound
  refine gives_ok.2 (.inr ⟨target, not_installed_of_place h hplace, fun other hother =>
    hepoch ▸ hfound other hother, fun other => ?_, epochAt_write hread (by rfl) rfl⟩)
  change other ∈ registry.active.toList ++ target :: registry.retired ↔ _
  rw [System.installed, active_of_registry hregistry, retired_of_registry hregistry]
  simp [or_left_comm]

/-! ## Every step -/

theorem Retains.keepsDistinct {action : Action} (h : Retains s s') (hdistinct : s.EpochsDistinct)
    (haction : ∀ address fingerprint, action ≠ .commitActivation address fingerprint) :
    s'.EpochsDistinct ↔ s.CommitsFresh action :=
  iff_of_true (h.distinct hdistinct) fun _ _ _ heq => absurd heq (haction _ _)

/-- One step keeps the installed epochs distinct exactly when it is no commit of an epoch that is
installed. -/
theorem step_distinct_iff (h : Sound s) (hdistinct : s.EpochsDistinct) (action : Action) :
    Gives (s.step blake3 action) fun result =>
      (result.2.EpochsDistinct ↔ s.CommitsFresh action) := by
  cases action with
  | prepare call memory =>
    exact (prepare_retains h call memory).bind fun _ hretains =>
      gives_ok.2 (hretains.keepsDistinct hdistinct nofun)
  | activationCreate prepared expectedEpoch memory =>
    exact (activationCreate_retains prepared expectedEpoch memory).bind fun _ hretains =>
      gives_ok.2 (hretains.keepsDistinct hdistinct nofun)
  | prepareActivation activation context stagedReceipt request memory =>
    exact fun result hstep =>
      (prepareActivation_retains _ _ _ _ _ result hstep).keepsDistinct hdistinct nofun
  | commitActivation address fingerprint =>
    intro result hstep
    rcases commitActivation_gives h address fingerprint result hstep with ⟨hretains, hnone⟩ |
      ⟨target, hcommits, hinstalls⟩
    · refine iff_of_true (hretains.distinct hdistinct) fun _ _ target heq hcommits => ?_
      cases heq
      exact absurd hcommits (hnone target)
    · obtain ⟨activation, ticket, hactivation, hticket, -, htarget⟩ := id hcommits
      have hplace := Nat.add_pos_left (Heap.count_pos (fun ticket : ActivationTicket =>
        ticket.generation = some target) htarget rfl)
        (s.prepared.count fun prepared => prepared.generation = some target)
      rw [hinstalls.distinct_iff (not_installed_of_place h hplace) hdistinct]
      refine ⟨fun hfresh _ _ target' heq hcommits' => ?_, fun hfresh => hfresh _ _ target rfl hcommits⟩
      cases heq
      obtain ⟨activation', ticket', hactivation', hticket', -, htarget'⟩ := hcommits'
      cases hactivation.symm.trans hactivation'
      cases hticket.symm.trans hticket'
      cases htarget.symm.trans htarget'
      exact hfresh
  | abortActivation address =>
    exact fun result hstep => (abortActivation_retains _ result hstep).keepsDistinct hdistinct nofun
  | activationDestroy address =>
    exact fun result hstep => (activationDestroy_retains _ result hstep).keepsDistinct hdistinct nofun
  | discardPrepared prepared =>
    exact (discardPrepared_retains prepared).bind fun _ hretains =>
      gives_ok.2 (hretains.keepsDistinct hdistinct nofun)
  | materializePrepared prepared =>
    refine (materializePrepared_gives h prepared).bind fun _ hresult => gives_ok.2 ?_
    rcases hresult with hretains | ⟨target, hnew, hfresh, hinstalls⟩
    · exact hretains.keepsDistinct hdistinct nofun
    · exact iff_of_true ((hinstalls.distinct_iff hnew hdistinct).2 hfresh) nofun
  | newPin => exact gives_ok.2 (newPin_retains.keepsDistinct hdistinct nofun)
  | pin slot expected =>
    exact (pin_retains slot expected).bind fun _ hretains =>
      gives_ok.2 (hretains.keepsDistinct hdistinct nofun)
  | pinEpoch slot epoch =>
    exact (pinEpoch_retains slot epoch).bind fun _ hretains =>
      gives_ok.2 (hretains.keepsDistinct hdistinct nofun)
  | pinRelease slot =>
    exact (pinRelease_retains slot).bind fun _ hretains =>
      gives_ok.2 (hretains.keepsDistinct hdistinct nofun)
  | collect =>
    exact collect_retains.bind fun _ hretains =>
      gives_ok.2 (hretains.keepsDistinct hdistinct nofun)
  | destroy =>
    exact destroy_retains.bind fun _ hretains =>
      gives_ok.2 (hretains.keepsDistinct hdistinct nofun)
  | close generation =>
    exact (closeGeneration_retains h generation).bind fun _ hretains =>
      gives_ok.2 (hretains.keepsDistinct hdistinct nofun)

theorem pinEpoch_gives (slot : ℕ) (epoch : Epoch) :
    Gives (s.pinEpoch slot epoch) fun result => result.1 = .ok →
      ∃ address ∈ s.installed, result.2.pins[slot]? = some (some (address, epoch)) ∧
        s.epochAt address = some epoch := by
  unfold pinEpoch
  split
  · exact gives_error _
  · exact gives_ok.2 (by simp)
  rename_i hslot
  refine safe_theRegistry.gives.bind fun registry hregistry =>
    (findGeneration_gives _ _).bind fun found hfound => ?_
  split
  · exact gives_ok.2 (by simp)
  rename_i address
  refine gives_any.bind fun generation _ => ?_
  split
  · exact gives_ok.2 (by simp)
  refine gives_ok.2 fun _ => ⟨address, ?_, ?_, hfound.2⟩
  · rw [System.installed, active_of_registry hregistry, retired_of_registry hregistry]
    exact hfound.1
  · exact List.getElem?_set_self (List.getElem?_eq_some_iff.1 hslot).1

theorem System.EpochsDistinct.pinsResolve (h : s.EpochsDistinct) : s.PinsResolve := by
  intro slot epoch s' hpin
  obtain ⟨address, hmem, hslot, hepoch⟩ := pinEpoch_gives slot epoch _ hpin rfl
  refine ⟨address, hmem, hslot, fun other hother => ⟨fun heq => ?_, fun heq => heq ▸ hepoch⟩⟩
  exact h other hother address hmem (heq.trans hepoch.symm)

end Operations

/-! ## Every run -/

theorem after_snoc {blake3 : Blake3} (action : Action) :
    ∀ (actions : List Action) (s : System), s.after blake3 (actions ++ [action]) =
      (s.after blake3 actions).after blake3 [action]
  | [], _ => rfl
  | first :: actions, s => by
    cases hstep : s.step blake3 first with
    | ok result =>
      simp only [List.cons_append, after, hstep]
      exact after_snoc action actions _
    | error fault =>
      simp only [List.cons_append, after, hstep]
      exact after_snoc action actions s

/-- In a run of the registry the epochs of the installed generations stay distinct, and every pin on
an epoch is on the only one of the epoch, exactly when no commit in it takes effect while a
generation of its epoch is active or retired. -/
theorem registry_epochs_distinct (blake3 : Blake3) (modules : List RegisteredModule)
    (actions : List Action) : (∀ taken, taken <+: actions →
      ((create modules).after blake3 taken).EpochsDistinct ∧
      ((create modules).after blake3 taken).PinsResolve) ↔
    ∀ taken action outcome s', taken ++ [action] <+: actions →
      ((create modules).after blake3 taken).step blake3 action = .ok (outcome, s') →
      ((create modules).after blake3 taken).CommitsFresh action := by
  have hsound : ∀ taken, Sound ((create modules).after blake3 taken) := fun taken =>
    reachable_sound (reachable_after (.create modules) taken)
  have hafter : ∀ {taken action outcome s'},
      ((create modules).after blake3 taken).step blake3 action = .ok (outcome, s') →
      (create modules).after blake3 (taken ++ [action]) = s' := by
    intro taken action outcome s' hstep
    rw [after_snoc, after, hstep]
    rfl
  constructor
  · intro hdistinct taken action outcome s' hprefix hstep
    have hbefore := (hdistinct taken ((List.prefix_append _ _).trans hprefix)).1
    have hnow := (hdistinct _ hprefix).1
    rw [hafter hstep] at hnow
    exact (step_distinct_iff (hsound taken) hbefore action _ hstep).1 hnow
  · intro hfresh taken hprefix
    suffices hdistinct : ((create modules).after blake3 taken).EpochsDistinct from
      ⟨hdistinct, hdistinct.pinsResolve⟩
    induction taken using List.reverseRecOn with
    | nil => exact nofun
    | append_singleton taken action ih =>
      have hbefore := ih ((List.prefix_append _ _).trans hprefix)
      cases hstep : ((create modules).after blake3 taken).step blake3 action with
      | ok result =>
        rw [hafter hstep]
        exact (step_distinct_iff (hsound taken) hbefore action _ hstep).2
          (hfresh taken action _ _ hprefix hstep)
      | error fault =>
        rw [after_snoc, after, hstep]
        exact hbefore

/-- A context of an epoch that is not the one of the generation. -/
def earlierContext : Framework.Context :=
  { mappingContext with epochs := fun slot => if slot.val = 7 then 1 else 0 }

def earlierCall (epoch : Id128) : PrepareCall := { mappingCall epoch 4096 with context := earlierContext }

/-- Generation 0 is reserved, generation 1 is materialized, and then the reservation is committed. -/
def commitAfterMaterialize (epoch : Id128) : List Action :=
  [.prepare (earlierCall epoch) ⟨true, true, true⟩, .activationCreate 0 none true,
    .prepareActivation 0 earlierContext mappingReceipt ⟨1, 0, Framework.epochPerfcache, 0, 0⟩ true,
    .prepare (earlierCall epoch) ⟨true, true, true⟩, .materializePrepared 1,
    .commitActivation 0 0]

/-- With one epoch, both generations are installed. -/
theorem registry_epochs_repeat : ¬ ∀ (blake3 : Blake3) (s : System),
    System.Reachable blake3 s → s.EpochsDistinct := by
  intro h
  have hdistinct := h zeroDigest _ (reachable_after (.create [⟨1, 0, 0, 0, 0, 0, 0, 0⟩])
    (commitAfterMaterialize 1))
  have hinstalled : (mappingRegistry.after zeroDigest (commitAfterMaterialize 1)).installed = [0, 1] := by
    decide +kernel
  have hepochs : (mappingRegistry.after zeroDigest (commitAfterMaterialize 1)).epochAt 0 =
      (mappingRegistry.after zeroDigest (commitAfterMaterialize 1)).epochAt 1 := by decide +kernel
  change (mappingRegistry.after zeroDigest (commitAfterMaterialize 1)).EpochsDistinct at hdistinct
  have hmem : ∀ address ∈ [0, 1],
      address ∈ (mappingRegistry.after zeroDigest (commitAfterMaterialize 1)).installed := by
    rw [hinstalled]
    exact fun _ => id
  exact absurd (hdistinct 0 (hmem 0 (by simp)) 1 (hmem 1 (by simp)) hepochs) (by decide)

end Laplace.Perfcache
