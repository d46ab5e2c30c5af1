import Laplace.Perfcache.Operations

/-!
# The life of a registry

`collect` is the one operation with an internal error that a client can reach: it refuses to add up
more mapped bytes than a 64-bit total holds. With it and `destroy` every step keeps `Sound`, so
every reachable registry has it.
-/

namespace Laplace.Perfcache

open Checked Perfcache.System

variable {s : System} {blake3 : Blake3}

/-! ## Collecting and destroying -/

/-- What `loaded` gives for generations that are live. -/
def Loaded (s : System) (addresses : List ℕ) (generations : List (ℕ × LoadedGeneration)) : Prop :=
  generations.map Prod.fst = addresses ∧
    ∀ entry ∈ generations, s.generations.read entry.1 = some entry.2

theorem loaded_eq : ∀ addresses : List ℕ,
    (∀ address ∈ addresses, ∃ generation, s.generations.read address = some generation) →
    ∃ generations, s.loaded addresses = .ok generations ∧ Loaded s addresses generations
  | [], _ => ⟨[], rfl, rfl, fun _ h => by cases h⟩
  | address :: addresses, h => by
    obtain ⟨generation, hread⟩ := h address List.mem_cons_self
    obtain ⟨generations, hloaded, hfst, hall⟩ := loaded_eq addresses fun other hother =>
      h other (List.mem_cons_of_mem _ hother)
    refine ⟨(address, generation) :: generations, ?_, by rw [List.map_cons, hfst], fun entry hmem => ?_⟩
    · unfold loaded
      rw [generation_eq hread]
      dsimp only [bind, Except.bind]
      rw [hloaded]
    · rcases List.mem_cons.1 hmem with rfl | hmem
      · exact hread
      · exact hall entry hmem

/-- One entry of the totals of `collect`. -/
def addCollected (totals : UInt64 × UInt64 × UInt64) (entry : ℕ × LoadedGeneration) :
    UInt64 × UInt64 × UInt64 :=
  (totals.1 + 1, totals.2.1 + UInt64.ofNat entry.2.artifacts.length, totals.2.2 + entry.2.mappedBytes)

/-- Whether the totals of some generations fit, when some have been added up. -/
def TotalsFit (totals : UInt64 × UInt64 × UInt64) (generations : List (ℕ × LoadedGeneration)) : Prop :=
  totals.1.toNat + generations.length < UInt64.size ∧
  totals.2.1.toNat + (generations.map fun entry => entry.2.artifacts.length).sum < UInt64.size ∧
  totals.2.2.toNat + (generations.map fun entry => entry.2.mappedBytes.toNat).sum < UInt64.size

theorem sub_max_lt_iff (total word : UInt64) :
    maxWord - total < word ↔ UInt64.size ≤ total.toNat + word.toNat := by
  have hle := le_maxWord total
  rw [UInt64.lt_iff_toNat_lt, toNat_sub_of_le (UInt64.le_iff_toNat_le.1 hle),
    toNat_maxWord]
  have hlt := UInt64.toNat_lt total
  unfold UInt64.size
  omega

variable {entry : ℕ × LoadedGeneration}

/-- The guard of `collect` is whether the next generation fits. -/
theorem collect_guard {count artifacts bytes : UInt64}
    (hlt : entry.2.artifacts.length < UInt64.size) :
    (count = maxWord ∨
      maxWord - artifacts < UInt64.ofNat entry.2.artifacts.length ∨
      maxWord - bytes < entry.2.mappedBytes) ↔ ¬ TotalsFit (count, artifacts, bytes) [entry] := by
  have hcount := UInt64.toNat_lt count
  have hmax : count = maxWord ↔ UInt64.size ≤ count.toNat + 1 := by
    rw [← UInt64.toNat_inj, toNat_maxWord]
    unfold UInt64.size
    omega
  rw [hmax, sub_max_lt_iff, sub_max_lt_iff, toNat_ofNat hlt]
  simp only [TotalsFit, List.length_singleton, List.map_cons, List.map_nil, List.sum_cons,
    List.sum_nil]
  omega

theorem totalsFit_cons {totals : UInt64 × UInt64 × UInt64}
    (hlt : entry.2.artifacts.length < UInt64.size) (hfits : TotalsFit totals [entry])
    (entries : List (ℕ × LoadedGeneration)) :
    TotalsFit totals (entry :: entries) ↔ TotalsFit (addCollected totals entry) entries := by
  obtain ⟨h1, h2, h3⟩ := hfits
  simp only [List.length_singleton, List.map_cons, List.map_nil, List.sum_cons, List.sum_nil,
    Nat.add_zero] at h1 h2 h3
  unfold UInt64.size at h1 h2 h3
  have hartifacts := toNat_ofNat hlt
  have hcount : (totals.1 + 1).toNat = totals.1.toNat + 1 := toNat_add_of_lt h1
  have htotal : (totals.2.1 + UInt64.ofNat entry.2.artifacts.length).toNat =
      totals.2.1.toNat + entry.2.artifacts.length := by
    rw [toNat_add_of_lt (by rwa [hartifacts]), hartifacts]
  have hbytes : (totals.2.2 + entry.2.mappedBytes).toNat =
      totals.2.2.toNat + entry.2.mappedBytes.toNat := toNat_add_of_lt h3
  simp only [TotalsFit, addCollected, List.length_cons, List.map_cons, List.sum_cons, hcount, htotal,
    hbytes]
  omega

theorem totalsFit_of_cons {totals : UInt64 × UInt64 × UInt64}
    {entries : List (ℕ × LoadedGeneration)} (h : TotalsFit totals (entry :: entries)) :
    TotalsFit totals [entry] := by
  obtain ⟨h1, h2, h3⟩ := h
  simp only [List.length_cons, List.map_cons, List.sum_cons] at h1 h2 h3
  refine ⟨?_, ?_, ?_⟩ <;>
    simp only [List.length_singleton, List.map_cons, List.map_nil, List.sum_cons, List.sum_nil] <;>
    omega

theorem collectTotals_eq : ∀ (generations : List (ℕ × LoadedGeneration))
    (totals : UInt64 × UInt64 × UInt64),
    (∀ entry ∈ generations, entry.2.artifacts.length < UInt64.size) →
    let unread := generations.filter fun entry => entry.2.readers = 0
    (TotalsFit totals unread →
      collectTotals generations totals = some (unread.foldl addCollected totals)) ∧
    (¬ TotalsFit totals unread → collectTotals generations totals = none)
  | [], totals, _ => by
    refine ⟨fun _ => rfl, fun hfit => absurd ?_ hfit⟩
    have h1 := UInt64.toNat_lt totals.1
    have h2 := UInt64.toNat_lt totals.2.1
    have h3 := UInt64.toNat_lt totals.2.2
    exact ⟨h1, h2, h3⟩
  | (address, generation) :: generations, totals, hlt => by
    have ih := fun totals => collectTotals_eq generations totals fun entry hmem =>
      hlt entry (List.mem_cons_of_mem _ hmem)
    have hartifacts := hlt _ List.mem_cons_self
    obtain ⟨count, artifacts, bytes⟩ := totals
    dsimp only at ih hartifacts ⊢
    unfold collectTotals
    by_cases hreaders : generation.readers = 0
    · have hfilter : ((address, generation) :: generations).filter (fun entry => entry.2.readers = 0) =
          (address, generation) :: generations.filter fun entry => entry.2.readers = 0 := by
        rw [List.filter_cons, if_pos (decide_eq_true hreaders)]
      rw [hfilter, if_neg (not_not.2 hreaders), List.foldl_cons]
      by_cases hfits : TotalsFit (count, artifacts, bytes) [(address, generation)]
      · rw [if_neg (fun hguard => (collect_guard hartifacts).1 hguard hfits),
          totalsFit_cons hartifacts hfits]
        exact ih _
      · rw [if_pos ((collect_guard hartifacts).2 hfits)]
        exact ⟨fun hall => absurd (totalsFit_of_cons hall) hfits, fun _ => rfl⟩
    · have hfilter : ((address, generation) :: generations).filter (fun entry => entry.2.readers = 0) =
          generations.filter fun entry => entry.2.readers = 0 := by
        rw [List.filter_cons, if_neg (by simpa using hreaders)]
      rw [hfilter, if_pos hreaders]
      exact ih _

theorem retired_nodup (h : Sound s) : s.retired.Nodup := by
  refine List.nodup_iff_count_le_one.2 fun address => ?_
  have hplaced := h.placed address
  unfold places at hplaced
  split at hplaced <;> omega

/-- The retired generations that no pin points to. -/
def unread (s : System) : List ℕ := s.retired.filter fun address => s.pinsOn address = 0

/-- The bytes that the retired generations without pins map. -/
def unreadBytes (s : System) : ℕ :=
  ((unread s).map fun address =>
    ((s.generations.read address).map fun generation => generation.mappedBytes.toNat).getD 0).sum

theorem loaded_filter (h : Sound s) {addresses : List ℕ} {generations : List (ℕ × LoadedGeneration)}
    (hloaded : Loaded s addresses generations) :
    (generations.filter fun entry => entry.2.readers = 0).map Prod.fst =
        addresses.filter (fun address => s.pinsOn address = 0) ∧
      (generations.filter fun entry => entry.2.readers ≠ 0).map Prod.fst =
        addresses.filter fun address => s.pinsOn address ≠ 0 := by
  obtain ⟨hfst, hall⟩ := hloaded
  have hiff : ∀ entry ∈ generations, entry.2.readers = 0 ↔ s.pinsOn entry.1 = 0 := fun entry hmem => by
    rw [← h.readers entry.1 entry.2 (hall entry hmem), ← UInt64.toNat_inj, UInt64.toNat_zero]
  subst hfst
  rw [List.filter_map, List.filter_map]
  constructor
  · exact congrArg _ (List.filter_congr fun entry hmem => decide_eq_decide.2 (hiff entry hmem))
  · exact congrArg _ (List.filter_congr fun entry hmem =>
      decide_eq_decide.2 (not_congr (hiff entry hmem)))

theorem totalsFit_iff (h : Sound s) {generations : List (ℕ × LoadedGeneration)}
    (hloaded : Loaded s s.retired generations) :
    TotalsFit (0, 0, 0) (generations.filter fun entry => entry.2.readers = 0) ↔
      unreadBytes s < UInt64.size := by
  have hfst := (loaded_filter h hloaded).1
  have hall : ∀ entry ∈ generations.filter (fun entry => entry.2.readers = 0),
      s.generations.read entry.1 = some entry.2 := fun entry hmem =>
    hloaded.2 entry (List.mem_of_mem_filter hmem)
  revert hfst hall
  generalize generations.filter (fun entry => entry.2.readers = 0) = entries
  intro hfst hall
  have hnodup : (entries.map Prod.fst).Nodup := by
    rw [hfst]
    exact (retired_nodup h).filter _
  have hreads : List.Forall₂ (fun address generation => s.generations.read address = some generation)
      (entries.map Prod.fst) (entries.map Prod.snd) := by
    rw [List.forall₂_map_left_iff, List.forall₂_map_right_iff]
    exact List.forall₂_same.2 hall
  have hcount := Heap.sum_le_total (fun _ : LoadedGeneration => 1) hnodup hreads
  have hartifacts := Heap.sum_le_total
    (fun generation : LoadedGeneration => generation.artifacts.length) hnodup hreads
  have hlive := h.live_lt
  have hlt := h.artifacts_lt
  have hbytes : (entries.map fun entry => entry.2.mappedBytes.toNat).sum = unreadBytes s := by
    unfold unreadBytes unread
    rw [← hfst, List.map_map]
    refine congrArg _ (List.map_congr_left fun entry hmem => ?_)
    rw [Function.comp_apply, hall entry hmem]
    rfl
  unfold Heap.live at hlive
  rw [List.map_map] at hcount hartifacts
  have hlength : (entries.map ((fun _ : LoadedGeneration => 1) ∘ Prod.snd)).sum = entries.length :=
    (congrArg List.sum (List.map_const' ..)).trans (by
      rw [List.sum_replicate, smul_eq_mul, Nat.mul_one])
  have hsame : (entries.map ((fun generation : LoadedGeneration => generation.artifacts.length) ∘
    Prod.snd)).sum = (entries.map fun entry => entry.2.artifacts.length).sum := rfl
  unfold TotalsFit
  rw [hbytes]
  change 0 + _ < _ ∧ 0 + _ < _ ∧ 0 + _ < _ ↔ _
  omega

theorem count_partition (property : ℕ → Prop) [DecidablePred property] (addresses : List ℕ) (g : ℕ) :
    (addresses.filter fun address => ¬ property address).count g +
      (addresses.filter fun address => property address).count g = addresses.count g := by
  by_cases hg : property g
  · have hnone : g ∉ addresses.filter fun address => ¬ property address := fun hmem =>
      of_decide_eq_true (List.mem_filter.1 hmem).2 hg
    rw [List.count_eq_zero.2 hnone, List.count_filter (by simpa using hg), Nat.zero_add]
  · have hnone : g ∉ addresses.filter fun address => property address := fun hmem =>
      hg (of_decide_eq_true (List.mem_filter.1 hmem).2)
    rw [List.count_eq_zero.2 hnone, List.count_filter (by simpa using hg), Nat.add_zero]

/-- `collect` hands exactly the retired generations without pins to be closed, unless the bytes that
they map do not fit one total; then it changes nothing. -/
theorem collect_safe (h : Sound s) : Safe s.collect fun result =>
    Sound result.2.2 ∧ Keeps s result.2.2 ∧
    ((unreadBytes s < UInt64.size ∧ result.1 = .ok ∧
        result.2.2.retired = s.retired.filter (fun address => s.pinsOn address ≠ 0) ∧
        result.2.2.closing = (unread s).reverse ++ s.closing) ∨
      (UInt64.size ≤ unreadBytes s ∧ result.1 = .internalError ∧ result.2.2 = s)) := by
  unfold collect
  refine safe_theRegistry.bind fun registry hregistry => ?_
  have hretired := retired_of_registry hregistry
  obtain ⟨generations, heq, hloaded⟩ := loaded_eq registry.retired fun address hmem =>
    h.read_retired (hretired ▸ hmem)
  dsimp only [bind, Except.bind]
  rw [heq]
  have htotals := collectTotals_eq generations (0, 0, 0) fun entry hmem =>
    (Heap.le_total (fun generation : LoadedGeneration => generation.artifacts.length)
      (hloaded.2 entry hmem)).trans_lt h.artifacts_lt
  have hfits := totalsFit_iff h (hretired ▸ hloaded)
  obtain ⟨hunread, hread⟩ := loaded_filter h hloaded
  rw [← hretired] at hunread hread
  dsimp only at htotals ⊢
  by_cases hlt : unreadBytes s < UInt64.size
  · rw [htotals.1 (hfits.2 hlt)]
    dsimp only
    have hsame : collectedTotals (generations.filter fun entry => entry.2.readers = 0) =
        (generations.filter fun entry => entry.2.readers = 0).foldl addCollected (0, 0, 0) := rfl
    rw [if_neg (not_not.2 hsame), hunread, hread]
    refine ⟨h.unlink hregistry (fun g => ?_) (fun g hmem => ?_),
      .of_epochs (active_of_registry hregistry).symm (fun _ _ => rfl) (.refl _),
      .inl ⟨hlt, rfl, rfl, rfl⟩⟩
    · rw [List.count_reverse, ← hretired]
      exact count_partition (fun address => s.pinsOn address = 0) s.retired g
    · have := (List.mem_filter.1 (List.mem_reverse.1 hmem)).2
      exact of_decide_eq_true this
  · rw [htotals.2 fun hfit => hlt (hfits.1 hfit)]
    exact ⟨h, .refl s, .inr ⟨Nat.le_of_not_lt hlt, rfl, rfl⟩⟩

theorem destroy_safe (h : Sound s) : Safe s.destroy fun result =>
    Sound result.2 ∧ result.1 ≠ .internalError ∧
    (result.1 ≠ .ok ∧ result.2 = s ∨ result.1 = .ok ∧ result.2.registry = none ∧
      s.reservation = none ∧ s.preparedCount = 0 ∧ (∀ address, s.pinsOn address = 0) ∧
      result.2.closing = s.active.toList ++ s.retired ++ s.closing ∧
      result.2.activations = s.activations) := by
  unfold destroy
  refine safe_theRegistry.bind fun registry hregistry => ?_
  have hretired := retired_of_registry hregistry
  have hactive := active_of_registry hregistry
  obtain ⟨retired, hreadRetired, hloadedRetired⟩ := loaded_eq registry.retired fun address hmem =>
    h.read_retired (hretired ▸ hmem)
  obtain ⟨active, hreadActive, hloadedActive⟩ := loaded_eq registry.active.toList fun address hmem =>
    h.read_active (hactive.trans (Option.mem_toList.1 hmem))
  dsimp only [bind, Except.bind]
  rw [hreadRetired]
  dsimp only
  rw [hreadActive]
  dsimp only
  split
  · exact ⟨h, RegistryStatus.noConfusion, .inl ⟨RegistryStatus.noConfusion, rfl⟩⟩
  rename_i hidle
  simp only [not_or, not_not, List.any_eq_true, not_exists, not_and, decide_eq_true_eq,
    Option.not_isSome_iff_eq_none] at hidle
  obtain ⟨hreservation, hcount, hreaders⟩ := hidle
  have hunread : ∀ address, s.pinsOn address = 0 := fun address => by
    by_contra hne
    have hmem : address ∈ (active ++ retired).map Prod.fst := by
      rw [List.map_append, hloadedActive.1, hloadedRetired.1, ← hactive, ← hretired]
      rcases h.pinned address (Nat.pos_of_ne_zero hne) with hpin | hpin
      · exact List.mem_append_left _ (Option.mem_toList.2 hpin)
      · exact List.mem_append_right _ hpin
    obtain ⟨entry, hentry, rfl⟩ := List.mem_map.1 hmem
    have hread : s.generations.read entry.1 = some entry.2 :=
      (List.mem_append.1 hentry).elim (hloadedActive.2 entry) (hloadedRetired.2 entry)
    refine hne ?_
    rw [← h.readers entry.1 entry.2 hread, hreaders entry hentry]
    rfl
  refine ⟨h.destroy hregistry hreservation hcount hunread, RegistryStatus.noConfusion,
    .inr ⟨rfl, rfl, (reservation_of_registry hregistry).trans hreservation,
      (preparedCount_of_registry hregistry).trans hcount, hunread, ?_, rfl⟩⟩
  rw [hactive, hretired]

/-! ## Steps and runs -/

/-- What a step does to the active generation. -/
inductive Turns (s : System) (action : Action) (outcome : Outcome) (s' : System) : Prop
  | keeps (h : Keeps s s')
  | commits (address : ℕ) (preparationFingerprint : Digest256)
      (haction : action = .commitActivation address preparationFingerprint)
      (hok : outcome.registry = some .ok) (h : Swaps s address s')
  | destroys (haction : action = .destroy) (hok : outcome.registry = some .ok)
      (hreservation : s.reservation = none) (hregistry : s'.registry = none)
      (hactivations : s'.activations = s.activations)

/-- What every step does: the invariant holds again, and the only internal error is that of a
`collect` which changes nothing. -/
structure Stepped (s : System) (action : Action) (outcome : Outcome) (s' : System) : Prop where
  sound : Sound s'
  internal : outcome.registry = some .internalError →
    action = .collect ∧ UInt64.size ≤ unreadBytes s ∧ s' = s
  turns : Turns s action outcome s'

theorem Ends.stepped {action : Action} {outcome : Outcome} {s' : System}
    (h : Ends s outcome.registry s') : Stepped s action outcome s' :=
  ⟨h.sound, fun hinternal => absurd hinternal h.plain, .keeps h.keeps⟩

theorem Ends.of_none {action : Action} {outcome : Outcome} {status : Option RegistryStatus}
    {s' : System} (h : Ends s status s') (hnone : outcome.registry = none) :
    Stepped s action outcome s' :=
  ⟨h.sound, fun hinternal => absurd (hnone.symm.trans hinternal) nofun, .keeps h.keeps⟩

theorem step_safe (h : Sound s) (action : Action) :
    Safe (s.step blake3 action) fun result => Stepped s action result.1 result.2 := by
  cases action with
  | prepare call memory =>
    exact (prepare_safe h call memory).bind fun result hresult => hresult.stepped
  | activationCreate handle expectedEpoch memory =>
    exact (activationCreate_safe h handle expectedEpoch memory).bind fun result hresult =>
      hresult.stepped
  | prepareActivation address context stagedReceipt request memory =>
    exact (prepareActivation_safe h address context stagedReceipt request memory).mono
      fun result hresult => hresult.1.stepped
  | commitActivation address preparationFingerprint =>
    refine (commitActivation_safe h address preparationFingerprint).mono fun result hresult => ?_
    rcases hresult with ⟨-, hplain, hsame⟩ | ⟨hok, hswaps⟩
    · rw [hsame]
      exact ⟨h, fun hinternal => absurd hinternal hplain, .keeps (.refl s)⟩
    · exact ⟨hswaps.sound, fun hinternal => absurd (hok.symm.trans hinternal) (by simp),
        .commits address preparationFingerprint rfl hok hswaps⟩
  | abortActivation address =>
    exact (abortActivation_safe h address).mono fun result hresult => hresult.1.stepped
  | activationDestroy address =>
    exact (activationDestroy_safe h address).mono fun result hresult => hresult.stepped
  | discardPrepared handle =>
    exact (discardPrepared_safe h handle).bind fun result hresult => hresult.of_none rfl
  | materializePrepared handle =>
    exact (materializePrepared_safe h handle).bind fun result hresult => hresult.stepped
  | newPin => exact (newPin_ends h).of_none rfl
  | pin slot expected => exact (pin_safe h slot expected).bind fun result hresult => hresult.stepped
  | pinEpoch slot epoch => exact (pinEpoch_safe h slot epoch).bind fun result hresult => hresult.stepped
  | pinRelease slot => exact (pinRelease_safe h slot).bind fun result hresult => hresult.stepped
  | collect =>
    refine (collect_safe h).bind fun result hresult => ?_
    obtain ⟨hsound, hkeeps, ⟨-, hok, -⟩ | ⟨hbytes, -, hsame⟩⟩ := hresult
    · exact ⟨hsound, fun hinternal => absurd (Option.some.inj hinternal) (by
        rw [hok]
        exact RegistryStatus.noConfusion), .keeps hkeeps⟩
    · exact ⟨hsound, fun _ => ⟨rfl, hbytes, hsame⟩, .keeps hkeeps⟩
  | destroy =>
    refine (destroy_safe h).bind fun result hresult => ?_
    obtain ⟨hsound, hplain, ⟨-, hsame⟩ | ⟨hok, hregistry, hreservation, -, -, -, hactivations⟩⟩ :=
      hresult
    · refine ⟨hsound, fun hinternal => absurd (Option.some.inj hinternal) hplain, .keeps ?_⟩
      dsimp only
      rw [hsame]
      exact .refl s
    · exact ⟨hsound, fun hinternal => absurd (Option.some.inj hinternal) hplain,
        .destroys rfl (congrArg some hok) hreservation hregistry hactivations⟩
  | close address =>
    exact (closeGeneration_safe h address).bind fun result hresult => hresult.1.of_none rfl

theorem reachable_sound (h : System.Reachable blake3 s) : Sound s := by
  induction h with
  | create modules => exact Sound.create modules
  | step action _ hstep ih => exact ((step_safe ih action).of_ok hstep).sound

theorem not_closed_of_installed (h : Sound s) {address : ℕ}
    (hinstalled : s.active = some address ∨ address ∈ s.retired) :
    address ∉ s.closing ∧ address ∉ s.closed := by
  have hplaced := h.placed address
  have hcount : 0 < s.active.toList.count address + s.retired.count address := by
    rcases hinstalled with hactive | hretired
    · exact Nat.add_pos_left (List.count_pos_iff.2 (Option.mem_toList.2 hactive)) _
    · exact Nat.add_pos_right _ (List.count_pos_iff.2 hretired)
  have hle : s.places address ≤ 1 := by
    rw [hplaced]
    split <;> omega
  unfold places at hle
  constructor
  · intro hmem
    have := List.count_pos_iff.2 hmem
    omega
  · intro hmem
    have := List.count_pos_iff.2 hmem
    omega

theorem collect_step (h : Sound s) (action : Action) :
    Safe (s.step blake3 action) fun result => action = .collect →
      (unreadBytes s < UInt64.size ∧ result.1.registry = some .ok ∧
        result.2.retired = s.retired.filter (fun address => s.pinsOn address ≠ 0) ∧
        result.2.closing = (unread s).reverse ++ s.closing) ∨
      (UInt64.size ≤ unreadBytes s ∧ result.1.registry = some .internalError) := by
  by_cases haction : action = .collect
  · subst haction
    refine (collect_safe h).bind fun result hresult _ => ?_
    obtain ⟨-, -, ⟨hlt, hok, hretired, hclosing⟩ | ⟨hbytes, hinternal, -⟩⟩ := hresult
    · exact .inl ⟨hlt, congrArg some hok, hretired, hclosing⟩
    · exact .inr ⟨hbytes, congrArg some hinternal⟩
  · exact (step_safe h action).mono fun _ _ heq => absurd heq haction

/-- Whatever the clients do, in whatever order, and whatever of it fails: the reader count of a
generation is the number of pins on it; what is active or pinned is neither closed nor about to be;
nothing is closed twice; the registry counts the prepared generations that exist; at most one
reservation exists. No call reads what has been freed. `collect` gives up exactly the retired
generations that no pin points to, unless their bytes do not fit one total. -/
theorem registry_lifecycle (h : System.Reachable blake3 s) :
    (∀ address generation, s.generations.read address = some generation →
      generation.readers.toNat = s.pinsOn address) ∧
    (∀ address, s.active = some address ∨ 0 < s.pinsOn address →
      (s.generations.read address).isSome ∧ address ∉ s.closing ∧ address ∉ s.closed) ∧
    s.closed.Nodup ∧ s.preparedCount.toNat = s.prepared.live ∧ s.tickets.live ≤ 1 ∧
    ∀ action, Safe (s.step blake3 action) fun result =>
      (result.1.registry = some .internalError ↔ action = .collect ∧ UInt64.size ≤ unreadBytes s) ∧
      (result.1.registry = some .internalError → result.2 = s) ∧
      (action = .collect → unreadBytes s < UInt64.size → result.1.registry = some .ok ∧
        result.2.retired = s.retired.filter (fun address => s.pinsOn address ≠ 0) ∧
        result.2.closing = (unread s).reverse ++ s.closing) := by
  have hsound := reachable_sound h
  refine ⟨hsound.readers, fun address huse => ?_,
    List.nodup_iff_count_le_one.2 hsound.closed_count_le, hsound.counted,
    Heap.live_le_one fun first second ticket ticket' hfirst hsecond => ?_, fun action => ?_⟩
  · have hinstalled := huse.elim Or.inl (hsound.pinned address)
    exact ⟨Option.isSome_iff_exists.2 (hinstalled.elim hsound.read_active hsound.read_retired),
      not_closed_of_installed hsound hinstalled⟩
  · exact Option.some.inj
      ((hsound.tickets first ticket hfirst).1.symm.trans (hsound.tickets second ticket' hsecond).1)
  · refine ((step_safe hsound action).and (collect_step hsound action)).mono ?_
    rintro result ⟨hstep, hcollect⟩
    refine ⟨⟨fun hinternal => ?_, fun ⟨haction, hbytes⟩ => ?_⟩, fun hinternal =>
      (hstep.internal hinternal).2.2, fun haction hlt => ?_⟩
    · exact ⟨(hstep.internal hinternal).1, (hstep.internal hinternal).2.1⟩
    · exact ((hcollect haction).resolve_left fun hok => Nat.not_lt.2 hbytes hok.1).2
    · exact ((hcollect haction).resolve_right fun hfull => Nat.not_le.2 hlt hfull.1).2

/-! ### Runs -/

/-- The actions one after the other; one that is outside the contract is not taken. -/
def System.after (blake3 : Blake3) : System → List Action → System
  | s, [] => s
  | s, action :: actions =>
    match s.step blake3 action with
    | .ok (_, s') => s'.after blake3 actions
    | .error _ => s.after blake3 actions

theorem reachable_after (h : System.Reachable blake3 s) (actions : List Action) :
    System.Reachable blake3 (s.after blake3 actions) := by
  induction actions generalizing s with
  | nil => exact h
  | cons action actions ih =>
    unfold after
    split
    · rename_i hstep
      exact ih (.step action h hstep)
    · exact ih h

def mappingContext : Framework.Context where
  epochs _ := 0
  authorityFingerprint := 0
  resourceGrant := ⟨maxWord, 1, 1⟩
  epochMask := 128
  major := Framework.major
  minor := Framework.minor
  flags := 0
  reserved := 0

def mappingReceipt : Framework.StreamReceipt :=
  { totalRecords := 1
    totalBytes := 1
    batchCount := 1
    sinkCount := 1
    failedBatchIndex := Framework.noIndex
    failedSinkIndex := Framework.noIndex
    recordType := 1
    effectDisposition := Framework.effectStagedInert }

theorem letter_ne_zero : (0 : UInt8) ∉ [(97 : UInt8)] := by decide

/-- A generation of one artifact that maps this many bytes. -/
def mappingCall (epoch : Id128) (bytes : UInt64) : PrepareCall :=
  let contract : Contract := { moduleId := 1, activationEpochId := epoch }
  { context := mappingContext
    stagedReceipt := mappingReceipt
    provider := { callbacks := true, abiMajor := 1, abiMinor := 1, flags := 0, reserved := 0 }
    request :=
      { artifacts := [⟨⟨[97], letter_ne_zero⟩, contract, 0, [], 0, 0⟩]
        stagedSinkArtifactFingerprints := [0]
        perfcacheSinkIndex := 0
        activationEpochId := epoch
        epochFingerprint := 0
        stagedReceiptId := 0
        streamFingerprint := 0
        stagedSinkArtifactsFingerprint := 0
        sinkArtifactSetFingerprint := 0
        requiredModuleSetFingerprint := 0
        flags := 0
        reserved := 0 }
    answers := fun _ => ⟨true, ⟨contract, bytes, 0, 0⟩, true, true, bytes, 1⟩ }

/-- A registry whose only module is optional. -/
def mappingRegistry : System := create [⟨1, 0, 0, 0, 0, 0, 0, 0⟩]

/-- Every digest is zero. -/
def zeroDigest : Blake3 := fun _ => 0

/-- Two generations become retired without ever having been active. -/
def mappingActions (bytes : UInt64) : List Action :=
  [.prepare (mappingCall 1 bytes) ⟨true, true, true⟩, .materializePrepared 0,
    .prepare (mappingCall 2 bytes) ⟨true, true, true⟩, .materializePrepared 1]

theorem registry_lifecycle_once :
    ((mappingRegistry.after zeroDigest (mappingActions 4096)).step zeroDigest .collect).toOption.map
      (fun result => (result.2.retired, result.2.closing)) = some ([], [0, 1]) ∧
    ((mappingRegistry.after zeroDigest (mappingActions 4096)).after zeroDigest
      [.collect, .close 0, .close 1]).closed.Nodup :=
  ⟨by decide +kernel, (registry_lifecycle
    (reachable_after (reachable_after (.create _) (mappingActions 4096)) _)).2.2.1⟩

/-- **Nothing leaks.** In whatever way a registry got there: once it is destroyed, every generation that
was ever loaded is closed or handed out to be closed, exactly once, and no ticket, prepared generation or
pin is left. -/
theorem destroyed_leaks_nothing (h : System.Reachable blake3 s) (hdestroyed : s.registry = none) :
    (s.closing ++ s.closed).Perm (List.range s.generations.length) ∧
      (∀ ticket, s.tickets.read ticket = none) ∧ (∀ prepared, s.prepared.read prepared = none) ∧
      s.held = [] ∧ ∀ address, s.pinsOn address = 0 := by
  have hsound := reachable_sound h
  have hactive : s.active = none := by rw [active, hdestroyed, Option.bind_none]
  have hretired : s.retired = [] := by rw [retired, hdestroyed]; rfl
  have hreservation : s.reservation = none := by rw [reservation, hdestroyed, Option.bind_none]
  have htickets : ∀ ticket, s.tickets.read ticket = none := by
    intro ticket
    by_contra hread
    obtain ⟨cell, hcell⟩ := Option.ne_none_iff_exists'.1 hread
    cases hreservation.symm.trans (hsound.tickets ticket cell hcell).1
  have hprepared : ∀ prepared, s.prepared.read prepared = none := by
    have hcounted : 0 = s.prepared.live := by
      rw [← hsound.counted, preparedCount, hdestroyed]
      rfl
    intro prepared
    by_contra hread
    obtain ⟨cell, hcell⟩ := Option.ne_none_iff_exists'.1 hread
    have hle : 1 ≤ s.prepared.live := Heap.le_total (fun _ => 1) hcell
    omega
  have hcount : ∀ {α : Type} {heap : Heap α} (property : α → Prop) [DecidablePred property],
      (∀ address, heap.read address = none) → heap.count property = 0 := by
    intro α heap property _ hnone
    by_contra hcount
    obtain ⟨address, value, hread, -⟩ := Heap.exists_of_count_pos property (Nat.pos_of_ne_zero hcount)
    cases (hnone address).symm.trans hread
  refine ⟨?_, htickets, hprepared, ?_, fun address => ?_⟩
  · rw [List.perm_iff_count]
    intro address
    have hplaced := hsound.placed address
    rw [places, hactive, hretired, hcount _ htickets, hcount _ hprepared] at hplaced
    rw [List.count_append, List.nodup_range.count]
    simpa using hplaced
  · refine List.eq_nil_iff_forall_not_mem.2 fun prepared hheld => ?_
    have hholders := hsound.held prepared
    rw [hprepared, holders] at hholders
    have hpos := List.count_pos_iff.2 hheld
    rw [Option.isSome_none, if_neg Bool.false_ne_true] at hholders
    omega
  · by_contra hpins
    have := hsound.pinned address (Nat.pos_of_ne_zero hpins)
    rw [hactive, hretired] at this
    simp at this

theorem destroyed_leaks_nothing_once :
    let s := mappingRegistry.after zeroDigest (mappingActions 4096 ++ [.collect, .close 0, .destroy])
    s.registry = none ∧ (s.closing ++ s.closed).Perm (List.range s.generations.length) :=
  ⟨by decide +kernel, (destroyed_leaks_nothing (reachable_after (.create _) _) (by decide +kernel)).1⟩

/-- Two retired generations of 2^63 bytes each: `collect` reports an internal error. -/
theorem collect_internalError : ¬ ∀ (blake3 : Blake3) (s : System),
    System.Reachable blake3 s → ∀ action outcome s', s.step blake3 action = .ok (outcome, s') →
      outcome.registry ≠ some .internalError := by
  intro h
  have hfull : ((mappingRegistry.after zeroDigest (mappingActions 0x8000000000000000)).step zeroDigest
      .collect).toOption.map (fun result => result.1.registry) = some (some .internalError) := by
    decide +kernel
  cases hstep : (mappingRegistry.after zeroDigest (mappingActions 0x8000000000000000)).step zeroDigest
      .collect with
  | error fault =>
    rw [hstep] at hfull
    cases hfull
  | ok result =>
    rw [hstep] at hfull
    exact h zeroDigest _ (reachable_after (.create _) _) .collect result.1 result.2 hstep
      (Option.some.inj hfull)

end Laplace.Perfcache
