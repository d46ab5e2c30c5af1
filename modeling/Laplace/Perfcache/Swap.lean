import Laplace.Perfcache.Lifecycle

/-!
# The swap of the active generation

The epoch is compared when a generation is reserved and swapped when it is committed. In between
nothing else can change the active generation: a commit needs the reservation, and a registry with
a reservation is not destroyed.
-/

namespace Laplace.Perfcache

variable {s : System} {blake3 : Blake3}

theorem Turns.persists {action : Action} {outcome : Outcome} {s' : System}
    (h : Turns s action outcome s') : Persists s.activations s'.activations := by
  cases h with
  | keeps h => exact h.persists
  | commits _ _ _ _ h => exact h.persists
  | destroys _ _ _ _ hactivations => exact hactivations ▸ .refl _

/-- Either nothing has changed the active generation, or the activation has lost its ticket. -/
def Untouched (address : ℕ) (s s' : System) : Prop :=
  (s'.active = s.active ∧ s'.activeEpoch = s.activeEpoch) ∨
    ∀ activation, s'.activations.read address = some activation → activation.ticket = none

theorem Untouched.step {start s' : System} {address : ℕ} {action : Action} {outcome : Outcome}
    (h : Untouched address start s) (hsound : Sound s)
    (hspent : ∀ activation, s.activations.read address = some activation → activation.prepared = none)
    (hlt : address < s.activations.length) (hturns : Turns s action outcome s') :
    Untouched address start s' := by
  by_cases hnone : ∀ activation, s.activations.read address = some activation → activation.ticket = none
  · refine .inr fun activation' hread' => ?_
    obtain ⟨activation, hread, hfollows⟩ := hturns.persists.follows address hlt activation' hread'
    rcases (hfollows.spent (hspent activation hread)).2 with hsame | hgone
    · exact hsame.trans (hnone activation hread)
    · exact hgone
  · have hkept := h.resolve_right hnone
    obtain ⟨activation, hread⟩ := not_forall.1 hnone
    rw [Classical.not_imp] at hread
    obtain ⟨hread, hticket⟩ := hread
    replace hticket := Option.isSome_iff_ne_none.2 hticket
    cases hturns with
    | keeps h => exact .inl ⟨h.active.trans hkept.1, h.activeEpoch.trans hkept.2⟩
    | commits other fingerprint _ _ h =>
      obtain ⟨activation', ticket, -, hread', hticket', -⟩ := h.activation
      have heq := hsound.ticket_unique hread hticket hread' (by rw [hticket']; rfl)
      exact .inr (heq ▸ h.spent)
    | destroys _ _ hreservation _ _ =>
      obtain ⟨ticket, hticket⟩ := Option.isSome_iff_exists.1 hticket
      have hreserved := (hsound.ticket_reserved hread hticket).1
      rw [hreservation] at hreserved
      cases hreserved

/-- From a reservation on, as long as the activation has its ticket, the active generation is the
one that there was. -/
theorem untouched_after (hreachable : System.Reachable blake3 s) {address : ℕ}
    {activation : Activation} (hread : s.activations.read address = some activation)
    (hprepared : activation.prepared = none) (actions : List Action) :
    Untouched address s (s.after blake3 actions) ∧
      Persists s.activations (s.after blake3 actions).activations := by
  have hrun : ∀ (actions : List Action) (s' : System), System.Reachable blake3 s' →
      Untouched address s s' → Persists s.activations s'.activations →
      Untouched address s (s'.after blake3 actions) ∧
        Persists s.activations (s'.after blake3 actions).activations := by
    intro actions
    induction actions with
    | nil => exact fun s' _ huntouched hpersists => ⟨huntouched, hpersists⟩
    | cons action actions ih =>
      intro s' hreachable' huntouched hpersists
      unfold System.after
      split
      · rename_i outcome s'' hstep
        have hsound := reachable_sound hreachable'
        have hturns := ((step_safe hsound action).of_ok hstep).turns
        have hlt := Heap.lt_of_read hread
        refine ih s'' (.step action hreachable' hstep) (huntouched.step hsound (fun other hother => ?_)
          (hlt.trans_le hpersists.length_le) hturns) (hpersists.trans hturns.persists)
        obtain ⟨first, hfirst, hfollows⟩ := hpersists.follows address hlt other hother
        rw [hread] at hfirst
        cases hfirst
        exact (hfollows.spent hprepared).1
      · exact ih s' hreachable' huntouched hpersists
  exact hrun actions s hreachable (.inl ⟨rfl, rfl⟩) (.refl _)

/-- A step changes the active generation only as a commit that takes effect, when the epoch that the
activation expects is the active one and the active generation is retired, or as the end of a
registry without reservation. A call that fails, an abort and the deletion of an activation do not.
A reservation is made against the active epoch, and whatever happens between it and its commit, that
epoch is still active when the commit takes effect. -/
theorem activation_compare_and_swap (h : System.Reachable blake3 s) {action : Action}
    {outcome : Outcome} {s' : System} (hstep : s.step blake3 action = .ok (outcome, s')) :
    ((s'.active = s.active ∧ s'.activeEpoch = s.activeEpoch) ∨
      (∃ address fingerprint activation ticket target,
        action = .commitActivation address fingerprint ∧ outcome.registry = some .ok ∧
        s.activations.read address = some activation ∧ activation.ticket = some ticket ∧
        s.tickets.read ticket = some ⟨some target⟩ ∧ s.activeEpoch = activation.expectedEpoch ∧
        s'.active = some target ∧ s'.retired = s.active.toList ++ s.retired) ∨
      (action = .destroy ∧ outcome.registry = some .ok ∧ s.reservation = none ∧ s'.registry = none)) ∧
    ((outcome.registry ≠ some .ok ∨
        ∃ address, action = .abortActivation address ∨ action = .activationDestroy address) →
      s'.active = s.active ∧ s'.activeEpoch = s.activeEpoch) ∧
    ∀ address context stagedReceipt request memory,
      action = .prepareActivation address context stagedReceipt request memory →
      outcome.registry = some .ok → ∃ activation, s.activations.read address = some activation ∧
        s.activeEpoch = activation.expectedEpoch ∧ ∀ actions fingerprint outcome' s'',
          (s'.after blake3 actions).step blake3 (.commitActivation address fingerprint) =
            .ok (outcome', s'') → outcome'.registry = some .ok →
          (s'.after blake3 actions).active = s.active ∧
            (s'.after blake3 actions).activeEpoch = activation.expectedEpoch ∧
            s''.retired = s.active.toList ++ (s'.after blake3 actions).retired := by
  have hsound := reachable_sound h
  have hturns := ((step_safe hsound action).of_ok hstep).turns
  refine ⟨?_, fun hfailed => ?_, fun address context stagedReceipt request memory haction hok => ?_⟩
  · cases hturns with
    | keeps h => exact .inl ⟨h.active, h.activeEpoch⟩
    | commits address fingerprint haction hok h =>
      obtain ⟨activation, ticket, target, hread, hticket, htarget, hepoch, hactive⟩ := h.activation
      exact .inr (.inl ⟨address, fingerprint, activation, ticket, target, haction, hok, hread, hticket,
        htarget, hepoch, hactive, h.retired⟩)
    | destroys haction hok hreservation hregistry _ =>
      exact .inr (.inr ⟨haction, hok, hreservation, hregistry⟩)
  · cases hturns with
    | keeps h => exact ⟨h.active, h.activeEpoch⟩
    | commits address fingerprint haction hok _ =>
      rcases hfailed with hfailed | ⟨other, hother | hother⟩
      · exact absurd hok hfailed
      · cases haction.symm.trans hother
      · cases haction.symm.trans hother
    | destroys haction hok _ _ _ =>
      rcases hfailed with hfailed | ⟨other, hother | hother⟩
      · exact absurd hok hfailed
      · cases haction.symm.trans hother
      · cases haction.symm.trans hother
  · subst haction
    obtain ⟨hends, hreserved⟩ :=
      (prepareActivation_safe hsound address context stagedReceipt request memory).of_ok hstep
    obtain ⟨activation, hread, hepoch, activation', hread', hsame, hprepared⟩ := hreserved hok
    refine ⟨activation, hread, hepoch, fun actions fingerprint outcome' s'' hcommit hok' => ?_⟩
    have hreachable : System.Reachable blake3 s' := .step _ h hstep
    obtain ⟨huntouched, hpersists⟩ := untouched_after hreachable hread' hprepared actions
    have hresult := (commitActivation_safe
      (reachable_sound (reachable_after hreachable actions)) address fingerprint).of_ok hcommit
    obtain ⟨-, hswaps⟩ := hresult.resolve_left fun hrejected => hrejected.1 hok'
    obtain ⟨last, ticket, -, hlast, hticket, -⟩ := hswaps.activation
    obtain ⟨hactive, hactiveEpoch⟩ := huntouched.resolve_right fun hnone => by
      rw [hnone last hlast] at hticket
      cases hticket
    have hkeeps := hends.keeps
    refine ⟨hactive.trans hkeeps.active, (hactiveEpoch.trans hkeeps.activeEpoch).trans hepoch, ?_⟩
    rw [← hkeeps.active, ← hactive]
    exact hswaps.retired

/-- A prepared generation behind an activation that expects no active generation. -/
def waitingActivation : System :=
  mappingRegistry.after zeroDigest
    [.prepare (mappingCall 1 4096) ⟨true, true, true⟩, .activationCreate 0 none true]

def reservation : Action :=
  .prepareActivation 0 mappingContext mappingReceipt ⟨0, 0, Framework.epochPerfcache, 0, 0⟩ true

theorem activation_compare_and_swap_once : ∃ outcome s',
    waitingActivation.step zeroDigest reservation = .ok (outcome, s') ∧ outcome.registry = some .ok ∧
      ((s'.after zeroDigest [.collect, .commitActivation 0 0]).active = some 0) ∧
      ∃ activation, waitingActivation.activations.read 0 = some activation ∧
        waitingActivation.activeEpoch = activation.expectedEpoch := by
  have hrun : (waitingActivation.step zeroDigest reservation).toOption.map (fun result =>
      (result.1.registry, (result.2.after zeroDigest [.collect, .commitActivation 0 0]).active)) =
      some (some .ok, some 0) := by decide +kernel
  cases hstep : waitingActivation.step zeroDigest reservation with
  | error fault =>
    rw [hstep] at hrun
    cases hrun
  | ok result =>
    rw [hstep] at hrun
    obtain ⟨hok, hactive⟩ := Prod.mk.inj (Option.some.inj hrun)
    obtain ⟨activation, hread, hepoch, -⟩ :=
      (activation_compare_and_swap (reachable_after (.create _) _) hstep).2.2 0 _ _ _ _ rfl hok
    exact ⟨result.1, result.2, rfl, hok, hactive, activation, hread, hepoch⟩

end Laplace.Perfcache
