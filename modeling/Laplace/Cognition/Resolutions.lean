import Laplace.Cognition.Guidance
import Laplace.Lib.Outcome

/-!
# Sequences of resolutions (cognition_guidance_part00.inc, cognition_guidance_part01.inc)

A call of `apply_resolutions` writes into open obligations only and resolves each of them, so from
one state to the next every obligation makes progress or stays. The invariants of a sequence of
calls follow from that and from what `BuildState` accepts.
-/

namespace Laplace.Cognition

variable {blake3 : Blake3}

/-! ## Accepted states -/

/-- A state that `BuildState` gives. -/
def Accepted (blake3 : Blake3) (state : GuidanceState) : Prop :=
  ∃ sort header obligations memory, buildState blake3 sort header obligations memory = .ok state

/-- What `BuildState` checks. -/
structure Formed (blake3 : Blake3) (state : GuidanceState) : Prop where
  header : headerValid state.header = true
  nonempty : state.obligations ≠ []
  valid : ∀ obligation ∈ state.obligations, obligationValid obligation = true
  matching : ∀ obligation ∈ state.obligations, obligationMatches state.header obligation = true
  increasing : state.obligations.Pairwise fun a b => obligationKey a < obligationKey b
  stateId : state.stateId = identifyState blake3 state.header state.obligations

variable {state : GuidanceState}

theorem formed_of_buildState {sort : Sorting obligationKey} {header : Header}
    {obligations : List Obligation} {memory : Bool}
    (h : buildState blake3 sort header obligations memory = .ok state) : Formed blake3 state := by
  unfold buildState at h
  split at h
  · cases h
  · rename_i hheader
    rw [not_or, Bool.not_eq_true, Bool.not_eq_false'] at hheader
    split at h
    · cases h
    · split at h
      · cases h
      · rename_i hvalid
        rw [Bool.not_eq_true, Bool.not_eq_false', List.all_eq_true] at hvalid
        dsimp only at h
        split at h
        · cases h
        · rename_i hrepeats
          cases h
          have hmem := fun obligation (hmem : obligation ∈ sort.sort obligations) =>
            Bool.and_eq_true_iff.1 (hvalid obligation ((sort.perm obligations).mem_iff.1 hmem))
          refine ⟨hheader.1, fun hnil => hheader.2 ?_, fun obligation h => (hmem obligation h).1,
            fun obligation h => (hmem obligation h).2,
            increasing_of_repeats (sort.sorted obligations) (Bool.not_eq_true _ ▸ hrepeats), rfl⟩
          exact List.nil_perm.1 (hnil ▸ sort.perm obligations)

theorem Formed.buildState_eq (h : Formed blake3 state) (sort : Sorting obligationKey)
    (memory : Bool) :
    buildState blake3 sort state.header state.obligations memory =
      if memory then .ok state else .error .memoryFailure := by
  have hvalid : (state.obligations.all fun obligation =>
      obligationValid obligation && obligationMatches state.header obligation) = true :=
    List.all_eq_true.2 fun obligation hmem =>
      Bool.and_eq_true_iff.2 ⟨h.valid obligation hmem, h.matching obligation hmem⟩
  unfold buildState
  rw [if_neg (by simp [h.header, h.nonempty])]
  cases memory
  · rfl
  · have hrepeats : repeats obligationKey state.obligations = false :=
      repeats_of_nodup (nodup_of_increasing h.increasing)
    simp [hvalid, sort.sort_increasing h.increasing, hrepeats, ← h.stateId]

theorem accepted_iff : Accepted blake3 state ↔ Formed blake3 state := by
  refine ⟨fun ⟨_, _, _, _, h⟩ => formed_of_buildState h, fun h => ?_⟩
  exact ⟨.stable obligationKey, state.header, state.obligations, true, h.buildState_eq _ true⟩

/-! ## One obligation -/

/-- How an obligation changes over calls: its value, receipt and disposition are written, and only
while it is open. -/
structure Progress (before after : Obligation) : Prop where
  same : after = { before with
    valueId := after.valueId
    resolutionReceiptId := after.resolutionReceiptId
    disposition := after.disposition }
  kept : before.disposition ≠ obligationOpen → after = before

namespace Progress

theorem refl (obligation : Obligation) : Progress obligation obligation := ⟨rfl, fun _ => rfl⟩

variable {a b : Obligation}

theorem trans {c : Obligation} (hab : Progress a b) (hbc : Progress b c) : Progress a c where
  same := by rw [hbc.same, hab.same]
  kept hnot := by
    have heq := hab.kept hnot
    subst heq
    exact hbc.kept hnot

theorem obligationId (h : Progress a b) : b.obligationId = a.obligationId := by
  rw [h.same]

theorem key (h : Progress a b) : obligationKey b = obligationKey a :=
  congrArg BitVec.toNat h.obligationId

theorem matches_eq (h : Progress a b) (header : Header) :
    obligationMatches header b = obligationMatches header a := by
  rw [h.same]
  rfl

end Progress

variable {obligation : Obligation}

theorem resolve_progress (resolution : Resolution) (h : obligation.disposition = obligationOpen) :
    Progress obligation (resolve resolution obligation) :=
  ⟨rfl, fun hnot => absurd h hnot⟩

theorem typedUnresolved_of_valid {disposition : UInt32} (h : dispositionValid disposition = true)
    (hopen : disposition ≠ obligationOpen) (hsatisfied : disposition ≠ obligationSatisfied) :
    typedUnresolved disposition = true := by
  unfold dispositionValid at h
  unfold typedUnresolved
  simp only [obligationOpen, obligationSatisfied, obligationUnsupported, obligationUnknown, ne_eq,
    ← UInt32.toNat_inj, ge_iff_le, UInt32.le_iff_toNat_le, decide_eq_true_eq] at h hopen hsatisfied ⊢
  simp only [UInt32.toNat_ofNat] at h hopen hsatisfied ⊢
  omega

variable {resolution : Resolution}

theorem resolve_valid (hresolution : resolutionValid resolution = true)
    (hvalid : obligationValid obligation = true) :
    obligationValid (resolve resolution obligation) = true := by
  unfold resolutionValid at hresolution
  unfold obligationValid at hvalid
  rw [decide_eq_true_eq] at hresolution
  obtain ⟨-, hreceipt, -, hopen, hdisposition, hvalue⟩ := hresolution
  split at hvalid
  · cases hvalid
  · rename_i hfields
    simp only [not_or] at hfields
    obtain ⟨h1, h2, h3, h4, h5, h6, h7, h8, h9, -, h11, h12⟩ := hfields
    unfold obligationValid
    rw [if_neg]
    · rw [if_neg (show (resolve resolution obligation).disposition ≠ obligationOpen from hopen),
        if_neg (show (resolve resolution obligation).resolutionReceiptId ≠ 0 from hreceipt)]
      split
      · rename_i hsatisfied
        exact decide_eq_true fun hzero => hvalue ⟨hsatisfied, hzero⟩
      · rename_i hnot
        exact typedUnresolved_of_valid hdisposition hopen hnot
    · simp only [not_or]
      exact ⟨h1, h2, h3, h4, h5, h6, h7, h8, h9, by simpa [resolve] using hdisposition, h11, h12⟩

/-! ## All obligations -/

theorem progress_refl (obligations : List Obligation) :
    List.Forall₂ Progress obligations obligations :=
  List.forall₂_same.2 fun obligation _ => .refl obligation

theorem progress_trans : ∀ {a b c : List Obligation}, List.Forall₂ Progress a b →
    List.Forall₂ Progress b c → List.Forall₂ Progress a c
  | _, _, _, .nil, .nil => .nil
  | _, _, _, .cons hab htail, .cons hbc htail' => .cons (hab.trans hbc) (progress_trans htail htail')

variable {before after : List Obligation}

theorem progress_keys (h : List.Forall₂ Progress before after) :
    after.map obligationKey = before.map obligationKey := by
  induction h with
  | nil => rfl
  | cons hprogress _ ih => rw [List.map_cons, List.map_cons, hprogress.key, ih]

theorem progress_matching {header : Header} (h : List.Forall₂ Progress before after)
    (hmatching : ∀ obligation ∈ before, obligationMatches header obligation = true) :
    ∀ obligation ∈ after, obligationMatches header obligation = true := by
  induction h with
  | nil => exact hmatching
  | cons hprogress _ ih =>
    rw [List.forall_mem_cons] at hmatching ⊢
    exact ⟨(hprogress.matches_eq header).trans hmatching.1, ih hmatching.2⟩

/-- What a batch of resolutions does to the obligations. -/
structure Resolved (resolutions : List Resolution) (before after : List Obligation) : Prop where
  progress : List.Forall₂ Progress before after
  valid : (∀ obligation ∈ before, obligationValid obligation = true) →
    ∀ obligation ∈ after, obligationValid obligation = true
  openCount : openCount after + resolutions.length = openCount before

variable {updated : List Obligation}

theorem applyResolution_split {updated' : List Obligation}
    (h : applyResolution updated resolution = .ok updated') :
    ∃ before found after, updated = before ++ found :: after ∧
      found.obligationId = resolution.obligationId ∧ found.disposition = obligationOpen ∧
      updated' = before ++ resolve resolution found :: after := by
  unfold applyResolution at h
  dsimp only at h
  split at h
  · cases h
  · rename_i found hfound
    obtain ⟨before, after, heq, hlength⟩ := split_of_lowerBound hfound
    split at h
    · cases h
    · rename_i hid
      split at h
      · cases h
      · rename_i hopen
        refine ⟨before, found, after, heq, not_not.1 hid, not_not.1 hopen, ?_⟩
        rw [← hlength] at h
        cases h
        rw [heq, List.set_append_right _ _ le_rfl, Nat.sub_self, List.set_cons_zero]

theorem applyResolution_resolved {updated' : List Obligation}
    (hresolution : resolutionValid resolution = true)
    (h : applyResolution updated resolution = .ok updated') :
    Resolved [resolution] updated updated' := by
  obtain ⟨before, found, after, rfl, -, hopen, rfl⟩ := applyResolution_split h
  refine ⟨List.rel_append (progress_refl before)
    (.cons (resolve_progress resolution hopen) (progress_refl after)), fun hvalid => ?_, ?_⟩
  · rw [List.forall_mem_append, List.forall_mem_cons] at hvalid ⊢
    exact ⟨hvalid.1, resolve_valid hresolution hvalid.2.1, hvalid.2.2⟩
  · have hclosed : (resolve resolution found).disposition ≠ obligationOpen := by
      unfold resolutionValid at hresolution
      exact (of_decide_eq_true hresolution).2.2.2.1
    simp only [openCount, List.countP_append, List.countP_cons, hopen, hclosed, decide_true,
      decide_false, List.length_singleton]
    simp
    omega

theorem resolved_of_foldlM : ∀ {resolutions : List Resolution} {before after : List Obligation},
    (∀ resolution ∈ resolutions, resolutionValid resolution = true) →
    resolutions.foldlM applyResolution before = .ok after → Resolved resolutions before after
  | [], _, _, _, h => by
    cases h
    exact ⟨progress_refl _, id, rfl⟩
  | resolution :: resolutions, before, after, hvalid, h => by
    rw [List.foldlM_cons] at h
    obtain ⟨hresolution, hvalid⟩ := List.forall_mem_cons.1 hvalid
    cases hstep : applyResolution before resolution with
    | error status => rw [hstep] at h; cases h
    | ok middle =>
      rw [hstep] at h
      have hfirst := applyResolution_resolved hresolution hstep
      have hrest := resolved_of_foldlM hvalid h
      refine ⟨progress_trans hfirst.progress hrest.progress, hrest.valid ∘ hfirst.valid, ?_⟩
      have := hfirst.openCount
      have := hrest.openCount
      simp only [List.length_cons, List.length_nil] at *
      omega

theorem Formed.of_resolved (h : Formed blake3 state) {resolutions : List Resolution}
    (hresolved : Resolved resolutions state.obligations updated) :
    Formed blake3 ⟨state.header, identifyState blake3 state.header updated, updated⟩ where
  header := h.header
  nonempty hnil := h.nonempty (List.length_eq_zero_iff.1
    (hresolved.progress.length_eq.trans (List.length_eq_zero_iff.2 hnil)))
  valid := hresolved.valid h.valid
  matching := progress_matching hresolved.progress h.matching
  increasing := by
    have hkeys : (updated.map obligationKey).Pairwise (· < ·) := by
      rw [progress_keys hresolved.progress, List.pairwise_map]
      exact h.increasing
    exact List.pairwise_map.1 hkeys
  stateId := rfl

/-! ## Completion -/

theorem completion_blocked_iff :
    (completion state).1 = completionBlocked ↔
      ∃ obligation ∈ state.obligations, requirement obligation = .blocked := by
  have hpos := @List.countP_pos_iff _ state.obligations
    fun obligation => decide (requirement obligation = .blocked)
  simp only [decide_eq_true_eq] at hpos
  rw [← hpos, Nat.pos_iff_ne_zero]
  unfold completion
  dsimp only
  split
  · rename_i hblocked
    exact iff_of_true rfl hblocked
  · rename_i hblocked
    refine iff_of_false (fun heq => ?_) hblocked
    split at heq <;> cases heq

theorem requirement_blocked_closed (h : requirement obligation = .blocked) :
    obligation.disposition ≠ obligationOpen := by
  intro hopen
  unfold requirement at h
  rw [hopen] at h
  split at h
  · cases h
  · cases h

theorem blocked_of_progress (h : List.Forall₂ Progress before after)
    (hblocked : ∃ obligation ∈ before, requirement obligation = .blocked) :
    ∃ obligation ∈ after, requirement obligation = .blocked := by
  induction h with
  | nil => exact hblocked
  | cons hhead _ ih =>
    simp only [List.exists_mem_cons_iff] at hblocked ⊢
    rcases hblocked with hblocked | hblocked
    · exact .inl ((hhead.kept (requirement_blocked_closed hblocked)).symm ▸ hblocked)
    · exact .inr (ih hblocked)

/-! ## Checking a batch -/

theorem checkResolutions_eq_ok : ∀ {previous : Option Resolution} {resolutions : List Resolution},
    checkResolutions previous resolutions = .ok () →
    (∀ resolution ∈ resolutions, resolutionValid resolution = true) ∧
      repeats resolutionKey (previous.toList ++ resolutions) = false
  | none, [], _ => ⟨by simp, rfl⟩
  | some _, [], _ => ⟨by simp, rfl⟩
  | previous, resolution :: resolutions, h => by
    unfold checkResolutions at h
    split at h
    · cases h
    · rename_i hvalid
      rw [Bool.not_eq_true, Bool.not_eq_false'] at hvalid
      split at h
      · cases h
      · rename_i hprevious
        obtain ⟨hrest, hrepeats⟩ := checkResolutions_eq_ok h
        refine ⟨List.forall_mem_cons.2 ⟨hvalid, hrest⟩, ?_⟩
        cases previous with
        | none => exact hrepeats
        | some previous =>
          have hne : resolutionKey previous ≠ resolutionKey resolution := fun heq =>
            hprevious (decide_eq_true (BitVec.eq_of_toNat_eq heq))
          exact Bool.or_eq_false_iff.2 ⟨decide_eq_false hne, hrepeats⟩

theorem checkResolutions_status : ∀ (previous : Option Resolution) (resolutions : List Resolution),
    Outcome (checkResolutions previous resolutions) (fun _ => True)
      fun status => status = .stateInvalid ∨ status = .duplicate
  | _, [] => trivial
  | _, _ :: resolutions => .refuse (.inl rfl) (.refuse (.inr rfl) (checkResolutions_status _ resolutions))

theorem applyResolution_status (updated : List Obligation) (resolution : Resolution) :
    Outcome (applyResolution updated resolution) (fun _ => True) (· ≠ .ok) := by
  unfold applyResolution
  dsimp only
  split
  · nofun
  · exact .refuse nofun (.refuse nofun trivial)

theorem resolutionKeys_nodup_iff {resolutions : List Resolution} :
    (resolutions.map resolutionKey).Nodup ↔ (resolutions.map Resolution.obligationId).Nodup := by
  have hkeys : resolutions.map resolutionKey =
      (resolutions.map Resolution.obligationId).map BitVec.toNat := (List.map_map ..).symm
  rw [hkeys]
  exact List.nodup_map_iff fun a b => BitVec.eq_of_toNat_eq

/-! ## One call -/

section Call

variable (sortResolutions : Sorting resolutionKey) (sort : Sorting obligationKey)
  {state : GuidanceState}

/-- A call succeeds with a next state, or it fails and gives back nothing. -/
inductive Answered (blake3 : Blake3) (state : GuidanceState)
    (resolutions : List Resolution) (result : Applied) : Prop
  | failed (status : result.status ≠ .ok) (nextState : result.nextState = none)
      (receipt : result.receipt = {})
  | resolved (next : GuidanceState) (status : result.status = .ok)
      (nextState : result.nextState = some next) (header : next.header = state.header)
      (formed : Formed blake3 next)
      (batch : Resolved resolutions state.obligations next.obligations)
      (priorStateId : result.receipt.priorStateId = state.stateId)
      (nextStateId : result.receipt.nextStateId = next.stateId)

variable {resolutions : List Resolution}

theorem Resolved.of_length_eq {resolutions' : List Resolution} {before after : List Obligation}
    (h : Resolved resolutions before after) (hlength : resolutions.length = resolutions'.length) :
    Resolved resolutions' before after :=
  ⟨h.progress, h.valid, hlength ▸ h.openCount⟩

theorem applyResolutions_answered (hstate : Formed blake3 state) (resolutions : List Resolution)
    (memory : ApplyMemory) :
    Answered blake3 state resolutions
      (applyResolutions blake3 sortResolutions sort state resolutions memory) := by
  unfold applyResolutions
  split
  · exact .failed nofun rfl rfl
  · split
    · exact .failed nofun rfl rfl
    · dsimp only
      split
      · rename_i status hcheck
        refine .failed (fun hok => ?_) rfl rfl
        subst hok
        rcases (checkResolutions_status _ _).of_error hcheck with h | h <;> cases h
      · rename_i hcheck
        split
        · exact .failed nofun rfl rfl
        · split
          · rename_i status hfold
            exact .failed ((Outcome.foldlM applyResolution_status _ _).of_error hfold) rfl rfl
          · rename_i updated hfold
            have hbatch := (resolved_of_foldlM (checkResolutions_eq_ok hcheck).1 hfold).of_length_eq
              (sortResolutions.perm resolutions).length_eq
            have hformed := hstate.of_resolved hbatch
            have hbuild : buildState blake3 sort state.header updated memory.state = _ :=
              hformed.buildState_eq sort memory.state
            rw [hbuild]
            cases memory.state with
            | false => exact .failed nofun rfl rfl
            | true => exact .resolved _ rfl rfl rfl hformed hbatch rfl rfl

/-! ## The order of a batch -/

theorem buildState_congr (s t : Sorting obligationKey) (header : Header)
    (obligations : List Obligation) (memory : Bool) :
    buildState blake3 s header obligations memory = buildState blake3 t header obligations memory := by
  unfold buildState
  by_cases hnodup : (obligations.map obligationKey).Nodup
  · rw [Sorting.sort_congr s t (.refl obligations) hnodup]
  · have hrepeats := fun u : Sorting obligationKey =>
      Bool.eq_true_of_not_eq_false fun h => hnodup (u.repeats_eq_false_iff.1 h)
    simp only [hrepeats s, hrepeats t, if_true]

variable (blake3 state)

theorem applyResolutions_congr (s : Sorting resolutionKey) (t : Sorting obligationKey)
    {resolutions' : List Resolution} (hperm : resolutions.Perm resolutions')
    (hnodup : (resolutions.map resolutionKey).Nodup) (memory : ApplyMemory) :
    applyResolutions blake3 s t state resolutions' memory =
      applyResolutions blake3 sortResolutions sort state resolutions memory := by
  unfold applyResolutions
  rw [← Sorting.sort_congr sortResolutions s hperm hnodup, hperm.length_eq]
  simp only [buildState_congr t sort, ← List.length_eq_zero_iff, hperm.length_eq]

theorem applyResolutions_of_repeated (hrepeated : ¬ (resolutions.map resolutionKey).Nodup)
    (memory : ApplyMemory) :
    ∃ status, applyResolutions blake3 sortResolutions sort state resolutions memory = { status } ∧
      status ≠ .ok ∧ (memory.ordered → status = .stateInvalid ∨ status = .duplicate) := by
  unfold applyResolutions
  rw [if_neg (by rintro rfl; exact hrepeated List.nodup_nil)]
  split
  · rename_i hmemory
    exact ⟨_, rfl, nofun, fun h => by rw [h] at hmemory; cases hmemory⟩
  · dsimp only
    split
    · rename_i status hcheck
      have hstatus := (checkResolutions_status _ _).of_error hcheck
      refine ⟨status, rfl, ?_, fun _ => hstatus⟩
      rcases hstatus with rfl | rfl
      · exact nofun
      · exact nofun
    · rename_i hcheck
      exact absurd (sortResolutions.repeats_eq_false_iff.1 (checkResolutions_eq_ok hcheck).2) hrepeated

end Call

/-! ## Sequences of calls -/

/-- The arguments of a call, and what memory it finds. -/
structure Call where
  resolutions : List Resolution
  memory : ApplyMemory

section Runs

variable (blake3) (sortResolutions : Sorting resolutionKey) (sort : Sorting obligationKey)

/-- The state that a caller holds after a call: the next state, if there is one. -/
def applyCall (state : GuidanceState) (call : Call) : GuidanceState :=
  let applied := applyResolutions blake3 sortResolutions sort state call.resolutions call.memory
  applied.nextState.getD state

def applyCalls (state : GuidanceState) (calls : List Call) : GuidanceState :=
  calls.foldl (applyCall blake3 sortResolutions sort) state

/-- What holds between the state before and the state after any number of calls. -/
structure Advanced (blake3 : Blake3) (before after : GuidanceState) : Prop where
  formed : Formed blake3 after
  header : after.header = before.header
  progress : List.Forall₂ Progress before.obligations after.obligations

variable {blake3}

theorem applyCall_advanced {state : GuidanceState} (h : Formed blake3 state) (call : Call) :
    Advanced blake3 state (applyCall blake3 sortResolutions sort state call) := by
  unfold applyCall
  dsimp only
  cases applyResolutions_answered sortResolutions sort h call.resolutions call.memory with
  | failed _ hnext =>
    rw [hnext]
    exact ⟨h, rfl, progress_refl state.obligations⟩
  | resolved next _ hnext hheader hformed hbatch =>
    rw [hnext]
    exact ⟨hformed, hheader, hbatch.progress⟩

theorem applyCalls_advanced : ∀ (calls : List Call) {state : GuidanceState}, Formed blake3 state →
    Advanced blake3 state (applyCalls blake3 sortResolutions sort state calls)
  | [], state, h => ⟨h, rfl, progress_refl state.obligations⟩
  | call :: calls, state, h => by
    have hcall := applyCall_advanced sortResolutions sort h call
    have hcalls := applyCalls_advanced calls hcall.formed
    exact ⟨hcalls.formed, hcalls.header.trans hcall.header,
      progress_trans hcall.progress hcalls.progress⟩

end Runs

/-- Over every sequence of calls on an accepted state the obligations stay the same, resolved ones
do not change and a blocked completion stays. Every call resolves as many open obligations as its
batch has resolutions, or it gives back nothing. The next state and the receipt do not depend on
the order of the batch, and the status only where the batch names an obligation twice. -/
theorem guidance_runs (blake3 : Blake3) (sortResolutions : Sorting resolutionKey)
    (sort : Sorting obligationKey) {state : GuidanceState} (haccepted : Accepted blake3 state)
    (calls : List Call) :
    let reached := applyCalls blake3 sortResolutions sort state calls
    Accepted blake3 reached ∧ stateClone blake3 sort reached true = .ok reached ∧
    reached.header = state.header ∧ List.Forall₂ Progress state.obligations reached.obligations ∧
    (∀ later,
      let last := applyCalls blake3 sortResolutions sort reached later
      List.Forall₂ Progress reached.obligations last.obligations ∧
      ((completion reached).1 = completionBlocked → (completion last).1 = completionBlocked)) ∧
    ∀ resolutions memory,
      let result := applyResolutions blake3 sortResolutions sort reached resolutions memory
      ((result.status ≠ .ok ∧ result.nextState = none ∧ result.receipt = {}) ∨
        ∃ next, result.status = .ok ∧ result.nextState = some next ∧ Accepted blake3 next ∧
          openCount next.obligations + resolutions.length = openCount reached.obligations) ∧
      ∀ (s : Sorting resolutionKey) (t : Sorting obligationKey) (reordered : List Resolution),
        resolutions.Perm reordered →
        let other := applyResolutions blake3 s t reached reordered memory
        other.nextState = result.nextState ∧ other.receipt = result.receipt ∧
        ((resolutions.map Resolution.obligationId).Nodup → other.status = result.status) ∧
        (¬ (resolutions.map Resolution.obligationId).Nodup → other.status ≠ .ok ∧
          (memory.ordered → other.status = .stateInvalid ∨ other.status = .duplicate)) := by
  intro reached
  have hreached := applyCalls_advanced sortResolutions sort calls (accepted_iff.1 haccepted)
  refine ⟨accepted_iff.2 hreached.formed, hreached.formed.buildState_eq sort true, hreached.header,
    hreached.progress, fun later => ?_, fun resolutions memory => ⟨?_, ?_⟩⟩
  · have hlast := applyCalls_advanced sortResolutions sort later hreached.formed
    refine ⟨hlast.progress, fun hblocked => ?_⟩
    rw [completion_blocked_iff] at hblocked ⊢
    exact blocked_of_progress hlast.progress hblocked
  · cases applyResolutions_answered sortResolutions sort hreached.formed resolutions memory with
    | failed hstatus hnext hreceipt => exact .inl ⟨hstatus, hnext, hreceipt⟩
    | resolved next hstatus hnext _ hformed hbatch =>
      exact .inr ⟨next, hstatus, hnext, accepted_iff.2 hformed, hbatch.openCount⟩
  · intro s t reordered hperm
    rw [← resolutionKeys_nodup_iff]
    by_cases hnodup : (resolutions.map resolutionKey).Nodup
    · have heq := applyResolutions_congr blake3 sortResolutions sort reached s t hperm hnodup memory
      exact ⟨congrArg Applied.nextState heq, congrArg Applied.receipt heq,
        fun _ => congrArg Applied.status heq, fun hnot => absurd hnodup hnot⟩
    · have hnodup' : ¬ (reordered.map resolutionKey).Nodup := fun h =>
        hnodup ((hperm.map resolutionKey).nodup_iff.2 h)
      obtain ⟨status, heq, -⟩ :=
        applyResolutions_of_repeated blake3 sortResolutions sort reached hnodup memory
      obtain ⟨other, heq', hother⟩ := applyResolutions_of_repeated blake3 s t reached hnodup' memory
      dsimp only
      rw [heq, heq']
      exact ⟨rfl, rfl, fun h => absurd h hnodup, fun _ => hother⟩

section

/-- A header whose fields are all there. -/
def soloHeader : Header := ⟨1, 1, 1, 1, 1, 1, 1, 1, 1, 1, guidanceVersion, 0⟩

def soloObligation : Obligation :=
  ⟨1, 0, 1, 1, 1, 1, 1, 1, 1, 0, 1, obligationOpen, obligationRequired, 0⟩

/-- One open obligation. -/
def soloState : GuidanceState := ⟨soloHeader, 0, [soloObligation]⟩

def soloAnswer : Resolution := ⟨1, 1, 1, obligationSatisfied, 0⟩

/-- A resolution without its receipt. -/
def soloBlank : Resolution := { soloAnswer with receiptId := 0 }

theorem soloState_accepted : Accepted (fun _ => 0) soloState :=
  accepted_iff.2
    { header := by decide
      nonempty := by decide
      valid := by decide
      matching := by decide
      increasing := List.pairwise_singleton _ _
      stateId := rfl }

def pairObligations : List Obligation := [soloObligation, { soloObligation with obligationId := 2 }]

/-- Two open obligations. -/
def pairState : GuidanceState :=
  ⟨soloHeader, identifyState digits soloHeader pairObligations, pairObligations⟩

theorem pairState_accepted : Accepted digits pairState :=
  accepted_iff.2
    { header := by decide
      nonempty := by decide
      valid := by decide
      matching := by decide
      increasing := by decide
      stateId := rfl }

/-- The state after answers to both obligations, the second one first. -/
def pairReached : GuidanceState :=
  applyCalls digits (.insertion _) (.insertion _) pairState
    [⟨[{ soloAnswer with obligationId := 2 }, soloAnswer], ⟨true, true, true⟩⟩]

theorem guidance_runs_pair : Accepted digits pairReached ∧
    List.Forall₂ Progress pairState.obligations pairReached.obligations ∧
    openCount pairReached.obligations = 0 ∧ (completion pairReached).1 = completionComplete := by
  obtain ⟨haccepted, -, -, hprogress, -⟩ := guidance_runs digits (.insertion resolutionKey)
    (.insertion obligationKey) pairState_accepted
    [⟨[{ soloAnswer with obligationId := 2 }, soloAnswer], ⟨true, true, true⟩⟩]
  exact ⟨haccepted, hprogress, by decide +kernel, by decide +kernel⟩

/-- Two answers to one obligation and a blank one: the status tells which of them the sort left in
front. -/
theorem applyResolutions_order :
    Accepted (fun _ => 0) soloState ∧
    [soloAnswer, soloAnswer, soloBlank].Perm [soloBlank, soloAnswer, soloAnswer] ∧
    (applyResolutions (fun _ => 0) (.stable resolutionKey) (.stable obligationKey) soloState
      [soloAnswer, soloAnswer, soloBlank] ⟨true, true, true⟩).status = .duplicate ∧
    (applyResolutions (fun _ => 0) (.stable resolutionKey) (.stable obligationKey) soloState
      [soloBlank, soloAnswer, soloAnswer] ⟨true, true, true⟩).status = .stateInvalid := by
  refine ⟨soloState_accepted, by decide, ?_, ?_⟩
  · unfold applyResolutions
    rw [Sorting.stable_sort (by decide)]
    rfl
  · unfold applyResolutions
    rw [Sorting.stable_sort (by decide)]
    rfl

end

end Laplace.Cognition
