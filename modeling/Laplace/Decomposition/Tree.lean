import Laplace.Decomposition.Run
import Laplace.Lib.Checked

/-!
# The spans of a decomposition form a tree (decomposition.cpp:207-535)

`Emit` and `EmitEvent` look the parent up and check the new span against it, so every published
span hangs below an earlier one. A task is queued only with a new span, so there are at most as many
tasks as spans.
-/

namespace Laplace.Decomposition

open Program

/-! ## Trees -/

/-- What `Emit` and `EmitEvent` check of a span against its parent. -/
structure Below (input : Input) (parent child : Span) : Prop where
  byteStart : parent.byteStart ≤ child.byteStart
  byteEnd : child.byteEnd ≤ parent.byteEnd
  ordered : child.byteStart ≤ child.byteEnd
  missing : child.byteStart = child.byteEnd → child.syntaxFlags &&& missingSyntaxFlag ≠ 0
  depth : child.depth.toNat = parent.depth.toNat + 1
  maximumDepth : child.depth ≤ input.maximumDepth

/-- Spans that grow below the span of the whole content. -/
inductive Tree (input : Input) : List Span → Prop
  | root : Tree input [rootSpan input]
  | child {spans : List Span} {parent child : Span} (tree : Tree input spans)
      (lookup : spans[child.parentSpanIndex.toNat]? = some parent)
      (below : Below input parent child) : Tree input (spans ++ [child])

variable {input : Input}

variable {spans : List Span}

theorem Tree.root_eq (h : Tree input spans) :
    spans[0]? = some (rootSpan input) := by
  induction h with
  | root => rfl
  | child _ _ _ ih =>
    rw [List.getElem?_append_left (List.getElem?_eq_some_iff.1 ih).1]
    exact ih

theorem Tree.parent_before (h : Tree input spans) {index : ℕ} {span : Span}
    (hspan : spans[index]? = some span) (hindex : index ≠ 0) :
    ∃ parent, span.parentSpanIndex.toNat < index ∧
      spans[span.parentSpanIndex.toNat]? = some parent ∧ Below input parent span := by
  induction h with
  | root =>
    obtain ⟨hlt, -⟩ := List.getElem?_eq_some_iff.1 hspan
    rw [List.length_singleton] at hlt
    omega
  | @child spans parent child _ hlookup hbelow ih =>
    have hlength := (List.getElem?_eq_some_iff.1 hlookup).1
    by_cases hlt : index < spans.length
    · rw [List.getElem?_append_left hlt] at hspan
      obtain ⟨parent, hless, hparent, hbelow⟩ := ih hspan
      exact ⟨parent, hless, by rwa [List.getElem?_append_left (hless.trans hlt)], hbelow⟩
    · obtain ⟨hbound, -⟩ := List.getElem?_eq_some_iff.1 hspan
      rw [List.length_append, List.length_singleton] at hbound
      have hlast : index = spans.length := by omega
      rw [hlast, List.getElem?_concat_length] at hspan
      cases hspan
      rw [hlast]
      exact ⟨parent, hlength, by rwa [List.getElem?_append_left hlength], hbelow⟩

/-! ## What is accepted -/

/-- The key under which `Emit` remembers a span. -/
def Span.legacyKey (span : Span) (providerIndex : UInt64) : LegacyEmittedKey :=
  ⟨span.parentSpanIndex, providerIndex, span.byteStart, span.byteEnd, span.kind⟩

/-- The key under which `EmitEvent` remembers a span. -/
def Span.structuredKey (span : Span) (providerIndex : UInt64) : StructuredEmittedKey :=
  ⟨span.parentSpanIndex, providerIndex, span.byteStart, span.byteEnd, span.kind, span.grammarKind,
    span.fieldKind, span.siblingOrdinal, span.flags, span.syntaxFlags⟩

/-- An accepted emission is one of the spans, and an accepted event is the span of its index. -/
structure Published (emitted : List LegacyEmittedKey)
    (structured : List (StructuredEmittedKey × UInt64)) (spans : List Span) : Prop where
  emitted : ∀ key ∈ emitted, ∃ span ∈ spans, span.legacyKey key.providerIndex = key
  structured : ∀ entry ∈ structured, ∃ span, spans[entry.2.toNat]? = some span ∧
    span.structuredKey entry.1.providerIndex = entry.1

section Published

variable {emitted : List LegacyEmittedKey} {structured : List (StructuredEmittedKey × UInt64)}

theorem Published.append (h : Published emitted structured spans) (span : Span) :
    Published emitted structured (spans ++ [span]) where
  emitted key hkey := by
    obtain ⟨other, hother, heq⟩ := h.emitted key hkey
    exact ⟨other, List.mem_append_left _ hother, heq⟩
  structured entry hentry := by
    obtain ⟨other, hother, heq⟩ := h.structured entry hentry
    refine ⟨other, ?_, heq⟩
    rw [List.getElem?_append_left (List.getElem?_eq_some_iff.1 hother).1, hother]

variable {span : Span}

theorem Published.emit (h : Published emitted structured spans) {key : LegacyEmittedKey}
    (hkey : span.legacyKey key.providerIndex = key) :
    Published (key :: emitted) structured (spans ++ [span]) where
  emitted := List.forall_mem_cons.2
    ⟨⟨span, List.mem_append_right _ (List.mem_singleton_self span), hkey⟩, (h.append span).emitted⟩
  structured := (h.append span).structured

theorem Published.emitEvent (h : Published emitted structured spans) {key : StructuredEmittedKey}
    (hkey : span.structuredKey key.providerIndex = key) (hlength : spans.length < 2 ^ 64) :
    Published emitted ((key, UInt64.ofNat spans.length) :: structured) (spans ++ [span]) where
  emitted := (h.append span).emitted
  structured := List.forall_mem_cons.2
    ⟨⟨span, by rw [Checked.toNat_ofNat hlength, List.getElem?_concat_length], hkey⟩,
      (h.append span).structured⟩

end Published

/-! ## The invariant -/

/-- The invariant of a run; `bound` is how many tasks may still come. -/
structure Sound (input : Input) (bound : ℕ) (machine : Machine) : Prop where
  tree : Tree input machine.spans
  count : machine.spans.length ≤ input.maximumSpans.toNat
  tasks : machine.queue.length + (input.maximumSpans.toNat - machine.spans.length) ≤ bound

theorem Sound.mono {bound bound' : ℕ} {machine : Machine} (h : Sound input bound machine)
    (hle : bound ≤ bound') : Sound input bound' machine :=
  ⟨h.tree, h.count, h.tasks.trans hle⟩

/-- Sound, with the spans and the keys of `origin`. -/
structure Stands (input : Input) (bound : ℕ) (origin machine : Machine) : Prop extends
    Sound input bound machine where
  spans_eq : machine.spans = origin.spans
  emitted_eq : machine.emitted = origin.emitted
  structured_eq : machine.structuredEmitted = origin.structuredEmitted

/-- Sound, and whatever was accepted is published. -/
structure Complete (input : Input) (bound : ℕ) (machine : Machine) : Prop extends
    Sound input bound machine where
  published : Published machine.emitted machine.structuredEmitted machine.spans

/-- A provider is applied, and all is published unless its call has failed. -/
structure Applying (input : Input) (bound : ℕ) (machine : Machine) : Prop extends
    Sound input bound machine where
  published : machine.context.status = .ok →
    Published machine.emitted machine.structuredEmitted machine.spans

/-- A property of the spans, the queue, the keys and the status of the call in progress. -/
def Framed (P : Machine → Prop) : Prop :=
  ∀ (machine : Machine) (mediaTypes : List (List UInt8)) (summary : Summary)
    (executions : List ExecutionKey) (context : ApplyContext) (tick : ℕ),
    context.status = machine.context.status → P machine →
      P { machine with mediaTypes, summary, executions, context, tick }

section Framed

variable {bound : ℕ}

theorem sound_framed : Framed (Sound input bound) :=
  fun _ _ _ _ _ _ _ h => ⟨h.tree, h.count, h.tasks⟩

theorem stands_framed (origin : Machine) : Framed (Stands input bound origin) :=
  fun _ _ _ _ _ _ hstatus h => ⟨sound_framed _ _ _ _ _ _ hstatus h.toSound, h.spans_eq,
    h.emitted_eq, h.structured_eq⟩

theorem complete_framed : Framed (Complete input bound) :=
  fun _ _ _ _ _ _ hstatus h => ⟨sound_framed _ _ _ _ _ _ hstatus h.toSound, h.published⟩

theorem applying_framed : Framed (Applying input bound) :=
  fun _ _ _ _ _ _ hstatus h => ⟨sound_framed _ _ _ _ _ _ hstatus h.toSound,
    fun hok => h.published (hstatus ▸ hok)⟩

end Framed

variable {ε : Type} {memory : ℕ → Bool} {P : Machine → Prop}

theorem allocate_meets (hP : Framed P) {error : ε} {ending : ε → Machine → Prop}
    (hending : ∀ machine, P machine → ending error machine) :
    Meets (allocate memory error) P (fun _ => P) ending := by
  refine .get_then fun machine => .modify_then P ?_ ?_
  · rintro next ⟨h, rfl⟩
    exact hP next _ _ _ _ _ rfl h
  · exact .ite (fun _ => .pure fun _ h => h) fun _ => .throw hending

theorem call_meets {α : Type} (hP : Framed P) (callback : ℕ → α) {ending : ε → Machine → Prop} :
    Meets (call callback) P (fun _ => P) ending := by
  refine .get_then fun machine => .modify_then P ?_ (.pure fun _ h => h)
  rintro next ⟨h, rfl⟩
  exact hP next _ _ _ _ _ rfl h

/-! ## Emitting -/

/-- What holds after an emission that does not succeed. -/
def Fails (input : Input) (bound : ℕ) (reason : EmitExit) (machine : Machine) : Prop :=
  Sound input bound machine ∧ reason ≠ .failed .ok

section Emit

variable {resolver : Option MediaResolver} {bound : ℕ} {origin : Machine}

theorem Stands.complete {machine : Machine} (h : Stands input bound origin machine)
    (hpublished : Published origin.emitted origin.structuredEmitted origin.spans) :
    Complete input bound machine :=
  ⟨h.toSound, by rwa [h.emitted_eq, h.structured_eq, h.spans_eq]⟩

theorem Sound.fails {machine : Machine} (h : Sound input bound machine) {reason : EmitExit}
    (hreason : reason ≠ .failed .ok := by simp) : Fails input bound reason machine := ⟨h, hreason⟩

theorem resolveChildMediaType_meets (parent span : Span) :
    Meets (resolveChildMediaType memory resolver parent span) (Stands input bound origin)
      (fun _ => Stands input bound origin) (Fails input bound) := by
  have hframed := @stands_framed input bound origin
  refine .get_then fun machine => .of_pre
    (.bind (allocate_meets hframed fun _ h => h.fails) fun _ => ?_) (fun _ h => h.1)
  cases resolver with
  | none => exact .pure fun _ h => h
  | some resolve =>
    refine .ite (fun _ => .pure fun _ h => h) fun _ => ?_
    refine .bind (call_meets hframed _) fun resolved => ?_
    refine .require_then (fun _ h hno => h.fails fun heq => hno (EmitExit.failed.inj heq)) fun _ => ?_
    refine .require_then (fun _ h _ => h.fails) fun _ => ?_
    split
    · exact .pure fun _ h => h
    · exact .bind (allocate_meets hframed fun _ h => h.fails) fun _ => .pure fun _ h => h

theorem redispatchSpan_meets (span : Span) (childMediaType : List UInt8) (spanIndex : UInt64) :
    Meets (redispatchSpan memory span childMediaType spanIndex) (Stands input bound origin)
      (fun _ => Stands input (bound + 1) origin) (Fails input (bound + 1)) := by
  have hmono {machine : Machine} (h : Stands input bound origin machine) :
      Stands input (bound + 1) origin machine :=
    ⟨h.toSound.mono (Nat.le_succ bound), h.spans_eq, h.emitted_eq, h.structured_eq⟩
  refine .ite (fun _ => ?_) fun _ => .pure fun _ h => hmono h
  refine .bind (allocate_meets (stands_framed origin) fun _ h => (hmono h).fails)
    fun _ => .modify fun machine h => ⟨⟨h.tree, h.count, ?_⟩, h.spans_eq, h.emitted_eq, h.structured_eq⟩
  have htasks := h.tasks
  simp only [List.length_append, List.length_singleton]
  omega

variable {parent : Span}

/-- The new span comes last, and nothing else changes. -/
theorem publishSpan_meets {span : Span} (hbelow : Below input parent span)
    (hlookup : origin.spans[span.parentSpanIndex.toNat]? = some parent)
    (childMediaType : List UInt8) :
    Meets (publishSpan memory input span childMediaType) (Stands input bound origin)
      (fun spanIndex machine => spanIndex = UInt64.ofNat origin.spans.length ∧
        Stands input bound { origin with spans := origin.spans ++ [span] } machine)
      (Fails input bound) := by
  refine .get_then fun machine => .require_then (fun _ h _ => h.1.fails) fun hroom => ?_
  rintro next ⟨h, rfl⟩
  rw [h.spans_eq] at hroom ⊢
  refine (?_ : Meets _ (Stands input bound origin) _ _) next h
  refine .bind (allocate_meets (stands_framed origin) fun _ h => h.fails) fun _ => ?_
  cases bound with
  | zero =>
    intro next h
    have htasks := h.tasks
    rw [h.spans_eq] at htasks
    omega
  | succ bound =>
    have hframed := @stands_framed input bound { origin with spans := origin.spans ++ [span] }
    refine .modify_then (Stands input bound { origin with spans := origin.spans ++ [span] })
      (fun next h => ⟨⟨?_, ?_, ?_⟩, ?_, h.emitted_eq, h.structured_eq⟩) ?_
    · exact h.tree.child (h.spans_eq ▸ hlookup) hbelow
    · rw [List.length_append, h.spans_eq]
      exact hroom
    · have htasks := h.tasks
      rw [h.spans_eq] at htasks
      simp only [List.length_append, List.length_singleton, h.spans_eq]
      omega
    · exact congrArg (· ++ [span]) h.spans_eq
    · refine .bind (allocate_meets hframed fun _ h => (h.mono (Nat.le_succ bound)).fails) fun _ => ?_
      refine .modify_then _ (fun next h => hframed next _ _ _ _ _ rfl h) ?_
      refine .bind (redispatchSpan_meets span childMediaType _) fun _ => ?_
      exact .modify_then _ (fun next h => stands_framed _ next _ _ _ _ _ rfl h)
        (.pure fun _ h => ⟨rfl, h⟩)

theorem succ_depth (h : parent.depth < input.maximumDepth) :
    (parent.depth + 1).toNat = parent.depth.toNat + 1 ∧ parent.depth + 1 ≤ input.maximumDepth := by
  have hmaximum := input.maximumDepth.toNat_lt
  rw [UInt32.lt_iff_toNat_lt] at h
  have heq : (parent.depth + 1).toNat = parent.depth.toNat + 1 := by
    rw [UInt32.toNat_add, UInt32.toNat_one, Nat.mod_eq_of_lt (by omega)]
  rw [UInt32.le_iff_toNat_le, heq]
  exact ⟨rfl, h⟩

/-- The key under which an emission is remembered. -/
def Emission.key (emission : Emission) (context : ApplyContext) : LegacyEmittedKey :=
  ⟨context.parentSpanIndex, context.providerIndex, emission.byteStart, emission.byteEnd,
    emission.kind⟩

variable {machine : Machine}

theorem emit_ends (h : Complete input bound machine) (emission : Emission) :
    Ends (emit memory resolver input emission) machine
      (fun _ next => Complete input bound next ∧ emission.key machine.context ∈ next.emitted)
      (Fails input bound) := by
  unfold emit
  simp only [ends_get_then, ends_require_then]
  refine ⟨fun _ => ?_, fun _ => h.fails⟩
  split
  · exact h.fails
  · rename_i parent hparent
    simp only [ends_require_then]
    refine ⟨fun hrange => ⟨fun hdepth => ?_, fun _ => h.fails⟩, fun _ => h.fails⟩
    split
    -- accepted before: its span is there already
    · exact ⟨h, ‹_›⟩
    · refine (?_ : Meets _ (Stands input bound machine) _ _) machine ⟨h.toSound, rfl, rfl, rfl⟩
      refine .bind (allocate_meets (stands_framed machine) fun _ h => h.fails) fun _ => ?_
      refine .modify_then (Stands input bound { machine with emitted := _ :: machine.emitted })
        (fun last h => ⟨⟨h.tree, h.count, h.tasks⟩, h.spans_eq, congrArg (List.cons _) h.emitted_eq,
          h.structured_eq⟩) ?_
      refine .bind (resolveChildMediaType_meets parent _) fun childMediaType => ?_
      refine .bind (publishSpan_meets ?_ hparent childMediaType) fun spanIndex => .pure fun last hlast => ?_
      · exact
          { byteStart := hrange.1
            byteEnd := hrange.2.2
            ordered := UInt64.le_of_lt hrange.2.1
            missing := fun heq => absurd heq (UInt64.ne_of_lt hrange.2.1)
            depth := (succ_depth hdepth).1
            maximumDepth := (succ_depth hdepth).2 }
      · exact ⟨hlast.2.complete (h.published.emit rfl), hlast.2.emitted_eq ▸ List.mem_cons_self⟩

theorem width_of_eventRangeValid {event : Event} (h : eventRangeValid event = true) :
    event.byteStart ≤ event.byteEnd ∧
      (event.byteStart = event.byteEnd → event.syntaxFlags &&& missingSyntaxFlag ≠ 0) := by
  unfold eventRangeValid at h
  simp only [Bool.not_eq_true', Bool.or_eq_false_iff, Bool.and_eq_false_iff, Bool.not_eq_false',
    decide_eq_false_iff_not, decide_eq_true_eq] at h
  obtain ⟨⟨⟨hordered, hmissing⟩, -⟩, -⟩ := h
  by_cases hflag : event.syntaxFlags &&& missingSyntaxFlag = 0
  · have hlt : event.byteStart < event.byteEnd :=
      UInt64.not_le.1 (hordered.resolve_left fun hne => hne hflag)
    exact ⟨UInt64.le_of_lt hlt, fun heq => absurd heq (UInt64.ne_of_lt hlt)⟩
  · exact ⟨UInt64.not_lt.1 (hmissing.resolve_left fun hzero => hzero hflag), fun _ => hflag⟩

/-- The key under which an event is remembered. -/
def Event.key (event : Event) (parentSpanIndex : UInt64) (context : ApplyContext) :
    StructuredEmittedKey :=
  ⟨parentSpanIndex, context.providerIndex, event.byteStart, event.byteEnd, event.kind,
    event.grammarKind, event.fieldKind, event.siblingOrdinal, event.flags, event.syntaxFlags⟩

theorem emitEvent_ends (h : Complete input bound machine) (event : Event) :
    Ends (emitEvent memory resolver input event) machine (fun _ next => Complete input bound next ∧
        ∃ parentSpanIndex index, eventParent machine.context event = some parentSpanIndex ∧
          (event.key parentSpanIndex machine.context, index) ∈ next.structuredEmitted)
      (Fails input bound) := by
  unfold emitEvent
  simp only [ends_get_then, ends_require_then]
  refine ⟨fun _ => ⟨fun hrange => ?_, fun _ => h.fails⟩, fun _ => h.fails⟩
  obtain ⟨hordered, hmissing⟩ := width_of_eventRangeValid hrange
  split
  · exact h.fails
  · rename_i parentSpanIndex hindex
    split
    · exact h.fails
    · rename_i parent hparent
      simp only [ends_require_then]
      refine ⟨fun hinside => ⟨fun hdepth => ?_, fun _ => h.fails⟩, fun _ => h.fails⟩
      refine (?_ : Meets _ (Stands input bound machine) _ _) machine ⟨h.toSound, rfl, rfl, rfl⟩
      split
      -- accepted before: its span is handed back
      · rename_i spanIndex hfound
        refine .bind (allocate_meets (stands_framed machine) fun _ h => h.fails) fun _ => ?_
        obtain ⟨before, after, hentries, -⟩ := List.lookup_eq_some_iff.1 hfound
        refine .modify fun next hnext => ⟨complete_framed next _ _ _ _ _ rfl (hnext.complete h.published),
          parentSpanIndex, spanIndex, hindex, ?_⟩
        dsimp only
        rw [hnext.structured_eq, hentries]
        exact List.mem_append_right _ List.mem_cons_self
      · refine .bind (resolveChildMediaType_meets parent _) fun childMediaType => ?_
        refine .bind (publishSpan_meets ?_ hparent childMediaType) fun spanIndex => ?_
        · exact
            { byteStart := hinside.1
              byteEnd := hinside.2
              ordered := hordered
              missing := hmissing
              depth := (succ_depth hdepth).1
              maximumDepth := (succ_depth hdepth).2 }
        · rintro last ⟨rfl, hlast⟩
          have hlength := h.count.trans_lt input.maximumSpans.toNat_lt
          refine (?_ : Meets _ (Stands input bound { machine with spans := machine.spans ++ [_] }) _ _)
            last hlast
          refine .bind (allocate_meets (stands_framed _) fun _ h => h.fails) fun _ => ?_
          refine .modify_then (Stands input bound { machine with
              spans := machine.spans ++ [_]
              structuredEmitted := (_, UInt64.ofNat machine.spans.length) :: machine.structuredEmitted })
            (fun final h => ⟨⟨h.tree, h.count, h.tasks⟩, h.spans_eq, h.emitted_eq,
              congrArg (List.cons _) h.structured_eq⟩) ?_
          refine .bind (allocate_meets (stands_framed _) fun _ h => h.fails) fun _ => ?_
          refine .modify fun final hfinal => ⟨complete_framed final _ _ _ _ _ rfl
            (hfinal.complete (h.published.emitEvent rfl hlength)), parentSpanIndex,
            UInt64.ofNat machine.spans.length, hindex, ?_⟩
          exact hfinal.structured_eq ▸ List.mem_cons_self

/-! ## Running -/

/-- Neither a callback nor a failure uses up the fuel. -/
def Returns (reason : RunExit) (_ : Machine) : Prop := reason ≠ .outOfFuel

theorem answer_meets {emission : Emitting Unit}
    (h : Meets emission (Complete input bound) (fun _ => Complete input bound) (Fails input bound)) :
    Meets (answer emission) (Applying input bound) (fun _ => Applying input bound) Returns := by
  refine .get_then fun machine => .ite (fun _ => .pure fun _ h => h.1) fun hok => ?_
  rw [not_not] at hok
  refine .of_pre (.attempt h (fun _ => .pure fun _ h => ⟨h.toSound, fun _ => h.published⟩)
    fun reason => ?_) fun next h => ⟨h.1.toSound, h.1.published (h.2 ▸ hok)⟩
  cases reason with
  | failed status =>
    exact .modify_then (Applying input bound) (fun next h => ⟨⟨h.1.tree, h.1.count, h.1.tasks⟩,
      fun hstatus => absurd (congrArg EmitExit.failed hstatus) h.2⟩) (.pure fun _ h => h)
  | thrown => exact .throw fun _ _ => nofun

theorem applyProvider_meets (provider : Provider) (content : Content) (span : Span) :
    Meets (applyProvider memory resolver input provider content span) (Applying input bound)
      (fun _ => Applying input bound) Returns := by
  have hframed := @applying_framed input bound
  have hemit (emission : Emission) := answer_meets fun machine h =>
    (@emit_ends input memory resolver bound machine h emission).mono (fun _ _ h => h.1) fun _ _ h => h
  have hevent (event : Event) := answer_meets fun machine h =>
    (@emitEvent_ends input memory resolver bound machine h event).mono (fun _ _ h => h.1) fun _ _ h => h
  unfold applyProvider
  split
  · refine .ite (fun _ => .bind (call_meets hframed _) fun callee => .serve hevent callee) fun _ => ?_
    split
    · exact .bind (call_meets hframed _) fun callee => .serve hemit callee
    · exact .pure fun _ h => h
  · exact .bind (call_meets hframed _) fun callee => .serve hemit callee
  · exact .pure fun _ h => h

theorem runProvider_meets (task : Task) (content : Content) (span : Span) (providerIndex : UInt64)
    (provider : Provider) :
    Meets (runProvider memory resolver input task content span providerIndex provider)
      (Complete input bound) (fun _ => Complete input bound) Returns := by
  have hframed := @complete_framed input bound
  refine .ite (fun _ => .pure fun _ h => h) fun _ => ?_
  refine .get_then fun machine => .of_pre
    (.bind (allocate_meets hframed fun _ _ => nofun) fun _ => ?_) (fun _ h => h.1)
  refine .ite (fun _ => .pure fun _ h => h) fun _ => ?_
  refine .modify_then (Complete input bound) (fun next h => hframed next _ _ _ _ _ rfl h) ?_
  refine .bind (call_meets hframed _) fun applicable => ?_
  refine .require_then (fun _ _ _ => nofun) fun _ => ?_
  refine .ite (fun _ => .pure fun _ h => h) fun _ => ?_
  refine .modify_then (Applying input bound)
    (fun next h => ⟨⟨h.tree, h.count, h.tasks⟩, fun _ => h.published⟩) ?_
  refine .bind (applyProvider_meets provider content span) fun applyStatus => ?_
  refine .get_then fun next => .require_then (fun _ _ _ => nofun) fun hok => ?_
  exact .ite (fun _ => .pure fun last h => ⟨h.1.toSound, h.1.published (h.2 ▸ hok)⟩)
    fun _ => .throw fun _ _ => nofun

theorem runProviders_meets (task : Task) (content : Content) (span : Span) :
    ∀ (providerIndex : UInt64) (providers : List Provider),
      Meets (runProviders memory resolver input task content span providerIndex providers)
        (Complete input bound) (fun _ => Complete input bound) Returns
  | _, [] => .pure fun _ h => h
  | providerIndex, provider :: providers =>
    .bind (runProvider_meets task content span providerIndex provider) fun _ =>
      runProviders_meets task content span (providerIndex + 1) providers

/-- How many tasks may still come. -/
def tasksLeft (input : Input) (machine : Machine) : ℕ :=
  machine.queue.length + (input.maximumSpans.toNat - machine.spans.length)

/-- A run whose spans are a tree that holds all that was accepted. -/
def Grown (input : Input) (machine : Machine) : Prop :=
  Complete input (tasksLeft input machine) machine

theorem runTask_meets (n : ℕ) :
    Meets (runTask memory resolver input)
      (fun machine => Grown input machine ∧ tasksLeft input machine = n)
      (fun more machine => if more then Grown input machine ∧ tasksLeft input machine < n
        else Grown input machine) Returns := by
  refine .get_then fun machine => ?_
  split
  · exact .pure fun next h => h.1.1
  · rename_i task queue hqueue
    cases n with
    | zero =>
      rintro next ⟨⟨-, hleft⟩, rfl⟩
      unfold tasksLeft at hleft
      rw [hqueue, List.length_cons] at hleft
      omega
    | succ n =>
      refine .modify_then (Complete input n) ?_ ?_
      · rintro next ⟨⟨h, hleft⟩, rfl⟩
        refine ⟨⟨h.tree, h.count, ?_⟩, h.published⟩
        unfold tasksLeft at hleft
        rw [hqueue, List.length_cons] at hleft
        dsimp only
        omega
      · split
        · exact .throw fun _ _ => nofun
        · refine .bind (runProviders_meets task _ _ 0 input.providers) fun _ => .pure fun next h => ?_
          exact ⟨⟨⟨h.tree, h.count, le_rfl⟩, h.published⟩, Nat.lt_succ_of_le h.tasks⟩

end Emit

/-! ## The whole run -/

/-- How many code points of a UTF-8 text begin before an offset. -/
def codePointsBefore (content : Content) (offset : UInt64) : ℕ :=
  (content.bytes.take offset.toNat).countP fun byte => byte &&& 0xC0 ≠ 0x80

theorem codePointsBefore_mono (content : Content) {offset offset' : UInt64}
    (h : offset ≤ offset') : codePointsBefore content offset ≤ codePointsBefore content offset' :=
  (List.take_sublist_take_left (UInt64.le_iff_toNat_le.1 h)).countP_le

theorem rootMachine_grown (h : input.maximumSpans ≠ 0) : Grown input (rootMachine input) := by
  refine ⟨⟨.root, Nat.one_le_iff_ne_zero.2 fun hzero => h ?_, le_rfl⟩, ⟨nofun, nofun⟩⟩
  exact UInt64.toNat_inj.1 hzero

theorem rootMachine_tasksLeft (h : input.maximumSpans ≠ 0) :
    tasksLeft input (rootMachine input) = input.maximumSpans.toNat := by
  have hcount := (rootMachine_grown h).count
  have hlength : (rootMachine input).spans.length = 1 := rfl
  have hqueue : (rootMachine input).queue.length = 1 := rfl
  unfold tasksLeft
  omega

theorem Tree.facts (h : Tree input spans) (hcontent : input.content.byteCount ≠ 0) {index : ℕ}
    {span : Span} (hspan : spans[index]? = some span) :
    (span.byteStart = span.byteEnd → span.syntaxFlags &&& missingSyntaxFlag ≠ 0) ∧
    span.depth ≤ input.maximumDepth ∧
    (index ≠ 0 → ∃ parent, span.parentSpanIndex.toNat < index ∧
      spans[span.parentSpanIndex.toNat]? = some parent ∧
      parent.byteStart ≤ span.byteStart ∧ span.byteStart ≤ span.byteEnd ∧
      span.byteEnd ≤ parent.byteEnd ∧
      codePointsBefore input.content parent.byteStart ≤
        codePointsBefore input.content span.byteStart ∧
      codePointsBefore input.content span.byteEnd ≤
        codePointsBefore input.content parent.byteEnd ∧
      span.depth.toNat = parent.depth.toNat + 1) := by
  by_cases hindex : index = 0
  · rw [hindex, h.root_eq] at hspan
    cases hspan
    exact ⟨fun heq => absurd heq.symm hcontent, UInt32.zero_le, fun hnot => absurd hindex hnot⟩
  · obtain ⟨parent, hless, hparent, hbelow⟩ := h.parent_before hspan hindex
    refine ⟨hbelow.missing, hbelow.maximumDepth, fun _ => ⟨parent, hless, hparent, hbelow.byteStart,
      hbelow.ordered, hbelow.byteEnd, ?_, ?_, hbelow.depth⟩⟩
    · exact codePointsBefore_mono input.content hbelow.byteStart
    · exact codePointsBefore_mono input.content hbelow.byteEnd

/-- Whatever the providers emit, a run ends, and the spans of its result are a tree. -/
theorem decomposition_tree (memory : ℕ → Bool) (resolver : Option MediaResolver) (input : Input)
    (resultMemory : Bool) :
    ∃ outcome : Except Status Result,
      (∀ fuel, input.maximumSpans.toNat < fuel →
        run memory resolver input resultMemory fuel = some outcome) ∧
      ∀ result, outcome = .ok result →
        result.spans.length ≤ input.maximumSpans.toNat ∧
        result.spans[0]? = some (rootSpan input) ∧
        ∀ index span, result.spans[index]? = some span →
          (span.byteStart = span.byteEnd → span.syntaxFlags &&& missingSyntaxFlag ≠ 0) ∧
          span.depth ≤ input.maximumDepth ∧
          (index ≠ 0 → ∃ parent, span.parentSpanIndex.toNat < index ∧
            result.spans[span.parentSpanIndex.toNat]? = some parent ∧
            parent.byteStart ≤ span.byteStart ∧ span.byteStart ≤ span.byteEnd ∧
            span.byteEnd ≤ parent.byteEnd ∧
            codePointsBefore input.content parent.byteStart ≤
              codePointsBefore input.content span.byteStart ∧
            codePointsBefore input.content span.byteEnd ≤
              codePointsBefore input.content parent.byteEnd ∧
            span.depth.toNat = parent.depth.toNat + 1) := by
  unfold run
  split
  · exact ⟨_, fun _ _ => rfl, nofun⟩
  · rename_i hvalid
    simp only [not_or] at hvalid
    obtain ⟨hcontent, -, hmaximum, -⟩ := hvalid
    split
    · exact ⟨_, fun _ _ => rfl, nofun⟩
    · split
      · exact ⟨_, fun _ _ => rfl, nofun⟩
      · obtain ⟨ended, last, hlast, hrun⟩ := loop_terminates .outOfFuel
          (@runTask_meets input memory resolver) (rootMachine_grown hmaximum)
        rw [rootMachine_tasksLeft hmaximum] at hrun
        cases ended with
        | error reason =>
          cases reason with
          | outOfFuel => exact absurd rfl hlast
          | returned status => exact ⟨.error status, fun fuel h => by rw [hrun fuel h], nofun⟩
        | ok =>
          obtain ⟨⟨htree, hcount, -⟩, -⟩ := hlast
          by_cases hlength : last.spans.length = last.mediaTypes.length
          · refine ⟨.ok _, fun fuel h => by rw [hrun fuel h]; exact if_neg (not_not.2 hlength), ?_⟩
            rintro _ ⟨⟩
            exact ⟨hcount, htree.root_eq, fun index span hspan => htree.facts hcontent hspan⟩
          · exact ⟨.error .memoryFailure, fun fuel h => by rw [hrun fuel h]; exact if_pos hlength,
              nofun⟩

/-- **What is accepted is published.** At the end of a run, every emission and every event that was
accepted is one of the spans of the result. -/
theorem run_published {resolver : Option MediaResolver} {resultMemory : Bool} {fuel : ℕ}
    {result : Result} (hfuel : input.maximumSpans.toNat < fuel)
    (h : run memory resolver input resultMemory fuel = some (.ok result)) :
    ∃ last, (loop (runTask memory resolver input) .outOfFuel fuel).eval (rootMachine input) =
        (.ok (), last) ∧ result.spans = last.spans ∧
      Published last.emitted last.structuredEmitted result.spans := by
  unfold run at h
  split at h
  · cases h
  rename_i hvalid
  simp only [not_or] at hvalid
  split at h
  · cases h
  split at h
  · cases h
  split at h
  · cases h
  · cases h
  rename_i last hrun
  split at h <;> cases h
  have hloop : Meets (loop (runTask memory resolver input) .outOfFuel fuel) _ _ _ :=
    .loop (@runTask_meets input memory resolver) fuel
  rw [← rootMachine_tasksLeft hvalid.2.2.1] at hfuel
  exact ⟨last, hrun, rfl, (hloop.of_ok ⟨rootMachine_grown hvalid.2.2.1, hfuel⟩ hrun).published⟩

/-! ### A run with a child of a child -/

/-- Emits the first two bytes of the content, to be looked at again. -/
def outerProvider : Provider where
  providerFingerprint := 1
  applicable _ _ span := (.ok, if span.depth = 0 then 1 else 0)
  apply := some fun _ _ _ => .ask ⟨0, 2, 7, redispatchFlag⟩ fun _ => .done .ok
  applyEvents := none
  abiMajor := providerAbiMajor
  abiMinor := providerAbiMinor
  flags := 0
  reserved := 0

/-- Emits an event without a width below a span that is not the root. -/
def innerProvider : Provider :=
  { outerProvider with
    providerFingerprint := 2
    applicable := fun _ _ span => (.ok, if span.depth = 0 then 0 else 1)
    apply := none
    applyEvents := some fun _ _ _ =>
      .ask ⟨1, 1, absentIndex, 8, 8, 0, 0, 0, syntaxMissing⟩ fun _ => .done .ok }

def nestedInput : Input where
  content := ⟨[97, 98, 99], [], []⟩
  providers := [outerProvider, innerProvider]
  maximumSpans := 4
  maximumDepth := 2
  flags := 0

theorem decomposition_tree_nested : ∃ result,
    run (fun _ => true) none nestedInput true 5 = some (.ok result) ∧
      result.spans.map Span.parentSpanIndex = [absentIndex, 0, 1] ∧
      result.spans[0]? = some (rootSpan nestedInput) := by
  obtain ⟨outcome, hrun, htree⟩ := decomposition_tree (fun _ => true) none nestedInput true
  refine ⟨_, rfl, by decide +kernel, (htree _ (Option.some.inj ((hrun 5 (by decide)).symm.trans rfl))).2.1⟩

end Laplace.Decomposition
