import Laplace.Digest
import Laplace.Lib.Interaction

/-!
# Decomposition (decomposition.cpp)

A run starts with one span over the whole content and lets every provider that applies to a span
emit spans below it; spans that ask for it are queued for the other providers. A callback may
answer each call differently, so it is given the number of calls and allocations made so far, and
`memory` says of each allocation whether it succeeds. The null pointer checks are gone.
-/

namespace Laplace.Decomposition

open Program

/-! ## Data -/

inductive Status
  | ok | invalidArgument | providerInvalid | providerFailure | rangeInvalid | limitExceeded
  | memoryFailure
deriving DecidableEq, Repr

/-- `laplace_decomposition_content` -/
structure Content where
  bytes : List UInt8
  mediaType : List UInt8
  name : List UInt8

def Content.byteCount (content : Content) : UInt64 := UInt64.ofNat content.bytes.length

/-- `laplace_decomposition_span` -/
structure Span where
  byteStart : UInt64 := 0
  byteEnd : UInt64 := 0
  parentSpanIndex : UInt64 := 0
  providerFingerprint : Digest256 := 0
  kind : UInt64 := 0
  grammarKind : UInt64 := 0
  fieldKind : UInt64 := 0
  siblingOrdinal : UInt64 := 0
  depth : UInt32 := 0
  flags : UInt32 := 0
  syntaxFlags : UInt32 := 0
  reserved : UInt32 := 0
deriving DecidableEq

/-- The arguments of `laplace_decomposition_emit_fn`. -/
structure Emission where
  byteStart : UInt64
  byteEnd : UInt64
  kind : UInt64
  flags : UInt32

/-- `laplace_decomposition_event` -/
structure Event where
  byteStart : UInt64
  byteEnd : UInt64
  parentEventIndex : UInt64
  kind : UInt64
  grammarKind : UInt64
  fieldKind : UInt64
  siblingOrdinal : UInt64
  flags : UInt32
  syntaxFlags : UInt32

/-- `laplace_decomposition_provider_v1`. A provider emits while it is applied and sees what each
call of the emit function returns. -/
structure Provider where
  providerFingerprint : Digest256
  applicable : ℕ → Content → Span → Status × Int32
  apply : Option (ℕ → Content → Span → Interaction Emission Int32 Status)
  applyEvents : Option (ℕ → Content → Span → Interaction Event Int32 Status)
  abiMajor : UInt16
  abiMinor : UInt16
  flags : UInt32
  reserved : UInt32

/-- What a media resolver returns: its status and, perhaps, the bytes it points to and how many of
them count. -/
structure ResolvedMediaType where
  status : Status
  mediaType : Option (List UInt8)
  byteCount : UInt64

/-- `laplace_decomposition_media_type_resolver_fn` -/
abbrev MediaResolver :=
  ℕ → Content → Span → Digest256 → UInt64 → UInt64 → UInt64 → UInt32 → ResolvedMediaType

/-- `laplace_decomposition_input` -/
structure Input where
  content : Content
  providers : List Provider
  maximumSpans : UInt64
  maximumDepth : UInt32
  flags : UInt32

/-- `laplace_decomposition_summary` -/
structure Summary where
  spanCount : UInt64 := 0
  providerExecutionCount : UInt64 := 0
  applicableExecutionCount : UInt64 := 0
  redispatchCount : UInt64 := 0
  maximumDepthReached : UInt32 := 0
  status : Status := .ok

/-- `laplace_decomposition_result` -/
structure Result where
  spans : List Span
  mediaTypes : List (List UInt8)
  summary : Summary

structure Task where
  spanIndex : UInt64
  skipProvider : UInt64
  mediaType : List UInt8

structure LegacyEmittedKey where
  parentSpanIndex : UInt64
  providerIndex : UInt64
  byteStart : UInt64
  byteEnd : UInt64
  kind : UInt64
deriving DecidableEq

structure StructuredEmittedKey where
  parentSpanIndex : UInt64
  providerIndex : UInt64
  byteStart : UInt64
  byteEnd : UInt64
  kind : UInt64
  grammarKind : UInt64
  fieldKind : UInt64
  siblingOrdinal : UInt64
  flags : UInt32
  syntaxFlags : UInt32
deriving DecidableEq

structure ExecutionKey where
  providerIndex : UInt64
  parentSpanIndex : UInt64
  byteStart : UInt64
  byteEnd : UInt64
  kind : UInt64
  grammarKind : UInt64
  fieldKind : UInt64
  siblingOrdinal : UInt64
  syntaxFlags : UInt32
  applicabilityClass : UInt32
  mediaType : List UInt8
deriving DecidableEq

/-- `ApplyContext`, without the pointers to what the run owns. -/
structure ApplyContext where
  content : Content
  parentSpanIndex : UInt64 := 0
  providerIndex : UInt64 := 0
  status : Status := .ok
  eventResultSpans : List UInt64 := []

/-! ## Contract -/

def providerAbiMajor : UInt16 := 1
def providerAbiMinor : UInt16 := 2

def redispatchFlag : UInt32 := 1
def textFlag : UInt32 := 2
def grammarInputFlag : UInt32 := 4
def knownSpanFlags : UInt32 := redispatchFlag ||| textFlag ||| grammarInputFlag
def applicabilityFlags : UInt32 := textFlag ||| grammarInputFlag

def syntaxMissing : UInt32 := 2
def syntaxEmpty : UInt32 := 32
def missingSyntaxFlag : UInt32 := syntaxMissing ||| syntaxEmpty
def knownSyntaxFlags : UInt32 := 63

/-- The largest 64-bit word: no parent span, no provider to skip, no parent event. -/
def absentIndex : UInt64 := 0xFFFFFFFFFFFFFFFF

/-- `ProviderValid` -/
def providerValid (provider : Provider) : Bool :=
  (provider.apply.isSome || provider.applyEvents.isSome) && provider.providerFingerprint ≠ 0 &&
    provider.abiMajor == providerAbiMajor && provider.abiMinor ≤ providerAbiMinor &&
    provider.flags == 0 && provider.reserved == 0 &&
    !(provider.abiMinor < 2 && provider.applyEvents.isSome)

/-- `RootIsText` -/
def rootIsText (content : Content) : Bool :=
  (domainBytes "text/").isPrefixOf content.mediaType ||
    [domainBytes "application/json", domainBytes "application/xml",
      domainBytes "application/javascript", domainBytes "application/sql"].contains content.mediaType

/-! ## The state of a run -/

/-- The result so far, the locals of `Run`, the context of the call in progress, and the number of
calls and allocations made so far. -/
structure Machine where
  spans : List Span
  mediaTypes : List (List UInt8)
  summary : Summary := {}
  queue : List Task
  executions : List ExecutionKey := []
  emitted : List LegacyEmittedKey := []
  structuredEmitted : List (StructuredEmittedKey × UInt64) := []
  context : ApplyContext
  tick : ℕ := 0

/-- How an emission that does not succeed ends: with a status in the context and the return value
one, or with an exception that passes through the provider. -/
inductive EmitExit
  | failed (status : Status)
  | thrown

/-- How a run that does not succeed ends. -/
inductive RunExit
  | returned (status : Status)
  | outOfFuel

abbrev Emitting := Program Machine EmitExit

abbrev Running := Program Machine RunExit

section

variable {ε : Type} (memory : ℕ → Bool)

/-- Leave with `error` unless there is memory. -/
def allocate (error : ε) : Program Machine ε Unit := do
  let machine ← get
  modify fun machine => { machine with tick := machine.tick + 1 }
  require (memory machine.tick) error

/-- Call a callback. -/
def call {α : Type} (callback : ℕ → α) : Program Machine ε α := do
  let machine ← get
  modify fun machine => { machine with tick := machine.tick + 1 }
  return callback machine.tick

variable (resolver : Option MediaResolver) (input : Input)

/-! ## Emitting -/

/-- `ResolveChildMediaType` -/
def resolveChildMediaType (parent span : Span) : Emitting (List UInt8) := do
  let machine ← get
  let content := machine.context.content
  allocate memory (.failed .memoryFailure)
  match resolver with
  | none => return content.mediaType
  | some resolve =>
    if span.syntaxFlags &&& missingSyntaxFlag ≠ 0 then return content.mediaType
    else do
      let resolved ← call fun tick => resolve tick content parent span.providerFingerprint
        span.byteStart span.byteEnd span.kind span.flags
      require (resolved.status = .ok) (.failed resolved.status)
      require (resolved.mediaType = none ↔ resolved.byteCount = 0)
        (.failed .providerFailure)
      match resolved.mediaType with
      | none => return content.mediaType
      | some bytes => do
        allocate memory (.failed .memoryFailure)
        return bytes.take resolved.byteCount.toNat

/-- `PublishSpan`, where it queues a span. -/
def redispatchSpan (span : Span) (childMediaType : List UInt8) (spanIndex : UInt64) :
    Emitting Unit :=
  if span.flags &&& redispatchFlag ≠ 0 then do
    allocate memory (.failed .memoryFailure)
    modify fun machine => { machine with
      queue := machine.queue ++ [⟨spanIndex, machine.context.providerIndex, childMediaType⟩]
      summary.redispatchCount := machine.summary.redispatchCount + 1 }
  else return

/-- `PublishSpan` -/
def publishSpan (span : Span) (childMediaType : List UInt8) : Emitting UInt64 := do
  let machine ← get
  require (machine.spans.length < input.maximumSpans.toNat) (.failed .limitExceeded)
  let spanIndex := UInt64.ofNat machine.spans.length
  allocate memory (.failed .memoryFailure)
  modify fun machine => { machine with spans := machine.spans ++ [span] }
  allocate memory (.failed .memoryFailure)
  modify fun machine => { machine with mediaTypes := machine.mediaTypes ++ [childMediaType] }
  redispatchSpan memory span childMediaType spanIndex
  modify fun machine => { machine with
    summary.maximumDepthReached := max machine.summary.maximumDepthReached span.depth }
  return spanIndex

/-- The fingerprint of the provider that is applied. -/
def providerFingerprint (machine : Machine) : Digest256 :=
  (input.providers[machine.context.providerIndex.toNat]?.map Provider.providerFingerprint).getD 0

/-- `Emit` in a context without a failure. The parent is there, because the loop of `Run` has looked
it up. -/
def emit (emission : Emission) : Emitting Unit := do
  let machine ← get
  require (emission.flags &&& ~~~knownSpanFlags = 0 ∧ emission.kind ≠ 0)
    (.failed .providerFailure)
  match machine.spans[machine.context.parentSpanIndex.toNat]? with
  | none => throw .thrown
  | some parent => do
    require (parent.byteStart ≤ emission.byteStart ∧ emission.byteStart < emission.byteEnd ∧
      emission.byteEnd ≤ parent.byteEnd) (.failed .rangeInvalid)
    require (parent.depth < input.maximumDepth) (.failed .limitExceeded)
    let duplicateKey : LegacyEmittedKey :=
      ⟨machine.context.parentSpanIndex, machine.context.providerIndex, emission.byteStart,
        emission.byteEnd, emission.kind⟩
    if duplicateKey ∈ machine.emitted then return
    else do
      allocate memory .thrown
      modify fun machine => { machine with emitted := duplicateKey :: machine.emitted }
      let span : Span :=
        { byteStart := emission.byteStart
          byteEnd := emission.byteEnd
          parentSpanIndex := machine.context.parentSpanIndex
          providerFingerprint := providerFingerprint input machine
          kind := emission.kind
          grammarKind := emission.kind
          depth := parent.depth + 1
          flags := emission.flags }
      let childMediaType ← resolveChildMediaType memory resolver parent span
      discard (publishSpan memory input span childMediaType)

/-- The span index that `EmitEvent` finds for the parent of an event. -/
def eventParent (context : ApplyContext) (event : Event) : Option UInt64 :=
  if event.parentEventIndex ≠ absentIndex then
    context.eventResultSpans[event.parentEventIndex.toNat]?
  else some context.parentSpanIndex

/-- The range check of `EmitEvent`. -/
def eventRangeValid (event : Event) : Bool :=
  let missing := event.syntaxFlags &&& missingSyntaxFlag ≠ 0
  let empty := event.syntaxFlags &&& syntaxEmpty ≠ 0
  !((!missing && event.byteStart ≥ event.byteEnd) || (missing && event.byteStart > event.byteEnd) ||
    (empty && (event.byteStart ≠ event.byteEnd || event.syntaxFlags &&& syntaxMissing ≠ 0)) ||
    (missing && event.flags &&& knownSpanFlags ≠ 0))

/-- `EmitEvent` in a context without a failure -/
def emitEvent (event : Event) : Emitting Unit := do
  let machine ← get
  require (event.flags &&& ~~~knownSpanFlags = 0 ∧
    event.syntaxFlags &&& ~~~knownSyntaxFlags = 0 ∧ event.kind ≠ 0) (.failed .providerFailure)
  require (eventRangeValid event) (.failed .rangeInvalid)
  match eventParent machine.context event with
  | none => throw (.failed .providerFailure)
  | some parentSpanIndex =>
    match machine.spans[parentSpanIndex.toNat]? with
    | none => throw (.failed .rangeInvalid)
    | some parent => do
      require (parent.byteStart ≤ event.byteStart ∧ event.byteEnd ≤ parent.byteEnd)
        (.failed .rangeInvalid)
      require (parent.depth < input.maximumDepth) (.failed .limitExceeded)
      let duplicateKey : StructuredEmittedKey :=
        ⟨parentSpanIndex, machine.context.providerIndex, event.byteStart, event.byteEnd, event.kind,
          event.grammarKind, event.fieldKind, event.siblingOrdinal, event.flags, event.syntaxFlags⟩
      match machine.structuredEmitted.lookup duplicateKey with
      | some spanIndex => do
        allocate memory (.failed .memoryFailure)
        modify fun machine => { machine with
          context.eventResultSpans := machine.context.eventResultSpans ++ [spanIndex] }
      | none => do
        let span : Span :=
          { byteStart := event.byteStart
            byteEnd := event.byteEnd
            parentSpanIndex := parentSpanIndex
            providerFingerprint := providerFingerprint input machine
            kind := event.kind
            grammarKind := event.grammarKind
            fieldKind := event.fieldKind
            siblingOrdinal := event.siblingOrdinal
            depth := parent.depth + 1
            flags := event.flags
            syntaxFlags := event.syntaxFlags }
        let childMediaType ← resolveChildMediaType memory resolver parent span
        let spanIndex ← publishSpan memory input span childMediaType
        allocate memory (.failed .memoryFailure)
        modify fun machine => { machine with
          structuredEmitted := (duplicateKey, spanIndex) :: machine.structuredEmitted }
        allocate memory (.failed .memoryFailure)
        modify fun machine => { machine with
          context.eventResultSpans := machine.context.eventResultSpans ++ [spanIndex] }

/-- What a provider sees of an emission: one after a failure, here or before. -/
def answer (emission : Emitting Unit) : Running Int32 := do
  let machine ← get
  if machine.context.status ≠ .ok then return 1
  else attempt emission fun
    | .ok () => return 0
    | .error (.failed status) => do
      modify fun machine => { machine with context.status := status }
      return 1
    | .error .thrown => throw (.returned .memoryFailure)

/-! ## Running -/

/-- The call of `apply_events` or `apply`. -/
def applyProvider (provider : Provider) (content : Content) (span : Span) : Running Status :=
  match provider.applyEvents, provider.apply with
  | some applyEvents, apply =>
    if provider.abiMinor ≥ 2 then do
      let callee ← call fun tick => applyEvents tick content span
      serve (fun event => answer (emitEvent memory resolver input event)) callee
    else
      match apply with
      | some apply => do
        let callee ← call fun tick => apply tick content span
        serve (fun emission => answer (emit memory resolver input emission)) callee
      | none => return .providerFailure
  | none, some apply => do
    let callee ← call fun tick => apply tick content span
    serve (fun emission => answer (emit memory resolver input emission)) callee
  | none, none => return .providerFailure

/-- The body of the loop over the providers. -/
def runProvider (task : Task) (content : Content) (span : Span) (providerIndex : UInt64)
    (provider : Provider) : Running Unit :=
  if providerIndex = task.skipProvider then return
  else do
    let machine ← get
    let executionKey : ExecutionKey :=
      ⟨providerIndex, span.parentSpanIndex, span.byteStart, span.byteEnd, span.kind,
        span.grammarKind, span.fieldKind, span.siblingOrdinal, span.syntaxFlags,
        span.flags &&& applicabilityFlags, task.mediaType⟩
    allocate memory (.returned .memoryFailure)
    if executionKey ∈ machine.executions then return
    else do
      modify fun machine => { machine with
        executions := executionKey :: machine.executions
        summary.providerExecutionCount := machine.summary.providerExecutionCount + 1 }
      let applicable ← call fun tick => provider.applicable tick content span
      require (applicable.1 = .ok ∧ (applicable.2 = 0 ∨ applicable.2 = 1))
        (.returned .providerFailure)
      if applicable.2 = 0 then return
      else do
        modify fun machine => { machine with
          summary.applicableExecutionCount := machine.summary.applicableExecutionCount + 1
          context := { content, parentSpanIndex := task.spanIndex, providerIndex } }
        let applyStatus ← applyProvider memory resolver input provider content span
        let machine ← get
        require (machine.context.status = .ok) (.returned machine.context.status)
        require (applyStatus = .ok) (.returned .providerFailure)

/-- The loop over the providers, from an index on. -/
def runProviders (task : Task) (content : Content) (span : Span) :
    UInt64 → List Provider → Running Unit
  | _, [] => return
  | providerIndex, provider :: providers => do
    runProvider memory resolver input task content span providerIndex provider
    runProviders task content span (providerIndex + 1) providers

/-- The body of the loop over the queue; false when the queue is empty. -/
def runTask : Running Bool := do
  let machine ← get
  match machine.queue with
  | [] => return false
  | task :: queue => do
    modify fun machine => { machine with queue }
    match machine.spans[task.spanIndex.toNat]? with
    | none => throw (.returned .rangeInvalid)
    | some span => do
      let content := { input.content with mediaType := task.mediaType }
      runProviders memory resolver input task content span 0 input.providers
      return true

/-- The first span. -/
def rootSpan : Span :=
  { byteStart := 0
    byteEnd := input.content.byteCount
    parentSpanIndex := absentIndex
    kind := 0
    depth := 0
    flags := redispatchFlag ||| (if rootIsText input.content then textFlag else 0) |||
      (if input.content.mediaType ≠ [] then grammarInputFlag else 0) }

/-- The state of a run before its first task. -/
def rootMachine : Machine where
  spans := [rootSpan input]
  mediaTypes := [input.content.mediaType]
  queue := [⟨0, absentIndex, input.content.mediaType⟩]
  context := { content := input.content }

/-- `Run`; nothing when the fuel is used up. `resultMemory` says whether there is memory for the
result and for its first span. -/
def run (resultMemory : Bool) (fuel : ℕ) : Option (Except Status Result) :=
  if input.content.byteCount = 0 ∨ input.providers = [] ∨ input.maximumSpans = 0 ∨
      input.maximumDepth = 0 ∨ input.flags ≠ 0 then some (.error .invalidArgument)
  else if !input.providers.all providerValid ∨
      ¬ (input.providers.map Provider.providerFingerprint).Nodup then
    some (.error .providerInvalid)
  else if !resultMemory then some (.error .memoryFailure)
  else
    match (loop (runTask memory resolver input) .outOfFuel fuel).eval (rootMachine input) with
    | (.error .outOfFuel, _) => none
    | (.error (.returned status), _) => some (.error status)
    | (.ok (), machine) =>
      if machine.spans.length ≠ machine.mediaTypes.length then some (.error .memoryFailure)
      else some (.ok
        { spans := machine.spans
          mediaTypes := machine.mediaTypes
          summary := { machine.summary with
            spanCount := UInt64.ofNat machine.spans.length
            status := .ok } })

end

end Laplace.Decomposition
