import Laplace.Lib.Heap
import Laplace.Perfcache.Generation

/-!
# The generation registry (perfcache_registry.cpp:381-419, 466-487, 1329-2096)

One registry and everything its clients hold of it: prepared generations, activations and pins. A
section under the lock is one step. `CloseGeneration` runs after the lock, so a section hands the
generations it has unlinked to `closing`, and each is closed by a step of its own, with the steps
of other clients in between. A call with a handle that the client does not hold, or on a registry
that has been destroyed, is outside the contract of the interface; reading a freed object is a
fault of the code. `closed` records what `CloseGeneration` has been called on.
-/

namespace Laplace.Perfcache

open Checked
open Framework (Context StreamReceipt ActivationRequest)

/-! ## State -/

/-- `laplace_perfcache_registry`; the chain of `retired_next` is a list. -/
structure Registry where
  modules : List RegisteredModule
  active : Option ℕ := none
  retired : List ℕ := []
  reservation : Option ℕ := none
  preparedCount : UInt64 := 0
deriving DecidableEq

/-- `laplace_perfcache_prepared_generation` -/
structure PreparedGeneration where
  generation : Option ℕ
deriving DecidableEq

/-- `laplace_perfcache_activation_ticket` -/
structure ActivationTicket where
  generation : Option ℕ
deriving DecidableEq

/-- `laplace_perfcache_activation` -/
structure Activation where
  prepared : Option ℕ
  ticket : Option ℕ := none
  expectedEpoch : Option Epoch
  receipt : GenerationReceipt := {}
deriving DecidableEq

/-- `laplace_perfcache_pin`, which is zero or points to a generation. -/
abbrev Pin := Option (ℕ × Epoch)

structure System where
  registry : Option Registry
  generations : Heap LoadedGeneration := []
  prepared : Heap PreparedGeneration := []
  tickets : Heap ActivationTicket := []
  activations : Heap Activation := []
  /-- The prepared generations that clients hold themselves. -/
  held : List ℕ := []
  pins : List Pin := []
  closing : List ℕ := []
  closed : List ℕ := []
deriving DecidableEq

inductive Fault
  | outsideContract | freedMemory
deriving DecidableEq, Repr

/-- `laplace_perfcache_registry_create` with modules that it accepts. -/
def System.create (modules : List RegisteredModule) : System := { registry := some { modules } }

/-- `new`: an object takes at least one address, and the null address is none. -/
def hasMemory {α : Type} (heap : Heap α) : Bool := heap.live < UInt64.size - 1

/-- What memory there is for the objects of a call of `registry_prepare`. -/
structure PrepareMemory where
  generation : Bool
  contents : Bool
  prepared : Bool
deriving DecidableEq

/-- What `RegistryReserve` gives back: a ticket on success, and a receipt when one was filled. -/
structure Reserved where
  status : RegistryStatus
  ticket : Option ℕ := none
  receipt : Option GenerationReceipt := none
deriving DecidableEq

/-- What a call reports: the status of the registry operation it made, the status it answers to the
framework, and the fingerprint or the receipt it writes. -/
structure Outcome where
  registry : Option RegistryStatus := none
  framework : Option Framework.Status := none
  fingerprint : Option Digest256 := none
  receipt : Option GenerationReceipt := none
  totals : Option (UInt64 × UInt64 × UInt64) := none
deriving DecidableEq

namespace System

def theRegistry (s : System) : Except Fault Registry :=
  match s.registry with
  | some registry => .ok registry
  | none => .error .outsideContract

def setRegistry (s : System) (registry : Registry) : System := { s with registry := some registry }

def generation (s : System) (address : ℕ) : Except Fault LoadedGeneration :=
  match s.generations.read address with
  | some generation => .ok generation
  | none => .error .freedMemory

def ticket (s : System) (address : ℕ) : Except Fault ActivationTicket :=
  match s.tickets.read address with
  | some ticket => .ok ticket
  | none => .error .freedMemory

def preparedGeneration (s : System) (address : ℕ) : Except Fault PreparedGeneration :=
  match s.prepared.read address with
  | some prepared => .ok prepared
  | none => .error .freedMemory

/-- An activation that a client holds. -/
def activation (s : System) (address : ℕ) : Except Fault Activation :=
  match s.activations.read address with
  | some activation => .ok activation
  | none => .error .outsideContract

/-- `FindGeneration` in a list of generations -/
def findGeneration (s : System) (epoch : Epoch) : List ℕ → Except Fault (Option ℕ)
  | [] => .ok none
  | address :: addresses =>
    match s.generation address with
    | .error fault => .error fault
    | .ok generation =>
      if generation.epoch = epoch then .ok (some address) else s.findGeneration epoch addresses

/-- Whether the active generation is the expected one; with no expected epoch, whether there is
none. -/
def expectedMatches (s : System) (active : Option ℕ) (expected : Option Epoch) :
    Except Fault Bool :=
  match expected, active with
  | none, active => .ok active.isNone
  | some _, none => .ok false
  | some epoch, some address =>
    match s.generation address with
    | .error fault => .error fault
    | .ok generation => .ok (generation.epoch = epoch)

/-! ## Closing -/

/-- `CloseGeneration` on one of the generations that were unlinked: the handles it gives back to
the provider. -/
def closeGeneration (s : System) (address : ℕ) : Except Fault (List ArtifactHandle × System) :=
  if address ∉ s.closing then .error .outsideContract
  else
    match s.generation address with
    | .error fault => .error fault
    | .ok generation =>
      .ok ((generation.artifacts.reverse.filter LoadedArtifact.opened).map LoadedArtifact.handle, { s with
          generations := s.generations.free address
          closing := s.closing.erase address
          closed := address :: s.closed })

/-! ## Preparing -/

section Functions

variable (blake3 : Blake3)

/-- `laplace_perfcache_registry_prepare`. The artifacts fit memory with those of all other
generations, or there is no memory for them. -/
def prepare (s : System) (call : PrepareCall) (memory : PrepareMemory) :
    Except Fault (RegistryStatus × GenerationReceipt × System) :=
  match s.theRegistry with
  | .error fault => .error fault
  | .ok registry =>
    if !call.valid blake3 then .ok (.invalidArgument, {}, s)
    else if !memory.generation ∨ !hasMemory s.generations then .ok (.allocationFailed, {}, s)
    else
      let address := s.generations.length
      let unlinked (generation : LoadedGeneration) : System :=
        { s with
          generations := s.generations.alloc generation
          closing := address :: s.closing }
      let contents : Bool := memory.contents &&
        s.generations.total (fun generation => generation.artifacts.length) +
          call.request.artifacts.length < UInt64.size
      match loadGeneration blake3 registry.modules call contents with
      | .error failure =>
        .ok (failure.status,
          if failure.receipted then fillReceipt blake3 failure.generation .rejected failure.status
          else {}, unlinked failure.generation)
      | .ok generation =>
        if !memory.prepared ∨ !hasMemory s.prepared then
          .ok (.allocationFailed, {}, unlinked generation)
        else
          .ok (.ok, fillReceipt blake3 generation .prepared .ok, { s with
              registry := some { registry with preparedCount := registry.preparedCount + 1 }
              generations := s.generations.alloc generation
              prepared := s.prepared.alloc ⟨some address⟩
              held := s.prepared.length :: s.held })

/-! ## Reserve, commit and abort -/

/-- `RegistryReserve` -/
def reserve (s : System) (address : ℕ) (expected : Option Epoch) (memory : Bool) :
    Except Fault (Reserved × System) := do
  let registry ← s.theRegistry
  let prepared ← s.preparedGeneration address
  match prepared.generation with
  | none => .ok ({ status := .invalidArgument }, s)
  | some target =>
    let generation ← s.generation target
    let rejected (status : RegistryStatus) : Reserved :=
      { status, receipt := some (fillReceipt blake3 generation .rejected status) }
    if generation.contextFlags &&& Framework.contextReadOnly ≠ 0 then
      .ok (rejected .notAuthorized, s)
    else if !memory ∨ !hasMemory s.tickets then .ok ({ status := .allocationFailed }, s)
    else if registry.reservation.isSome then .ok (rejected .alreadyReserved, s)
    else do
      let expectedMatches ← s.expectedMatches registry.active expected
      if !expectedMatches then .ok (rejected .epochMismatch, s)
      else if registry.preparedCount = 0 then
        .ok ({ status := .internalError }, { s with prepared := s.prepared.write address ⟨none⟩ })
      else
        let ticket := s.tickets.length
        .ok ({ status := .ok, ticket := some ticket,
               receipt := some (fillReceipt blake3 generation .reserved .ok) },
          { s with
            registry := some { registry with
              reservation := some ticket
              preparedCount := registry.preparedCount - 1 }
            prepared := s.prepared.free address
            tickets := s.tickets.alloc ⟨some target⟩ })

/-- `previous->retired = true`, and the link to the list -/
def retire (s : System) (registry : Registry) : Option ℕ → Except Fault System
  | none => .ok (s.setRegistry registry)
  | some previous =>
    match s.generation previous with
    | .error fault => .error fault
    | .ok generation =>
      .ok { s with
        registry := some { registry with retired := previous :: registry.retired }
        generations := s.generations.write previous { generation with retired := true } }

/-- `RegistryCommit` -/
def commit (s : System) (address : ℕ) :
    Except Fault (RegistryStatus × Option GenerationReceipt × System) := do
  let ticket ← s.ticket address
  match ticket.generation with
  | none => .ok (.invalidArgument, none, s)
  | some target =>
    let registry ← s.theRegistry
    if registry.reservation ≠ some address then .ok (.internalError, none, s)
    else
      let s ← s.retire { registry with active := some target, reservation := none } registry.active
      let generation ← s.generation target
      .ok (.ok, some (fillReceipt blake3 generation .activated .ok),
        { s with tickets := s.tickets.free address })

/-- `RegistryAbort` -/
def abort (s : System) (address : ℕ) :
    Except Fault (RegistryStatus × Option GenerationReceipt × System) := do
  let ticket ← s.ticket address
  match ticket.generation with
  | none => .ok (.invalidArgument, none, s)
  | some target =>
    let registry ← s.theRegistry
    if registry.reservation ≠ some address then .ok (.internalError, none, s)
    else
      let generation ← s.generation target
      .ok (.ok, some (fillReceipt blake3 generation .aborted .ok), { s with
          registry := some { registry with reservation := none }
          tickets := s.tickets.free address
          closing := target :: s.closing })

/-! ## Activations -/

/-- `laplace_perfcache_activation_create` with a prepared generation that the client holds -/
def activationCreate (s : System) (address : ℕ) (expectedEpoch : Option Epoch) (memory : Bool) :
    Except Fault (RegistryStatus × System) := do
  if address ∉ s.held then .error .outsideContract
  else do
    let prepared ← s.preparedGeneration address
    if prepared.generation.isNone then .ok (.invalidArgument, s)
    else if !memory ∨ !hasMemory s.activations then .ok (.allocationFailed, s)
    else
      .ok (.ok, { s with
          activations := s.activations.alloc { prepared := some address, expectedEpoch }
          held := s.held.erase address })

/-- `PrepareFrameworkActivation` -/
def prepareFrameworkActivation (s : System) (address : ℕ) (context : Context)
    (stagedReceipt : StreamReceipt) (request : ActivationRequest) (memory : Bool) :
    Except Fault (Outcome × System) := do
  let rejected : Outcome := { framework := some .activationAdmissionFailed }
  let activation ← s.activation address
  match activation.prepared with
  | none => .ok (rejected, s)
  | some handle =>
    if activation.ticket.isSome ∨ request.epochSlot ≠ Framework.epochPerfcache then
      .ok (rejected, s)
    else do
      let prepared ← s.preparedGeneration handle
      match prepared.generation with
      | none => .ok (rejected, s)
      | some target =>
        let generation ← s.generation target
        let fingerprint := Framework.contextFingerprint blake3 context
        if fingerprint.1 ≠ .ok ∨ fingerprint.2 ≠ generation.contextFingerprint ∨
            stagedReceipt.receiptId ≠ generation.stagedReceiptId ∨
            request.nextEpoch ≠ generation.epochFingerprint ∨
            (activation.expectedEpoch.any fun epoch =>
              request.expectedEpoch ≠ epoch.epochFingerprint) then
          .ok (rejected, s)
        else do
          let (reserved, s) ← s.reserve blake3 handle activation.expectedEpoch memory
          let receipt := reserved.receipt.getD activation.receipt
          if reserved.status ≠ .ok then
            .ok ({ rejected with registry := some reserved.status },
              { s with activations := s.activations.write address { activation with receipt } })
          else
            .ok ({ registry := some .ok, framework := some .ok
                   fingerprint := some receipt.receiptId },
              { s with
                activations := s.activations.write address
                  { activation with prepared := none, ticket := reserved.ticket, receipt } })

/-- `CommitFrameworkActivation` -/
def commitFrameworkActivation (s : System) (address : ℕ) (preparationFingerprint : Digest256) :
    Except Fault (Outcome × System) := do
  let rejected : Outcome := { framework := some .activationCommitFailed }
  let activation ← s.activation address
  match activation.ticket with
  | none => .ok (rejected, s)
  | some ticket =>
    if preparationFingerprint ≠ activation.receipt.receiptId then .ok (rejected, s)
    else do
      let (status, receipt, s) ← s.commit blake3 ticket
      if status ≠ .ok then .ok ({ rejected with registry := some status }, s)
      else
        let receipt := receipt.getD activation.receipt
        .ok ({ registry := some .ok, framework := some .ok
               fingerprint := some receipt.receiptId },
          { s with
            activations := s.activations.write address { activation with ticket := none, receipt } })

/-- `AbortFrameworkActivation` -/
def abortFrameworkActivation (s : System) (address : ℕ) : Except Fault (Outcome × System) := do
  let activation ← s.activation address
  match activation.ticket with
  | none => .ok ({}, s)
  | some ticket => do
    let (status, receipt, s) ← s.abort blake3 ticket
    if status ≠ .ok then .ok ({ registry := some status }, s)
    else
      .ok ({ registry := some status }, { s with
          activations := s.activations.write address
            { activation with ticket := none, receipt := receipt.getD activation.receipt } })

/-! ## Prepared generations -/

/-- What `laplace_perfcache_registry_discard_prepared` does with the object it takes over. -/
def discardOwned (s : System) (address : ℕ) : Except Fault System := do
  let prepared ← s.preparedGeneration address
  match prepared.generation with
  | none => .ok { s with prepared := s.prepared.free address }
  | some target => do
    let registry ← s.theRegistry
    let preparedCount :=
      if registry.preparedCount ≠ 0 then registry.preparedCount - 1 else registry.preparedCount
    .ok { s with
          registry := some { registry with preparedCount }
          prepared := s.prepared.free address
          closing := target :: s.closing }

/-- `laplace_perfcache_registry_discard_prepared` -/
def discardPrepared (s : System) (address : ℕ) : Except Fault System :=
  if address ∉ s.held then .error .outsideContract
  else { s with held := s.held.erase address }.discardOwned address

/-- `laplace_perfcache_activation_destroy` -/
def activationDestroy (s : System) (address : ℕ) : Except Fault (Outcome × System) := do
  let activation ← s.activation address
  let aborted : Except Fault (Outcome × System) :=
    if activation.ticket.isSome then s.abortFrameworkActivation blake3 address else .ok ({}, s)
  let (outcome, s) ← aborted
  let discarded : Except Fault System :=
    match activation.prepared with
    | none => .ok s
    | some prepared => s.discardOwned prepared
  let s ← discarded
  .ok (outcome, { s with activations := s.activations.free address })

/-- `laplace_perfcache_registry_materialize_prepared` -/
def materializePrepared (s : System) (address : ℕ) :
    Except Fault (RegistryStatus × Option GenerationReceipt × System) := do
  if address ∉ s.held then .error .outsideContract
  else do
    let prepared ← s.preparedGeneration address
    match prepared.generation with
    | none => .ok (.invalidArgument, none, s)
    | some target => do
      let registry ← s.theRegistry
      let generation ← s.generation target
      let found ← s.findGeneration generation.epoch (registry.active.toList ++ registry.retired)
      if found.isSome then .ok (.busy, none, s)
      else if registry.preparedCount = 0 then .ok (.internalError, none, s)
      else
        let generation := { generation with retired := true }
        .ok (.ok, some (fillReceipt blake3 generation .materialized .ok), { s with
            registry := some { registry with
              preparedCount := registry.preparedCount - 1
              retired := target :: registry.retired }
            generations := s.generations.write target generation
            prepared := s.prepared.free address
            held := s.held.erase address })

end Functions

/-! ## Pins -/

/-- A pin structure that a client sets to zero; it takes an address. -/
def newPin (s : System) : System :=
  if s.pins.length < UInt64.size - 1 then { s with pins := s.pins ++ [none] } else s

/-- The reader count goes up and the pin in the slot points to the generation. -/
def pinGeneration (s : System) (slot address : ℕ) (generation : LoadedGeneration) (epoch : Epoch) :
    System :=
  { s with
    generations := s.generations.write address
      { generation with readers := generation.readers + 1 }
    pins := s.pins.set slot (some (address, epoch)) }

/-- `laplace_perfcache_registry_pin` -/
def pin (s : System) (slot : ℕ) (expected : Option Epoch) :
    Except Fault (RegistryStatus × System) :=
  match s.pins[slot]? with
  | none => .error .outsideContract
  | some (some _) => .ok (.invalidArgument, s)
  | some none => do
    let registry ← s.theRegistry
    match registry.active with
    | none => .ok (.noActiveGeneration, s)
    | some address => do
      let generation ← s.generation address
      if expected.any fun epoch => generation.epoch ≠ epoch then .ok (.epochMismatch, s)
      else if generation.readers = maxWord then .ok (.internalError, s)
      else .ok (.ok, s.pinGeneration slot address generation generation.epoch)

/-- `laplace_perfcache_registry_pin_epoch` -/
def pinEpoch (s : System) (slot : ℕ) (epoch : Epoch) : Except Fault (RegistryStatus × System) :=
  match s.pins[slot]? with
  | none => .error .outsideContract
  | some (some _) => .ok (.invalidArgument, s)
  | some none => do
    let registry ← s.theRegistry
    let found ← s.findGeneration epoch (registry.active.toList ++ registry.retired)
    match found with
    | none => .ok (.epochMismatch, s)
    | some address => do
      let generation ← s.generation address
      if generation.readers = maxWord then .ok (.internalError, s)
      else .ok (.ok, s.pinGeneration slot address generation epoch)

/-- `laplace_perfcache_pin_release` -/
def pinRelease (s : System) (slot : ℕ) : Except Fault (RegistryStatus × System) :=
  match s.pins[slot]? with
  | none => .error .outsideContract
  | some none => .ok (.invalidArgument, s)
  | some (some (address, _)) => do
    let _ ← s.theRegistry
    let generation ← s.generation address
    if generation.readers = 0 then .ok (.internalError, s)
    else
      .ok (.ok, { s with
          generations := s.generations.write address
            { generation with readers := generation.readers - 1 }
          pins := s.pins.set slot none })

/-! ## Collecting and destroying -/

/-- The generations of a list, with their addresses. -/
def loaded (s : System) : List ℕ → Except Fault (List (ℕ × LoadedGeneration))
  | [] => .ok []
  | address :: addresses => do
    let generation ← s.generation address
    let generations ← s.loaded addresses
    .ok ((address, generation) :: generations)

/-- The first loop of `collect`: the totals of the generations without readers, or nothing when one
of them does not fit. -/
def collectTotals :
    List (ℕ × LoadedGeneration) → UInt64 × UInt64 × UInt64 → Option (UInt64 × UInt64 × UInt64)
  | [], totals => some totals
  | (_, generation) :: generations, (generationTotal, artifactTotal, byteTotal) =>
    if generation.readers ≠ 0 then
      collectTotals generations (generationTotal, artifactTotal, byteTotal)
    else
      let artifacts := UInt64.ofNat generation.artifacts.length
      if generationTotal = maxWord ∨ maxWord - artifactTotal < artifacts ∨
          maxWord - byteTotal < generation.mappedBytes then none
      else
        collectTotals generations
          (generationTotal + 1, artifactTotal + artifacts, byteTotal + generation.mappedBytes)

/-- What the second loop of `collect` adds up. -/
def collectedTotals (generations : List (ℕ × LoadedGeneration)) : UInt64 × UInt64 × UInt64 :=
  generations.foldl (fun totals entry =>
    (totals.1 + 1, totals.2.1 + UInt64.ofNat entry.2.artifacts.length,
      totals.2.2 + entry.2.mappedBytes)) (0, 0, 0)

/-- `laplace_perfcache_registry_collect` -/
def collect (s : System) : Except Fault (RegistryStatus × (UInt64 × UInt64 × UInt64) × System) := do
  let registry ← s.theRegistry
  let generations ← s.loaded registry.retired
  match collectTotals generations (0, 0, 0) with
  | none => .ok (.internalError, (0, 0, 0), s)
  | some totals =>
    let unread := generations.filter fun entry => entry.2.readers = 0
    let read := generations.filter fun entry => entry.2.readers ≠ 0
    let collected := collectedTotals unread
    let s := s.setRegistry { registry with retired := read.map Prod.fst }
    if collected ≠ totals then .ok (.internalError, collected, s)
    else .ok (.ok, collected, { s with closing := (unread.map Prod.fst).reverse ++ s.closing })

/-- `laplace_perfcache_registry_destroy` -/
def destroy (s : System) : Except Fault (RegistryStatus × System) := do
  let registry ← s.theRegistry
  let retired ← s.loaded registry.retired
  let active ← s.loaded registry.active.toList
  if registry.reservation.isSome ∨ registry.preparedCount ≠ 0 ∨
      (active ++ retired).any fun entry => decide (entry.2.readers ≠ 0) then .ok (.busy, s)
  else
    .ok (.ok, { s with
        registry := none
        closing := registry.active.toList ++ registry.retired ++ s.closing })

end System

/-! ## Runs -/

/-- One step of some client; `close` is the part of a call that follows the lock. -/
inductive Action
  | prepare (call : PrepareCall) (memory : PrepareMemory)
  | activationCreate (prepared : ℕ) (expectedEpoch : Option Epoch) (memory : Bool)
  | prepareActivation (activation : ℕ) (context : Context) (stagedReceipt : StreamReceipt)
      (request : ActivationRequest) (memory : Bool)
  | commitActivation (activation : ℕ) (preparationFingerprint : Digest256)
  | abortActivation (activation : ℕ)
  | activationDestroy (activation : ℕ)
  | discardPrepared (prepared : ℕ)
  | materializePrepared (prepared : ℕ)
  | newPin
  | pin (slot : ℕ) (expected : Option Epoch)
  | pinEpoch (slot : ℕ) (epoch : Epoch)
  | pinRelease (slot : ℕ)
  | collect
  | destroy
  | close (generation : ℕ)

def System.step (blake3 : Blake3) (s : System) :
    Action → Except Fault (Outcome × System)
  | .prepare call memory => do
    let (status, receipt, s) ← s.prepare blake3 call memory
    .ok ({ registry := some status, receipt := some receipt }, s)
  | .activationCreate prepared expectedEpoch memory => do
    let (status, s) ← s.activationCreate prepared expectedEpoch memory
    .ok ({ registry := some status }, s)
  | .prepareActivation activation context stagedReceipt request memory =>
    s.prepareFrameworkActivation blake3 activation context stagedReceipt request memory
  | .commitActivation activation preparationFingerprint =>
    s.commitFrameworkActivation blake3 activation preparationFingerprint
  | .abortActivation activation => s.abortFrameworkActivation blake3 activation
  | .activationDestroy activation => s.activationDestroy blake3 activation
  | .discardPrepared prepared => do
    let s ← s.discardPrepared prepared
    .ok ({}, s)
  | .materializePrepared prepared => do
    let (status, receipt, s) ← s.materializePrepared blake3 prepared
    .ok ({ registry := some status, receipt }, s)
  | .newPin => .ok ({}, s.newPin)
  | .pin slot expected => do
    let (status, s) ← s.pin slot expected
    .ok ({ registry := some status }, s)
  | .pinEpoch slot epoch => do
    let (status, s) ← s.pinEpoch slot epoch
    .ok ({ registry := some status }, s)
  | .pinRelease slot => do
    let (status, s) ← s.pinRelease slot
    .ok ({ registry := some status }, s)
  | .collect => do
    let (status, totals, s) ← s.collect
    .ok ({ registry := some status, totals := some totals }, s)
  | .destroy => do
    let (status, s) ← s.destroy
    .ok ({ registry := some status }, s)
  | .close generation => do
    let (_, s) ← s.closeGeneration generation
    .ok ({}, s)

/-- What the clients of one registry can reach, in any order of their steps. -/
inductive System.Reachable (blake3 : Blake3) : System → Prop
  | create (modules : List RegisteredModule) : Reachable blake3 (System.create modules)
  | step {s s' : System} {outcome : Outcome} (action : Action) : Reachable blake3 s →
    s.step blake3 action = .ok (outcome, s') → Reachable blake3 s'

end Laplace.Perfcache
