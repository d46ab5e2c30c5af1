import Laplace.Execution.Acceptance
import Laplace.Lib.Apportionment
import Laplace.Lib.Outcome

/-!
# The partition of a grant (execution.cpp:820-869, 953-1047)

Each resource is split in the same way: everyone gets the minimum asked for, and the rest by weight.
The three setters differ in the width of what they write, so a setter is the value that is kept. The
children are written when all three resources are split.
-/

namespace Laplace.Execution

/-! ## Splitting a resource -/

/-- `laplace_execution_partition_request` -/
structure PartitionRequest where
  minimumMemoryBytes : UInt64
  memoryWeight : UInt16
  cpuWeight : UInt16
  ioWeight : UInt16
  minimumCpuSlots : UInt16
  minimumIoSlots : UInt16
  reserved : UInt16 := 0
deriving DecidableEq, Repr

section Resource

variable (minimum weight : PartitionRequest → UInt64)

/-- `add_overflows`, with the status that the first loop of `partition_resource` returns. -/
@[irreducible] def addSum (left right : UInt64) : Except Status UInt64 :=
  (addOverflows left right).elim (.error .overflow) .ok

/-- A step of the first loop of `partition_resource`: the sums of the minimums and of the weights. -/
def addRequest (sums : UInt64 × UInt64) (request : PartitionRequest) :
    Except Status (UInt64 × UInt64) := do
  let minimumSum ← addSum sums.1 (minimum request)
  let weightSum ← addSum sums.2 (weight request)
  if weightSum > 0xFFFFFFFF then .error .overflow else .ok (minimumSum, weightSum)

/-- What an item gets beyond its minimum. -/
def shareOf (remainder weightSum itemWeight : UInt64) : UInt64 :=
  if weightSum ≠ 0 ∧ itemWeight ≠ 0 then
    let quotient := remainder / weightSum
    let residual := remainder % weightSum
    quotient * itemWeight + residual * itemWeight / weightSum
  else 0

variable (store : UInt64 → UInt64)

/-- The second loop: what is written, and what was assigned beyond the minimums. -/
def assignShares (remainder weightSum assigned : UInt64) :
    List PartitionRequest → List UInt64 × UInt64
  | [] => ([], assigned)
  | request :: requests =>
    let share := shareOf remainder weightSum (weight request)
    let rest := assignShares remainder weightSum (assigned + share) requests
    (store (minimum request + share) :: rest.1, rest.2)

/-- The third loop: a unit more for each item with a weight, until none is left. -/
def assignUnits (unassigned : UInt64) : List PartitionRequest → List UInt64 → List UInt64
  | request :: requests, amount :: amounts =>
    if unassigned = 0 then amount :: amounts
    else if weight request ≠ 0 then
      store (amount + 1) :: assignUnits (unassigned - 1) requests amounts
    else amount :: assignUnits unassigned requests amounts
  | _, amounts => amounts

/-- `partition_resource` -/
def partitionResource (total : UInt64) (requests : List PartitionRequest) : Except Status (List UInt64) :=
  match requests.foldlM (addRequest minimum weight) (0, 0) with
  | .error status => .error status
  | .ok (minimumSum, weightSum) =>
    if minimumSum > total then .error .resourceInsufficient
    else
      let remainder := total - minimumSum
      if remainder ≠ 0 ∧ weightSum = 0 then .error .invalidArgument
      else
        let (amounts, assigned) := assignShares minimum weight store remainder weightSum 0 requests
        .ok (assignUnits weight store (remainder - assigned) requests amounts)

end Resource

/-! ## Splitting a grant -/

/-- What a field of 32 bits keeps. -/
def keepSlots (amount : UInt64) : UInt64 := amount.toUInt32.toUInt64

def partitionMemory (parent : ExecutionGrant) (requests : List PartitionRequest) :
    Except Status (List UInt64) :=
  partitionResource (·.minimumMemoryBytes) (·.memoryWeight.toUInt64) id parent.memoryBytes requests

def partitionCpu (parent : ExecutionGrant) (requests : List PartitionRequest) :
    Except Status (List UInt64) :=
  partitionResource (·.minimumCpuSlots.toUInt64) (·.cpuWeight.toUInt64) keepSlots
    parent.cpuSlots.toUInt64 requests

def partitionIo (parent : ExecutionGrant) (requests : List PartitionRequest) :
    Except Status (List UInt64) :=
  partitionResource (·.minimumIoSlots.toUInt64) (·.ioWeight.toUInt64) keepSlots
    parent.ioSlots.toUInt64 requests

/-- The grants of three lists of amounts. -/
def zipGrants : List UInt64 → List UInt64 → List UInt64 → List ExecutionGrant
  | memory :: memories, cpu :: cpus, io :: ios =>
    ⟨memory, cpu.toUInt32, io.toUInt32⟩ :: zipGrants memories cpus ios
  | _, _, _ => []

/-- The calculation of `laplace_execution_partition_grant`. -/
def partition (parent : ExecutionGrant) (requests : List PartitionRequest) :
    Except Status (List ExecutionGrant) :=
  if requests = [] ∨ requests.length > 0xFFFFFFFF / 0xFFFF then .error .invalidArgument
  else if requests.any (·.reserved ≠ 0) then .error .invalidArgument
  else do
    let memory ← partitionMemory parent requests
    let cpu ← partitionCpu parent requests
    let io ← partitionIo parent requests
    return zipGrants memory cpu io

/-- `laplace_execution_partition_grant`: the status and the children after the call. -/
def partitionGrant (parent : ExecutionGrant) (requests : List PartitionRequest)
    (children : List ExecutionGrant) : Status × List ExecutionGrant :=
  match partition parent requests with
  | .error status => (status, children)
  | .ok next => (.ok, next ++ children.drop next.length)

/-! ## What a split promises -/

theorem addSum_ok {left right sum : UInt64} (h : addSum left right = .ok sum) :
    sum.toNat = left.toNat + right.toNat := by
  rw [addSum] at h
  cases hsum : addOverflows left right with
  | none =>
    rw [hsum] at h
    cases h
  | some found =>
    rw [hsum] at h
    cases h
    exact addOverflows_eq_some.1 hsum

section Resource

variable {minimum weight : PartitionRequest → UInt64} {store : UInt64 → UInt64}

/-- The amounts of a list of requests, as numbers. -/
def numbers (amount : PartitionRequest → UInt64) (requests : List PartitionRequest) : List ℕ :=
  requests.map fun request => (amount request).toNat

variable {request : PartitionRequest}

theorem addRequest_ok {sums next : UInt64 × UInt64}
    (h : addRequest minimum weight sums request = .ok next) :
    next.1.toNat = sums.1.toNat + (minimum request).toNat ∧
      next.2.toNat = sums.2.toNat + (weight request).toNat ∧ next.2 ≤ 0xFFFFFFFF := by
  obtain ⟨minimumSum, hminimum, h⟩ := bind_eq_ok.1 h
  obtain ⟨weightSum, hweight, h⟩ := bind_eq_ok.1 h
  split at h
  · cases h
  · rename_i hle
    cases h
    exact ⟨addSum_ok hminimum, addSum_ok hweight, UInt64.not_lt.1 hle⟩

theorem foldlM_addRequest_ok : ∀ {requests : List PartitionRequest} {sums total : UInt64 × UInt64},
    sums.2 ≤ 0xFFFFFFFF → requests.foldlM (addRequest minimum weight) sums = .ok total →
    total.1.toNat = sums.1.toNat + (numbers minimum requests).sum ∧
      total.2.toNat = sums.2.toNat + (numbers weight requests).sum ∧ total.2 ≤ 0xFFFFFFFF
  | [], _, _, hweight, h => by
    cases h
    exact ⟨rfl, rfl, hweight⟩
  | request :: requests, sums, total, _, h => by
    rw [List.foldlM_cons] at h
    obtain ⟨next, hstep, h⟩ := bind_eq_ok.1 h
    obtain ⟨hminimum, hweight, hle⟩ := addRequest_ok hstep
    obtain ⟨hminimums, hweights, hbound⟩ := foldlM_addRequest_ok hle h
    unfold numbers at hminimums hweights ⊢
    rw [List.map_cons, List.map_cons, List.sum_cons, List.sum_cons]
    exact ⟨by omega, by omega, hbound⟩

theorem shareOf_toNat {remainder weightSum itemWeight : UInt64} (hsum : weightSum ≤ 0xFFFFFFFF)
    (hitem : itemWeight ≤ weightSum) : (shareOf remainder weightSum itemWeight).toNat =
      remainder.toNat * itemWeight.toNat / weightSum.toNat := by
  have hremainder := remainder.toNat_lt
  rw [UInt64.le_iff_toNat_le] at hsum hitem
  rw [show (0xFFFFFFFF : UInt64).toNat = 2 ^ 32 - 1 from rfl] at hsum
  unfold shareOf
  split
  · rename_i hne
    have hpos : 0 < weightSum.toNat := Nat.pos_of_ne_zero fun hzero => hne.1 (UInt64.toNat_inj.1 hzero)
    have hresidual := Nat.mod_lt remainder.toNat hpos
    have hquotient : remainder.toNat / weightSum.toNat * itemWeight.toNat ≤ remainder.toNat :=
      (Nat.mul_le_mul_left _ hitem).trans (Nat.div_mul_le_self _ _)
    have hproduct : remainder.toNat % weightSum.toNat * itemWeight.toNat < 2 ^ 64 := by
      have hmul := Nat.mul_le_mul (hresidual.le.trans hsum) (hitem.trans hsum)
      exact hmul.trans_lt (by norm_num)
    have hfloor := Apportionment.floor_eq remainder.toNat itemWeight.toNat hpos
    have hle : remainder.toNat * itemWeight.toNat / weightSum.toNat ≤ remainder.toNat :=
      Nat.div_le_of_le_mul ((Nat.mul_le_mul_left _ hitem).trans (Nat.mul_comm _ _).le)
    dsimp only
    rw [UInt64.toNat_add, UInt64.toNat_mul, UInt64.toNat_div, UInt64.toNat_div, UInt64.toNat_mul,
      UInt64.toNat_mod, Nat.mod_eq_of_lt hproduct, Nat.mod_eq_of_lt (hquotient.trans_lt hremainder), hfloor,
      Nat.mod_eq_of_lt (hle.trans_lt hremainder)]
  · rename_i hzero
    have hitemZero : itemWeight.toNat = 0 := by
      by_contra hne
      refine hzero ⟨fun hsumZero => hne ?_, fun hitemZero => hne ?_⟩
      · rw [hsumZero] at hitem
        exact Nat.le_zero.1 hitem
      · rw [hitemZero]
        rfl
    rw [hitemZero, Nat.mul_zero, Nat.zero_div]
    rfl

variable {total remainder weightSum : UInt64} {requests : List PartitionRequest}

/-- The floor of the proportional part of a request. -/
def floorOf (weight : PartitionRequest → UInt64) (remainder weightSum : UInt64)
    (request : PartitionRequest) : ℕ := remainder.toNat * (weight request).toNat / weightSum.toNat

theorem assignShares_ok (hsum : weightSum ≤ 0xFFFFFFFF)
    (hstore : ∀ amount : UInt64, amount.toNat ≤ total.toNat → store amount = amount) :
    ∀ {requests : List PartitionRequest} {assigned : UInt64},
    (∀ request ∈ requests, weight request ≤ weightSum ∧
      (minimum request).toNat + floorOf weight remainder weightSum request ≤ total.toNat) →
    assigned.toNat + (requests.map (floorOf weight remainder weightSum)).sum < 2 ^ 64 →
    (assignShares minimum weight store remainder weightSum assigned requests).1.map UInt64.toNat =
        requests.map (fun request => (minimum request).toNat + floorOf weight remainder weightSum request) ∧
      (assignShares minimum weight store remainder weightSum assigned requests).2.toNat =
        assigned.toNat + (requests.map (floorOf weight remainder weightSum)).sum
  | [], _, _, _ => ⟨rfl, rfl⟩
  | request :: requests, assigned, heach, hroom => by
    obtain ⟨hitem, hle⟩ := heach request List.mem_cons_self
    have hshare : (shareOf remainder weightSum (weight request)).toNat =
        floorOf weight remainder weightSum request := shareOf_toNat hsum hitem
    rw [List.map_cons, List.sum_cons] at hroom
    have hassigned : (assigned + shareOf remainder weightSum (weight request)).toNat =
        assigned.toNat + floorOf weight remainder weightSum request := by
      rw [UInt64.toNat_add, hshare, Nat.mod_eq_of_lt (by omega)]
    have hamount : (minimum request + shareOf remainder weightSum (weight request)).toNat =
        (minimum request).toNat + floorOf weight remainder weightSum request := by
      rw [UInt64.toNat_add, hshare, Nat.mod_eq_of_lt (hle.trans_lt total.toNat_lt)]
    have hnext : (assigned + shareOf remainder weightSum (weight request)).toNat +
        (requests.map (floorOf weight remainder weightSum)).sum < 2 ^ 64 := by
      rw [hassigned]
      omega
    obtain ⟨hamounts, hrest⟩ := assignShares_ok hsum hstore
      (fun other hother => heach other (List.mem_cons_of_mem _ hother)) hnext
    refine ⟨?_, ?_⟩
    · rw [assignShares, List.map_cons, List.map_cons, hstore _ (hamount.trans_le hle), hamount, hamounts]
    · rw [assignShares, List.map_cons, List.sum_cons, hrest, hassigned, Nat.add_assoc]

theorem zipWith_handOut_zero : ∀ (amounts weights : List ℕ), amounts.length = weights.length →
    amounts.zipWith (· + ·) (Apportionment.handOut 0 weights) = amounts
  | [], _, _ => rfl
  | amount :: amounts, weight :: weights, h => by
    rw [Apportionment.handOut, if_neg fun hhand => hhand.1 rfl, List.zipWith_cons_cons, Nat.add_zero,
      zipWith_handOut_zero amounts weights (Nat.succ.inj h)]

theorem assignUnits_ok (hstore : ∀ amount : UInt64, amount.toNat ≤ total.toNat → store amount = amount) :
    ∀ {requests : List PartitionRequest} {amounts : List UInt64} {unassigned : UInt64},
    amounts.length = requests.length → (unassigned ≠ 0 → ∀ amount ∈ amounts, amount.toNat < total.toNat) →
    (assignUnits weight store unassigned requests amounts).map UInt64.toNat =
      (amounts.map UInt64.toNat).zipWith (· + ·)
        (Apportionment.handOut unassigned.toNat (numbers weight requests))
  | [], [], _, _, _ => rfl
  | request :: requests, amount :: amounts, unassigned, hlength, hroom => by
    by_cases hzero : unassigned = 0
    · rw [assignUnits, if_pos hzero, hzero]
      refine (zipWith_handOut_zero _ _ ?_).symm
      rw [numbers, List.length_map, List.length_map, hlength]
    · have hne : unassigned.toNat ≠ 0 := fun heq => hzero (UInt64.toNat_inj.1 heq)
      have hlt := hroom hzero amount List.mem_cons_self
      have hrest : ∀ other ∈ amounts, other.toNat < total.toNat := fun other hother =>
        hroom hzero other (List.mem_cons_of_mem _ hother)
      rw [assignUnits, if_neg hzero, numbers, List.map_cons, List.map_cons, Apportionment.handOut]
      by_cases hweight : weight request = 0
      · have hskip : ¬ (unassigned.toNat ≠ 0 ∧ (weight request).toNat ≠ 0) := fun hhand =>
          hhand.2 (by rw [hweight]; rfl)
        rw [if_neg (not_not.2 hweight), if_neg hskip, List.map_cons, List.zipWith_cons_cons,
          assignUnits_ok hstore (Nat.succ.inj hlength) fun _ => hrest]
        rfl
      · have hhand : unassigned.toNat ≠ 0 ∧ (weight request).toNat ≠ 0 :=
          ⟨hne, fun heq => hweight (UInt64.toNat_inj.1 heq)⟩
        have hamount : (amount + 1).toNat = amount.toNat + 1 := by
          have htotal := total.toNat_lt
          rw [UInt64.toNat_add, UInt64.toNat_one, Nat.mod_eq_of_lt (by omega)]
        have hunits : (unassigned - 1).toNat = unassigned.toNat - 1 := by
          refine UInt64.toNat_sub_of_le _ _ (UInt64.le_iff_toNat_le.2 ?_)
          rw [UInt64.toNat_one]
          omega
        rw [if_pos hweight, if_pos hhand, List.map_cons, List.zipWith_cons_cons, hstore _ (by omega),
          hamount, assignUnits_ok hstore (Nat.succ.inj hlength) fun _ => hrest, hunits]
        rfl

theorem le_sum_numbers {weight : PartitionRequest → UInt64} (h : request ∈ requests) :
    (weight request).toNat ≤ (numbers weight requests).sum :=
  List.le_sum_of_mem (List.mem_map_of_mem h)

theorem least_le (hrequest : request ∈ requests)
    (hminimum : (numbers minimum requests).sum + remainder.toNat = total.toNat)
    (hweight : weightSum.toNat = (numbers weight requests).sum) :
    (minimum request).toNat + floorOf weight remainder weightSum request ≤ total.toNat := by
  have hleast : (minimum request).toNat ≤ _ := le_sum_numbers hrequest
  have hpart : floorOf weight remainder weightSum request ≤ remainder.toNat := by
    refine Nat.div_le_of_le_mul ?_
    rw [Nat.mul_comm]
    exact Nat.mul_le_mul_right _ (hweight ▸ le_sum_numbers hrequest)
  omega

theorem floors_le (hweight : weightSum.toNat = (numbers weight requests).sum) :
    (requests.map (floorOf weight remainder weightSum)).sum ≤ remainder.toNat := by
  rcases Nat.eq_zero_or_pos weightSum.toNat with hzero | hpos
  · have hfloor : ∀ request, floorOf weight remainder weightSum request = 0 := fun request => by
      rw [floorOf, hzero, Nat.div_zero]
    rw [funext hfloor, List.map_const', List.sum_replicate, smul_zero]
    exact Nat.zero_le _
  · have hfloors : ((numbers weight requests).map fun part =>
        remainder.toNat * part / (numbers weight requests).sum).sum ≤ remainder.toNat :=
      Apportionment.sum_floors_le (hweight ▸ hpos)
    rw [numbers, List.map_map] at hfloors
    rw [numbers] at hweight
    unfold floorOf
    rw [hweight]
    exact hfloors

theorem split_assigned (hbound : weightSum ≤ 0xFFFFFFFF)
    (hstore : ∀ amount : UInt64, amount.toNat ≤ total.toNat → store amount = amount)
    (hremainder : remainder.toNat = total.toNat - (numbers minimum requests).sum)
    (hle : (numbers minimum requests).sum ≤ total.toNat)
    (hweight : weightSum.toNat = (numbers weight requests).sum)
    (hrest : (numbers minimum requests).sum = total.toNat ∨ 0 < (numbers weight requests).sum) :
    Apportionment.Split total.toNat (fun request => (minimum request).toNat)
      (fun request => (weight request).toNat) requests ((assignUnits weight store
        (remainder - (assignShares minimum weight store remainder weightSum 0 requests).2) requests
        (assignShares minimum weight store remainder weightSum 0 requests).1).map UInt64.toNat) := by
  have hfloors : (requests.map (floorOf weight remainder weightSum)).sum ≤ remainder.toNat :=
    floors_le hweight
  have hroom : (0 : UInt64).toNat + (requests.map (floorOf weight remainder weightSum)).sum < 2 ^ 64 := by
    rw [UInt64.toNat_zero, Nat.zero_add]
    exact hfloors.trans_lt remainder.toNat_lt
  have htotal : (numbers minimum requests).sum + remainder.toNat = total.toNat := by
    rw [hremainder]
    exact Nat.add_sub_cancel' hle
  obtain ⟨hshares, hassigned⟩ := assignShares_ok hbound hstore
    (fun request hrequest => ⟨UInt64.le_iff_toNat_le.2 (hweight ▸ le_sum_numbers hrequest),
      least_le hrequest htotal hweight⟩) hroom
  rw [UInt64.toNat_zero, Nat.zero_add] at hassigned
  have hleft := UInt64.toNat_sub_of_le remainder _
    (UInt64.le_iff_toNat_le.2 (hassigned.trans_le hfloors))
  unfold numbers at hle hrest hremainder hweight
  rw [assignUnits_ok hstore, hshares, hleft, hassigned]
  · unfold floorOf
    rw [hremainder, hweight]
    exact Apportionment.split_shares hle hrest
  · have hlength := congrArg List.length hshares
    rwa [List.length_map, List.length_map] at hlength
  · -- a unit is left, so the floors do not reach the remainder
    intro hunassigned amount hamount
    have hmem := hshares ▸ List.mem_map_of_mem (f := UInt64.toNat) hamount
    obtain ⟨request, hrequest, heq⟩ := List.mem_map.1 hmem
    have hleast : (minimum request).toNat ≤ _ := le_sum_numbers hrequest
    have hfloor : floorOf weight remainder weightSum request ≤ _ :=
      List.le_sum_of_mem (List.mem_map_of_mem hrequest)
    have hpos := Nat.pos_of_ne_zero fun hzero => hunassigned (UInt64.toNat_inj.1 hzero)
    rw [hleft, hassigned] at hpos
    rw [numbers] at hleast
    omega

theorem partitionResource_ok {amounts : List UInt64}
    (hstore : ∀ amount : UInt64, amount.toNat ≤ total.toNat → store amount = amount)
    (h : partitionResource minimum weight store total requests = .ok amounts) :
    Apportionment.Split total.toNat (fun request => (minimum request).toNat)
      (fun request => (weight request).toNat) requests (amounts.map UInt64.toNat) := by
  unfold partitionResource at h
  split at h
  · cases h
  · rename_i minimumSum weightSum hsums
    have hzero : (0 : UInt64) ≤ 0xFFFFFFFF := UInt64.le_iff_toNat_le.2 (Nat.zero_le _)
    obtain ⟨hminimum, hweight, hbound⟩ := foldlM_addRequest_ok hzero hsums
    dsimp only at hminimum hweight hbound
    rw [UInt64.toNat_zero, Nat.zero_add] at hminimum hweight
    split at h
    · cases h
    · rename_i hle
      rw [gt_iff_lt, UInt64.not_lt] at hle
      have hremainder := UInt64.toNat_sub_of_le _ _ hle
      rw [UInt64.le_iff_toNat_le, hminimum] at hle
      rw [hminimum] at hremainder
      dsimp only at h
      split at h
      · cases h
      · rename_i hweighted
        rw [← Except.ok.inj h]
        refine split_assigned hbound hstore hremainder hle hweight ?_
        by_contra hneither
        rw [not_or] at hneither
        refine hweighted ⟨fun hrest => hneither.1 ?_, UInt64.toNat_inj.1 ?_⟩
        · have hnone := congrArg UInt64.toNat hrest
          rw [hremainder, UInt64.toNat_zero] at hnone
          omega
        · rw [hweight]
          exact Nat.eq_zero_of_not_pos hneither.2

end Resource

section Grants

variable {parent : ExecutionGrant} {requests : List PartitionRequest}

theorem map_zipGrants : ∀ {memory cpu io : List UInt64}, cpu.length = memory.length →
    io.length = memory.length → (zipGrants memory cpu io).map (·.memoryBytes) = memory ∧
      (zipGrants memory cpu io).map (·.cpuSlots) = cpu.map UInt64.toUInt32 ∧
      (zipGrants memory cpu io).map (·.ioSlots) = io.map UInt64.toUInt32
  | [], [], [], _, _ => ⟨rfl, rfl, rfl⟩
  | memory :: memories, cpu :: cpus, io :: ios, hcpu, hio => by
    obtain ⟨hmemories, hcpus, hios⟩ := map_zipGrants (Nat.succ.inj hcpu) (Nat.succ.inj hio)
    rw [zipGrants, List.map_cons, List.map_cons, List.map_cons, List.map_cons, List.map_cons, hmemories,
      hcpus, hios]
    exact ⟨rfl, rfl, rfl⟩

theorem keepSlots_of_le (slots : UInt32) (amount : UInt64) (h : amount.toNat ≤ slots.toUInt64.toNat) :
    keepSlots amount = amount := by
  rw [UInt32.toNat_toUInt64] at h
  refine UInt64.toNat_inj.1 ?_
  rw [keepSlots, UInt32.toNat_toUInt64, UInt64.toNat_toUInt32]
  exact Nat.mod_eq_of_lt (h.trans_lt slots.toNat_lt)

theorem toUInt32_of_split {slots : UInt32} {minimum weight : PartitionRequest → ℕ} {amounts : List UInt64}
    (h : Apportionment.Split slots.toUInt64.toNat minimum weight requests (amounts.map UInt64.toNat)) :
    amounts.map (fun amount => amount.toUInt32.toNat) = amounts.map UInt64.toNat := by
  refine List.map_congr_left fun amount hamount => ?_
  have hle := List.le_sum_of_mem (List.mem_map_of_mem (f := UInt64.toNat) hamount)
  rw [h.complete, UInt32.toNat_toUInt64] at hle
  rw [UInt64.toNat_toUInt32]
  exact Nat.mod_eq_of_lt (hle.trans_lt slots.toNat_lt)

/-- What the children of a parent are: each resource is split completely. -/
structure Partitioned (parent : ExecutionGrant) (requests : List PartitionRequest)
    (grants : List ExecutionGrant) : Prop where
  memory : Apportionment.Split parent.memoryBytes.toNat (·.minimumMemoryBytes.toNat) (·.memoryWeight.toNat)
    requests (grants.map (·.memoryBytes.toNat))
  cpu : Apportionment.Split parent.cpuSlots.toNat (·.minimumCpuSlots.toNat) (·.cpuWeight.toNat)
    requests (grants.map (·.cpuSlots.toNat))
  io : Apportionment.Split parent.ioSlots.toNat (·.minimumIoSlots.toNat) (·.ioWeight.toNat)
    requests (grants.map (·.ioSlots.toNat))

theorem length_of_split {total : ℕ} {minimum weight : PartitionRequest → ℕ} {amounts : List UInt64}
    (h : Apportionment.Split total minimum weight requests (amounts.map UInt64.toNat)) :
    amounts.length = requests.length := by
  rw [h.each.length_eq, List.length_map]

theorem partitioned_zipGrants {memory cpu io : List UInt64}
    (hmemory : partitionMemory parent requests = .ok memory)
    (hcpu : partitionCpu parent requests = .ok cpu) (hio : partitionIo parent requests = .ok io) :
    Partitioned parent requests (zipGrants memory cpu io) := by
  have hmemory := partitionResource_ok (fun _ _ => rfl) hmemory
  have hcpu := partitionResource_ok (keepSlots_of_le parent.cpuSlots) hcpu
  have hio := partitionResource_ok (keepSlots_of_le parent.ioSlots) hio
  have hlength := length_of_split hmemory
  obtain ⟨hmemories, hcpus, hios⟩ := map_zipGrants ((length_of_split hcpu).trans hlength.symm)
    ((length_of_split hio).trans hlength.symm)
  refine ⟨?_, ?_, ?_⟩
  · have hmap := congrArg (List.map UInt64.toNat) hmemories
    rw [List.map_map] at hmap
    exact hmap ▸ hmemory
  · have hmap := congrArg (List.map UInt32.toNat) hcpus
    rw [List.map_map, List.map_map] at hmap
    have hamounts := hmap.trans (toUInt32_of_split hcpu)
    exact hamounts ▸ hcpu
  · have hmap := congrArg (List.map UInt32.toNat) hios
    rw [List.map_map, List.map_map] at hmap
    have hamounts := hmap.trans (toUInt32_of_split hio)
    exact hamounts ▸ hio

end Grants

/-! ## Failures -/

/-- A failure never has the status of a success. -/
def Reports {α : Type} (calculation : Except Status α) : Prop :=
  ∀ status, calculation = .error status → status ≠ .ok

theorem reports_ok {α : Type} (value : α) : Reports (.ok value) := fun _ heq => nomatch heq

theorem reports_error {α : Type} {status : Status} (h : status ≠ .ok) :
    Reports (.error status : Except Status α) := fun _ heq => Except.error.inj heq ▸ h

theorem Reports.bind {α β : Type} {first : Except Status α} {second : α → Except Status β}
    (hfirst : Reports first) (hsecond : ∀ value, Reports (second value)) : Reports (first >>= second) := by
  cases first with
  | error status => exact reports_error (hfirst status rfl)
  | ok value => exact hsecond value

theorem reports_addSum (left right : UInt64) : Reports (addSum left right) := by
  rw [addSum]
  cases addOverflows left right with
  | none => exact reports_error (by decide)
  | some sum => exact reports_ok sum

theorem reports_addRequest (minimum weight : PartitionRequest → UInt64) (sums : UInt64 × UInt64)
    (request : PartitionRequest) : Reports (addRequest minimum weight sums request) := by
  refine (reports_addSum _ _).bind fun minimumSum => (reports_addSum _ _).bind fun weightSum => ?_
  split
  · exact reports_error (by decide)
  · exact reports_ok _

theorem reports_foldlM (minimum weight : PartitionRequest → UInt64) :
    ∀ (requests : List PartitionRequest) (sums : UInt64 × UInt64),
    Reports (requests.foldlM (addRequest minimum weight) sums)
  | [], _ => reports_ok _
  | request :: requests, sums => by
    rw [List.foldlM_cons]
    exact (reports_addRequest minimum weight sums request).bind fun next =>
      reports_foldlM minimum weight requests next

theorem reports_partitionResource (minimum weight : PartitionRequest → UInt64) (store : UInt64 → UInt64)
    (total : UInt64) (requests : List PartitionRequest) :
    Reports (partitionResource minimum weight store total requests) := by
  unfold partitionResource
  split
  · rename_i status hsums
    exact reports_error (reports_foldlM minimum weight requests _ status hsums)
  · split
    · exact reports_error (by decide)
    · dsimp only
      split
      · exact reports_error (by decide)
      · exact reports_ok _

theorem reports_partition (parent : ExecutionGrant) (requests : List PartitionRequest) :
    Reports (partition parent requests) := by
  unfold partition
  split
  · exact reports_error (by decide)
  · split
    · exact reports_error (by decide)
    · exact (reports_partitionResource _ _ _ _ _).bind fun memory =>
        (reports_partitionResource _ _ _ _ _).bind fun cpu =>
          (reports_partitionResource _ _ _ _ _).bind fun io => reports_ok _

theorem partition_ok {parent : ExecutionGrant} {requests : List PartitionRequest}
    {grants : List ExecutionGrant} (h : partition parent requests = .ok grants) :
    Partitioned parent requests grants := by
  unfold partition at h
  split at h
  · cases h
  · split at h
    · cases h
    · obtain ⟨memory, hmemory, h⟩ := bind_eq_ok.1 h
      obtain ⟨cpu, hcpu, h⟩ := bind_eq_ok.1 h
      obtain ⟨io, hio, h⟩ := bind_eq_ok.1 h
      cases h
      exact partitioned_zipGrants hmemory hcpu hio

/-- A partition leaves the children as they are, or it splits each resource of the parent completely
among the requests. -/
theorem partitionGrant_complete (parent : ExecutionGrant) (requests : List PartitionRequest)
    (children : List ExecutionGrant) : (partitionGrant parent requests children).1 ≠ .ok ∧
        (partitionGrant parent requests children).2 = children ∨
      (partitionGrant parent requests children).1 = .ok ∧ ∃ grants,
        (partitionGrant parent requests children).2 = grants ++ children.drop requests.length ∧
          grants.length = requests.length ∧ Partitioned parent requests grants := by
  unfold partitionGrant
  split
  · rename_i status h
    exact .inl ⟨reports_partition parent requests status h, rfl⟩
  · rename_i grants h
    have hgrants := partition_ok h
    have hlength : grants.length = requests.length := by
      rw [hgrants.memory.each.length_eq, List.length_map]
    exact .inr ⟨rfl, grants, by rw [hlength], hlength, hgrants⟩

/-- The remainder of 10 bytes goes by weights 1 and 2, and the byte that is left to the first. -/
example :
    partitionGrant ⟨15, 2, 0⟩ [⟨2, 1, 1, 0, 0, 0, 0⟩, ⟨3, 2, 1, 0, 0, 0, 0⟩] [⟨0, 0, 0⟩, ⟨0, 0, 0⟩] =
      (.ok, [⟨6, 1, 0⟩, ⟨9, 1, 0⟩]) := by decide +kernel

/-! ## Works side by side -/

/-- Works that are planned at one time: on a grant as a whole, or on the children of a partition of it,
each of which may be partitioned in its turn. -/
inductive SideBySide : ExecutionGrant → List WorkPlan → Prop
  | idle (grant : ExecutionGrant) : SideBySide grant []
  | work {grant : ExecutionGrant} {request : WorkRequest} {plan : WorkPlan}
    (h : planWork grant request = .ok plan) : SideBySide grant [plan]
  | split {parent : ExecutionGrant} {requests : List PartitionRequest} {grants : List ExecutionGrant}
    {works : List (List WorkPlan)} (h : partition parent requests = .ok grants)
    (hlength : works.length = grants.length)
    (hchildren : ∀ child ∈ grants.zip works, SideBySide child.1 child.2) :
    SideBySide parent works.flatten

theorem sum_flatten_le {need : WorkPlan → ℕ} {has : ExecutionGrant → ℕ} :
    ∀ {grants : List ExecutionGrant} {works : List (List WorkPlan)}, works.length = grants.length →
      (∀ child ∈ grants.zip works, (child.2.map need).sum ≤ has child.1) →
      (works.flatten.map need).sum ≤ (grants.map has).sum
  | [], [], _, _ => Nat.le_refl 0
  | grant :: grants, plans :: works, hlength, h => by
    obtain ⟨hfirst, hrest⟩ := List.forall_mem_cons.1 h
    rw [List.flatten_cons, List.map_append, List.sum_append, List.map_cons, List.sum_cons]
    exact Nat.add_le_add hfirst (sum_flatten_le (Nat.succ.inj hlength) hrest)

/-- **No grant is overcommitted.** However often a grant is partitioned, and its parts again, the works
that are planned side by side keep together to its slots and its memory. -/
theorem side_by_side_within {grant : ExecutionGrant} {plans : List WorkPlan}
    (h : SideBySide grant plans) :
    (plans.map fun plan => plan.outerWorkers.toNat * plan.innerThreadsPerWorker.toNat).sum ≤
        grant.cpuSlots.toNat ∧
      (plans.map fun plan => plan.peakMemoryBytes.toNat).sum ≤ grant.memoryBytes.toNat ∧
      (plans.map fun plan => plan.ioSlots.toNat).sum ≤ grant.ioSlots.toNat := by
  induction h with
  | idle grant => exact ⟨Nat.zero_le _, Nat.zero_le _, Nat.zero_le _⟩
  | work h =>
    have hsafe := planWork_safe h
    obtain ⟨-, hprovides, -, -, peak, -, -, -, rfl⟩ := planWork_eq_ok_iff.1 h
    simp only [List.map_singleton, List.sum_singleton]
    exact ⟨hsafe.slots, UInt64.le_iff_toNat_le.1 hsafe.memory, UInt32.le_iff_toNat_le.1 hprovides.io⟩
  | split h hlength _ ih =>
    have hsplit := partition_ok h
    rw [← hsplit.cpu.complete, ← hsplit.memory.complete, ← hsplit.io.complete]
    exact ⟨sum_flatten_le hlength fun child hchild => (ih child hchild).1,
      sum_flatten_le hlength fun child hchild => (ih child hchild).2.1,
      sum_flatten_le hlength fun child hchild => (ih child hchild).2.2⟩

theorem side_by_side_within_two : (2 : ℕ) ≤ (⟨15, 2, 0⟩ : ExecutionGrant).cpuSlots.toNat :=
  (side_by_side_within (@SideBySide.split ⟨15, 2, 0⟩ [⟨2, 1, 1, 0, 0, 0, 0⟩, ⟨3, 2, 1, 0, 0, 0, 0⟩]
    [⟨6, 1, 0⟩, ⟨9, 1, 0⟩] [[⟨1, 1, 0, 1, 1, 0, 0⟩], [⟨1, 1, 0, 1, 1, 0, 0⟩]] (by decide +kernel) rfl (by
      rintro child (_ | ⟨_, _ | ⟨_, ⟨⟩⟩⟩)
      · exact @SideBySide.work _ ⟨1, 0, 0, 1, 1, 1, 0, 0⟩ _ (by decide)
      · exact @SideBySide.work _ ⟨1, 0, 0, 1, 1, 1, 0, 0⟩ _ (by decide)))).1

end Laplace.Execution
