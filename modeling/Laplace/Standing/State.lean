import Laplace.Digest

/-!
# Standing states and their identity (standing_calculation.c:53-57, :239-275)

A search transition may carry a standing state, and the search recomputes its identity. The three
`double` fields are kept as their bit patterns; only comparisons with zero and `isfinite` look at
them.
-/

namespace Laplace.Standing

/-- `laplace_standing_state`; the `double` fields as `memcpy` reads them. -/
structure State where
  stateId : Digest256 := 0
  coordinateId : Digest256 := 0
  arenaScopeId : Digest256 := 0
  priorStateId : Digest256 := 0
  epochId : Digest256 := 0
  ratingRecipeId : Digest256 := 0
  rating : UInt64 := 0
  ratingDeviation : UInt64 := 0
  volatility : UInt64 := 0
  eligibleMatchCount : UInt64 := 0
  periodOrdinal : UInt64 := 0
  ratingRecipeVersion : UInt32 := 0
  flags : UInt32 := 0
deriving DecidableEq, Repr, Inhabited

/-- `value == 0.0`: both zeros, and no NaN. -/
def doubleIsZero (bits : UInt64) : Bool := bits &&& 0x7FFFFFFFFFFFFFFF == 0

/-- `isfinite(value)`. -/
def doubleIsFinite (bits : UInt64) : Bool := bits &&& 0x7FF0000000000000 != 0x7FF0000000000000

/-- `value > 0.0` of a finite value. -/
def doubleIsPositive (bits : UInt64) : Bool := bits &&& 0x8000000000000000 == 0 && !doubleIsZero bits

/-- `numeric_state_valid` -/
def numericStateValid (rating deviation volatility : UInt64) : Bool :=
  doubleIsFinite rating && doubleIsFinite deviation && doubleIsPositive deviation &&
    doubleIsFinite volatility && doubleIsPositive volatility

/-- `hash_state`: the bytes fed to the hasher. -/
def hashState (state : State) : List UInt8 :=
  state.coordinateId.bytes ++ state.arenaScopeId.bytes ++ state.priorStateId.bytes ++
    state.epochId.bytes ++ state.ratingRecipeId.bytes ++ u64Bytes state.rating ++
    u64Bytes state.ratingDeviation ++ u64Bytes state.volatility ++
    u64Bytes state.eligibleMatchCount ++ u64Bytes state.periodOrdinal ++
    u32Bytes state.ratingRecipeVersion ++ u32Bytes state.flags

/-- `laplace_standing_state_identify`; `none` is `LAPLACE_STANDING_STATE_INVALID`. -/
def stateIdentify (blake3 : Blake3) (state : State) : Option Digest256 :=
  if state.coordinateId == 0 || state.arenaScopeId == 0 || state.epochId == 0 ||
      state.ratingRecipeId == 0 ||
      !numericStateValid state.rating state.ratingDeviation state.volatility ||
      state.ratingRecipeVersion == 0 || state.flags != 0 ||
      (state.periodOrdinal == 0 && state.priorStateId != 0) ||
      (state.periodOrdinal != 0 && state.priorStateId == 0) then none
  else some (blake3 (domainBytes "laplace.standing.state.v1" ++ hashState state))

end Laplace.Standing
