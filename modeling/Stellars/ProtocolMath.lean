import Stellars.MarketTick
import Stellars.MirrorDatabase

/-!
# The off-chain market tick

The TypeScript port of the contract's formulas and of its market tick. Integers
are unbounded and division truncates toward zero. A tick is projected from
mirrored rows instead of being refreshed in storage.
-/
namespace Stellars.ProtocolMath

structure MarketState where
  accBorrowIndex : ℤ
  accFundingIndex : ℤ
  lastIndexUpdate : ℤ
  longOpenInterest : ℤ
  shortOpenInterest : ℤ
  deriving Repr, DecidableEq

structure PositionState where
  isLong : Bool
  size : ℤ
  collateral : ℤ
  entryPrice : ℤ
  entryBorrowIndex : ℤ
  entryFundingIndex : ℤ
  deriving Repr, DecidableEq

structure VaultLiquidity where
  reservedUsdc : ℤ
  totalAssets : ℤ
  deriving Repr, DecidableEq

structure BorrowRateConfig where
  baseBorrowRateBps : ℤ
  slope1Bps : ℤ
  slope2Bps : ℤ
  optimalUtilizationBps : ℤ
  baseFundingRateBps : ℤ
  deriving Repr, DecidableEq

/-- `health` is for display; the gate compares `effectiveHealth`. -/
structure PositionEvaluation where
  pnl : ℤ
  borrowFee : ℤ
  fundingFee : ℤ
  effectiveFunding : ℤ
  fundingProtocolCut : ℤ
  health : ℤ
  effectiveHealth : ℤ
  deriving Repr, DecidableEq

structure Slice where
  size : ℤ
  collateral : ℤ
  deriving Repr, DecidableEq

structure ProjectInput where
  market : MarketState
  markPrice : ℤ
  vault : VaultLiquidity
  rateConfig : BorrowRateConfig
  now : ℤ
  lastUnpauseTime : ℤ
  deriving Repr, DecidableEq

structure MarketTick where
  market : MarketState
  markPrice : ℤ
  deriving Repr, DecidableEq

/-! ## Formulas -/

def calcUnrealizedPnl (size entryPrice markPrice : ℤ) (isLong : Bool) : ℤ :=
  if entryPrice = 0 ∨ size = 0 then 0
  else
    let priceDiff := if isLong then markPrice - entryPrice else entryPrice - markPrice
    (size * priceDiff).tdiv entryPrice

def calcBorrowFee (size entryBorrowIndex currentBorrowIndex : ℤ) : ℤ :=
  ((currentBorrowIndex - entryBorrowIndex) * size).tdiv indexPrecision

def calcFundingFee (size entryFundingIndex currentFundingIndex : ℤ) (isLong : Bool) : ℤ :=
  let delta := currentFundingIndex - entryFundingIndex
  if isLong then -((delta * size).tdiv indexPrecision) else (delta * size).tdiv indexPrecision

def calcHealth (collateral unrealizedPnl borrowFee fundingFee : ℤ) : ℤ :=
  collateral + unrealizedPnl - borrowFee + fundingFee

def calcUtilizationBps (reserved totalAssets : ℤ) : ℤ :=
  if totalAssets ≤ 0 then 0 else (reserved * bps).tdiv totalAssets

def calcBorrowRate (utilizationBps baseBorrowRate slope1 slope2 optimalUtil : ℤ) : ℤ :=
  if utilizationBps ≤ optimalUtil then baseBorrowRate + (utilizationBps * slope1).tdiv bps
  else
    baseBorrowRate + (optimalUtil * slope1).tdiv bps +
      ((utilizationBps - optimalUtil) * slope2).tdiv bps

/-- Without the contract's halving: no product overflows here. -/
def calcFundingRate (longOi shortOi baseFundingRate : ℤ) : ℤ :=
  let total := longOi + shortOi
  if total = 0 then 0
  else
    let imbalance := longOi - shortOi
    (imbalance * baseFundingRate).tdiv total

def accumulateBorrowIndex (currentIndex rateBps timeDelta : ℤ) : ℤ :=
  currentIndex + (rateBps * indexPrecision * timeDelta).tdiv (bps * secondsPerYear)

def accumulateFundingIndex (currentIndex rateBps timeDelta : ℤ) : ℤ :=
  currentIndex + (rateBps * indexPrecision * timeDelta).tdiv (bps * secondsPerYear)

/-! ## The tick -/

namespace MarketTick

/-- The pause clamp has a lower end only. -/
def project (input : ProjectInput) : MarketTick :=
  let market := input.market
  let effectiveStart :=
    if market.lastIndexUpdate > input.lastUnpauseTime then market.lastIndexUpdate
    else input.lastUnpauseTime
  let timeDelta := if input.now > effectiveStart then input.now - effectiveStart else 0
  let c := input.rateConfig
  let indices :=
    if timeDelta > 0 then
      let utilBps := calcUtilizationBps input.vault.reservedUsdc input.vault.totalAssets
      let borrowRate := calcBorrowRate utilBps c.baseBorrowRateBps c.slope1Bps c.slope2Bps
        c.optimalUtilizationBps
      let fundingRate := calcFundingRate market.longOpenInterest market.shortOpenInterest
        c.baseFundingRateBps
      (accumulateBorrowIndex market.accBorrowIndex borrowRate timeDelta,
        accumulateFundingIndex market.accFundingIndex fundingRate timeDelta)
    else (market.accBorrowIndex, market.accFundingIndex)
  { market := { market with
      accBorrowIndex := indices.1
      accFundingIndex := indices.2
      lastIndexUpdate := input.now }
    markPrice := input.markPrice }

/-- The seconds a projection bills. -/
theorem project_seconds (input : ProjectInput) {seconds : ℕ}
    (h : (seconds : ℤ) =
      max (input.now - max input.market.lastIndexUpdate input.lastUnpauseTime) 0) :
    (if input.now > (if input.market.lastIndexUpdate > input.lastUnpauseTime
        then input.market.lastIndexUpdate else input.lastUnpauseTime)
      then input.now - (if input.market.lastIndexUpdate > input.lastUnpauseTime
        then input.market.lastIndexUpdate else input.lastUnpauseTime) else 0) = (seconds : ℤ) := by
  rw [h]
  split_ifs <;> omega

theorem project_indices (input : ProjectInput) {seconds : ℕ}
    (h : (seconds : ℤ) =
      max (input.now - max input.market.lastIndexUpdate input.lastUnpauseTime) 0) :
    (project input).market.accBorrowIndex = input.market.accBorrowIndex +
        (calcBorrowRate (calcUtilizationBps input.vault.reservedUsdc input.vault.totalAssets)
          input.rateConfig.baseBorrowRateBps input.rateConfig.slope1Bps input.rateConfig.slope2Bps
          input.rateConfig.optimalUtilizationBps * seconds * indexPrecision).tdiv
            (bps * secondsPerYear) ∧
      (project input).market.accFundingIndex = input.market.accFundingIndex +
        (calcFundingRate input.market.longOpenInterest input.market.shortOpenInterest
          input.rateConfig.baseFundingRateBps * seconds * indexPrecision).tdiv
            (bps * secondsPerYear) := by
  simp only [project, project_seconds input h, mul_right_comm _ (seconds : ℤ)]
  by_cases hpos : (seconds : ℤ) > 0
  · rw [if_pos hpos]
    exact ⟨rfl, rfl⟩
  · have h0 : (seconds : ℤ) = 0 := by omega
    rw [if_neg hpos, h0]
    simp

def evaluate (tick : MarketTick) (pos : PositionState) (slice : Option Slice)
    (fundingCutBps : ℤ) : PositionEvaluation :=
  let size := slice.elim pos.size (·.size)
  let collateral := slice.elim pos.collateral (·.collateral)
  let pnl := calcUnrealizedPnl size pos.entryPrice tick.markPrice pos.isLong
  let borrowFee := calcBorrowFee size pos.entryBorrowIndex tick.market.accBorrowIndex
  let fundingFee :=
    calcFundingFee size pos.entryFundingIndex tick.market.accFundingIndex pos.isLong
  let zeroSumFunding :=
    if fundingFee > 0 then
      let payerOi := if pos.isLong then tick.market.shortOpenInterest
        else tick.market.longOpenInterest
      let receiverOi := if pos.isLong then tick.market.longOpenInterest
        else tick.market.shortOpenInterest
      if receiverOi ≤ 0 then 0
      else if payerOi < receiverOi then (fundingFee * payerOi).tdiv receiverOi
      else fundingFee
    else fundingFee
  let fundingProtocolCut :=
    if zeroSumFunding > 0 then (zeroSumFunding * fundingCutBps).tdiv bps else 0
  let effectiveFunding := zeroSumFunding - fundingProtocolCut
  { pnl := pnl
    borrowFee := borrowFee
    fundingFee := fundingFee
    effectiveFunding := effectiveFunding
    fundingProtocolCut := fundingProtocolCut
    health := calcHealth collateral pnl borrowFee fundingFee
    effectiveHealth := calcHealth collateral pnl borrowFee effectiveFunding }

end MarketTick

/-! ## From rows to states -/

def toMarketState (row : MarketRow) : MarketState where
  accBorrowIndex := row.accBorrowIndex
  accFundingIndex := row.accFundingIndex
  lastIndexUpdate := row.lastIndexUpdate
  longOpenInterest := row.longOpenInterest
  shortOpenInterest := row.shortOpenInterest

def toPositionState (row : PositionRow) : PositionState where
  isLong := row.isLong
  size := row.size
  collateral := row.collateral
  entryPrice := row.entryPrice
  entryBorrowIndex := row.entryBorrowIndex
  entryFundingIndex := row.entryFundingIndex

/-- A missing row reads as zeros; unclaimed fees are not read. -/
def toVaultLiquidity (row : Option VaultStateRow) : VaultLiquidity where
  reservedUsdc := row.elim 0 (·.reservedUsdc)
  totalAssets := row.elim 0 (·.totalAssets)

def toBorrowRateConfig (row : Option ProtocolConfigRow) : BorrowRateConfig where
  baseBorrowRateBps := row.elim 0 (·.baseBorrowRateBps)
  slope1Bps := row.elim 0 (·.slope1Bps)
  slope2Bps := row.elim 0 (·.slope2Bps)
  optimalUtilizationBps := row.elim 0 (·.optimalUtilizationBps)
  baseFundingRateBps := row.elim 0 (·.baseFundingRateBps)

end Stellars.ProtocolMath
