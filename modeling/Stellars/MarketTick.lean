import Stellars.Vault

/-!
# Market ticks

Every call that reads a market first accrues its borrow and funding indices over
the time since the last accrual, clamped to the time the protocol was awake, and
fetches a price. The unrealized profit of the market is recomputed after the
call has settled open interest and average prices.
-/
namespace Stellars
open GuardedRuns KeyedTotals

/-- The vault as the position manager's risk gates see it. -/
structure VaultView where
  reserved : ℤ
  safeBasis : ℤ
  deriving Repr, DecidableEq

structure MarketTick where
  market : MarketInfo
  markPrice : ℤ
  deriving Repr, DecidableEq

structure PositionEvaluation where
  pnl : ℤ
  borrowFee : ℤ
  fundingFee : ℤ
  effectiveFunding : ℤ
  fundingProtocolCut : ℤ
  effectiveHealth : ℤ
  deriving Repr, DecidableEq

namespace VaultView

def refresh {A S : Type} (env : Env A S) : VaultView :=
  ⟨env.vault.reservedUsdc, env.totalAssetsExclPnl⟩

def utilizationBps (view : VaultView) : ℤ := calcUtilizationBps view.reserved view.safeBasis

def adlPnlRatioBps (view : VaultView) (combinedPnl : ℤ) : ℤ :=
  if view.safeBasis > 0 ∧ combinedPnl > 0 then (combinedPnl * bps).tdiv view.safeBasis else 0

end VaultView

/-- Both sides of the market valued at their average prices. -/
def MarketInfo.unrealizedPnl (market : MarketInfo) (markPrice : ℤ) : ℤ :=
  calcMarketUnrealizedPnl market.longOpenInterest market.globalLongAvgPrice
    market.shortOpenInterest market.globalShortAvgPrice markPrice

namespace Env

variable {A S : Type}

/-! ## The awake window -/

def effectiveStart (env : Env A S) (market : MarketInfo) : ℕ :=
  if market.lastIndexUpdate > env.pm.lastUnpauseTime then market.lastIndexUpdate
  else env.pm.lastUnpauseTime

/-- While paused the window closes at the start of the pause. -/
def effectiveNow (env : Env A S) (market : MarketInfo) : ℕ :=
  if env.pm.isPaused then
    if env.pm.lastPauseTime > 0 then min env.timestamp env.pm.lastPauseTime
    else env.effectiveStart market
  else env.timestamp

/-- Seconds that the next accrual of `market` will bill. -/
def timeDelta (env : Env A S) (market : MarketInfo) : ℕ :=
  env.effectiveNow market - env.effectiveStart market

theorem effectiveStart_eq_max (env : Env A S) (market : MarketInfo) :
    env.effectiveStart market = max market.lastIndexUpdate env.pm.lastUnpauseTime := by
  unfold effectiveStart
  split_ifs <;> omega

theorem timeDelta_awake {env : Env A S} (market : MarketInfo) (h : env.pm.isPaused = false) :
    env.timeDelta market =
      env.timestamp - max market.lastIndexUpdate env.pm.lastUnpauseTime := by
  simp [timeDelta, effectiveNow, effectiveStart_eq_max, h]

theorem timeDelta_paused {env : Env A S} (market : MarketInfo) (h : env.pm.isPaused = true) :
    env.timeDelta market = min env.timestamp env.pm.lastPauseTime -
      max market.lastIndexUpdate env.pm.lastUnpauseTime := by
  simp only [timeDelta, effectiveNow, effectiveStart_eq_max, h]
  split_ifs <;> omega

/-! ## Accrual -/

/-- The yearly borrow rate at the vault's present utilization. -/
def borrowRate (env : Env A S) (view : VaultView) : ℤ :=
  let c := env.cfg.borrowRateConfig.1
  calcBorrowRate view.utilizationBps c.baseBorrowRateBps c.slope1Bps c.slope2Bps
    c.optimalUtilizationBps

def fundingRate (env : Env A S) (market : MarketInfo) : ℤ :=
  calcFundingRate market.longOpenInterest market.shortOpenInterest
    env.cfg.borrowRateConfig.1.baseFundingRateBps

/-- The market with both indices advanced over the awake window. -/
def accrue (env : Env A S) (view : VaultView) (market : MarketInfo) : MarketInfo :=
  if env.timeDelta market > 0 then
    { market with
      accBorrowIndex :=
        accumulateBorrowIndex market.accBorrowIndex (env.borrowRate view) (env.timeDelta market)
      accFundingIndex :=
        accumulateFundingIndex market.accFundingIndex (env.fundingRate market)
          (env.timeDelta market)
      lastIndexUpdate := env.effectiveNow market }
  else market

@[simp] theorem openInterest_accrue (env : Env A S) (view : VaultView) (m : MarketInfo)
    (b : Bool) : (env.accrue view m).openInterest b = m.openInterest b := by
  unfold accrue
  split_ifs <;> rfl

@[simp] theorem avgPrice_accrue (env : Env A S) (view : VaultView) (m : MarketInfo)
    (b : Bool) : (env.accrue view m).avgPrice b = m.avgPrice b := by
  unfold accrue
  split_ifs <;> rfl

theorem accBorrowIndex_accrue (env : Env A S) (view : VaultView) (m : MarketInfo) :
    (env.accrue view m).accBorrowIndex =
      accumulateBorrowIndex m.accBorrowIndex (env.borrowRate view) (env.timeDelta m) := by
  unfold accrue
  split_ifs with h
  · rfl
  · have h0 : env.timeDelta m = 0 := by omega
    simp [accumulateBorrowIndex, h0]

theorem accFundingIndex_accrue (env : Env A S) (view : VaultView) (m : MarketInfo) :
    (env.accrue view m).accFundingIndex =
      accumulateFundingIndex m.accFundingIndex (env.fundingRate m) (env.timeDelta m) := by
  unfold accrue
  split_ifs with h
  · rfl
  · have h0 : env.timeDelta m = 0 := by omega
    simp [accumulateFundingIndex, h0]

variable [DecidableEq S]

def getPrice (price : ℤ) : Except Error ℤ := do
  failIf (price ≤ 0) .noPrice
  .ok price

/-- Accrue, store the market if time was billed, and fetch the mark. -/
def refreshTick (env : Env A S) (symbol : S) (view : VaultView) (price : ℤ) :
    Except Error (Env A S × MarketTick) := do
  let market := env.getMarket symbol
  let market' := env.accrue view market
  let env' := if env.timeDelta market > 0 then env.setMarket symbol market' else env
  let markPrice ← getPrice price
  .ok (env', ⟨market', markPrice⟩)

/-- The market a refresh at this moment would produce. -/
def freshMarket (env : Env A S) (symbol : S) : MarketInfo :=
  env.accrue (VaultView.refresh env) (env.getMarket symbol)

def freshEnv (env : Env A S) (symbol : S) : Env A S :=
  if env.timeDelta (env.getMarket symbol) > 0 then env.setMarket symbol (env.freshMarket symbol)
  else env

@[simp] theorem openInterest_freshMarket (env : Env A S) (symbol : S) (b : Bool) :
    (env.freshMarket symbol).openInterest b = (env.getMarket symbol).openInterest b :=
  openInterest_accrue env _ _ b

@[simp] theorem avgPrice_freshMarket (env : Env A S) (symbol : S) (b : Bool) :
    (env.freshMarket symbol).avgPrice b = (env.getMarket symbol).avgPrice b :=
  avgPrice_accrue env _ _ b

theorem refreshTick_eq_ok {env env' : Env A S} {symbol : S} {price : ℤ} {tick : MarketTick} :
    env.refreshTick symbol (VaultView.refresh env) price = .ok (env', tick) ↔
      0 < price ∧ env' = env.freshEnv symbol ∧ tick = ⟨env.freshMarket symbol, price⟩ := by
  simp only [refreshTick, getPrice, bind_eq_ok, failIf_eq_ok, exists_const, Except.ok.injEq,
    Prod.mk.injEq, not_le]
  constructor
  · rintro ⟨_, ⟨hp, rfl⟩, rfl, rfl⟩
    exact ⟨hp, rfl, rfl⟩
  · rintro ⟨hp, rfl, rfl⟩
    exact ⟨price, ⟨hp, rfl⟩, rfl, rfl⟩

@[simp] theorem getMarket_freshEnv_self (env : Env A S) (symbol : S) :
    (env.freshEnv symbol).getMarket symbol = env.freshMarket symbol := by
  unfold freshEnv
  split_ifs with h
  · simp
  · simp [freshMarket, accrue, h]

theorem getMarket_freshEnv_of_ne (env : Env A S) {symbol other : S} (h : other ≠ symbol) :
    (env.freshEnv symbol).getMarket other = env.getMarket other := by
  unfold freshEnv
  split_ifs <;> simp [h]

/-- A refresh touches the stored markets and nothing else. -/
theorem freshEnv_eq (env : Env A S) (symbol : S) :
    ∃ markets, env.freshEnv symbol = env.setMarkets markets := by
  unfold freshEnv
  split_ifs
  · exact ⟨_, rfl⟩
  · exact ⟨_, rfl⟩

theorem positions_freshEnv (env : Env A S) (symbol : S) :
    (env.freshEnv symbol).pm.positions = env.pm.positions := by
  unfold freshEnv
  split_ifs <;> rfl

theorem insert_freshEnv (env : Env A S) (symbol : S) (market : MarketInfo) :
    (env.freshEnv symbol).pm.markets.insert symbol market =
      env.pm.markets.insert symbol market := by
  unfold freshEnv
  split_ifs
  · exact AList.insert_insert _
  · rfl

/-! ## Unrealized profit -/

/-- Store one market's unrealized profit and push the new total to the vault. -/
def withMarketPnl (env : Env A S) (symbol : S) (pnl : ℤ) : Env A S :=
  let newTotal := env.pm.totalUnrealizedPnl + (pnl - env.getMarketUnrealizedPnl symbol)
  { env with
    pm := { env.pm with
      marketUnrealizedPnl := env.pm.marketUnrealizedPnl.insert symbol pnl
      totalUnrealizedPnl := newTotal }
    vault := { env.vault with netGlobalTraderPnl := newTotal } }

variable [DecidableEq A]

def refreshMarketUnrealizedPnl (env : Env A S) (symbol : S) (markPrice : ℤ) :
    Except Error (Env A S) := do
  let market := env.getMarket symbol
  let newMarketPnl := calcMarketUnrealizedPnl market.longOpenInterest market.globalLongAvgPrice
    market.shortOpenInterest market.globalShortAvgPrice markPrice
  let oldMarketPnl := env.getMarketUnrealizedPnl symbol
  let newTotal := env.pm.totalUnrealizedPnl + (newMarketPnl - oldMarketPnl)
  let env' : Env A S :=
    { env with pm := { env.pm with
        marketUnrealizedPnl := env.pm.marketUnrealizedPnl.insert symbol newMarketPnl
        totalUnrealizedPnl := newTotal } }
  env'.updateNetPnl .positionManager newTotal

theorem refreshMarketUnrealizedPnl_eq (env : Env A S) (symbol : S) (markPrice : ℤ) :
    env.refreshMarketUnrealizedPnl symbol markPrice =
      .ok (env.withMarketPnl symbol ((env.getMarket symbol).unrealizedPnl markPrice)) := by
  simp only [refreshMarketUnrealizedPnl, updateNetPnl, requirePositionManager_self, ok_bind]
  rfl

end Env

/-! ## Valuing a slice of a position -/

/-- Funding after the zero-sum scaling: a receiving side is scaled down to what
the paying side can fund. -/
def zeroSumFunding (market : MarketInfo) (isLong : Bool) (fundingFee : ℤ) : ℤ :=
  if fundingFee > 0 then
    let payerOi := market.openInterest (!isLong)
    let receiverOi := market.openInterest isLong
    if receiverOi ≤ 0 then 0
    else if payerOi ≥ receiverOi then fundingFee
    else (fundingFee * payerOi).tdiv receiverOi
  else fundingFee

def fundingCut (fundingCutBps : ℕ) (funding : ℤ) : ℤ :=
  if funding > 0 then (funding * fundingCutBps).tdiv bps else 0

def MarketTick.evaluate (tick : MarketTick) (pos : Position) (size collateral : ℤ)
    (fundingCutBps : ℕ) : PositionEvaluation :=
  let pnl := calcUnrealizedPnl size pos.entryPrice tick.markPrice pos.isLong
  let borrowFee := calcBorrowFee size pos.entryBorrowIndex tick.market.accBorrowIndex
  let fundingFee :=
    calcFundingFee size pos.entryFundingIndex tick.market.accFundingIndex pos.isLong
  let zeroSum := zeroSumFunding tick.market pos.isLong fundingFee
  let fundingProtocolCut := fundingCut fundingCutBps zeroSum
  let effectiveFunding := zeroSum - fundingProtocolCut
  { pnl := pnl
    borrowFee := borrowFee
    fundingFee := fundingFee
    effectiveFunding := effectiveFunding
    fundingProtocolCut := fundingProtocolCut
    effectiveHealth := calcHealth collateral pnl borrowFee effectiveFunding }

def MarketTick.isTpTriggered (tick : MarketTick) (takeProfit : ℤ) (isLong : Bool) : Bool :=
  Stellars.isTpTriggered takeProfit tick.markPrice isLong

def MarketTick.isSlTriggered (tick : MarketTick) (stopLoss : ℤ) (isLong : Bool) : Bool :=
  Stellars.isSlTriggered stopLoss tick.markPrice isLong

end Stellars
