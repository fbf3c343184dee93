import Stellars.Vault

/-!
# The mirror database

The tables the indexer writes and the keeper reads. Numeric columns hold decimal
strings of unbounded integers; a column a writer leaves out takes its default.
Columns and tables that only log history are left out.
-/
namespace Stellars
open KeyedTotals

/-- A row of `positions`, unique in trader and symbol. -/
structure PositionRow where
  collateral : ℤ
  size : ℤ
  entryPrice : ℤ
  entryBorrowIndex : ℤ
  entryFundingIndex : ℤ
  isLong : Bool
  lastIncreasedTime : ℤ
  takeProfit : ℤ
  stopLoss : ℤ
  deriving Repr, DecidableEq

structure MarketRow where
  globalLongAvgPrice : ℤ := 0
  globalShortAvgPrice : ℤ := 0
  longOpenInterest : ℤ := 0
  shortOpenInterest : ℤ := 0
  accBorrowIndex : ℤ := 0
  accFundingIndex : ℤ := 0
  lastIndexUpdate : ℤ := 0
  maxLeverage : ℤ := 0
  marketUnrealizedPnl : ℤ := 0
  deriving Repr, DecidableEq

structure VaultStateRow where
  totalAssets : ℤ := 0
  totalShares : ℤ := 0
  reservedUsdc : ℤ := 0
  unclaimedFees : ℤ := 0
  netGlobalTraderPnl : ℤ := 0
  freeLiquidity : ℤ := 0
  isPaused : Bool := false
  deriving Repr, DecidableEq

structure ProtocolConfigRow where
  fundingCutBps : ℤ := 0
  liquidationThresholdBps : ℤ := 0
  baseBorrowRateBps : ℤ := 0
  slope1Bps : ℤ := 0
  slope2Bps : ℤ := 0
  optimalUtilizationBps : ℤ := 0
  baseFundingRateBps : ℤ := 0
  lastUnpauseTime : ℤ := 0
  deriving Repr, DecidableEq

/-- `vault_state` and `protocol_config` hold at most one row. -/
structure Db (A S : Type) where
  positions : Table (A × S) PositionRow
  markets : Table S MarketRow
  vaultState : Option VaultStateRow
  protocolConfig : Option ProtocolConfigRow

/-! ## What the tables mirror -/

def Position.row (pos : Position) : PositionRow where
  collateral := pos.collateral
  size := pos.size
  entryPrice := pos.entryPrice
  entryBorrowIndex := pos.entryBorrowIndex
  entryFundingIndex := pos.entryFundingIndex
  isLong := pos.isLong
  lastIncreasedTime := pos.lastIncreasedTime
  takeProfit := pos.takeProfit
  stopLoss := pos.stopLoss

namespace Env

variable {A S : Type} [DecidableEq S]

def marketRow (env : Env A S) (symbol : S) (m : MarketInfo) : MarketRow where
  globalLongAvgPrice := m.globalLongAvgPrice
  globalShortAvgPrice := m.globalShortAvgPrice
  longOpenInterest := m.longOpenInterest
  shortOpenInterest := m.shortOpenInterest
  accBorrowIndex := m.accBorrowIndex
  accFundingIndex := m.accFundingIndex
  lastIndexUpdate := m.lastIndexUpdate
  maxLeverage := (env.pm.maxLeverage symbol).getD 0
  marketUnrealizedPnl := env.getMarketUnrealizedPnl symbol

def vaultStateRow (env : Env A S) : VaultStateRow where
  totalAssets := env.totalAssets
  totalShares := env.vault.totalSupply
  reservedUsdc := env.vault.reservedUsdc
  unclaimedFees := env.vault.unclaimedFees
  netGlobalTraderPnl := env.vault.netGlobalTraderPnl
  freeLiquidity := env.freeLiquidity
  isPaused := env.vault.isPaused

def protocolConfigRow (env : Env A S) : ProtocolConfigRow where
  fundingCutBps := env.cfg.protocolLimits.1.fundingCutBps
  liquidationThresholdBps := env.cfg.protocolLimits.1.liquidationThresholdBps
  baseBorrowRateBps := env.cfg.borrowRateConfig.1.baseBorrowRateBps
  slope1Bps := env.cfg.borrowRateConfig.1.slope1Bps
  slope2Bps := env.cfg.borrowRateConfig.1.slope2Bps
  optimalUtilizationBps := env.cfg.borrowRateConfig.1.optimalUtilizationBps
  baseFundingRateBps := env.cfg.borrowRateConfig.1.baseFundingRateBps
  lastUnpauseTime := env.pm.lastUnpauseTime

/-- The database that mirrors every column. -/
def mirrored (env : Env A S) : Db A S where
  positions := mapRows (fun _ pos => pos.row) env.pm.positions
  markets := mapRows env.marketRow env.pm.markets
  vaultState := some env.vaultStateRow
  protocolConfig := some env.protocolConfigRow

end Env

end Stellars
