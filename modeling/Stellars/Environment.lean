import Stellars.Configuration
import Stellars.KeyedTotals

/-!
# Storage of the contracts and the USDC token

One record holds everything a call can read or write: the ledger time, every
USDC balance, and the instance and persistent storage of the vault, the position
manager and the configuration manager. The vault and the position manager are
parties of their own, so no account that signs a call can be one of them.
-/
namespace Stellars
open GuardedRuns KeyedTotals

/-- A holder of USDC or of vault shares. -/
inductive Party (A : Type)
  | vault
  | positionManager
  | account (a : A)
  deriving Repr, DecidableEq

inductive VaultError
  | paused
  | insufficientFreeLiquidity
  | unauthorized
  | zeroAmount
  | notPositionManager
  | cooldownNotElapsed
  | reservationExceedsTotalAssets
  | insufficientFees
  | feeAccrualExceedsAssets
  | absorbedCollateralMismatch
  | depositMustBeSelf
  deriving Repr, DecidableEq

inductive PositionManagerError
  | paused
  | utilizationCapBreached
  | positionNotOldEnough
  | positionNotFound
  | unauthorized
  | zeroAmount
  | healthFactorOk
  | adlNotTriggered
  | excessiveLeverage
  | marketNotConfigured
  | orderNotTriggered
  | invalidTpSl
  | directionMismatch
  | belowMinCollateral
  | adlTargetNotProfitable
  | leverageCapExceeded
  | slippageExceeded
  | leverageBelowFloor
  | marketDisabled
  | sizeDeltaExceedsPosition
  deriving Repr, DecidableEq

/-- Errors of the USDC token and of the share token the vault extends. -/
inductive TokenError
  | negativeAmount
  | insufficientBalance
  | insufficientAllowance
  | exceededMax
  deriving Repr, DecidableEq

inductive Error
  | config (e : ConfigManagerError)
  | vault (e : VaultError)
  | positionManager (e : PositionManagerError)
  | token (e : TokenError)
  | noPrice
  deriving Repr, DecidableEq

/-! ## Storage -/

structure Position where
  collateral : ℤ
  size : ℤ
  entryPrice : ℤ
  entryBorrowIndex : ℤ
  entryFundingIndex : ℤ
  isLong : Bool
  lastIncreasedTime : ℕ
  takeProfit : ℤ
  stopLoss : ℤ
  executionFeeEscrow : ℤ
  deriving Repr, DecidableEq

structure MarketInfo where
  globalLongAvgPrice : ℤ
  globalShortAvgPrice : ℤ
  longOpenInterest : ℤ
  shortOpenInterest : ℤ
  accBorrowIndex : ℤ
  accFundingIndex : ℤ
  lastIndexUpdate : ℕ
  deriving Repr, DecidableEq

namespace MarketInfo

/-- What a market never written reads as at time `now`. -/
def empty (now : ℕ) : MarketInfo where
  globalLongAvgPrice := 0
  globalShortAvgPrice := 0
  longOpenInterest := 0
  shortOpenInterest := 0
  accBorrowIndex := indexPrecision
  accFundingIndex := indexPrecision
  lastIndexUpdate := now

def openInterest (m : MarketInfo) (isLong : Bool) : ℤ :=
  if isLong then m.longOpenInterest else m.shortOpenInterest

def avgPrice (m : MarketInfo) (isLong : Bool) : ℤ :=
  if isLong then m.globalLongAvgPrice else m.globalShortAvgPrice

/-- Write one side's open interest and average price. -/
def setSide (m : MarketInfo) (isLong : Bool) (oi avg : ℤ) : MarketInfo :=
  if isLong then { m with longOpenInterest := oi, globalLongAvgPrice := avg }
  else { m with shortOpenInterest := oi, globalShortAvgPrice := avg }

@[simp] theorem openInterest_setSide (m : MarketInfo) (b c : Bool) (oi avg : ℤ) :
    (m.setSide b oi avg).openInterest c = if c = b then oi else m.openInterest c := by
  cases b <;> cases c <;> rfl

@[simp] theorem avgPrice_setSide (m : MarketInfo) (b c : Bool) (oi avg : ℤ) :
    (m.setSide b oi avg).avgPrice c = if c = b then avg else m.avgPrice c := by
  cases b <;> cases c <;> rfl

@[simp] theorem accBorrowIndex_setSide (m : MarketInfo) (b : Bool) (oi avg : ℤ) :
    (m.setSide b oi avg).accBorrowIndex = m.accBorrowIndex := by cases b <;> rfl

@[simp] theorem accFundingIndex_setSide (m : MarketInfo) (b : Bool) (oi avg : ℤ) :
    (m.setSide b oi avg).accFundingIndex = m.accFundingIndex := by cases b <;> rfl

@[simp] theorem lastIndexUpdate_setSide (m : MarketInfo) (b : Bool) (oi avg : ℤ) :
    (m.setSide b oi avg).lastIndexUpdate = m.lastIndexUpdate := by cases b <;> rfl

end MarketInfo

structure VaultStorage (A : Type) where
  reservedUsdc : ℤ
  unclaimedFees : ℤ
  netGlobalTraderPnl : ℤ
  isPaused : Bool
  lockupExpiresAt : Party A → Option ℕ
  shares : Party A → ℤ
  totalSupply : ℤ
  allowance : A → A → ℤ

structure PositionManagerStorage (A S : Type) where
  isPaused : Bool
  realizedPnl : ℤ
  totalUnrealizedPnl : ℤ
  marketUnrealizedPnl : Table S ℤ
  lastUnpauseTime : ℕ
  lastPauseTime : ℕ
  maxLeverage : S → Option ℤ
  marketDisabled : S → Bool
  positions : Table (A × S) Position
  markets : Table S MarketInfo

structure Env (A S : Type) where
  timestamp : ℕ
  usdc : Party A → ℤ
  vault : VaultStorage A
  pm : PositionManagerStorage A S
  cfg : ConfigManager A

/-! ## The USDC token -/

/-- Balances after `amount` moves from `src` to `dst`. -/
def moveUsdc {A : Type} [DecidableEq A] (usdc : Party A → ℤ) (src dst : Party A) (amount : ℤ) :
    Party A → ℤ :=
  fun p => usdc p - (if p = src then amount else 0) + (if p = dst then amount else 0)

section MoveUsdc

variable {A : Type} [DecidableEq A] (usdc : Party A → ℤ) (amount : ℤ)

@[simp] theorem moveUsdc_zero (src dst : Party A) : moveUsdc usdc src dst 0 = usdc := by
  funext p
  simp [moveUsdc]

theorem moveUsdc_src {src dst : Party A} (h : src ≠ dst) :
    moveUsdc usdc src dst amount src = usdc src - amount := by simp [moveUsdc, h]

theorem moveUsdc_dst {src dst : Party A} (h : src ≠ dst) :
    moveUsdc usdc src dst amount dst = usdc dst + amount := by simp [moveUsdc, h.symm]

theorem moveUsdc_other {p src dst : Party A} (hs : p ≠ src) (hd : p ≠ dst) :
    moveUsdc usdc src dst amount p = usdc p := by simp [moveUsdc, hs, hd]

end MoveUsdc

namespace Env

variable {A S : Type} [DecidableEq A] [DecidableEq S]

def setUsdc (env : Env A S) (usdc : Party A → ℤ) : Env A S := { env with usdc := usdc }

section SetUsdc

omit [DecidableEq A] [DecidableEq S]

variable (env : Env A S) (usdc : Party A → ℤ)

@[simp] theorem usdc_setUsdc : (env.setUsdc usdc).usdc = usdc := rfl
@[simp] theorem timestamp_setUsdc : (env.setUsdc usdc).timestamp = env.timestamp := rfl
@[simp] theorem vault_setUsdc : (env.setUsdc usdc).vault = env.vault := rfl
@[simp] theorem pm_setUsdc : (env.setUsdc usdc).pm = env.pm := rfl
@[simp] theorem cfg_setUsdc : (env.setUsdc usdc).cfg = env.cfg := rfl
@[simp] theorem setUsdc_self : env.setUsdc env.usdc = env := rfl

end SetUsdc

/-- The token moves exactly the requested amount or reverts. -/
def transfer (env : Env A S) (src dst : Party A) (amount : ℤ) : Except Error (Env A S) := do
  failIf (amount < 0) (.token .negativeAmount)
  failIf (env.usdc src < amount) (.token .insufficientBalance)
  .ok (env.setUsdc (moveUsdc env.usdc src dst amount))

omit [DecidableEq S] in
theorem transfer_eq_ok {env env' : Env A S} {src dst : Party A} {amount : ℤ} :
    env.transfer src dst amount = .ok env' ↔
      0 ≤ amount ∧ amount ≤ env.usdc src ∧
        env' = env.setUsdc (moveUsdc env.usdc src dst amount) := by
  simp only [transfer, failIf_bind_eq_ok, Except.ok.injEq, not_lt]
  constructor
  · rintro ⟨hn, hb, rfl⟩
    exact ⟨hn, hb, rfl⟩
  · rintro ⟨hn, hb, rfl⟩
    exact ⟨hn, hb, rfl⟩

omit [DecidableEq S] in
/-- A transfer that is skipped when there is nothing to move. -/
theorem transfer_if_pos {env env' : Env A S} {src dst : Party A} {amount : ℤ}
    (h : (if amount > 0 then env.transfer src dst amount else .ok env) = .ok env') :
    (0 < amount → amount ≤ env.usdc src) ∧
      env' = env.setUsdc (moveUsdc env.usdc src dst (max amount 0)) := by
  by_cases hp : amount > 0
  · rw [if_pos hp, transfer_eq_ok] at h
    obtain ⟨_, hle, rfl⟩ := h
    exact ⟨fun _ => hle, by rw [max_eq_left hp.le]⟩
  · rw [if_neg hp] at h
    cases h
    exact ⟨fun h0 => absurd h0 hp, by rw [max_eq_right (by omega), moveUsdc_zero, setUsdc_self]⟩

/-! ## Keyed storage -/

def getMarket (env : Env A S) (symbol : S) : MarketInfo :=
  (env.pm.markets.lookup symbol).getD (.empty env.timestamp)

def setMarkets (env : Env A S) (markets : Table S MarketInfo) : Env A S :=
  { env with pm := { env.pm with markets := markets } }

def setMarket (env : Env A S) (symbol : S) (market : MarketInfo) : Env A S :=
  env.setMarkets (env.pm.markets.insert symbol market)

def getPosition (env : Env A S) (trader : A) (symbol : S) : Option Position :=
  env.pm.positions.lookup (trader, symbol)

def setPosition (env : Env A S) (trader : A) (symbol : S) (pos : Position) : Env A S :=
  { env with pm := { env.pm with positions := env.pm.positions.insert (trader, symbol) pos } }

def deletePosition (env : Env A S) (trader : A) (symbol : S) : Env A S :=
  { env with pm := { env.pm with positions := env.pm.positions.erase (trader, symbol) } }

def getMarketUnrealizedPnl (env : Env A S) (symbol : S) : ℤ :=
  (env.pm.marketUnrealizedPnl.lookup symbol).getD 0

omit [DecidableEq A] in
theorem getMarket_of_lookup {env : Env A S} {symbol : S} {m : MarketInfo}
    (h : env.pm.markets.lookup symbol = some m) : env.getMarket symbol = m := by
  rw [getMarket, h]
  rfl

omit [DecidableEq A] in
theorem getMarket_of_unstored {env : Env A S} {symbol : S}
    (h : env.pm.markets.lookup symbol = none) : env.getMarket symbol = .empty env.timestamp := by
  rw [getMarket, h]
  rfl

omit [DecidableEq A] in
@[simp] theorem getMarket_setMarket (env : Env A S) (symbol other : S) (market : MarketInfo) :
    (env.setMarket symbol market).getMarket other =
      if other = symbol then market else env.getMarket other := by
  by_cases h : other = symbol
  · subst h
    simp [getMarket, setMarket, setMarkets]
  · simp [getMarket, setMarket, setMarkets, h]

end Env

end Stellars
