import Stellars.EventLogs
import Stellars.Protocol

/-!
# What the contracts publish

Each state-changing call again, with the events it publishes on the way. An event
carries the fields that the indexer's tables keep; events that only reach history
tables, or no handler at all, are left out. Erasing the events leaves the call of
the state machine.
-/
namespace Stellars
open GuardedRuns EventLogs

/-- `deposit` and `withdraw` come from the ERC-4626 library, the events after them
from the vault, and those from `increase` on from the position manager. -/
inductive Event (A S : Type)
  | deposit (shares : ℤ)
  | withdraw (shares : ℤ)
  | payProfit (newTotalAssets : ℤ)
  | absorbed (newTotalAssets : ℤ)
  | total (newTotalAssets : ℤ)
  | reserve (newTotal : ℤ)
  | release (newTotal : ℤ)
  | fees (newTotal : ℤ)
  | claim (amount : ℤ)
  | claimTo (amount newTotal : ℤ)
  | netPnl (pnl : ℤ)
  | vaultPause (isPaused : Bool)
  | increase (trader : A) (symbol : S) (entryPrice : ℤ) (isLong : Bool) (tp sl newTotalSize
      newTotalCollateral entryBorrowIndex entryFundingIndex : ℤ) (lastIncreasedTime : ℕ)
  | decrease (trader : A) (symbol : S) (isFullClose : Bool) (newTotalSize newTotalCollateral : ℤ)
  | liq (trader : A) (symbol : S)
  | execOrd (trader : A) (symbol : S)
  | adl (trader : A) (symbol : S)
  | indices (symbol : S) (accBorrowIndex accFundingIndex : ℤ) (timestamp : ℕ)
  | tpSl (trader : A) (symbol : S) (takeProfit stopLoss : ℤ)
  | maxLev (symbol : S) (maxLeverage : ℤ)
  | mktPnl (symbol : S) (unrealizedPnl : ℤ)
  | pause (isPaused : Bool)
  deriving Repr, DecidableEq

namespace Publishing

variable {A S : Type} [DecidableEq A]

abbrev Call (A S α : Type) := Logged Error (Event A S) α

/-! ## The vault -/

def payProfit (env : Env A S) (caller : Party A) (trader : A) (amount : ℤ) :
    Call A S (Env A S) := do
  let env' ← call (env.payProfit caller trader amount)
  publish (.payProfit env'.totalAssets)
  pure env'

def reserveLiquidity (env : Env A S) (caller : Party A) (amount : ℤ) : Call A S (Env A S) := do
  let env' ← call (env.reserveLiquidity caller amount)
  publish (.reserve env'.vault.reservedUsdc)
  pure env'

def releaseLiquidity (env : Env A S) (caller : Party A) (amount : ℤ) : Call A S (Env A S) := do
  let env' ← call (env.releaseLiquidity caller amount)
  publish (.release env'.vault.reservedUsdc)
  pure env'

def updateNetPnl (env : Env A S) (caller : Party A) (pnl : ℤ) : Call A S (Env A S) := do
  let env' ← call (env.updateNetPnl caller pnl)
  publish (.netPnl pnl)
  pure env'

def recordAbsorbedCollateral (env : Env A S) (caller : Party A) (amount preBalance : ℤ) :
    Call A S Unit := do
  call (env.recordAbsorbedCollateral caller amount preBalance)
  publish (.absorbed env.totalAssets)

/-- The snapshot covers the transfer that came before this call. -/
def accrueFees (env : Env A S) (caller : Party A) (amount : ℤ) : Call A S (Env A S) := do
  let env' ← call (env.accrueFees caller amount)
  publish (.fees env'.vault.unclaimedFees)
  publish (.total env'.totalAssets)
  pure env'

def claimFees (env : Env A S) (caller : A) (recipient : Party A) : Call A S (Env A S) := do
  let env' ← call (env.claimFees caller recipient)
  publish (.claim env.vault.unclaimedFees)
  pure env'

def claimFeesTo (env : Env A S) (caller recipient : Party A) (amount : ℤ) :
    Call A S (Env A S) := do
  let env' ← call (env.claimFeesTo caller recipient amount)
  publish (.claimTo amount env'.vault.unclaimedFees)
  pure env'

def deposit (erc : Erc4626) (env : Env A S) (assets : ℤ) (receiver src operator : A) :
    Call A S (ℤ × Env A S) := do
  let result ← call (env.deposit erc assets receiver src operator)
  publish (.deposit result.1)
  publish (.total result.2.totalAssets)
  pure result

def mint (erc : Erc4626) (env : Env A S) (shares : ℤ) (receiver src operator : A) :
    Call A S (ℤ × Env A S) := do
  let result ← call (env.mint erc shares receiver src operator)
  publish (.deposit shares)
  publish (.total result.2.totalAssets)
  pure result

def withdraw (erc : Erc4626) (env : Env A S) (assets : ℤ) (receiver : Party A)
    (owner operator : A) : Call A S (ℤ × Env A S) := do
  let result ← call (env.withdraw erc assets receiver owner operator)
  publish (.withdraw result.1)
  publish (.total result.2.totalAssets)
  pure result

def redeem (erc : Erc4626) (env : Env A S) (shares : ℤ) (receiver : Party A)
    (owner operator : A) : Call A S (ℤ × Env A S) := do
  let result ← call (env.redeem erc shares receiver owner operator)
  publish (.withdraw shares)
  publish (.total result.2.totalAssets)
  pure result

def setVaultPaused (env : Env A S) (caller : A) (paused : Bool) : Call A S (Env A S) := do
  let env' ← call (env.setVaultPaused caller paused)
  publish (.vaultPause paused)
  pure env'

def vaultCall (erc : Erc4626) (env : Env A S) (caller : A) : VaultCall A → Call A S (Env A S)
  | .deposit assets receiver src => do
      let result ← deposit erc env assets receiver src caller
      pure result.2
  | .mint shares receiver src => do
      let result ← mint erc env shares receiver src caller
      pure result.2
  | .withdraw assets receiver owner => do
      let result ← withdraw erc env assets receiver owner caller
      pure result.2
  | .redeem shares receiver owner => do
      let result ← redeem erc env shares receiver owner caller
      pure result.2
  | .transfer dst amount => call (env.transferShares caller dst amount)
  | .transferFrom src dst amount => call (env.transferSharesFrom caller src dst amount)
  | .approve spender amount => call (env.approve caller spender amount)
  | .claimFees recipient => claimFees env caller recipient
  | .pause => setVaultPaused env caller true
  | .unpause => setVaultPaused env caller false
  | .payProfit trader amount => payProfit env (.account caller) trader amount
  | .reserveLiquidity amount => reserveLiquidity env (.account caller) amount
  | .releaseLiquidity amount => releaseLiquidity env (.account caller) amount
  | .updateNetPnl pnl => updateNetPnl env (.account caller) pnl
  | .recordAbsorbedCollateral amount preBalance => do
      recordAbsorbedCollateral env (.account caller) amount preBalance
      pure env
  | .accrueFees amount => accrueFees env (.account caller) amount
  | .claimFeesTo recipient amount => claimFeesTo env (.account caller) recipient amount

/-! ## Revenue -/

def accrueNonLpSlice (env : Env A S) (amount : ℤ) : Call A S (Env A S) :=
  let nonLp := env.nonLpSlice amount
  if nonLp > 0 then accrueFees env .positionManager nonLp else pure env

def recvRevenue (env : Env A S) (amount : ℤ) : Call A S (Env A S) :=
  if amount ≤ 0 then pure env
  else do
    let env' ← call (env.transfer .positionManager .vault amount)
    accrueNonLpSlice env' amount

def resliceRevenue (env : Env A S) (amount : ℤ) : Call A S (Env A S) :=
  if amount ≤ 0 then pure env else accrueNonLpSlice env amount

/-- Only an escrow forfeited to the vault publishes anything. -/
def settleOnClose (env : Env A S) (trader : A) (kind : CloseType) (escrow : ℤ)
    (executor : Option A) (isPartial : Bool) : Call A S (Env A S) :=
  if escrow ≤ 0 then pure env
  else
    match kind with
    | .liquidation => recvRevenue env escrow
    | kind => call (env.settleOnClose trader kind escrow executor isPartial)

variable [DecidableEq S]

/-! ## Markets and positions -/

/-- A refresh publishes the indices only when it stores them. -/
def refreshTick (env : Env A S) (symbol : S) (view : VaultView) (price : ℤ) :
    Call A S (Env A S × MarketTick) := do
  let market := env.getMarket symbol
  let market' := env.accrue view market
  let env' ← (if env.timeDelta market > 0 then do
      publish (.indices symbol market'.accBorrowIndex market'.accFundingIndex
        (env.effectiveNow market))
      pure (env.setMarket symbol market')
    else pure env)
  let markPrice ← call (Env.getPrice price)
  pure (env', ⟨market', markPrice⟩)

def refreshMarketUnrealizedPnl (env : Env A S) (symbol : S) (markPrice : ℤ) :
    Call A S (Env A S) := do
  let env' ← call (env.refreshMarketUnrealizedPnl symbol markPrice)
  publish (.mktPnl symbol (env'.getMarketUnrealizedPnl symbol))
  publish (.netPnl env'.pm.totalUnrealizedPnl)
  pure env'

def doIncreasePosition (env : Env A S) (req : IncreaseRequest A S) : Call A S (Env A S) := do
  let view := VaultView.refresh env
  let (env, tick) ← refreshTick env req.symbol view req.price
  call (failIf (req.acceptablePrice > 0 ∧ req.isLong = true ∧ tick.markPrice > req.acceptablePrice)
    (.positionManager .slippageExceeded))
  call (failIf (req.acceptablePrice > 0 ∧ req.isLong = false ∧ tick.markPrice < req.acceptablePrice)
    (.positionManager .slippageExceeded))
  let limits := env.cfg.protocolLimits.1
  call (failIf (req.collateral < limits.minCollateral) (.positionManager .belowMinCollateral))
  let position ← call (env.increasedPosition req tick)
  let maxLeverage ← call (orFail (env.pm.maxLeverage req.symbol)
    (.positionManager .marketNotConfigured))
  let maxSize ← call (orFail (checkedMul position.collateral maxLeverage)
    (.positionManager .excessiveLeverage))
  call (failIf (position.size > maxSize) (.positionManager .excessiveLeverage))
  call (validateTpSl position.takeProfit position.stopLoss)
  let market := tick.market.addOpenInterest req.isLong tick.markPrice req.size
  let newReserved := view.reserved + req.size
  call (failIf (calcUtilizationBps newReserved view.safeBasis > limits.maxUtilizationRatio)
    (.positionManager .utilizationCapBreached))
  let traderOwed := req.collateral + env.openFee req + env.escrowOwed req
  let env1 ← call (env.transfer (.account req.trader) .positionManager traderOwed)
  let env2 ← recvRevenue env1 (env.openFee req)
  let env3 ← reserveLiquidity env2 .positionManager req.size
  let env4 := (env3.setPosition req.trader req.symbol position).setMarket req.symbol market
  publish (.increase req.trader req.symbol position.entryPrice req.isLong position.takeProfit
    position.stopLoss position.size position.collateral position.entryBorrowIndex
    position.entryFundingIndex position.lastIncreasedTime)
  refreshMarketUnrealizedPnl env4 req.symbol tick.markPrice

def increasePosition (env : Env A S) (req : IncreaseRequest A S) : Call A S (Env A S) := do
  call env.requireNotPaused
  call (failIf (env.pm.marketDisabled req.symbol = true) (.positionManager .marketDisabled))
  call (failIf (req.size ≤ 0) (.positionManager .zeroAmount))
  call (failIf (req.collateral ≤ 0) (.positionManager .zeroAmount))
  doIncreasePosition env req

def absorbCollateral (env : Env A S) (amount : ℤ) : Call A S (Env A S) := do
  let preBalance := env.totalAssets
  let env' ← call (env.transfer .positionManager .vault amount)
  recordAbsorbedCollateral env' .positionManager amount preBalance
  pure env'

def executeClose (env : Env A S) (r : CloseRequest A S) : Call A S (Env A S) := do
  let feeConfig := env.cfg.feeConfig.1
  let env ← (if r.sizeDelta > 0 then releaseLiquidity env .positionManager r.sizeDelta
    else pure env)
  let env ← (if r.vaultToTrader > 0 then
    payProfit env .positionManager r.trader r.vaultToTrader else pure env)
  let env ← (if r.vaultAbsorbed feeConfig > 0 then
    absorbCollateral env (r.vaultAbsorbed feeConfig) else pure env)
  let env ← call (if r.pmToTrader > 0 then
    env.transfer .positionManager (.account r.trader) r.pmToTrader else .ok env)
  let env ← call (env.payBounty r.executor (r.bounty feeConfig))
  let env : Env A S :=
    { env with pm := { env.pm with realizedPnl := env.pm.realizedPnl + r.netEconomicPnl } }
  let env ← resliceRevenue env (r.distributableFees feeConfig)
  let env ← settleOnClose env r.trader r.kind r.pos.executionFeeEscrow r.executor r.isPartial
  let env := (env.settlePosition r).setMarket r.symbol r.closedMarket
  refreshMarketUnrealizedPnl env r.symbol r.tick.markPrice

/-- What an entry point publishes once `execute_close` has settled the request. -/
def closeEvent (r : CloseRequest A S) : Event A S :=
  match r.kind with
  | .user => .decrease r.trader r.symbol (decide (r.sizeDelta = r.pos.size))
      (r.pos.size - r.sizeDelta)
      (if r.sizeDelta = r.pos.size then 0 else r.pos.collateral - r.collateralDelta)
  | .liquidation => .liq r.trader r.symbol
  | .deleverage => .adl r.trader r.symbol
  | .orderExecution => .execOrd r.trader r.symbol

/-- The checks of the entry points publish nothing, but each refreshes the market once. -/
def closePosition (env : Env A S) (closing : CloseCall A S) : Call A S (Env A S) := do
  let (env1, r) ← call (env.closeRequest closing)
  let _ ← refreshTick env r.symbol (VaultView.refresh env) r.tick.markPrice
  let env' ← executeClose env1 r
  publish (closeEvent r)
  pure env'

def setTpSl (env : Env A S) (trader : A) (symbol : S) (takeProfit stopLoss : ℤ) :
    Call A S (Env A S) := do
  let env' ← call (env.setTpSl trader symbol takeProfit stopLoss)
  publish (.tpSl trader symbol takeProfit stopLoss)
  pure env'

def updateIndices (env : Env A S) (caller : A) (symbol : S) (price : ℤ) :
    Call A S (Env A S) := do
  call env.requireNotPaused
  call (env.requireRole caller .keeper)
  let view := VaultView.refresh env
  let (env, tick) ← refreshTick env symbol view price
  refreshMarketUnrealizedPnl env symbol tick.markPrice

def pause (env : Env A S) (caller : A) : Call A S (Env A S) := do
  let env' ← call (env.pause caller)
  if env.pm.isPaused then pure env'
  else do
    publish (.pause true)
    pure env'

def unpause (env : Env A S) (caller : A) : Call A S (Env A S) := do
  let env' ← call (env.unpause caller)
  if env.pm.isPaused then do
    publish (.pause false)
    pure env'
  else pure env'

def setMaxLeverage (env : Env A S) (caller : A) (symbol : S) (maxLeverage : ℤ) :
    Call A S (Env A S) := do
  let env' ← call (env.setMaxLeverage caller symbol maxLeverage)
  publish (.maxLev symbol maxLeverage)
  pure env'

/-- One operation of the protocol with its events. -/
def apply (erc : Erc4626) (env : Env A S) : Op A S → Call A S (Env A S)
  | .vault caller call => vaultCall erc env caller call
  | .increase req => increasePosition env req
  | .close call => closePosition env call
  | .setTpSl trader symbol takeProfit stopLoss => setTpSl env trader symbol takeProfit stopLoss
  | .updateIndices caller symbol price => updateIndices env caller symbol price
  | .pause caller => pause env caller
  | .unpause caller => unpause env caller
  | .setMaxLeverage caller symbol maxLeverage => setMaxLeverage env caller symbol maxLeverage
  | op => call (env.apply erc op)

/-! ## Erasing the events -/

section Erasure

variable (env : Env A S)

omit [DecidableEq S] in
theorem erase_vaultCall (erc : Erc4626) (caller : A) (c : VaultCall A) :
    erase (vaultCall erc env caller c) = env.vaultCall erc caller c := by
  cases c <;>
    simp [vaultCall, Env.vaultCall, deposit, mint, withdraw, redeem, claimFees, setVaultPaused,
      payProfit, reserveLiquidity, releaseLiquidity, updateNetPnl, recordAbsorbedCollateral,
      accrueFees, claimFeesTo, bind_ok_comp]

omit [DecidableEq S] in
theorem erase_recvRevenue (amount : ℤ) : erase (recvRevenue env amount) = env.recvRevenue amount := by
  simp [recvRevenue, Env.recvRevenue, accrueNonLpSlice, Env.accrueNonLpSlice, accrueFees]

omit [DecidableEq S] in
theorem erase_resliceRevenue (amount : ℤ) :
    erase (resliceRevenue env amount) = env.resliceRevenue amount := by
  simp [resliceRevenue, Env.resliceRevenue, accrueNonLpSlice, Env.accrueNonLpSlice, accrueFees]

omit [DecidableEq S] in
theorem erase_settleOnClose (trader : A) (kind : CloseType) (escrow : ℤ) (executor : Option A)
    (isPartial : Bool) : erase (settleOnClose env trader kind escrow executor isPartial) =
      env.settleOnClose trader kind escrow executor isPartial := by
  by_cases hle : escrow ≤ 0
  · simp [settleOnClose, Env.settleOnClose, hle]
  · cases kind <;> simp [settleOnClose, Env.settleOnClose, hle, erase_recvRevenue]

omit [DecidableEq A] in
theorem erase_refreshTick (symbol : S) (view : VaultView) (price : ℤ) :
    erase (refreshTick env symbol view price) = env.refreshTick symbol view price := by
  simp only [refreshTick, Env.refreshTick, erase_bind, erase_ite, erase_publish, erase_pure,
    erase_call, ok_bind]
  split_ifs <;> rfl

theorem erase_refreshMarketUnrealizedPnl (symbol : S) (markPrice : ℤ) :
    erase (refreshMarketUnrealizedPnl env symbol markPrice) =
      env.refreshMarketUnrealizedPnl symbol markPrice := by
  simp [refreshMarketUnrealizedPnl]

theorem erase_increasePosition (req : IncreaseRequest A S) :
    erase (increasePosition env req) = env.increasePosition req := by
  simp [increasePosition, Env.increasePosition, doIncreasePosition, Env.doIncreasePosition,
    erase_refreshTick, erase_recvRevenue, reserveLiquidity, erase_refreshMarketUnrealizedPnl]

omit [DecidableEq S] in
theorem erase_absorbCollateral (amount : ℤ) :
    erase (absorbCollateral env amount) = env.absorbCollateral amount := by
  simp [absorbCollateral, Env.absorbCollateral, recordAbsorbedCollateral]

theorem erase_executeClose (r : CloseRequest A S) :
    erase (executeClose env r) = env.executeClose r := by
  simp [executeClose, Env.executeClose, releaseLiquidity, payProfit, erase_absorbCollateral,
    erase_resliceRevenue, erase_settleOnClose, erase_refreshMarketUnrealizedPnl]

theorem erase_closePosition (closing : CloseCall A S) :
    erase (closePosition env closing) = env.closePosition closing := by
  simp only [closePosition, Env.closePosition, erase_bind, erase_call]
  cases hreq : env.closeRequest closing with
  | error e => rfl
  | ok result =>
      obtain ⟨env1, r⟩ := result
      have hready := (Env.closeRequest_ok hreq).1
      -- the entry point has refreshed the market, so refreshing it again returns
      have hrefresh : env.refreshTick r.symbol (VaultView.refresh env) r.tick.markPrice =
          .ok (env1, r.tick) :=
        Env.refreshTick_eq_ok.mpr ⟨hready.price_pos, hready.refreshed, hready.tick⟩
      simp [erase_refreshTick, hrefresh, erase_executeClose]

theorem erase_updateIndices (caller : A) (symbol : S) (price : ℤ) :
    erase (updateIndices env caller symbol price) = env.updateIndices caller symbol price := by
  simp [updateIndices, Env.updateIndices, erase_refreshTick, erase_refreshMarketUnrealizedPnl]

/-- The events aside, an operation is the one of the state machine. -/
theorem erase_apply (erc : Erc4626) (op : Op A S) :
    erase (apply erc env op) = env.apply erc op := by
  cases op with
  | vault caller c => exact erase_vaultCall env erc caller c
  | increase req => exact erase_increasePosition env req
  | close closing => exact erase_closePosition env closing
  | updateIndices caller symbol price => exact erase_updateIndices env caller symbol price
  | _ => simp [apply, Env.apply, setTpSl, pause, unpause, setMaxLeverage]

end Erasure

/-- What an operation publishes, stamped with the close time of its ledger. -/
def published (erc : Erc4626) (env : Env A S) (op : Op A S) : List (ℕ × Event A S) :=
  (events (apply erc env op)).map (env.timestamp, ·)

/-- The event log of a run. -/
def eventLog (erc : Erc4626) (env : Env A S) (ops : List (Op A S)) : List (ℕ × Event A S) :=
  logOf (Env.step erc) (published erc) env ops

/-- An operation reverts and publishes nothing, or succeeds with its log. -/
theorem published_cases (erc : Erc4626) (env : Env A S) (op : Op A S) :
    env.step erc op = env ∧ published erc env op = [] ∧ ¬ (∃ env', env.apply erc op = .ok env') ∨
      ∃ log, env.apply erc op = .ok (env.step erc op) ∧
        (apply erc env op).run = .ok (env.step erc op, log) ∧
        published erc env op = log.map (env.timestamp, ·) := by
  obtain ⟨hsame, e, herror⟩ | ⟨hok, -⟩ := Env.step_cases erc env op
  · left
    have hlog : events (apply erc env op) = [] :=
      events_of_error ((erase_apply env erc op).trans herror)
    refine ⟨hsame, by rw [published, hlog, List.map_nil], ?_⟩
    rintro ⟨env', hok⟩
    rw [herror] at hok
    cases hok
  · right
    obtain ⟨log, hrun⟩ := exists_log ((erase_apply env erc op).trans hok)
    exact ⟨log, hok, hrun, by rw [published, events_of_run hrun]⟩

end Publishing
end Stellars
