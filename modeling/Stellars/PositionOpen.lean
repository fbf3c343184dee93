import Stellars.Revenue

/-!
# Opening and adding to positions

`increase_position` opens a position or merges into an existing one: entry price
and entry indices are re-averaged by size, and the collateral, the open fee and
any escrow arrive in one transfer. `IncreaseEffect` lists everything a successful
call checked and changed. The remaining entry points of this module move no
position size.
-/
namespace Stellars
open GuardedRuns KeyedTotals

/-- An authenticated `increase_position` call with the price the oracle answers. -/
structure IncreaseRequest (A S : Type) where
  trader : A
  symbol : S
  size : ℤ
  collateral : ℤ
  isLong : Bool
  takeProfit : ℤ
  stopLoss : ℤ
  acceptablePrice : ℤ
  price : ℤ
  deriving Repr, DecidableEq

def validateTpSl (takeProfit stopLoss : ℤ) : Except Error Unit :=
  failIf (takeProfit < 0 ∨ stopLoss < 0) (.positionManager .invalidTpSl)

/-- The surviving position of an increase. -/
def Position.increase {A S : Type} (pos : Position) (req : IncreaseRequest A S)
    (tick : MarketTick) (now : ℕ) (escrowOwed : ℤ) : Position :=
  { pos with
    entryPrice := updateGlobalAvgPrice pos.entryPrice pos.size tick.markPrice req.size
    entryBorrowIndex :=
      updateGlobalAvgPrice pos.entryBorrowIndex pos.size tick.market.accBorrowIndex req.size
    entryFundingIndex :=
      updateGlobalAvgPrice pos.entryFundingIndex pos.size tick.market.accFundingIndex req.size
    size := pos.size + req.size
    collateral := pos.collateral + req.collateral
    lastIncreasedTime := now
    takeProfit := if req.takeProfit > 0 then req.takeProfit else pos.takeProfit
    stopLoss := if req.stopLoss > 0 then req.stopLoss else pos.stopLoss
    executionFeeEscrow := pos.executionFeeEscrow + escrowOwed }

def Position.create {A S : Type} (req : IncreaseRequest A S) (tick : MarketTick) (now : ℕ)
    (escrowOwed : ℤ) : Position where
  collateral := req.collateral
  size := req.size
  entryPrice := tick.markPrice
  entryBorrowIndex := tick.market.accBorrowIndex
  entryFundingIndex := tick.market.accFundingIndex
  isLong := req.isLong
  lastIncreasedTime := now
  takeProfit := req.takeProfit
  stopLoss := req.stopLoss
  executionFeeEscrow := escrowOwed

/-- The market with `size` opened on one side at `markPrice`. -/
def MarketInfo.addOpenInterest (m : MarketInfo) (isLong : Bool) (markPrice size : ℤ) :
    MarketInfo :=
  m.setSide isLong (m.openInterest isLong + size)
    (updateGlobalAvgPrice (m.avgPrice isLong) (m.openInterest isLong) markPrice size)

namespace Env

variable {A S : Type} [DecidableEq A] [DecidableEq S]

def requireNotPaused (env : Env A S) : Except Error Unit :=
  failIf (env.pm.isPaused = true) (.positionManager .paused)

def requireRole (env : Env A S) (caller : A) (role : Role) : Except Error Unit :=
  failIf (env.cfg.hasRole role caller = false) (.positionManager .unauthorized)

/-- The escrow an increase charges. It never refunds. -/
def escrowOwed (env : Env A S) (req : IncreaseRequest A S) : ℤ :=
  let existing := env.getPosition req.trader req.symbol
  let priorEscrow := existing.elim 0 (·.executionFeeEscrow)
  let resulting := resultingTpSl (existing.elim 0 (·.takeProfit)) (existing.elim 0 (·.stopLoss))
    req.takeProfit req.stopLoss
  max 0 (escrowDelta priorEscrow resulting.1 resulting.2 env.cfg.feeConfig.1.tpSlExecutionFee)

def openFee (env : Env A S) (req : IncreaseRequest A S) : ℤ :=
  calcOpenFee req.size env.cfg.feeConfig.1.openFeeBps

def increasedPosition (env : Env A S) (req : IncreaseRequest A S) (tick : MarketTick) :
    Except Error Position :=
  match env.getPosition req.trader req.symbol with
  | some pos => do
      failIf (req.isLong ≠ pos.isLong) (.positionManager .directionMismatch)
      .ok (pos.increase req tick env.timestamp (env.escrowOwed req))
  | none => .ok (Position.create req tick env.timestamp (env.escrowOwed req))

def doIncreasePosition (env : Env A S) (req : IncreaseRequest A S) :
    Except Error (Env A S) := do
  let view := VaultView.refresh env
  let (env, tick) ← env.refreshTick req.symbol view req.price
  failIf (req.acceptablePrice > 0 ∧ req.isLong = true ∧ tick.markPrice > req.acceptablePrice)
    (.positionManager .slippageExceeded)
  failIf (req.acceptablePrice > 0 ∧ req.isLong = false ∧ tick.markPrice < req.acceptablePrice)
    (.positionManager .slippageExceeded)
  let limits := env.cfg.protocolLimits.1
  failIf (req.collateral < limits.minCollateral) (.positionManager .belowMinCollateral)
  let position ← env.increasedPosition req tick
  let maxLeverage ← orFail (env.pm.maxLeverage req.symbol) (.positionManager .marketNotConfigured)
  let maxSize ← orFail (checkedMul position.collateral maxLeverage)
    (.positionManager .excessiveLeverage)
  failIf (position.size > maxSize) (.positionManager .excessiveLeverage)
  validateTpSl position.takeProfit position.stopLoss
  let market := tick.market.addOpenInterest req.isLong tick.markPrice req.size
  let newReserved := view.reserved + req.size
  failIf (calcUtilizationBps newReserved view.safeBasis > limits.maxUtilizationRatio)
    (.positionManager .utilizationCapBreached)
  let traderOwed := req.collateral + env.openFee req + env.escrowOwed req
  let env1 ← env.transfer (.account req.trader) .positionManager traderOwed
  let env2 ← env1.recvRevenue (env.openFee req)
  let env3 ← env2.reserveLiquidity .positionManager req.size
  let env4 := (env3.setPosition req.trader req.symbol position).setMarket req.symbol market
  env4.refreshMarketUnrealizedPnl req.symbol tick.markPrice

def increasePosition (env : Env A S) (req : IncreaseRequest A S) : Except Error (Env A S) := do
  env.requireNotPaused
  failIf (env.pm.marketDisabled req.symbol = true) (.positionManager .marketDisabled)
  failIf (req.size ≤ 0) (.positionManager .zeroAmount)
  failIf (req.collateral ≤ 0) (.positionManager .zeroAmount)
  env.doIncreasePosition req

/-! ## Orders, indices and switches -/

def doSetTpSl (env : Env A S) (trader : A) (symbol : S) (takeProfit stopLoss : ℤ) :
    Except Error (Env A S) := do
  let pos ← orFail (env.getPosition trader symbol) (.positionManager .positionNotFound)
  validateTpSl takeProfit stopLoss
  let delta := escrowDelta pos.executionFeeEscrow takeProfit stopLoss
    env.cfg.feeConfig.1.tpSlExecutionFee
  let env' ← env.applyDelta trader delta
  .ok (env'.setPosition trader symbol
    { pos with
      executionFeeEscrow := pos.executionFeeEscrow + delta
      takeProfit := takeProfit
      stopLoss := stopLoss })

def setTpSl (env : Env A S) (trader : A) (symbol : S) (takeProfit stopLoss : ℤ) :
    Except Error (Env A S) := do
  env.requireNotPaused
  env.doSetTpSl trader symbol takeProfit stopLoss

def updateIndices (env : Env A S) (caller : A) (symbol : S) (price : ℤ) :
    Except Error (Env A S) := do
  env.requireNotPaused
  env.requireRole caller .keeper
  let view := VaultView.refresh env
  let (env, tick) ← env.refreshTick symbol view price
  env.refreshMarketUnrealizedPnl symbol tick.markPrice

/-- A repeated pause keeps the first boundary. -/
def pause (env : Env A S) (caller : A) : Except Error (Env A S) := do
  env.requireRole caller .pauser
  if env.pm.isPaused then .ok env
  else .ok { env with pm := { env.pm with isPaused := true, lastPauseTime := env.timestamp } }

def unpause (env : Env A S) (caller : A) : Except Error (Env A S) := do
  env.requireRole caller .pauser
  if env.pm.isPaused then
    .ok { env with pm := { env.pm with isPaused := false, lastUnpauseTime := env.timestamp } }
  else .ok env

abbrev minLeverage : ℤ := 2
abbrev maxLeverageCap : ℤ := 200

def setMaxLeverage (env : Env A S) (caller : A) (symbol : S) (maxLeverage : ℤ) :
    Except Error (Env A S) := do
  env.requireRole caller .admin
  failIf (maxLeverage < minLeverage) (.positionManager .leverageBelowFloor)
  failIf (maxLeverage > maxLeverageCap) (.positionManager .leverageCapExceeded)
  .ok { env with pm := { env.pm with
          maxLeverage := Function.update env.pm.maxLeverage symbol (some maxLeverage) } }

def setMarketDisabled (env : Env A S) (caller : A) (symbol : S) (disabled : Bool) :
    Except Error (Env A S) := do
  env.requireRole caller .pauser
  .ok { env with pm := { env.pm with
          marketDisabled := Function.update env.pm.marketDisabled symbol disabled } }

/-! ## What a successful increase did -/

section Inversion

variable {env env' : Env A S} {req : IncreaseRequest A S}

/-- The tick a call sees when its refresh succeeds. -/
def freshTick (env : Env A S) (symbol : S) (price : ℤ) : MarketTick :=
  ⟨env.freshMarket symbol, price⟩

def openedMarket (env : Env A S) (req : IncreaseRequest A S) : MarketInfo :=
  (env.freshMarket req.symbol).addOpenInterest req.isLong req.price req.size

/-- The total the vault is told once `symbol` is worth `pnl`. -/
def totalPnlWith (env : Env A S) (symbol : S) (pnl : ℤ) : ℤ :=
  env.pm.totalUnrealizedPnl + (pnl - env.getMarketUnrealizedPnl symbol)

/-- Everything a successful `do_increase_position` checked and changed. -/
structure IncreaseEffect (env env' : Env A S) (req : IncreaseRequest A S) (pos : Position) :
    Prop where
  price_pos : 0 < req.price
  min_collateral : env.cfg.protocolLimits.1.minCollateral ≤ req.collateral
  merged : env.increasedPosition req (env.freshTick req.symbol req.price) = .ok pos
  leverage : ∃ maxLeverage, env.pm.maxLeverage req.symbol = some maxLeverage ∧
    pos.size ≤ pos.collateral * maxLeverage
  utilization : calcUtilizationBps (env.vault.reservedUsdc + req.size) env.totalAssetsExclPnl ≤
    env.cfg.protocolLimits.1.maxUtilizationRatio
  reserve_fits : env.vault.reservedUsdc + req.size ≤ env.totalAssets + env.openFee req
  fees_fit : 0 < env.feeSlice (env.openFee req) →
    env.vault.unclaimedFees + env.feeSlice (env.openFee req) + env.vault.reservedUsdc ≤
      env.totalAssets + env.openFee req
  timestamp : env'.timestamp = env.timestamp
  cfg : env'.cfg = env.cfg
  usdc : env'.usdc = moveUsdc (moveUsdc env.usdc (.account req.trader) .positionManager
    (req.collateral + env.openFee req + env.escrowOwed req)) .positionManager .vault
      (env.openFee req)
  vault : env'.vault = { env.vault with
    reservedUsdc := env.vault.reservedUsdc + req.size
    unclaimedFees := env.vault.unclaimedFees + env.feeSlice (env.openFee req)
    netGlobalTraderPnl :=
      env.totalPnlWith req.symbol ((env.openedMarket req).unrealizedPnl req.price) }
  pm : env'.pm = { env.pm with
    positions := env.pm.positions.insert (req.trader, req.symbol) pos
    markets := env.pm.markets.insert req.symbol (env.openedMarket req)
    marketUnrealizedPnl := env.pm.marketUnrealizedPnl.insert req.symbol
      ((env.openedMarket req).unrealizedPnl req.price)
    totalUnrealizedPnl :=
      env.totalPnlWith req.symbol ((env.openedMarket req).unrealizedPnl req.price) }

theorem IncreaseEffect.markets {pos : Position} (h : IncreaseEffect env env' req pos) :
    env'.pm.markets = env.pm.markets.insert req.symbol (env.openedMarket req) := by rw [h.pm]

theorem IncreaseEffect.positions {pos : Position} (h : IncreaseEffect env env' req pos) :
    env'.pm.positions = env.pm.positions.insert (req.trader, req.symbol) pos := by rw [h.pm]

theorem IncreaseEffect.reservedUsdc {pos : Position} (h : IncreaseEffect env env' req pos) :
    env'.vault.reservedUsdc = env.vault.reservedUsdc + req.size := by rw [h.vault]

theorem IncreaseEffect.unclaimedFees {pos : Position} (h : IncreaseEffect env env' req pos) :
    env'.vault.unclaimedFees = env.vault.unclaimedFees + env.feeSlice (env.openFee req) := by
  rw [h.vault]

omit [DecidableEq A] [DecidableEq S] in
theorem openFee_nonneg (env : Env A S) (req : IncreaseRequest A S) : 0 ≤ env.openFee req :=
  calcOpenFee_nonneg _ _

theorem escrowOwed_nonneg (env : Env A S) (req : IncreaseRequest A S) :
    0 ≤ env.escrowOwed req := le_max_left _ _

theorem doIncreasePosition_ok (h : env.doIncreasePosition req = .ok env') :
    ∃ pos, IncreaseEffect env env' req pos := by
  unfold doIncreasePosition at h
  obtain ⟨⟨env1, tick⟩, hrefresh, h⟩ := bind_eq_ok.mp h
  obtain ⟨hprice, rfl, rfl⟩ := refreshTick_eq_ok.mp hrefresh
  have hm := env.insert_freshEnv req.symbol (env.openedMarket req)
  obtain ⟨markets, hfresh⟩ := env.freshEnv_eq req.symbol
  rw [hfresh] at h hm
  simp only [failIf_bind_eq_ok, not_lt] at h
  obtain ⟨_, _, hmin, h⟩ := h
  obtain ⟨pos, hpos, h⟩ := bind_eq_ok.mp h
  obtain ⟨maxLeverage, hlev, h⟩ := bind_eq_ok.mp h
  obtain ⟨maxSize, hsize, h⟩ := bind_eq_ok.mp h
  simp only [validateTpSl, failIf_bind_eq_ok, not_lt] at h
  obtain ⟨hlever, _, hutil, h⟩ := h
  obtain ⟨env2, htransfer, h⟩ := bind_eq_ok.mp h
  obtain ⟨env3, hrevenue, h⟩ := bind_eq_ok.mp h
  obtain ⟨env4, hreserve, h⟩ := bind_eq_ok.mp h
  rw [orFail_eq_ok] at hlev hsize
  obtain ⟨_, _, rfl⟩ := transfer_eq_ok.mp htransfer
  obtain ⟨rfl, hfees⟩ := recvRevenue_ok hrevenue
  obtain ⟨_, hfits, rfl⟩ := reserveLiquidity_eq_ok.mp hreserve
  rw [refreshMarketUnrealizedPnl_eq, getMarket_setMarket, if_pos rfl] at h
  cases h
  have hfee : max (env.openFee req) 0 = env.openFee req := max_eq_left (env.openFee_nonneg req)
  refine ⟨pos, hprice, hmin, hpos, ⟨maxLeverage, hlev, ?_⟩, hutil, ?_, ?_, rfl, rfl, ?_, rfl, ?_⟩
  · rw [← checkedMul_eq_some hsize]
    exact hlever
  · have hv : env.vault.reservedUsdc + req.size ≤
        moveUsdc (moveUsdc env.usdc (.account req.trader) .positionManager _)
          .positionManager .vault (max (env.openFee req) 0) .vault := hfits
    rw [hfee, moveUsdc_dst _ _ (by simp), moveUsdc_other _ _ (by simp) (by simp)] at hv
    exact hv
  · intro h0
    have hv : env.vault.unclaimedFees + env.feeSlice (env.openFee req) + env.vault.reservedUsdc ≤
        moveUsdc env.usdc (.account req.trader) .positionManager _ .vault +
          max (env.openFee req) 0 := hfees h0
    rw [hfee, moveUsdc_other _ _ (by simp) (by simp)] at hv
    exact hv
  · calc _ = moveUsdc _ _ _ (max (env.openFee req) 0) := rfl
      _ = _ := by rw [hfee]; rfl
  · simp only [← hm]
    rfl

theorem increasePosition_ok (h : env.increasePosition req = .ok env') :
    env.pm.isPaused = false ∧ 0 < req.size ∧ ∃ pos, IncreaseEffect env env' req pos := by
  simp only [increasePosition, requireNotPaused, failIf_bind_eq_ok, not_le] at h
  obtain ⟨hp, _, hs, _, h⟩ := h
  exact ⟨by simpa using hp, hs, doIncreasePosition_ok h⟩

theorem setTpSl_ok {trader : A} {symbol : S} {takeProfit stopLoss : ℤ}
    (h : env.setTpSl trader symbol takeProfit stopLoss = .ok env') :
    ∃ pos, env.getPosition trader symbol = some pos ∧
      let delta := escrowDelta pos.executionFeeEscrow takeProfit stopLoss
        env.cfg.feeConfig.1.tpSlExecutionFee
      env' = (env.setUsdc (moveUsdc env.usdc (.account trader) .positionManager delta)).setPosition
        trader symbol { pos with
          executionFeeEscrow := pos.executionFeeEscrow + delta
          takeProfit := takeProfit
          stopLoss := stopLoss } := by
  simp only [setTpSl, doSetTpSl, requireNotPaused, validateTpSl, bind_eq_ok, failIf_eq_ok,
    exists_const, orFail_eq_ok, Except.ok.injEq] at h
  obtain ⟨_, pos, hpos, _, env1, hdelta, rfl⟩ := h
  refine ⟨pos, hpos, ?_⟩
  rw [applyDelta_ok hdelta]

theorem updateIndices_ok {caller : A} {symbol : S} {price : ℤ}
    (h : env.updateIndices caller symbol price = .ok env') :
    env.pm.isPaused = false ∧ 0 < price ∧
      env' = (env.freshEnv symbol).withMarketPnl symbol
        ((env.freshMarket symbol).unrealizedPnl price) := by
  simp only [updateIndices, requireNotPaused, requireRole, bind_eq_ok, failIf_eq_ok,
    exists_const] at h
  obtain ⟨hp, _, ⟨env1, tick⟩, hrefresh, h⟩ := h
  obtain ⟨hprice, rfl, rfl⟩ := refreshTick_eq_ok.mp hrefresh
  rw [refreshMarketUnrealizedPnl_eq, getMarket_freshEnv_self] at h
  cases h
  exact ⟨by simpa using hp, hprice, rfl⟩

omit [DecidableEq A] [DecidableEq S] in
theorem pause_ok {caller : A} (h : env.pause caller = .ok env') :
    (env.pm.isPaused = true ∧ env' = env) ∨ (env.pm.isPaused = false ∧
      env' = { env with pm := { env.pm with
        isPaused := true, lastPauseTime := env.timestamp } }) := by
  simp only [pause, requireRole, failIf_bind_eq_ok] at h
  obtain ⟨_, h⟩ := h
  cases hp : env.pm.isPaused <;> simp only [hp] at h <;> cases h
  · exact .inr ⟨rfl, rfl⟩
  · exact .inl ⟨rfl, rfl⟩

omit [DecidableEq A] [DecidableEq S] in
theorem unpause_ok {caller : A} (h : env.unpause caller = .ok env') :
    (env.pm.isPaused = false ∧ env' = env) ∨ (env.pm.isPaused = true ∧
      env' = { env with pm := { env.pm with
        isPaused := false, lastUnpauseTime := env.timestamp } }) := by
  simp only [unpause, requireRole, failIf_bind_eq_ok] at h
  obtain ⟨_, h⟩ := h
  cases hp : env.pm.isPaused <;> simp only [hp] at h <;> cases h
  · exact .inl ⟨rfl, rfl⟩
  · exact .inr ⟨rfl, rfl⟩

omit [DecidableEq A] in
theorem setMaxLeverage_ok {caller : A} {symbol : S} {maxLeverage : ℤ}
    (h : env.setMaxLeverage caller symbol maxLeverage = .ok env') :
    env' = { env with pm := { env.pm with
      maxLeverage := Function.update env.pm.maxLeverage symbol (some maxLeverage) } } := by
  simp only [setMaxLeverage, requireRole, failIf_bind_eq_ok, Except.ok.injEq] at h
  exact h.2.2.2.symm

omit [DecidableEq A] in
theorem setMarketDisabled_ok {caller : A} {symbol : S} {disabled : Bool}
    (h : env.setMarketDisabled caller symbol disabled = .ok env') :
    env' = { env with pm := { env.pm with
      marketDisabled := Function.update env.pm.marketDisabled symbol disabled } } := by
  simp only [setMarketDisabled, requireRole, failIf_bind_eq_ok, Except.ok.injEq] at h
  exact h.2.symm

end Inversion

end Env

end Stellars
