import Stellars.PositionOpen

/-!
# Closing positions

Four entry points decide whether and how much to close; `execute_close` settles
the result. A `CloseRequest` is what an entry point hands over: the position and
the market as they stand after the refresh, the slice to close, and its value.
`CloseReady` and `CloseEffect` say what the checks and the settlement guarantee.
-/
namespace Stellars
open GuardedRuns KeyedTotals

structure CloseRequest (A S : Type) where
  trader : A
  symbol : S
  pos : Position
  tick : MarketTick
  sizeDelta : ℤ
  collateralDelta : ℤ
  eval : PositionEvaluation
  kind : CloseType
  executor : Option A
  deriving Repr, DecidableEq

/-! ## Routing the money -/

namespace CloseRequest

variable {A S : Type} (r : CloseRequest A S)

def traderPayout : ℤ := if r.eval.effectiveHealth > 0 then r.eval.effectiveHealth else 0

def pmToTrader : ℤ :=
  if r.traderPayout ≤ r.collateralDelta then r.traderPayout else r.collateralDelta

/-- Positive when the payout exceeds the released collateral. -/
def vaultToTrader : ℤ := r.traderPayout - r.collateralDelta

def pmToVault : ℤ := r.collateralDelta - r.traderPayout

def bounty (feeConfig : FeeConfig) : ℤ :=
  if r.kind = .liquidation then
    min (calcLiquidationBounty r.collateralDelta feeConfig.liquidationBountyBps) r.pmToVault
  else 0

def vaultAbsorbed (feeConfig : FeeConfig) : ℤ := r.pmToVault - r.bounty feeConfig

def netEconomicPnl : ℤ := r.eval.pnl - r.eval.borrowFee + r.eval.effectiveFunding

/-- Underwater closes share out no more than what the vault absorbed. -/
def distributableFees (feeConfig : FeeConfig) : ℤ :=
  let totalFees := r.eval.borrowFee + r.eval.fundingProtocolCut
  if r.traderPayout > 0 then totalFees else min totalFees (r.vaultAbsorbed feeConfig)

def isPartial : Bool := decide (r.sizeDelta < r.pos.size)

def closedMarket : MarketInfo :=
  let oi := r.tick.market.openInterest r.pos.isLong
  r.tick.market.setSide r.pos.isLong (oi - r.sizeDelta)
    (removeFromGlobalAvgPrice (r.tick.market.avgPrice r.pos.isLong) oi r.pos.entryPrice
      r.sizeDelta)

def remainder : Position :=
  { r.pos with
    collateral := r.pos.collateral - r.collateralDelta
    size := r.pos.size - r.sizeDelta }

theorem traderPayout_eq_max : r.traderPayout = max r.eval.effectiveHealth 0 := by
  unfold traderPayout
  split_ifs <;> omega

theorem pmToTrader_eq_min : r.pmToTrader = min r.traderPayout r.collateralDelta := by
  unfold pmToTrader
  split_ifs <;> omega

/-- The payout is what the vault adds and the position manager returns. -/
theorem traderPayout_split (hc : 0 ≤ r.collateralDelta) :
    max r.vaultToTrader 0 + max r.pmToTrader 0 = r.traderPayout := by
  have hp := r.traderPayout_eq_max
  rw [pmToTrader_eq_min, vaultToTrader]
  omega

/-- Released collateral is split exactly: to the trader, to the vault, and to
the liquidator. -/
theorem collateral_split (feeConfig : FeeConfig) (hc : 0 ≤ r.collateralDelta) :
    max r.pmToTrader 0 + max (r.vaultAbsorbed feeConfig) 0 + max (r.bounty feeConfig) 0 =
      r.collateralDelta := by
  have hraw := calcLiquidationBounty_nonneg r.collateralDelta feeConfig.liquidationBountyBps
  have hp := r.traderPayout_eq_max
  rw [pmToTrader_eq_min, vaultAbsorbed, bounty, pmToVault]
  split_ifs <;> omega

end CloseRequest

namespace Env

variable {A S : Type} [DecidableEq A] [DecidableEq S]

/-- Leave the remainder, or nothing when the whole size is closed. -/
def settlePosition (env : Env A S) (r : CloseRequest A S) : Env A S :=
  if r.sizeDelta = r.pos.size then env.deletePosition r.trader r.symbol
  else env.setPosition r.trader r.symbol r.remainder

/-- Move the absorbed collateral and have the vault confirm it. -/
def absorbCollateral (env : Env A S) (amount : ℤ) : Except Error (Env A S) := do
  let preBalance := env.totalAssets
  let env' ← env.transfer .positionManager .vault amount
  env'.recordAbsorbedCollateral .positionManager amount preBalance
  .ok env'

def payBounty (env : Env A S) (executor : Option A) (amount : ℤ) : Except Error (Env A S) :=
  if amount > 0 then
    match executor with
    | some addr => env.transfer .positionManager (.account addr) amount
    | none => .ok env
  else .ok env

def executeClose (env : Env A S) (r : CloseRequest A S) : Except Error (Env A S) := do
  let feeConfig := env.cfg.feeConfig.1
  let env ← (if r.sizeDelta > 0 then env.releaseLiquidity .positionManager r.sizeDelta
    else .ok env)
  let env ← (if r.vaultToTrader > 0 then
    env.payProfit .positionManager r.trader r.vaultToTrader else .ok env)
  let env ← (if r.vaultAbsorbed feeConfig > 0 then
    env.absorbCollateral (r.vaultAbsorbed feeConfig) else .ok env)
  let env ← (if r.pmToTrader > 0 then
    env.transfer .positionManager (.account r.trader) r.pmToTrader else .ok env)
  let env ← env.payBounty r.executor (r.bounty feeConfig)
  let env : Env A S :=
    { env with pm := { env.pm with realizedPnl := env.pm.realizedPnl + r.netEconomicPnl } }
  let env ← env.resliceRevenue (r.distributableFees feeConfig)
  let env ← env.settleOnClose r.trader r.kind r.pos.executionFeeEscrow r.executor r.isPartial
  let env := (env.settlePosition r).setMarket r.symbol r.closedMarket
  env.refreshMarketUnrealizedPnl r.symbol r.tick.markPrice

/-! ## The four entry points -/

def requireOldEnough (env : Env A S) (pos : Position) : Except Error Unit :=
  failIf (env.timestamp < pos.lastIncreasedTime + env.cfg.protocolLimits.1.minPositionLifetime)
    (.positionManager .positionNotOldEnough)

/-- The request to close all of `pos`. -/
def fullClose (env : Env A S) (trader : A) (symbol : S) (pos : Position) (tick : MarketTick)
    (kind : CloseType) (executor : Option A) : CloseRequest A S where
  trader := trader
  symbol := symbol
  pos := pos
  tick := tick
  sizeDelta := pos.size
  collateralDelta := pos.collateral
  eval := tick.evaluate pos pos.size pos.collateral env.cfg.protocolLimits.1.fundingCutBps
  kind := kind
  executor := executor

def decreaseRequest (env : Env A S) (trader : A) (symbol : S) (sizeDelta acceptablePrice : ℤ)
    (price : ℤ) : Except Error (Env A S × CloseRequest A S) := do
  let pos ← orFail (env.getPosition trader symbol) (.positionManager .positionNotFound)
  let limits := env.cfg.protocolLimits.1
  env.requireOldEnough pos
  let view := VaultView.refresh env
  let (env, tick) ← env.refreshTick symbol view price
  failIf (acceptablePrice > 0 ∧ pos.isLong = true ∧ tick.markPrice < acceptablePrice)
    (.positionManager .slippageExceeded)
  failIf (acceptablePrice > 0 ∧ pos.isLong = false ∧ tick.markPrice > acceptablePrice)
    (.positionManager .slippageExceeded)
  failIf (sizeDelta > pos.size) (.positionManager .sizeDeltaExceedsPosition)
  let collateralDelta :=
    if sizeDelta = pos.size then pos.collateral else (pos.collateral * sizeDelta).tdiv pos.size
  .ok (env, {
    trader := trader
    symbol := symbol
    pos := pos
    tick := tick
    sizeDelta := sizeDelta
    collateralDelta := collateralDelta
    eval := tick.evaluate pos sizeDelta collateralDelta limits.fundingCutBps
    kind := .user
    executor := none })

def liquidateRequest (env : Env A S) (caller trader : A) (symbol : S) (price : ℤ) :
    Except Error (Env A S × CloseRequest A S) := do
  let view := VaultView.refresh env
  let (env, tick) ← env.refreshTick symbol view price
  let pos ← orFail (env.getPosition trader symbol) (.positionManager .positionNotFound)
  let r := env.fullClose trader symbol pos tick .liquidation (some caller)
  let thresholdAmount :=
    (pos.collateral * env.cfg.protocolLimits.1.liquidationThresholdBps).tdiv bps
  failIf (r.eval.effectiveHealth ≥ thresholdAmount) (.positionManager .healthFactorOk)
  .ok (env, r)

def deleverageRequest (env : Env A S) (trader : A) (symbol : S) (price : ℤ) :
    Except Error (Env A S × CloseRequest A S) := do
  let view := VaultView.refresh env
  let (env, tick) ← env.refreshTick symbol view price
  let limits := env.cfg.protocolLimits.1
  let combinedPnl := env.pm.realizedPnl + env.pm.totalUnrealizedPnl
  failIf (view.adlPnlRatioBps combinedPnl ≤ limits.adlPnlBps ∧
    view.utilizationBps ≤ limits.adlUtilizationBps) (.positionManager .adlNotTriggered)
  let pos ← orFail (env.getPosition trader symbol) (.positionManager .positionNotFound)
  let r := env.fullClose trader symbol pos tick .deleverage none
  failIf (r.eval.pnl ≤ 0) (.positionManager .adlTargetNotProfitable)
  .ok (env, r)

def executeOrderRequest (env : Env A S) (caller trader : A) (symbol : S) (price : ℤ) :
    Except Error (Env A S × CloseRequest A S) := do
  let pos ← orFail (env.getPosition trader symbol) (.positionManager .positionNotFound)
  env.requireOldEnough pos
  let view := VaultView.refresh env
  let (env, tick) ← env.refreshTick symbol view price
  failIf (tick.isTpTriggered pos.takeProfit pos.isLong = false ∧
    tick.isSlTriggered pos.stopLoss pos.isLong = false) (.positionManager .orderNotTriggered)
  .ok (env, env.fullClose trader symbol pos tick .orderExecution (some caller))

end Env

/-- A call that closes a position, with the price the oracle answers. -/
inductive CloseCall (A S : Type)
  | decrease (trader : A) (symbol : S) (sizeDelta acceptablePrice price : ℤ)
  | liquidate (caller trader : A) (symbol : S) (price : ℤ)
  | deleverage (caller trader : A) (symbol : S) (price : ℤ)
  | executeOrder (caller trader : A) (symbol : S) (price : ℤ)
  deriving Repr, DecidableEq

namespace CloseCall

variable {A S : Type}

def trader : CloseCall A S → A
  | .decrease trader _ _ _ _ | .liquidate _ trader _ _ => trader
  | .deleverage _ trader _ _ | .executeOrder _ trader _ _ => trader

def symbol : CloseCall A S → S
  | .decrease _ symbol _ _ _ | .liquidate _ _ symbol _ => symbol
  | .deleverage _ _ symbol _ | .executeOrder _ _ symbol _ => symbol

def price : CloseCall A S → ℤ
  | .decrease _ _ _ _ price | .liquidate _ _ _ price => price
  | .deleverage _ _ _ price | .executeOrder _ _ _ price => price

def kind : CloseCall A S → CloseType
  | .decrease .. => .user
  | .liquidate .. => .liquidation
  | .deleverage .. => .deleverage
  | .executeOrder .. => .orderExecution

/-- Who is rewarded for the call, if anyone. -/
def executor : CloseCall A S → Option A
  | .decrease .. | .deleverage .. => none
  | .liquidate caller .. | .executeOrder caller .. => some caller

end CloseCall

namespace Env

variable {A S : Type} [DecidableEq A] [DecidableEq S]

/-- The checks of each entry point, up to its call of `execute_close`. -/
def closeRequest (env : Env A S) : CloseCall A S → Except Error (Env A S × CloseRequest A S)
  | .decrease trader symbol sizeDelta acceptablePrice price => do
      failIf (sizeDelta ≤ 0) (.positionManager .zeroAmount)
      env.decreaseRequest trader symbol sizeDelta acceptablePrice price
  | .liquidate caller trader symbol price => env.liquidateRequest caller trader symbol price
  | .deleverage caller trader symbol price => do
      env.requireRole caller .keeper
      env.deleverageRequest trader symbol price
  | .executeOrder caller trader symbol price =>
      env.executeOrderRequest caller trader symbol price

/-- `decrease_position`, `liquidate_position`, `deleverage_position` and
`execute_order`. -/
def closePosition (env : Env A S) (call : CloseCall A S) : Except Error (Env A S) := do
  let (env, r) ← env.closeRequest call
  env.executeClose r

/-! ## What the checks guarantee -/

/-- An entry point accepted the close: the request describes the stored position
in the refreshed market, and the slice fits the position. -/
structure CloseReady (env env1 : Env A S) (r : CloseRequest A S) : Prop where
  price_pos : 0 < r.tick.markPrice
  tick : r.tick = env.freshTick r.symbol r.tick.markPrice
  refreshed : env1 = env.freshEnv r.symbol
  position : env.getPosition r.trader r.symbol = some r.pos
  size_le : r.sizeDelta ≤ r.pos.size
  size_pos : 0 < r.sizeDelta ∨ r.sizeDelta = r.pos.size
  collateral : r.collateralDelta = if r.sizeDelta = r.pos.size then r.pos.collateral
    else (r.pos.collateral * r.sizeDelta).tdiv r.pos.size
  eval : r.eval = r.tick.evaluate r.pos r.sizeDelta r.collateralDelta
    env.cfg.protocolLimits.1.fundingCutBps
  executor : r.kind = .liquidation ∨ r.kind = .orderExecution → r.executor.isSome
  whole : r.kind ≠ .user → r.sizeDelta = r.pos.size

section Inversion

variable {env env1 env' : Env A S} {r : CloseRequest A S}

theorem getPosition_freshEnv (env : Env A S) (symbol : S) (trader : A) (other : S) :
    (env.freshEnv symbol).getPosition trader other = env.getPosition trader other := by
  obtain ⟨markets, h⟩ := env.freshEnv_eq symbol
  rw [h]
  rfl

omit [DecidableEq A] in
theorem cfg_freshEnv (env : Env A S) (symbol : S) : (env.freshEnv symbol).cfg = env.cfg := by
  obtain ⟨markets, h⟩ := env.freshEnv_eq symbol
  rw [h]
  rfl

theorem closeReady_fullClose {trader : A} {symbol : S} {pos : Position} {price : ℤ}
    {kind : CloseType} {executor : Option A} (hp : 0 < price)
    (hpos : env.getPosition trader symbol = some pos)
    (hex : kind = .liquidation ∨ kind = .orderExecution → executor.isSome) :
    CloseReady env (env.freshEnv symbol) ((env.freshEnv symbol).fullClose trader symbol pos
      (env.freshTick symbol price) kind executor) where
  price_pos := hp
  tick := rfl
  refreshed := rfl
  position := hpos
  size_le := le_rfl
  size_pos := .inr rfl
  collateral := (if_pos rfl).symm
  eval := by simp only [fullClose, cfg_freshEnv]
  executor := hex
  whole := fun _ => rfl

/-- The request is about the position and the price the call names. -/
structure CloseNames (call : CloseCall A S) (r : CloseRequest A S) : Prop where
  trader : r.trader = call.trader
  symbol : r.symbol = call.symbol
  price : r.tick.markPrice = call.price
  executor : r.executor = call.executor

theorem decreaseRequest_ok {trader : A} {symbol : S} {sizeDelta acceptablePrice price : ℤ}
    (hs : 0 < sizeDelta)
    (h : env.decreaseRequest trader symbol sizeDelta acceptablePrice price = .ok (env1, r)) :
    CloseReady env env1 r ∧
      CloseNames (.decrease trader symbol sizeDelta acceptablePrice price) r := by
  simp only [decreaseRequest, bind_eq_ok, orFail_eq_ok, failIf_eq_ok, requireOldEnough,
    exists_const, Except.ok.injEq, Prod.mk.injEq, not_lt] at h
  obtain ⟨pos, hpos, _, ⟨env2, tick⟩, hrefresh, _, _, hle, rfl, rfl⟩ := h
  obtain ⟨hprice, rfl, rfl⟩ := refreshTick_eq_ok.mp hrefresh
  exact ⟨⟨hprice, rfl, rfl, hpos, hle, .inl hs, rfl, rfl, by simp, fun hk => absurd rfl hk⟩,
    ⟨rfl, rfl, rfl, rfl⟩⟩

theorem liquidateRequest_ok {caller trader : A} {symbol : S} {price : ℤ}
    (h : env.liquidateRequest caller trader symbol price = .ok (env1, r)) :
    CloseReady env env1 r ∧ CloseNames (.liquidate caller trader symbol price) r := by
  simp only [liquidateRequest, bind_eq_ok, orFail_eq_ok, failIf_eq_ok, exists_const,
    Except.ok.injEq, Prod.mk.injEq] at h
  obtain ⟨⟨env2, tick⟩, hrefresh, pos, hpos, _, rfl, rfl⟩ := h
  obtain ⟨hprice, rfl, rfl⟩ := refreshTick_eq_ok.mp hrefresh
  rw [getPosition_freshEnv] at hpos
  exact ⟨closeReady_fullClose hprice hpos (fun _ => rfl), ⟨rfl, rfl, rfl, rfl⟩⟩

theorem deleverageRequest_ok {caller trader : A} {symbol : S} {price : ℤ}
    (h : env.deleverageRequest trader symbol price = .ok (env1, r)) :
    CloseReady env env1 r ∧ CloseNames (.deleverage caller trader symbol price) r := by
  simp only [deleverageRequest, bind_eq_ok, orFail_eq_ok, failIf_eq_ok, exists_const,
    Except.ok.injEq, Prod.mk.injEq] at h
  obtain ⟨⟨env2, tick⟩, hrefresh, _, pos, hpos, _, rfl, rfl⟩ := h
  obtain ⟨hprice, rfl, rfl⟩ := refreshTick_eq_ok.mp hrefresh
  rw [getPosition_freshEnv] at hpos
  exact ⟨closeReady_fullClose hprice hpos (by simp), ⟨rfl, rfl, rfl, rfl⟩⟩

theorem executeOrderRequest_ok {caller trader : A} {symbol : S} {price : ℤ}
    (h : env.executeOrderRequest caller trader symbol price = .ok (env1, r)) :
    CloseReady env env1 r ∧ CloseNames (.executeOrder caller trader symbol price) r := by
  simp only [executeOrderRequest, bind_eq_ok, orFail_eq_ok, failIf_eq_ok, requireOldEnough,
    exists_const, Except.ok.injEq, Prod.mk.injEq] at h
  obtain ⟨pos, hpos, _, ⟨env2, tick⟩, hrefresh, _, rfl, rfl⟩ := h
  obtain ⟨hprice, rfl, rfl⟩ := refreshTick_eq_ok.mp hrefresh
  exact ⟨closeReady_fullClose hprice hpos (fun _ => rfl), ⟨rfl, rfl, rfl, rfl⟩⟩

theorem closeRequest_ok {call : CloseCall A S} (h : env.closeRequest call = .ok (env1, r)) :
    CloseReady env env1 r ∧ CloseNames call r := by
  cases call with
  | decrease trader symbol sizeDelta acceptablePrice price =>
      simp only [closeRequest, failIf_bind_eq_ok, not_le] at h
      exact decreaseRequest_ok h.1 h.2
  | liquidate caller trader symbol price => exact liquidateRequest_ok h
  | deleverage caller trader symbol price =>
      simp only [closeRequest, requireRole, failIf_bind_eq_ok] at h
      exact deleverageRequest_ok h.2
  | executeOrder caller trader symbol price => exact executeOrderRequest_ok h

theorem closeRequest_kind {call : CloseCall A S} (h : env.closeRequest call = .ok (env1, r)) :
    r.kind = call.kind := by
  cases call with
  | decrease trader symbol sizeDelta acceptablePrice price =>
      simp only [closeRequest, decreaseRequest, bind_eq_ok, Except.ok.injEq, Prod.mk.injEq] at h
      obtain ⟨_, _, _, _, _, _, _, _, _, _, _, _, _, _, _, rfl⟩ := h
      rfl
  | liquidate caller trader symbol price =>
      simp only [closeRequest, liquidateRequest, bind_eq_ok, Except.ok.injEq, Prod.mk.injEq] at h
      obtain ⟨_, _, _, _, _, _, _, rfl⟩ := h
      rfl
  | deleverage caller trader symbol price =>
      simp only [closeRequest, deleverageRequest, bind_eq_ok, Except.ok.injEq, Prod.mk.injEq] at h
      obtain ⟨_, _, _, _, _, _, _, _, _, _, _, rfl⟩ := h
      rfl
  | executeOrder caller trader symbol price =>
      simp only [closeRequest, executeOrderRequest, bind_eq_ok, Except.ok.injEq,
        Prod.mk.injEq] at h
      obtain ⟨_, _, _, _, _, _, _, _, _, rfl⟩ := h
      rfl

/-! ## What the settlement did -/

omit [DecidableEq S] in
theorem releaseLiquidity_if_pos {amount : ℤ}
    (h : (if amount > 0 then env.releaseLiquidity .positionManager amount else .ok env) =
      .ok env') :
    (0 < amount → amount ≤ env.vault.reservedUsdc) ∧
      env' = env.setReservedUsdc (env.vault.reservedUsdc - max amount 0) := by
  split_ifs at h with hp
  · obtain ⟨_, hle, rfl⟩ := releaseLiquidity_eq_ok.mp h
    exact ⟨fun _ => hle, by rw [max_eq_left (by omega)]⟩
  · cases h
    refine ⟨fun h0 => absurd h0 hp, ?_⟩
    rw [max_eq_right (by omega), sub_zero]
    rfl

omit [DecidableEq S] in
theorem payProfit_if_pos {trader : A} {amount : ℤ}
    (h : (if amount > 0 then env.payProfit .positionManager trader amount else .ok env) =
      .ok env') :
    (0 < amount → amount ≤ env.freeLiquidity) ∧
      env' = env.setUsdc (moveUsdc env.usdc .vault (.account trader) (max amount 0)) := by
  split_ifs at h with hp
  · obtain ⟨_, hle, _, rfl⟩ := payProfit_eq_ok.mp h
    exact ⟨fun _ => hle, by rw [max_eq_left (by omega)]⟩
  · cases h
    exact ⟨fun h0 => absurd h0 hp, by rw [max_eq_right (by omega), moveUsdc_zero, setUsdc_self]⟩

omit [DecidableEq S] in
theorem absorbCollateral_if_pos {amount : ℤ}
    (h : (if amount > 0 then env.absorbCollateral amount else .ok env) = .ok env') :
    env' = env.setUsdc (moveUsdc env.usdc .positionManager .vault (max amount 0)) := by
  split_ifs at h with hp
  · simp only [absorbCollateral, bind_eq_ok, Except.ok.injEq] at h
    obtain ⟨env2, htransfer, _, _, rfl⟩ := h
    rw [(transfer_eq_ok.mp htransfer).2.2, max_eq_left (by omega)]
  · cases h
    rw [max_eq_right (by omega), moveUsdc_zero, setUsdc_self]

def bountyUsdc (usdc : Party A → ℤ) (executor : Option A) (amount : ℤ) : Party A → ℤ :=
  match executor with
  | some addr => moveUsdc usdc .positionManager (.account addr) (max amount 0)
  | none => usdc

omit [DecidableEq S] in
theorem payBounty_ok {executor : Option A} {amount : ℤ}
    (h : env.payBounty executor amount = .ok env') :
    env' = env.setUsdc (bountyUsdc env.usdc executor amount) := by
  unfold payBounty at h
  split_ifs at h with hp
  · cases executor with
    | none =>
        cases h
        rfl
    | some addr =>
        rw [(transfer_eq_ok.mp h).2.2, bountyUsdc, max_eq_left (by omega)]
  · cases h
    cases executor with
    | none => rfl
    | some addr => rw [bountyUsdc, max_eq_right (by omega), moveUsdc_zero, setUsdc_self]

/-- Every balance after the settlement transfers of a close, its escrow apart. -/
def closeTransfers (env : Env A S) (r : CloseRequest A S) : Party A → ℤ :=
  let feeConfig := env.cfg.feeConfig.1
  let paid := moveUsdc env.usdc .vault (.account r.trader) (max r.vaultToTrader 0)
  let absorbed := moveUsdc paid .positionManager .vault (max (r.vaultAbsorbed feeConfig) 0)
  let returned := moveUsdc absorbed .positionManager (.account r.trader) (max r.pmToTrader 0)
  bountyUsdc returned r.executor (r.bounty feeConfig)

def closeUsdc (env : Env A S) (r : CloseRequest A S) : Party A → ℤ :=
  settledUsdc (env.closeTransfers r) (escrowRecipient r.trader r.kind r.executor r.isPartial)
    r.pos.executionFeeEscrow

omit [DecidableEq S] in
theorem closeTransfers_vault (env : Env A S) (r : CloseRequest A S) :
    env.closeTransfers r .vault = env.totalAssets - max r.vaultToTrader 0 +
      max (r.vaultAbsorbed env.cfg.feeConfig.1) 0 := by
  unfold closeTransfers bountyUsdc totalAssets
  cases r.executor <;> simp [moveUsdc]

def settledPositions (env : Env A S) (r : CloseRequest A S) : Table (A × S) Position :=
  if r.sizeDelta = r.pos.size then env.pm.positions.erase (r.trader, r.symbol)
  else env.pm.positions.insert (r.trader, r.symbol) r.remainder

/-- Everything a successful `execute_close` checked and changed, counted from
before the refresh. -/
structure CloseEffect (env env' : Env A S) (r : CloseRequest A S) : Prop where
  released : 0 < r.sizeDelta → r.sizeDelta ≤ env.vault.reservedUsdc
  payable : 0 < r.vaultToTrader → r.vaultToTrader + max env.vault.netGlobalTraderPnl 0 +
    (env.vault.reservedUsdc - max r.sizeDelta 0) + env.vault.unclaimedFees ≤ env.totalAssets
  fees_fit : 0 < env.feeSlice (r.distributableFees env.cfg.feeConfig.1) →
    env.vault.unclaimedFees + env.feeSlice (r.distributableFees env.cfg.feeConfig.1) +
      (env.vault.reservedUsdc - max r.sizeDelta 0) ≤ env.totalAssets - max r.vaultToTrader 0 +
        max (r.vaultAbsorbed env.cfg.feeConfig.1) 0
  timestamp : env'.timestamp = env.timestamp
  cfg : env'.cfg = env.cfg
  usdc : env'.usdc = env.closeUsdc r
  vault : env'.vault = { env.vault with
    reservedUsdc := env.vault.reservedUsdc - max r.sizeDelta 0
    unclaimedFees := env.vault.unclaimedFees +
      env.feeSlice (r.distributableFees env.cfg.feeConfig.1) +
      env.feeSlice (escrowRevenue r.kind r.pos.executionFeeEscrow)
    netGlobalTraderPnl :=
      env.totalPnlWith r.symbol (r.closedMarket.unrealizedPnl r.tick.markPrice) }
  pm : env'.pm = { env.pm with
    realizedPnl := env.pm.realizedPnl + r.netEconomicPnl
    positions := env.settledPositions r
    markets := env.pm.markets.insert r.symbol r.closedMarket
    marketUnrealizedPnl := env.pm.marketUnrealizedPnl.insert r.symbol
      (r.closedMarket.unrealizedPnl r.tick.markPrice)
    totalUnrealizedPnl :=
      env.totalPnlWith r.symbol (r.closedMarket.unrealizedPnl r.tick.markPrice) }

theorem CloseEffect.markets (h : CloseEffect env env' r) :
    env'.pm.markets = env.pm.markets.insert r.symbol r.closedMarket := by rw [h.pm]

theorem CloseEffect.positions (h : CloseEffect env env' r) :
    env'.pm.positions = env.settledPositions r := by rw [h.pm]

theorem CloseEffect.reservedUsdc (h : CloseEffect env env' r) :
    env'.vault.reservedUsdc = env.vault.reservedUsdc - max r.sizeDelta 0 := by rw [h.vault]

theorem CloseEffect.unclaimedFees (h : CloseEffect env env' r) :
    env'.vault.unclaimedFees = env.vault.unclaimedFees +
      env.feeSlice (r.distributableFees env.cfg.feeConfig.1) +
      env.feeSlice (escrowRevenue r.kind r.pos.executionFeeEscrow) := by rw [h.vault]

theorem settlePosition_eq (env : Env A S) (r : CloseRequest A S) :
    env.settlePosition r = { env with pm := { env.pm with positions := env.settledPositions r } } := by
  unfold settlePosition settledPositions
  split_ifs <;> rfl

theorem executeClose_ok (h : (env.freshEnv r.symbol).executeClose r = .ok env') :
    CloseEffect env env' r := by
  have hm := env.insert_freshEnv r.symbol r.closedMarket
  obtain ⟨markets, hfresh⟩ := env.freshEnv_eq r.symbol
  rw [hfresh] at h hm
  unfold executeClose at h
  obtain ⟨env1, hrelease, h⟩ := bind_eq_ok.mp h
  obtain ⟨env2, hpay, h⟩ := bind_eq_ok.mp h
  obtain ⟨env3, habsorb, h⟩ := bind_eq_ok.mp h
  obtain ⟨env4, hreturn, h⟩ := bind_eq_ok.mp h
  obtain ⟨env5, hbounty, h⟩ := bind_eq_ok.mp h
  obtain ⟨env6, hreslice, h⟩ := bind_eq_ok.mp h
  obtain ⟨env7, hsettle, h⟩ := bind_eq_ok.mp h
  obtain ⟨hreleased, rfl⟩ := releaseLiquidity_if_pos hrelease
  obtain ⟨hpayable, rfl⟩ := payProfit_if_pos hpay
  obtain rfl := absorbCollateral_if_pos habsorb
  obtain ⟨_, rfl⟩ := transfer_if_pos hreturn
  obtain rfl := payBounty_ok hbounty
  obtain ⟨rfl, hfees⟩ := resliceRevenue_ok hreslice
  obtain ⟨rfl, _⟩ := settleOnClose_ok hsettle
  rw [refreshMarketUnrealizedPnl_eq, getMarket_setMarket, if_pos rfl, settlePosition_eq] at h
  cases h
  refine ⟨hreleased, ?_, ?_, ?_, ?_, ?_, ?_, ?_⟩
  · intro h0
    have hv := (le_freeLiquidity_iff _ h0).mp (hpayable h0)
    exact hv
  · intro h0
    rw [← closeTransfers_vault]
    exact hfees h0
  · rfl
  · rfl
  · rfl
  · rfl
  · simp only [← hm]
    rfl

theorem closePosition_ok {call : CloseCall A S} (h : env.closePosition call = .ok env') :
    ∃ r, CloseNames call r ∧ CloseReady env (env.freshEnv r.symbol) r ∧
      CloseEffect env env' r := by
  obtain ⟨⟨env1, r⟩, hrequest, hclose⟩ := bind_eq_ok.mp h
  obtain ⟨hready, hnames⟩ := closeRequest_ok hrequest
  obtain rfl := hready.refreshed
  exact ⟨r, hnames, hready, executeClose_ok hclose⟩

end Inversion

end Env

end Stellars
