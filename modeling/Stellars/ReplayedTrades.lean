import Stellars.ReplayedVault

/-!
# The log of a trade

A trade refreshes its market, settles in the vault and ends with the events that the
position and market tables are written from. Those handlers neither read nor write
the vault's row, so the two halves of the log are read independently.
-/
namespace Stellars
open GuardedRuns EventLogs Db

namespace Db

variable {A S : Type}

/-- The handler works on the position and market tables alone. -/
def TablesOnly (f : Db A S → Db A S) : Prop :=
  ∀ db vaultState protocolConfig,
    f { db with vaultState := vaultState, protocolConfig := protocolConfig } =
      { f db with vaultState := vaultState, protocolConfig := protocolConfig }

variable [DecidableEq S]

theorem tablesOnly_upsertMarket (symbol : S) (f : MarketRow → MarketRow) :
    TablesOnly (fun db : Db A S => db.upsertMarket symbol f) := fun _ _ _ => rfl

theorem tablesOnly_refreshMarketAggregates (num : Numeric) (symbol : S) :
    TablesOnly (fun db : Db A S => refreshMarketAggregates num db symbol) := fun _ _ _ => rfl

omit [DecidableEq S] in
theorem TablesOnly.comp {f g : Db A S → Db A S} (hg : TablesOnly g) (hf : TablesOnly f) :
    TablesOnly (fun db => g (f db)) := by
  intro db vaultState protocolConfig
  change g (f _) = _
  rw [hf, hg]

variable [DecidableEq A]

theorem tablesOnly_handleIncrease (num : Numeric) (t : ℕ) (trader : A) (symbol : S)
    (row : PositionRow) : TablesOnly (fun db => handleIncrease num t db trader symbol row) :=
  fun _ _ _ => rfl

theorem tablesOnly_updatePosition (trader : A) (symbol : S) (f : PositionRow → PositionRow) :
    TablesOnly (fun db => db.updatePosition trader symbol f) := by
  intro db vaultState protocolConfig
  cases hrow : db.positions.lookup (trader, symbol) <;> simp [updatePosition, hrow]

theorem tablesOnly_deletePosition (trader : A) (symbol : S) :
    TablesOnly (fun db : Db A S => db.deletePosition trader symbol) := fun _ _ _ => rfl

theorem tablesOnly_handleDecrease (num : Numeric) (trader : A) (symbol : S) (isFullClose : Bool)
    (newTotalSize newTotalCollateral : ℤ) : TablesOnly (fun db =>
      handleDecrease num db trader symbol isFullClose newTotalSize newTotalCollateral) := by
  apply (tablesOnly_refreshMarketAggregates num symbol).comp
  cases isFullClose with
  | true => exact tablesOnly_deletePosition trader symbol
  | false => exact tablesOnly_updatePosition trader symbol _

theorem tablesOnly_closeEvent (num : Numeric) (t : ℕ) (r : CloseRequest A S) :
    TablesOnly (fun db => handle num db (t, Publishing.closeEvent r)) := by
  have hdelete := (tablesOnly_refreshMarketAggregates num r.symbol).comp
    (tablesOnly_deletePosition r.trader r.symbol)
  unfold Publishing.closeEvent
  cases r.kind with
  | user => exact tablesOnly_handleDecrease num r.trader r.symbol _ _ _
  | liquidation => exact hdelete
  | deleverage => exact hdelete
  | orderExecution => exact hdelete

/-- The market table once the market of `symbol` has been refreshed. -/
def refreshed (env : Env A S) (symbol : S) (db : Db A S) : Db A S :=
  if env.timeDelta (env.getMarket symbol) > 0 then
    db.handleIndices symbol (env.freshMarket symbol).accBorrowIndex
      (env.freshMarket symbol).accFundingIndex (env.effectiveNow (env.getMarket symbol))
  else db

end Db

namespace Tracks
open Env

variable {A S : Type} [DecidableEq A] [DecidableEq S]
variable (num : Numeric) (t : ℕ) {start db : Db A S} {env env' : Env A S} {drift : ℤ}
  {log : List (Event A S)}

omit [DecidableEq A] [DecidableEq S] in
/-- An event for the tables leaves the vault's row as it is. -/
theorem table {f : Db A S → Db A S} (hf : TablesOnly f) (h : Tracks start db env drift) :
    Tracks (f start) (f db) env drift := by
  have hdb : db = { start with
      vaultState := db.vaultState, protocolConfig := db.protocolConfig } := by
    rw [← h.positions, ← h.markets]
  have hstart := hf start start.vaultState start.protocolConfig
  have hread := hf start db.vaultState db.protocolConfig
  rw [← hdb] at hread
  have hrow : (f db).vaultRow = db.vaultRow := by
    rw [vaultRow, hread]
    rfl
  refine ⟨by rw [hread], by rw [hread], ?_, ?_, ?_, ?_, ?_⟩
  · intro hsome
    have hsame : (f start).vaultState = start.vaultState := congrArg (·.vaultState) hstart
    rw [hread]
    exact h.stored (hsame ▸ hsome)
  · rw [hrow, h.totalAssets]
  · rw [hrow, h.reservedUsdc]
  · rw [hrow, h.unclaimedFees]
  · rw [hrow, h.netGlobalTraderPnl]

theorem refreshTick (h : Tracks start db env drift) {symbol : S} {price : ℤ} {tick : MarketTick}
    (hrun : (Publishing.refreshTick env symbol (VaultView.refresh env) price).run =
      .ok ((env', tick), log)) :
    Tracks (refreshed env symbol start) (db.readAt num t log) env' drift ∧
      0 < price ∧ env' = env.freshEnv symbol ∧ tick = env.freshTick symbol price := by
  have hplain := erase_of_run hrun
  rw [Publishing.erase_refreshTick] at hplain
  obtain ⟨hprice, henv, htick⟩ := refreshTick_eq_ok.mp hplain
  refine ⟨?_, hprice, henv, htick⟩
  simp only [Publishing.refreshTick, run_bind, run_call, run_pure, Prod.mk.injEq] at hrun
  obtain ⟨env1, first, _, hstored, ⟨_, _, _, ⟨_, rfl⟩, ⟨⟨rfl, _⟩, rfl⟩, rfl⟩, rfl⟩ := hrun
  unfold refreshed
  split_ifs at hstored ⊢ with hdelta
  · simp only [run_bind, run_publish, run_pure] at hstored
    obtain ⟨_, _, _, rfl, ⟨rfl, rfl⟩, rfl⟩ := hstored
    exact (h.table (tablesOnly_upsertMarket symbol _)).stays (.of_vault rfl) rfl
  · obtain ⟨rfl, rfl⟩ := run_pure.mp hstored
    exact h

theorem updateIndices (h : Tracks start db env drift) {caller : A} {symbol : S} {price : ℤ}
    (hrun : (Publishing.updateIndices env caller symbol price).run = .ok (env', log)) :
    Tracks ((refreshed env symbol start).handleMarketPnl symbol
      (env'.getMarketUnrealizedPnl symbol)) (db.readAt num t log) env' drift := by
  simp only [Publishing.updateIndices, run_bind, run_call] at hrun
  obtain ⟨_, _, _, ⟨_, rfl⟩, ⟨_, _, _, ⟨_, rfl⟩, ⟨⟨env1, tick⟩, first, rest, hrefresh, hpnl, rfl⟩,
    rfl⟩, rfl⟩ := hrun
  obtain ⟨h1, _⟩ := h.refreshTick num t hrefresh
  simp only [List.nil_append, readAt_append]
  exact h1.refreshMarketUnrealizedPnl num t hpnl

theorem doIncreasePosition (h : Tracks start db env drift) {req : IncreaseRequest A S}
    (hrun : (Publishing.doIncreasePosition env req).run = .ok (env', log)) :
    ∃ pos, env.increasedPosition req (env.freshTick req.symbol req.price) = .ok pos ∧
      Tracks ((handleIncrease num t (refreshed env req.symbol start) req.trader req.symbol
        pos.row).handleMarketPnl req.symbol (env'.getMarketUnrealizedPnl req.symbol))
          (db.readAt num t log) env' ((if 0 < env.feeSlice (env.openFee req) then 0 else drift) +
            env.silentRevenue (env.openFee req)) := by
  unfold Publishing.doIncreasePosition at hrun
  obtain ⟨⟨env1, tick⟩, log1, _, hrefresh, hrun1, rfl⟩ := run_bind.mp hrun
  obtain ⟨h1, _, henv1, htick⟩ := h.refreshTick num t hrefresh
  obtain ⟨markets, hfresh⟩ := env.freshEnv_eq req.symbol
  rw [hfresh] at henv1
  subst henv1 htick
  -- the checks publish nothing
  simp only [run_call_bind] at hrun1
  obtain ⟨_, _, _, _, _, _, pos, hpos, _, _, _, _, _, _, _, _, _, _, env2, htransfer, hrun2⟩ := hrun1
  refine ⟨pos, hpos, ?_⟩
  obtain ⟨_, _, rfl⟩ := transfer_eq_ok.mp htransfer
  obtain ⟨env3, log3, _, hrevenue, hrun3, rfl⟩ := run_bind.mp hrun2
  obtain ⟨env4, log4, _, hreserve, hrun4, rfl⟩ := run_bind.mp hrun3
  obtain ⟨_, _, log5, hpublish, hpnl, rfl⟩ := run_bind.mp hrun4
  obtain rfl := run_publish.mp hpublish
  have h2 : Tracks (refreshed env req.symbol start) (db.readAt num t log1)
      ((env.setMarkets markets).setUsdc (moveUsdc env.usdc (.account req.trader) .positionManager
        (req.collateral + env.openFee req + env.escrowOwed req))) drift :=
    h1.stays (.of_vault rfl) (moveUsdc_other _ _ (by simp) (by simp))
  have h3 := (h2.recvRevenue num t hrevenue).reserveLiquidity num t hreserve
  have h4 := h3.table (tablesOnly_handleIncrease num t req.trader req.symbol pos.row)
  have h5 : Tracks _ _ ((env4.setPosition req.trader req.symbol pos).setMarket req.symbol
      ((env.freshMarket req.symbol).addOpenInterest req.isLong req.price req.size)) _ :=
    h4.stays (.of_vault rfl) rfl
  have h6 := h5.refreshMarketUnrealizedPnl num t hpnl
  have hevent (db' : Db A S) : handle num db' (t, .increase req.trader req.symbol pos.entryPrice
      req.isLong pos.takeProfit pos.stopLoss pos.size pos.collateral pos.entryBorrowIndex
      pos.entryFundingIndex pos.lastIncreasedTime) =
        handleIncrease num t db' req.trader req.symbol pos.row := by
    rw [← (increasedPosition_grows hpos).1]
    rfl
  simp only [readAt_append, readAt_cons, readAt_nil, hevent]
  exact h6

theorem increasePosition (h : Tracks start db env drift) {req : IncreaseRequest A S}
    (hrun : (Publishing.increasePosition env req).run = .ok (env', log)) :
    ∃ pos, env.increasedPosition req (env.freshTick req.symbol req.price) = .ok pos ∧
      Tracks ((handleIncrease num t (refreshed env req.symbol start) req.trader req.symbol
        pos.row).handleMarketPnl req.symbol (env'.getMarketUnrealizedPnl req.symbol))
          (db.readAt num t log) env' ((if 0 < env.feeSlice (env.openFee req) then 0 else drift) +
            env.silentRevenue (env.openFee req)) := by
  simp only [Publishing.increasePosition, run_call_bind] at hrun
  obtain ⟨_, _, _, _, _, _, _, _, hrun1⟩ := hrun
  exact h.doIncreasePosition num t hrun1

theorem closePosition (h : Tracks start db env drift) (hstart : start.vaultState.isSome)
    {closing : CloseCall A S} {env1 : Env A S} {r : CloseRequest A S}
    (hrequest : env.closeRequest closing = .ok (env1, r))
    (hrun : (Publishing.closePosition env closing).run = .ok (env', log)) :
    Tracks (handle num ((refreshed env r.symbol start).handleMarketPnl r.symbol
        (env'.getMarketUnrealizedPnl r.symbol)) (t, Publishing.closeEvent r))
      (db.readAt num t log) env' ((if env.ClosePublishesTotal r then 0 else drift) +
        env.silentRevenue (escrowRevenue r.kind r.pos.executionFeeEscrow)) := by
  have hready := (closeRequest_ok hrequest).1
  simp only [Publishing.closePosition, run_call_bind, hrequest] at hrun
  obtain ⟨_, hsame, hrun1⟩ := hrun
  obtain rfl := Except.ok.inj hsame
  obtain ⟨⟨env2, tick⟩, log1, _, hrefresh, hrun2, rfl⟩ := run_bind.mp hrun1
  obtain ⟨env3, log2, _, hclose, hrun3, rfl⟩ := run_bind.mp hrun2
  obtain ⟨_, _, _, hpublish, hdone, rfl⟩ := run_bind.mp hrun3
  obtain rfl := run_publish.mp hpublish
  obtain ⟨rfl, rfl⟩ := run_pure.mp hdone
  obtain ⟨h1, _, henv2, _⟩ := h.refreshTick num t hrefresh
  obtain rfl : env2 = env1 := henv2.trans hready.refreshed.symm
  have hstored : (refreshed env r.symbol start).vaultState.isSome := by
    unfold refreshed
    split_ifs
    · exact hstart
    · exact hstart
  have h2 := h1.executeClose num t hstored hclose
  have h3 := h2.table (tablesOnly_closeEvent num t r)
  obtain ⟨markets, hfresh⟩ := env.freshEnv_eq r.symbol
  rw [henv2, hfresh] at h3
  simp only [readAt_append, readAt_cons, readAt_nil, List.append_nil]
  exact h3

theorem setTpSl (h : Tracks start db env drift) {trader : A} {symbol : S} {takeProfit stopLoss : ℤ}
    (hrun : (Publishing.setTpSl env trader symbol takeProfit stopLoss).run = .ok (env', log)) :
    Tracks (start.handleTpSl trader symbol takeProfit stopLoss) (db.readAt num t log) env'
      drift := by
  obtain ⟨hcall, rfl⟩ := run_announced.mp hrun
  obtain ⟨pos, _, rfl⟩ := setTpSl_ok hcall
  have h1 := h.table (tablesOnly_updatePosition trader symbol fun row =>
    { row with takeProfit := takeProfit, stopLoss := stopLoss })
  exact h1.stays (.of_vault rfl) (moveUsdc_other _ _ (by simp) (by simp))

theorem setMaxLeverage (h : Tracks start db env drift) {caller : A} {symbol : S} {maxLeverage : ℤ}
    (hrun : (Publishing.setMaxLeverage env caller symbol maxLeverage).run = .ok (env', log)) :
    Tracks (start.handleMaxLeverage symbol maxLeverage) (db.readAt num t log) env' drift := by
  obtain ⟨hcall, rfl⟩ := run_announced.mp hrun
  obtain rfl := setMaxLeverage_ok hcall
  exact (h.table (tablesOnly_upsertMarket symbol _)).stays (.of_vault rfl) rfl

omit [DecidableEq A] [DecidableEq S] in
/-- The configuration row is none of the mirrored books. -/
theorem handlePause (h : Tracks start db env drift) (isPaused : Bool) :
    Tracks start (Db.handlePause t db isPaused) env drift := by
  unfold Db.handlePause
  split_ifs
  · exact h
  · exact ⟨h.positions, h.markets, h.stored, h.totalAssets, h.reservedUsdc, h.unclaimedFees,
      h.netGlobalTraderPnl⟩

omit [DecidableEq A] [DecidableEq S] in
/-- A switch that is already in place publishes nothing. -/
theorem pause_log {caller : A} (hrun : (Publishing.pause env caller).run = .ok (env', log)) :
    env'.vault = env.vault ∧ env'.usdc = env.usdc ∧ (log = [] ∨ ∃ b, log = [.pause b]) := by
  simp only [Publishing.pause, ← ite_not (env.pm.isPaused = true)] at hrun
  obtain ⟨hcall, hlog⟩ := run_announced_if hrun
  have hpublished : log = [] ∨ ∃ b, log = [.pause b] := hlog.imp_right fun h => ⟨true, h⟩
  obtain ⟨_, rfl⟩ | ⟨_, rfl⟩ := pause_ok hcall
  · exact ⟨rfl, rfl, hpublished⟩
  · exact ⟨rfl, rfl, hpublished⟩

omit [DecidableEq A] [DecidableEq S] in
theorem unpause_log {caller : A} (hrun : (Publishing.unpause env caller).run = .ok (env', log)) :
    env'.vault = env.vault ∧ env'.usdc = env.usdc ∧ (log = [] ∨ ∃ b, log = [.pause b]) := by
  obtain ⟨hcall, hlog⟩ := run_announced_if hrun
  have hpublished : log = [] ∨ ∃ b, log = [.pause b] := hlog.imp_right fun h => ⟨false, h⟩
  obtain ⟨_, rfl⟩ | ⟨_, rfl⟩ := unpause_ok hcall
  · exact ⟨rfl, rfl, hpublished⟩
  · exact ⟨rfl, rfl, hpublished⟩

theorem switched (h : Tracks start db env drift) (hvault : env'.vault = env.vault)
    (husdc : env'.usdc = env.usdc) (hlog : log = [] ∨ ∃ b, log = [.pause b]) :
    Tracks start (db.readAt num t log) env' drift := by
  have h1 : Tracks start db env' drift :=
    h.stays (.of_vault hvault) (by rw [Env.totalAssets, husdc, Env.totalAssets])
  obtain rfl | ⟨isPaused, rfl⟩ := hlog
  · exact h1
  · exact h1.handlePause t isPaused

end Tracks
end Stellars
