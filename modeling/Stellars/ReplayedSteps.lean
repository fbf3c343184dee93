import Stellars.AwakeTime
import Stellars.RealizedCash
import Stellars.ReplayedTables
import Stellars.ReplayedTrades

/-!
# Reading one operation

Whatever an operation did, its events leave the tables right about the positions and
three of the vault's books. The balance is known up to what came in silently, and the
indices of a market change when an accrual is billed.
-/
namespace Stellars
open GuardedRuns KeyedTotals EventLogs Db

namespace Env

variable {A S : Type} [DecidableEq A] [DecidableEq S]

/-! ## What a step publishes of the balance -/

/-- A successful operation that publishes the vault's balance. -/
def publishesTotal (erc : Erc4626) (env : Env A S) (op : Op A S) : Bool :=
  match op, env.apply erc op with
  | .vault _ call, .ok _ => call.publishesTotal
  | .increase req, .ok _ => 0 < env.feeSlice (env.openFee req)
  | .close _, .ok _ =>
      (settledClose erc env op).any fun r => decide (env.ClosePublishesTotal r)
  | _, _ => false

/-- USDC that a successful operation moves into the vault after the last balance it
publishes, if any: revenue without a fee slice, fees claimed to the vault itself, and
donations. -/
def silentInflow (erc : Erc4626) (env : Env A S) (op : Op A S) : ℤ :=
  match op, env.apply erc op with
  | .transferUsdc _ dst amount, .ok _ => if dst = .vault then amount else 0
  | .vault _ call, .ok _ => env.returnedFees call
  | .increase req, .ok _ => env.silentRevenue (env.openFee req)
  | .close _, .ok _ => (settledClose erc env op).elim 0 fun r =>
      env.silentRevenue (escrowRevenue r.kind r.pos.executionFeeEscrow)
  | _, _ => 0

end Env

/-! ## One step, read -/

section Steps

variable {A S : Type} [DecidableEq A] [DecidableEq S]

/-- What reading the events of one operation does to tables that were right. -/
structure ReadStep (num : Numeric) (erc : Erc4626) (env : Env A S) (op : Op A S) (env' : Env A S)
    (db db' : Db A S) : Prop where
  vault : Tracks db' db' env'
    ((if env.publishesTotal erc op then 0 else env.totalAssets - db.vaultRow.totalAssets) +
      env.silentInflow erc op)
  tables : MirrorsPositions num db' env'.pm.positions
  indices : ∀ symbol, (db'.marketRow symbol).indices =
    if 0 < env.billedSeconds erc symbol op then (env.freshMarket symbol).indices
    else (db.marketRow symbol).indices

theorem MirrorsPositions.congr {num : Numeric} {db db' : Db A S}
    {positions : Table (A × S) Position} (h : MirrorsPositions num db positions)
    (hpositions : db'.positions = db.positions) (hmarkets : db'.markets = db.markets) :
    MirrorsPositions num db' positions := by
  refine ⟨hpositions ▸ h.rows, ?_, ?_⟩
  · intro symbol isLong
    rw [marketRow_congr hmarkets, h.openInterest]
  · intro symbol isLong
    rw [marketRow_congr hmarkets, h.avgPrice]

variable {num : Numeric} {erc : Erc4626} {env env' : Env A S} {op : Op A S}
variable {db db' tables : Db A S} {log : List (Event A S)}

/-- The vault's row and the other tables are read independently. -/
theorem ReadStep.of_tracks
    (hvault : Tracks tables db' env'
      ((if env.publishesTotal erc op then 0 else env.totalAssets - db.vaultRow.totalAssets) +
        env.silentInflow erc op))
    (htables : MirrorsPositions num tables env'.pm.positions)
    (hindices : ∀ symbol, (tables.marketRow symbol).indices =
      if 0 < env.billedSeconds erc symbol op then (env.freshMarket symbol).indices
      else (db.marketRow symbol).indices) :
    ReadStep num erc env op env' db db' where
  vault := ⟨rfl, rfl, id, hvault.totalAssets, hvault.reservedUsdc, hvault.unclaimedFees,
    hvault.netGlobalTraderPnl⟩
  tables := htables.congr hvault.positions hvault.markets
  indices := fun symbol => by rw [marketRow_congr hvault.markets, hindices]

omit [DecidableEq A] in
theorem indices_handleIndices (db : Db A S) (symbol other : S) (accBorrowIndex accFundingIndex : ℤ)
    (timestamp : ℕ) : ((db.handleIndices symbol accBorrowIndex accFundingIndex
      timestamp).marketRow other).indices =
        if other = symbol then (accBorrowIndex, accFundingIndex, (timestamp : ℤ))
        else (db.marketRow other).indices := by
  rw [Db.handleIndices, marketRow_upsertMarket]
  split_ifs <;> rfl

omit [DecidableEq A] in
theorem indices_refreshed (env : Env A S) (db : Db A S) (symbol other : S) :
    ((refreshed env symbol db).marketRow other).indices =
      if other = symbol ∧ 0 < env.timeDelta (env.getMarket symbol) then
        (env.freshMarket symbol).indices
      else (db.marketRow other).indices := by
  unfold refreshed
  by_cases hdelta : env.timeDelta (env.getMarket symbol) > 0
  · have hupdate : (env.freshMarket symbol).lastIndexUpdate =
        env.effectiveNow (env.getMarket symbol) := by
      simp only [Env.freshMarket, Env.accrue, if_pos hdelta]
    rw [if_pos hdelta, indices_handleIndices, ← hupdate]
    simp only [hdelta, and_true]
    rfl
  · rw [if_neg hdelta, if_neg fun h => hdelta h.2]

theorem MirrorsPositions.refreshed {positions : Table (A × S) Position}
    (h : MirrorsPositions num db positions) (env : Env A S) (symbol : S) :
    MirrorsPositions num (Db.refreshed env symbol db) positions := by
  unfold Db.refreshed
  split_ifs
  · exact h.handleIndices symbol _ _ _
  · exact h

/-- A successful operation bills the market it refreshes. -/
theorem billedSeconds_pos_iff (hok : env.apply erc op = .ok env') {symbol : S} {mark : ℤ}
    (hop : Env.refreshes op = some (symbol, mark)) (other : S) :
    0 < env.billedSeconds erc other op ↔
      other = symbol ∧ 0 < env.timeDelta (env.getMarket symbol) := by
  simp only [Env.billedSeconds, hok, hop]
  by_cases hs : symbol = other
  · subst hs
    simp [Env.unbilled]
  · simp [hs, Ne.symm hs]

theorem billedSeconds_of_not_refreshes (hop : Env.refreshes op = none) (symbol : S) :
    env.billedSeconds erc symbol op = 0 := by
  unfold Env.billedSeconds
  rw [hop]
  cases env.apply erc op <;> rfl

/-! ## Every operation -/

theorem indices_handleIncrease (num : Numeric) (t : ℕ) (db : Db A S) (trader : A)
    (symbol : S) (row : PositionRow) (other : S) :
    ((handleIncrease num t db trader symbol row).marketRow other).indices =
      (db.marketRow other).indices := by
  rw [Db.handleIncrease, indices_refreshMarketAggregates]
  rfl

variable (num)

/-- An operation on a market, whose events after the refresh leave the indices alone. -/
theorem readStep_refreshing (hok : env.apply erc op = .ok env') {symbol : S} {mark : ℤ}
    (hop : Env.refreshes op = some (symbol, mark))
    (hvault : Tracks tables db' env'
      ((if env.publishesTotal erc op then 0 else env.totalAssets - db.vaultRow.totalAssets) +
        env.silentInflow erc op))
    (htables : MirrorsPositions num tables env'.pm.positions)
    (hindices : ∀ other, (tables.marketRow other).indices =
      ((refreshed env symbol db).marketRow other).indices) :
    ReadStep num erc env op env' db db' := by
  apply ReadStep.of_tracks hvault htables
  intro other
  simp only [hindices, indices_refreshed, billedSeconds_pos_iff hok hop]
  split_ifs with h
  · rw [h.1]
  · rfl

/-- An operation on no market, whose events leave the indices alone. -/
theorem readStep_other (hop : Env.refreshes op = none)
    (hvault : Tracks tables db' env'
      ((if env.publishesTotal erc op then 0 else env.totalAssets - db.vaultRow.totalAssets) +
        env.silentInflow erc op))
    (htables : MirrorsPositions num tables env'.pm.positions)
    (hindices : ∀ symbol, (tables.marketRow symbol).indices = (db.marketRow symbol).indices) :
    ReadStep num erc env op env' db db' := by
  apply ReadStep.of_tracks hvault htables
  intro symbol
  rw [billedSeconds_of_not_refreshes hop, if_neg (lt_irrefl _), hindices]

theorem readStep_increase (htracks : Tracks db db env (env.totalAssets - db.vaultRow.totalAssets))
    (htables : MirrorsPositions num db env.pm.positions) {req : IncreaseRequest A S}
    (hok : env.apply erc (.increase req) = .ok env')
    (hrun : (Publishing.increasePosition env req).run = .ok (env', log)) :
    ReadStep num erc env (.increase req) env' db (db.readAt num env.timestamp log) := by
  obtain ⟨pos, hmerged, hread⟩ := htracks.increasePosition num env.timestamp hrun
  obtain ⟨_, _, pos', heffect⟩ := Env.increasePosition_ok hok
  obtain rfl : pos' = pos := Except.ok.inj (heffect.merged.symm.trans hmerged)
  have htime : pos'.lastIncreasedTime = env.timestamp := by
    obtain ⟨old, _, _, rfl⟩ | ⟨_, rfl⟩ := Env.increasedPosition_cases hmerged
    · rfl
    · rfl
  apply readStep_refreshing num hok rfl
  · simp only [Env.publishesTotal, Env.silentInflow, hok, decide_eq_true_eq]
    exact hread
  · have h1 := htables.refreshed env req.symbol
    rw [heffect.positions]
    exact (h1.handleIncrease req.trader req.symbol htime).handleMarketPnl req.symbol _
  · intro other
    rw [indices_handleMarketPnl, indices_handleIncrease]

theorem indices_closeEvent (t : ℕ) (db : Db A S) (r : CloseRequest A S) (other : S) :
    ((handle num db (t, Publishing.closeEvent r)).marketRow other).indices =
      (db.marketRow other).indices := by
  have hdelete : ((refreshMarketAggregates num (db.deletePosition r.trader r.symbol)
      r.symbol).marketRow other).indices = (db.marketRow other).indices :=
    indices_refreshMarketAggregates _ _ _ _
  unfold Publishing.closeEvent
  cases r.kind with
  | user =>
      simp only [handle, handleDecrease, indices_refreshMarketAggregates]
      apply congrArg
      apply marketRow_congr
      by_cases hfull : r.sizeDelta = r.pos.size
      · simp [hfull, Db.deletePosition]
      · simp [hfull, markets_updatePosition]
  | liquidation => exact hdelete
  | deleverage => exact hdelete
  | orderExecution => exact hdelete

theorem readStep_close (htracks : Tracks db db env (env.totalAssets - db.vaultRow.totalAssets))
    (hb : Env.Books env) (htables : MirrorsPositions num db env.pm.positions)
    {closing : CloseCall A S} (hok : env.apply erc (.close closing) = .ok env')
    (hrun : (Publishing.closePosition env closing).run = .ok (env', log)) :
    ReadStep num erc env (.close closing) env' db (db.readAt num env.timestamp log) := by
  obtain ⟨⟨env1, r⟩, hrequest, hclose⟩ := bind_eq_ok.mp hok
  obtain ⟨hready, hnames⟩ := Env.closeRequest_ok hrequest
  have hsettled : Env.settledClose erc env (.close closing) = some r := by
    simp only [Env.settledClose, hok, hrequest]
    rfl
  obtain rfl := hready.refreshed
  have heffect := Env.executeClose_ok hclose
  have hstart : db.vaultState.isSome := by
    have hsize := hready.sizeDelta_pos hb
    have hle := hready.sizeDelta_le_reserved hb
    exact htracks.isSome_of_reserved (by omega)
  have hread := htracks.closePosition num env.timestamp hstart hrequest hrun
  apply readStep_refreshing num hok rfl
  · simp only [Env.publishesTotal, Env.silentInflow, hok, hsettled, Option.any_some,
      Option.elim_some, decide_eq_true_eq]
    exact hread
  · have h1 := (htables.refreshed env r.symbol).handleMarketPnl r.symbol
      (env'.getMarketUnrealizedPnl r.symbol)
    rw [heffect.positions]
    exact h1.closeEvent env.timestamp hready.position hready.whole
  · intro other
    rw [indices_closeEvent, indices_handleMarketPnl, hnames.symbol]

theorem readStep_updateIndices
    (htracks : Tracks db db env (env.totalAssets - db.vaultRow.totalAssets))
    (htables : MirrorsPositions num db env.pm.positions) {caller : A} {symbol : S} {price : ℤ}
    (hok : env.apply erc (.updateIndices caller symbol price) = .ok env')
    (hrun : (Publishing.updateIndices env caller symbol price).run = .ok (env', log)) :
    ReadStep num erc env (.updateIndices caller symbol price) env' db
      (db.readAt num env.timestamp log) := by
  have hread := htracks.updateIndices num env.timestamp hrun
  have hpositions : env'.pm.positions = env.pm.positions := by
    obtain ⟨_, _, rfl⟩ := Env.updateIndices_ok hok
    exact env.positions_freshEnv symbol
  apply readStep_refreshing num hok rfl
  · simp only [Env.publishesTotal, Env.silentInflow, Bool.false_eq_true, if_false, add_zero]
    exact hread
  · rw [hpositions]
    exact (htables.refreshed env symbol).handleMarketPnl symbol _
  · intro other
    rw [indices_handleMarketPnl]

theorem readStep_setTpSl (htracks : Tracks db db env (env.totalAssets - db.vaultRow.totalAssets))
    (htables : MirrorsPositions num db env.pm.positions) {trader : A} {symbol : S}
    {takeProfit stopLoss : ℤ} (hok : env.apply erc (.setTpSl trader symbol takeProfit stopLoss) = .ok env')
    (hrun : (Publishing.setTpSl env trader symbol takeProfit stopLoss).run = .ok (env', log)) :
    ReadStep num erc env (.setTpSl trader symbol takeProfit stopLoss) env' db
      (db.readAt num env.timestamp log) := by
  have hread := htracks.setTpSl num env.timestamp hrun
  apply readStep_other num rfl
  · simp only [Env.publishesTotal, Env.silentInflow, Bool.false_eq_true, if_false, add_zero]
    exact hread
  · obtain ⟨pos, hpos, rfl⟩ := Env.setTpSl_ok hok
    exact htables.handleTpSl hpos rfl
  · intro other
    apply congrArg
    apply marketRow_congr
    exact markets_updatePosition _ _ _ _

omit num in
theorem effect_quiet (h : Env.Effect erc env op env') (hop : Env.refreshes op = none)
    (hset : ∀ trader symbol takeProfit stopLoss, op ≠ .setTpSl trader symbol takeProfit stopLoss) :
    Env.Quiet erc env op env' := by
  cases h with
  | increase | close | updateIndices => cases hop
  | setTpSl position hdelta => exact absurd rfl (hset _ _ _ _)
  | quiet h => exact h

/-- An operation that publishes nothing for the tables. -/
theorem readStep_quiet (htables : MirrorsPositions num db env.pm.positions)
    (h : Env.Quiet erc env op env')
    (hvault : Tracks db db' env'
      ((if env.publishesTotal erc op then 0 else env.totalAssets - db.vaultRow.totalAssets) +
        env.silentInflow erc op)) : ReadStep num erc env op env' db db' := by
  apply readStep_other num _ hvault
  · rw [h.samePositions.positions]
    exact htables
  · exact fun _ => rfl
  · cases h <;> rfl

theorem tracks_transferUsdc
    (htracks : Tracks db db env (env.totalAssets - db.vaultRow.totalAssets))
    {src : A} {dst : Party A} {amount : ℤ}
    (hok : env.apply erc (.transferUsdc src dst amount) = .ok env') :
    Tracks db db env' ((if env.publishesTotal erc (.transferUsdc src dst amount) then 0
      else env.totalAssets - db.vaultRow.totalAssets) +
        env.silentInflow erc (.transferUsdc src dst amount)) := by
  obtain ⟨_, _, rfl⟩ := Env.transfer_eq_ok.mp hok
  simp only [Env.publishesTotal, Env.silentInflow, hok, Bool.false_eq_true, if_false]
  have hmoved : (env.setUsdc (moveUsdc env.usdc (.account src) dst amount)).totalAssets =
      env.totalAssets + if dst = .vault then amount else 0 := by
    simp [moveUsdc, Env.totalAssets, eq_comm]
  exact htracks.moved (.of_vault rfl) hmoved

/-- An operation that moves no money and at most switches a pause. -/
theorem readStep_switch (htracks : Tracks db db env (env.totalAssets - db.vaultRow.totalAssets))
    (htables : MirrorsPositions num db env.pm.positions) (h : Env.Quiet erc env op env')
    (hvault : env'.vault = env.vault) (husdc : env'.usdc = env.usdc)
    (hlog : log = [] ∨ ∃ b, log = [.pause b]) (hpublishes : env.publishesTotal erc op = false)
    (hflow : env.silentInflow erc op = 0) :
    ReadStep num erc env op env' db (db.readAt num env.timestamp log) := by
  apply readStep_other num
  · cases h <;> rfl
  · rw [hpublishes, hflow, if_neg Bool.false_ne_true, add_zero]
    exact htracks.switched num env.timestamp hvault husdc hlog
  · rw [h.samePositions.positions]
    exact htables
  · exact fun _ => rfl

/-- Reading the events of an operation knows what the operation did. -/
theorem readStep_apply (htracks : Tracks db db env (env.totalAssets - db.vaultRow.totalAssets))
    (hb : Env.Books env) (htables : MirrorsPositions num db env.pm.positions)
    (hok : env.apply erc op = .ok env')
    (hrun : (Publishing.apply erc env op).run = .ok (env', log)) :
    ReadStep num erc env op env' db (db.readAt num env.timestamp log) := by
  have heffect := Env.apply_effect hok
  cases op with
  | increase req => exact readStep_increase num htracks htables hok hrun
  | close closing => exact readStep_close num htracks hb htables hok hrun
  | setTpSl trader symbol takeProfit stopLoss =>
      exact readStep_setTpSl num htracks htables hok hrun
  | updateIndices caller symbol price => exact readStep_updateIndices num htracks htables hok hrun
  | vault caller call =>
      have hq := effect_quiet heffect rfl nofun
      apply readStep_quiet num htables hq
      simp only [Env.publishesTotal, Env.silentInflow, hok]
      exact htracks.vaultCall num env.timestamp hrun
  | transferUsdc src dst amount =>
      have hq := effect_quiet heffect rfl nofun
      obtain ⟨_, rfl⟩ := run_call.mp hrun
      exact readStep_quiet num htables hq (tracks_transferUsdc htracks hok)
  | pause caller =>
      have hq := effect_quiet heffect rfl nofun
      obtain ⟨hvault, husdc, hlog⟩ := Tracks.pause_log hrun
      exact readStep_switch num htracks htables hq hvault husdc hlog rfl rfl
  | unpause caller =>
      have hq := effect_quiet heffect rfl nofun
      obtain ⟨hvault, husdc, hlog⟩ := Tracks.unpause_log hrun
      exact readStep_switch num htracks htables hq hvault husdc hlog rfl rfl
  | setMaxLeverage caller symbol maxLeverage =>
      have hq := effect_quiet heffect rfl nofun
      have hread := htracks.setMaxLeverage num env.timestamp hrun
      apply readStep_other num rfl
      · simp only [Env.publishesTotal, Env.silentInflow, Bool.false_eq_true, if_false, add_zero]
        exact hread
      · rw [hq.samePositions.positions]
        exact htables.handleMaxLeverage symbol maxLeverage
      · exact fun other => indices_handleMaxLeverage db symbol other maxLeverage
  | advance seconds =>
      have hq := effect_quiet heffect rfl nofun
      obtain ⟨_, rfl⟩ := run_call.mp hrun
      cases hq
      exact readStep_switch num htracks htables (.advance seconds) rfl rfl (.inl rfl) rfl rfl
  | config caller call =>
      have hq := effect_quiet heffect rfl nofun
      obtain ⟨_, rfl⟩ := run_call.mp hrun
      cases hq
      exact readStep_switch num htracks htables (.config caller call _) rfl rfl (.inl rfl) rfl rfl
  | setMarketDisabled caller symbol disabled =>
      have hq := effect_quiet heffect rfl nofun
      obtain ⟨_, rfl⟩ := run_call.mp hrun
      cases hq
      exact readStep_switch num htracks htables (.setMarketDisabled caller symbol disabled) rfl rfl
        (.inl rfl) rfl rfl

end Steps

end Stellars
