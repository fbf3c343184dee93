import Stellars.Books

/-!
# The net profit mirror

Three records of the traders' unrealized profit are kept: one cached value per
market, their running total in the position manager, and the vault's copy of the
total. Every operation that changes a market ends by pushing its new value.
-/
namespace Stellars
open GuardedRuns KeyedTotals

namespace Env

variable {A S : Type} [DecidableEq A] [DecidableEq S]

structure PnlMirrored (env : Env A S) : Prop where
  vault : env.vault.netGlobalTraderPnl = env.pm.totalUnrealizedPnl
  markets : env.pm.totalUnrealizedPnl = total (fun _ pnl => pnl) env.pm.marketUnrealizedPnl
  empty : ∀ symbol, (∀ b, (env.getMarket symbol).openInterest b = 0) →
    env.getMarketUnrealizedPnl symbol = 0

/-- The call ended with `symbol` in the state `market`, valued at `mark` and
pushed; other markets kept their open interest and their cached value. -/
structure PnlPushed (env env' : Env A S) (symbol : S) (market : MarketInfo) (mark : ℤ) :
    Prop where
  openInterest : ∀ other b, (env'.getMarket other).openInterest b =
    if other = symbol then market.openInterest b else (env.getMarket other).openInterest b
  cached : env'.pm.marketUnrealizedPnl =
    env.pm.marketUnrealizedPnl.insert symbol (market.unrealizedPnl mark)
  total : env'.pm.totalUnrealizedPnl = env.totalPnlWith symbol (market.unrealizedPnl mark)
  vault : env'.vault.netGlobalTraderPnl = env.totalPnlWith symbol (market.unrealizedPnl mark)

section Steps

variable {erc : Erc4626} {env env' : Env A S} {op : Op A S}

theorem pnlPushed_increase {req : IncreaseRequest A S} {pos : Position}
    (heff : IncreaseEffect env env' req pos) :
    PnlPushed env env' req.symbol (env.openedMarket req) req.price :=
  ⟨openInterest_getMarket_insert heff.markets, by rw [heff.pm], by rw [heff.pm],
    by rw [heff.vault]⟩

theorem pnlPushed_close {r : CloseRequest A S} (heff : CloseEffect env env' r) :
    PnlPushed env env' r.symbol r.closedMarket r.tick.markPrice :=
  ⟨openInterest_getMarket_insert heff.markets, by rw [heff.pm], by rw [heff.pm],
    by rw [heff.vault]⟩

omit [DecidableEq A] in
theorem pnlPushed_updateIndices (env : Env A S) (symbol : S) (price : ℤ) :
    PnlPushed env ((env.freshEnv symbol).withMarketPnl symbol
      ((env.freshMarket symbol).unrealizedPnl price)) symbol (env.freshMarket symbol) price := by
  refine ⟨?_, ?_, ?_, ?_⟩
  · intro other b
    have hsame := openInterest_freshEnv env symbol other b
    rw [openInterest_freshMarket]
    refine Eq.trans hsame ?_
    split_ifs with h
    · rw [h]
    · rfl
  all_goals
    obtain ⟨markets, hf⟩ := env.freshEnv_eq symbol
    rw [hf]
    rfl

omit [DecidableEq A] in
theorem getMarketUnrealizedPnl_pushed {symbol : S} {market : MarketInfo} {mark : ℤ}
    (h : PnlPushed env env' symbol market mark) (other : S) :
    env'.getMarketUnrealizedPnl other =
      if other = symbol then market.unrealizedPnl mark else env.getMarketUnrealizedPnl other := by
  rw [getMarketUnrealizedPnl, h.cached]
  split_ifs with hs
  · rw [hs, AList.lookup_insert]
    rfl
  · rw [AList.lookup_insert_ne hs]
    rfl

omit [DecidableEq A] in
theorem pnlMirrored_pushed {symbol : S} {market : MarketInfo} {mark : ℤ}
    (hm : PnlMirrored env) (h : PnlPushed env env' symbol market mark) : PnlMirrored env' := by
  refine ⟨h.vault.trans h.total.symm, ?_, ?_⟩
  · have hentry : entry (fun _ pnl => pnl) env.pm.marketUnrealizedPnl symbol =
        env.getMarketUnrealizedPnl symbol := by
      unfold entry getMarketUnrealizedPnl
      cases env.pm.marketUnrealizedPnl.lookup symbol <;> rfl
    rw [h.total, h.cached, total_insert, hentry, totalPnlWith, hm.markets]
    ring
  · intro other hempty
    rw [getMarketUnrealizedPnl_pushed h]
    split_ifs with hs
    · have hoi : ∀ b, market.openInterest b = 0 := by
        intro b
        rw [← hempty b, h.openInterest, if_pos hs]
      have hlong : market.longOpenInterest = 0 := hoi true
      have hshort : market.shortOpenInterest = 0 := hoi false
      rw [MarketInfo.unrealizedPnl, hlong, hshort, calcMarketUnrealizedPnl_empty]
    · apply hm.empty other
      intro b
      rw [← hempty b, h.openInterest, if_neg hs]

omit [DecidableEq A] in
theorem pnlMirrored_of_same (hm : PnlMirrored env) (h : SamePositions env env') :
    PnlMirrored env' := by
  refine ⟨?_, ?_, ?_⟩
  · rw [h.netGlobalTraderPnl, h.totalUnrealizedPnl]
    exact hm.vault
  · rw [h.totalUnrealizedPnl, h.marketUnrealizedPnl]
    exact hm.markets
  · intro symbol hempty
    rw [getMarketUnrealizedPnl, h.marketUnrealizedPnl]
    apply hm.empty symbol
    intro b
    rw [← hempty b, openInterest_getMarket_congr h.markets]

theorem effect_pnlMirrored (hm : PnlMirrored env) (h : Effect erc env op env') :
    PnlMirrored env' := by
  cases h with
  | increase awake size_pos effect => exact pnlMirrored_pushed hm (pnlPushed_increase effect)
  | close names ready effect => exact pnlMirrored_pushed hm (pnlPushed_close effect)
  | setTpSl position hdelta => exact ⟨hm.vault, hm.markets, hm.empty⟩
  | updateIndices awake price_pos =>
      exact pnlMirrored_pushed hm (pnlPushed_updateIndices env _ _)
  | quiet h => exact pnlMirrored_of_same hm h.samePositions

theorem reachable_pnlMirrored (hr : Reachable erc env) : PnlMirrored env :=
  hr.induction (fun _ _ _ => ⟨rfl, rfl, fun _ _ => rfl⟩) fun _ _ _ => effect_pnlMirrored

/-- With no position left, every side is empty and so is every cached value. -/
theorem total_pnl_of_no_position (hb : Books env) (hm : PnlMirrored env)
    (hnone : ∀ key, env.pm.positions.lookup key = none) : env.pm.totalUnrealizedPnl = 0 := by
  have hempty : ∀ symbol b, (env.getMarket symbol).openInterest b = 0 := by
    intro symbol b
    rw [hb.side]
    apply total_eq_zero
    intro key pos hpos
    rw [hnone] at hpos
    cases hpos
  rw [hm.markets]
  apply total_eq_zero
  intro symbol pnl hpnl
  have hzero := hm.empty symbol (hempty symbol)
  rw [getMarketUnrealizedPnl, hpnl] at hzero
  exact hzero

/-- The vault's net profit, the position manager's total and the sum of the
cached market values are one number, zero when nothing is open. -/
theorem reachable_pnl_mirror (hr : Reachable erc env) :
    env.vault.netGlobalTraderPnl = env.pm.totalUnrealizedPnl ∧
    env.pm.totalUnrealizedPnl = total (fun _ pnl => pnl) env.pm.marketUnrealizedPnl ∧
    ((∀ key, env.pm.positions.lookup key = none) → env.vault.netGlobalTraderPnl = 0) := by
  have hm := reachable_pnlMirrored hr
  refine ⟨hm.vault, hm.markets, fun hnone => ?_⟩
  rw [hm.vault]
  exact total_pnl_of_no_position (reachable_books hr) hm hnone

/-- A long of 500 that gained a tenth: all three records read 50. -/
theorem reachable_pnl_mirror_deployed :
    let env := deployed 100000000000
      [.increase ⟨2, 0, 5000000000, 100000000, true, 0, 0, 0, 100⟩, .updateIndices 0 0 110]
    env.pm.totalUnrealizedPnl = 500000000 ∧
    env.vault.netGlobalTraderPnl = env.pm.totalUnrealizedPnl ∧
    env.pm.totalUnrealizedPnl = total (fun _ pnl => pnl) env.pm.marketUnrealizedPnl ∧
    ((∀ key, env.pm.positions.lookup key = none) → env.vault.netGlobalTraderPnl = 0) :=
  ⟨by decide +kernel, reachable_pnl_mirror (reachable_deployed _ _)⟩

end Steps

end Env

end Stellars
