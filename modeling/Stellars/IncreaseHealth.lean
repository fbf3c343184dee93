import Stellars.Accrual
import Stellars.KeeperMirror
import Stellars.SoleAverage
import Stellars.UtilizationCap

/-!
# The liquidation gate right after an increase

An increase checks leverage on nominal collateral; the liquidation gate reads
health net of profit and fees. What is added at the mark has neither, but it
re-bases what the old size carries: its loss is divided by the new entry price and
its fees keep the remainders of the averages.
-/
namespace Stellars
open GuardedRuns KeyedTotals TruncatedDivision

/-- Measured from the average, the whole size has moved as far as the old size had,
plus the remainder of the average. -/
theorem average_growth (avg size price added : ℤ) :
    (size + added) * (price - updateGlobalAvgPrice avg size price added) =
      size * (price - avg) + averagingRemainder avg size price added := by
  rw [← averagingLoss_eq_remainder, averagingLoss]
  ring

theorem calcUnrealizedPnl_at_entry (size entryPrice : ℤ) (isLong : Bool) :
    calcUnrealizedPnl size entryPrice entryPrice isLong = 0 := by
  simp [calcUnrealizedPnl, priceDiff]

/-! ## What the old size carries into the merged position -/

section Carried

/-- Its profit, over the new entry price. -/
def Position.carriedPnl (old : Position) (markPrice added : ℤ) : ℤ :=
  let moved := old.size * (markPrice - old.entryPrice) +
    averagingRemainder old.entryPrice old.size markPrice added
  (if old.isLong then moved else -moved).tdiv
    (updateGlobalAvgPrice old.entryPrice old.size markPrice added)

/-- The growth of an index since `entry`, on the old size. -/
def carriedGrowth (size entry index added : ℤ) : ℤ :=
  (size * (index - entry) + averagingRemainder entry size index added).tdiv indexPrecision

/-- The funding that the receiving side is scaled to, less the protocol's cut. -/
def effectiveFunding (market : MarketInfo) (isLong : Bool) (cutBps : ℕ) (fee : ℤ) : ℤ :=
  zeroSumFunding market isLong fee - fundingCut cutBps (zeroSumFunding market isLong fee)

/-- Both collaterals with what the old size carries, valued in `market`. -/
def Position.carriedHealth {A S : Type} (old : Position) (req : IncreaseRequest A S)
    (market : MarketInfo) (cutBps : ℕ) : ℤ :=
  let funding := carriedGrowth old.size old.entryFundingIndex market.accFundingIndex req.size
  old.collateral + req.collateral + old.carriedPnl req.price req.size -
    carriedGrowth old.size old.entryBorrowIndex market.accBorrowIndex req.size +
      effectiveFunding market old.isLong cutBps (if old.isLong then -funding else funding)

/-- Size added at the mark has no profit of its own. -/
theorem calcUnrealizedPnl_increase {A S : Type} {old : Position} {req : IncreaseRequest A S}
    {tick : MarketTick} {now : ℕ} {escrow : ℤ} (hmark : tick.markPrice = req.price)
    (he : 0 < (old.increase req tick now escrow).entryPrice) :
    calcUnrealizedPnl (old.size + req.size) (old.increase req tick now escrow).entryPrice req.price
      old.isLong = old.carriedPnl req.price req.size := by
  rw [calcUnrealizedPnl_of_pos _ _ he]
  simp only [Position.increase, hmark, Position.carriedPnl, ← average_growth, priceDiff]
  cases old.isLong with
  | true => rfl
  | false =>
      simp only [Bool.false_eq_true, if_false]
      congr 1
      ring

/-- Nor has it accrued anything. -/
theorem accrued_increase (size entry index added : ℤ) :
    ((index - updateGlobalAvgPrice entry size index added) * (size + added)).tdiv indexPrecision =
      carriedGrowth size entry index added := by
  rw [carriedGrowth, ← average_growth, mul_comm]

/-- The health of the merged position is what the old size carries. -/
theorem effectiveHealth_increase {A S : Type} {old : Position} {req : IncreaseRequest A S}
    {tick : MarketTick} {market : MarketInfo} {now : ℕ} {escrow : ℤ} (cutBps : ℕ)
    (hmark : tick.markPrice = req.price)
    (hb : market.accBorrowIndex = tick.market.accBorrowIndex)
    (hf : market.accFundingIndex = tick.market.accFundingIndex)
    (he : 0 < (old.increase req tick now escrow).entryPrice) :
    ((⟨market, req.price⟩ : MarketTick).evaluate (old.increase req tick now escrow)
      (old.size + req.size) (old.collateral + req.collateral) cutBps).effectiveHealth =
        old.carriedHealth req market cutBps := by
  simp only [MarketTick.evaluate, calcHealth, Position.carriedHealth, effectiveFunding]
  rw [show (old.increase req tick now escrow).isLong = old.isLong from rfl,
    calcUnrealizedPnl_increase hmark he]
  simp only [calcBorrowFee, calcFundingFee, Position.increase, hb, hf, accrued_increase]

end Carried

namespace Env

variable {A S : Type} [DecidableEq A] [DecidableEq S]

section Increase

variable {erc : Erc4626} {env env' : Env A S} {req : IncreaseRequest A S} {pos : Position}

omit [DecidableEq A] in
/-- Opening size moves no index. -/
theorem openedMarket_indices (env : Env A S) (req : IncreaseRequest A S) :
    (env.openedMarket req).accBorrowIndex = (env.freshMarket req.symbol).accBorrowIndex ∧
      (env.openedMarket req).accFundingIndex = (env.freshMarket req.symbol).accFundingIndex :=
  ⟨MarketInfo.accBorrowIndex_setSide _ _ _ _, MarketInfo.accFundingIndex_setSide _ _ _ _⟩

/-- A call in the same second finds the market as the increase left it. -/
theorem IncreaseEffect.freshMarket (h : IncreaseEffect env env' req pos) :
    env'.freshMarket req.symbol = env.openedMarket req := by
  have hstored : env'.getMarket req.symbol = env.openedMarket req := getMarket_of_insert h.markets
  have hclock : SameClock env env' := by
    refine ⟨h.timestamp, ?_, ?_, ?_⟩ <;> rw [h.pm]
  have hbilled : env'.timeDelta (env.openedMarket req) = 0 := by
    rw [timeDelta_congr (m := env.freshMarket req.symbol) hclock]
    · exact timeDelta_accrue env _ _
    · exact MarketInfo.lastIndexUpdate_setSide _ _ _ _
  rw [Env.freshMarket, hstored, accrue, if_neg (by omega)]

/-- The gate of a liquidation of the position just stored, at the same mark. -/
theorem IncreaseEffect.liquidatable_iff (h : IncreaseEffect env env' req pos) (caller : A) :
    env'.Liquidatable caller req.trader req.symbol req.price ↔
      ((⟨env.openedMarket req, req.price⟩ : MarketTick).evaluate pos pos.size pos.collateral
        env.cfg.protocolLimits.1.fundingCutBps).effectiveHealth <
          (pos.collateral * env.cfg.protocolLimits.1.liquidationThresholdBps).tdiv bps := by
  have hstored : env'.getPosition req.trader req.symbol = some pos := by
    rw [getPosition, h.positions, AList.lookup_insert]
  rw [Env.liquidatable_iff, freshTick, h.freshMarket, h.cfg]
  simp only [h.price_pos, true_and, hstored, Option.some.injEq, exists_eq_left']

/-- A position just opened is its own collateral. -/
theorem not_liquidatable_of_opened (h : IncreaseEffect env env' req pos) (caller : A)
    (hnone : env.getPosition req.trader req.symbol = none) :
    ¬env'.Liquidatable caller req.trader req.symbol req.price := by
  obtain ⟨old, hold, _⟩ | ⟨_, rfl⟩ := increasedPosition_cases h.merged
  · cases hnone.symm.trans hold
  · obtain ⟨hmin, -, -, -, hthreshold⟩ := ProtocolLimits.validate_ok env.cfg.protocolLimits.2
    have hcollateral := h.min_collateral
    have hshare : (req.collateral * env.cfg.protocolLimits.1.liquidationThresholdBps).tdiv bps ≤
        req.collateral :=
      (share_bounds (by omega) (by positivity) (by decide) (by unfold bps; omega)).2
    obtain ⟨hborrow, hfunding⟩ := env.openedMarket_indices req
    rw [h.liquidatable_iff, not_lt]
    simp only [MarketTick.evaluate, Position.create, freshTick, calcHealth, hborrow, hfunding,
      calcUnrealizedPnl_at_entry, calcBorrowFee, calcFundingFee, sub_self, zero_mul,
      Int.zero_tdiv, neg_zero, ite_self, zeroSumFunding, fundingCut, lt_irrefl]
    omega

/-- An increase that opens a position never leaves it liquidatable. One that adds to a
position does exactly if what the old size carries falls short of the threshold of
the joint collateral. -/
theorem increase_leaves_safe (erc : Erc4626) (env env' : Env A S) (req : IncreaseRequest A S)
    (caller : A) (hr : Reachable erc env) (h : env.doIncreasePosition req = .ok env') :
    (env.getPosition req.trader req.symbol = none →
      ¬env'.Liquidatable caller req.trader req.symbol req.price) ∧
    ∀ old, env.getPosition req.trader req.symbol = some old →
      (¬env'.Liquidatable caller req.trader req.symbol req.price ↔
        ((old.collateral + req.collateral) *
            env.cfg.protocolLimits.1.liquidationThresholdBps).tdiv bps ≤
          old.carriedHealth req (env.openedMarket req)
            env.cfg.protocolLimits.1.fundingCutBps) := by
  obtain ⟨pos, heff⟩ := doIncreasePosition_ok h
  refine ⟨not_liquidatable_of_opened heff caller, ?_⟩
  intro old hold
  obtain ⟨old', hold', _, rfl⟩ | ⟨hnone, _⟩ := increasedPosition_cases heff.merged
  · cases hold.symm.trans hold'
    have hw := increasedPosition_wellFormed (reachable_books hr) (doIncreasePosition_size_pos h) heff
    have hmark : (env.freshTick req.symbol req.price).markPrice = req.price := rfl
    obtain ⟨hborrow, hfunding⟩ := env.openedMarket_indices req
    rw [heff.liquidatable_iff, not_lt,
      ← effectiveHealth_increase _ hmark hborrow hfunding hw.entry_pos]
    rfl
  · cases hold.symm.trans hnone

/-- A long of ten times its collateral, opened at 100. -/
def tenfoldLong : Env ℕ ℕ :=
  deployed 1000000000000 [.increase ⟨2, 0, 10000000000, 1000000000, true, 0, 0, 0, 1000000000⟩]

/-- Nine times its size and a hundredth of its collateral, added at 90.3. -/
def addAtLoss : IncreaseRequest ℕ ℕ := ⟨2, 0, 90000000000, 10000000, true, 0, 0, 0, 903000000⟩

theorem increase_leaves_safe_tenfoldLong :
    ∃ env' old, tenfoldLong.doIncreasePosition addAtLoss = .ok env' ∧
      tenfoldLong.getPosition 2 0 = some old ∧
      (¬env'.Liquidatable 9 2 0 903000000 ↔
        ((old.collateral + 10000000) *
            tenfoldLong.cfg.protocolLimits.1.liquidationThresholdBps).tdiv bps ≤
          old.carriedHealth addAtLoss (tenfoldLong.openedMarket addAtLoss)
            tenfoldLong.cfg.protocolLimits.1.fundingCutBps) := by
  obtain ⟨env', hok, _⟩ := exists_ok_of_bind_eq_some
    (show (tenfoldLong.doIncreasePosition addAtLoss).toOption.bind
      (fun s => some s.vault.reservedUsdc) = some 100000000000 by decide +kernel)
  obtain ⟨old, hold, _⟩ := Option.map_eq_some_iff.mp
    (show (tenfoldLong.getPosition 2 0).map (·.size) = some 10000000000 by decide +kernel)
  exact ⟨env', old, hok, hold, (increase_leaves_safe offsetErc tenfoldLong env' addAtLoss 9
    (reachable_deployed _ _) hok).2 old hold⟩

/-- Averaging down: the long was safe at 90.3, and is liquidatable there once nine
times its size has been added. -/
theorem increase_liquidatable :
    ¬tenfoldLong.Liquidatable 9 2 0 903000000 ∧
    ¬∀ (env env' : Env ℕ ℕ) (req : IncreaseRequest ℕ ℕ) (caller : ℕ), Reachable offsetErc env →
      env.doIncreasePosition req = .ok env' →
      ¬env'.Liquidatable caller req.trader req.symbol req.price := by
  constructor
  · rintro ⟨result, hresult⟩
    have hrefused : tenfoldLong.liquidateRequest 9 2 0 903000000 =
        .error (.positionManager .healthFactorOk) := eq_error_of_raised (by decide +kernel)
    cases hrefused.symm.trans hresult
  · intro h
    obtain ⟨env', hok, hclose⟩ := exists_ok_of_bind_eq_some
      (show (tenfoldLong.doIncreasePosition addAtLoss).toOption.bind
        (fun s => (s.liquidateRequest 9 2 0 903000000).toOption.bind
          fun r => some r.2.sizeDelta) = some 100000000000 by decide +kernel)
    obtain ⟨result, hresult, _⟩ := exists_ok_of_bind_eq_some hclose
    exact h tenfoldLong env' addAtLoss 9 (reachable_deployed _ _) hok ⟨result, hresult⟩

end Increase

end Env

end Stellars
