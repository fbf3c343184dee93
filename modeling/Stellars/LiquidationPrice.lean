import Stellars.KeeperMirror

/-!
# The displayed liquidation price

The port solves the liquidation gate for the mark, with the fees accrued so far
held fixed. The closed form truncates once and the gate twice, so the two agree
outside a gap of one unit above and of one step of the profit below.
-/
namespace Stellars
open TruncatedDivision

namespace ProtocolMath

/-- Nothing is displayed for a position without size, collateral or entry. -/
def liquidationPriceForPosition (row : PositionRow) (tick : MarketTick)
    (liquidationThresholdBps fundingCutBps : ℤ) : Option ℤ :=
  let state := toPositionState row
  if state.size = 0 ∨ state.collateral = 0 ∨ state.entryPrice = 0 then none
  else
    let evald := tick.evaluate state none fundingCutBps
    let thresholdValue := (state.collateral * liquidationThresholdBps).tdiv bps
    let pnlAtLiq := thresholdValue - state.collateral + evald.borrowFee - evald.effectiveFunding
    let adjustment := (state.entryPrice * pnlAtLiq).tdiv state.size
    some (if state.isLong then state.entryPrice + adjustment else state.entryPrice - adjustment)

namespace MarketTick

/-- The tick of the same market at another mark. -/
def withMark (tick : MarketTick) (mark : ℤ) : MarketTick := { tick with markPrice := mark }

/-- The gate of a liquidation as the port evaluates it. -/
def Liquidatable (tick : MarketTick) (row : PositionRow)
    (liquidationThresholdBps fundingCutBps : ℤ) : Prop :=
  (tick.evaluate (toPositionState row) none fundingCutBps).effectiveHealth <
    (row.collateral * liquidationThresholdBps).tdiv bps

/-- The profit at which the gate turns, given the fees accrued so far. -/
def pnlAtLiq (tick : MarketTick) (row : PositionRow)
    (liquidationThresholdBps fundingCutBps : ℤ) : ℤ :=
  (row.collateral * liquidationThresholdBps).tdiv bps - row.collateral +
    (tick.evaluate (toPositionState row) none fundingCutBps).borrowFee -
      (tick.evaluate (toPositionState row) none fundingCutBps).effectiveFunding

section Gate

variable {tick : MarketTick} {row : PositionRow} {liquidationThresholdBps fundingCutBps : ℤ}

/-- Moving the mark moves the profit and leaves the accrued fees. -/
theorem liquidatable_withMark_iff (he : 0 < row.entryPrice) (mark : ℤ) :
    (tick.withMark mark).Liquidatable row liquidationThresholdBps fundingCutBps ↔
      (row.size * priceDiff row.entryPrice mark row.isLong).tdiv row.entryPrice <
        tick.pnlAtLiq row liquidationThresholdBps fundingCutBps := by
  have hpnl : calcUnrealizedPnl row.size row.entryPrice mark row.isLong =
      (row.size * priceDiff row.entryPrice mark row.isLong).tdiv row.entryPrice :=
    Stellars.calcUnrealizedPnl_of_pos mark row.isLong he
  have hhealth : ((tick.withMark mark).evaluate (toPositionState row) none
      fundingCutBps).effectiveHealth =
      row.collateral + calcUnrealizedPnl row.size row.entryPrice mark row.isLong -
        (tick.evaluate (toPositionState row) none fundingCutBps).borrowFee +
          (tick.evaluate (toPositionState row) none fundingCutBps).effectiveFunding := rfl
  rw [Liquidatable, hhealth, hpnl, pnlAtLiq]
  omega

/-- Where the two ticks carry the same market, the gate is the contract's. -/
theorem liquidatable_iff_onChain {onChain : Stellars.MarketTick} {pos : Position} {cut : ℕ}
    (h : SameTick tick onChain) :
    tick.Liquidatable pos.row liquidationThresholdBps cut ↔
      (onChain.evaluate pos pos.size pos.collateral cut).effectiveHealth <
        (pos.collateral * liquidationThresholdBps).tdiv bps := by
  obtain ⟨-, -, -, -, -, hhealth⟩ := h.evaluate pos pos.size pos.collateral cut
  rw [← hhealth]
  exact Iff.rfl

end Gate

end MarketTick

theorem liquidationPriceForPosition_eq {row : PositionRow} (tick : MarketTick)
    (liquidationThresholdBps fundingCutBps : ℤ) (hs : 0 < row.size) (hc : 0 < row.collateral)
    (he : 0 < row.entryPrice) :
    liquidationPriceForPosition row tick liquidationThresholdBps fundingCutBps =
      some (if row.isLong then row.entryPrice + (row.entryPrice *
          tick.pnlAtLiq row liquidationThresholdBps fundingCutBps).tdiv row.size
        else row.entryPrice - (row.entryPrice *
          tick.pnlAtLiq row liquidationThresholdBps fundingCutBps).tdiv row.size) :=
  if_neg (show ¬(row.size = 0 ∨ row.collateral = 0 ∨ row.entryPrice = 0) by omega)

/-- A position is safe from one unit inside the displayed price on, and liquidatable
from one step of the profit and one unit outside it on. -/
theorem liquidationPrice_inverts_gate (row : PositionRow) (tick : MarketTick)
    (liquidationThresholdBps fundingCutBps : ℤ) (hs : 0 < row.size) (hc : 0 < row.collateral)
    (he : 0 < row.entryPrice) :
    ∃ price,
      liquidationPriceForPosition row tick liquidationThresholdBps fundingCutBps = some price ∧
      (row.isLong = true →
        (∀ mark, price + 1 ≤ mark →
          ¬(tick.withMark mark).Liquidatable row liquidationThresholdBps fundingCutBps) ∧
        ∀ mark, mark ≤ price - ⌈(row.entryPrice : ℚ) / row.size⌉ - 1 →
          (tick.withMark mark).Liquidatable row liquidationThresholdBps fundingCutBps) ∧
      (row.isLong = false →
        (∀ mark, mark ≤ price - 1 →
          ¬(tick.withMark mark).Liquidatable row liquidationThresholdBps fundingCutBps) ∧
        ∀ mark, price + ⌈(row.entryPrice : ℚ) / row.size⌉ + 1 ≤ mark →
          (tick.withMark mark).Liquidatable row liquidationThresholdBps fundingCutBps) := by
  rw [liquidationPriceForPosition_eq tick _ _ hs hc he]
  refine ⟨_, rfl, ?_, ?_⟩
  · intro hlong
    simp only [MarketTick.liquidatable_withMark_iff he, priceDiff, hlong, if_true, not_lt]
    refine ⟨fun mark hmark => ?_, fun mark hmark => ?_⟩
    · apply le_mul_tdiv_of_inverse_lt hs he
      omega
    · apply mul_tdiv_lt_of_lt_inverse hs he
      omega
  · intro hshort
    simp only [MarketTick.liquidatable_withMark_iff he, priceDiff, hshort, Bool.false_eq_true,
      if_false, not_lt]
    refine ⟨fun mark hmark => ?_, fun mark hmark => ?_⟩
    · apply le_mul_tdiv_of_inverse_lt hs he
      omega
    · apply mul_tdiv_lt_of_lt_inverse hs he
      omega

/-- A long of ten times its collateral, on a market whose indices have not moved. -/
theorem liquidationPrice_inverts_gate_tenfold :
    let row : PositionRow :=
      ⟨100000000, 1000000000, 1000000000, indexPrecision, indexPrecision, true, 0, 0, 0⟩
    let tick : MarketTick :=
      ⟨⟨indexPrecision, indexPrecision, 0, 1000000000, 0⟩, 1000000000⟩
    (∀ mark, 902000001 ≤ mark → ¬(tick.withMark mark).Liquidatable row 200 500) ∧
      ∀ mark, mark ≤ 902000000 - ⌈(row.entryPrice : ℚ) / row.size⌉ - 1 →
        (tick.withMark mark).Liquidatable row 200 500 := by
  intro row tick
  obtain ⟨price, hprice, hlong, _⟩ :=
    liquidationPrice_inverts_gate row tick 200 500 (by decide) (by decide) (by decide)
  have hvalue : liquidationPriceForPosition row tick 200 500 = some 902000000 := by decide
  rw [hvalue] at hprice
  cases hprice
  exact hlong rfl

end ProtocolMath

end Stellars
