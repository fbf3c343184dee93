import Stellars.TruncatedDivision

/-!
# Fixed-point formulas of the position manager

Prices carry seven decimals, indices fourteen, rates are basis points a year.
Amounts are `i128` in the contracts, whose release profile traps on overflow and
so reverts the call: a call that returns has computed the exact integers below.
The two places that test for overflow themselves use `checkedMul`.
-/
namespace Stellars
open TruncatedDivision

/-! ## Shared constants -/

abbrev bps : ℤ := 10000
abbrev indexPrecision : ℤ := 100000000000000
abbrev secondsPerYear : ℤ := 31536000

abbrev i128Max : ℤ := 170141183460469231731687303715884105727
abbrev i128Min : ℤ := -170141183460469231731687303715884105728
abbrev u64Max : ℕ := 18446744073709551615

def checkedMul (a b : ℤ) : Option ℤ :=
  if i128Min ≤ a * b ∧ a * b ≤ i128Max then some (a * b) else none

theorem checkedMul_eq_some {a b c : ℤ} (h : checkedMul a b = some c) : c = a * b := by
  unfold checkedMul at h
  split at h <;> simp_all

/-! ## Profit, fees and health -/

/-- Signed distance from the entry to the mark, positive when the trader wins. -/
def priceDiff (entryPrice markPrice : ℤ) (isLong : Bool) : ℤ :=
  if isLong then markPrice - entryPrice else entryPrice - markPrice

def calcUnrealizedPnl (size entryPrice markPrice : ℤ) (isLong : Bool) : ℤ :=
  if entryPrice = 0 ∨ size = 0 then 0
  else (size * priceDiff entryPrice markPrice isLong).tdiv entryPrice

theorem calcUnrealizedPnl_of_pos {size entryPrice : ℤ} (markPrice : ℤ) (isLong : Bool)
    (he : 0 < entryPrice) :
    calcUnrealizedPnl size entryPrice markPrice isLong =
      (size * priceDiff entryPrice markPrice isLong).tdiv entryPrice := by
  unfold calcUnrealizedPnl
  by_cases hs : size = 0
  · simp [hs]
  · rw [if_neg (by omega)]

def calcBorrowFee (size entryBorrowIndex currentBorrowIndex : ℤ) : ℤ :=
  ((currentBorrowIndex - entryBorrowIndex) * size).tdiv indexPrecision

/-- Longs pay a rising index and shorts receive it. -/
def calcFundingFee (size entryFundingIndex currentFundingIndex : ℤ) (isLong : Bool) : ℤ :=
  let delta := currentFundingIndex - entryFundingIndex
  if isLong then -((delta * size).tdiv indexPrecision) else (delta * size).tdiv indexPrecision

def calcHealth (collateral unrealizedPnl borrowFee fundingFee : ℤ) : ℤ :=
  collateral + unrealizedPnl - borrowFee + fundingFee

/-! ## Rates and indices -/

def calcBorrowRate (utilizationBps baseBorrowRate slope1 slope2 optimalUtil : ℤ) : ℤ :=
  if utilizationBps ≤ optimalUtil then baseBorrowRate + (utilizationBps * slope1).tdiv bps
  else
    baseBorrowRate + (optimalUtil * slope1).tdiv bps +
      ((utilizationBps - optimalUtil) * slope2).tdiv bps

/-- The progressive halving of `calcFundingRate` once its product overflows. -/
def halvedFundingRate (im tot baseFundingRate : ℤ) : ℤ :=
  if tot.tdiv 2 = 0 then 0
  else
    match checkedMul (im.tdiv 2) baseFundingRate with
    | some product => product.tdiv (tot.tdiv 2)
    | none => halvedFundingRate (im.tdiv 2) (tot.tdiv 2) baseFundingRate
termination_by tot.natAbs
decreasing_by
  have h0 : tot ≠ 0 := by rintro rfl; simp_all
  rw [Int.natAbs_tdiv]
  exact Nat.div_lt_self (Int.natAbs_pos.mpr h0) (by decide)

def calcFundingRate (longOi shortOi baseFundingRate : ℤ) : ℤ :=
  let total := longOi + shortOi
  if total = 0 then 0
  else
    let imbalance := longOi - shortOi
    match checkedMul imbalance baseFundingRate with
    | some product => product.tdiv total
    | none => halvedFundingRate imbalance total baseFundingRate

def accumulateBorrowIndex (currentIndex rateBps : ℤ) (timeDelta : ℕ) : ℤ :=
  currentIndex + (rateBps * indexPrecision * timeDelta).tdiv (bps * secondsPerYear)

def accumulateFundingIndex (currentIndex rateBps : ℤ) (timeDelta : ℕ) : ℤ :=
  currentIndex + (rateBps * indexPrecision * timeDelta).tdiv (bps * secondsPerYear)

theorem calcBorrowRate_nonneg {utilizationBps base slope1 slope2 optimal : ℤ}
    (hu : 0 ≤ utilizationBps) (hb : 0 ≤ base) (h1 : 0 ≤ slope1) (h2 : 0 ≤ slope2)
    (ho : 0 ≤ optimal) : 0 ≤ calcBorrowRate utilizationBps base slope1 slope2 optimal := by
  have hbps : (0 : ℤ) ≤ bps := by decide
  unfold calcBorrowRate
  split_ifs with h
  · exact add_nonneg hb (Int.tdiv_nonneg (mul_nonneg hu h1) hbps)
  · have hexcess : 0 ≤ utilizationBps - optimal := by omega
    have hfirst := Int.tdiv_nonneg (mul_nonneg ho h1) hbps
    have hsecond := Int.tdiv_nonneg (mul_nonneg hexcess h2) hbps
    omega

/-- One basis point over one second is hundreds of index units, so different products of
rate and time give different growth. -/
theorem indexGrowth_inj {x y : ℤ} :
    (x * indexPrecision).tdiv (bps * secondsPerYear) =
      (y * indexPrecision).tdiv (bps * secondsPerYear) ↔ x = y := by
  have hlt : ∀ {a b : ℤ}, a < b → (a * indexPrecision).tdiv (bps * secondsPerYear) <
      (b * indexPrecision).tdiv (bps * secondsPerYear) := by
    intro a b hab
    have h1 := mul_tdiv_bounds (a * indexPrecision) (b := bps * secondsPerYear) (by decide)
    have h2 := mul_tdiv_bounds (b * indexPrecision) (b := bps * secondsPerYear) (by decide)
    unfold bps secondsPerYear indexPrecision at *
    omega
  constructor
  · intro heq
    obtain h | h | h := lt_trichotomy x y
    · exact absurd heq (hlt h).ne
    · exact h
    · exact absurd heq (hlt h).ne'
  · rintro rfl
    rfl

/-- Halving both sides keeps the sign of the imbalance. -/
theorem halvedFundingRate_sign {s im tot base : ℤ} (h : 0 ≤ s * im) (ht : 0 ≤ tot)
    (hb : 0 ≤ base) : 0 ≤ s * halvedFundingRate im tot base := by
  fun_induction halvedFundingRate im tot base with
  | case1 => simp
  | case2 im tot hne product hproduct =>
      rw [checkedMul_eq_some hproduct]
      apply mul_tdiv_nonneg _ (Int.tdiv_nonneg ht (by decide))
      rw [← mul_assoc]
      exact mul_nonneg (mul_tdiv_nonneg h (by decide)) hb
  | case3 im tot hne hover ih =>
      exact ih (mul_tdiv_nonneg h (by decide)) (Int.tdiv_nonneg ht (by decide))

/-- The rate has the sign of the imbalance: the larger side pays. -/
theorem calcFundingRate_sign {longOi shortOi base : ℤ} (h : 0 ≤ longOi + shortOi)
    (hb : 0 ≤ base) : 0 ≤ (longOi - shortOi) * calcFundingRate longOi shortOi base := by
  have himbalance : 0 ≤ (longOi - shortOi) * (longOi - shortOi) := mul_self_nonneg _
  simp only [calcFundingRate]
  split_ifs with h0
  · simp
  · cases hproduct : checkedMul (longOi - shortOi) base with
    | some product =>
        rw [checkedMul_eq_some hproduct]
        apply mul_tdiv_nonneg _ h
        rw [← mul_assoc]
        exact mul_nonneg himbalance hb
    | none => exact halvedFundingRate_sign himbalance h hb

theorem accumulateFundingIndex_sign {s rateBps : ℤ} (currentIndex : ℤ) (timeDelta : ℕ)
    (h : 0 ≤ s * rateBps) :
    0 ≤ s * (accumulateFundingIndex currentIndex rateBps timeDelta - currentIndex) := by
  rw [accumulateFundingIndex, add_sub_cancel_left]
  apply mul_tdiv_nonneg _ (by decide)
  rw [← mul_assoc, ← mul_assoc]
  exact mul_nonneg (mul_nonneg h (by decide)) (Int.natCast_nonneg _)

theorem le_accumulateBorrowIndex {currentIndex rateBps : ℤ} (timeDelta : ℕ) (h : 0 ≤ rateBps) :
    currentIndex ≤ accumulateBorrowIndex currentIndex rateBps timeDelta := by
  have hgrowth : 0 ≤ (rateBps * indexPrecision * timeDelta).tdiv (bps * secondsPerYear) :=
    Int.tdiv_nonneg (by positivity) (by decide)
  unfold accumulateBorrowIndex
  omega

/-! ## Average prices -/

def updateGlobalAvgPrice (currentAvg currentSize newPrice newSize : ℤ) : ℤ :=
  let totalSize := currentSize + newSize
  if totalSize = 0 then 0
  else if currentSize = 0 then newPrice
  else (currentAvg * currentSize + newPrice * newSize).tdiv totalSize

/-- A side that empties, or whose numerator is not positive, has average zero. -/
def removeFromGlobalAvgPrice (currentAvg currentOi removedEntryPrice removedSize : ℤ) : ℤ :=
  let remainingOi := currentOi - removedSize
  if remainingOi ≤ 0 then 0
  else
    let numerator := currentAvg * currentOi - removedEntryPrice * removedSize
    if numerator ≤ 0 then 0 else numerator.tdiv remainingOi

theorem updateGlobalAvgPrice_eq_tdiv {avg size price added : ℤ} (hs : 0 < size) (hd : 0 < added) :
    updateGlobalAvgPrice avg size price added =
      (avg * size + price * added).tdiv (size + added) := by
  have ht : size + added ≠ 0 := by omega
  simp only [updateGlobalAvgPrice, if_neg ht, if_neg hs.ne']

/-- Adding at the standing average leaves it where it is. -/
theorem updateGlobalAvgPrice_same {avg size added : ℤ} (hs : 0 ≤ size) (ha : 0 < added) :
    updateGlobalAvgPrice avg size avg added = avg := by
  have ht : size + added ≠ 0 := by omega
  simp only [updateGlobalAvgPrice, if_neg ht]
  split_ifs with h
  · rfl
  · rw [← mul_add, Int.mul_tdiv_cancel _ ht]

/-- Removing at the standing average leaves it, unless the side empties. -/
theorem removeFromGlobalAvgPrice_same {avg oi removed : ℤ} (ha : 0 < avg)
    (hr : removed < oi) : removeFromGlobalAvgPrice avg oi avg removed = avg := by
  have hrem : 0 < oi - removed := by omega
  have hnum : avg * oi - avg * removed = avg * (oi - removed) := by ring
  simp only [removeFromGlobalAvgPrice, hnum]
  rw [if_neg (by omega), if_neg (by nlinarith), Int.mul_tdiv_cancel _ hrem.ne']

theorem updateGlobalAvgPrice_pos {avg size price added : ℤ} (ha : size = 0 ∨ 0 < avg)
    (hs : 0 ≤ size) (hp : 0 < price) (hd : 0 < added) :
    0 < updateGlobalAvgPrice avg size price added := by
  have ht : size + added ≠ 0 := by omega
  simp only [updateGlobalAvgPrice, if_neg ht]
  split_ifs with h
  · exact hp
  · have havg : 0 < avg := ha.resolve_left h
    apply Int.le_tdiv_of_mul_le (by omega)
    nlinarith

/-- A mean with a value no smaller than the old one does not pass it. -/
theorem updateGlobalAvgPrice_le {avg size price added : ℤ} (ha : 0 ≤ avg) (hle : avg ≤ price)
    (hs : 0 ≤ size) (hd : 0 < added) :
    0 ≤ updateGlobalAvgPrice avg size price added ∧
      updateGlobalAvgPrice avg size price added ≤ price := by
  have ht : 0 < size + added := by omega
  have hp : 0 ≤ price := ha.trans hle
  simp only [updateGlobalAvgPrice, if_neg ht.ne']
  split_ifs with h
  · exact ⟨hp, le_rfl⟩
  · have hn : 0 ≤ avg * size + price * added := by positivity
    have hsum : avg * size + price * added ≤ price * (size + added) := by nlinarith
    rw [Int.tdiv_eq_ediv_of_nonneg hn]
    exact ⟨Int.ediv_nonneg hn ht.le, Int.ediv_le_of_le_mul ht hsum⟩

/-! ## Triggers, aggregates and charges -/

def isTpTriggered (takeProfit markPrice : ℤ) (isLong : Bool) : Bool :=
  if takeProfit ≤ 0 then false
  else if isLong then decide (markPrice ≥ takeProfit) else decide (markPrice ≤ takeProfit)

def isSlTriggered (stopLoss markPrice : ℤ) (isLong : Bool) : Bool :=
  if stopLoss ≤ 0 then false
  else if isLong then decide (markPrice ≤ stopLoss) else decide (markPrice ≥ stopLoss)

def calcMarketUnrealizedPnl (longOi longAvg shortOi shortAvg markPrice : ℤ) : ℤ :=
  let longPnl :=
    if longOi > 0 ∧ longAvg > 0 then (longOi * (markPrice - longAvg)).tdiv longAvg else 0
  let shortPnl :=
    if shortOi > 0 ∧ shortAvg > 0 then (shortOi * (shortAvg - markPrice)).tdiv shortAvg else 0
  longPnl + shortPnl

@[simp] theorem calcMarketUnrealizedPnl_empty (longAvg shortAvg markPrice : ℤ) :
    calcMarketUnrealizedPnl 0 longAvg 0 shortAvg markPrice = 0 := by
  simp [calcMarketUnrealizedPnl]

def calcUtilizationBps (reserved totalAssets : ℤ) : ℤ :=
  if totalAssets ≤ 0 then 0 else (reserved * bps).tdiv totalAssets

theorem calcUtilizationBps_nonneg {reserved : ℤ} (totalAssets : ℤ) (h : 0 ≤ reserved) :
    0 ≤ calcUtilizationBps reserved totalAssets := by
  unfold calcUtilizationBps
  split_ifs with h0
  · exact le_rfl
  · exact Int.tdiv_nonneg (by positivity) (by omega)

def calcOpenFee (size : ℤ) (openFeeBps : ℕ) : ℤ :=
  if size ≤ 0 then 0 else (size * openFeeBps).tdiv bps

def calcLiquidationBounty (collateral : ℤ) (bountyBps : ℕ) : ℤ :=
  if collateral ≤ 0 then 0 else (collateral * bountyBps).tdiv bps

theorem calcOpenFee_nonneg (size : ℤ) (openFeeBps : ℕ) : 0 ≤ calcOpenFee size openFeeBps := by
  unfold calcOpenFee
  split_ifs with h
  · exact le_rfl
  · exact Int.tdiv_nonneg (mul_nonneg (by omega) (by positivity)) (by decide)

theorem calcLiquidationBounty_nonneg (collateral : ℤ) (bountyBps : ℕ) :
    0 ≤ calcLiquidationBounty collateral bountyBps := by
  unfold calcLiquidationBounty
  split_ifs with h
  · exact le_rfl
  · exact Int.tdiv_nonneg (mul_nonneg (by omega) (by positivity)) (by decide)

end Stellars
