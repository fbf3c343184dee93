import Stellars.PositionBounds

/-!
# Re-averaging entry indices

A merge stores the size-weighted mean of the old entry index and the current
one, which keeps the product of size and index growth up to one remainder. The
fees accrued before the merge are those products divided by the index scale, so
the merge neither waives nor charges more of them than that remainder is worth.
-/
namespace Stellars
open GuardedRuns KeyedTotals TruncatedDivision

/-- What the remainder of a mean over `size` is worth at most: `size` in whole
index units, rounded up, and one more. -/
def indexRemainder (size : ℤ) : ℤ := (size + (indexPrecision - 1)) / indexPrecision + 1

/-- Numerators at most `size` apart give fees that close to each other. -/
theorem tdiv_indexPrecision_le {a b size : ℤ} (h : a ≤ b + size) :
    a.tdiv indexPrecision ≤ b.tdiv indexPrecision + indexRemainder size := by
  have ha := mul_tdiv_bounds a (b := indexPrecision) (by decide)
  have hb := mul_tdiv_bounds b (b := indexPrecision) (by decide)
  unfold indexRemainder indexPrecision at *
  omega

section Mean

variable {index entry size added : ℤ}

/-- Measured from the mean, the whole size has accrued what the old size had
accrued from its own entry, up to the remainder of the mean. -/
theorem mean_growth (entry index : ℤ) (hs : 0 < size) (hd : 0 < added) :
    |(index - updateGlobalAvgPrice entry size index added) * (size + added) -
      (index - entry) * size| ≤ size + added := by
  have hmean := sub_mul_tdiv_bounds (entry * size + index * added)
    (show 0 < size + added by omega)
  rw [← updateGlobalAvgPrice_eq_tdiv hs hd] at hmean
  rw [abs_le]
  constructor <;> linarith [hmean.1, hmean.2]

/-- A mean of nonnegative indices is rounded down, so nothing accrued is lost. -/
theorem growth_le_mean_growth (hs : 0 < size) (hd : 0 < added) (he : 0 ≤ entry) (hi : 0 ≤ index) :
    (index - entry) * size ≤
      (index - updateGlobalAvgPrice entry size index added) * (size + added) := by
  have hnum : 0 ≤ entry * size + index * added := by positivity
  have hmean := (tdiv_nonneg_bounds hnum (show 0 < size + added by omega)).1
  rw [← updateGlobalAvgPrice_eq_tdiv hs hd] at hmean
  linarith

end Mean

/-- The fees `pos` owes at the indices of `m` are those of `old`, up to the
remainders of its two means. The borrow fee is not lowered. -/
structure FeesCarried (old pos : Position) (m : MarketInfo) : Prop where
  borrow_kept : calcBorrowFee old.size old.entryBorrowIndex m.accBorrowIndex ≤
    calcBorrowFee pos.size pos.entryBorrowIndex m.accBorrowIndex
  borrow_bounded : calcBorrowFee pos.size pos.entryBorrowIndex m.accBorrowIndex ≤
    calcBorrowFee old.size old.entryBorrowIndex m.accBorrowIndex + indexRemainder pos.size
  funding_near : |calcFundingFee pos.size pos.entryFundingIndex m.accFundingIndex pos.isLong -
    calcFundingFee old.size old.entryFundingIndex m.accFundingIndex old.isLong| ≤
      indexRemainder pos.size

/-- Only the two indices of the market count. -/
theorem FeesCarried.congr {old pos : Position} {m m' : MarketInfo} (h : FeesCarried old pos m)
    (hb : m'.accBorrowIndex = m.accBorrowIndex) (hf : m'.accFundingIndex = m.accFundingIndex) :
    FeesCarried old pos m' := by
  obtain ⟨hkept, hbounded, hnear⟩ := h
  refine ⟨?_, ?_, ?_⟩
  · rwa [hb]
  · rwa [hb]
  · rwa [hf]

/-- The sign of a fee does not matter for its distance. -/
theorem calcFundingFee_near {size size' entry entry' index bound : ℤ} (isLong : Bool)
    (h : |((index - entry') * size').tdiv indexPrecision -
      ((index - entry) * size).tdiv indexPrecision| ≤ bound) :
    |calcFundingFee size' entry' index isLong - calcFundingFee size entry index isLong| ≤ bound := by
  cases isLong with
  | false => exact h
  | true =>
      have hneg : -((index - entry') * size').tdiv indexPrecision -
          -((index - entry) * size).tdiv indexPrecision =
            -(((index - entry') * size').tdiv indexPrecision -
              ((index - entry) * size).tdiv indexPrecision) := by ring
      simp only [calcFundingFee, if_true]
      rw [hneg, abs_neg]
      exact h

theorem feesCarried_increase {A S : Type} {old : Position} (req : IncreaseRequest A S)
    (tick : MarketTick) (now : ℕ) (escrow : ℤ) (hs : 0 < old.size) (hd : 0 < req.size)
    (he : 0 ≤ old.entryBorrowIndex) (hi : 0 ≤ tick.market.accBorrowIndex) :
    FeesCarried old (old.increase req tick now escrow) tick.market := by
  have hborrow := abs_le.mp (mean_growth old.entryBorrowIndex
    tick.market.accBorrowIndex hs hd)
  have hfunding := abs_le.mp (mean_growth old.entryFundingIndex
    tick.market.accFundingIndex hs hd)
  refine ⟨?_, ?_, ?_⟩
  · exact Int.tdiv_le_tdiv (by decide) (growth_le_mean_growth hs hd he hi)
  · apply tdiv_indexPrecision_le
    simp only [Position.increase]
    linarith [hborrow.2]
  · apply calcFundingFee_near
    rw [abs_sub_le_iff, sub_le_iff_le_add', sub_le_iff_le_add']
    constructor
    · apply tdiv_indexPrecision_le
      simp only [Position.increase]
      linarith [hfunding.2]
    · apply tdiv_indexPrecision_le
      simp only [Position.increase]
      linarith [hfunding.1]

namespace Env

variable {A S : Type} [DecidableEq A] [DecidableEq S]

theorem size_of_increasedPosition {env : Env A S} {req : IncreaseRequest A S} {old pos : Position}
    {tick : MarketTick} (hold : env.getPosition req.trader req.symbol = some old)
    (h : env.increasedPosition req tick = .ok pos) : pos.size = old.size + req.size := by
  obtain ⟨old', hold', _, rfl⟩ | ⟨hnone, _⟩ := increasedPosition_cases h
  · cases hold.symm.trans hold'
    rfl
  · cases hold.symm.trans hnone

theorem feesCarried_of_increasedPosition {erc : Erc4626} {env : Env A S} {req : IncreaseRequest A S}
    {old pos : Position} {tick : MarketTick} (hr : Reachable erc env)
    (hold : env.getPosition req.trader req.symbol = some old) (hd : 0 < req.size)
    (hi : 0 ≤ tick.market.accBorrowIndex) (h : env.increasedPosition req tick = .ok pos) :
    FeesCarried old pos tick.market := by
  obtain ⟨old', hold', _, rfl⟩ | ⟨hnone, _⟩ := increasedPosition_cases h
  · cases hold.symm.trans hold'
    have hs := ((reachable_books hr).wellFormed _ old hold).size_pos
    have he := ((reachable_entriesBehind hr).entry _ old hold).1
    exact feesCarried_increase req tick env.timestamp (env.escrowOwed req) hs hd he hi
  · cases hold.symm.trans hnone

/-- Adding to an open position keeps the fees it has accrued, up to the worth of
the remainders: as computed at any indices, and so in the position and the market
that a successful call stores. -/
theorem increase_carries_fees (erc : Erc4626) (env : Env A S) (req : IncreaseRequest A S)
    (old : Position) (hr : Reachable erc env)
    (hold : env.getPosition req.trader req.symbol = some old) (hd : 0 < req.size) :
    (∀ tick pos, 0 ≤ tick.market.accBorrowIndex → env.increasedPosition req tick = .ok pos →
      pos.size = old.size + req.size ∧ FeesCarried old pos tick.market) ∧
    ∀ env', env.doIncreasePosition req = .ok env' →
      ∃ pos, env'.getPosition req.trader req.symbol = some pos ∧
        pos.size = old.size + req.size ∧ FeesCarried old pos (env'.getMarket req.symbol) := by
  have hcarried : ∀ {tick pos}, 0 ≤ tick.market.accBorrowIndex →
      env.increasedPosition req tick = .ok pos → FeesCarried old pos tick.market :=
    feesCarried_of_increasedPosition hr hold hd
  constructor
  · intro tick pos hi hmerged
    exact ⟨size_of_increasedPosition hold hmerged, hcarried hi hmerged⟩
  · intro env' hok
    obtain ⟨pos, heff⟩ := doIncreasePosition_ok hok
    have hindex := ((reachable_entriesBehind hr).index req.symbol).trans
      (accBorrowIndex_le_freshMarket (reachable_books hr).reserved_nonneg req.symbol)
    have hstored : env'.getPosition req.trader req.symbol = some pos := by
      rw [getPosition, heff.positions, AList.lookup_insert]
    have hmarket : env'.getMarket req.symbol = env.openedMarket req := by
      apply getMarket_of_lookup
      rw [heff.markets, AList.lookup_insert]
    refine ⟨pos, hstored, size_of_increasedPosition hold heff.merged, ?_⟩
    rw [hmarket]
    exact (hcarried hindex heff.merged).congr
      (MarketInfo.accBorrowIndex_setSide _ _ _ _) (MarketInfo.accFundingIndex_setSide _ _ _ _)

/-- A long of 1000, a month after it was opened. -/
def longAfterMonth : Env ℕ ℕ :=
  deployed 1000000000000
    [.increase ⟨2, 0, 10000000000, 1000000000, true, 0, 0, 0, 70⟩, .advance 2592000]

def addAfterMonth : IncreaseRequest ℕ ℕ := ⟨2, 0, 3, 1000000000, true, 0, 0, 0, 80⟩

def longBeforeMerge : Position :=
  ⟨1000000000, 10000000000, 70, 100000000000000, 100000000000000, true, 1000, 0, 0, 0⟩

theorem increase_carries_fees_afterMonth :
    ∃ env' pos, longAfterMonth.doIncreasePosition addAfterMonth = .ok env' ∧
      env'.getPosition 2 0 = some pos ∧ pos.size = 10000000003 ∧
      FeesCarried longBeforeMerge pos (env'.getMarket 0) := by
  obtain ⟨env', hok, _⟩ := exists_ok_of_bind_eq_some
    (x := longAfterMonth.doIncreasePosition addAfterMonth)
    (f := fun env' => (env'.getPosition 2 0).map (·.size)) (b := 10000000003) (by decide +kernel)
  have hold : longAfterMonth.getPosition 2 0 = some longBeforeMerge := by decide +kernel
  obtain ⟨pos, hpos, hsize, hcarried⟩ := (increase_carries_fees offsetErc longAfterMonth
    addAfterMonth longBeforeMerge (reachable_deployed _ _) hold (by decide)).2 env' hok
  exact ⟨env', pos, hok, hpos, hsize, hcarried⟩

end Env

end Stellars
