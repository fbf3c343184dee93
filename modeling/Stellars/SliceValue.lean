import Stellars.Books

/-!
# The value of a slice

What a partial close pays is, up to a few units of rounding, proportional to the
closed size: collateral, profit, borrow fee and funding are each one truncated
product. Funding stays proportional as long as it is not scaled down to what a
smaller paying side can fund.
-/
namespace Stellars
open TruncatedDivision

/-- The collateral released with `size`. -/
def Position.releasedCollateral (pos : Position) (size : ℤ) : ℤ :=
  if size = pos.size then pos.collateral else (pos.collateral * size).tdiv pos.size

/-- What is left of the position once `size` is closed. -/
def Position.withoutSlice (pos : Position) (size : ℤ) : Position :=
  { pos with
    collateral := pos.collateral - pos.releasedCollateral size
    size := pos.size - size }

/-- Funding of a slice after zero-sum scaling and the protocol's cut. -/
def MarketInfo.fundingShare (m : MarketInfo) (pos : Position) (size : ℤ) (fundingCutBps : ℕ) : ℤ :=
  let zeroSum := zeroSumFunding m pos.isLong
    (calcFundingFee size pos.entryFundingIndex m.accFundingIndex pos.isLong)
  zeroSum - fundingCut fundingCutBps zeroSum

/-- Funding a position receives per unit of size, in index units. -/
def Position.fundingDelta (pos : Position) (m : MarketInfo) : ℤ :=
  if pos.isLong then pos.entryFundingIndex - m.accFundingIndex
  else m.accFundingIndex - pos.entryFundingIndex

/-- The position pays funding, or nobody funds it, or the payers can fund the whole
receiving side. -/
def MarketInfo.Unscaled (m : MarketInfo) (pos : Position) : Prop :=
  calcFundingFee pos.size pos.entryFundingIndex m.accFundingIndex pos.isLong ≤ 0 ∨
    m.openInterest (!pos.isLong) = 0 ∨ m.openInterest pos.isLong ≤ m.openInterest (!pos.isLong)

instance (m : MarketInfo) (pos : Position) : Decidable (m.Unscaled pos) :=
  inferInstanceAs (Decidable (_ ∨ _ ∨ _))

/-- The health a close of `size` is paid by. -/
def MarketTick.sliceHealth (tick : MarketTick) (pos : Position) (size : ℤ)
    (fundingCutBps : ℕ) : ℤ :=
  (tick.evaluate pos size (pos.releasedCollateral size) fundingCutBps).effectiveHealth

theorem MarketTick.sliceHealth_eq (tick : MarketTick) (pos : Position) (size : ℤ) (cut : ℕ) :
    tick.sliceHealth pos size cut = pos.releasedCollateral size +
      calcUnrealizedPnl size pos.entryPrice tick.markPrice pos.isLong -
        calcBorrowFee size pos.entryBorrowIndex tick.market.accBorrowIndex +
          tick.market.fundingShare pos size cut := rfl

/-! ## Released collateral -/

section Collateral

variable {pos : Position}

theorem releasedCollateral_near (hs : 0 < pos.size) (size : ℤ) :
    |(pos.releasedCollateral size : ℚ) - pos.collateral / pos.size * size| < 1 := by
  have hsq : (pos.size : ℚ) ≠ 0 := by exact_mod_cast hs.ne'
  unfold Position.releasedCollateral
  split_ifs with hfull
  · rw [hfull, div_mul_cancel₀ _ hsq, sub_self, abs_zero]
    exact one_pos
  · have h := abs_tdiv_sub_div_lt (pos.collateral * size) hs
    push_cast at h
    rwa [mul_div_right_comm] at h

/-- The collateral left behind is still in proportion, so the next slice misses
its share of the whole by less than two units. -/
theorem releasedCollateral_withoutSlice_near {first second : ℤ} (h1 : 0 < first)
    (h2 : 0 < second) (hle : first + second ≤ pos.size) :
    |((pos.withoutSlice first).releasedCollateral second : ℚ) -
      pos.collateral / pos.size * second| < 2 := by
  have hs : 0 < pos.size := by omega
  have hrest : 0 < (pos.withoutSlice first).size := by
    simp only [Position.withoutSlice]
    omega
  have hfirst := releasedCollateral_near hs first
  have hsecond := releasedCollateral_near hrest second
  have hsq : (0 : ℚ) < pos.size := by exact_mod_cast hs
  have hrq : (0 : ℚ) < (pos.size - first : ℤ) := by
    exact_mod_cast (show 0 < pos.size - first by omega)
  have h2q : (0 : ℚ) < second := by exact_mod_cast h2
  have hfrac : (second : ℚ) / (pos.size - first : ℤ) ≤ 1 := by
    rw [div_le_one hrq]
    exact_mod_cast (show second ≤ pos.size - first by omega)
  have hshift : ((pos.withoutSlice first).collateral : ℚ) / (pos.withoutSlice first).size * second =
      pos.collateral / pos.size * second -
        (pos.releasedCollateral first - pos.collateral / pos.size * first) *
          (second / (pos.size - first : ℤ)) := by
    simp only [Position.withoutSlice]
    push_cast at hrq ⊢
    field_simp
    ring
  rw [hshift] at hsecond
  have hsmall : |(pos.releasedCollateral first - (pos.collateral : ℚ) / pos.size * first) *
      (second / (pos.size - first : ℤ))| < 1 := by
    rw [abs_mul, abs_of_nonneg (div_nonneg h2q.le hrq.le)]
    calc _ ≤ |(pos.releasedCollateral first : ℚ) - pos.collateral / pos.size * first| * 1 :=
          mul_le_mul_of_nonneg_left hfrac (abs_nonneg _)
      _ < 1 := by rwa [mul_one]
  rw [abs_lt] at hsecond hsmall ⊢
  constructor <;> linarith

end Collateral

/-! ## Funding -/

section Funding

variable {m m' : MarketInfo} {pos : Position}

theorem calcFundingFee_eq (m : MarketInfo) (pos : Position) (size : ℤ) :
    calcFundingFee size pos.entryFundingIndex m.accFundingIndex pos.isLong =
      (pos.fundingDelta m * size).tdiv indexPrecision := by
  unfold calcFundingFee Position.fundingDelta
  cases pos.isLong with
  | false => rfl
  | true =>
      simp only [if_true]
      rw [← Int.neg_tdiv]
      congr 1
      ring

/-- A side that the payers can fund receives its fee less the cut. -/
theorem fundingShare_of_funded {size : ℤ} {cut : ℕ} (hcut : cut ≤ 10000)
    (hfee : 0 ≤ (pos.fundingDelta m * size).tdiv indexPrecision)
    (hopen : 0 < m.openInterest pos.isLong)
    (hle : m.openInterest pos.isLong ≤ m.openInterest (!pos.isLong)) :
    |(m.fundingShare pos size cut : ℚ) -
      pos.fundingDelta m / indexPrecision * (1 - (cut : ℚ) / bps) * size| < 2 := by
  have hshare : m.fundingShare pos size cut = (pos.fundingDelta m * size).tdiv indexPrecision -
      ((pos.fundingDelta m * size).tdiv indexPrecision * cut).tdiv bps := by
    simp only [MarketInfo.fundingShare, zeroSumFunding, fundingCut, calcFundingFee_eq]
    obtain hzero | hpos := hfee.eq_or_lt
    · simp [← hzero]
    · rw [if_pos hpos, if_neg (not_le.mpr hopen), if_pos hle, if_pos hpos]
  have hcutLe : (cut : ℤ) ≤ bps := by
    unfold bps
    omega
  have hnear := abs_sub_cut_lt (pos.fundingDelta m * size) (b := indexPrecision) (by decide)
    (Int.natCast_nonneg cut) hcutLe (by decide)
  rw [hshare]
  convert hnear using 2
  push_cast
  ring

/-- A position that pays, or that nobody funds, has one truncated product or nothing. -/
theorem fundingShare_of_payer {cut : ℕ} (size : ℤ)
    (hfee : (pos.fundingDelta m * size).tdiv indexPrecision ≤ 0) :
    m.fundingShare pos size cut = (pos.fundingDelta m * size).tdiv indexPrecision := by
  simp only [MarketInfo.fundingShare, zeroSumFunding, fundingCut, calcFundingFee_eq]
  rw [if_neg (not_lt.mpr hfee), if_neg (not_lt.mpr hfee), sub_zero]

theorem fundingShare_of_unfunded {size : ℤ} {cut : ℕ}
    (hfee : 0 ≤ (pos.fundingDelta m * size).tdiv indexPrecision)
    (hopen : 0 < m.openInterest pos.isLong) (hnone : m.openInterest (!pos.isLong) = 0) :
    m.fundingShare pos size cut = 0 := by
  simp only [MarketInfo.fundingShare, zeroSumFunding, fundingCut, calcFundingFee_eq]
  obtain hzero | hpos := hfee.eq_or_lt
  · simp [← hzero]
  · rw [if_pos hpos, if_neg (not_le.mpr hopen), hnone, if_neg (by omega)]
    simp

/-- Where funding is not scaled down, every slice of the position receives or pays
in proportion, also after other slices have left the side. -/
theorem fundingShare_near {cut : ℕ} (hcut : cut ≤ 10000) (hu : m.Unscaled pos) :
    ∃ rate : ℚ, ∀ (m' : MarketInfo) (size : ℤ), m'.accFundingIndex = m.accFundingIndex →
      m'.openInterest (!pos.isLong) = m.openInterest (!pos.isLong) →
      m'.openInterest pos.isLong ≤ m.openInterest pos.isLong →
      0 < size → size ≤ pos.size → size ≤ m'.openInterest pos.isLong →
      |(m'.fundingShare pos size cut : ℚ) - rate * size| < 2 := by
  have hdelta : ∀ m' : MarketInfo, m'.accFundingIndex = m.accFundingIndex →
      pos.fundingDelta m' = pos.fundingDelta m := by
    intro m' hacc
    rw [Position.fundingDelta, Position.fundingDelta, hacc]
  by_cases hpays : pos.fundingDelta m ≤ 0
  · refine ⟨pos.fundingDelta m / indexPrecision, fun m' size hacc _ _ h0 _ _ => ?_⟩
    have hfee : (pos.fundingDelta m' * size).tdiv indexPrecision ≤ 0 := by
      rw [hdelta m' hacc]
      have hmul := mul_nonpos_of_nonpos_of_nonneg hpays h0.le
      exact (Int.tdiv_le_tdiv (by decide) hmul).trans_eq (Int.zero_tdiv _)
    rw [fundingShare_of_payer size hfee, hdelta m' hacc]
    have hnear := abs_tdiv_sub_div_lt (pos.fundingDelta m * size) (b := indexPrecision) (by decide)
    push_cast at hnear ⊢
    rw [mul_div_right_comm] at hnear
    exact hnear.trans (by norm_num)
  · have hfee : ∀ (m' : MarketInfo) (size : ℤ), m'.accFundingIndex = m.accFundingIndex →
        0 < size → 0 ≤ (pos.fundingDelta m' * size).tdiv indexPrecision := by
      intro m' size hacc h0
      rw [hdelta m' hacc]
      exact Int.tdiv_nonneg (mul_nonneg (by omega) h0.le) (by decide)
    obtain hsmall | hnone | hfunded := hu
    · -- the fee of the whole position truncates to zero, so does each slice's
      refine ⟨0, fun m' size hacc _ _ h0 hsize _ => ?_⟩
      rw [calcFundingFee_eq] at hsmall
      have hle : (pos.fundingDelta m' * size).tdiv indexPrecision ≤ 0 := by
        refine le_trans ?_ hsmall
        rw [hdelta m' hacc]
        exact Int.tdiv_le_tdiv (by decide) (mul_le_mul_of_nonneg_left hsize (by omega))
      rw [fundingShare_of_payer size hle, le_antisymm hle (hfee m' size hacc h0)]
      norm_num
    · refine ⟨0, fun m' size hacc hother _ h0 _ hside => ?_⟩
      rw [fundingShare_of_unfunded (hfee m' size hacc h0) (by omega) (by omega)]
      norm_num
    · refine ⟨pos.fundingDelta m / indexPrecision * (1 - (cut : ℚ) / bps),
        fun m' size hacc hother hsideLe h0 _ hside => ?_⟩
      rw [← hdelta m' hacc]
      exact fundingShare_of_funded hcut (hfee m' size hacc h0) (by omega) (by omega)

end Funding

/-! ## The whole slice -/

section Health

variable {pos : Position} {size : ℤ} {rate : ℚ}

/-- Health per unit of size, once funding runs at `rate`. -/
def MarketTick.healthRate (tick : MarketTick) (pos : Position) (rate : ℚ) : ℚ :=
  pos.collateral / pos.size + priceDiff pos.entryPrice tick.markPrice pos.isLong / pos.entryPrice -
    (tick.market.accBorrowIndex - pos.entryBorrowIndex) / indexPrecision + rate

/-- Profit and borrow fee add one unit of error each to those of collateral and
funding. -/
theorem health_near (tick : MarketTick) {collateral share : ℤ} (error : ℤ) (he : 0 < pos.entryPrice)
    (hcol : |(collateral : ℚ) - pos.collateral / pos.size * size| ≤ error)
    (hshare : |(share : ℚ) - rate * size| < 2) :
    |((collateral + calcUnrealizedPnl size pos.entryPrice tick.markPrice pos.isLong -
        calcBorrowFee size pos.entryBorrowIndex tick.market.accBorrowIndex + share : ℤ) : ℚ) -
      tick.healthRate pos rate * size| ≤ (error + 4 : ℤ) := by
  have hpnl := abs_tdiv_sub_div_lt (size * priceDiff pos.entryPrice tick.markPrice pos.isLong) he
  have hfee := abs_tdiv_sub_div_lt
    ((tick.market.accBorrowIndex - pos.entryBorrowIndex) * size) (b := indexPrecision) (by decide)
  rw [← calcUnrealizedPnl_of_pos _ _ he] at hpnl
  change |(calcBorrowFee size pos.entryBorrowIndex tick.market.accBorrowIndex : ℚ) - _| < 1 at hfee
  have hrate : tick.healthRate pos rate * size = pos.collateral / pos.size * size +
      ((size * priceDiff pos.entryPrice tick.markPrice pos.isLong : ℤ) : ℚ) / pos.entryPrice -
        (((tick.market.accBorrowIndex - pos.entryBorrowIndex) * size : ℤ) : ℚ) / indexPrecision +
          rate * size := by
    unfold MarketTick.healthRate
    push_cast
    ring
  rw [hrate]
  rw [abs_le] at hcol ⊢
  rw [abs_lt] at hpnl hfee hshare
  push_cast at *
  constructor <;> linarith

end Health

end Stellars
