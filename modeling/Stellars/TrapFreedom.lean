import Stellars.MachineIntegers
import Stellars.Protocol
import Stellars.OracleRouter

/-!
# Trap-free accrual

The release profile traps on overflow, so a refresh whose index arithmetic leaves
`i128` reverts the call that asked for it. This module follows that arithmetic
operation by operation and settles for which accepted configurations it returns.
-/
namespace Stellars
open MachineIntegers TruncatedDivision GuardedRuns

def i128 : Format := ⟨i128Min, i128Max, by decide, by decide⟩

theorem checkedMul_of_fits {a b : ℤ} (h : i128.Fits (a * b)) : checkedMul a b = some (a * b) :=
  if_pos h

theorem checkedMul_of_not_fits {a b : ℤ} (h : ¬i128.Fits (a * b)) : checkedMul a b = none :=
  if_neg h

/-! ## Rates in closed form -/

/-- The kinked curve: one slope up to the optimum, the other from there on. -/
def BorrowRateConfig.yearlyBorrowRate (c : BorrowRateConfig) (utilizationBps : ℤ) : ℤ :=
  c.baseBorrowRateBps + (min utilizationBps c.optimalUtilizationBps * c.slope1Bps).tdiv bps +
    (max (utilizationBps - c.optimalUtilizationBps) 0 * c.slope2Bps).tdiv bps

theorem BorrowRateConfig.yearlyBorrowRate_eq (c : BorrowRateConfig) (utilizationBps : ℤ) :
    c.yearlyBorrowRate utilizationBps = calcBorrowRate utilizationBps c.baseBorrowRateBps
      c.slope1Bps c.slope2Bps c.optimalUtilizationBps := by
  unfold yearlyBorrowRate calcBorrowRate
  split_ifs with h
  · simp [min_eq_left h, max_eq_right (show utilizationBps - c.optimalUtilizationBps ≤ 0 by omega)]
  · rw [min_eq_right (by omega), max_eq_left (by omega)]

/-- After `k` halvings nothing is left of the total, or the product fits. -/
def Halved (imbalance total base : ℤ) (k : ℕ) : Prop :=
  total.tdiv (2 ^ k) = 0 ∨ i128.Fits (imbalance.tdiv (2 ^ k) * base)

instance (imbalance total base : ℤ) : DecidablePred (Halved imbalance total base) :=
  fun k => inferInstanceAs (Decidable (total.tdiv (2 ^ k) = 0 ∨ _))

theorem exists_halved (imbalance total base : ℤ) : ∃ k, Halved imbalance total base k := by
  refine ⟨total.natAbs, .inl ?_⟩
  have hlt : total.natAbs < 2 ^ total.natAbs := Nat.lt_two_pow_self
  rw [← Int.natAbs_eq_zero, Int.natAbs_tdiv, Int.natAbs_pow]
  exact Nat.div_eq_of_lt hlt

/-- The imbalance as a share of the total, both halved as often as the product needs. -/
def yearlyFundingRate (longOi shortOi base : ℤ) : ℤ :=
  let k := Nat.find (exists_halved (longOi - shortOi) (longOi + shortOi) base)
  ((longOi - shortOi).tdiv (2 ^ k) * base).tdiv ((longOi + shortOi).tdiv (2 ^ k))

/-- The loop of the source stops at the first such `k`. -/
theorem halvedFundingRate_eq_of_halved {im tot base : ℤ} {k : ℕ} (hk : Halved im tot base (k + 1))
    (hmin : ∀ j, 0 < j → j ≤ k → ¬Halved im tot base j) :
    halvedFundingRate im tot base =
      (im.tdiv (2 ^ (k + 1)) * base).tdiv (tot.tdiv (2 ^ (k + 1))) := by
  induction k generalizing im tot with
  | zero =>
      rw [halvedFundingRate, zero_add, pow_one]
      unfold Halved at hk
      rw [zero_add, pow_one] at hk
      split_ifs with h0
      · rw [h0, Int.tdiv_zero]
      · rw [checkedMul_of_fits (hk.resolve_left h0)]
  | succ k ih =>
      have hhalf : ∀ j, Halved (im.tdiv 2) (tot.tdiv 2) base j ↔ Halved im tot base (j + 1) := by
        intro j
        unfold Halved
        rw [tdiv_tdiv _ _ (by decide), tdiv_tdiv _ _ (by decide), ← pow_succ']
      have hfirst := hmin 1 (by omega) (by omega)
      rw [Halved, not_or, pow_one] at hfirst
      rw [halvedFundingRate, if_neg hfirst.1, checkedMul_of_not_fits hfirst.2]
      simp only
      rw [ih ((hhalf _).mpr hk) fun j hj hle => (hhalf j).not.mpr (hmin _ (by omega) (by omega)),
        tdiv_tdiv _ _ (by decide), tdiv_tdiv _ _ (by decide), ← pow_succ']

theorem yearlyFundingRate_eq (longOi shortOi base : ℤ) :
    yearlyFundingRate longOi shortOi base = calcFundingRate longOi shortOi base := by
  have hk := Nat.find_spec (exists_halved (longOi - shortOi) (longOi + shortOi) base)
  have hmin := fun j => Nat.find_min (exists_halved (longOi - shortOi) (longOi + shortOi) base)
    (m := j)
  simp only [yearlyFundingRate, calcFundingRate]
  generalize Nat.find (exists_halved (longOi - shortOi) (longOi + shortOi) base) = k at hk hmin
  cases k with
  | zero =>
      unfold Halved at hk
      simp only [pow_zero, Int.tdiv_one] at hk ⊢
      split_ifs with h0
      · rw [h0, Int.tdiv_zero]
      · rw [checkedMul_of_fits (hk.resolve_left h0)]
  | succ k =>
      have hzero := hmin 0 (by omega)
      rw [Halved, not_or, pow_zero, Int.tdiv_one, Int.tdiv_one] at hzero
      rw [if_neg hzero.1, checkedMul_of_not_fits hzero.2]
      exact (halvedFundingRate_eq_of_halved hk fun j _ hj => hmin j (by omega)).symm

/-! ## The formulas with their traps -/

namespace Trapping

def calcUtilizationBps (reserved totalAssets : ℤ) : Option ℤ :=
  if totalAssets ≤ 0 then some 0
  else do
    let scaled ← i128.mul reserved bps
    i128.div scaled totalAssets

def calcBorrowRate (utilizationBps baseBorrowRate slope1 slope2 optimalUtil : ℤ) : Option ℤ :=
  if utilizationBps ≤ optimalUtil then do
    let product ← i128.mul utilizationBps slope1
    let quotient ← i128.div product bps
    i128.add baseBorrowRate quotient
  else do
    let product ← i128.mul optimalUtil slope1
    let quotient ← i128.div product bps
    let first ← i128.add baseBorrowRate quotient
    let excess ← i128.sub utilizationBps optimalUtil
    let product' ← i128.mul excess slope2
    let quotient' ← i128.div product' bps
    i128.add first quotient'

/-- The source tests this product itself; halving by the literal 2 cannot trap. -/
def halvedFundingRate (im tot baseFundingRate : ℤ) : Option ℤ :=
  if tot.tdiv 2 = 0 then some 0
  else
    match i128.mul (im.tdiv 2) baseFundingRate with
    | some product => i128.div product (tot.tdiv 2)
    | none => halvedFundingRate (im.tdiv 2) (tot.tdiv 2) baseFundingRate
termination_by tot.natAbs
decreasing_by
  have h0 : tot ≠ 0 := by rintro rfl; simp_all
  rw [Int.natAbs_tdiv]
  exact Nat.div_lt_self (Int.natAbs_pos.mpr h0) (by decide)

def calcFundingRate (longOi shortOi baseFundingRate : ℤ) : Option ℤ := do
  let total ← i128.add longOi shortOi
  if total = 0 then some 0
  else do
    let imbalance ← i128.sub longOi shortOi
    match i128.mul imbalance baseFundingRate with
    | some product => i128.div product total
    | none => halvedFundingRate imbalance total baseFundingRate

/-- Both indices grow by the same formula. -/
def accumulateIndex (currentIndex rateBps : ℤ) (timeDelta : ℕ) : Option ℤ := do
  let scaled ← i128.mul rateBps indexPrecision
  let billed ← i128.mul scaled timeDelta
  let year ← i128.mul bps secondsPerYear
  let growth ← i128.div billed year
  i128.add currentIndex growth

def accumulateBorrowIndex (currentIndex rateBps : ℤ) (timeDelta : ℕ) : Option ℤ :=
  accumulateIndex currentIndex rateBps timeDelta

def accumulateFundingIndex (currentIndex rateBps : ℤ) (timeDelta : ℕ) : Option ℤ :=
  accumulateIndex currentIndex rateBps timeDelta

/-! ### When they return -/

variable {u base slope1 slope2 optimal reserved index rate : ℤ}

/-- Balances below `2 ^ 96` leave room for the factor of ten thousand. -/
theorem calcUtilizationBps_eq (basis : ℤ) (hr : 0 ≤ reserved) (hlt : reserved < 2 ^ 96) :
    calcUtilizationBps reserved basis = some (Stellars.calcUtilizationBps reserved basis) := by
  unfold calcUtilizationBps Stellars.calcUtilizationBps
  split_ifs with h
  · rfl
  · have hfits : i128.Fits (reserved * bps) := by
      refine (Format.fits_of_nonneg (by positivity)).mpr ?_
      simp only [i128, i128Max, bps]
      omega
    rw [Format.mul, Format.checked_of_fits hfits]
    exact Format.div_of_pos hfits (by omega)

theorem calcUtilizationBps_lt (basis : ℤ) (hr : 0 ≤ reserved) (hlt : reserved < 2 ^ 96) :
    Stellars.calcUtilizationBps reserved basis < 2 ^ 96 * bps := by
  unfold Stellars.calcUtilizationBps
  split_ifs with h
  · decide
  · have hle := Int.tdiv_le_self basis (show 0 ≤ reserved * bps by positivity)
    exact hle.trans_lt (mul_lt_mul_of_pos_right hlt (by decide))

/-- Up to the slopes' ceiling the kinked part fits; only the sum with the base can trap. -/
theorem calcBorrowRate_eq (hu : 0 ≤ u) (hlt : u < 2 ^ 96 * bps) (hb : 0 ≤ base)
    (h1 : 0 ≤ slope1) (h12 : slope1 ≤ slope2) (h2 : slope2 ≤ maxSlope2Bps) (ho : 0 ≤ optimal) :
    calcBorrowRate u base slope1 slope2 optimal =
      i128.checked (Stellars.calcBorrowRate u base slope1 slope2 optimal) := by
  have hproduct : ∀ {v s : ℤ}, 0 ≤ v → v ≤ u → 0 ≤ s → s ≤ maxSlope2Bps →
      i128.Fits (v * s) ∧ 0 ≤ (v * s).tdiv bps := by
    intro v s hv hvu hs hs2
    have hle : v * s ≤ 2 ^ 96 * bps * maxSlope2Bps :=
      mul_le_mul (by omega) hs2 hs (by positivity)
    have h0 : 0 ≤ v * s := by positivity
    refine ⟨(Format.fits_of_nonneg h0).mpr (hle.trans (by decide)), Int.tdiv_nonneg h0 (by decide)⟩
  unfold calcBorrowRate Stellars.calcBorrowRate
  split_ifs with h
  · obtain ⟨hfits, _⟩ := hproduct hu le_rfl h1 (by omega)
    simp only [Format.mul, Format.checked_of_fits hfits, Option.bind_eq_bind, Option.bind_some,
      Format.div_of_pos hfits (show 0 < bps by decide)]
    rfl
  · obtain ⟨hfits, hq⟩ := hproduct ho (by omega) h1 (by omega)
    obtain ⟨hfits', hq'⟩ := hproduct (v := u - optimal) (by omega) (by omega) (by omega) h2
    have hfirst : i128.add base ((optimal * slope1).tdiv bps) =
        i128.checked (base + (optimal * slope1).tdiv bps) := rfl
    have hexcess : i128.sub u optimal = some (u - optimal) := by
      refine Format.checked_of_fits ((Format.fits_of_nonneg (by omega)).mpr ?_)
      simp only [i128, i128Max, bps] at *
      omega
    simp only [Format.mul, Format.checked_of_fits hfits, Option.bind_eq_bind, Option.bind_some,
      Format.div_of_pos hfits (show 0 < bps by decide), hexcess, Format.checked_of_fits hfits',
      Format.div_of_pos hfits' (show 0 < bps by decide)]
    by_cases hbase : i128.Fits (base + (optimal * slope1).tdiv bps)
    · rw [hfirst, Format.checked_of_fits hbase]
      rfl
    · have hsum : ¬i128.Fits (base + (optimal * slope1).tdiv bps +
          ((u - optimal) * slope2).tdiv bps) :=
        fun hs => hbase (hs.of_between (.inl ⟨by omega, by omega⟩))
      rw [hfirst, Format.checked, Format.checked, if_neg hbase, if_neg hsum]
      rfl

theorem halvedFundingRate_eq (im : ℤ) {tot : ℤ} (ht : 0 ≤ tot) (base : ℤ) :
    halvedFundingRate im tot base = some (Stellars.halvedFundingRate im tot base) ∧
      i128.Fits (Stellars.halvedFundingRate im tot base) := by
  fun_induction Stellars.halvedFundingRate im tot base with
  | case1 im tot h0 =>
      rw [halvedFundingRate, if_pos h0]
      exact ⟨rfl, i128.fits_zero⟩
  | case2 im tot hne product hproduct =>
      have hpos : 0 < tot.tdiv 2 :=
        lt_of_le_of_ne (Int.tdiv_nonneg ht (by decide)) (Ne.symm hne)
      have hmul : i128.mul (im.tdiv 2) base = some product := hproduct
      have hfits : i128.Fits product := by
        obtain ⟨hfits, rfl⟩ := Format.mul_eq_some.mp hmul
        exact hfits
      rw [halvedFundingRate, if_neg hne, hmul]
      exact ⟨Format.div_of_pos hfits hpos, hfits.tdiv hpos⟩
  | case3 im tot hne hover ih =>
      have hmul : i128.mul (im.tdiv 2) base = none := hover
      rw [halvedFundingRate, if_neg hne, hmul]
      exact ih (Int.tdiv_nonneg ht (by decide))

/-- The funding rate never traps while the sum of the open interests fits. -/
theorem calcFundingRate_eq {longOi shortOi : ℤ} (base : ℤ) (hl : 0 ≤ longOi) (hs : 0 ≤ shortOi)
    (hsum : i128.Fits (longOi + shortOi)) :
    calcFundingRate longOi shortOi base = some (Stellars.calcFundingRate longOi shortOi base) ∧
      i128.Fits (Stellars.calcFundingRate longOi shortOi base) := by
  have htotal : i128.add longOi shortOi = some (longOi + shortOi) := Format.checked_of_fits hsum
  have himbalance : i128.sub longOi shortOi = some (longOi - shortOi) := by
    have hhi := hsum.2
    refine Format.checked_of_fits ⟨?_, ?_⟩ <;> simp only [i128, i128Min, i128Max] at hhi ⊢ <;> omega
  simp only [calcFundingRate, Stellars.calcFundingRate, htotal, himbalance, Option.bind_eq_bind,
    Option.bind_some]
  split_ifs with h0
  · exact ⟨rfl, i128.fits_zero⟩
  · cases hproduct : checkedMul (longOi - shortOi) base with
    | some product =>
        have hmul : i128.mul (longOi - shortOi) base = some product := hproduct
        obtain ⟨hfits, hval⟩ := Format.mul_eq_some.mp hmul
        rw [hmul]
        rw [hval] at hfits
        exact ⟨Format.div_of_pos hfits (by omega), hfits.tdiv (by omega)⟩
    | none =>
        have hmul : i128.mul (longOi - shortOi) base = none := hproduct
        rw [hmul]
        exact halvedFundingRate_eq _ (by omega) base

/-- An index accumulates without a trap exactly if the billed product and the new
index are representable. -/
theorem accumulateIndex_eq_some {timeDelta : ℕ} {index' : ℤ} (hdt : 0 < timeDelta) :
    accumulateIndex index rate timeDelta = some index' ↔
      i128.Fits (rate * indexPrecision * timeDelta) ∧
        i128.Fits (Stellars.accumulateBorrowIndex index rate timeDelta) ∧
        Stellars.accumulateBorrowIndex index rate timeDelta = index' := by
  have hyear : i128.mul bps secondsPerYear = some (bps * secondsPerYear) := by decide
  simp only [accumulateIndex, hyear, Option.bind_eq_bind, Option.bind_eq_some_iff,
    Format.mul_eq_some, Option.some.injEq, exists_eq_left']
  constructor
  · rintro ⟨_, ⟨_, rfl⟩, _, ⟨hbilled, rfl⟩, _, hgrowth, hindex⟩
    obtain ⟨_, _, rfl⟩ := Format.div_eq_some.mp hgrowth
    obtain ⟨hfits, hval⟩ := Format.add_eq_some.mp hindex
    exact ⟨hbilled, hfits, hval⟩
  · rintro ⟨hbilled, hfits, rfl⟩
    have hgrowth := Format.div_of_pos hbilled (show 0 < bps * secondsPerYear by decide)
    exact ⟨_, ⟨hbilled.of_mul (by omega), rfl⟩, _, ⟨hbilled, rfl⟩, _, hgrowth,
      Format.checked_of_fits hfits⟩

end Trapping

namespace OracleRouter

theorem cacheHit_ne_overflow_iff {A Src S : Type} [DecidableEq A] [DecidableEq S]
    (r : OracleRouter A Src S) (config : OracleConfig) (symbol : S) :
    r.cacheHit config symbol ≠ .error .overflow ↔
      ∀ entry, r.cachedPrice symbol = some entry →
        entry.lastUpdate + config.cacheDuration ≤ u64Max := by
  unfold cacheHit
  cases r.cachedPrice symbol with
  | none => simp
  | some entry =>
      by_cases h : u64Max < entry.lastUpdate + config.cacheDuration
      · simp [failIf, h]
      · simp [failIf, h, not_lt.mp h]

end OracleRouter

namespace Env

variable {A S : Type}

/-- The vault's basis as it computes it. -/
def totalAssetsExclPnlChecked (env : Env A S) : Option ℤ := do
  let v ← i128.sub env.totalAssets env.vault.unclaimedFees
  some (if v < 0 then 0 else v)

/-- `accrue` with every operation checked. -/
def accrueChecked (env : Env A S) (market : MarketInfo) : Option MarketInfo := do
  let safeBasis ← env.totalAssetsExclPnlChecked
  if env.timeDelta market > 0 then do
    let c := env.cfg.borrowRateConfig.1
    let utilBps ← Trapping.calcUtilizationBps env.vault.reservedUsdc safeBasis
    let borrowRate ← Trapping.calcBorrowRate utilBps c.baseBorrowRateBps c.slope1Bps c.slope2Bps
      c.optimalUtilizationBps
    let accBorrowIndex ← Trapping.accumulateBorrowIndex market.accBorrowIndex borrowRate
      (env.timeDelta market)
    let fundingRate ← Trapping.calcFundingRate market.longOpenInterest market.shortOpenInterest
      c.baseFundingRateBps
    let accFundingIndex ← Trapping.accumulateFundingIndex market.accFundingIndex fundingRate
      (env.timeDelta market)
    some { market with
      accBorrowIndex := accBorrowIndex
      accFundingIndex := accFundingIndex
      lastIndexUpdate := env.effectiveNow market }
  else some market

/-- Balances and open interest that are not negative and below `2 ^ 96`. -/
structure BalancesFit (env : Env A S) (market : MarketInfo) : Prop where
  reserved : 0 ≤ env.vault.reservedUsdc ∧ env.vault.reservedUsdc < 2 ^ 96
  assets : 0 ≤ env.totalAssets ∧ env.totalAssets < 2 ^ 96
  fees : 0 ≤ env.vault.unclaimedFees ∧ env.vault.unclaimedFees < 2 ^ 96
  longOi : 0 ≤ market.longOpenInterest ∧ market.longOpenInterest < 2 ^ 96
  shortOi : 0 ≤ market.shortOpenInterest ∧ market.shortOpenInterest < 2 ^ 96

/-- Billed over the elapsed seconds the yearly rates, and the indices they move, stay
representable. -/
structure RatesFit (env : Env A S) (market : MarketInfo) : Prop where
  borrow_billed : i128.Fits (env.cfg.borrowRateConfig.1.yearlyBorrowRate
    (VaultView.refresh env).utilizationBps * indexPrecision * env.timeDelta market)
  borrow_index : i128.Fits (market.accBorrowIndex + (env.cfg.borrowRateConfig.1.yearlyBorrowRate
    (VaultView.refresh env).utilizationBps * indexPrecision * env.timeDelta market).tdiv
      (bps * secondsPerYear))
  funding_billed : i128.Fits (yearlyFundingRate market.longOpenInterest market.shortOpenInterest
    env.cfg.borrowRateConfig.1.baseFundingRateBps * indexPrecision * env.timeDelta market)
  funding_index : i128.Fits (market.accFundingIndex + (yearlyFundingRate market.longOpenInterest
    market.shortOpenInterest env.cfg.borrowRateConfig.1.baseFundingRateBps * indexPrecision *
      env.timeDelta market).tdiv (bps * secondsPerYear))

theorem ratesFit_iff (env : Env A S) (market : MarketInfo) :
    env.RatesFit market ↔
      i128.Fits (env.borrowRate (VaultView.refresh env) * indexPrecision *
        env.timeDelta market) ∧
      i128.Fits (accumulateBorrowIndex market.accBorrowIndex
        (env.borrowRate (VaultView.refresh env)) (env.timeDelta market)) ∧
      i128.Fits (env.fundingRate market * indexPrecision * env.timeDelta market) ∧
      i128.Fits (accumulateBorrowIndex market.accFundingIndex (env.fundingRate market)
        (env.timeDelta market)) := by
  have hborrow := env.cfg.borrowRateConfig.1.yearlyBorrowRate_eq
    (VaultView.refresh env).utilizationBps
  have hfunding := yearlyFundingRate_eq market.longOpenInterest market.shortOpenInterest
    env.cfg.borrowRateConfig.1.baseFundingRateBps
  simp only [accumulateBorrowIndex, borrowRate, fundingRate, ← hborrow, ← hfunding]
  constructor
  · rintro ⟨h1, h2, h3, h4⟩
    exact ⟨h1, h2, h3, h4⟩
  · rintro ⟨h1, h2, h3, h4⟩
    exact ⟨h1, h2, h3, h4⟩

theorem totalAssetsExclPnlChecked_eq {env : Env A S} {market : MarketInfo}
    (h : env.BalancesFit market) :
    env.totalAssetsExclPnlChecked = some env.totalAssetsExclPnl := by
  obtain ⟨-, ⟨ha, ha'⟩, ⟨hf, hf'⟩, -, -⟩ := h
  have hsub : i128.sub env.totalAssets env.vault.unclaimedFees =
      some (env.totalAssets - env.vault.unclaimedFees) := by
    refine Format.checked_of_fits ⟨?_, ?_⟩ <;> simp only [i128, i128Min, i128Max] <;> omega
  simp only [totalAssetsExclPnlChecked, hsub, Option.bind_eq_bind, Option.bind_some,
    totalAssetsExclPnl]

/-- With time to bill, the checked accrual returns exactly if the rates fit, and then
it is the accrual of the model. -/
theorem accrueChecked_eq_some {env : Env A S} {market market' : MarketInfo}
    (h : env.BalancesFit market) (hdt : 0 < env.timeDelta market) :
    env.accrueChecked market = some market' ↔
      env.RatesFit market ∧ env.accrue (VaultView.refresh env) market = market' := by
  obtain ⟨hb, h1, h12, h2, ho, -, -⟩ :=
    BorrowRateConfig.validate_ok env.cfg.borrowRateConfig.2
  have ho' : 0 ≤ env.cfg.borrowRateConfig.1.optimalUtilizationBps := by omega
  have hutil := Trapping.calcUtilizationBps_eq env.totalAssetsExclPnl h.reserved.1 h.reserved.2
  have hrate := Trapping.calcBorrowRate_eq
    (calcUtilizationBps_nonneg env.totalAssetsExclPnl h.reserved.1)
    (Trapping.calcUtilizationBps_lt env.totalAssetsExclPnl h.reserved.1 h.reserved.2) hb h1 h12 h2
    ho'
  have hsum : i128.Fits (market.longOpenInterest + market.shortOpenInterest) := by
    obtain ⟨-, -, -, ⟨hl, hl'⟩, ⟨hs, hs'⟩⟩ := h
    refine (Format.fits_of_nonneg (by omega)).mpr ?_
    simp only [i128, i128Max]
    omega
  obtain ⟨hfunding, -⟩ := Trapping.calcFundingRate_eq
    env.cfg.borrowRateConfig.1.baseFundingRateBps h.longOi.1 h.shortOi.1 hsum
  simp only [accrueChecked, totalAssetsExclPnlChecked_eq h, if_pos hdt, hutil, hrate, hfunding,
    Option.bind_eq_bind, Option.bind_some, Option.bind_eq_some_iff, Format.checked_eq_some,
    Trapping.accumulateBorrowIndex, Trapping.accumulateFundingIndex,
    Trapping.accumulateIndex_eq_some hdt, Option.some.injEq]
  rw [ratesFit_iff]
  simp only [accrue, if_pos hdt, borrowRate, fundingRate, VaultView.utilizationBps,
    VaultView.refresh]
  constructor
  · rintro ⟨_, ⟨_, rfl⟩, _, ⟨hbilled, hindex, rfl⟩, _, ⟨hbilled', hindex', rfl⟩, rfl⟩
    exact ⟨⟨hbilled, hindex, hbilled', hindex'⟩, rfl⟩
  · rintro ⟨⟨hbilled, hindex, hbilled', hindex'⟩, rfl⟩
    have hrate' := hbilled.of_mul (show (0 : ℤ) < env.timeDelta market by omega)
    exact ⟨_, ⟨hrate'.of_mul (by decide), rfl⟩, _, ⟨hbilled, hindex, rfl⟩, _,
      ⟨hbilled', hindex', rfl⟩, rfl⟩

/-- A refresh and a cache check return exactly if the billed rates fit and the cached
price expires at a representable time. -/
theorem accepted_config_trap_free_iff {Src : Type} [DecidableEq A] [DecidableEq S]
    (env : Env A S) (market : MarketInfo) (r : OracleRouter A Src S)
    (config : CheckedOracleConfig) (symbol : S) (h : env.BalancesFit market) :
    (env.accrueChecked market).isSome ∧ r.cacheHit config.1 symbol ≠ .error .overflow ↔
      (env.timeDelta market = 0 ∨ env.RatesFit market) ∧
        ∀ entry, r.cachedPrice symbol = some entry →
          entry.lastUpdate + config.1.cacheDuration ≤ u64Max := by
  have haccrue : (env.accrueChecked market).isSome ↔
      env.timeDelta market = 0 ∨ env.RatesFit market := by
    obtain hdt | hdt := Nat.eq_zero_or_pos (env.timeDelta market)
    · simp [accrueChecked, totalAssetsExclPnlChecked_eq h, hdt]
    · rw [Option.isSome_iff_exists]
      simp only [accrueChecked_eq_some h hdt, exists_and_left, exists_eq', and_true]
      exact ⟨.inr, fun hrates => hrates.resolve_left hdt.ne'⟩
  rw [haccrue, r.cacheHit_ne_overflow_iff]

section Scenario

/-- The admin sets the largest base rate there is, which `validate` accepts. -/
def largestBaseRate : Env ℕ ℕ :=
  deployed 1000 [.config 0 (.updateBorrowRateConfig ⟨i128Max, 0, 0, 1, 0⟩), .advance 1]

theorem balancesFit_largestBaseRate : largestBaseRate.BalancesFit (.empty 1000) := by
  refine ⟨?_, ?_, ?_, ?_, ?_⟩ <;> decide +kernel

theorem accepted_config_trap_free_iff_largestBaseRate :
    (largestBaseRate.accrueChecked (.empty 1000)).isSome ∧
        (OracleRouter.genesis 0 1001 : OracleRouter ℕ ℕ ℕ).cacheHit ⟨60, 100, 30, 2⟩ 0 ≠
          .error .overflow ↔
      (largestBaseRate.timeDelta (.empty 1000) = 0 ∨
        largestBaseRate.RatesFit (.empty 1000)) ∧
        ∀ entry, (OracleRouter.genesis 0 1001 : OracleRouter ℕ ℕ ℕ).cachedPrice 0 = some entry →
          entry.lastUpdate + 30 ≤ u64Max :=
  accepted_config_trap_free_iff largestBaseRate (.empty 1000) (.genesis 0 1001)
    ⟨⟨60, 100, 30, 2⟩, rfl⟩ 0 balancesFit_largestBaseRate

/-- One second at that rate traps. -/
theorem accepted_config_traps :
    ¬∀ (env : Env ℕ ℕ) (market : MarketInfo) (r : OracleRouter ℕ ℕ ℕ)
      (config : CheckedOracleConfig) (symbol : ℕ), env.BalancesFit market →
      env.timeDelta market ≤ 100 * 31536000 →
      (env.accrueChecked market).isSome ∧ r.cacheHit config.1 symbol ≠ .error .overflow := by
  intro h
  have htrap : ¬(largestBaseRate.accrueChecked (.empty 1000)).isSome := by decide +kernel
  exact htrap (h largestBaseRate (.empty 1000) (.genesis 0 1001) ⟨⟨60, 100, 30, 2⟩, rfl⟩ 0
    balancesFit_largestBaseRate (by decide +kernel)).1

end Scenario

end Env

end Stellars
