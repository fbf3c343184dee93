import Stellars.Books

/-!
# Re-averaging an entry price

The entry price of a merged position is the size-weighted arithmetic mean of the
old entry and the mark. Profit divides by the entry price, so the merge is not
neutral: a long loses, and a short gains, the gap between that mean and the
harmonic one. The gap vanishes only when the mark equals the old entry.
-/
namespace Stellars
open GuardedRuns KeyedTotals TruncatedDivision

/-! ## Weighted means of prices -/

section Means

variable {s e d m : ℚ}

/-- Exact profit at `m` before the merge, against after it. -/
theorem arithmetic_mean_gap (hs : 0 < s) (he : 0 < e) (hd : 0 < d) (hm : 0 < m) :
    ((s + d) * (s + d) * m / (e * s + m * d) - (s + d)) - (s * m / e - s) =
      -(s * d * (m - e) ^ 2 / (e * (e * s + m * d))) := by
  have hn : 0 < e * s + m * d := by positivity
  field_simp
  ring

/-- Rounding the mean down to `q` shifts the profit by less than the next whole
price would. -/
theorem floor_mean_shift {t q n : ℚ} (ht : 0 < t) (hm : 0 < m) (hq : 0 < q)
    (hlo : t * q ≤ n) (hhi : n ≤ t * (q + 1)) :
    0 ≤ t * m / q - t * t * m / n ∧ t * m / q - t * t * m / n ≤ t * m / (q * (q + 1)) := by
  have hn : 0 < n := lt_of_lt_of_le (by positivity) hlo
  have hq1 : 0 < q + 1 := by linarith
  have hdiff : t * m / q - t * t * m / n = t * m * (n - t * q) / (q * n) := by
    field_simp
  rw [hdiff]
  constructor
  · apply div_nonneg _ (by positivity)
    exact mul_nonneg (by positivity) (by linarith)
  · rw [div_le_div_iff₀ (by positivity) (by positivity)]
    have hkey : (n - t * q) * (q + 1) ≤ n := by nlinarith
    have hfactor : 0 ≤ t * m * q := by positivity
    calc t * m * (n - t * q) * (q * (q + 1)) = t * m * q * ((n - t * q) * (q + 1)) := by ring
      _ ≤ t * m * q * n := mul_le_mul_of_nonneg_left hkey hfactor
      _ = t * m * (q * n) := by ring

end Means

/-! ## Integer profit against exact profit -/

/-- The profit of `size` without rounding. -/
def exactPnl (size entryPrice markPrice : ℚ) (isLong : Bool) : ℚ :=
  if isLong then size * markPrice / entryPrice - size
  else size - size * markPrice / entryPrice

theorem calcUnrealizedPnl_near (size markPrice : ℤ) {entryPrice : ℤ} (isLong : Bool)
    (he : 0 < entryPrice) :
    |(calcUnrealizedPnl size entryPrice markPrice isLong : ℚ) -
      exactPnl size entryPrice markPrice isLong| < 1 := by
  have heq : (entryPrice : ℚ) ≠ 0 := by exact_mod_cast he.ne'
  have hexact : exactPnl size entryPrice markPrice isLong =
      ((size * priceDiff entryPrice markPrice isLong : ℤ) : ℚ) / entryPrice := by
    cases isLong <;>
      simp only [exactPnl, priceDiff, if_true, Bool.false_eq_true, if_false, Int.cast_mul,
        Int.cast_sub] <;> field_simp
  rw [calcUnrealizedPnl_of_pos markPrice isLong he, hexact]
  exact abs_tdiv_sub_div_lt _ he

/-- The exact gap of one merge: `added` at `markPrice` into `size` at `entryPrice`. -/
def meanGap (size entryPrice added markPrice : ℚ) (isLong : Bool) : ℚ :=
  let gap := size * added * (markPrice - entryPrice) ^ 2 /
    (entryPrice * (entryPrice * size + markPrice * added))
  if isLong then -gap else gap

theorem meanGap_eq_zero_iff {size entryPrice added markPrice : ℤ} (isLong : Bool)
    (hs : 0 < size) (he : 0 < entryPrice) (hd : 0 < added) (hm : 0 < markPrice) :
    meanGap size entryPrice added markPrice isLong = 0 ↔ markPrice = entryPrice := by
  have hsq : (0 : ℚ) < size := by exact_mod_cast hs
  have heq : (0 : ℚ) < entryPrice := by exact_mod_cast he
  have hdq : (0 : ℚ) < added := by exact_mod_cast hd
  have hmq : (0 : ℚ) < markPrice := by exact_mod_cast hm
  have hden : (entryPrice : ℚ) * (entryPrice * size + markPrice * added) ≠ 0 := by positivity
  have hgap : (size : ℚ) * added * (markPrice - entryPrice) ^ 2 /
      (entryPrice * (entryPrice * size + markPrice * added)) = 0 ↔ markPrice = entryPrice := by
    rw [div_eq_zero_iff, or_iff_left hden, mul_eq_zero, or_iff_right (by positivity),
      pow_eq_zero_iff two_ne_zero, sub_eq_zero, Int.cast_inj]
  cases isLong with
  | true => simpa only [meanGap, if_true, neg_eq_zero] using hgap
  | false => simpa only [meanGap, Bool.false_eq_true, if_false] using hgap

/-- What one raw unit of the entry price is worth at the mark. -/
def entryUnitEffect (size entryPrice markPrice : ℚ) : ℚ :=
  size * markPrice / (entryPrice * (entryPrice + 1))

theorem merged_entry_bounds {size entryPrice added markPrice : ℤ} (hs : 0 < size)
    (he : 0 < entryPrice) (hd : 0 < added) (hm : 0 < markPrice) :
    let merged := updateGlobalAvgPrice entryPrice size markPrice added
    0 < merged ∧ (size + added) * merged ≤ entryPrice * size + markPrice * added ∧
      entryPrice * size + markPrice * added < (size + added) * (merged + 1) := by
  have ht : 0 < size + added := by omega
  have hn : 0 ≤ entryPrice * size + markPrice * added := by positivity
  obtain ⟨hlo, hhi⟩ := tdiv_nonneg_bounds hn ht
  refine ⟨updateGlobalAvgPrice_pos (.inr he) hs.le hm hd, ?_, ?_⟩
  · rw [updateGlobalAvgPrice_eq_tdiv hs hd]
    exact hlo
  · rw [updateGlobalAvgPrice_eq_tdiv hs hd, mul_add, mul_one]
    exact hhi

/-- The exact profit of the merged position is off by the gap, up to the floor
of its entry price. -/
theorem exactPnl_merge {size entryPrice added markPrice : ℤ} (isLong : Bool) (hs : 0 < size)
    (he : 0 < entryPrice) (hd : 0 < added) (hm : 0 < markPrice) :
    let merged := updateGlobalAvgPrice entryPrice size markPrice added
    |exactPnl (size + added) merged markPrice isLong - exactPnl size entryPrice markPrice isLong -
        meanGap size entryPrice added markPrice isLong| ≤
      entryUnitEffect (size + added) merged markPrice := by
  intro merged
  obtain ⟨hq, hlo, hhi⟩ := merged_entry_bounds hs he hd hm
  have hsq : (0 : ℚ) < size := by exact_mod_cast hs
  have heq : (0 : ℚ) < entryPrice := by exact_mod_cast he
  have hdq : (0 : ℚ) < added := by exact_mod_cast hd
  have hmq : (0 : ℚ) < markPrice := by exact_mod_cast hm
  have hqq : (0 : ℚ) < merged := by exact_mod_cast hq
  have hloq : ((size : ℚ) + added) * merged ≤ entryPrice * size + markPrice * added := by
    exact_mod_cast hlo
  have hhiq : (entryPrice : ℚ) * size + markPrice * added ≤ (size + added) * (merged + 1) := by
    exact_mod_cast hhi.le
  obtain ⟨h0, hle⟩ := floor_mean_shift (by positivity) hmq hqq hloq hhiq
  have hgap := arithmetic_mean_gap hsq heq hdq hmq
  cases isLong with
  | true =>
      simp only [exactPnl, meanGap, entryUnitEffect, if_true, abs_le]
      constructor <;> linarith
  | false =>
      simp only [exactPnl, meanGap, entryUnitEffect, Bool.false_eq_true, if_false, abs_le]
      constructor <;> linarith

namespace Env

variable {A S : Type} [DecidableEq A] [DecidableEq S]

/-- Adding to an open position at the mark changes its profit by the gap of the
arithmetic mean, up to one raw unit of the new entry price and two USDC units.
Only at the old entry price is there no gap. -/
theorem increase_shifts_pnl {env env' : Env A S} {req : IncreaseRequest A S} {old new : Position}
    (h : env.doIncreasePosition req = .ok env')
    (hold : env.getPosition req.trader req.symbol = some old)
    (hnew : env'.getPosition req.trader req.symbol = some new)
    (hsize : 0 < old.size) (hentry : 0 < old.entryPrice) (hadded : 0 < req.size) :
    |(calcUnrealizedPnl new.size new.entryPrice req.price new.isLong : ℚ) -
        calcUnrealizedPnl old.size old.entryPrice req.price old.isLong -
        meanGap old.size old.entryPrice req.size req.price old.isLong| ≤
      entryUnitEffect new.size new.entryPrice req.price + 2 ∧
    (meanGap old.size old.entryPrice req.size req.price old.isLong = 0 ↔
      req.price = old.entryPrice) := by
  obtain ⟨pos, heff⟩ := doIncreasePosition_ok h
  have hprice := heff.price_pos
  have hpos : new = pos := by
    rw [getPosition, heff.positions, AList.lookup_insert] at hnew
    exact (Option.some.inj hnew).symm
  obtain ⟨old', hold', _, hmerged⟩ | ⟨hnone, _⟩ := increasedPosition_cases heff.merged
  · obtain rfl : old' = old := Option.some.inj (hold'.symm.trans hold)
    have hq := (merged_entry_bounds hsize hentry hadded hprice).1
    have hmerge := exactPnl_merge old'.isLong hsize hentry hadded hprice
    have hafter := calcUnrealizedPnl_near (old'.size + req.size) req.price old'.isLong hq
    have hbefore := calcUnrealizedPnl_near old'.size req.price old'.isLong hentry
    refine ⟨?_, meanGap_eq_zero_iff _ hsize hentry hadded hprice⟩
    rw [hpos, hmerged]
    simp only [Position.increase, freshTick, Int.cast_add] at hmerge hafter ⊢
    rw [abs_le] at hmerge ⊢
    rw [abs_lt] at hafter hbefore
    constructor <;> linarith
  · rw [hnone] at hold
    cases hold

/-- A long of 1000 at 100, and the same size added at 200. -/
def longAtHundred : Env ℕ ℕ :=
  deployed 1000000000000 [.increase ⟨2, 0, 10000000000, 1000000000, true, 0, 0, 0, 1000000000⟩]

def addAtTwoHundred : IncreaseRequest ℕ ℕ :=
  ⟨2, 0, 10000000000, 1000000000, true, 0, 0, 0, 2000000000⟩

def longMerged : Position :=
  ⟨2000000000, 20000000000, 1500000000, 100000000000000, 100000000000000, true, 1000, 0, 0, 0⟩

theorem increase_shifts_pnl_deployed :
    ∃ env', longAtHundred.doIncreasePosition addAtTwoHundred = .ok env' ∧
      env'.getPosition 2 0 = some longMerged ∧
      |(calcUnrealizedPnl longMerged.size longMerged.entryPrice 2000000000 true : ℚ) -
          calcUnrealizedPnl 10000000000 1000000000 2000000000 true -
          meanGap 10000000000 1000000000 10000000000 2000000000 true| ≤
        entryUnitEffect 20000000000 1500000000 2000000000 + 2 ∧
      (meanGap 10000000000 1000000000 10000000000 2000000000 true = 0 ↔
        (2000000000 : ℤ) = 1000000000) := by
  obtain ⟨env', hok, hnew⟩ := exists_ok_of_bind_eq_some
    (x := longAtHundred.doIncreasePosition addAtTwoHundred) (f := (·.getPosition 2 0))
    (b := longMerged) (by decide +kernel)
  have hold : longAtHundred.getPosition 2 0 = some ⟨1000000000, 10000000000, 1000000000,
      100000000000000, 100000000000000, true, 1000, 0, 0, 0⟩ := by decide +kernel
  obtain ⟨hnear, hgap⟩ := increase_shifts_pnl hok hold hnew (by decide) (by decide) (by decide)
  simp only [addAtTwoHundred, Int.cast_ofNat] at hnear hgap
  exact ⟨env', hok, hnew, hnear, hgap⟩

/-- The change of an integer profit when the entry price moves one raw unit. -/
def entryUnitSwing (pos : Position) (markPrice : ℤ) : ℤ :=
  let pnlAt (entryPrice : ℤ) := calcUnrealizedPnl pos.size entryPrice markPrice pos.isLong
  max |pnlAt (pos.entryPrice + 1) - pnlAt pos.entryPrice|
    |pnlAt (pos.entryPrice - 1) - pnlAt pos.entryPrice|

/-- Merging is not neutral within a raw unit of the entry price: at a mark of
twice the entry, doubling a long of 1000 takes its profit from 1000 to 666.67. -/
theorem increase_not_neutral :
    ¬ ∀ (env env' : Env ℕ ℕ) (req : IncreaseRequest ℕ ℕ) (old new : Position),
      Reachable offsetErc env → env.doIncreasePosition req = .ok env' →
      env.getPosition req.trader req.symbol = some old →
      env'.getPosition req.trader req.symbol = some new →
      |calcUnrealizedPnl new.size new.entryPrice req.price new.isLong -
        calcUnrealizedPnl old.size old.entryPrice req.price old.isLong| ≤
          entryUnitSwing new req.price + 2 := by
  intro hneutral
  obtain ⟨env', hok, hnew⟩ := exists_ok_of_bind_eq_some
    (x := longAtHundred.doIncreasePosition addAtTwoHundred) (f := (·.getPosition 2 0))
    (b := longMerged) (by decide +kernel)
  have hold : longAtHundred.getPosition 2 0 = some ⟨1000000000, 10000000000, 1000000000,
      100000000000000, 100000000000000, true, 1000, 0, 0, 0⟩ := by decide +kernel
  have hle := hneutral longAtHundred env' addAtTwoHundred _ _ (reachable_deployed _ _) hok hold hnew
  revert hle
  decide +kernel

end Env

end Stellars
