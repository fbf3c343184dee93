import Stellars.SoleAverage

/-!
# How far an average drifts

The average of a side and the entry prices of its positions are truncated separately,
and a removal that leaves nothing to divide clears the average. Still no trade moves the
value of a side away from its average by more than what is open after it.
-/
namespace Stellars
open GuardedRuns KeyedTotals

theorem averagingRemainder_bounds {avg size price added : ℤ} (ha : 0 ≤ avg) (hs : 0 ≤ size)
    (hp : 0 < price) (hd : 0 < added) :
    0 ≤ averagingRemainder avg size price added ∧
      averagingRemainder avg size price added ≤ size + added := by
  have ht : 0 < size + added := by omega
  have hvalue : 0 ≤ avg * size + price * added := by positivity
  simp only [averagingRemainder, if_neg ht.ne']
  split_ifs
  · exact ⟨le_rfl, ht.le⟩
  · exact ⟨Int.tmod_nonneg _ hvalue, (Int.tmod_lt_of_pos _ ht).le⟩

theorem updateGlobalAvgPrice_nonneg {avg size price added : ℤ} (ha : 0 ≤ avg) (hs : 0 ≤ size)
    (hp : 0 < price) (hd : 0 < added) : 0 ≤ updateGlobalAvgPrice avg size price added := by
  have ht : 0 < size + added := by omega
  simp only [updateGlobalAvgPrice, if_neg ht.ne']
  split_ifs
  · exact hp.le
  · exact Int.tdiv_nonneg (by positivity) ht.le

theorem removeFromGlobalAvgPrice_nonneg (avg oi price removed : ℤ) :
    0 ≤ removeFromGlobalAvgPrice avg oi price removed := by
  simp only [removeFromGlobalAvgPrice]
  split_ifs with hleft hvalue
  · exact le_rfl
  · exact le_rfl
  · exact Int.tdiv_nonneg (not_le.mp hvalue).le (not_le.mp hleft).le

namespace Env

variable {A S : Type} [DecidableEq A] [DecidableEq S]

/-- The position, by its trader and market, and the side that a successful trade changes. -/
def settledTrade (erc : Erc4626) (env : Env A S) (op : Op A S) : Option (A × S × Bool) :=
  match op, env.apply erc op with
  | .increase req, .ok _ => some (req.trader, req.symbol, req.isLong)
  | op, _ => (settledClose erc env op).map fun r => (r.trader, r.symbol, r.pos.isLong)

/-- What is open on the side and what is left of the position; a position closed for good
counts nothing. -/
def openAfter (env : Env A S) (trader : A) (symbol : S) (isLong : Bool) : ℤ :=
  (env.getMarket symbol).openInterest isLong + (env.getPosition trader symbol).elim 0 (·.size)

/-- What a trade of the side leaves open; other operations leave the side alone. -/
def driftAllowance (erc : Erc4626) (symbol : S) (isLong : Bool) (env : Env A S) (op : Op A S) : ℤ :=
  (settledTrade erc env op).elim 0 fun trade =>
    if trade.2.1 = symbol ∧ trade.2.2 = isLong then
      (env.step erc op).openAfter trade.1 symbol isLong
    else 0

/-- No position is open on the side. -/
def SideEmpty (env : Env A S) (symbol : S) (isLong : Bool) : Prop :=
  ∀ trader pos, env.getPosition trader symbol = some pos → pos.isLong ≠ isLong

section Sides

variable {erc : Erc4626} {env env' : Env A S} {op : Op A S} {symbol : S} {isLong : Bool}

def AveragesNonneg (env : Env A S) : Prop :=
  ∀ symbol isLong, 0 ≤ (env.getMarket symbol).avgPrice isLong

theorem reachable_averagesNonneg (hr : Reachable erc env) : AveragesNonneg env := by
  apply hr.books_induction
  · intro admin usdc timestamp symbol isLong
    cases isLong <;> exact le_rfl
  · intro env op env' hb hnonneg heff
    apply effect_sides (P := fun _ avg => 0 ≤ avg) _ _ hb hnonneg heff
    · intro oi avg price added hoi hprice hadded havg
      exact updateGlobalAvgPrice_nonneg havg hoi hprice hadded
    · intro oi avg price removed _
      exact removeFromGlobalAvgPrice_nonneg avg oi price removed

theorem value_nonneg (hb : Books env) :
    0 ≤ total (onSide symbol isLong fun pos => pos.size * pos.entryPrice) env.pm.positions := by
  apply total_nonneg
  intro key pos hpos
  have hw := hb.wellFormed key pos hpos
  simp only [onSide]
  split_ifs
  · exact (mul_pos hw.size_pos hw.entry_pos).le
  · exact le_rfl

/-- Sizes are positive, so a side without open interest has no positions. -/
theorem sideEmpty_iff (hb : Books env) :
    env.SideEmpty symbol isLong ↔ (env.getMarket symbol).openInterest isLong = 0 := by
  rw [hb.side]
  constructor
  · intro hempty
    apply total_eq_zero
    rintro ⟨trader, other⟩ pos hpos
    simp only [sideSize, onSide]
    split_ifs with hside
    · obtain ⟨rfl, hlong⟩ := hside
      exact absurd hlong (hempty trader pos hpos)
    · rfl
  · intro hzero trader pos hpos hlong
    have hle := le_total (sideSize_nonneg hb symbol isLong) hpos
    have hsize : sideSize symbol isLong (trader, symbol) pos = pos.size := if_pos ⟨rfl, hlong⟩
    have hw := (hb.wellFormed _ pos hpos).size_pos
    omega

theorem value_of_sideEmpty (hempty : env.SideEmpty symbol isLong) :
    total (onSide symbol isLong fun pos => pos.size * pos.entryPrice) env.pm.positions = 0 := by
  apply total_eq_zero
  rintro ⟨trader, other⟩ pos hpos
  simp only [onSide]
  split_ifs with hside
  · obtain ⟨rfl, hlong⟩ := hside
    exact absurd hlong (hempty trader pos hpos)
  · rfl

theorem positionSize_nonneg (hb : Books env) (trader : A) :
    0 ≤ (env.getPosition trader symbol).elim 0 (·.size) := by
  cases hpos : env.getPosition trader symbol with
  | none => exact le_rfl
  | some pos => exact (hb.wellFormed _ pos hpos).size_pos.le

theorem openAfter_nonneg (hb : Books env) (trader : A) : 0 ≤ env.openAfter trader symbol isLong :=
  add_nonneg (openInterest_nonneg hb symbol isLong) (positionSize_nonneg hb trader)

end Sides

section Steps

variable {erc : Erc4626} {env env' : Env A S} {op : Op A S} {symbol : S} {isLong : Bool}

/-- An increase loses less than the new open interest in one division and less than the
new size in the other. -/
theorem abs_averageGap_increase (hb : Books env) (hnonneg : AveragesNonneg env)
    {req : IncreaseRequest A S} {pos : Position} (hsize : 0 < req.size)
    (heff : IncreaseEffect env env' req pos) :
    |averageGap symbol isLong env'| ≤ |averageGap symbol isLong env| +
      if req.symbol = symbol ∧ req.isLong = isLong then env'.openAfter req.trader symbol isLong
      else 0 := by
  rw [averageGap_increase heff]
  split_ifs with hside
  · obtain ⟨rfl, rfl⟩ := hside
    have hoi : (env'.getMarket req.symbol).openInterest req.isLong =
        (env.getMarket req.symbol).openInterest req.isLong + req.size := by
      rw [openInterest_getMarket_insert heff.markets, if_pos rfl]
      simp only [openedMarket, MarketInfo.addOpenInterest, MarketInfo.openInterest_setSide,
        if_true, openInterest_freshMarket]
    have hpos : env'.getPosition req.trader req.symbol = some pos := by
      rw [getPosition, heff.positions, AList.lookup_insert]
    have hside := averagingRemainder_bounds (hnonneg req.symbol req.isLong)
      (openInterest_nonneg hb req.symbol req.isLong) heff.price_pos hsize
    have hentry : 0 ≤ (env.getPosition req.trader req.symbol).elim 0 (fun old =>
          averagingLoss old.entryPrice old.size req.price req.size) ∧
        (env.getPosition req.trader req.symbol).elim 0 (fun old =>
          averagingLoss old.entryPrice old.size req.price req.size) ≤ pos.size := by
      obtain ⟨old, hold, _, rfl⟩ | ⟨hnone, rfl⟩ := increasedPosition_cases heff.merged
      · have hw := hb.wellFormed _ old hold
        rw [hold, Option.elim_some, averagingLoss_eq_remainder]
        exact averagingRemainder_bounds hw.entry_pos.le hw.size_pos.le heff.price_pos hsize
      · rw [hnone, Option.elim_none]
        exact ⟨le_rfl, hsize.le⟩
    rw [averagingLoss_eq_remainder]
    apply (abs_add_le _ _).trans
    apply add_le_add_right
    rw [openAfter, hoi, hpos, Option.elim_some]
    exact abs_le.mpr ⟨by omega, by omega⟩
  · rw [add_zero, add_zero]

/-- What a close makes of its side of the market. -/
theorem side_close {r : CloseRequest A S} {env1 : Env A S} (hready : CloseReady env env1 r)
    (heff : CloseEffect env env' r) :
    (env'.getMarket r.symbol).openInterest r.pos.isLong =
        (env.getMarket r.symbol).openInterest r.pos.isLong - r.sizeDelta ∧
      (env'.getMarket r.symbol).avgPrice r.pos.isLong =
        removeFromGlobalAvgPrice ((env.getMarket r.symbol).avgPrice r.pos.isLong)
          ((env.getMarket r.symbol).openInterest r.pos.isLong) r.pos.entryPrice r.sizeDelta := by
  have hmarkets := heff.markets
  rw [CloseRequest.closedMarket, hready.market_eq] at hmarkets
  constructor
  · rw [openInterest_getMarket_insert hmarkets, if_pos rfl, MarketInfo.openInterest_setSide,
      if_pos rfl, openInterest_freshMarket]
  · rw [avgPrice_getMarket_insert hmarkets, if_pos rfl, MarketInfo.avgPrice_setSide, if_pos rfl,
      avgPrice_freshMarket, openInterest_freshMarket]

/-- A removal that divides loses less than the open interest left. One that does not
clears the average: then the gap is the value left, which is none or no more than the
gap was before. -/
theorem abs_averageGap_close (hb' : Books env') {r : CloseRequest A S} {env1 : Env A S}
    (hready : CloseReady env env1 r) (heff : CloseEffect env env' r) :
    |averageGap symbol isLong env'| ≤ |averageGap symbol isLong env| +
      if r.symbol = symbol ∧ r.pos.isLong = isLong then env'.openAfter r.trader symbol isLong
      else 0 := by
  have hgap := averageGap_close symbol isLong hready heff
  split_ifs at hgap ⊢ with hside
  · obtain ⟨rfl, rfl⟩ := hside
    obtain ⟨hoi, havg⟩ := side_close hready heff
    have hleft := openInterest_nonneg hb' r.symbol r.pos.isLong
    have hopen : 0 ≤ env'.openAfter r.trader r.symbol r.pos.isLong := openAfter_nonneg hb' r.trader
    have hvalue : 0 ≤ total (onSide r.symbol r.pos.isLong fun pos => pos.size * pos.entryPrice)
        env'.pm.positions := value_nonneg hb'
    rw [removalLoss_eq_remainder] at hgap
    simp only [removalRemainder, ← hoi] at hgap
    simp only [removeFromGlobalAvgPrice, ← hoi] at havg
    split_ifs at hgap with hcleared
    · have hzero : (env'.getMarket r.symbol).avgPrice r.pos.isLong = 0 := by
        rw [havg]
        split_ifs with h1 h2
        · rfl
        · rfl
        · exact absurd hcleared (by tauto)
      rw [averageGap, hzero, zero_mul, sub_zero] at hgap ⊢
      obtain hempty | hle := hcleared
      · rw [value_of_sideEmpty ((sideEmpty_iff hb').mpr (by omega)), abs_zero]
        positivity
      · rw [abs_of_nonneg hvalue]
        have habs := le_abs_self (averageGap r.symbol r.pos.isLong env)
        omega
    · rw [not_or, not_le, not_le] at hcleared
      have hmod := Int.tmod_nonneg ((env'.getMarket r.symbol).openInterest r.pos.isLong)
        hcleared.2.le
      have hlt := Int.tmod_lt_of_pos ((env.getMarket r.symbol).avgPrice r.pos.isLong *
        (env.getMarket r.symbol).openInterest r.pos.isLong - r.pos.entryPrice * r.sizeDelta)
        hcleared.1
      have hsize : 0 ≤ (env'.getPosition r.trader r.symbol).elim 0 (·.size) :=
        positionSize_nonneg hb' r.trader
      rw [hgap]
      apply (abs_add_le _ _).trans
      apply add_le_add_right
      rw [abs_of_nonneg hmod, openAfter]
      omega
  · rw [hgap, add_zero, add_zero]

variable (symbol isLong) in
theorem abs_averageGap_step (hr : Reachable erc env) (op : Op A S) :
    |averageGap symbol isLong (env.step erc op)| ≤
      |averageGap symbol isLong env| + driftAllowance erc symbol isLong env op := by
  have hb := reachable_books hr
  have hb' := reachable_books (hr.run [op])
  cases hclose : settledClose erc env op with
  | some r =>
      obtain ⟨call, rfl, _, hready, heff⟩ := settledClose_eq_some hclose
      simp only [driftAllowance, settledTrade, hclose, Option.map_some, Option.elim_some]
      exact abs_averageGap_close hb' hready heff
  | none =>
      obtain ⟨hsame, e, herror⟩ | ⟨hok, heff⟩ := step_cases erc env op
      · rw [hsame]
        cases op <;> simp only [driftAllowance, settledTrade, herror, hclose, Option.map_none,
          Option.elim_none, add_zero, le_refl]
      by_cases hop : ∃ req, op = .increase req
      · obtain ⟨req, rfl⟩ := hop
        obtain ⟨_, hsize, pos, heffect⟩ := increasePosition_ok hok
        simp only [driftAllowance, settledTrade, hok, Option.elim_some]
        exact abs_averageGap_increase hb (reachable_averagesNonneg hr) hsize heffect
      · push Not at hop
        have hkept : averageGap symbol isLong (env.step erc op) = averageGap symbol isLong env := by
          rw [averageGap_step, roundedOff_eq_leftOver]
          cases op <;> simp only [leftOver, hclose, Option.elim_none, add_zero]
          exact absurd rfl (hop _)
        rw [hkept]
        cases op <;> simp only [driftAllowance, settledTrade, hclose, Option.map_none,
          Option.elim_none, add_zero, le_refl]
        exact absurd rfl (hop _)

/-- In every run the average of a side times its open interest stays within what the
side's trades have left open of the value of its positions, and an empty side has
neither. -/
theorem average_drift_le (erc : Erc4626) (admin : A) (usdc : Party A → ℕ) (timestamp : ℕ)
    (ops : List (Op A S)) (symbol : S) (isLong : Bool) :
    let start : Env A S := genesis admin usdc timestamp
    let env := run (step erc) start ops
    let average := (env.getMarket symbol).avgPrice isLong * (env.getMarket symbol).openInterest isLong
    let value := total (onSide symbol isLong fun pos => pos.entryPrice * pos.size) env.pm.positions
    |average - value| ≤ sumAlong (step erc) (driftAllowance erc symbol isLong) start ops ∧
      (env.SideEmpty symbol isLong →
        (env.getMarket symbol).avgPrice isLong = 0 ∧ average = 0 ∧ value = 0) := by
  intro start env average value
  have hstart : Reachable erc start := ⟨admin, usdc, timestamp, [], rfl⟩
  have hr : Reachable erc env := hstart.run ops
  have hvalue : value =
      total (onSide symbol isLong fun pos => pos.size * pos.entryPrice) env.pm.positions := by
    simp only [value, mul_comm]
  constructor
  · have hbound := run_bound (φ := fun env => |averageGap symbol isLong env|) ops
      (fun env op (h : Reachable erc env) => h.run [op])
      (fun env op h => abs_averageGap_step symbol isLong h op) hstart
    have hzero : averageGap symbol isLong start = 0 := averageGap_genesis admin usdc timestamp
    simp only [hzero, abs_zero, zero_add] at hbound
    rw [hvalue, abs_sub_comm]
    exact hbound
  · intro hempty
    have hoi := (sideEmpty_iff (reachable_books hr)).mp hempty
    refine ⟨reachable_emptySides hr symbol isLong hoi, ?_, ?_⟩
    · simp only [average, hoi, mul_zero]
    · rw [hvalue, value_of_sideEmpty hempty]

end Steps

end Env

end Stellars
