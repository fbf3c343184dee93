import Stellars.AggregatePnl
import Stellars.RealizedCash
import Stellars.ReplayedTables

/-!
# Averages kept and averages recomputed

The contract keeps the average price of a side and updates it with every trade, each
time rounding; the indexer recomputes it from the entry prices of the positions, which
have been rounded on their own. The gap between the two is what the trades so far
rounded off, and the recomputed average is the kept one when truncation swallows it.
-/
namespace Stellars
open GuardedRuns KeyedTotals TruncatedDivision

/-- What truncation drops when `added` at `price` is averaged into `size` at `avg`. -/
def averagingLoss (avg size price added : ℤ) : ℤ :=
  avg * size + price * added - updateGlobalAvgPrice avg size price added * (size + added)

/-- What a side's value loses beyond the removed slice. -/
def removalLoss (avg oi removedEntryPrice removed : ℤ) : ℤ :=
  avg * oi - removedEntryPrice * removed -
    removeFromGlobalAvgPrice avg oi removedEntryPrice removed * (oi - removed)

/-- A gap in the value of a side with `oi` open moves its mean by less than a whole unit
of the price. What counts is the mean as it is rounded before it is truncated, so both
bounds are off by half of the last digit. -/
def Numeric.Swallows (num : Numeric) (avg oi gap : ℤ) : Prop :=
  let unit : ℤ := 10 ^ num.scale (avg * oi + gap) oi
  0 ≤ 2 * unit * gap + oi ∧ 2 * unit * gap + oi < 2 * unit * oi

theorem Numeric.truncDiv_eq_iff (num : Numeric) {avg oi gap : ℤ} (ho : 0 < oi)
    (hvalue : 0 < avg * oi + gap) :
    num.truncDiv (avg * oi + gap) oi = avg ↔ num.Swallows avg oi gap := by
  simp only [truncDiv, Swallows]
  set unit : ℤ := 10 ^ num.scale (avg * oi + gap) oi with hunit
  have hpos : 0 < unit := by positivity
  have hden : 0 < 2 * oi * unit := by positivity
  have hsplit : 2 * unit * |avg * oi + gap| + oi = 2 * unit * gap + oi + avg * (2 * oi * unit) := by
    rw [abs_of_pos hvalue]
    ring
  rw [Int.sign_eq_one_of_pos hvalue, one_mul, hsplit, Int.ediv_ediv_of_nonneg (by positivity),
    Int.add_mul_ediv_right _ _ hden.ne', add_eq_right, mul_right_comm 2 unit oi]
  constructor
  · intro hzero
    refine ⟨(Int.ediv_nonneg_iff_of_pos hden).mp hzero.ge, ?_⟩
    have hlt := Int.lt_mul_of_ediv_lt hden (hzero.trans_lt zero_lt_one)
    rwa [one_mul] at hlt
  · rintro ⟨hlo, hhi⟩
    exact Int.ediv_eq_zero_of_lt hlo hhi

namespace Env

variable {A S : Type} [DecidableEq A] [DecidableEq S]

/-- How far the positions of a side are worth more than its average says. -/
def averageGap (symbol : S) (isLong : Bool) (env : Env A S) : ℤ :=
  total (onSide symbol isLong fun pos => pos.size * pos.entryPrice) env.pm.positions -
    (env.getMarket symbol).avgPrice isLong * (env.getMarket symbol).openInterest isLong

/-- What a successful trade rounds off the average of a side, less what it rounds off
the entry price of its own position. -/
def roundedOff (erc : Erc4626) (symbol : S) (isLong : Bool) (env : Env A S) (op : Op A S) : ℤ :=
  let avg := (env.getMarket symbol).avgPrice isLong
  let oi := (env.getMarket symbol).openInterest isLong
  match op, env.apply erc op with
  | .increase req, .ok _ =>
      if req.symbol = symbol ∧ req.isLong = isLong then
        averagingLoss avg oi req.price req.size -
          (env.getPosition req.trader req.symbol).elim 0 fun old =>
            averagingLoss old.entryPrice old.size req.price req.size
      else 0
  | op, _ => (settledClose erc env op).elim 0 fun r =>
      if r.symbol = symbol ∧ r.pos.isLong = isLong then
        removalLoss avg oi r.pos.entryPrice r.sizeDelta
      else 0

section Steps

variable {erc : Erc4626} {env env' : Env A S} {op : Op A S} {symbol : S} {isLong : Bool}

/-- What an increase adds to the value of its side, at the position's own entry price. -/
theorem value_increase {req : IncreaseRequest A S} {pos : Position}
    (heff : IncreaseEffect env env' req pos) :
    total (onSide symbol isLong fun pos => pos.size * pos.entryPrice) env'.pm.positions =
      total (onSide symbol isLong fun pos => pos.size * pos.entryPrice) env.pm.positions +
        if req.symbol = symbol ∧ req.isLong = isLong then
          req.price * req.size - (env.getPosition req.trader req.symbol).elim 0 fun old =>
            averagingLoss old.entryPrice old.size req.price req.size
        else 0 := by
  rw [heff.positions, total_insert]
  obtain ⟨old, hold, hside, rfl⟩ | ⟨hnone, rfl⟩ := increasedPosition_cases heff.merged
  · rw [entry_some hold, hold, Option.elim_some]
    simp only [onSide, Position.increase, hside, averagingLoss, freshTick]
    split_ifs <;> ring
  · rw [entry_none hnone, hnone, Option.elim_none]
    have hvalue : onSide symbol isLong (fun pos => pos.size * pos.entryPrice)
        (req.trader, req.symbol) (Position.create req (env.freshTick req.symbol req.price)
          env.timestamp (env.escrowOwed req)) =
          if req.symbol = symbol ∧ req.isLong = isLong then req.size * req.price else 0 := rfl
    rw [hvalue]
    split_ifs <;> ring

/-- A close takes its slice off the value of its side, at the position's entry price. -/
theorem value_close {r : CloseRequest A S} {env1 : Env A S} (hready : CloseReady env env1 r)
    (heff : CloseEffect env env' r) :
    total (onSide symbol isLong fun pos => pos.size * pos.entryPrice) env'.pm.positions =
      total (onSide symbol isLong fun pos => pos.size * pos.entryPrice) env.pm.positions +
        if r.symbol = symbol ∧ r.pos.isLong = isLong then -(r.pos.entryPrice * r.sizeDelta)
        else 0 := by
  have hwhole : onSide symbol isLong (fun pos => pos.size * pos.entryPrice) (r.trader, r.symbol)
      r.pos = if r.symbol = symbol ∧ r.pos.isLong = isLong then r.pos.size * r.pos.entryPrice
        else 0 := rfl
  have hpart : onSide symbol isLong (fun pos => pos.size * pos.entryPrice) (r.trader, r.symbol)
      r.remainder = if r.symbol = symbol ∧ r.pos.isLong = isLong then
        (r.pos.size - r.sizeDelta) * r.pos.entryPrice else 0 := rfl
  rw [heff.positions, total_settledPositions hready.position, hwhole, hpart]
  by_cases hfull : r.sizeDelta = r.pos.size
  · rw [if_pos hfull, hfull]
    split_ifs <;> ring
  · rw [if_neg hfull]
    split_ifs <;> ring

omit [DecidableEq A] in
/-- One side of a refreshed market is rewritten, and its positions change in value. -/
theorem averageGap_setSide {other : S} {side : Bool} {oi avg change : ℤ}
    (hmarkets : env'.pm.markets =
      env.pm.markets.insert other ((env.freshMarket other).setSide side oi avg))
    (hvalue : total (onSide symbol isLong fun pos => pos.size * pos.entryPrice) env'.pm.positions =
      total (onSide symbol isLong fun pos => pos.size * pos.entryPrice) env.pm.positions +
        if other = symbol ∧ side = isLong then change else 0) :
    averageGap symbol isLong env' = averageGap symbol isLong env +
      if other = symbol ∧ side = isLong then
        change - (avg * oi - (env.getMarket symbol).avgPrice isLong *
          (env.getMarket symbol).openInterest isLong)
      else 0 := by
  unfold averageGap
  rw [hvalue, avgPrice_getMarket_insert hmarkets, openInterest_getMarket_insert hmarkets]
  by_cases hs : other = symbol
  · subst hs
    rw [if_pos rfl, if_pos rfl, MarketInfo.avgPrice_setSide, MarketInfo.openInterest_setSide]
    by_cases hside : side = isLong
    · subst hside
      simp only [and_self, if_true]
      ring
    · simp only [hside, Ne.symm hside, and_false, if_false, avgPrice_freshMarket,
        openInterest_freshMarket, add_zero]
  · simp only [hs, Ne.symm hs, false_and, if_false, add_zero]

theorem averageGap_increase {req : IncreaseRequest A S} {pos : Position}
    (heff : IncreaseEffect env env' req pos) :
    averageGap symbol isLong env' = averageGap symbol isLong env +
      if req.symbol = symbol ∧ req.isLong = isLong then
        averagingLoss ((env.getMarket symbol).avgPrice isLong)
            ((env.getMarket symbol).openInterest isLong) req.price req.size -
          (env.getPosition req.trader req.symbol).elim 0 fun old =>
            averagingLoss old.entryPrice old.size req.price req.size
      else 0 := by
  rw [averageGap_setSide heff.markets (value_increase heff)]
  refine congrArg _ (if_ctx_congr Iff.rfl ?_ fun _ => rfl)
  rintro ⟨rfl, rfl⟩
  simp only [avgPrice_freshMarket, openInterest_freshMarket, averagingLoss]
  ring

variable (symbol isLong) in
theorem averageGap_close {r : CloseRequest A S} {env1 : Env A S} (hready : CloseReady env env1 r)
    (heff : CloseEffect env env' r) :
    averageGap symbol isLong env' = averageGap symbol isLong env +
      if r.symbol = symbol ∧ r.pos.isLong = isLong then
        removalLoss ((env.getMarket symbol).avgPrice isLong)
          ((env.getMarket symbol).openInterest isLong) r.pos.entryPrice r.sizeDelta
      else 0 := by
  have hmarkets := heff.markets
  rw [CloseRequest.closedMarket, hready.market_eq] at hmarkets
  rw [averageGap_setSide hmarkets (value_close hready heff)]
  refine congrArg _ (if_ctx_congr Iff.rfl ?_ fun _ => rfl)
  rintro ⟨rfl, rfl⟩
  simp only [avgPrice_freshMarket, openInterest_freshMarket, removalLoss]
  ring

/-- Operations other than trades keep sizes, entries and averages. -/
theorem averageGap_kept (h : Effect erc env op env') (hincrease : ∀ req, op ≠ .increase req)
    (hclose : ∀ call, op ≠ .close call) :
    averageGap symbol isLong env' = averageGap symbol isLong env := by
  cases h with
  | @increase req => exact absurd rfl (hincrease req)
  | @close call => exact absurd rfl (hclose call)
  | @setTpSl trader other _ _ pos _ position hdelta =>
      unfold averageGap
      exact congrArg (· - (env.getMarket symbol).avgPrice isLong *
        (env.getMarket symbol).openInterest isLong) (total_insert_same position rfl)
  | @updateIndices _ other _ awake price_pos =>
      have havg := avgPrice_freshEnv env other symbol isLong
      have hoi := openInterest_freshEnv env other symbol isLong
      have hpositions := env.positions_freshEnv other
      unfold averageGap
      rw [← havg, ← hoi, ← hpositions]
      rfl
  | quiet h =>
      have hsame := h.samePositions
      rw [averageGap, hsame.positions, avgPrice_getMarket_congr hsame.markets,
        openInterest_getMarket_congr hsame.markets, averageGap]

/-- A trade moves the gap by what it rounds off, and nothing else moves it. -/
theorem averageGap_step (erc : Erc4626) (symbol : S) (isLong : Bool) (env : Env A S) (op : Op A S) :
    averageGap symbol isLong (env.step erc op) =
      averageGap symbol isLong env + roundedOff erc symbol isLong env op := by
  cases hclose : settledClose erc env op with
  | some r =>
      obtain ⟨call, rfl, _, hready, heff⟩ := settledClose_eq_some hclose
      simp only [roundedOff, hclose, Option.elim_some]
      exact averageGap_close symbol isLong hready heff
  | none =>
      obtain ⟨hsame, e, herror⟩ | ⟨hok, heff⟩ := step_cases erc env op
      · rw [hsame]
        cases op <;> simp only [roundedOff, herror, hclose, Option.elim_none, add_zero]
      by_cases hop : ∃ req, op = .increase req
      · obtain ⟨req, rfl⟩ := hop
        obtain ⟨_, _, pos, heffect⟩ := increasePosition_ok hok
        simp only [roundedOff, hok]
        exact averageGap_increase heffect
      · push Not at hop
        have hnotclose : ∀ call, op ≠ .close call := by
          rintro call rfl
          obtain ⟨⟨env1, r⟩, hrequest, _⟩ := bind_eq_ok.mp hok
          simp only [settledClose, hok, hrequest] at hclose
          cases hclose
        rw [averageGap_kept heff hop hnotclose]
        cases op <;> simp only [roundedOff, hclose, Option.elim_none, add_zero]
        exact absurd rfl (hop _)

/-- Over a run the gap collects what its trades rounded off. -/
theorem averageGap_run (ops : List (Op A S)) :
    averageGap symbol isLong (run (step erc) env ops) = averageGap symbol isLong env +
      sumAlong (step erc) (roundedOff erc symbol isLong) env ops :=
  run_balance' ops fun env op => averageGap_step erc symbol isLong env op

/-! ## What holds of every side -/

omit [DecidableEq A] in
theorem sides_insert {P : ℤ → ℤ → Prop} {other : S} {m : MarketInfo}
    (hsides : ∀ symbol isLong, P ((env.getMarket symbol).openInterest isLong)
      ((env.getMarket symbol).avgPrice isLong))
    (h : env'.pm.markets = env.pm.markets.insert other m)
    (hm : ∀ isLong, P (m.openInterest isLong) (m.avgPrice isLong)) (symbol : S) (isLong : Bool) :
    P ((env'.getMarket symbol).openInterest isLong) ((env'.getMarket symbol).avgPrice isLong) := by
  rw [openInterest_getMarket_insert h, avgPrice_getMarket_insert h]
  split_ifs
  · exact hm isLong
  · exact hsides symbol isLong

/-- A relation between open interest and average holds of every side once adding to a
side and removing from it keep it. -/
theorem effect_sides {P : ℤ → ℤ → Prop}
    (hadd : ∀ oi avg price added, 0 ≤ oi → 0 < price → 0 < added → P oi avg →
      P (oi + added) (updateGlobalAvgPrice avg oi price added))
    (hremove : ∀ oi avg price removed, P oi avg →
      P (oi - removed) (removeFromGlobalAvgPrice avg oi price removed))
    (hb : Books env) (hsides : ∀ symbol isLong, P ((env.getMarket symbol).openInterest isLong)
      ((env.getMarket symbol).avgPrice isLong))
    (h : Effect erc env op env') (symbol : S) (isLong : Bool) :
    P ((env'.getMarket symbol).openInterest isLong) ((env'.getMarket symbol).avgPrice isLong) := by
  cases h with
  | @increase req pos _ awake size_pos effect =>
      apply sides_insert hsides effect.markets
      intro isLong
      have hoi := openInterest_nonneg hb req.symbol req.isLong
      simp only [openedMarket, MarketInfo.addOpenInterest, MarketInfo.avgPrice_setSide,
        MarketInfo.openInterest_setSide, avgPrice_freshMarket, openInterest_freshMarket]
      split_ifs
      · exact hadd _ _ _ _ hoi effect.price_pos size_pos (hsides req.symbol req.isLong)
      · exact hsides req.symbol isLong
  | @close call r _ names ready effect =>
      apply sides_insert hsides effect.markets
      intro isLong
      simp only [CloseRequest.closedMarket, MarketInfo.avgPrice_setSide,
        MarketInfo.openInterest_setSide, ready.market_eq, avgPrice_freshMarket,
        openInterest_freshMarket]
      split_ifs
      · exact hremove _ _ _ _ (hsides r.symbol r.pos.isLong)
      · exact hsides r.symbol isLong
  | setTpSl position hdelta => exact hsides symbol isLong
  | @updateIndices _ other _ awake price_pos =>
      have hoi := openInterest_freshEnv env other symbol isLong
      have havg := avgPrice_freshEnv env other symbol isLong
      have hside := hsides symbol isLong
      rw [← hoi, ← havg] at hside
      exact hside
  | quiet h =>
      rw [openInterest_getMarket_congr h.samePositions.markets,
        avgPrice_getMarket_congr h.samePositions.markets]
      exact hsides symbol isLong

/-- A side without open interest keeps no average. -/
def EmptySidesCleared (env : Env A S) : Prop :=
  ∀ symbol isLong, (env.getMarket symbol).openInterest isLong = 0 →
    (env.getMarket symbol).avgPrice isLong = 0

theorem effect_emptySides (hb : Books env) (hempty : EmptySidesCleared env)
    (h : Effect erc env op env') : EmptySidesCleared env' := by
  apply effect_sides (P := fun oi avg => oi = 0 → avg = 0) _ _ hb hempty h
  · intro oi avg price added hoi _ hadded _ hzero
    omega
  · intro oi avg price removed _ hzero
    simp only [removeFromGlobalAvgPrice, hzero, le_refl, if_true]

theorem reachable_emptySides (hr : Reachable erc env) : EmptySidesCleared env := by
  apply hr.books_induction
  · intro admin usdc timestamp symbol isLong _
    cases isLong <;> rfl
  · exact fun _ _ _ => effect_emptySides

/-- Every position of an open side is worth something. -/
theorem side_value_pos (hb : Books env)
    (hopen : 0 < (env.getMarket symbol).openInterest isLong) :
    0 < total (onSide symbol isLong fun pos => pos.size * pos.entryPrice) env.pm.positions := by
  rw [hb.side] at hopen
  apply hopen.trans_le
  apply total_le_total
  intro key pos hpos
  have hw := hb.wellFormed key pos hpos
  simp only [sideSize, onSide]
  split_ifs
  · exact le_mul_of_one_le_right hw.size_pos.le hw.entry_pos
  · exact le_rfl

/-- The recomputed average is the kept one when truncation swallows the gap. -/
theorem sideMean_eq_avgPrice_iff (num : Numeric) (hr : Reachable erc env) (symbol : S)
    (isLong : Bool) :
    sideMean num env.pm.positions symbol isLong = (env.getMarket symbol).avgPrice isLong ↔
      (0 < (env.getMarket symbol).openInterest isLong →
        num.Swallows ((env.getMarket symbol).avgPrice isLong)
          ((env.getMarket symbol).openInterest isLong) (averageGap symbol isLong env)) := by
  have hb := reachable_books hr
  have hnonneg := openInterest_nonneg hb symbol isLong
  have hvalue : total (onSide symbol isLong fun pos => pos.size * pos.entryPrice)
      env.pm.positions = (env.getMarket symbol).avgPrice isLong *
        (env.getMarket symbol).openInterest isLong + averageGap symbol isLong env := by
    unfold averageGap
    ring
  simp only [sideMean, ← hb.side, gt_iff_lt]
  split_ifs with hopen
  · have hpos := side_value_pos hb hopen
    rw [hvalue] at hpos ⊢
    rw [num.truncDiv_eq_iff hopen hpos]
    exact ⟨fun h _ => h, fun h => h hopen⟩
  · have hzero : (env.getMarket symbol).openInterest isLong = 0 := by omega
    have hcleared := reachable_emptySides hr symbol isLong hzero
    exact ⟨fun _ h => absurd h hopen, fun _ => hcleared.symm⟩

end Steps

end Env

end Stellars
