import Stellars.Accrual
import Stellars.RealizedCash
import Stellars.SliceValue

/-!
# Funding is passed on, not minted

The funding the open positions of a market could claim at the present index is a
potential. An accrual lowers it, since the index moves against the larger side. A
close takes its slice's claim out and credits no more than that, rounding apart.
Opening adds no claim, and merging only the rounding of the mean entry index.
-/
namespace Stellars
open GuardedRuns KeyedTotals TruncatedDivision

section Slices

variable {m : MarketInfo} {pos : Position}

theorem zeroSumFunding_le (m : MarketInfo) (isLong : Bool) (fee : ℤ) :
    zeroSumFunding m isLong fee ≤ fee := by
  simp only [zeroSumFunding]
  split_ifs with hfee hopen hfunded
  · exact hfee.le
  · exact le_rfl
  · push Not at hopen hfunded
    obtain hpayer | hpayer := le_total 0 (m.openInterest (!isLong))
    · exact (share_bounds hfee.le hpayer hopen hfunded.le).2
    · have hneg : 0 ≤ (-(fee * m.openInterest (!isLong))).tdiv (m.openInterest isLong) := by
        apply Int.tdiv_nonneg _ hopen.le
        rw [← mul_neg]
        exact mul_nonneg hfee.le (by omega)
      rw [Int.neg_tdiv] at hneg
      omega
  · exact le_rfl

theorem fundingCut_nonneg (cut : ℕ) (funding : ℤ) : 0 ≤ fundingCut cut funding := by
  unfold fundingCut
  split_ifs with h
  · exact Int.tdiv_nonneg (by positivity) (by decide)
  · exact le_rfl

/-- Scaling and cutting only ever lower what a slice receives. -/
theorem effectiveFunding_le (tick : MarketTick) (pos : Position) (size collateral : ℤ) (cut : ℕ) :
    indexPrecision * (tick.evaluate pos size collateral cut).effectiveFunding ≤
      pos.fundingDelta tick.market * size + indexPrecision := by
  have hscaled := zeroSumFunding_le tick.market pos.isLong
    (calcFundingFee size pos.entryFundingIndex tick.market.accFundingIndex pos.isLong)
  have hcut := fundingCut_nonneg cut (zeroSumFunding tick.market pos.isLong
    (calcFundingFee size pos.entryFundingIndex tick.market.accFundingIndex pos.isLong))
  have hfloor := (mul_tdiv_bounds (pos.fundingDelta tick.market * size)
    (b := indexPrecision) (by decide)).2
  rw [calcFundingFee_eq] at hscaled hcut
  simp only [MarketTick.evaluate, calcFundingFee_eq]
  unfold indexPrecision at *
  omega

end Slices

section Claims

variable {A S : Type} [DecidableEq S]

/-- What a position of `symbol` could claim at the index of `m`, in index units. -/
def fundingClaim (symbol : S) (m : MarketInfo) (key : A × S) (pos : Position) : ℤ :=
  if key.2 = symbol then pos.fundingDelta m * pos.size else 0

theorem fundingClaim_congr {m m' : MarketInfo} (symbol : S)
    (h : m'.accFundingIndex = m.accFundingIndex) :
    fundingClaim (A := A) symbol m' = fundingClaim symbol m := by
  funext key pos
  rw [fundingClaim, fundingClaim, Position.fundingDelta, Position.fundingDelta, h]

/-- A rising index takes from the longs what it gives to the shorts. -/
theorem fundingClaim_moved (symbol : S) (m m' : MarketInfo) (key : A × S) (pos : Position) :
    fundingClaim symbol m' key pos = fundingClaim symbol m key pos +
      ((m.accFundingIndex - m'.accFundingIndex) * sideSize symbol true key pos +
        (m'.accFundingIndex - m.accFundingIndex) * sideSize symbol false key pos) := by
  unfold fundingClaim sideSize onSide Position.fundingDelta
  by_cases hs : key.2 = symbol <;> cases pos.isLong <;> simp [hs] <;> ring

end Claims

namespace Env

variable {A S : Type} [DecidableEq A] [DecidableEq S]

/-- What all open positions of `symbol` together could claim. -/
def fundingClaims (symbol : S) (env : Env A S) : ℤ :=
  total (fundingClaim symbol (env.getMarket symbol)) env.pm.positions

/-- The effective funding a step settles on `symbol`, positive when credited. -/
def settledFunding (erc : Erc4626) (symbol : S) (env : Env A S) (op : Op A S) : ℤ :=
  (settledClose erc env op).elim 0 fun r =>
    if r.symbol = symbol then r.eval.effectiveFunding else 0

def settledCloses (erc : Erc4626) (symbol : S) (env : Env A S) (op : Op A S) : ℤ :=
  (settledClose erc env op).elim 0 fun r => if r.symbol = symbol then 1 else 0

/-- The size that results when a step adds to an existing position of `symbol`. -/
def mergedSize (erc : Erc4626) (symbol : S) (env : Env A S) (op : Op A S) : ℤ :=
  match op, env.apply erc op with
  | .increase req, .ok _ =>
      if req.symbol = symbol then
        (env.getPosition req.trader symbol).elim 0 fun old => old.size + req.size
      else 0
  | _, _ => 0

section Steps

variable {erc : Erc4626} {env env' : Env A S} {op : Op A S} {symbol : S}

omit [DecidableEq A] in
/-- The market's index moves against its larger side. -/
theorem freshMarket_funding_sign (env : Env A S) (symbol : S)
    (h : 0 ≤ (env.getMarket symbol).longOpenInterest + (env.getMarket symbol).shortOpenInterest) :
    0 ≤ ((env.getMarket symbol).longOpenInterest - (env.getMarket symbol).shortOpenInterest) *
      ((env.freshMarket symbol).accFundingIndex - (env.getMarket symbol).accFundingIndex) := by
  have hbase := (BorrowRateConfig.validate_ok env.cfg.borrowRateConfig.2).2.2.2.2.2.2
  rw [freshMarket, accFundingIndex_accrue]
  exact accumulateFundingIndex_sign _ _ (calcFundingRate_sign h hbase)

/-- An accrual lowers the claims by the index's move times the imbalance. -/
theorem claims_accrued_le (hb : Books env) (symbol : S) :
    total (fundingClaim symbol (env.freshMarket symbol)) env.pm.positions ≤
      fundingClaims symbol env := by
  have hlong : (env.getMarket symbol).longOpenInterest =
      total (sideSize symbol true) env.pm.positions := hb.side symbol true
  have hshort : (env.getMarket symbol).shortOpenInterest =
      total (sideSize symbol false) env.pm.positions := hb.side symbol false
  have hl := total_nonneg (sideSize_nonneg hb symbol true)
  have hs := total_nonneg (sideSize_nonneg hb symbol false)
  have hsign := freshMarket_funding_sign env symbol (by omega)
  have hmoved : total (fundingClaim symbol (env.freshMarket symbol)) env.pm.positions =
      fundingClaims symbol env -
        ((env.getMarket symbol).longOpenInterest - (env.getMarket symbol).shortOpenInterest) *
          ((env.freshMarket symbol).accFundingIndex - (env.getMarket symbol).accFundingIndex) := by
    rw [total_congr fun key pos _ =>
      fundingClaim_moved symbol (env.getMarket symbol) (env.freshMarket symbol) key pos]
    rw [total_add, total_add, total_mul_left, total_mul_left, ← hlong, ← hshort, fundingClaims]
    ring
  omega

/-- Whatever an operation does, the index it leaves lowers the claims. -/
theorem claims_at_next_index (hb : Books env) (h : Effect erc env op env') (symbol : S) :
    total (fundingClaim symbol (env'.getMarket symbol)) env.pm.positions ≤
      fundingClaims symbol env := by
  cases hop : refreshes op with
  | none =>
      have hread := read_getMarket_congr (f := (·.accFundingIndex)) (fun _ _ => rfl)
        (effect_markets_of_not_refreshes h hop) symbol
      rw [fundingClaim_congr symbol hread]
      rfl
  | some sm =>
      obtain ⟨other, mark⟩ := sm
      have hr := effect_refreshes h hop
      by_cases hs : symbol = other
      · subst hs
        rw [fundingClaim_congr symbol hr.funding]
        exact claims_accrued_le hb symbol
      · rw [hr.others symbol hs]
        rfl

/-! ## What operations do to the claims -/

omit [DecidableEq A] [DecidableEq S] in
/-- The rounding of the mean entry index is worth at most one raw unit of it. -/
theorem fundingClaim_merge {m : MarketInfo} {old : Position} {req : IncreaseRequest A S}
    (tick : MarketTick) (now : ℕ) (escrow : ℤ) (hs : 0 < old.size) (hd : 0 < req.size)
    (hm : m.accFundingIndex = tick.market.accFundingIndex) :
    (old.increase req tick now escrow).fundingDelta m * (old.size + req.size) ≤
      old.fundingDelta m * old.size + (old.size + req.size) := by
  have ht : 0 < old.size + req.size := by omega
  have hmean := sub_mul_tdiv_bounds
    (old.entryFundingIndex * old.size + tick.market.accFundingIndex * req.size) ht
  rw [← updateGlobalAvgPrice_eq_tdiv hs hd] at hmean
  simp only [Position.fundingDelta, Position.increase, hm]
  split_ifs <;> nlinarith [hmean.1, hmean.2]

theorem claims_increase {req : IncreaseRequest A S} {pos : Position} {m : MarketInfo}
    (hb : Books env) (hd : 0 < req.size) (hok : env.apply erc (.increase req) = .ok env')
    (heff : IncreaseEffect env env' req pos)
    (hm : req.symbol = symbol → m.accFundingIndex = (env.freshMarket symbol).accFundingIndex) :
    total (fundingClaim symbol m) env'.pm.positions ≤
      total (fundingClaim symbol m) env.pm.positions + mergedSize erc symbol env (.increase req) := by
  rw [heff.positions, total_insert]
  simp only [mergedSize, hok]
  by_cases hs : req.symbol = symbol
  · subst hs
    have hindex := hm rfl
    have hclaim : ∀ p : Position,
        fundingClaim req.symbol m (req.trader, req.symbol) p = p.fundingDelta m * p.size :=
      fun p => if_pos rfl
    rw [if_pos rfl, hclaim]
    obtain ⟨old, hold, _, rfl⟩ | ⟨hnone, rfl⟩ := increasedPosition_cases heff.merged
    · have hmerge := fundingClaim_merge (env.freshTick req.symbol req.price) env.timestamp
        (env.escrowOwed req) (hb.wellFormed _ old hold).size_pos hd hindex
      rw [entry_some hold, hclaim, hold, Option.elim_some]
      simp only [Position.increase] at hmerge ⊢
      omega
    · have hnew : (Position.create req (env.freshTick req.symbol req.price) env.timestamp
          (env.escrowOwed req)).fundingDelta m = 0 := by
        simp [Position.create, Position.fundingDelta, freshTick, hindex]
      rw [entry_none hnone, hnone, hnew]
      simp
  · have hzero : entry (fundingClaim symbol m) env.pm.positions (req.trader, req.symbol) = 0 := by
      unfold entry
      cases env.pm.positions.lookup (req.trader, req.symbol) with
      | none => rfl
      | some old => exact if_neg hs
    have hnew : fundingClaim symbol m (req.trader, req.symbol) pos = 0 := if_neg hs
    rw [hzero, hnew, if_neg hs]
    omega

theorem claims_close {r : CloseRequest A S} (hready : CloseReady env (env.freshEnv r.symbol) r)
    (m : MarketInfo) :
    total (fundingClaim symbol m) (env.settledPositions r) =
      total (fundingClaim symbol m) env.pm.positions -
        (if r.symbol = symbol then r.pos.fundingDelta m * r.sizeDelta else 0) := by
  have hwhole : fundingClaim symbol m (r.trader, r.symbol) r.pos =
      if r.symbol = symbol then r.pos.fundingDelta m * r.pos.size else 0 := rfl
  have hpart : fundingClaim symbol m (r.trader, r.symbol) r.remainder =
      if r.symbol = symbol then r.pos.fundingDelta m * (r.pos.size - r.sizeDelta) else 0 := rfl
  rw [total_settledPositions hready.position, hwhole, hpart]
  by_cases hs : r.symbol = symbol
  · rw [if_pos hs, if_pos hs, if_pos hs]
    split_ifs with hfull
    · rw [hfull, add_zero]
    · ring
  · rw [if_neg hs, if_neg hs, if_neg hs, ite_self, sub_zero, add_zero]

/-- A close credits no more than its slice could claim, up to one unit. -/
theorem close_credits_le {r : CloseRequest A S} {m : MarketInfo}
    (hready : CloseReady env (env.freshEnv r.symbol) r)
    (hm : m.accFundingIndex = (env.freshMarket r.symbol).accFundingIndex) :
    indexPrecision * r.eval.effectiveFunding ≤
      r.pos.fundingDelta m * r.sizeDelta + indexPrecision := by
  have hle := effectiveFunding_le r.tick r.pos r.sizeDelta r.collateralDelta
    env.cfg.protocolLimits.1.fundingCutBps
  have hdelta : r.pos.fundingDelta m = r.pos.fundingDelta r.tick.market := by
    rw [Position.fundingDelta, Position.fundingDelta, hm, hready.market_eq]
  rw [← hready.eval, ← hdelta] at hle
  exact hle

theorem mergedSize_nonneg (hb : Books env) : 0 ≤ mergedSize erc symbol env op := by
  unfold mergedSize
  split
  · next req env' hok =>
      obtain ⟨_, hd, _⟩ := increasePosition_ok hok
      split_ifs with hs
      · cases hold : env.getPosition req.trader symbol with
        | none => exact le_rfl
        | some old =>
            have hsize := (hb.wellFormed _ old hold).size_pos
            rw [Option.elim_some]
            omega
      · exact le_rfl
  · exact le_rfl

/-- Other operations leave sizes and entries alone. -/
theorem claims_kept (h : Effect erc env op env') (m : MarketInfo)
    (hincrease : ∀ req, op ≠ .increase req) (hclose : ∀ call, op ≠ .close call) :
    total (fundingClaim symbol m) env'.pm.positions =
      total (fundingClaim symbol m) env.pm.positions := by
  cases h with
  | @increase req => exact absurd rfl (hincrease req)
  | @close call => exact absurd rfl (hclose call)
  | setTpSl position hdelta => exact total_insert_same position rfl
  | @updateIndices _ other _ awake price_pos =>
      exact congrArg (total (fundingClaim symbol m)) (positions_freshEnv env other)
  | quiet h => rw [h.samePositions.positions]

/-! ## Over a run -/

/-- What a step may add to the claims and the credits together. -/
def fundingSlack (erc : Erc4626) (symbol : S) (env : Env A S) (op : Op A S) : ℤ :=
  indexPrecision * settledCloses erc symbol env op + mergedSize erc symbol env op

theorem fundingClaims_close {r : CloseRequest A S} (hb : Books env)
    (hclose : settledClose erc env op = some r) :
    fundingClaims symbol (env.step erc op) ≤ fundingClaims symbol env +
      (fundingSlack erc symbol env op - indexPrecision * settledFunding erc symbol env op) := by
  obtain ⟨call, rfl, hnames, hready, heff⟩ := settledClose_eq_some hclose
  have heffect : Effect erc env (.close call) (env.step erc (.close call)) :=
    .close hnames hready heff
  have hindex := claims_at_next_index hb heffect symbol
  have hmerged : 0 ≤ mergedSize erc symbol env (.close call) := mergedSize_nonneg hb
  rw [fundingClaims, heff.positions, claims_close hready]
  simp only [fundingSlack, settledCloses, settledFunding, hclose, Option.elim_some]
  split_ifs with hs
  · subst hs
    have hfresh := (effect_refreshes heffect rfl).funding
    rw [← hnames.symbol] at hfresh
    have hcredit := close_credits_le hready hfresh
    omega
  · omega

theorem fundingClaims_step (env : Env A S) (op : Op A S) (hb : Books env) :
    fundingClaims symbol (env.step erc op) ≤ fundingClaims symbol env +
      (fundingSlack erc symbol env op - indexPrecision * settledFunding erc symbol env op) := by
  cases hclose : settledClose erc env op with
  | some r => exact fundingClaims_close hb hclose
  | none =>
      have hmerged : 0 ≤ mergedSize erc symbol env op := mergedSize_nonneg hb
      simp only [fundingSlack, settledCloses, settledFunding, hclose, Option.elim_none]
      obtain ⟨heq, -⟩ | ⟨hok, heff⟩ := step_cases erc env op
      · rw [heq]
        omega
      have hindex := claims_at_next_index hb heff symbol
      obtain heq | ⟨_, hnotclose⟩ := settledClose_eq_none hclose
      · rw [heq]
        omega
      by_cases hop : ∃ req, op = .increase req
      · obtain ⟨req, rfl⟩ := hop
        obtain ⟨_, hd, pos, heffect⟩ := increasePosition_ok hok
        have hfresh : req.symbol = symbol → ((env.step erc (.increase req)).getMarket
            symbol).accFundingIndex = (env.freshMarket symbol).accFundingIndex := by
          rintro rfl
          exact (effect_refreshes heff rfl).funding
        have hadded := claims_increase hb hd hok heffect hfresh
        rw [fundingClaims]
        omega
      · push Not at hop
        rw [fundingClaims, claims_kept heff _ hop hnotclose]
        omega

theorem fundingClaims_of_empty (h : ∀ trader, env.getPosition trader symbol = none) :
    fundingClaims symbol env = 0 := by
  apply total_eq_zero
  rintro ⟨trader, other⟩ pos hpos
  apply if_neg
  rintro rfl
  cases (h trader).symm.trans hpos

/-- Over any run that finds and leaves a market without positions, the effective
funding settled on it is at most one unit a close, and one raw unit of the entry
index on the resulting size of each merge. -/
theorem funding_not_minted {ops : List (Op A S)} (hr : Reachable erc env)
    (hstart : ∀ trader, env.getPosition trader symbol = none)
    (hend : ∀ trader, (run (step erc) env ops).getPosition trader symbol = none) :
    indexPrecision * sumAlong (step erc) (settledFunding erc symbol) env ops ≤
      indexPrecision * sumAlong (step erc) (settledCloses erc symbol) env ops +
        sumAlong (step erc) (mergedSize erc symbol) env ops := by
  have hrun : fundingClaims symbol (run (step erc) env ops) ≤ fundingClaims symbol env + _ :=
    run_bound ops (step_preserves fun _ _ _ => effect_books) fundingClaims_step
      (reachable_books hr)
  rw [fundingClaims_of_empty hstart, fundingClaims_of_empty hend, sumAlong_sub, sumAlong_mul] at hrun
  have hslack : sumAlong (step erc) (fundingSlack erc symbol) env ops =
      indexPrecision * sumAlong (step erc) (settledCloses erc symbol) env ops +
        sumAlong (step erc) (mergedSize erc symbol) env ops := by
    rw [← sumAlong_mul, ← sumAlong_add]
    rfl
  omega

/-- A long of 600 grows by 1, pays a short of 300 for a month, and both close. -/
def monthOfFunding : List (Op ℕ ℕ) :=
  [.increase ⟨2, 0, 6000000000, 1000000000, true, 0, 0, 0, 100⟩,
    .increase ⟨3, 0, 3000000000, 1000000000, false, 0, 0, 0, 100⟩, .advance 86400,
    .increase ⟨2, 0, 10000000, 10000000, true, 0, 0, 0, 100⟩, .advance 2592000,
    .close (.decrease 3 0 3000000000 0 100), .close (.decrease 2 0 6010000000 0 100)]

theorem funding_not_minted_monthOfFunding :
    let env := deployed 100000000000 []
    sumAlong (step offsetErc) (settledCloses offsetErc 0) env monthOfFunding = 2 ∧
    indexPrecision * sumAlong (step offsetErc) (settledFunding offsetErc 0) env monthOfFunding ≤
      indexPrecision * sumAlong (step offsetErc) (settledCloses offsetErc 0) env monthOfFunding +
        sumAlong (step offsetErc) (mergedSize offsetErc 0) env monthOfFunding :=
  ⟨by decide +kernel, funding_not_minted (reachable_deployed _ _) (fun _ => rfl) (fun _ => rfl)⟩

end Steps

end Env

end Stellars
