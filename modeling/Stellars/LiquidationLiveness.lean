import Stellars.Settlement
import Stellars.WinnerPayout

/-!
# Liveness of liquidations

A liquidation pays nothing out of the vault, so of the vault's guards only the one
on fees can stop it. An underwater close caps its fees at what the vault absorbs.
A close that leaves the trader something does not, and fees that have eaten a
profit can exceed everything the close brings in.
-/
namespace Stellars
open GuardedRuns KeyedTotals

namespace Env

variable {A S : Type} [DecidableEq A] [DecidableEq S]

/-- What the whole position is worth to a liquidation at this mark. -/
def liquidationValue (env : Env A S) (symbol : S) (pos : Position) (price : ℤ) :
    PositionEvaluation :=
  (env.freshTick symbol price).evaluate pos pos.size pos.collateral
    env.cfg.protocolLimits.1.fundingCutBps

/-- The position is open and passes the liquidation gate at this mark. -/
structure PassesGate (env : Env A S) (trader : A) (symbol : S) (pos : Position) (price : ℤ) :
    Prop where
  price_pos : 0 < price
  position : env.getPosition trader symbol = some pos
  gate : (env.liquidationValue symbol pos price).effectiveHealth <
    (pos.collateral * env.cfg.protocolLimits.1.liquidationThresholdBps).tdiv bps

/-- The position is underwater, or the slice of its fees fits beside what the
vault then owes: its free assets, the released reservation and the collateral it
absorbs pay for it. -/
def FeeSliceFits (env : Env A S) (symbol : S) (pos : Position) (price : ℤ) : Prop :=
  let value := env.liquidationValue symbol pos price
  let bounty := pos.collateral * env.cfg.feeConfig.1.liquidationBountyBps / bps
  value.effectiveHealth ≤ 0 ∨
    env.feeSlice (value.borrowFee + value.fundingProtocolCut) ≤
      (env.totalAssets - env.vault.unclaimedFees - env.vault.reservedUsdc) + pos.size +
        (pos.collateral - value.effectiveHealth - bounty)

instance (env : Env A S) (symbol : S) (pos : Position) (price : ℤ) :
    Decidable (env.FeeSliceFits symbol pos price) := inferInstanceAs (Decidable (_ ∨ _))

/-- The close that a liquidation of `pos` asks for. -/
def liquidationOf (env : Env A S) (caller trader : A) (symbol : S) (pos : Position) (price : ℤ) :
    CloseRequest A S :=
  env.fullClose trader symbol pos (env.freshTick symbol price) .liquidation (some caller)

section Liquidation

variable {E : Error → Prop} {erc : Erc4626} {env : Env A S} {caller trader : A} {symbol : S}
  {pos : Position} {price : ℤ}

theorem closeRequest_liquidate (caller : A) (h : env.PassesGate trader symbol pos price) :
    env.closeRequest (.liquidate caller trader symbol price) =
      .ok (env.freshEnv symbol, env.liquidationOf caller trader symbol pos price) := by
  have hrefresh : env.refreshTick symbol (VaultView.refresh env) price =
      .ok (env.freshEnv symbol, env.freshTick symbol price) :=
    refreshTick_eq_ok.mpr ⟨h.price_pos, rfl, rfl⟩
  have hsame : (env.freshEnv symbol).fullClose trader symbol pos (env.freshTick symbol price)
      .liquidation (some caller) = env.liquidationOf caller trader symbol pos price := by
    simp only [liquidationOf, fullClose, cfg_freshEnv]
  have hgate : ¬ (env.liquidationOf caller trader symbol pos price).eval.effectiveHealth ≥
      (pos.collateral * env.cfg.protocolLimits.1.liquidationThresholdBps).tdiv bps :=
    not_le.mpr h.gate
  simp only [closeRequest, liquidateRequest, hrefresh, ok_bind, getPosition_freshEnv, h.position,
    orFail, Option.elim_some, cfg_freshEnv, hsame, failIf, if_neg hgate]

/-- Nothing is paid out of the vault, which absorbs what trader and caller leave. -/
theorem liquidation_absorbs (hb : Books env) (h : env.PassesGate trader symbol pos price)
    {r : CloseRequest A S} (hr : r = env.liquidationOf caller trader symbol pos price) :
    r.vaultToTrader ≤ 0 ∧ 0 ≤ r.vaultAbsorbed env.cfg.feeConfig.1 ∧
      r.vaultAbsorbed env.cfg.feeConfig.1 = pos.collateral - max r.eval.effectiveHealth 0 -
        pos.collateral * env.cfg.feeConfig.1.liquidationBountyBps / bps := by
  have hrequest := closeRequest_liquidate caller h
  rw [← hr] at hrequest
  have hkind : r.kind = .liquidation := by rw [hr]; rfl
  have hcol : r.collateralDelta = pos.collateral := by rw [hr]; rfl
  obtain ⟨hbounty, hpaid, habsorbs⟩ := liquidation_bounty hb hrequest hkind
  have hleft : r.vaultAbsorbed env.cfg.feeConfig.1 =
      r.collateralDelta - r.traderPayout - r.bounty env.cfg.feeConfig.1 := rfl
  refine ⟨?_, habsorbs, ?_⟩
  · rw [CloseRequest.vaultToTrader]
    omega
  · rw [hleft, hbounty, hcol, r.traderPayout_eq_max]

/-- Past the gate, all that is left to ask of the vault concerns the fees. -/
theorem liquidation_fee_fits (hb : Books env) (hsolvent : env.Solvent)
    (h : env.PassesGate trader symbol pos price) {r : CloseRequest A S}
    (hr : r = env.liquidationOf caller trader symbol pos price) :
    env.vault.unclaimedFees + env.feeSlice (r.distributableFees env.cfg.feeConfig.1) +
        (env.vault.reservedUsdc - max r.sizeDelta 0) ≤ env.closeTransfers r .vault ↔
      env.FeeSliceFits symbol pos price := by
  have hvalue : r.eval = env.liquidationValue symbol pos price := by rw [hr]; rfl
  have hwhole : r.sizeDelta = pos.size := by rw [hr]; rfl
  have hsize := (hb.wellFormed _ _ h.position).size_pos
  obtain ⟨hnothing, habsorbs, habsorbed⟩ := liquidation_absorbs hb h hr
  have hpayout := r.traderPayout_eq_max
  simp only [FeeSliceFits, ← hvalue]
  rw [closeTransfers_vault, hwhole, max_eq_left hsize.le, max_eq_right hnothing,
    max_eq_left habsorbs]
  by_cases hunder : r.eval.effectiveHealth ≤ 0
  · -- the cap: at most what the vault absorbs
    have hcap : r.distributableFees env.cfg.feeConfig.1 ≤ r.vaultAbsorbed env.cfg.feeConfig.1 := by
      rw [CloseRequest.distributableFees, if_neg (by omega)]
      exact min_le_right _ _
    have hslice := (env.feeSlice_bounds (r.distributableFees env.cfg.feeConfig.1)).2
    unfold Solvent at hsolvent
    refine iff_of_true ?_ (.inl hunder)
    omega
  · have huncapped : r.distributableFees env.cfg.feeConfig.1 =
        r.eval.borrowFee + r.eval.fundingProtocolCut := by
      rw [CloseRequest.distributableFees, if_pos (by omega)]
    rw [huncapped, or_iff_right hunder]
    constructor <;> intro hfit <;> omega

/-- A liquidation can be stopped by its fee slice, and by nothing else. -/
theorem liquidation_failsOnly (hr : Reachable erc env) (hsolvent : env.Solvent)
    (h : env.PassesGate trader symbol pos price)
    (hfees : ¬ env.FeeSliceFits symbol pos price → E (.vault .feeAccrualExceedsAssets)) :
    FailsOnly E (env.closePosition (.liquidate caller trader symbol price)) := by
  have hb := reachable_books hr
  have hrequest := closeRequest_liquidate caller h
  have hready := (closeRequest_ok hrequest).1
  have hcustody := custody_le hr hready.position
  have hsize := hready.sizeDelta_pos hb
  have hcol := (hready.collateralDelta_bounds hb).2.1
  obtain ⟨hnothing, habsorbs, -⟩ := liquidation_absorbs hb h
    (Eq.refl (env.liquidationOf caller trader symbol pos price))
  rw [closePosition_of_request hrequest]
  refine executeClose_failsOnly hb hready (reachable_fees_nonneg hr)
    (fun hpos => absurd hpos (not_lt.mpr hnothing)) (fun hover => hfees fun hfit => ?_)
    (fun _ => ?_) fun hlt => ?_
  · exact absurd ((liquidation_fee_fits hb hsolvent h rfl).mpr hfit) (not_le.mpr hover)
  · rw [closeTransfers_vault]
    unfold Solvent at hsolvent
    omega
  · omega

/-- Fees that do not fit revert the liquidation. -/
theorem liquidation_reverts (hr : Reachable erc env) (hsolvent : env.Solvent)
    (h : env.PassesGate trader symbol pos price) (hfits : ¬ env.FeeSliceFits symbol pos price) :
    env.closePosition (.liquidate caller trader symbol price) =
      .error (.vault .feeAccrualExceedsAssets) := by
  have hb := reachable_books hr
  have hrequest := closeRequest_liquidate caller h
  have honly : FailsOnly (fun e => e = .vault .feeAccrualExceedsAssets)
      (env.closePosition (.liquidate caller trader symbol price)) :=
    liquidation_failsOnly hr hsolvent h fun _ => rfl
  have hsame := Eq.refl (env.liquidationOf caller trader symbol pos price)
  cases hclose : env.closePosition (.liquidate caller trader symbol price) with
  | error e => rw [honly e hclose]
  | ok env' =>
      -- it went through, so its slice has passed the guard
      rw [closePosition_of_request hrequest] at hclose
      have heffect := executeClose_ok hclose
      refine absurd ((liquidation_fee_fits hb hsolvent h hsame).mp ?_) hfits
      have hsize := ((closeRequest_ok hrequest).1).sizeDelta_pos hb
      obtain ⟨hnothing, -, -⟩ := liquidation_absorbs hb h hsame
      have hslice := (env.feeSlice_bounds ((env.liquidationOf caller trader symbol pos
        price).distributableFees env.cfg.feeConfig.1)).1
      rw [closeTransfers_vault]
      obtain hzero | hpos := hslice.eq_or_lt
      · unfold Solvent at hsolvent
        omega
      · exact heffect.fees_fit hpos

/-- A liquidation past the gate meets no vault guard exactly when its fee slice fits. -/
theorem liquidation_passes_iff (erc : Erc4626) (env : Env A S) (caller trader : A) (symbol : S)
    (pos : Position) (price : ℤ) (hr : Reachable erc env) (hsolvent : env.Solvent)
    (hgate : env.PassesGate trader symbol pos price) :
    (∀ e, env.closePosition (.liquidate caller trader symbol price) ≠ .error (.vault e)) ↔
      env.FeeSliceFits symbol pos price := by
  constructor
  · intro hpass
    by_contra hfits
    exact hpass _ (liquidation_reverts hr hsolvent hgate hfits)
  · intro hfits e he
    exact liquidation_failsOnly (E := NotVault) hr hsolvent hgate
      (fun hnot => absurd hfits hnot) _ he e rfl

/-- A vault of 1000 lent out whole to one long of 1000, under a split of 40 to 60
and a borrow rate of 209.9 percent; a year later its price has tripled. -/
def eatenProfit : Env ℕ ℕ :=
  deployed 10000000000
    [.config 0 (.updateFeeSplits ⟨4000, 3000, 3000⟩),
      .config 0 (.updateProtocolLimits ⟨10000000, 300, 60, 10000, 500, 9000, 9500, 200⟩),
      .config 0 (.updateBorrowRateConfig ⟨20990, 0, 0, 10000, 0⟩),
      .increase ⟨2, 0, 10000000000, 1000000000, true, 0, 0, 0, 1000000000⟩, .advance 31536000]

def eatenLong : Position :=
  ⟨1000000000, 10000000000, 1000000000, 100000000000000, 100000000000000, true, 1000, 0, 0, 0⟩

theorem solvent_eatenProfit : eatenProfit.Solvent := by decide +kernel

theorem passesGate_eatenLong : eatenProfit.PassesGate 2 0 eatenLong 3000000000 :=
  ⟨by decide, by decide +kernel, by decide +kernel⟩

theorem liquidation_passes_iff_eatenLong :
    (∀ e, eatenProfit.closePosition (.liquidate 5 2 0 3000000000) ≠ .error (.vault e)) ↔
      eatenProfit.FeeSliceFits 0 eatenLong 3000000000 :=
  liquidation_passes_iff offsetErc eatenProfit 5 2 0 eatenLong 3000000000
    (reachable_deployed _ _) solvent_eatenProfit passesGate_eatenLong

/-- The fees of this long exceed all the vault has: it cannot be liquidated. -/
theorem liquidation_blocked :
    ¬ ∀ (env : Env ℕ ℕ) (caller trader : ℕ) (symbol : ℕ) (pos : Position) (price : ℤ),
      Reachable offsetErc env → env.Solvent → env.PassesGate trader symbol pos price →
      ∀ e, env.closePosition (.liquidate caller trader symbol price) ≠ .error (.vault e) := by
  intro hlive
  have hreach : Reachable offsetErc eatenProfit := reachable_deployed _ _
  exact hlive eatenProfit 5 2 0 eatenLong 3000000000 hreach solvent_eatenProfit
    passesGate_eatenLong _ (liquidation_reverts hreach solvent_eatenProfit
      passesGate_eatenLong (by decide +kernel))

end Liquidation

end Env

end Stellars
