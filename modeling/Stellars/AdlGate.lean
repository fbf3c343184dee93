import Stellars.WinnerPayout

/-!
# The gate of auto-deleveraging

A forced close of a winner is admitted when trader profit or the reserved
liquidity has grown too large for the vault. The profit that the gate reads is
the realized total plus the unrealized total as each market was last refreshed.
No later step of the close raises an error of this gate.
-/
namespace Stellars
open GuardedRuns KeyedTotals

/-- A positive amount above `limitBps` of a positive basis. -/
def ExceedsBps (amount basis : ℤ) (limitBps : ℕ) : Prop :=
  0 < amount ∧ 0 < basis ∧ (limitBps : ℤ) < amount * bps / basis

instance (amount basis : ℤ) (limitBps : ℕ) : Decidable (ExceedsBps amount basis limitBps) :=
  inferInstanceAs (Decidable (_ ∧ _))

/-- Errors raised by other contracts than the position manager. -/
def NotPositionManager (e : Error) : Prop := ∀ v, e ≠ .positionManager v

theorem adlPnlRatioBps_gt_iff (view : VaultView) (combinedPnl : ℤ) (limitBps : ℕ) :
    limitBps < view.adlPnlRatioBps combinedPnl ↔
      ExceedsBps combinedPnl view.safeBasis limitBps := by
  unfold VaultView.adlPnlRatioBps ExceedsBps
  split_ifs with h
  · rw [Int.tdiv_eq_ediv_of_nonneg (mul_nonneg h.2.le (by decide))]
    exact ⟨fun hlt => ⟨h.2, h.1, hlt⟩, fun hlt => hlt.2.2⟩
  · refine iff_of_false (by omega) ?_
    rintro ⟨hpnl, hbasis, _⟩
    exact h ⟨hbasis, hpnl⟩

theorem utilizationBps_gt_iff (view : VaultView) (limitBps : ℕ) :
    limitBps < view.utilizationBps ↔ ExceedsBps view.reserved view.safeBasis limitBps := by
  unfold VaultView.utilizationBps calcUtilizationBps ExceedsBps
  split_ifs with h
  · refine iff_of_false (by omega) ?_
    rintro ⟨_, hbasis, _⟩
    omega
  · by_cases hpos : 0 < view.reserved
    · rw [Int.tdiv_eq_ediv_of_nonneg (mul_nonneg hpos.le (by decide))]
      exact ⟨fun hlt => ⟨hpos, not_le.mp h, hlt⟩, fun hlt => hlt.2.2⟩
    · have hnum : 0 ≤ -1 * (view.reserved * bps).tdiv view.safeBasis := by
        apply TruncatedDivision.mul_tdiv_nonneg _ (by omega)
        unfold bps
        omega
      exact iff_of_false (by omega) fun hlt => hpos hlt.1

namespace Env

variable {A S : Type} [DecidableEq A] [DecidableEq S]

/-- The unrealized profit outstanding at this mark: the market of `symbol` as it
is now, the others as last refreshed. -/
def outstandingPnl (env : Env A S) (symbol : S) (price : ℤ) : ℤ :=
  env.totalPnlWith symbol ((env.getMarket symbol).unrealizedPnl price)

/-- One of the two triggers is breached by `pnl` or by the reservations. -/
def AdlTriggered (env : Env A S) (pnl : ℤ) : Prop :=
  ExceedsBps pnl env.totalAssetsExclPnl env.cfg.protocolLimits.1.adlPnlBps ∨
    ExceedsBps env.vault.reservedUsdc env.totalAssetsExclPnl
      env.cfg.protocolLimits.1.adlUtilizationBps

instance (env : Env A S) (pnl : ℤ) : Decidable (env.AdlTriggered pnl) :=
  inferInstanceAs (Decidable (_ ∨ _))

section Gate

variable {erc : Erc4626} {env env1 : Env A S} {caller trader : A} {symbol : S} {price : ℤ}

/-- Once a close is under way, the position manager has no objection left. -/
theorem executeClose_notPositionManager {r : CloseRequest A S} (hr : Reachable erc env)
    (hready : CloseReady env env1 r) (hk : r.kind ≠ .liquidation) :
    FailsOnly NotPositionManager ((env.freshEnv r.symbol).executeClose r) := by
  have hb := reachable_books hr
  by_cases hfits : ProfitFitsCache env r
  · exact executeClose_failsOnly hb hready (reachable_fees_nonneg hr)
      (hready.payable_of_fits hb hfits) (fun _ => nofun) (fun hliq => absurd hliq hk)
      (fun _ => nofun)
  · rw [executeClose_reverts hb hready hfits]
    intro e he v
    cases he
    nofun

omit [DecidableEq A] in
theorem refreshTick_failsOnly {E : Error → Prop} (view : VaultView) (h : E .noPrice) :
    FailsOnly E (env.refreshTick symbol view price) :=
  FailsOnly.bind (FailsOnly.bind (FailsOnly.failIf fun _ => h) fun _ _ => FailsOnly.ok _ _)
    fun _ _ => FailsOnly.ok _ _

/-- A breached trigger opens the gate. The totals are those before the call: the
refresh touches the market's indices only. -/
theorem deleverageRequest_failsOnly
    (h : env.AdlTriggered (env.pm.realizedPnl + env.pm.totalUnrealizedPnl)) :
    FailsOnly (fun e => e ≠ .positionManager .adlNotTriggered)
      (env.deleverageRequest trader symbol price) := by
  refine FailsOnly.bind (refreshTick_failsOnly _ nofun) fun ⟨env2, tick⟩ hrefresh => ?_
  obtain ⟨_, rfl, rfl⟩ := refreshTick_eq_ok.mp hrefresh
  refine FailsOnly.bind (FailsOnly.failIf fun hclosed => ?_) fun _ _ => ?_
  · obtain ⟨markets, hfresh⟩ := env.freshEnv_eq symbol
    rw [hfresh] at hclosed
    obtain hpnl | hutil := h
    · exact absurd hclosed.1 (not_le.mpr ((adlPnlRatioBps_gt_iff _ _ _).mpr hpnl))
    · exact absurd hclosed.2 (not_le.mpr ((utilizationBps_gt_iff _ _).mpr hutil))
  · refine FailsOnly.bind (FailsOnly.orFail fun _ => nofun) fun _ _ => ?_
    exact FailsOnly.bind (FailsOnly.failIf fun _ => nofun) fun _ _ => FailsOnly.ok _ _

theorem closeRequest_deleverage_failsOnly
    (h : env.AdlTriggered (env.pm.realizedPnl + env.pm.totalUnrealizedPnl)) :
    FailsOnly (fun e => e ≠ .positionManager .adlNotTriggered)
      (env.closeRequest (.deleverage caller trader symbol price)) :=
  FailsOnly.bind (FailsOnly.failIf fun _ => nofun) fun _ _ => deleverageRequest_failsOnly h

theorem deleverage_not_refused (hr : Reachable erc env)
    (h : env.AdlTriggered (env.pm.realizedPnl + env.pm.totalUnrealizedPnl)) :
    env.closePosition (.deleverage caller trader symbol price) ≠
      .error (.positionManager .adlNotTriggered) := by
  intro he
  cases hrequest : env.closeRequest (.deleverage caller trader symbol price) with
  | error e =>
      rw [closePosition, hrequest, error_bind] at he
      cases he
      exact closeRequest_deleverage_failsOnly h _ hrequest rfl
  | ok result =>
      obtain ⟨env1, r⟩ := result
      have hready := (closeRequest_ok hrequest).1
      have hkind : r.kind ≠ .liquidation := by
        rw [closeRequest_kind hrequest]
        rintro ⟨⟩
      rw [closePosition_of_request hrequest] at he
      exact executeClose_notPositionManager hr hready hkind _ he _ rfl

omit [DecidableEq A] in
/-- A market refreshed at this mark contributes what it is worth at it. -/
theorem outstandingPnl_of_current
    (h : env.getMarketUnrealizedPnl symbol = (env.getMarket symbol).unrealizedPnl price) :
    env.outstandingPnl symbol price = env.pm.totalUnrealizedPnl := by
  rw [outstandingPnl, totalPnlWith, h, sub_self, add_zero]

omit [DecidableEq A] [DecidableEq S] in
theorem AdlTriggered.mono {pnl pnl' : ℤ} (h : env.AdlTriggered pnl) (hle : pnl ≤ pnl') :
    env.AdlTriggered pnl' := by
  obtain ⟨hpos, hbasis, hlimit⟩ | hutil := h
  · refine .inl ⟨by omega, hbasis, hlimit.trans_le (Int.ediv_le_ediv hbasis ?_)⟩
    exact Int.mul_le_mul_of_nonneg_right hle (by decide)
  · exact .inr hutil

/-- A deleverage is not refused for want of a trigger when the stored totals breach
one. They stand for the outstanding profit where no loss is realized on balance and
the target market was last refreshed at this mark. -/
theorem adl_available (erc : Erc4626) (env : Env A S) (caller trader : A) (symbol : S) (price : ℤ)
    (hr : Reachable erc env) :
    (env.AdlTriggered (env.pm.realizedPnl + env.pm.totalUnrealizedPnl) →
      env.closePosition (.deleverage caller trader symbol price) ≠
        .error (.positionManager .adlNotTriggered)) ∧
    (0 ≤ env.pm.realizedPnl →
      env.getMarketUnrealizedPnl symbol = (env.getMarket symbol).unrealizedPnl price →
      env.AdlTriggered (env.outstandingPnl symbol price) →
      env.closePosition (.deleverage caller trader symbol price) ≠
        .error (.positionManager .adlNotTriggered)) := by
  refine ⟨deleverage_not_refused hr, ?_⟩
  intro hrealized hcurrent htriggered
  rw [outstandingPnl_of_current hcurrent] at htriggered
  exact deleverage_not_refused hr (htriggered.mono (by omega))

end Gate

/-! ## Triggers that the gate does not see -/

/-- An open position with a profit at this mark. -/
def Profitable (env : Env A S) (trader : A) (symbol : S) (price : ℤ) : Prop :=
  ∃ pos, env.getPosition trader symbol = some pos ∧
    0 < calcUnrealizedPnl pos.size pos.entryPrice price pos.isLong

/-- A vault of 1000 and a long of 500 opened at 100, an hour later. -/
def openWinner (ops : List (Op ℕ ℕ)) : Env ℕ ℕ :=
  deployed 10000000000
    (.increase ⟨2, 0, 5000000000, 1000000000, true, 0, 0, 0, 1000000000⟩ :: .advance 3600 :: ops)

/-- The same long after another trader has lost 80, refreshed at 300. -/
def winnerAfterLoss : Env ℕ ℕ :=
  deployed 10000000000
    [.increase ⟨3, 0, 8000000000, 1000000000, true, 0, 0, 0, 1000000000⟩, .advance 3600,
      .close (.decrease 3 0 8000000000 0 900000000),
      .increase ⟨2, 0, 5000000000, 1000000000, true, 0, 0, 0, 1000000000⟩, .advance 3600,
      .updateIndices 0 0 3000000000]

theorem adl_available_openWinner :
    (openWinner [.updateIndices 0 0 3000000000]).closePosition (.deleverage 0 2 0 3000000000) ≠
      .error (.positionManager .adlNotTriggered) :=
  (adl_available offsetErc (openWinner [.updateIndices 0 0 3000000000]) 0 2 0 3000000000
    (reachable_deployed _ _)).2 (by decide +kernel) (by decide +kernel) (by decide +kernel)

/-- The outstanding profit alone does not open the gate: not while the cached one
lags behind the mark, and not while realized losses offset it. -/
theorem adl_missed :
    (¬ ∀ (env : Env ℕ ℕ) (caller trader symbol : ℕ) (price : ℤ), Reachable offsetErc env →
      env.pm.realizedPnl = 0 → env.Profitable trader symbol price →
      env.AdlTriggered (env.outstandingPnl symbol price) →
      env.closePosition (.deleverage caller trader symbol price) ≠
        .error (.positionManager .adlNotTriggered)) ∧
    ¬ ∀ (env : Env ℕ ℕ) (caller trader symbol : ℕ) (price : ℤ), Reachable offsetErc env →
      env.getMarketUnrealizedPnl symbol = (env.getMarket symbol).unrealizedPnl price →
      env.Profitable trader symbol price → env.AdlTriggered (env.outstandingPnl symbol price) →
      env.closePosition (.deleverage caller trader symbol price) ≠
        .error (.positionManager .adlNotTriggered) := by
  constructor
  · intro hopen
    refine hopen (openWinner []) 0 2 0 3000000000 (reachable_deployed _ _) (by decide +kernel) ?_
      (by decide +kernel) (eq_error_of_raised (by decide +kernel))
    exact ⟨⟨1000000000, 5000000000, 1000000000, 100000000000000, 100000000000000, true, 1000, 0, 0,
      0⟩, by decide +kernel, by decide +kernel⟩
  · intro hopen
    refine hopen winnerAfterLoss 0 2 0 3000000000 (reachable_deployed _ _) (by decide +kernel) ?_
      (by decide +kernel) (eq_error_of_raised (by decide +kernel))
    exact ⟨⟨1000000000, 5000000000, 1000000000, 100000569634703, 100000114155251, true, 4600, 0, 0,
      0⟩, by decide +kernel, by decide +kernel⟩

end Env

end Stellars
