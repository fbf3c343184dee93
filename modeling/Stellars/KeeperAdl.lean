import Stellars.AdlGate
import Stellars.KeeperMirror

/-!
# The keeper's deleveraging check

The keeper's cold loop starts a deleverage from two mirrored ratios. It divides by
all assets where the contract divides by what is left after the unclaimed fees, and
it reads the unrealized profit alone where the contract adds the realized one.
-/
namespace Stellars
open GuardedRuns

/-- The two limits of the mirrored configuration that the check reads. -/
structure AdlLimitsRow where
  adlPnlBps : ℤ
  adlUtilizationBps : ℤ
  deriving Repr, DecidableEq

/-- Step 3 of the cold tick. Without a vault row or a configuration nothing happens. -/
def keeperAdlTrigger (vault : Option VaultStateRow) (config : Option AdlLimitsRow) : Bool :=
  match vault, config with
  | some vault, some config =>
      if vault.totalAssets > 0 then
        let pnlTrigger := decide (vault.netGlobalTraderPnl > 0 ∧
          (vault.netGlobalTraderPnl * bps).tdiv vault.totalAssets > config.adlPnlBps)
        let utilTrigger :=
          decide ((vault.reservedUsdc * bps).tdiv vault.totalAssets > config.adlUtilizationBps)
        pnlTrigger || utilTrigger
      else false
  | _, _ => false

/-- Above a positive basis a truncated ratio exceeds the limit from the next whole
basis point on. -/
theorem lt_tdiv_bps_iff {amount basis : ℤ} (limit : ℤ) (ha : 0 ≤ amount) (hb : 0 < basis) :
    limit < (amount * bps).tdiv basis ↔ (limit + 1) * basis ≤ amount * bps := by
  rw [Int.tdiv_eq_ediv_of_nonneg (mul_nonneg ha (by decide)), ← Int.add_one_le_iff,
    Int.le_ediv_iff_mul_le hb]

/-- What reaches a limit is positive. -/
theorem pos_of_reaches {amount basis : ℤ} {limitBps : ℕ} (hb : 0 < basis)
    (h : ((limitBps : ℤ) + 1) * basis ≤ amount * bps) : 0 < amount := by
  have hlimit : 0 < ((limitBps : ℤ) + 1) * basis := by positivity
  exact pos_of_mul_pos_left (hlimit.trans_le h) (by decide)

theorem exceedsBps_iff {amount basis : ℤ} {limitBps : ℕ} :
    ExceedsBps amount basis limitBps ↔
      0 < basis ∧ ((limitBps : ℤ) + 1) * basis ≤ amount * bps := by
  constructor
  · rintro ⟨_, hb, hlt⟩
    exact ⟨hb, (Int.le_ediv_iff_mul_le hb).mp (Int.add_one_le_iff.mpr hlt)⟩
  · rintro ⟨hb, hle⟩
    refine ⟨pos_of_reaches hb hle, hb, ?_⟩
    exact Int.add_one_le_iff.mp ((Int.le_ediv_iff_mul_le hb).mpr hle)

namespace Env

variable {A S : Type} [DecidableEq A] [DecidableEq S]

def adlLimitsRow (env : Env A S) : AdlLimitsRow where
  adlPnlBps := env.cfg.protocolLimits.1.adlPnlBps
  adlUtilizationBps := env.cfg.protocolLimits.1.adlUtilizationBps

/-- The keeper's decision on the mirrored state. -/
def keeperStartsAdl (env : Env A S) : Bool :=
  keeperAdlTrigger (some env.vaultStateRow) (some env.adlLimitsRow)

/-! The four amounts, in basis points of a unit, from which a ratio is over its limit. -/

def keeperPnlBar (env : Env A S) : ℤ := (env.cfg.protocolLimits.1.adlPnlBps + 1) * env.totalAssets

/-- The realized profit counts towards the contract's limit, the fees not to its basis. -/
def gatePnlBar (env : Env A S) : ℤ :=
  (env.cfg.protocolLimits.1.adlPnlBps + 1) * (env.totalAssets - env.vault.unclaimedFees) -
    env.pm.realizedPnl * bps

def keeperUtilBar (env : Env A S) : ℤ :=
  (env.cfg.protocolLimits.1.adlUtilizationBps + 1) * env.totalAssets

def gateUtilBar (env : Env A S) : ℤ :=
  (env.cfg.protocolLimits.1.adlUtilizationBps + 1) * (env.totalAssets - env.vault.unclaimedFees)

/-- The bands between the bars in which one side acts alone: the keeper on a profit that is not
enough for the contract, the contract on a profit or a reservation that is not enough for the
keeper, and the keeper alone where the fees leave the contract no basis. -/
structure OutsideBands (env : Env A S) : Prop where
  refused : env.vault.unclaimedFees < env.totalAssets →
    env.vault.reservedUsdc * bps < env.gateUtilBar →
      env.pm.totalUnrealizedPnl * bps ∉ Set.Ico env.keeperPnlBar env.gatePnlBar
  missedPnl : env.vault.unclaimedFees < env.totalAssets →
    env.vault.reservedUsdc * bps < env.keeperUtilBar →
      env.pm.totalUnrealizedPnl * bps ∉ Set.Ico env.gatePnlBar env.keeperPnlBar
  missedUtil : env.vault.unclaimedFees < env.totalAssets →
    env.pm.totalUnrealizedPnl * bps < env.keeperPnlBar →
      env.vault.reservedUsdc * bps ∉ Set.Ico env.gateUtilBar env.keeperUtilBar
  baseless : env.totalAssets ∈ Set.Ioc 0 env.vault.unclaimedFees →
    env.pm.totalUnrealizedPnl * bps < env.keeperPnlBar ∧
      env.vault.reservedUsdc * bps < env.keeperUtilBar

section Gate

variable {env : Env A S} {trader : A} {symbol : S} {price : ℤ}

omit [DecidableEq A] [DecidableEq S] in
theorem keeperStartsAdl_iff (hr : 0 ≤ env.vault.reservedUsdc)
    (hpnl : env.vault.netGlobalTraderPnl = env.pm.totalUnrealizedPnl) :
    env.keeperStartsAdl = true ↔
      0 < env.totalAssets ∧ (env.keeperPnlBar ≤ env.pm.totalUnrealizedPnl * bps ∨
        env.keeperUtilBar ≤ env.vault.reservedUsdc * bps) := by
  simp only [keeperStartsAdl, keeperAdlTrigger, vaultStateRow, adlLimitsRow, hpnl]
  split_ifs with hassets
  · have hprofit : 0 < env.pm.totalUnrealizedPnl ∧ (env.cfg.protocolLimits.1.adlPnlBps : ℤ) <
        (env.pm.totalUnrealizedPnl * bps).tdiv env.totalAssets ↔
          ((env.cfg.protocolLimits.1.adlPnlBps : ℤ) + 1) * env.totalAssets ≤
            env.pm.totalUnrealizedPnl * bps := by
      constructor
      · rintro ⟨hpos, hlt⟩
        exact (lt_tdiv_bps_iff _ hpos.le hassets).mp hlt
      · intro hle
        have hpos := pos_of_reaches hassets hle
        exact ⟨hpos, (lt_tdiv_bps_iff _ hpos.le hassets).mpr hle⟩
    simp only [Bool.or_eq_true, decide_eq_true_eq, gt_iff_lt, hprofit,
      lt_tdiv_bps_iff _ hr hassets, keeperPnlBar, keeperUtilBar]
    exact (and_iff_right hassets).symm
  · exact iff_of_false (by simp) fun h => hassets h.1

omit [DecidableEq A] [DecidableEq S] in
theorem adlTriggered_iff :
    env.AdlTriggered (env.pm.realizedPnl + env.pm.totalUnrealizedPnl) ↔
      env.vault.unclaimedFees < env.totalAssets ∧
        (env.gatePnlBar ≤ env.pm.totalUnrealizedPnl * bps ∨
          env.gateUtilBar ≤ env.vault.reservedUsdc * bps) := by
  simp only [AdlTriggered, exceedsBps_iff, totalAssetsExclPnl_eq_max]
  by_cases hbasis : env.vault.unclaimedFees < env.totalAssets
  · have hpnl : (env.cfg.protocolLimits.1.adlPnlBps + 1) *
        (env.totalAssets - env.vault.unclaimedFees) ≤
          (env.pm.realizedPnl + env.pm.totalUnrealizedPnl) * bps ↔
        env.gatePnlBar ≤ env.pm.totalUnrealizedPnl * bps := by
      rw [gatePnlBar, sub_le_iff_le_add', ← add_mul]
    rw [max_eq_left (by omega), hpnl, ← gateUtilBar, ← and_or_left]
    exact and_congr_left fun _ => sub_pos
  · rw [max_eq_right (by omega)]
    exact iff_of_false (by simp) fun h => hbasis h.1

omit [DecidableEq A] [DecidableEq S] in
/-- Unclaimed fees only lower the contract's bar on the reservations. -/
theorem gateUtilBar_le (hu : 0 ≤ env.vault.unclaimedFees) : env.gateUtilBar ≤ env.keeperUtilBar := by
  unfold gateUtilBar keeperUtilBar
  exact mul_le_mul_of_nonneg_left (by omega) (by positivity)

theorem deleverageRequest_not_refused_iff (hp : 0 < price) :
    env.deleverageRequest trader symbol price ≠ .error (.positionManager .adlNotTriggered) ↔
      env.AdlTriggered (env.pm.realizedPnl + env.pm.totalUnrealizedPnl) := by
  constructor
  · intro hraised
    by_contra htriggered
    rw [AdlTriggered, not_or, ← adlPnlRatioBps_gt_iff ⟨env.vault.reservedUsdc, _⟩,
      ← utilizationBps_gt_iff ⟨env.vault.reservedUsdc, _⟩, not_lt, not_lt] at htriggered
    obtain ⟨markets, hfresh⟩ := env.freshEnv_eq symbol
    apply hraised
    rw [deleverageRequest, refreshTick_eq_ok.mpr ⟨hp, rfl, rfl⟩, ok_bind, hfresh]
    exact congrArg (· >>= _) (if_pos htriggered)
  · intro htriggered hraised
    exact deleverageRequest_failsOnly htriggered _ hraised rfl

/-- The keeper starts a deleverage exactly when the contract would admit one, if and only if
the profit and the reservations lie in none of the bands. -/
theorem keeper_adl_agrees_iff (env : Env A S) (trader : A) (symbol : S) (price : ℤ)
    (hp : 0 < price) (hr : 0 ≤ env.vault.reservedUsdc) (hu : 0 ≤ env.vault.unclaimedFees)
    (hpnl : env.vault.netGlobalTraderPnl = env.pm.totalUnrealizedPnl) :
    (env.keeperStartsAdl = true ↔
      env.deleverageRequest trader symbol price ≠ .error (.positionManager .adlNotTriggered)) ↔
    OutsideBands env := by
  have hbars := gateUtilBar_le hu
  rw [deleverageRequest_not_refused_iff hp, keeperStartsAdl_iff hr hpnl, adlTriggered_iff]
  constructor
  · intro hagree
    refine ⟨?_, ?_, ?_, ?_⟩ <;> simp only [Set.mem_Ico, Set.mem_Ioc] <;> omega
  · rintro ⟨hrefused, hpnl, hutil, hbaseless⟩
    simp only [Set.mem_Ico, Set.mem_Ioc] at hrefused hpnl hutil hbaseless
    omega

/-- A winner of 100 percent over the vault: both see it. -/
theorem keeper_adl_agrees_iff_openWinner :
    (openWinner [.updateIndices 0 0 3000000000]).keeperStartsAdl = true ↔
      (openWinner [.updateIndices 0 0 3000000000]).deleverageRequest 2 0 3000000000 ≠
        .error (.positionManager .adlNotTriggered) := by
  refine (keeper_adl_agrees_iff (openWinner [.updateIndices 0 0 3000000000]) 2 0 3000000000
    (by decide) ?_ ?_ ?_).mpr ⟨?_, ?_, ?_, ?_⟩
  all_goals decide +kernel

/-- After another trader has lost 80 the keeper starts and the contract refuses. -/
theorem keeper_adl_disagrees :
    ¬∀ (env : Env ℕ ℕ) (trader symbol : ℕ) (price : ℤ), Reachable offsetErc env → 0 < price →
      (env.keeperStartsAdl = true ↔ env.deleverageRequest trader symbol price ≠
        .error (.positionManager .adlNotTriggered)) := by
  intro h
  have hstarts : winnerAfterLoss.keeperStartsAdl = true := by decide +kernel
  have hrefused : winnerAfterLoss.deleverageRequest 2 0 3000000000 =
      .error (.positionManager .adlNotTriggered) := eq_error_of_raised (by decide +kernel)
  exact (h winnerAfterLoss 2 0 3000000000 (reachable_deployed _ _) (by decide)).mp hstarts hrefused

end Gate

end Env

end Stellars
