import Stellars.AggregatePnl
import Stellars.Custody
import Stellars.Solvency

/-!
# Paying a winner

`pay_profit` asks for free liquidity before the close has taken the position out
of the cached profit, so a winner competes with its own unrealized profit as of
the last refresh. Every other vault guard on the way of a close holds as soon as
the vault can afford what it owes.
-/
namespace Stellars
open GuardedRuns KeyedTotals

namespace Env

variable {A S : Type} [DecidableEq A] [DecidableEq S]

/-- What the vault owes a close: the payout beyond the released collateral, and the
fee slice set aside by the same call. -/
def owed (env : Env A S) (r : CloseRequest A S) : ℤ :=
  max r.vaultToTrader 0 + env.feeSlice (r.distributableFees env.cfg.feeConfig.1)

/-- Net unrealized profit without the closed slice: this market at the mark, the
others as cached. -/
def othersPnl (env : Env A S) (r : CloseRequest A S) : ℤ :=
  (env.settlePosition r).tradersPnl r.symbol r.tick.markPrice +
    (env.pm.totalUnrealizedPnl - env.getMarketUnrealizedPnl r.symbol)

def CanAfford (env : Env A S) (r : CloseRequest A S) : Prop :=
  env.owed r ≤ env.totalAssets - env.vault.unclaimedFees -
    (env.vault.reservedUsdc - r.sizeDelta) - max 0 (env.othersPnl r)

/-- The net profit of the slice fits beside the profit cached before the call. -/
def ProfitFitsCache (env : Env A S) (r : CloseRequest A S) : Prop :=
  r.netEconomicPnl ≤ 0 ∨ r.netEconomicPnl + max env.vault.netGlobalTraderPnl 0 ≤
    env.totalAssets - env.vault.unclaimedFees - (env.vault.reservedUsdc - r.sizeDelta)

instance (env : Env A S) (r : CloseRequest A S) : Decidable (CanAfford env r) :=
  inferInstanceAs (Decidable (_ ≤ _))

instance (env : Env A S) (r : CloseRequest A S) : Decidable (ProfitFitsCache env r) :=
  inferInstanceAs (Decidable (_ ∨ _))

/-- Errors raised by other contracts than the vault. -/
def NotVault (e : Error) : Prop := ∀ v, e ≠ .vault v

/-! ## What the contracts hold -/

section Holdings

variable {erc : Erc4626} {env env' : Env A S} {op : Op A S}

theorem effect_fees_nonneg (hfees : 0 ≤ env.vault.unclaimedFees) (h : Effect erc env op env') :
    0 ≤ env'.vault.unclaimedFees := by
  cases h with
  | increase awake size_pos effect =>
      rw [effect.vault]
      exact add_nonneg hfees (env.feeSlice_bounds _).1
  | close names ready effect =>
      rw [effect.unclaimedFees]
      exact add_nonneg (add_nonneg hfees (env.feeSlice_bounds _).1) (env.feeSlice_bounds _).1
  | setTpSl position hdelta => exact hfees
  | @updateIndices _ symbol _ awake price_pos =>
      obtain ⟨markets, hfresh⟩ := env.freshEnv_eq symbol
      rw [hfresh]
      exact hfees
  | quiet h =>
      cases h with
      | transferUsdc h => rwa [h.unclaimedFees]
      | @vault _ call _ h =>
          rw [h.unclaimedFees]
          cases call <;> first | exact hfees | exact le_rfl
      | _ => exact hfees

theorem reachable_fees_nonneg (hr : Reachable erc env) : 0 ≤ env.vault.unclaimedFees :=
  hr.induction (fun _ _ _ => le_rfl) fun _ _ _ => effect_fees_nonneg

theorem donation_nonneg (env : Env A S) (op : Op A S) : 0 ≤ env.donation erc op := by
  unfold donation
  split
  · rename_i env' hok
    split_ifs
    · cases apply_effect hok with
      | quiet h =>
          cases h with
          | transferUsdc h | vault h => exact h.nonneg
          | _ => exact le_rfl
      | _ => exact le_rfl
    · exact le_rfl
  · exact le_rfl

/-- The position manager can always return the collateral and escrow it keeps. -/
theorem reachable_surplus_nonneg (hr : Reachable erc env) : 0 ≤ env.surplus := by
  apply hr.induction_apply
  · intro admin usdc timestamp
    rw [surplus]
    exact sub_nonneg.mpr (Int.natCast_nonneg (usdc .positionManager))
  · intro env op env' hr hs hok
    rw [surplus_effect (reachable_books hr) hok (apply_effect hok)]
    exact add_nonneg hs (donation_nonneg env op)

theorem custody_le (hr : Reachable erc env) {key : A × S} {pos : Position}
    (hpos : env.pm.positions.lookup key = some pos) :
    pos.collateral + pos.executionFeeEscrow ≤ env.usdc .positionManager := by
  have hsurplus := reachable_surplus_nonneg hr
  have hle := le_total (f := fun _ p => Position.custody p) (fun k p hp => by
    have hw := (reachable_books hr).wellFormed k p hp
    exact add_nonneg hw.collateral_pos.le hw.escrow_nonneg) hpos
  rw [surplus] at hsurplus
  simp only [Position.custody] at hle hsurplus
  omega

end Holdings

/-! ## The guards of a close -/

section Guards

variable {E : Error → Prop} {env env' : Env A S} {r : CloseRequest A S}

omit [DecidableEq S] in
theorem transfer_failsOnly {src dst : Party A} {amount : ℤ} (h0 : 0 ≤ amount)
    (hfunds : env.usdc src < amount → E (.token .insufficientBalance)) :
    FailsOnly E (env.transfer src dst amount) := by
  unfold transfer
  refine FailsOnly.bind (FailsOnly.failIf fun h => absurd h (not_lt.mpr h0)) fun _ _ => ?_
  exact FailsOnly.bind (FailsOnly.failIf hfunds) fun _ _ => FailsOnly.ok _ _

omit [DecidableEq S] in
theorem transfer_if_pos_failsOnly {src dst : Party A} {amount : ℤ}
    (hfunds : env.usdc src < amount → E (.token .insufficientBalance)) :
    FailsOnly E (if amount > 0 then env.transfer src dst amount else .ok env) := by
  split_ifs with hp
  · exact transfer_failsOnly hp.le hfunds
  · exact FailsOnly.ok _ _

omit [DecidableEq S] in
theorem payBounty_failsOnly {executor : Option A} {amount : ℤ}
    (hfunds : env.usdc .positionManager < amount → E (.token .insufficientBalance)) :
    FailsOnly E (env.payBounty executor amount) := by
  unfold payBounty
  split_ifs with hp
  · cases executor with
    | none => exact FailsOnly.ok _ _
    | some addr => exact transfer_failsOnly hp.le hfunds
  · exact FailsOnly.ok _ _

omit [DecidableEq S] in
theorem releaseLiquidity_failsOnly {amount : ℤ} (hle : amount ≤ env.vault.reservedUsdc) :
    FailsOnly E
      (if amount > 0 then env.releaseLiquidity .positionManager amount else .ok env) := by
  split_ifs with hp
  · rw [releaseLiquidity_eq_ok.mpr ⟨hp, hle, rfl⟩]
    exact FailsOnly.ok _ _
  · exact FailsOnly.ok _ _

omit [DecidableEq S] in
theorem payProfit_failsOnly {trader : A} {amount : ℤ}
    (hbooked : 0 ≤ env.vault.reservedUsdc + env.vault.unclaimedFees)
    (hle : 0 < amount → amount ≤ env.freeLiquidity) : FailsOnly E
      (if amount > 0 then env.payProfit .positionManager trader amount else .ok env) := by
  split_ifs with hp
  · have hfree := (le_freeLiquidity_iff env hp).mp (hle hp)
    rw [payProfit_eq_ok.mpr ⟨hp, hle hp, by omega, rfl⟩]
    exact FailsOnly.ok _ _
  · exact FailsOnly.ok _ _

omit [DecidableEq S] in
/-- The vault confirms a transfer that has just arrived. -/
theorem absorbCollateral_failsOnly {amount : ℤ}
    (hfunds : env.usdc .positionManager < amount → E (.token .insufficientBalance)) :
    FailsOnly E (if amount > 0 then env.absorbCollateral amount else .ok env) := by
  split_ifs with hp
  · refine FailsOnly.bind (transfer_failsOnly hp.le hfunds) fun env1 htransfer => ?_
    obtain ⟨_, _, rfl⟩ := transfer_eq_ok.mp htransfer
    have harrived : (env.setUsdc (moveUsdc env.usdc .positionManager .vault amount)).totalAssets -
        env.totalAssets = amount := by
      rw [totalAssets_setUsdc, moveUsdc_dst _ _ (by simp), totalAssets]
      omega
    rw [recordAbsorbedCollateral_eq_ok (u := ()).mpr ⟨hp, harrived⟩]
    exact FailsOnly.ok _ _
  · exact FailsOnly.ok _ _

omit [DecidableEq S] in
/-- Slicing revenue fails only where the buffer would outgrow the vault. -/
theorem accrueNonLpSlice_failsOnly {amount : ℤ} (hpos : 0 < amount)
    (hfit : env.totalAssets < env.vault.unclaimedFees + env.feeSlice amount +
      env.vault.reservedUsdc → E (.vault .feeAccrualExceedsAssets)) :
    FailsOnly E (env.accrueNonLpSlice amount) := by
  have hs : env.feeSlice amount = env.nonLpSlice amount := if_neg (by omega)
  rw [hs] at hfit
  simp only [accrueNonLpSlice]
  split_ifs with hn
  · simp only [accrueFees, requirePositionManager_self, ok_bind]
    refine FailsOnly.bind (FailsOnly.failIf fun h => absurd h (not_le.mpr hn)) fun _ _ => ?_
    exact FailsOnly.bind (FailsOnly.failIf hfit) fun _ _ => FailsOnly.ok _ _
  · exact FailsOnly.ok _ _

omit [DecidableEq S] in
theorem resliceRevenue_failsOnly {amount : ℤ}
    (hfit : env.totalAssets < env.vault.unclaimedFees + env.feeSlice amount +
      env.vault.reservedUsdc → E (.vault .feeAccrualExceedsAssets)) :
    FailsOnly E (env.resliceRevenue amount) := by
  unfold resliceRevenue
  split_ifs with h0
  · exact FailsOnly.ok _ _
  · exact accrueNonLpSlice_failsOnly (not_le.mp h0) hfit

omit [DecidableEq S] in
/-- Only a liquidation settles its escrow through the vault's books. It brings its
own cover: a slice never exceeds the amount. -/
theorem settleOnClose_failsOnly {trader : A} {kind : CloseType} {escrow : ℤ}
    {executor : Option A} {isPartial : Bool}
    (hsolvent : kind = .liquidation →
      env.vault.unclaimedFees + env.vault.reservedUsdc ≤ env.totalAssets)
    (hfunds : env.usdc .positionManager < escrow → E (.token .insufficientBalance)) :
    FailsOnly E (env.settleOnClose trader kind escrow executor isPartial) := by
  have hpay : ∀ p, ¬ escrow ≤ 0 → FailsOnly E (env.transfer .positionManager p escrow) :=
    fun p hpos => transfer_failsOnly (not_le.mp hpos).le hfunds
  unfold settleOnClose
  by_cases hle : escrow ≤ 0
  · rw [if_pos hle]
    exact FailsOnly.ok _ _
  · rw [if_neg hle]
    cases kind with
    | user =>
        cases isPartial with
        | true => exact FailsOnly.ok _ _
        | false => exact hpay _ hle
    | deleverage => exact hpay _ hle
    | orderExecution =>
        cases executor with
        | none => exact FailsOnly.ok _ _
        | some addr => exact hpay _ hle
    | liquidation =>
        have hcovered := hsolvent rfl
        have hslice := (env.feeSlice_bounds escrow).2
        simp only [recvRevenue, if_neg hle]
        refine FailsOnly.bind (hpay _ hle) fun env1 htransfer => ?_
        obtain ⟨_, _, rfl⟩ := transfer_eq_ok.mp htransfer
        refine accrueNonLpSlice_failsOnly (not_le.mp hle) fun hover => ?_
        rw [totalAssets_setUsdc, moveUsdc_dst _ _ (by simp)] at hover
        have hover' : env.totalAssets + escrow <
          env.vault.unclaimedFees + env.feeSlice escrow + env.vault.reservedUsdc := hover
        omega

end Guards

section Close

variable {erc : Erc4626} {env env1 : Env A S} {call : CloseCall A S} {r : CloseRequest A S}

omit [DecidableEq A] [DecidableEq S] in
theorem freeLiquidity_released (env : Env A S) {amount reserved : ℤ} (h : 0 < amount) :
    amount ≤ (env.setReservedUsdc reserved).freeLiquidity ↔
      amount + max env.vault.netGlobalTraderPnl 0 ≤
        env.totalAssets - env.vault.unclaimedFees - reserved := by
  rw [le_freeLiquidity_iff _ h]
  have hsame : (env.setReservedUsdc reserved).totalAssets = env.totalAssets := rfl
  rw [hsame]
  simp only [setReservedUsdc]
  omega

/-- The vault pays exactly a positive net profit: collateral covers the rest. -/
theorem CloseReady.vaultToTrader_cases (hb : Books env) (hr : CloseReady env env1 r) :
    r.vaultToTrader ≤ 0 ∧ r.netEconomicPnl ≤ 0 ∨
      0 < r.vaultToTrader ∧ r.vaultToTrader = r.netEconomicPnl := by
  have hcollateral := (hr.collateralDelta_bounds hb).1
  have hhealth : r.eval.effectiveHealth = r.collateralDelta + r.netEconomicPnl := by
    rw [CloseRequest.netEconomicPnl, hr.eval]
    simp only [MarketTick.evaluate, calcHealth]
    ring
  rw [CloseRequest.vaultToTrader, r.traderPayout_eq_max, hhealth]
  omega

/-- A payout that fits is what `pay_profit` asks for once the slice is released. -/
theorem CloseReady.payable_of_fits (hb : Books env) (hr : CloseReady env env1 r)
    (hfits : ProfitFitsCache env r) (hpos : 0 < r.vaultToTrader) :
    r.vaultToTrader + max env.vault.netGlobalTraderPnl 0 ≤ env.totalAssets -
      env.vault.unclaimedFees - (env.vault.reservedUsdc - max r.sizeDelta 0) := by
  obtain ⟨hle, _⟩ | ⟨_, heq⟩ := hr.vaultToTrader_cases hb
  · omega
  rw [max_eq_left (hr.sizeDelta_pos hb).le]
  obtain hle | hfit := hfits
  · omega
  · rwa [heq]

/-- What the vault covers leaves room for the fees of the same call. -/
theorem CloseReady.fees_fit_of_covers (hb : Books env) (hr : CloseReady env env1 r)
    (hcovers : env.owed r ≤ env.totalAssets - env.vault.unclaimedFees -
      (env.vault.reservedUsdc - r.sizeDelta)) :
    env.vault.unclaimedFees + env.feeSlice (r.distributableFees env.cfg.feeConfig.1) +
      (env.vault.reservedUsdc - max r.sizeDelta 0) ≤ env.closeTransfers r .vault := by
  rw [closeTransfers_vault, max_eq_left (hr.sizeDelta_pos hb).le]
  unfold owed at hcovers
  omega

/-- A close whose payout the vault can make fails only where its fees outgrow the
vault or the position manager runs out of USDC. -/
theorem executeClose_failsOnly {E : Error → Prop} (hb : Books env) (hr : CloseReady env env1 r)
    (hfees : 0 ≤ env.vault.unclaimedFees)
    (hpayable : 0 < r.vaultToTrader → r.vaultToTrader + max env.vault.netGlobalTraderPnl 0 ≤
      env.totalAssets - env.vault.unclaimedFees - (env.vault.reservedUsdc - max r.sizeDelta 0))
    (hfit : env.closeTransfers r .vault < env.vault.unclaimedFees +
      env.feeSlice (r.distributableFees env.cfg.feeConfig.1) +
        (env.vault.reservedUsdc - max r.sizeDelta 0) → E (.vault .feeAccrualExceedsAssets))
    (hsolvent : r.kind = .liquidation → env.vault.unclaimedFees +
      (env.vault.reservedUsdc - max r.sizeDelta 0) ≤ env.closeTransfers r .vault)
    (hfunds : env.usdc .positionManager < r.collateralDelta + r.pos.executionFeeEscrow →
      E (.token .insufficientBalance)) :
    FailsOnly E ((env.freshEnv r.symbol).executeClose r) := by
  have hreserved := hr.sizeDelta_le_reserved hb
  have hsize := hr.sizeDelta_pos hb
  have hescrow := (hb.wellFormed _ _ hr.position).escrow_nonneg
  have hout := closeTransfers_positionManager hb hr
  -- the released collateral covers all transfers out of custody
  have hsplit := r.collateral_split env.cfg.feeConfig.1 (hr.collateralDelta_bounds hb).1
  set paid := moveUsdc env.usdc .vault (.account r.trader) (max r.vaultToTrader 0) with hpaidDef
  set absorbed := moveUsdc paid .positionManager .vault (max (r.vaultAbsorbed env.cfg.feeConfig.1) 0)
    with habsorbedDef
  set returned := moveUsdc absorbed .positionManager (.account r.trader) (max r.pmToTrader 0)
    with hreturnedDef
  have hpaid : paid .positionManager = env.usdc .positionManager :=
    moveUsdc_other _ _ (by simp) (by simp)
  have habsorbed : absorbed .positionManager =
      env.usdc .positionManager - max (r.vaultAbsorbed env.cfg.feeConfig.1) 0 := by
    rw [habsorbedDef, moveUsdc_src _ _ (by simp), hpaid]
  have hreturned : returned .positionManager = env.usdc .positionManager -
      max (r.vaultAbsorbed env.cfg.feeConfig.1) 0 - max r.pmToTrader 0 := by
    rw [hreturnedDef, moveUsdc_src _ _ (by simp), habsorbed]
  obtain ⟨markets, hfresh⟩ := env.freshEnv_eq r.symbol
  rw [hfresh, executeClose]
  refine FailsOnly.bind (releaseLiquidity_failsOnly hreserved) fun env2 h2 => ?_
  obtain ⟨-, rfl⟩ := releaseLiquidity_if_pos h2
  refine FailsOnly.bind (payProfit_failsOnly ?_ fun hpos => ?_) fun env3 h3 => ?_
  · change 0 ≤ env.vault.reservedUsdc - max r.sizeDelta 0 + env.vault.unclaimedFees
    omega
  · exact (freeLiquidity_released _ hpos).mpr (hpayable hpos)
  obtain ⟨-, rfl⟩ := payProfit_if_pos h3
  refine FailsOnly.bind (absorbCollateral_failsOnly fun hlt => hfunds ?_) fun env4 h4 => ?_
  · have hleft : paid .positionManager < r.vaultAbsorbed env.cfg.feeConfig.1 := hlt
    omega
  obtain rfl := absorbCollateral_if_pos h4
  refine FailsOnly.bind (transfer_if_pos_failsOnly fun hlt => hfunds ?_) fun env5 h5 => ?_
  · have hleft : absorbed .positionManager < r.pmToTrader := hlt
    omega
  obtain ⟨-, rfl⟩ := transfer_if_pos h5
  refine FailsOnly.bind (payBounty_failsOnly fun hlt => hfunds ?_) fun env6 h6 => ?_
  · have hleft : returned .positionManager < r.bounty env.cfg.feeConfig.1 := hlt
    omega
  obtain rfl := payBounty_ok h6
  refine FailsOnly.bind (resliceRevenue_failsOnly hfit) fun env7 h7 => ?_
  obtain ⟨rfl, hsliced⟩ := resliceRevenue_ok h7
  refine FailsOnly.bind (settleOnClose_failsOnly (fun hk => ?_) fun hlt => hfunds ?_)
    fun env8 h8 => ?_
  · -- a slice that was taken has passed its guard, and without one nothing has changed
    have hslice := (env.feeSlice_bounds (r.distributableFees env.cfg.feeConfig.1)).1
    change env.vault.unclaimedFees + env.feeSlice (r.distributableFees env.cfg.feeConfig.1) +
      (env.vault.reservedUsdc - max r.sizeDelta 0) ≤ env.closeTransfers r .vault
    obtain hzero | hpos := hslice.eq_or_lt
    · rw [← hzero, add_zero]
      exact hsolvent hk
    · exact hsliced hpos
  · have hleft : env.closeTransfers r .positionManager < r.pos.executionFeeEscrow := hlt
    omega
  rw [refreshMarketUnrealizedPnl_eq]
  exact FailsOnly.ok _ _

/-- A close other than a liquidation that the vault covers and whose profit fits
beside the cached one passes the vault. -/
theorem covered_close_failsOnly {E : Error → Prop} (hb : Books env) (hr : CloseReady env env1 r)
    (hk : r.kind ≠ .liquidation) (hfees : 0 ≤ env.vault.unclaimedFees)
    (hcovers : env.owed r ≤ env.totalAssets - env.vault.unclaimedFees -
      (env.vault.reservedUsdc - r.sizeDelta)) (hfits : ProfitFitsCache env r)
    (hfunds : env.usdc .positionManager < r.collateralDelta + r.pos.executionFeeEscrow →
      E (.token .insufficientBalance)) :
    FailsOnly E ((env.freshEnv r.symbol).executeClose r) :=
  executeClose_failsOnly hb hr hfees (hr.payable_of_fits hb hfits)
    (fun hover => absurd (hr.fees_fit_of_covers hb hcovers) (not_le.mpr hover))
    (fun hliq => absurd hliq hk) hfunds

/-- In a reachable state such a close goes through: custody covers what the position
manager returns. -/
theorem covered_close_succeeds (hr : Reachable erc env) (hready : CloseReady env env1 r)
    (hk : r.kind ≠ .liquidation) (hcovers : env.owed r ≤ env.totalAssets -
      env.vault.unclaimedFees - (env.vault.reservedUsdc - r.sizeDelta))
    (hfits : ProfitFitsCache env r) :
    ∃ env', (env.freshEnv r.symbol).executeClose r = .ok env' := by
  have hb := reachable_books hr
  have hcustody := custody_le hr hready.position
  have hcol := (hready.collateralDelta_bounds hb).2.1
  refine (covered_close_failsOnly hb hready hk (reachable_fees_nonneg hr) hcovers hfits ?_).exists_ok
  intro hlt
  omega

/-- A payout that does not fit beside the cached profit reverts the close. -/
theorem executeClose_reverts (hb : Books env) (hr : CloseReady env env1 r)
    (hfits : ¬ ProfitFitsCache env r) :
    (env.freshEnv r.symbol).executeClose r = .error (.vault .insufficientFreeLiquidity) := by
  have hreserved := hr.sizeDelta_le_reserved hb
  have hsize := hr.sizeDelta_pos hb
  obtain ⟨hnet, hover⟩ := not_or.mp hfits
  obtain ⟨_, hle⟩ | ⟨hpos, heq⟩ := hr.vaultToTrader_cases hb
  · exact absurd hle hnet
  rw [← heq] at hover
  obtain ⟨markets, hfresh⟩ := env.freshEnv_eq r.symbol
  have hrelease : (env.setMarkets markets).releaseLiquidity .positionManager r.sizeDelta =
      .ok ((env.setMarkets markets).setReservedUsdc (env.vault.reservedUsdc - r.sizeDelta)) :=
    releaseLiquidity_eq_ok.mpr ⟨hsize, hreserved, rfl⟩
  have hfree : ¬ r.vaultToTrader ≤ ((env.setMarkets markets).setReservedUsdc
      (env.vault.reservedUsdc - r.sizeDelta)).freeLiquidity := by
    rw [freeLiquidity_released _ hpos]
    exact hover
  rw [hfresh, executeClose, if_pos hsize, hrelease, ok_bind, if_pos hpos]
  simp only [payProfit, requirePositionManager_self, ok_bind, requireFreeLiquidity]
  simp only [failIf, if_neg (not_le.mpr hpos), if_pos (not_le.mp hfree), ok_bind, error_bind]

theorem closePosition_of_request (hrequest : env.closeRequest call = .ok (env1, r)) :
    env.closePosition call = (env.freshEnv r.symbol).executeClose r := by
  obtain ⟨hready, -⟩ := closeRequest_ok hrequest
  rw [closePosition, hrequest, hready.refreshed]
  rfl

/-- Where the vault can afford a close, its guards let it pass exactly when the net
profit also fits beside the profit cached before the call. -/
theorem affordable_close_passes_iff (hr : Reachable erc env)
    (hrequest : env.closeRequest call = .ok (env1, r)) (hkind : r.kind ≠ .liquidation)
    (hafford : CanAfford env r) :
    (∀ e, env.closePosition call ≠ .error (.vault e)) ↔ ProfitFitsCache env r := by
  have hb := reachable_books hr
  obtain ⟨hready, -⟩ := closeRequest_ok hrequest
  have hcovers : env.owed r ≤ env.totalAssets - env.vault.unclaimedFees -
      (env.vault.reservedUsdc - r.sizeDelta) := by
    unfold CanAfford at hafford
    omega
  rw [closePosition_of_request hrequest]
  constructor
  · intro hpass
    by_contra hfits
    exact hpass _ (executeClose_reverts hb hready hfits)
  · intro hfits e he
    exact covered_close_failsOnly (E := NotVault) hb hready hkind (reachable_fees_nonneg hr) hcovers
      hfits (fun _ => nofun) _ he e rfl

/-- A long of 500 in a vault of 1000 closes with a profit of 50. -/
theorem affordable_close_passes_deployed :
    let env := deployed 10000000000
      [.increase ⟨2, 0, 5000000000, 1000000000, true, 0, 0, 0, 1000000000⟩, .advance 3600]
    let call : CloseCall ℕ ℕ := .decrease 2 0 5000000000 0 1100000000
    ∃ env1 r, env.closeRequest call = .ok (env1, r) ∧ CanAfford env r ∧
      ((∀ e, env.closePosition call ≠ .error (.vault e)) ↔ ProfitFitsCache env r) := by
  intro env call
  obtain ⟨⟨env1, r⟩, hrequest, hread⟩ := exists_ok_of_bind_eq_some (x := env.closeRequest call)
    (f := fun p => some (decide (p.2.kind ≠ .liquidation), decide (CanAfford env p.2)))
    (b := (true, true)) (by decide +kernel)
  simp only [Option.some.injEq, Prod.mk.injEq, decide_eq_true_eq] at hread
  exact ⟨env1, r, hrequest, hread.2,
    affordable_close_passes_iff (reachable_deployed _ _) hrequest hread.1 hread.2⟩

/-- A vault of 1000, a long of 500 that has gained 900, and one `update_indices` at
that mark: the close of the long reverts, although nothing else is owed to anyone. -/
theorem winner_not_paid :
    ¬ ∀ (env env1 : Env ℕ ℕ) (call : CloseCall ℕ ℕ) (r : CloseRequest ℕ ℕ),
      Reachable offsetErc env → env.closeRequest call = .ok (env1, r) →
      r.kind ≠ .liquidation → 0 < r.eval.pnl → CanAfford env r →
      ∀ e, env.closePosition call ≠ .error (.vault e) := by
  intro hpaid
  have hreach := reachable_deployed 10000000000
    [.increase ⟨2, 0, 5000000000, 1000000000, true, 0, 0, 0, 1000000000⟩, .advance 3600,
      .updateIndices 0 0 2800000000]
  generalize hdep : deployed 10000000000 [.increase ⟨2, 0, 5000000000, 1000000000, true, 0, 0, 0,
    1000000000⟩, .advance 3600, .updateIndices 0 0 2800000000] = env at hreach
  obtain ⟨⟨env1, r⟩, hrequest, hread⟩ := exists_ok_of_bind_eq_some
    (x := env.closeRequest (.decrease 2 0 5000000000 0 2800000000))
    (f := fun p => some (decide (p.2.kind ≠ .liquidation), decide (0 < p.2.eval.pnl),
      decide (CanAfford env p.2), decide (ProfitFitsCache env p.2)))
    (b := (true, true, true, false)) (by subst hdep; decide +kernel)
  simp only [Option.some.injEq, Prod.mk.injEq, decide_eq_true_eq, decide_eq_false_iff_not] at hread
  obtain ⟨hkind, hpnl, hafford, hfits⟩ := hread
  refine hpaid env env1 _ r hreach hrequest hkind hpnl hafford .insufficientFreeLiquidity ?_
  rw [closePosition_of_request hrequest]
  exact executeClose_reverts (reachable_books hreach) (closeRequest_ok hrequest).1 hfits

end Close

end Env

end Stellars
