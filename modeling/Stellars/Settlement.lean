import Stellars.Custody
import Stellars.Solvency

/-!
# The settlement equation

Every close pays from the same four amounts: the value of the slice to the
trader, a bounty or the escrow to whoever executed the close, and the released
collateral and the escrow out of custody. The vault pays or keeps the difference.
-/
namespace Stellars
open GuardedRuns KeyedTotals TruncatedDivision

namespace CloseRequest

variable {A S : Type} (r : CloseRequest A S)

/-- The value of the slice, and the escrow where the close returns it. -/
def traderCredit : ℤ :=
  max r.eval.effectiveHealth 0 +
    (if r.kind = .user ∧ r.isPartial = false ∨ r.kind = .deleverage then r.pos.executionFeeEscrow
    else 0)

/-- What the caller of a liquidation or of an order execution earns. -/
def executorCredit (feeConfig : FeeConfig) : ℤ :=
  match r.kind with
  | .liquidation => r.collateralDelta * feeConfig.liquidationBountyBps / bps
  | .orderExecution => r.pos.executionFeeEscrow
  | .user | .deleverage => 0

/-- The escrow leaves custody with the last slice. -/
def settledEscrow : ℤ := if r.sizeDelta = r.pos.size then r.pos.executionFeeEscrow else 0

end CloseRequest

namespace Env

variable {A S : Type} [DecidableEq A] [DecidableEq S]

section Bounty

/-- A rate of at most 1000 basis points takes at most a tenth. -/
theorem tenth_bounds {amount : ℤ} {rate : ℕ} (ha : 0 < amount) (hr : rate ≤ 1000) :
    0 ≤ (amount * rate).tdiv bps ∧ 10 * (amount * rate).tdiv bps ≤ amount := by
  have hrate : (rate : ℤ) ≤ 1000 := by exact_mod_cast hr
  have hnum : 0 ≤ amount * rate := by positivity
  have hmul : amount * rate ≤ amount * 1000 := Int.mul_le_mul_of_nonneg_left hrate ha.le
  have hle := (tdiv_nonneg_bounds (b := bps) hnum (by decide)).1
  refine ⟨Int.tdiv_nonneg hnum (by decide), ?_⟩
  unfold bps at *
  omega

variable {env env1 : Env A S} {call : CloseCall A S} {r : CloseRequest A S}

/-- A liquidation has passed the gate. -/
theorem liquidation_gate (h : env.closeRequest call = .ok (env1, r)) (hk : r.kind = .liquidation) :
    r.eval.effectiveHealth <
      (r.pos.collateral * env.cfg.protocolLimits.1.liquidationThresholdBps).tdiv bps := by
  rw [closeRequest_kind h] at hk
  cases call with
  | liquidate caller trader symbol price =>
      simp only [closeRequest, liquidateRequest, bind_eq_ok, failIf_eq_ok, exists_const,
        Except.ok.injEq, Prod.mk.injEq, not_le] at h
      obtain ⟨⟨env2, tick⟩, hrefresh, pos, _, hgate, rfl, rfl⟩ := h
      obtain ⟨_, rfl, rfl⟩ := refreshTick_eq_ok.mp hrefresh
      rwa [cfg_freshEnv] at hgate
  | _ => cases hk

/-- Threshold and bounty are at most a tenth of the collateral each, so the
absorbed collateral always covers the bounty. -/
theorem liquidation_bounty (hb : Books env) (h : env.closeRequest call = .ok (env1, r))
    (hk : r.kind = .liquidation) :
    r.bounty env.cfg.feeConfig.1 =
        r.collateralDelta * env.cfg.feeConfig.1.liquidationBountyBps / bps ∧
      0 ≤ r.bounty env.cfg.feeConfig.1 ∧ 0 ≤ r.vaultAbsorbed env.cfg.feeConfig.1 := by
  have hready := (closeRequest_ok h).1
  have hgate := liquidation_gate h hk
  have hcol := (hb.wellFormed _ _ hready.position).collateral_pos
  have hdelta : r.collateralDelta = r.pos.collateral := by
    rw [hready.collateral, if_pos (hready.whole (by rw [hk]; nofun))]
  have hlimit := (ProtocolLimits.validate_ok env.cfg.protocolLimits.2).2.2.2.2
  have hrate := (FeeConfig.validate_ok env.cfg.feeConfig.2).2.1
  obtain ⟨_, hthreshold⟩ := tenth_bounds hcol hlimit
  obtain ⟨hraw, htenth⟩ := tenth_bounds hcol hrate
  have hbounty : calcLiquidationBounty r.collateralDelta
      env.cfg.feeConfig.1.liquidationBountyBps =
        (r.pos.collateral * env.cfg.feeConfig.1.liquidationBountyBps).tdiv bps := by
    rw [calcLiquidationBounty, hdelta, if_neg (by omega)]
  have hfits : (r.pos.collateral * env.cfg.feeConfig.1.liquidationBountyBps).tdiv bps ≤
      r.pmToVault := by
    rw [CloseRequest.pmToVault, r.traderPayout_eq_max, hdelta]
    omega
  have hpaid : r.bounty env.cfg.feeConfig.1 =
      (r.pos.collateral * env.cfg.feeConfig.1.liquidationBountyBps).tdiv bps := by
    rw [CloseRequest.bounty, if_pos hk, hbounty, min_eq_left hfits]
  refine ⟨?_, ?_, ?_⟩
  · rw [hpaid, hdelta, Int.tdiv_eq_ediv_of_nonneg (by positivity)]
  · rw [hpaid]
    exact hraw
  · rw [CloseRequest.vaultAbsorbed, hpaid]
    omega

end Bounty

section Balances

variable {env env1 env' : Env A S} {call : CloseCall A S} {r : CloseRequest A S}

omit [DecidableEq S] in
theorem closeTransfers_account (env : Env A S) {r : CloseRequest A S} (hc : 0 ≤ r.collateralDelta)
    (a : A) : env.closeTransfers r (.account a) = env.usdc (.account a) +
      (if a = r.trader then r.traderPayout else 0) +
      (if r.executor = some a then max (r.bounty env.cfg.feeConfig.1) 0 else 0) := by
  rw [← r.traderPayout_split hc]
  unfold closeTransfers bountyUsdc
  cases r.executor with
  | none =>
      simp only [moveUsdc, reduceCtorEq, if_false, Party.account.injEq]
      split_ifs <;> ring
  | some addr =>
      simp only [moveUsdc, reduceCtorEq, if_false, Party.account.injEq, Option.some.injEq,
        eq_comm (a := addr)]
      split_ifs <;> ring

omit [DecidableEq S] in
theorem settledUsdc_account (usdc : Party A → ℤ) (recipient : Option (Party A)) {escrow : ℤ}
    (h : 0 ≤ escrow) (a : A) : settledUsdc usdc recipient escrow (.account a) =
      usdc (.account a) + (if recipient = some (.account a) then escrow else 0) := by
  cases recipient with
  | none => simp [settledUsdc]
  | some p =>
      simp only [settledUsdc, moveUsdc, max_eq_left h, reduceCtorEq, if_false, sub_zero,
        Option.some.injEq, eq_comm (a := p)]

/-- Who gets the escrow is credited with it, in each kind of close. -/
theorem closeUsdc_account (hb : Books env) (h : env.closeRequest call = .ok (env1, r)) (a : A) :
    env.closeUsdc r (.account a) = env.usdc (.account a) +
      (if a = r.trader then r.traderCredit else 0) +
      (if r.executor = some a then r.executorCredit env.cfg.feeConfig.1 else 0) := by
  have hready := (closeRequest_ok h).1
  have hescrow := (hb.wellFormed _ _ hready.position).escrow_nonneg
  have hcol := (hready.collateralDelta_bounds hb).1
  have hpaid := closeTransfers_account env hcol a
  rw [r.traderPayout_eq_max] at hpaid
  rw [closeUsdc, settledUsdc_account _ _ hescrow, hpaid]
  have hnone : r.kind ≠ .liquidation → r.bounty env.cfg.feeConfig.1 = 0 := fun hk => if_neg hk
  cases hk : r.kind with
  | user =>
      rw [hnone (by simp [hk]), max_self]
      simp only [CloseRequest.traderCredit, CloseRequest.executorCredit, hk, escrowRecipient]
      by_cases ha : a = r.trader
      · cases hp : r.isPartial <;> simp [ha]
        ring
      · cases hp : r.isPartial <;> simp [ha, Ne.symm ha]
  | deleverage =>
      rw [hnone (by simp [hk]), max_self]
      simp only [CloseRequest.traderCredit, CloseRequest.executorCredit, hk, escrowRecipient]
      by_cases ha : a = r.trader
      · simp [ha]
        ring
      · simp [ha, Ne.symm ha]
  | liquidation =>
      obtain ⟨hbounty, hearned, _⟩ := liquidation_bounty hb h hk
      rw [max_eq_left hearned, hbounty]
      simp [CloseRequest.traderCredit, CloseRequest.executorCredit, hk, escrowRecipient]
  | orderExecution =>
      rw [hnone (by simp [hk]), max_self]
      obtain ⟨addr, hex⟩ := Option.isSome_iff_exists.mp (hready.executor (.inr hk))
      simp [CloseRequest.traderCredit, CloseRequest.executorCredit, hk, escrowRecipient, hex]

/-- What custody releases and nobody is credited with stays in the vault; what is
credited beyond that comes out of it. -/
theorem closeUsdc_vault_credits (hb : Books env) (h : env.closeRequest call = .ok (env1, r)) :
    env.closeUsdc r .vault = env.usdc .vault + (r.collateralDelta + r.settledEscrow) -
      (r.traderCredit + r.executorCredit env.cfg.feeConfig.1) := by
  have hready := (closeRequest_ok h).1
  have hescrow := (hb.wellFormed _ _ hready.position).escrow_nonneg
  have hcol := (hready.collateralDelta_bounds hb).1
  have hreleased := r.collateral_split env.cfg.feeConfig.1 hcol
  have hpayout := r.traderPayout_split hcol
  rw [r.traderPayout_eq_max] at hpayout
  have hnone : r.kind ≠ .liquidation → r.bounty env.cfg.feeConfig.1 = 0 := fun hk => if_neg hk
  have hwhole : r.kind ≠ .user → r.settledEscrow = r.pos.executionFeeEscrow :=
    fun hk => if_pos (hready.whole hk)
  have hpart : r.settledEscrow = if r.isPartial = false then r.pos.executionFeeEscrow else 0 := by
    have hle := hready.size_le
    simp only [CloseRequest.settledEscrow, CloseRequest.isPartial, decide_eq_false_iff_not, not_lt]
    split_ifs <;> omega
  rw [closeUsdc_vault, closeTransfers_vault, totalAssets]
  cases hk : r.kind with
  | user =>
      have hbounty := hnone (by simp [hk])
      simp only [CloseRequest.traderCredit, CloseRequest.executorCredit, escrowRevenue, hk, hpart]
      cases hp : r.isPartial <;> simp <;> omega
  | deleverage =>
      have hbounty := hnone (by simp [hk])
      have hsettled := hwhole (by simp [hk])
      simp only [CloseRequest.traderCredit, CloseRequest.executorCredit, escrowRevenue, hk,
        reduceCtorEq, false_and, or_true, if_true, if_false]
      omega
  | liquidation =>
      obtain ⟨hbounty, hearned, _⟩ := liquidation_bounty hb h hk
      have hsettled := hwhole (by simp [hk])
      simp only [CloseRequest.traderCredit, CloseRequest.executorCredit, escrowRevenue, hk,
        reduceCtorEq, false_and, false_or, if_true, if_false]
      omega
  | orderExecution =>
      have hbounty := hnone (by simp [hk])
      have hsettled := hwhole (by simp [hk])
      simp only [CloseRequest.traderCredit, CloseRequest.executorCredit, escrowRevenue, hk,
        reduceCtorEq, false_and, false_or, if_false]
      omega

/-- Where the money and the fees of a close went. -/
structure SettlementEquation (env env' : Env A S) (r : CloseRequest A S) : Prop where
  accounts : ∀ a, env'.usdc (.account a) = env.usdc (.account a) +
    (if a = r.trader then r.traderCredit else 0) +
    (if r.executor = some a then r.executorCredit env.cfg.feeConfig.1 else 0)
  positionManager : env'.usdc .positionManager =
    env.usdc .positionManager - (r.collateralDelta + r.settledEscrow)
  vault : env'.usdc .vault - env.usdc .vault =
    -(r.traderCredit + r.executorCredit env.cfg.feeConfig.1 -
      (r.collateralDelta + r.settledEscrow))
  bounty : r.kind = .liquidation → r.bounty env.cfg.feeConfig.1 =
    r.collateralDelta * env.cfg.feeConfig.1.liquidationBountyBps / bps
  revenue : env'.vault.unclaimedFees = env.vault.unclaimedFees +
    env.feeSlice (r.distributableFees env.cfg.feeConfig.1) +
    env.feeSlice (escrowRevenue r.kind r.pos.executionFeeEscrow)
  revenue_absorbed : r.eval.effectiveHealth ≤ 0 →
    r.distributableFees env.cfg.feeConfig.1 ≤ r.vaultAbsorbed env.cfg.feeConfig.1 ∧
      r.vaultAbsorbed env.cfg.feeConfig.1 = r.collateralDelta - r.bounty env.cfg.feeConfig.1

/-- Every close that goes through, of whatever kind, settles by the same equation. -/
theorem close_settles (erc : Erc4626) (env env1 env' : Env A S) (call : CloseCall A S)
    (r : CloseRequest A S) (hr : Reachable erc env) (hrequest : env.closeRequest call = .ok (env1, r))
    (hok : env.closePosition call = .ok env') : SettlementEquation env env' r := by
  have hb := reachable_books hr
  obtain ⟨hready, -⟩ := closeRequest_ok hrequest
  have heffect : CloseEffect env env' r := by
    rw [closePosition, hrequest, hready.refreshed] at hok
    exact executeClose_ok hok
  refine ⟨?_, ?_, ?_, ?_, heffect.unclaimedFees, ?_⟩
  · intro a
    rw [heffect.usdc]
    exact closeUsdc_account hb hrequest a
  · rw [heffect.usdc, closeUsdc_positionManager hb hready, CloseRequest.settledEscrow]
    omega
  · rw [heffect.usdc, closeUsdc_vault_credits hb hrequest]
    ring
  · exact fun hk => (liquidation_bounty hb hrequest hk).1
  · intro hunder
    have hpayout : r.traderPayout = 0 := by rw [r.traderPayout_eq_max, max_eq_right hunder]
    constructor
    · rw [CloseRequest.distributableFees, hpayout, if_neg (lt_irrefl 0)]
      exact min_le_right _ _
    · rw [CloseRequest.vaultAbsorbed, CloseRequest.pmToVault, hpayout, sub_zero]

/-- A long of 500 on 100 of collateral, liquidated by account 5 at a loss of 98.5. -/
def liquidatedLong : Env ℕ ℕ :=
  deployed 10000000000
    [.increase ⟨2, 0, 5000000000, 1000000000, true, 0, 0, 0, 1000000000⟩, .advance 3600]

theorem close_settles_liquidatedLong :
    ∃ env1 env' r, liquidatedLong.closeRequest (.liquidate 5 2 0 803000000) = .ok (env1, r) ∧
      liquidatedLong.closePosition (.liquidate 5 2 0 803000000) = .ok env' ∧
      0 < r.eval.effectiveHealth ∧ r.kind = .liquidation ∧
      SettlementEquation liquidatedLong env' r := by
  obtain ⟨⟨env1, r⟩, hrequest, hread⟩ := exists_ok_of_bind_eq_some
    (x := liquidatedLong.closeRequest (.liquidate 5 2 0 803000000))
    (f := fun p => some (decide (0 < p.2.eval.effectiveHealth), decide (p.2.kind = .liquidation)))
    (b := (true, true)) (by decide +kernel)
  obtain ⟨env', hok, -⟩ := exists_ok_of_bind_eq_some
    (x := liquidatedLong.closePosition (.liquidate 5 2 0 803000000)) (f := fun _ => some ())
    (b := ()) (by decide +kernel)
  simp only [Option.some.injEq, Prod.mk.injEq, decide_eq_true_eq] at hread
  exact ⟨env1, env', r, hrequest, hok, hread.1, hread.2,
    close_settles offsetErc liquidatedLong env1 env' _ r (reachable_deployed _ _) hrequest hok⟩

end Balances

end Env

end Stellars
