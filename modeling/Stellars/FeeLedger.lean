import Stellars.RealizedCash
import Stellars.Settlement

/-!
# Revenue, fees and what is left to the liquidity providers

Every open fee, every fee settled at a close and every escrow that a liquidation forfeits is
revenue. The part of it that the split takes away from the liquidity providers goes to the fee
buffer, rounded down each time, and leaves it only through a claim. The rest of the vault's
money is theirs, and changes only by their own deposits and withdrawals, by the traders' gains
and losses, and by their part of the revenue.
-/
namespace Stellars
open GuardedRuns KeyedTotals

namespace Env

variable {A S : Type} [DecidableEq A] [DecidableEq S]

/-- The part of all revenue that is not the liquidity providers', in basis points. -/
def nonLpBps (env : Env A S) : ℤ := (env.cfg.feeSplits.1.devBps + env.cfg.feeSplits.1.stakerBps : ℕ)

/-- The amounts of revenue of a step, each of which is split on its own. -/
def revenues (erc : Erc4626) (env : Env A S) (op : Op A S) : List ℤ :=
  match op, env.apply erc op with
  | .increase req, .ok _ => [env.openFee req]
  | _, _ =>
      match settledClose erc env op with
      | some r => [r.distributableFees env.cfg.feeConfig.1,
          escrowRevenue r.kind r.pos.executionFeeEscrow]
      | none => []

/-- What the step puts into the fee buffer. -/
def accruedFees (erc : Erc4626) (env : Env A S) (op : Op A S) : ℤ :=
  ((revenues erc env op).map env.feeSlice).sum

/-- The same without any rounding, in basis points of a unit. -/
def feesDue (erc : Erc4626) (env : Env A S) (op : Op A S) : ℤ :=
  ((revenues erc env op).map fun amount => max amount 0 * env.nonLpBps).sum

/-- What the step takes out of the fee buffer. -/
def claimedFees (erc : Erc4626) (env : Env A S) (op : Op A S) : ℤ :=
  match op, env.apply erc op with
  | .vault _ (.claimFees _), .ok _ => env.vault.unclaimedFees
  | _, _ => 0

/-- What the liquidity providers own. -/
def lpEquity (env : Env A S) : ℤ := env.totalAssets - env.vault.unclaimedFees

/-- Deposits less withdrawals, gifts to the vault, and claimed fees sent to it. -/
def lpFlow (erc : Erc4626) (env : Env A S) (op : Op A S) : ℤ :=
  match op, env.apply erc op with
  | .transferUsdc _ dst amount, .ok _ => if dst = .vault then amount else 0
  | .vault _ (.deposit assets _ _), .ok _ => assets
  | .vault _ (.mint shares _ _), .ok _ =>
      erc.previewMint shares env.totalAssets env.vault.totalSupply
  | .vault _ (.withdraw assets receiver _), .ok _ => if receiver = .vault then 0 else -assets
  | .vault _ (.redeem shares receiver _), .ok _ =>
      if receiver = .vault then 0
      else -erc.previewRedeem shares env.totalAssets env.vault.totalSupply
  | .vault _ (.claimFees recipient), .ok _ =>
      if recipient = .vault then env.vault.unclaimedFees else 0
  | _, _ => 0

/-- Revenue less the fees set aside, and the traders' losses less their gains and the bounties. -/
def lpIncome (erc : Erc4626) (env : Env A S) (op : Op A S) : ℤ :=
  match op, env.apply erc op with
  | .increase req, .ok _ => env.openFee req - accruedFees erc env op
  | _, _ =>
      match settledClose erc env op with
      | some r => escrowRevenue r.kind r.pos.executionFeeEscrow - r.cash -
          r.bounty env.cfg.feeConfig.1 - accruedFees erc env op
      | none => 0

section Rounding

variable {env : Env A S}

omit [DecidableEq A] [DecidableEq S] in
/-- A slice is its part of the amount, rounded down. -/
theorem feeSlice_due (env : Env A S) (amount : ℤ) :
    bps * env.feeSlice amount ≤ max amount 0 * env.nonLpBps ∧
      max amount 0 * env.nonLpBps < bps * env.feeSlice amount + bps := by
  by_cases h : amount ≤ 0
  · rw [env.feeSlice_of_nonpos h, max_eq_right h]
    unfold bps
    omega
  · have hpos : 0 ≤ amount * env.nonLpBps :=
      mul_nonneg (by omega) (Int.natCast_nonneg _)
    obtain ⟨hle, hlt⟩ := TruncatedDivision.tdiv_nonneg_bounds (b := bps) hpos (by decide)
    rw [max_eq_left (by omega), feeSlice, if_neg h]
    exact ⟨hle, hlt⟩

theorem accruedFees_due (erc : Erc4626) (env : Env A S) (op : Op A S) :
    bps * accruedFees erc env op ≤ feesDue erc env op ∧
      feesDue erc env op ≤ bps * accruedFees erc env op + (bps - 1) * (revenues erc env op).length := by
  unfold accruedFees feesDue
  induction revenues erc env op with
  | nil => simp
  | cons amount amounts ih =>
      obtain ⟨hle, hlt⟩ := env.feeSlice_due amount
      simp only [List.map_cons, List.sum_cons, List.length_cons]
      push_cast
      unfold bps at *
      constructor <;> omega

end Rounding

section Steps

variable {erc : Erc4626} {env env' : Env A S} {op : Op A S}

/-- A step that reverts earns and pays nothing. -/
theorem nothing_of_error {e : Error} (h : env.apply erc op = .error e) :
    revenues erc env op = [] ∧ claimedFees erc env op = 0 ∧ lpFlow erc env op = 0 ∧
      lpIncome erc env op = 0 := by
  have hsettled : settledClose erc env op = none := by
    unfold settledClose
    rw [h]
    cases op <;> rfl
  refine ⟨?_, ?_, ?_, ?_⟩
  · unfold revenues
    rw [hsettled, h]
    cases op <;> rfl
  · unfold claimedFees
    rw [h]
    split <;> simp_all
  · unfold lpFlow
    rw [h]
    split <;> simp_all
  · unfold lpIncome
    rw [hsettled, h]
    cases op <;> rfl

theorem settledClose_of_not_close (hop : ∀ call, op ≠ .close call) :
    settledClose erc env op = none := by
  unfold settledClose
  split
  · next call _ _ => exact absurd rfl (hop call)
  · rfl

theorem no_revenue (hop : ∀ call, op ≠ .close call) (hop' : ∀ req, op ≠ .increase req) :
    accruedFees erc env op = 0 ∧ lpIncome erc env op = 0 := by
  have hsettled : settledClose erc env op = none := settledClose_of_not_close hop
  refine ⟨?_, ?_⟩
  · unfold accruedFees revenues
    split
    · next req _ _ => exact absurd rfl (hop' req)
    · rw [hsettled]
      rfl
  · unfold lpIncome
    split
    · next req _ _ => exact absurd rfl (hop' req)
    · rw [hsettled]

theorem closeRequest_of_settledClose {r : CloseRequest A S}
    (h : settledClose erc env op = some r) :
    ∃ call env1, op = .close call ∧ env.closeRequest call = .ok (env1, r) := by
  unfold settledClose at h
  split at h
  · next call _ _ =>
      cases hrequest : env.closeRequest call with
      | error e => simp [hrequest, Except.toOption] at h
      | ok p =>
          rw [hrequest] at h
          cases h
          exact ⟨call, p.1, rfl, hrequest⟩
  · cases h

theorem exists_settledClose {call : CloseCall A S} (h : env.apply erc (.close call) = .ok env') :
    ∃ r, settledClose erc env (.close call) = some r := by
  obtain ⟨⟨env1, r⟩, hrequest, _⟩ := bind_eq_ok.mp h
  refine ⟨r, ?_⟩
  simp only [settledClose, h, hrequest]
  rfl

/-- The vault loses what the trader and the liquidator gain. -/
theorem vault_loss {call : CloseCall A S} {env1 : Env A S} {r : CloseRequest A S} (hb : Books env)
    (h : env.closeRequest call = .ok (env1, r)) :
    max r.vaultToTrader 0 - max (r.vaultAbsorbed env.cfg.feeConfig.1) 0 =
      r.cash + r.bounty env.cfg.feeConfig.1 := by
  have hcash : r.vaultToTrader = r.cash := rfl
  have habsorbed : r.vaultAbsorbed env.cfg.feeConfig.1 =
      -r.cash - r.bounty env.cfg.feeConfig.1 := by
    simp only [CloseRequest.vaultAbsorbed, CloseRequest.pmToVault, CloseRequest.cash]
    ring
  by_cases hk : r.kind = .liquidation
  · obtain ⟨_, hearned, hcovered⟩ := liquidation_bounty hb h hk
    omega
  · have hbounty : r.bounty env.cfg.feeConfig.1 = 0 := if_neg hk
    omega

/-- What a settled close adds to the buffer and to the vault. -/
theorem close_step {r : CloseRequest A S} (hb : Books env)
    (h : settledClose erc env op = some r) :
    (env.step erc op).vault.unclaimedFees = env.vault.unclaimedFees + accruedFees erc env op ∧
      (env.step erc op).lpEquity = env.lpEquity + lpIncome erc env op := by
  obtain ⟨call, env1, rfl, hrequest⟩ := closeRequest_of_settledClose h
  obtain ⟨_, _, _, hready, heff⟩ := settledClose_eq_some h
  have haccrued : accruedFees erc env (.close call) =
      env.feeSlice (r.distributableFees env.cfg.feeConfig.1) +
        env.feeSlice (escrowRevenue r.kind r.pos.executionFeeEscrow) := by
    simp [accruedFees, revenues, h]
  have hfees : (env.step erc (.close call)).vault.unclaimedFees =
      env.vault.unclaimedFees + accruedFees erc env (.close call) := by
    rw [heff.unclaimedFees, haccrued, add_assoc]
  refine ⟨hfees, ?_⟩
  have hescrow := (hb.wellFormed _ _ hready.position).escrow_nonneg
  have hrevenue : 0 ≤ escrowRevenue r.kind r.pos.executionFeeEscrow := by
    unfold escrowRevenue
    split_ifs <;> omega
  have hvault : (env.step erc (.close call)).totalAssets =
      env.totalAssets - max r.vaultToTrader 0 + max (r.vaultAbsorbed env.cfg.feeConfig.1) 0 +
        escrowRevenue r.kind r.pos.executionFeeEscrow := by
    rw [totalAssets, heff.usdc, closeUsdc_vault, closeTransfers_vault, max_eq_left hrevenue]
  have hincome : lpIncome erc env (.close call) =
      escrowRevenue r.kind r.pos.executionFeeEscrow - r.cash -
        r.bounty env.cfg.feeConfig.1 - accruedFees erc env (.close call) := by
    simp [lpIncome, h]
  have hloss := vault_loss hb hrequest
  rw [lpEquity, lpEquity, hfees, hvault, hincome]
  omega

theorem increase_step {req : IncreaseRequest A S} (h : env.apply erc (.increase req) = .ok env') :
    env'.vault.unclaimedFees = env.vault.unclaimedFees + accruedFees erc env (.increase req) ∧
      env'.lpEquity = env.lpEquity + lpIncome erc env (.increase req) := by
  obtain ⟨_, _, pos, heff⟩ := increasePosition_ok h
  have haccrued : accruedFees erc env (.increase req) = env.feeSlice (env.openFee req) := by
    simp [accruedFees, revenues, h]
  have hvault : env'.totalAssets = env.totalAssets + env.openFee req := by
    rw [totalAssets, heff.usdc, moveUsdc_dst _ _ (by simp), moveUsdc_other _ _ (by simp) (by simp)]
    rfl
  have hincome : lpIncome erc env (.increase req) =
      env.openFee req - accruedFees erc env (.increase req) := by
    simp [lpIncome, h]
  rw [heff.unclaimedFees, lpEquity, lpEquity, hvault, heff.unclaimedFees, hincome, haccrued]
  refine ⟨rfl, ?_⟩
  omega

omit [DecidableEq S] in
/-- What a vault call does to the buffer and to the rest of the vault. -/
theorem vaultCall_step {caller : A} {call : VaultCall A}
    (h : env.vaultCall erc caller call = .ok env') :
    env'.vault.unclaimedFees = env.feesAfter call ∧
      env'.totalAssets = env.totalAssets -
          (if (env.callMove erc call).1 = .vault then (env.callMove erc call).2.2 else 0) +
          (if (env.callMove erc call).2.1 = .vault then (env.callMove erc call).2.2 else 0) := by
  have hmoney := vaultCall_effect h
  refine ⟨hmoney.unclaimedFees, ?_⟩
  rw [totalAssets, hmoney.usdc]
  simp only [moveUsdc, eq_comm (a := Party.vault)]
  rfl

/-- What a successful operation does to the fee buffer and to what is left to the
liquidity providers. -/
theorem ledger_apply (hb : Books env) (h : env.apply erc op = .ok env') :
    env'.vault.unclaimedFees =
        env.vault.unclaimedFees + (accruedFees erc env op - claimedFees erc env op) ∧
      env'.lpEquity = env.lpEquity + (lpFlow erc env op + lpIncome erc env op) := by
  have hnone := @no_revenue A S _ _ erc env op
  cases op with
  | increase req =>
      obtain ⟨hfees, hequity⟩ := increase_step h
      rw [hfees, hequity]
      simp [claimedFees, lpFlow]
  | close call =>
      obtain ⟨r, hr⟩ := exists_settledClose h
      obtain ⟨hfees, hequity⟩ := close_step hb hr
      rw [step, h] at hfees hequity
      rw [hfees, hequity]
      simp [claimedFees, lpFlow]
  | vault caller call =>
      obtain ⟨haccrued, hincome⟩ := hnone (by simp) (by simp)
      obtain ⟨hfees, hvault⟩ := vaultCall_step h
      rw [lpEquity, lpEquity, hfees, hvault, haccrued, hincome]
      cases call with
      | deposit | mint => simp [claimedFees, lpFlow, h, feesAfter, callMove]; omega
      | withdraw assets receiver owner =>
          obtain rfl | hv := eq_or_ne receiver .vault
          · simp [claimedFees, lpFlow, h, feesAfter, callMove]
          · simp [claimedFees, lpFlow, h, feesAfter, callMove, hv]
            omega
      | redeem shares receiver owner =>
          obtain rfl | hv := eq_or_ne receiver .vault
          · simp [claimedFees, lpFlow, h, feesAfter, callMove]
          · simp [claimedFees, lpFlow, h, feesAfter, callMove, hv]
            omega
      | claimFees recipient =>
          obtain rfl | hv := eq_or_ne recipient .vault
          · simp [claimedFees, lpFlow, h, feesAfter, callMove]
          · simp [claimedFees, lpFlow, h, feesAfter, callMove, hv]
      | _ => simp [claimedFees, lpFlow, feesAfter, callMove]
  | transferUsdc src dst amount =>
      obtain ⟨haccrued, hincome⟩ := hnone (by simp) (by simp)
      obtain ⟨_, _, rfl⟩ := transfer_eq_ok.mp h
      rw [haccrued, hincome]
      obtain rfl | hv := eq_or_ne dst .vault
      · simp [claimedFees, lpFlow, h, lpEquity, totalAssets, moveUsdc]
        omega
      · simp [claimedFees, lpFlow, h, lpEquity, totalAssets, moveUsdc, hv, Ne.symm hv]
  | setTpSl trader symbol takeProfit stopLoss =>
      obtain ⟨haccrued, hincome⟩ := hnone (by simp) (by simp)
      obtain ⟨pos, _, rfl⟩ := setTpSl_ok h
      rw [haccrued, hincome]
      simp [claimedFees, lpFlow, lpEquity, totalAssets, moveUsdc, setPosition]
  | updateIndices caller symbol price =>
      obtain ⟨haccrued, hincome⟩ := hnone (by simp) (by simp)
      obtain ⟨_, _, rfl⟩ := updateIndices_ok h
      obtain ⟨markets, hf⟩ := env.freshEnv_eq symbol
      rw [haccrued, hincome, hf]
      simp [claimedFees, lpFlow, lpEquity, totalAssets, withMarketPnl, setMarkets]
  | advance | config | pause | unpause | setMaxLeverage | setMarketDisabled =>
      obtain ⟨haccrued, hincome⟩ := hnone (by simp) (by simp)
      rw [haccrued, hincome]
      cases apply_effect h with
      | quiet h => cases h <;> simp [claimedFees, lpFlow, lpEquity, totalAssets]

theorem ledger_step (hb : Books env) (op : Op A S) :
    (env.step erc op).vault.unclaimedFees =
        env.vault.unclaimedFees + (accruedFees erc env op - claimedFees erc env op) ∧
      (env.step erc op).lpEquity =
        env.lpEquity + (lpFlow erc env op + lpIncome erc env op) := by
  obtain ⟨heq, e, herr⟩ | ⟨hok, _⟩ := step_cases erc env op
  · obtain ⟨hnone, hclaimed, hflow, hincome⟩ := nothing_of_error herr
    rw [heq, accruedFees, hnone, hclaimed, hflow, hincome]
    simp
  · exact ledger_apply hb hok

end Steps

section Runs

variable {erc : Erc4626} {env : Env A S}

/-- The buffer holds what was accrued and not yet claimed; what was accrued is the fee part
of all revenue up to less than one unit for each amount of it; and the rest of the vault is
what the liquidity providers brought, less what they took, plus what the vault earned. -/
structure LedgerBalanced (erc : Erc4626) (env : Env A S) (ops : List (Op A S)) : Prop where
  buffer : (run (step erc) env ops).vault.unclaimedFees + sumAlong (step erc) (claimedFees erc) env ops =
    env.vault.unclaimedFees + sumAlong (step erc) (accruedFees erc) env ops
  accrued_le : bps * sumAlong (step erc) (accruedFees erc) env ops ≤
    sumAlong (step erc) (feesDue erc) env ops
  due_le : sumAlong (step erc) (feesDue erc) env ops ≤
    bps * sumAlong (step erc) (accruedFees erc) env ops +
      (bps - 1) * sumAlong (step erc) (fun env op => (revenues erc env op).length) env ops
  equity : (run (step erc) env ops).lpEquity =
    env.lpEquity + sumAlong (step erc) (lpFlow erc) env ops +
      sumAlong (step erc) (lpIncome erc) env ops

theorem ledger_balanced (hr : Reachable erc env) (ops : List (Op A S)) :
    LedgerBalanced erc env ops := by
  have hinv : ∀ (env : Env A S) op, Reachable erc env → Reachable erc (env.step erc op) :=
    fun _ op h => h.run [op]
  have hbuffer := run_balance (φ := fun env : Env A S => env.vault.unclaimedFees) ops hinv
    (fun env op h => (ledger_step (reachable_books h) op).1) hr
  have hequity := run_balance (φ := lpEquity) ops hinv
    (fun env op h => (ledger_step (reachable_books h) op).2) hr
  rw [sumAlong_sub] at hbuffer
  rw [sumAlong_add] at hequity
  refine ⟨by omega, ?_, ?_, by omega⟩
  · rw [← sumAlong_mul]
    exact sumAlong_le fun env op => (accruedFees_due erc env op).1
  · rw [← sumAlong_mul, ← sumAlong_mul, ← sumAlong_add]
    exact sumAlong_le fun env op => (accruedFees_due erc env op).2

/-- A long of 500 is opened and closed, and the administrator claims the fees. -/
theorem ledger_balanced_claimedFees :
    LedgerBalanced offsetErc (deployed 10000000000 [])
      [.increase ⟨2, 0, 5000000000, 1000000000, true, 0, 0, 0, 1000000000⟩, .advance 3600,
        .close (.decrease 2 0 5000000000 0 1010000000), .vault 0 (.claimFees (.account 0))] :=
  ledger_balanced (reachable_deployed _ _) _

end Runs

end Env

end Stellars
