import Stellars.FairExit
import Stellars.Solvency
import Stellars.WinnerPayout

/-!
# What the vault's exit limits promise

`max_withdraw` converts the owner's shares down to assets and caps them by the
free liquidity; `max_redeem` converts that down to shares again. An exit at
either limit goes through, whatever the ratio of supply to assets.
-/
namespace Stellars
open GuardedRuns TruncatedDivision

namespace Env

/-! ## The formulas of the library -/

section Conversions

variable {total supply assets shares : ℤ}

/-- Assets are within what the shares redeem for exactly if the exact ratio says so. -/
theorem le_previewRedeem_iff (ht : 0 ≤ total) (hs : 0 ≤ supply) (hshares : 0 ≤ shares) :
    assets ≤ offsetErc.previewRedeem shares total supply ↔
      assets * (supply + 1000000) ≤ shares * (total + 1) := by
  have hn : 0 ≤ shares * (total + 1) := mul_nonneg hshares (by omega)
  change assets ≤ (shares * (total + 1)).tdiv (supply + 1000000) ↔ _
  rw [Int.tdiv_eq_ediv_of_nonneg hn]
  exact Int.le_ediv_iff_mul_le (by omega)

/-- What assets convert to, rounded down, redeems for no more than them. -/
theorem previewRedeem_previewDeposit_le (ht : 0 ≤ total) (hs : 0 ≤ supply) (ha : 0 ≤ assets) :
    offsetErc.previewRedeem (offsetErc.previewDeposit assets total supply) total supply ≤
      assets := by
  have hn : 0 ≤ assets * (supply + 1000000) := mul_nonneg ha (by omega)
  have hshares := tdiv_nonneg_bounds (b := total + 1) hn (by omega)
  have hback := Int.tdiv_nonneg hn (show 0 ≤ total + 1 by omega)
  have hassets := tdiv_nonneg_bounds (b := supply + 1000000)
    (mul_nonneg hback (show 0 ≤ total + 1 by omega)) (by omega)
  refine le_of_mul_le_mul_left ?_ (show 0 < supply + 1000000 by omega)
  change (supply + 1000000) * ((assets * (supply + 1000000)).tdiv (total + 1) *
    (total + 1)).tdiv (supply + 1000000) ≤ _
  nlinarith [hassets.1, hshares.1]

/-- Rounding up still burns no more shares than those the exact ratio allows. -/
theorem previewWithdraw_le (ht : 0 ≤ total) (hs : 0 ≤ supply) (ha : 0 ≤ assets)
    (h : assets * (supply + 1000000) ≤ shares * (total + 1)) :
    offsetErc.previewWithdraw assets total supply ≤ shares := by
  have hn : 0 ≤ assets * (supply + 1000000) := mul_nonneg ha (by omega)
  refine tdiv_le_of_lt_mul (by omega) (by omega) ?_
  calc assets * (supply + 1000000) + total < shares * (total + 1) + (total + 1) := by omega
    _ = (shares + 1) * (total + 1) := by ring

theorem previewDeposit_le (ht : 0 ≤ total) (hs : 0 ≤ supply) (ha : 0 ≤ assets)
    (h : assets * (supply + 1000000) ≤ shares * (total + 1)) :
    offsetErc.previewDeposit assets total supply ≤ shares := by
  refine tdiv_le_of_lt_mul (mul_nonneg ha (by omega)) (by omega) ?_
  calc assets * (supply + 1000000) < shares * (total + 1) + (total + 1) := by omega
    _ = (shares + 1) * (total + 1) := by ring

end Conversions

variable {A S : Type} [DecidableEq A] [DecidableEq S]

/-! ## The limits -/

def maxWithdraw (erc : Erc4626) (env : Env A S) (owner : Party A) : ℤ :=
  if env.vault.isPaused then 0
  else min (erc.previewRedeem (env.vault.shares owner) env.totalAssets env.vault.totalSupply)
    env.freeLiquidity

/-- The library's conversion to shares is its preview of a deposit. -/
def maxRedeem (erc : Erc4626) (env : Env A S) (owner : Party A) : ℤ :=
  if env.vault.isPaused then 0
  else erc.previewDeposit (env.maxWithdraw erc owner) env.totalAssets env.vault.totalSupply

/-! ## The vault is never overdrawn -/

section Overdraft

variable {erc : Erc4626} {env env' : Env A S} {op : Op A S}

omit [DecidableEq S] in
theorem moveUsdc_vault_nonneg {src dst : Party A} {amount : ℤ} (h : 0 ≤ env.totalAssets)
    (h0 : 0 ≤ amount) (hle : src = .vault → amount ≤ env.totalAssets) :
    0 ≤ moveUsdc env.usdc src dst amount .vault := by
  unfold totalAssets at h hle
  unfold moveUsdc
  split_ifs with hsrc hdst <;> grind

omit [DecidableEq S] in
/-- What leaves the vault through a call of its own was there. -/
theorem callMove_le {caller : A} {call : VaultCall A} (h0 : 0 ≤ env.totalAssets)
    (h : env.vaultCall erc caller call = .ok env') (hsrc : (env.callMove erc call).1 = .vault) :
    (env.callMove erc call).2.2 ≤ env.totalAssets := by
  cases call with
  | withdraw assets receiver owner =>
      obtain ⟨⟨shares, _⟩, hcall, rfl⟩ := map_eq_ok.mp h
      exact (withdraw_exit hcall).2.assets_le
  | redeem shares receiver owner =>
      obtain ⟨⟨assets, _⟩, hcall, rfl⟩ := map_eq_ok.mp h
      obtain ⟨rfl, hexit⟩ := redeem_exit hcall
      exact hexit.assets_le
  | claimFees recipient =>
      simp only [vaultCall, claimFees, bind_eq_ok] at h
      obtain ⟨_, _, _, _, _, htransfer, _⟩ := h
      exact (transfer_eq_ok.mp htransfer).2.1
  | deposit | mint => cases hsrc
  | _ => exact h0

omit [DecidableEq S] in
theorem MoneyEffect.totalAssets_nonneg {src dst : Party A} {amount fees : ℤ}
    (h : MoneyEffect env env' src dst amount fees) (h0 : 0 ≤ env.totalAssets)
    (hle : src = .vault → amount ≤ env.totalAssets) : 0 ≤ env'.totalAssets := by
  rw [totalAssets, h.usdc]
  exact moveUsdc_vault_nonneg h0 h.nonneg hle

theorem totalAssets_nonneg_apply (hr : Reachable erc env) (h0 : 0 ≤ env.totalAssets)
    (hok : env.apply erc op = .ok env') : 0 ≤ env'.totalAssets := by
  cases apply_effect hok with
  | @increase req _ _ awake size_pos effect =>
      rw [totalAssets, effect.usdc, moveUsdc_dst _ _ (by simp),
        moveUsdc_other _ _ (by simp) (by simp)]
      exact add_nonneg h0 (env.openFee_nonneg req)
  | @close _ r _ names ready effect =>
      -- A winner is paid out of what the remaining reservations and the fees leave.
      have hd := ready.sizeDelta_pos (reachable_books hr)
      have hreleased := effect.released hd
      have hpay := effect.payable
      have hfees := reachable_fees_nonneg hr
      rw [totalAssets, effect.usdc, closeUsdc_vault, closeTransfers_vault]
      omega
  | setTpSl position hdelta => simpa [setPosition, totalAssets, moveUsdc] using h0
  | @updateIndices _ symbol _ awake price_pos =>
      obtain ⟨markets, hf⟩ := env.freshEnv_eq symbol
      rw [hf]
      exact h0
  | quiet h =>
      cases h with
      | transferUsdc h => exact h.totalAssets_nonneg h0 (by rintro ⟨⟩)
      | vault h => exact h.totalAssets_nonneg h0 (callMove_le h0 hok)
      | _ => exact h0

theorem reachable_totalAssets_nonneg (hr : Reachable erc env) : 0 ≤ env.totalAssets :=
  hr.induction_apply (fun _ usdc _ => Int.natCast_nonneg (usdc .vault))
    fun _ _ _ => totalAssets_nonneg_apply

end Overdraft

/-! ## An exit at the limit -/

section Exits

variable {erc : Erc4626} {env : Env A S} {owner : A} {assets shares : ℤ}

/-- The owner may leave now. -/
structure MayExit (env : Env A S) (owner : A) : Prop where
  awake : env.vault.isPaused = false
  unlocked : ∀ expiry, env.vault.lockupExpiresAt (.account owner) = some expiry →
    expiry ≤ env.timestamp

omit [DecidableEq A] [DecidableEq S] in
theorem MayExit.lockupElapsed (h : MayExit env owner) :
    env.requireLockupElapsed (.account owner) = .ok () := by
  unfold requireLockupElapsed
  cases hexpiry : env.vault.lockupExpiresAt (.account owner) with
  | none => rfl
  | some expiry => exact failIf_eq_ok.mpr (not_lt.mpr (h.unlocked expiry hexpiry))

omit [DecidableEq S] in
/-- The owner's own exit asks for the shares and the money only. -/
theorem withdrawInternal_self (receiver : Party A) (ha : 0 ≤ assets)
    (hassets : assets ≤ env.totalAssets) (hs : 0 ≤ shares)
    (hshares : shares ≤ env.vault.shares (.account owner)) :
    ∃ env', env.withdrawInternal assets shares receiver owner owner = .ok env' := by
  simp only [withdrawInternal, spendAllowance, burnShares, if_true, bind_eq_ok, failIf_eq_ok,
    Except.ok.injEq, exists_const, not_lt, exists_eq_left']
  exact ⟨_, _, ⟨hs, hshares, rfl⟩, transfer_eq_ok.mpr ⟨ha, hassets, rfl⟩⟩

/-- An amount that the free liquidity and the owner's shares cover at the exact
rate can be withdrawn. -/
theorem withdraw_covered (receiver : Party A) (hr : Reachable offsetErc env)
    (h : MayExit env owner) (ha : 0 ≤ assets) (hfree : assets ≤ env.freeLiquidity)
    (hassets : assets ≤ env.totalAssets)
    (hshares : assets * (env.vault.totalSupply + 1000000) ≤
      env.vault.shares (.account owner) * (env.totalAssets + 1)) :
    ∃ shares env', env.withdraw offsetErc assets receiver owner owner = .ok (shares, env') := by
  have ht := reachable_totalAssets_nonneg hr
  have hs := supply_nonneg hr
  have hheld := (reachable_sharesCounted hr).nonneg (.account owner)
  have hburned := previewWithdraw_le ht hs ha hshares
  have hburned0 : 0 ≤ offsetErc.previewWithdraw assets env.totalAssets env.vault.totalSupply :=
    Int.tdiv_nonneg (add_nonneg (mul_nonneg ha (by omega)) ht) (by omega)
  have hmax := (le_previewRedeem_iff ht hs hheld).mpr hshares
  obtain ⟨env', hinner⟩ := withdrawInternal_self receiver ha hassets hburned0 hburned
  refine ⟨offsetErc.previewWithdraw assets env.totalAssets env.vault.totalSupply, env', ?_⟩
  simp only [withdraw, requireVaultNotPaused, requireFreeLiquidity, h.awake, h.lockupElapsed,
    bind_eq_ok, failIf_eq_ok, exists_const, not_lt, hinner]
  exact ⟨Bool.false_ne_true, trivial, hfree, hmax, env', rfl, rfl⟩

/-- Shares that the owner holds and that redeem for free liquidity can be redeemed. -/
theorem redeem_covered (receiver : Party A) (hr : Reachable offsetErc env)
    (h : MayExit env owner) (hs : 0 ≤ shares)
    (hshares : shares ≤ env.vault.shares (.account owner))
    (hfree : offsetErc.previewRedeem shares env.totalAssets env.vault.totalSupply ≤
      env.freeLiquidity)
    (hassets : offsetErc.previewRedeem shares env.totalAssets env.vault.totalSupply ≤
      env.totalAssets) :
    ∃ assets env', env.redeem offsetErc shares receiver owner owner = .ok (assets, env') := by
  have ht := reachable_totalAssets_nonneg hr
  have hpaid : 0 ≤ offsetErc.previewRedeem shares env.totalAssets env.vault.totalSupply :=
    Int.tdiv_nonneg (mul_nonneg hs (by omega)) (by have := supply_nonneg hr; omega)
  obtain ⟨env', hinner⟩ := withdrawInternal_self receiver hpaid hassets hs hshares
  refine ⟨offsetErc.previewRedeem shares env.totalAssets env.vault.totalSupply, env', ?_⟩
  simp only [redeem, requireVaultNotPaused, requireFreeLiquidity, h.awake, h.lockupElapsed,
    bind_eq_ok, failIf_eq_ok, exists_const, not_lt, hinner]
  exact ⟨Bool.false_ne_true, trivial, hfree, hshares, env', rfl, rfl⟩

/-- What `max_withdraw` allows, the owner's shares and the free liquidity cover. -/
theorem maxWithdraw_covered (hr : Reachable offsetErc env) (h : MayExit env owner) :
    0 ≤ env.maxWithdraw offsetErc (.account owner) ∧
      env.maxWithdraw offsetErc (.account owner) ≤ env.freeLiquidity ∧
      env.maxWithdraw offsetErc (.account owner) ≤ env.totalAssets ∧
      env.maxWithdraw offsetErc (.account owner) * (env.vault.totalSupply + 1000000) ≤
        env.vault.shares (.account owner) * (env.totalAssets + 1) := by
  have ht := reachable_totalAssets_nonneg hr
  have hs := supply_nonneg hr
  have hheld := (reachable_sharesCounted hr).nonneg (.account owner)
  have hfree : env.freeLiquidity ≤ env.totalAssets := by
    have hreserved := (reachable_books hr).reserved_nonneg
    have hfees := reachable_fees_nonneg hr
    simp only [freeLiquidity]
    split_ifs <;> omega
  rw [maxWithdraw, h.awake, if_neg Bool.false_ne_true]
  refine ⟨le_min ?_ env.freeLiquidity_nonneg, min_le_right _ _, (min_le_right _ _).trans hfree, ?_⟩
  · exact Int.tdiv_nonneg (mul_nonneg hheld (by omega)) (by omega)
  · exact (le_previewRedeem_iff ht hs hheld).mp (min_le_left _ _)

end Exits

/-- An unpaused vault honours both of its limits to an owner whose lockup is over. -/
theorem exit_limits_honoured {env : Env A S} {owner : A} (receiver : Party A)
    (hr : Reachable offsetErc env) (hp : env.vault.isPaused = false)
    (hlockup : ∀ expiry, env.vault.lockupExpiresAt (.account owner) = some expiry →
      expiry ≤ env.timestamp) :
    (∃ shares env', env.withdraw offsetErc (env.maxWithdraw offsetErc (.account owner)) receiver
      owner owner = .ok (shares, env')) ∧
    ∃ assets env', env.redeem offsetErc (env.maxRedeem offsetErc (.account owner)) receiver
      owner owner = .ok (assets, env') := by
  have hexit : MayExit env owner := ⟨hp, hlockup⟩
  have ht := reachable_totalAssets_nonneg hr
  have hs := supply_nonneg hr
  obtain ⟨ha, hfree, hassets, hshares⟩ := maxWithdraw_covered hr hexit
  refine ⟨withdraw_covered receiver hr hexit ha hfree hassets hshares, ?_⟩
  have hback := previewRedeem_previewDeposit_le ht hs ha
  rw [maxRedeem, hp, if_neg Bool.false_ne_true]
  refine redeem_covered receiver hr hexit ?_ ?_ (hback.trans hfree) (hback.trans hassets)
  · exact Int.tdiv_nonneg (mul_nonneg ha (by omega)) (by omega)
  · exact previewDeposit_le ht hs ha hshares

/-- The free liquidity binds there: half of the deposit is reserved. -/
theorem exit_limits_honoured_vaultWithFees :
    (∃ shares env', vaultWithFees.withdraw offsetErc
      (vaultWithFees.maxWithdraw offsetErc (.account 1)) (.account 1) 1 1 = .ok (shares, env')) ∧
    ∃ assets env', vaultWithFees.redeem offsetErc
      (vaultWithFees.maxRedeem offsetErc (.account 1)) (.account 1) 1 1 = .ok (assets, env') := by
  refine exit_limits_honoured (.account 1) (reachable_deployed _ _) (by decide +kernel) ?_
  intro expiry hexpiry
  have hset : vaultWithFees.vault.lockupExpiresAt (.account 1) = some 1300 := by decide +kernel
  rw [hset] at hexpiry
  cases hexpiry
  decide +kernel

end Env
end Stellars
