import Stellars.Books
import Stellars.ShareLedger

/-!
# What a leaving provider is paid

Shares convert to assets at the library's rate on the raw vault balance, while
the providers own only the part of it that is neither an unclaimed fee nor owed
to winning traders. An exit is fair when it pays no more than its share of that
part.
-/
namespace Stellars
open GuardedRuns TruncatedDivision

namespace Env

variable {A S : Type} [DecidableEq A] [DecidableEq S]

/-- What the vault's documentation calls the LP-claimable basis. -/
def lpBasis (env : Env A S) : ℤ := env.freeLiquidity + env.vault.reservedUsdc

/-- The payment is within the burned shares' part of the basis, and what the
remaining shares stand for has not fallen. -/
def FairExit (env env' : Env A S) (assets shares : ℤ) : Prop :=
  assets * env.vault.totalSupply ≤ shares * env.lpBasis ∧
    env.lpBasis * env'.vault.totalSupply ≤ env'.lpBasis * env.vault.totalSupply

/-- The raw rate, with its virtual assets and shares, does not carry `shares` to
the next whole unit above their part of the basis. -/
def FairRedeem (env : Env A S) (shares : ℤ) : Prop :=
  shares * (env.totalAssets + 1) <
    (shares * env.lpBasis / env.vault.totalSupply + 1) * (env.vault.totalSupply + 1000000)

/-- The raw rate charges more than the shares just below what `assets` are worth
in the basis. -/
def FairWithdraw (env : Env A S) (assets : ℤ) : Prop :=
  (-(-(assets * env.vault.totalSupply) / env.lpBasis) - 1) * (env.totalAssets + 1) <
    assets * (env.vault.totalSupply + 1000000)

/-- What both exits do: burn `shares` of some holder and pay `assets` out of the
free liquidity. -/
structure ExitEffect (env env' : Env A S) (assets shares : ℤ) : Prop where
  assets_nonneg : 0 ≤ assets
  assets_le : assets ≤ env.totalAssets
  free : assets ≤ env.freeLiquidity
  shares_nonneg : 0 ≤ shares
  held : ∃ owner, shares ≤ env.vault.shares owner
  supply : env'.vault.totalSupply = env.vault.totalSupply - shares
  basis : env.lpBasis - assets ≤ env'.lpBasis

section Exits

variable {erc : Erc4626} {env env' : Env A S} {assets shares : ℤ}

omit [DecidableEq S] in
/-- Paying out of the free liquidity lowers the basis by at most the payment. -/
theorem lpBasis_after_payment {receiver : Party A} (h0 : 0 ≤ assets)
    (hfree : assets ≤ env.freeLiquidity)
    (husdc : env'.totalAssets = moveUsdc env.usdc .vault receiver assets .vault)
    (hreserved : env'.vault.reservedUsdc = env.vault.reservedUsdc)
    (hfees : env'.vault.unclaimedFees = env.vault.unclaimedFees)
    (hpnl : env'.vault.netGlobalTraderPnl = env.vault.netGlobalTraderPnl) :
    env.lpBasis - assets ≤ env'.lpBasis := by
  have hassets : env.totalAssets - assets ≤ env'.totalAssets := by
    rw [husdc, moveUsdc, totalAssets, if_pos rfl]
    split_ifs <;> omega
  unfold lpBasis freeLiquidity at *
  rw [hreserved, hfees, hpnl]
  dsimp only at *
  split_ifs at * <;> omega

omit [DecidableEq S] in
theorem withdrawInternal_exit {receiver : Party A} {owner operator : A}
    (hfree : assets ≤ env.freeLiquidity)
    (h : env.withdrawInternal assets shares receiver owner operator = .ok env') :
    ExitEffect env env' assets shares := by
  simp only [withdrawInternal, burnShares, bind_eq_ok, failIf_eq_ok, Except.ok.injEq, not_lt,
    exists_const] at h
  obtain ⟨env1, hspend, env2, ⟨hnonneg, hheld, rfl⟩, htransfer⟩ := h
  obtain ⟨allowance, rfl⟩ := spendAllowance_ok hspend
  obtain ⟨h0, hle, rfl⟩ := transfer_eq_ok.mp htransfer
  exact ⟨h0, hle, hfree, hnonneg, ⟨_, hheld⟩, rfl, lpBasis_after_payment h0 hfree rfl rfl rfl rfl⟩

omit [DecidableEq S] in
theorem withdraw_exit {receiver : Party A} {owner operator : A}
    (h : env.withdraw erc assets receiver owner operator = .ok (shares, env')) :
    shares = erc.previewWithdraw assets env.totalAssets env.vault.totalSupply ∧
      ExitEffect env env' assets shares := by
  simp only [withdraw, requireVaultNotPaused, requireFreeLiquidity, bind_eq_ok,
    failIf_eq_ok, exists_const, Except.ok.injEq, Prod.mk.injEq, not_lt] at h
  obtain ⟨_, _, _, hfree, _, env1, hinner, rfl, rfl⟩ := h
  exact ⟨rfl, withdrawInternal_exit hfree hinner⟩

omit [DecidableEq S] in
theorem redeem_exit {receiver : Party A} {owner operator : A}
    (h : env.redeem erc shares receiver owner operator = .ok (assets, env')) :
    assets = erc.previewRedeem shares env.totalAssets env.vault.totalSupply ∧
      ExitEffect env env' assets shares := by
  simp only [redeem, requireVaultNotPaused, requireFreeLiquidity, bind_eq_ok,
    failIf_eq_ok, exists_const, Except.ok.injEq, Prod.mk.injEq, not_lt] at h
  obtain ⟨_, _, _, hfree, _, env1, hinner, rfl, rfl⟩ := h
  exact ⟨rfl, withdrawInternal_exit hfree hinner⟩

omit [DecidableEq A] [DecidableEq S] in
/-- A payment within its part leaves the others' value per share intact. -/
theorem fairExit_iff (hs : 0 ≤ env.vault.totalSupply) (h : ExitEffect env env' assets shares) :
    FairExit env env' assets shares ↔
      assets * env.vault.totalSupply ≤ shares * env.lpBasis := by
  refine ⟨fun hfair => hfair.1, fun hle => ⟨hle, ?_⟩⟩
  calc env.lpBasis * env'.vault.totalSupply
      = env.lpBasis * env.vault.totalSupply - shares * env.lpBasis := by
        rw [h.supply]
        ring
    _ ≤ env.lpBasis * env.vault.totalSupply - assets * env.vault.totalSupply := by omega
    _ = (env.lpBasis - assets) * env.vault.totalSupply := by ring
    _ ≤ env'.lpBasis * env.vault.totalSupply := mul_le_mul_of_nonneg_right h.basis hs

theorem supply_nonneg (hr : Reachable erc env) : 0 ≤ env.vault.totalSupply := by
  have hc := reachable_sharesCounted hr
  exact (hc.nonneg .vault).trans (hc.supply.le hc.nonneg .vault)

/-- The shares that leave are part of the supply. -/
theorem ExitEffect.shares_le (hr : Reachable erc env) (h : ExitEffect env env' assets shares) :
    shares ≤ env.vault.totalSupply := by
  have hc := reachable_sharesCounted hr
  obtain ⟨owner, hheld⟩ := h.held
  exact hheld.trans (hc.supply.le hc.nonneg owner)

theorem fair_redeem_iff {receiver : Party A} {owner operator : A}
    (hr : Reachable offsetErc env)
    (h : env.redeem offsetErc shares receiver owner operator = .ok (assets, env')) :
    FairExit env env' assets shares ↔ FairRedeem env shares := by
  obtain ⟨hassets, hexit⟩ := redeem_exit h
  have hs := supply_nonneg hr
  have hle := hexit.shares_le hr
  have hs0 := hexit.shares_nonneg
  have ht := hexit.assets_nonneg.trans hexit.assets_le
  rw [fairExit_iff hs hexit, FairRedeem, hassets]
  obtain hzero | hpos := hs.eq_or_lt
  · -- Without a supply nothing is burned and nothing is paid.
    obtain rfl : shares = 0 := by omega
    simp [offsetErc, ← hzero]
  · exact tdiv_mul_le_iff (mul_nonneg hs0 (by omega)) (by omega) hpos

theorem fair_withdraw_iff {receiver : Party A} {owner operator : A}
    (hr : Reachable offsetErc env)
    (h : env.withdraw offsetErc assets receiver owner operator = .ok (shares, env')) :
    FairExit env env' assets shares ↔ FairWithdraw env assets := by
  obtain ⟨hshares, hexit⟩ := withdraw_exit h
  have hs := supply_nonneg hr
  have hreserved := (reachable_books hr).reserved_nonneg
  have ha := hexit.assets_nonneg
  have ht := ha.trans hexit.assets_le
  rw [fairExit_iff hs hexit, FairWithdraw, hshares]
  obtain hzero | hpos := ha.eq_or_lt
  · -- A withdrawal of nothing burns nothing.
    subst hzero
    have htotal : env.totalAssets.tdiv (env.totalAssets + 1) = 0 :=
      Int.tdiv_eq_zero_of_lt ht (by omega)
    simp [offsetErc, htotal]
    omega
  · have hbasis : 0 < env.lpBasis := by
      have hfree := hexit.free
      rw [lpBasis]
      omega
    have hceil := le_tdiv_mul_iff (m := assets * env.vault.totalSupply)
      (mul_nonneg ha (show 0 ≤ env.vault.totalSupply + 1000000 by omega))
      (show 0 < env.totalAssets + 1 by omega) hbasis
    rw [add_sub_cancel_right] at hceil
    exact hceil

/-! ## How far the raw rate is above the providers' -/

/-- The raw rate less the rate of the basis, over a common denominator. -/
def rateExcess (env : Env A S) : ℤ :=
  (env.totalAssets + 1) * env.vault.totalSupply - env.lpBasis * (env.vault.totalSupply + 1000000)

/-- The virtual shares' part of the balance covers what is not the providers'. -/
def ExcessCovered (env : Env A S) : Prop := env.rateExcess ≤ 0

omit [DecidableEq A] [DecidableEq S] in
theorem fairRedeem_of_excessCovered (hs : 0 < env.vault.totalSupply) (h0 : 0 ≤ shares)
    (h : ExcessCovered env) : FairRedeem env shares := by
  have hfloor := Int.lt_ediv_add_one_mul_self (shares * env.lpBasis) hs
  have hrate : shares * (env.totalAssets + 1) * env.vault.totalSupply ≤
      shares * env.lpBasis * (env.vault.totalSupply + 1000000) := by
    rw [mul_assoc, mul_assoc]
    exact mul_le_mul_of_nonneg_left (sub_nonpos.mp h) h0
  rw [FairRedeem]
  apply lt_of_mul_lt_mul_right (a := env.vault.totalSupply) _ hs.le
  calc shares * (env.totalAssets + 1) * env.vault.totalSupply
      ≤ shares * env.lpBasis * (env.vault.totalSupply + 1000000) := hrate
    _ < (shares * env.lpBasis / env.vault.totalSupply + 1) * env.vault.totalSupply *
          (env.vault.totalSupply + 1000000) := by
        apply mul_lt_mul_of_pos_right hfloor
        omega
    _ = _ := by ring

omit [DecidableEq A] [DecidableEq S] in
theorem fairWithdraw_of_excessCovered (hl : 0 < env.lpBasis) (ht : 0 ≤ env.totalAssets)
    (h0 : 0 ≤ assets) (h : ExcessCovered env) : FairWithdraw env assets := by
  have hceil := Int.lt_ediv_add_one_mul_self (-(assets * env.vault.totalSupply)) hl
  have hrate : assets * env.vault.totalSupply * (env.totalAssets + 1) ≤
      assets * (env.vault.totalSupply + 1000000) * env.lpBasis := by
    calc assets * env.vault.totalSupply * (env.totalAssets + 1)
        = assets * ((env.totalAssets + 1) * env.vault.totalSupply) := by ring
      _ ≤ assets * (env.lpBasis * (env.vault.totalSupply + 1000000)) :=
          mul_le_mul_of_nonneg_left (sub_nonpos.mp h) h0
      _ = _ := by ring
  rw [FairWithdraw]
  apply lt_of_mul_lt_mul_right (a := env.lpBasis) _ hl.le
  refine lt_of_lt_of_le ?_ hrate
  rw [mul_right_comm]
  apply mul_lt_mul_of_pos_right _ (by omega)
  linarith

omit [DecidableEq A] [DecidableEq S] in
/-- Where the excess on the shares makes up a whole unit, no rounding hides it. -/
theorem not_fairRedeem_of_excess (hs : 0 < env.vault.totalSupply)
    (h : env.vault.totalSupply * (env.vault.totalSupply + 1000000) ≤ shares * env.rateExcess) :
    ¬ FairRedeem env shares := by
  have hfloor := Int.ediv_mul_le (shares * env.lpBasis) hs.ne'
  rw [FairRedeem, not_lt]
  apply le_of_mul_le_mul_right (a := env.vault.totalSupply) _ hs
  calc (shares * env.lpBasis / env.vault.totalSupply + 1) * (env.vault.totalSupply + 1000000) *
        env.vault.totalSupply
      = (shares * env.lpBasis / env.vault.totalSupply * env.vault.totalSupply +
          env.vault.totalSupply) * (env.vault.totalSupply + 1000000) := by ring
    _ ≤ (shares * env.lpBasis + env.vault.totalSupply) * (env.vault.totalSupply + 1000000) :=
        mul_le_mul_of_nonneg_right (by omega) (by omega)
    _ ≤ shares * (env.totalAssets + 1) * env.vault.totalSupply := by
        unfold rateExcess at h
        linarith

omit [DecidableEq A] [DecidableEq S] in
/-- Nor where the excess on the assets makes up a whole share. -/
theorem not_fairWithdraw_of_excess (hl : 0 < env.lpBasis) (ht : 0 ≤ env.totalAssets)
    (h : env.lpBasis * (env.totalAssets + 1) ≤ assets * env.rateExcess) :
    ¬ FairWithdraw env assets := by
  have hceil := Int.ediv_mul_le (-(assets * env.vault.totalSupply)) hl.ne'
  rw [FairWithdraw, not_lt]
  apply le_of_mul_le_mul_right (a := env.lpBasis) _ hl
  calc assets * (env.vault.totalSupply + 1000000) * env.lpBasis
      ≤ (assets * env.vault.totalSupply - env.lpBasis) * (env.totalAssets + 1) := by
        unfold rateExcess at h
        linarith
    _ ≤ (-(-(assets * env.vault.totalSupply) / env.lpBasis * env.lpBasis) - env.lpBasis) *
          (env.totalAssets + 1) := mul_le_mul_of_nonneg_right (by omega) (by omega)
    _ = _ := by ring

/-- In every reachable state whose excess is covered, every successful exit of any amount is
fair. Beyond that, an exit is unfair as soon as the excess on its amount is more than the
rounding of the conversions. -/
theorem exits_fair_of_excessCovered (hr : Reachable offsetErc env) :
    (∀ shares assets receiver owner operator env',
      env.redeem offsetErc shares receiver owner operator = .ok (assets, env') →
        (ExcessCovered env → FairExit env env' assets shares) ∧
          (0 < shares → env.vault.totalSupply * (env.vault.totalSupply + 1000000) ≤
            shares * env.rateExcess → ¬ FairExit env env' assets shares)) ∧
    (∀ assets shares receiver owner operator env',
      env.withdraw offsetErc assets receiver owner operator = .ok (shares, env') →
        (ExcessCovered env → FairExit env env' assets shares) ∧
          (0 < assets → env.lpBasis * (env.totalAssets + 1) ≤ assets * env.rateExcess →
            ¬ FairExit env env' assets shares)) := by
  constructor
  · intro shares assets receiver owner operator env' h
    obtain ⟨hassets, hexit⟩ := redeem_exit h
    rw [fair_redeem_iff hr h]
    refine ⟨fun hcovered => ?_, fun hpos hexcess => ?_⟩
    · obtain hzero | hs := (supply_nonneg hr).eq_or_lt
      · obtain rfl : shares = 0 := by
          have hle := hexit.shares_le hr
          have hnonneg := hexit.shares_nonneg
          omega
        simp [FairRedeem, ← hzero]
      · exact fairRedeem_of_excessCovered hs hexit.shares_nonneg hcovered
    · exact not_fairRedeem_of_excess (hpos.trans_le (hexit.shares_le hr)) hexcess
  · intro assets shares receiver owner operator env' h
    obtain ⟨hshares, hexit⟩ := withdraw_exit h
    have hreserved := (reachable_books hr).reserved_nonneg
    have ht := hexit.assets_nonneg.trans hexit.assets_le
    have hbasis : 0 < assets → 0 < env.lpBasis := by
      have hfree := hexit.free
      rw [lpBasis]
      omega
    rw [fair_withdraw_iff hr h]
    refine ⟨fun hcovered => ?_, fun hpos hexcess => ?_⟩
    · obtain hzero | hpos := hexit.assets_nonneg.eq_or_lt
      · subst hzero
        simp [FairWithdraw]
        omega
      · exact fairWithdraw_of_excessCovered (hbasis hpos) ht hpos.le hcovered
    · exact not_fairWithdraw_of_excess (hbasis hpos) ht hexcess

/-! ## A vault with unclaimed fees -/

/-- A provider of 1000 and an open long of 500, five cents of whose fee are unclaimed. -/
def vaultWithFees : Env ℕ ℕ :=
  deployed 10000000000
    [.increase ⟨2, 0, 5000000000, 1000000000, true, 0, 0, 0, 1000000000⟩, .advance 300]

/-- Before any trade a tenth of the shares leaves fairly; next to the unclaimed fees the same
tenth does not. -/
theorem exits_fair_of_excessCovered_vaultWithFees :
    (∃ assets env', (deployed 10000000000 [.advance 300]).redeem offsetErc 1000000000000000
        (.account 1) 1 1 = .ok (assets, env') ∧
      FairExit (deployed 10000000000 [.advance 300]) env' assets 1000000000000000) ∧
    ∃ assets env', vaultWithFees.redeem offsetErc 1000000000000000 (.account 1) 1 1 =
        .ok (assets, env') ∧ ¬ FairExit vaultWithFees env' assets 1000000000000000 := by
  constructor
  · obtain ⟨⟨assets, env'⟩, hredeem, -⟩ := exists_ok_of_bind_eq_some
      (x := (deployed 10000000000 [.advance 300]).redeem offsetErc 1000000000000000 (.account 1) 1 1)
      (f := fun p => some (decide (0 < p.1))) (b := true) (by decide +kernel)
    refine ⟨assets, env', hredeem, ?_⟩
    exact ((exits_fair_of_excessCovered (reachable_deployed _ _)).1 _ _ _ _ _ _ hredeem).1
      (show rateExcess _ ≤ 0 by decide +kernel)
  · obtain ⟨⟨assets, env'⟩, hredeem, -⟩ := exists_ok_of_bind_eq_some
      (x := vaultWithFees.redeem offsetErc 1000000000000000 (.account 1) 1 1)
      (f := fun p => some (decide (0 < p.1))) (b := true) (by decide +kernel)
    refine ⟨assets, env', hredeem, ?_⟩
    exact ((exits_fair_of_excessCovered (reachable_deployed _ _)).1 _ _ _ _ _ _ hredeem).2
      (by decide) (by decide +kernel)

/-- It pays more than the shares' part of the basis. The fees stay claimable, so the providers
who remain bear the difference. -/
theorem exit_overpaid :
    ¬ ∀ (env env' : Env ℕ ℕ) (shares assets : ℤ) (receiver : Party ℕ) (owner operator : ℕ),
      Reachable offsetErc env →
      env.redeem offsetErc shares receiver owner operator = .ok (assets, env') →
      FairExit env env' assets shares := by
  intro hfair
  obtain ⟨⟨assets, env'⟩, hredeem, hread⟩ := exists_ok_of_bind_eq_some
    (x := vaultWithFees.redeem offsetErc 1000000000000000 (.account 1) 1 1)
    (f := fun p => some (decide (p.1 * vaultWithFees.vault.totalSupply ≤
      1000000000000000 * vaultWithFees.lpBasis))) (b := false) (by decide +kernel)
  have hpaid := hfair _ _ _ _ _ _ _ (reachable_deployed _ _) hredeem
  simp only [Option.some.injEq, decide_eq_false_iff_not] at hread
  exact hread hpaid.1

end Exits

end Env

end Stellars
