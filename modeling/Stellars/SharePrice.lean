import Stellars.Authority
import Stellars.ExitLimits
import Stellars.PoolRates

/-!
# The price of a share

Deposits and withdrawals round in the vault's favour, and virtual shares and assets keep the
rate defined while the vault is empty. So whatever the providers do among themselves, a share
is worth no less afterwards; only trading and claimed fees can lower its price.
-/
namespace Stellars
open GuardedRuns PoolRates TruncatedDivision

namespace Env

variable {A S : Type} [DecidableEq A] [DecidableEq S]

/-- The balance and the supply with the library's virtual asset and shares. -/
def pool (env : Env A S) : Pool := ⟨env.totalAssets + 1, env.vault.totalSupply + 1000000⟩

/-- The operations that pay out of the vault without burning shares. -/
def PaysOut : Op A S → Prop
  | .close _ => True
  | .vault _ (.claimFees _) => True
  | _ => False

instance : DecidablePred (PaysOut : Op A S → Prop) := fun op => by
  unfold PaysOut
  split <;> infer_instance

/-- A close pays a trader, or fees are claimed. -/
def DrainsVault (env : Env A S) (op : Op A S) : Prop :=
  PaysOut op ∧ (env.step offsetErc op).totalAssets < env.totalAssets

/-- The shares that a call issues, less those that it burns. -/
def issuedShares (env : Env A S) : VaultCall A → ℤ
  | .deposit assets _ _ => offsetErc.previewDeposit assets env.totalAssets env.vault.totalSupply
  | .mint shares _ _ => shares
  | .withdraw assets _ _ => -offsetErc.previewWithdraw assets env.totalAssets env.vault.totalSupply
  | .redeem shares _ _ => -shares
  | _ => 0

instance (env : Env A S) (op : Op A S) : Decidable (DrainsVault env op) :=
  inferInstanceAs (Decidable (_ ∧ _))

/-- What an account's shares redeem for. -/
def redeemable (env : Env A S) (p : Party A) : ℤ :=
  offsetErc.previewRedeem (env.vault.shares p) env.totalAssets env.vault.totalSupply

section Steps

variable {env env' : Env A S} {op : Op A S}

omit [DecidableEq S] in
theorem vaultCall_supply {caller : A} {call : VaultCall A}
    (h : env.vaultCall offsetErc caller call = .ok env') :
    env'.vault.totalSupply = env.vault.totalSupply + env.issuedShares call := by
  cases call with
  | deposit assets receiver src =>
      obtain ⟨⟨_, _⟩, hcall, rfl⟩ := map_eq_ok.mp h
      simp only [deposit, requireVaultNotPaused, bind_eq_ok, failIf_eq_ok, exists_const,
        Except.ok.injEq, Prod.mk.injEq] at hcall
      obtain ⟨_, _, _, env2, htransfer, env3, hmint, _, rfl⟩ := hcall
      obtain ⟨_, _, rfl⟩ := transfer_eq_ok.mp htransfer
      simp only [mintShares, failIf_bind_eq_ok, Except.ok.injEq] at hmint
      obtain ⟨_, rfl⟩ := hmint
      rfl
  | mint shares receiver src =>
      obtain ⟨⟨_, _⟩, hcall, rfl⟩ := map_eq_ok.mp h
      simp only [mint, requireVaultNotPaused, bind_eq_ok, failIf_eq_ok, exists_const,
        Except.ok.injEq, Prod.mk.injEq] at hcall
      obtain ⟨_, _, _, env2, htransfer, env3, hmint, _, rfl⟩ := hcall
      obtain ⟨_, _, rfl⟩ := transfer_eq_ok.mp htransfer
      simp only [mintShares, failIf_bind_eq_ok, Except.ok.injEq] at hmint
      obtain ⟨_, rfl⟩ := hmint
      rfl
  | withdraw assets receiver owner =>
      obtain ⟨⟨shares, _⟩, hcall, rfl⟩ := map_eq_ok.mp h
      obtain ⟨rfl, hexit⟩ := withdraw_exit hcall
      rw [hexit.supply, issuedShares, sub_eq_add_neg]
  | redeem shares receiver owner =>
      obtain ⟨⟨assets, _⟩, hcall, rfl⟩ := map_eq_ok.mp h
      obtain ⟨_, hexit⟩ := redeem_exit hcall
      rw [hexit.supply, issuedShares, sub_eq_add_neg]
  | transfer dst amount | transferFrom src dst amount =>
      cases vaultCall_shareEffect h with
      | moved hmove nonneg held lockups shares supply => exact supply.trans (add_zero _).symm
      | kept hdeposit hmove => cases hmove
      | minted hdeposit => cases hdeposit
      | burned hdeposit hmove => cases hmove
  | approve spender amount =>
      simp only [vaultCall, approve, failIf_bind_eq_ok, Except.ok.injEq] at h
      obtain ⟨_, rfl⟩ := h
      exact (add_zero _).symm
  | claimFees recipient =>
      simp only [vaultCall, claimFees, bind_eq_ok, Except.ok.injEq] at h
      obtain ⟨_, _, _, _, env1, htransfer, rfl⟩ := h
      rw [(transfer_eq_ok.mp htransfer).2.2]
      exact (add_zero _).symm
  | pause | unpause =>
      simp only [vaultCall, setVaultPaused, bind_eq_ok, Except.ok.injEq] at h
      obtain ⟨_, _, rfl⟩ := h
      exact (add_zero _).symm
  | payProfit trader amount => simp [vaultCall, Env.payProfit] at h
  | reserveLiquidity amount => simp [vaultCall, Env.reserveLiquidity] at h
  | releaseLiquidity amount => simp [vaultCall, Env.releaseLiquidity] at h
  | updateNetPnl pnl => simp [vaultCall, Env.updateNetPnl] at h
  | recordAbsorbedCollateral amount preBalance =>
      simp [vaultCall, Env.recordAbsorbedCollateral] at h
  | accrueFees amount => simp [vaultCall, Env.accrueFees] at h
  | claimFeesTo recipient amount => simp [vaultCall, Env.claimFeesTo] at h

/-- Shares come and go with vault calls only. -/
theorem apply_supply (h : env.apply offsetErc op = .ok env')
    (hcall : ∀ caller call, op ≠ .vault caller call) :
    env'.vault.totalSupply = env.vault.totalSupply := by
  have heff := apply_effect h
  cases op with
  | vault caller call => exact absurd rfl (hcall caller call)
  | transferUsdc src dst amount =>
      rw [(transfer_eq_ok.mp h).2.2]
      rfl
  | increase req =>
      cases heff with
      | increase awake size_pos effect => rw [effect.vault]
      | quiet h => cases h
  | close call =>
      cases heff with
      | close names ready effect => rw [effect.vault]
      | quiet h => cases h
  | setTpSl trader symbol takeProfit stopLoss =>
      cases heff with
      | setTpSl position hdelta => rfl
      | quiet h => cases h
  | updateIndices caller symbol price =>
      cases heff with
      | updateIndices awake price_pos =>
          obtain ⟨markets, hf⟩ := env.freshEnv_eq symbol
          rw [hf]
          rfl
      | quiet h => cases h
  | advance | config | pause | unpause | setMaxLeverage | setMarketDisabled =>
      cases heff with
      | quiet h => cases h <;> rfl

omit [DecidableEq S] in
/-- What a call pays into the vault, less what it takes out. -/
theorem vaultCall_assets {caller : A} {call : VaultCall A}
    (h : env.vaultCall offsetErc caller call = .ok env') :
    env'.totalAssets = env.totalAssets -
        (if (env.callMove offsetErc call).1 = .vault then (env.callMove offsetErc call).2.2
          else 0) +
        (if (env.callMove offsetErc call).2.1 = .vault then (env.callMove offsetErc call).2.2
          else 0) := by
  rw [totalAssets, (vaultCall_effect h).usdc]
  simp only [moveUsdc, eq_comm (a := Party.vault)]
  rfl

omit [DecidableEq A] [DecidableEq S] in
/-- Issued shares are paid for at the rate or above it. -/
theorem rate_of_flow {assets shares : ℤ}
    (hassets : env'.totalAssets = env.totalAssets + assets)
    (hsupply : env'.vault.totalSupply = env.vault.totalSupply + shares)
    (h : shares * (env.totalAssets + 1) ≤ assets * (env.vault.totalSupply + 1000000)) :
    env.pool.RateLe env'.pool := by
  have hflow : env'.pool = env.pool.flow assets shares := by
    simp only [pool, Pool.flow, hassets, hsupply, add_right_comm]
  rw [hflow, Pool.rateLe_flow_iff]
  exact h

omit [DecidableEq A] [DecidableEq S] in
/-- Without shares the rate follows the balance. -/
theorem rate_of_kept (hs : 0 ≤ env.vault.totalSupply)
    (hsupply : env'.vault.totalSupply = env.vault.totalSupply)
    (hassets : env.totalAssets ≤ env'.totalAssets) : env.pool.RateLe env'.pool := by
  refine rate_of_flow (add_sub_cancel _ _).symm (by rw [hsupply, add_zero]) ?_
  rw [zero_mul]
  exact mul_nonneg (by omega) (by omega)

theorem vaultCall_rate {caller : A} {call : VaultCall A} (hr : Reachable offsetErc env)
    (h : env.vaultCall offsetErc caller call = .ok env')
    (hkeeps : exits (.vault caller call : Op A S) = none → env.totalAssets ≤ env'.totalAssets) :
    env.pool.RateLe env'.pool := by
  have ht := reachable_totalAssets_nonneg hr
  have hs := supply_nonneg hr
  have hassets := vaultCall_assets h
  have hsupply := vaultCall_supply h
  have hpaid := (vaultCall_effect h).nonneg
  cases call with
  | deposit assets receiver src =>
      have hin : env'.totalAssets = env.totalAssets + assets := by simpa [callMove] using hassets
      obtain ⟨hle, -⟩ := tdiv_nonneg_bounds (b := env.totalAssets + 1)
        (mul_nonneg hpaid (show 0 ≤ env.vault.totalSupply + 1000000 by omega)) (by omega)
      refine rate_of_flow hin hsupply ?_
      rw [mul_comm]
      exact hle
  | mint shares receiver src =>
      have hin : env'.totalAssets = env.totalAssets +
          offsetErc.previewMint shares env.totalAssets env.vault.totalSupply := by
        simpa [callMove] using hassets
      have hpos : 0 < shares := by
        obtain ⟨⟨_, _⟩, hcall, rfl⟩ := map_eq_ok.mp h
        simp only [mint, bind_eq_ok, failIf_eq_ok, exists_const, not_le] at hcall
        obtain ⟨_, _, _, hpos, _⟩ := hcall
        exact hpos
      obtain ⟨-, hlt⟩ := tdiv_nonneg_bounds (b := env.vault.totalSupply + 1000000)
        (show 0 ≤ shares * (env.totalAssets + 1) + (env.vault.totalSupply + 1000000 - 1) by
          have := mul_nonneg hpos.le (show 0 ≤ env.totalAssets + 1 by omega)
          omega) (by omega)
      refine rate_of_flow hin hsupply ?_
      rw [mul_comm (offsetErc.previewMint _ _ _)]
      simp only [issuedShares, offsetErc] at *
      omega
  | withdraw assets receiver owner =>
      obtain ⟨hle, hlt⟩ := tdiv_nonneg_bounds (b := env.totalAssets + 1)
        (add_nonneg (mul_nonneg hpaid (show 0 ≤ env.vault.totalSupply + 1000000 by omega)) ht)
        (by omega)
      have hout : -assets ≤ env'.totalAssets - env.totalAssets := by
        simp only [callMove, if_true] at hassets hpaid
        split_ifs at hassets <;> omega
      refine rate_of_flow (add_sub_cancel _ _).symm hsupply ?_
      refine le_trans ?_ (mul_le_mul_of_nonneg_right hout (by omega))
      simp only [issuedShares, offsetErc, callMove] at *
      rw [neg_mul, neg_mul, neg_le_neg_iff, mul_comm (Int.tdiv _ _)]
      omega
  | redeem shares receiver owner =>
      have hpos : 0 ≤ shares := by
        obtain ⟨⟨_, _⟩, hcall, rfl⟩ := map_eq_ok.mp h
        exact (redeem_exit hcall).2.shares_nonneg
      obtain ⟨hle, -⟩ := tdiv_nonneg_bounds (b := env.vault.totalSupply + 1000000)
        (mul_nonneg hpos (show 0 ≤ env.totalAssets + 1 by omega)) (by omega)
      have hout : -offsetErc.previewRedeem shares env.totalAssets env.vault.totalSupply ≤
          env'.totalAssets - env.totalAssets := by
        simp only [callMove, if_true] at hassets hpaid
        split_ifs at hassets <;> omega
      refine rate_of_flow (add_sub_cancel _ _).symm hsupply ?_
      refine le_trans ?_ (mul_le_mul_of_nonneg_right hout (by omega))
      simp only [issuedShares, offsetErc] at *
      rw [neg_mul, neg_mul, neg_le_neg_iff, mul_comm (Int.tdiv _ _)]
      exact hle
  | _ => exact rate_of_kept hs (hsupply.trans (add_zero _)) (hkeeps rfl)

/-- Nothing else lowers the balance, apart from the exits. -/
theorem totalAssets_le (h : env.apply offsetErc op = .ok env')
    (hop : ¬ PaysOut op) (hexits : exits op = none) : env.totalAssets ≤ env'.totalAssets := by
  have heff := apply_effect h
  cases op with
  | vault caller call =>
      have hassets := vaultCall_assets h
      have hpaid := (vaultCall_effect h).nonneg
      cases call with
      | withdraw assets receiver owner => cases hexits
      | redeem shares receiver owner => cases hexits
      | claimFees recipient => exact absurd trivial hop
      | deposit | mint =>
          simp only [callMove] at hassets hpaid
          simp only [reduceCtorEq, if_false, if_true] at hassets
          omega
      | _ =>
          simp only [callMove, if_true] at hassets
          omega
  | close call => exact absurd trivial hop
  | transferUsdc src dst amount =>
      obtain ⟨hpaid, _, rfl⟩ := transfer_eq_ok.mp h
      exact le_moveUsdc hpaid (by simp)
  | increase req =>
      cases heff with
      | increase awake size_pos effect =>
          rw [totalAssets, totalAssets, effect.usdc, moveUsdc_dst _ _ (by simp),
            moveUsdc_other _ _ (by simp) (by simp)]
          have := env.openFee_nonneg req
          omega
      | quiet h => cases h
  | setTpSl trader symbol takeProfit stopLoss =>
      cases heff with
      | setTpSl position hdelta => exact (moveUsdc_other _ _ (by simp) (by simp)).ge
      | quiet h => cases h
  | updateIndices caller symbol price =>
      cases heff with
      | updateIndices awake price_pos =>
          obtain ⟨markets, hf⟩ := env.freshEnv_eq symbol
          rw [hf]
          exact le_rfl
      | quiet h => cases h
  | advance | config | pause | unpause | setMaxLeverage | setMarketDisabled =>
      cases heff with
      | quiet h => cases h <;> exact le_rfl

theorem pool_apply (hr : Reachable offsetErc env) (h : env.apply offsetErc op = .ok env')
    (hkeeps : exits op = none → env.totalAssets ≤ env'.totalAssets) :
    env.pool.RateLe env'.pool := by
  cases op with
  | vault caller call => exact vaultCall_rate hr h hkeeps
  | _ => exact rate_of_kept (supply_nonneg hr) (apply_supply h (by simp)) (hkeeps rfl)

end Steps

/-! ## Runs -/

section Runs

variable {env : Env A S}

theorem pool_pos (hr : Reachable offsetErc env) : 0 < env.pool.assets ∧ 0 < env.pool.shares := by
  have ht := reachable_totalAssets_nonneg hr
  have hs := supply_nonneg hr
  simp only [pool]
  omega

/-- A step lowers the price of a share only by draining the vault. -/
theorem pool_step (hr : Reachable offsetErc env) {op : Op A S} (h : ¬ DrainsVault env op) :
    env.pool.RateLe (env.step offsetErc op).pool := by
  obtain ⟨hsame, _⟩ | ⟨hok, _⟩ := step_cases offsetErc env op
  · rw [hsame]
  · refine pool_apply hr hok fun hexits => ?_
    by_contra hlt
    exact hlt (totalAssets_le hok (fun hpays => h ⟨hpays, not_le.mp hlt⟩) hexits)

theorem pool_run (hr : Reachable offsetErc env) {ops : List (Op A S)}
    (h : Along (step offsetErc) (fun env op => ¬ DrainsVault env op) env ops) :
    env.pool.RateLe (run (step offsetErc) env ops).pool := by
  induction ops generalizing env with
  | nil => exact .refl _
  | cons op ops ih =>
      have hmid := hr.run [op]
      have hend := hr.run (op :: ops)
      exact .trans (pool_pos hr).2.le (pool_pos hmid).2 (pool_pos hend).2.le
        (pool_step hr h.1) (ih hmid h.2)

theorem sharesKept_run {account : A} (hr : Reachable offsetErc env)
    (ha : env.ApprovesNobody account) {ops : List (Op A S)}
    (hs : ∀ op ∈ ops, op.signer ≠ some account) :
    SharesKept env (run (step offsetErc) env ops) account := by
  induction ops generalizing env with
  | nil => exact ⟨le_rfl, ha⟩
  | cons op ops ih =>
      obtain ⟨hop, hops⟩ := List.forall_mem_cons.mp hs
      obtain ⟨-, hkept, -⟩ := step_unharmed hr ha hop
      obtain ⟨hkept', ha'⟩ := ih (hr.run [op]) hkept.2 hops
      exact ⟨hkept.1.trans hkept', ha'⟩

/-- Along the run the price of a share does not fall. Who does nothing loses nothing, and who
begins with a deposit has no gain from it at once, and at the end a loss of less than a unit
and a share at the price before. -/
structure ProvidersProtected (env : Env A S) (ops : List (Op A S)) : Prop where
  price : env.pool.RateLe (run (step offsetErc) env ops).pool
  passive (account : A) : env.ApprovesNobody account →
    (∀ op ∈ ops, op.signer ≠ some account) →
      env.redeemable (.account account) ≤
        (run (step offsetErc) env ops).redeemable (.account account)
  depositor {account : A} {assets shares : ℤ} {env1 : Env A S} {later : List (Op A S)} :
    ops = .vault account (.deposit assets account account) :: later →
    env.deposit offsetErc assets account account account = .ok (shares, env1) →
      env1.pool.redeem shares ≤ assets ∧
        (assets - (run (step offsetErc) env ops).pool.redeem shares - 1) * env.pool.shares <
          env.pool.assets

/-- What a deposit does to the pool, and how its shares compare with the price. -/
theorem deposit_pool (hr : Reachable offsetErc env) {account : A} {assets shares : ℤ}
    {env1 : Env A S} (h : env.deposit offsetErc assets account account account = .ok (shares, env1)) :
    0 ≤ assets ∧ 0 ≤ shares ∧ env1.pool = env.pool.flow assets shares ∧
      shares * env.pool.assets ≤ assets * env.pool.shares ∧
      assets * env.pool.shares < (shares + 1) * env.pool.assets := by
  obtain ⟨ha, hs⟩ := pool_pos hr
  have hcall : env.vaultCall offsetErc account (.deposit assets account account) = .ok env1 :=
    map_eq_ok.mpr ⟨_, h, rfl⟩
  have hpaid := (vaultCall_effect hcall).nonneg
  have hin : env1.totalAssets = env.totalAssets + assets := by
    simpa [callMove] using vaultCall_assets hcall
  have hshares : shares = (assets * env.pool.shares).tdiv env.pool.assets := by
    simp only [deposit, bind_eq_ok, Except.ok.injEq, Prod.mk.injEq] at h
    obtain ⟨_, _, _, _, _, _, _, _, _, _, rfl, _⟩ := h
    rfl
  obtain ⟨hle, hlt⟩ := tdiv_nonneg_bounds (mul_nonneg hpaid hs.le) ha
  refine ⟨hpaid, ?_, ?_, ?_, ?_⟩
  · rw [hshares]
    exact Int.tdiv_nonneg (mul_nonneg hpaid hs.le) ha.le
  · have hsupply : env1.vault.totalSupply = env.vault.totalSupply + shares := by
      rw [vaultCall_supply hcall, hshares]
      rfl
    simp only [pool, Pool.flow, hin, hsupply, add_right_comm]
  · rw [hshares, mul_comm]
    exact hle
  · rw [hshares, add_mul, mul_comm (Int.tdiv _ _), one_mul]
    exact hlt

/-- As long as no close pays a trader and no fees are claimed, nothing that anybody does takes
value from the liquidity providers. -/
theorem providers_protected (hr : Reachable offsetErc env) {ops : List (Op A S)}
    (h : Along (step offsetErc) (fun env op => ¬ DrainsVault env op) env ops) :
    ProvidersProtected env ops where
  price := pool_run hr h
  passive account ha hs := by
    obtain ⟨hassets, hshares⟩ := pool_pos hr
    obtain ⟨hassets', hshares'⟩ := pool_pos (hr.run ops)
    have hheld := (reachable_sharesCounted hr).nonneg (.account account)
    calc env.redeemable (.account account)
        ≤ (run (step offsetErc) env ops).pool.redeem (env.vault.shares (.account account)) :=
          Pool.redeem_le_redeem hshares hshares' hassets.le hassets'.le hheld (pool_run hr h)
      _ ≤ (run (step offsetErc) env ops).redeemable (.account account) :=
          Pool.redeem_mono hshares' hassets'.le hheld (sharesKept_run hr ha hs).1
  depositor hops hdeposit := by
    obtain ⟨hassets, hshares⟩ := pool_pos hr
    obtain ⟨hassets', hshares'⟩ := pool_pos (hr.run ops)
    obtain ⟨hpaid, hissued, hpool, hle, hlt⟩ := deposit_pool hr hdeposit
    refine ⟨?_, Pool.lt_redeem hshares hshares' hassets'.le hissued hlt (pool_run hr h)⟩
    rw [hpool]
    exact Pool.redeem_flow_le hshares hassets.le hpaid hissued hle

/-- Account 3 deposits, account 4 gives the vault a present, and account 1 leaves. -/
theorem providers_protected_present :
    ProvidersProtected (deployed 10000000000 [.advance 300])
      [.vault 3 (.deposit 1000 3 3), .transferUsdc 4 .vault 12345,
        .vault 1 (.redeem 1000000 (.account 1) 1)] :=
  providers_protected (reachable_deployed _ _)
    ⟨by decide +kernel, by decide +kernel, by decide +kernel, trivial⟩

end Runs

end Env

end Stellars
