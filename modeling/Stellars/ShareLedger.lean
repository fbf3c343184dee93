import Stellars.Protocol

/-!
# The share ledger

What every operation does to share balances, the share supply and the lockups of
share holders, inverted once. The supply is the sum of the balances.
-/
namespace Stellars
open GuardedRuns KeyedTotals

namespace Env

variable {A S : Type} [DecidableEq A] [DecidableEq S]

/-- The account whose lockup a call records. -/
def depositor : Op A S → Option (Party A)
  | .vault _ (.deposit _ receiver _) | .vault _ (.mint _ receiver _) => some (.account receiver)
  | _ => none

/-- Sender, recipient and amount of a transfer of shares. -/
def shareMove : Op A S → Option (Party A × Party A × ℤ)
  | .vault caller (.transfer dst amount) => some (.account caller, dst, amount)
  | .vault _ (.transferFrom src dst amount) => some (.account src, dst, amount)
  | _ => none

/-- The account whose shares a withdraw or a redeem burns. -/
def exits : Op A S → Option (Party A)
  | .vault _ (.withdraw _ _ owner) | .vault _ (.redeem _ _ owner) => some (.account owner)
  | _ => none

def Succeeds (erc : Erc4626) (env : Env A S) (op : Op A S) : Prop :=
  ∃ env', env.apply erc op = .ok env'

section Steps

variable {erc : Erc4626} {env env' : Env A S} {op : Op A S}

/-- What a successful operation did to shares and lockups. -/
inductive ShareEffect (env : Env A S) (op : Op A S) (env' : Env A S) : Prop
  | kept (hdeposit : depositor op = none) (hmove : shareMove op = none)
      (lockups : env'.vault.lockupExpiresAt = env.vault.lockupExpiresAt)
      (shares : env'.vault.shares = env.vault.shares)
      (supply : env'.vault.totalSupply = env.vault.totalSupply)
  | minted {p amount} (hdeposit : depositor op = some p) (nonneg : 0 ≤ amount)
      (lockups : env'.vault.lockupExpiresAt = (env.recordLockup p).vault.lockupExpiresAt)
      (shares : env'.vault.shares =
        Function.update env.vault.shares p (env.vault.shares p + amount))
      (supply : env'.vault.totalSupply = env.vault.totalSupply + amount)
  | burned {p amount} (hdeposit : depositor op = none) (hmove : shareMove op = none)
      (nonneg : 0 ≤ amount) (held : amount ≤ env.vault.shares p)
      (lockups : env'.vault.lockupExpiresAt = env.vault.lockupExpiresAt)
      (shares : env'.vault.shares =
        Function.update env.vault.shares p (env.vault.shares p - amount))
      (supply : env'.vault.totalSupply = env.vault.totalSupply - amount)
  | moved {src dst amount} (hmove : shareMove op = some (src, dst, amount))
      (nonneg : 0 ≤ amount) (held : amount ≤ env.vault.shares src)
      (lockups : env'.vault.lockupExpiresAt =
        (env.propagateLockupOnTransfer src dst).vault.lockupExpiresAt)
      (shares : env'.vault.shares = moveUsdc env.vault.shares src dst amount)
      (supply : env'.vault.totalSupply = env.vault.totalSupply)

omit [DecidableEq S] in
theorem spendAllowance_ok {owner operator : A} {amount : ℤ}
    (h : env.spendAllowance owner operator amount = .ok env') :
    ∃ allowance, env' = { env with vault := { env.vault with allowance := allowance } } := by
  unfold spendAllowance at h
  split_ifs at h
  · cases h
    exact ⟨_, rfl⟩
  · simp only [failIf_bind_eq_ok, Except.ok.injEq] at h
    exact ⟨_, h.2.symm⟩

omit [DecidableEq S] in
/-- A deposit or a mint records the lockup, moves the money and credits shares. -/
theorem shareEffect_of_minted {env2 : Env A S} {src p : Party A} {assets amount : ℤ}
    (hdeposit : depositor op = some p)
    (htransfer : (env.recordLockup p).transfer src .vault assets = .ok env2)
    (hmint : env2.mintShares p amount = .ok env') : ShareEffect env op env' := by
  obtain ⟨_, _, rfl⟩ := transfer_eq_ok.mp htransfer
  simp only [mintShares, failIf_bind_eq_ok, Except.ok.injEq, not_lt] at hmint
  obtain ⟨hnonneg, rfl⟩ := hmint
  exact .minted hdeposit hnonneg rfl rfl rfl

omit [DecidableEq S] in
/-- A withdraw or a redeem burns shares and pays out. -/
theorem shareEffect_of_withdrawInternal {assets amount : ℤ} {receiver : Party A}
    {owner operator : A} (hdeposit : depositor op = none) (hmove : shareMove op = none)
    (h : env.withdrawInternal assets amount receiver owner operator = .ok env') :
    ShareEffect env op env' := by
  simp only [withdrawInternal, burnShares, bind_eq_ok, failIf_eq_ok, Except.ok.injEq, not_lt,
    exists_const] at h
  obtain ⟨env1, hspend, env2, ⟨hnonneg, hheld, rfl⟩, htransfer⟩ := h
  obtain ⟨allowance, rfl⟩ := spendAllowance_ok hspend
  obtain ⟨_, _, rfl⟩ := transfer_eq_ok.mp htransfer
  exact .burned hdeposit hmove hnonneg hheld rfl rfl rfl

omit [DecidableEq S] in
/-- A transfer moves shares and passes the sender's lockup on. -/
theorem shareEffect_of_transferShares {src : A} {dst : Party A} {amount : ℤ}
    (hmove : shareMove op = some (.account src, dst, amount))
    (h : env.transferShares src dst amount = .ok env') : ShareEffect env op env' := by
  simp only [transferShares, failIf_bind_eq_ok, Except.ok.injEq, not_lt] at h
  obtain ⟨hnonneg, hheld, rfl⟩ := h
  refine .moved hmove hnonneg hheld ?_ ?_ ?_
  all_goals
    simp only [propagateLockupOnTransfer, setLockupExpiresAt]
    split_ifs <;> rfl

omit [DecidableEq S] in
theorem vaultCall_shareEffect {caller : A} {call : VaultCall A}
    (h : env.vaultCall erc caller call = .ok env') :
    ShareEffect env (.vault caller call : Op A S) env' := by
  cases call with
  | deposit assets receiver src =>
      obtain ⟨⟨_, _⟩, hcall, rfl⟩ := map_eq_ok.mp h
      simp only [deposit, requireVaultNotPaused, bind_eq_ok, failIf_eq_ok, exists_const,
        Except.ok.injEq, Prod.mk.injEq] at hcall
      obtain ⟨_, _, _, env2, htransfer, env3, hmint, _, rfl⟩ := hcall
      exact shareEffect_of_minted rfl htransfer hmint
  | mint shares receiver src =>
      obtain ⟨⟨_, _⟩, hcall, rfl⟩ := map_eq_ok.mp h
      simp only [mint, requireVaultNotPaused, bind_eq_ok, failIf_eq_ok, exists_const,
        Except.ok.injEq, Prod.mk.injEq] at hcall
      obtain ⟨_, _, _, env2, htransfer, env3, hmint, _, rfl⟩ := hcall
      exact shareEffect_of_minted rfl htransfer hmint
  | withdraw assets receiver owner =>
      obtain ⟨⟨_, _⟩, hcall, rfl⟩ := map_eq_ok.mp h
      simp only [withdraw, bind_eq_ok, Except.ok.injEq, Prod.mk.injEq] at hcall
      obtain ⟨_, _, _, _, _, _, _, _, env1, hinner, _, rfl⟩ := hcall
      exact shareEffect_of_withdrawInternal rfl rfl hinner
  | redeem shares receiver owner =>
      obtain ⟨⟨_, _⟩, hcall, rfl⟩ := map_eq_ok.mp h
      simp only [redeem, bind_eq_ok, Except.ok.injEq, Prod.mk.injEq] at hcall
      obtain ⟨_, _, _, _, _, _, _, _, env1, hinner, _, rfl⟩ := hcall
      exact shareEffect_of_withdrawInternal rfl rfl hinner
  | transfer dst amount => exact shareEffect_of_transferShares rfl h
  | transferFrom src dst amount =>
      simp only [vaultCall, transferSharesFrom, bind_eq_ok] at h
      obtain ⟨env1, hspend, htransfer⟩ := h
      obtain ⟨allowance, rfl⟩ := spendAllowance_ok hspend
      -- The allowance is read by no later step.
      have hmoved : shareMove (.vault caller (.transferFrom src dst amount) : Op A S) =
          some (.account src, dst, amount) := rfl
      cases shareEffect_of_transferShares hmoved htransfer with
      | moved hmove nonneg held lockups shares supply =>
          refine .moved hmove nonneg held (lockups.trans ?_) shares supply
          simp only [propagateLockupOnTransfer, setLockupExpiresAt]
          split_ifs <;> rfl
      | kept hdeposit hmove => cases hmove
      | minted hdeposit => cases hdeposit
      | burned hdeposit hmove => cases hmove
  | approve spender amount =>
      simp only [vaultCall, approve, failIf_bind_eq_ok, Except.ok.injEq] at h
      obtain ⟨_, rfl⟩ := h
      exact .kept rfl rfl rfl rfl rfl
  | claimFees recipient =>
      simp only [vaultCall, claimFees, bind_eq_ok, Except.ok.injEq] at h
      obtain ⟨_, _, _, _, env1, htransfer, rfl⟩ := h
      rw [(transfer_eq_ok.mp htransfer).2.2]
      exact .kept rfl rfl rfl rfl rfl
  | pause | unpause =>
      simp only [vaultCall, setVaultPaused, bind_eq_ok, Except.ok.injEq] at h
      obtain ⟨_, _, rfl⟩ := h
      exact .kept rfl rfl rfl rfl rfl
  | payProfit trader amount => simp [vaultCall, Env.payProfit] at h
  | reserveLiquidity amount => simp [vaultCall, Env.reserveLiquidity] at h
  | releaseLiquidity amount => simp [vaultCall, Env.releaseLiquidity] at h
  | updateNetPnl pnl => simp [vaultCall, Env.updateNetPnl] at h
  | recordAbsorbedCollateral amount preBalance =>
      simp [vaultCall, Env.recordAbsorbedCollateral] at h
  | accrueFees amount => simp [vaultCall, Env.accrueFees] at h
  | claimFeesTo recipient amount => simp [vaultCall, Env.claimFeesTo] at h

theorem apply_shareEffect (h : env.apply erc op = .ok env') : ShareEffect env op env' := by
  have heff := apply_effect h
  cases op with
  | vault caller call => exact vaultCall_shareEffect h
  | transferUsdc src dst amount =>
      rw [(transfer_eq_ok.mp h).2.2]
      exact .kept rfl rfl rfl rfl rfl
  | increase req =>
      cases heff with
      | increase awake size_pos effect =>
          exact .kept rfl rfl (by rw [effect.vault]) (by rw [effect.vault]) (by rw [effect.vault])
      | quiet h => cases h
  | close call =>
      cases heff with
      | close names ready effect =>
          exact .kept rfl rfl (by rw [effect.vault]) (by rw [effect.vault]) (by rw [effect.vault])
      | quiet h => cases h
  | setTpSl trader symbol takeProfit stopLoss =>
      cases heff with
      | setTpSl position hdelta => exact .kept rfl rfl rfl rfl rfl
      | quiet h => cases h
  | updateIndices caller symbol price =>
      cases heff with
      | updateIndices awake price_pos =>
          obtain ⟨markets, hf⟩ := env.freshEnv_eq symbol
          rw [hf]
          exact .kept rfl rfl rfl rfl rfl
      | quiet h => cases h
  | advance | config | pause | unpause | setMaxLeverage | setMarketDisabled =>
      cases heff with
      | quiet h => cases h <;> exact .kept rfl rfl rfl rfl rfl

/-! ## Supply and balances -/

structure SharesCounted (env : Env A S) : Prop where
  nonneg : ∀ p, 0 ≤ env.vault.shares p
  supply : SumsTo env.vault.shares env.vault.totalSupply

theorem moveUsdc_eq_update {balances : Party A → ℤ} {src dst : Party A} {amount : ℤ} :
    moveUsdc balances src dst amount =
      Function.update (Function.update balances src (balances src + -amount)) dst
        (Function.update balances src (balances src + -amount) dst + amount) := by
  funext p
  by_cases hd : p = dst
  · subst hd
    rw [Function.update_self]
    by_cases hs : p = src
    · subst hs
      simp [moveUsdc]
    · simp [moveUsdc, hs]
  · rw [Function.update_of_ne hd]
    by_cases hs : p = src
    · subst hs
      simp [moveUsdc, hd, sub_eq_add_neg]
    · simp [moveUsdc, hd, hs]

omit [DecidableEq S] in
/-- Changing one balance and the supply alike keeps the count. -/
theorem SharesCounted.update {p : Party A} {d : ℤ} (hc : SharesCounted env)
    (hheld : 0 ≤ env.vault.shares p + d)
    (hshares : env'.vault.shares = Function.update env.vault.shares p (env.vault.shares p + d))
    (hsupply : env'.vault.totalSupply = env.vault.totalSupply + d) : SharesCounted env' := by
  constructor
  · intro q
    rw [hshares]
    by_cases hq : q = p
    · rw [hq, Function.update_self]
      exact hheld
    · rw [Function.update_of_ne hq]
      exact hc.nonneg q
  · rw [hshares, hsupply]
    exact hc.supply.update p d

theorem sharesCounted_apply (hc : SharesCounted env) (h : env.apply erc op = .ok env') :
    SharesCounted env' := by
  cases apply_shareEffect h with
  | kept hdeposit hmove lockups shares supply =>
      exact ⟨by rw [shares]; exact hc.nonneg, by rw [shares, supply]; exact hc.supply⟩
  | @minted p amount hdeposit nonneg lockups shares supply =>
      exact hc.update (add_nonneg (hc.nonneg p) nonneg) shares supply
  | burned hdeposit hmove nonneg held lockups shares supply =>
      exact hc.update (by omega) shares supply
  | @moved src dst amount hmove nonneg held lockups shares supply =>
      constructor
      · intro p
        have hp := hc.nonneg p
        rw [shares, moveUsdc]
        split_ifs with hsrc hdst hdst
        · omega
        · rw [hsrc]
          omega
        · omega
        · omega
      · rw [shares, supply, moveUsdc_eq_update]
        have hsum := (hc.supply.update src (-amount)).update dst amount
        rwa [neg_add_cancel_right] at hsum

theorem reachable_sharesCounted (hr : Reachable erc env) : SharesCounted env :=
  hr.induction_apply (fun _ _ _ => ⟨fun _ => le_rfl, sumsTo_zero⟩)
    fun _ _ _ _ => sharesCounted_apply

end Steps

end Env

end Stellars
