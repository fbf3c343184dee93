import Stellars.Lockup

/-!
# Lockups and the transactions of others

An account's lockup is written by its own deposits and by transfers of shares to
it. A transfer of no shares goes through as well, and it passes a running lockup on
like any other: this is the one way to extend a lockup without its owner and without
crediting anything.
-/
namespace Stellars
open GuardedRuns

namespace Env

variable {A S : Type} [DecidableEq A] [DecidableEq S]

section Steps

variable {erc : Erc4626} {env env' : Env A S} {op : Op A S}

/-! ## Allowances -/

def AllowancesNonneg (env : Env A S) : Prop :=
  ∀ owner operator, 0 ≤ env.vault.allowance owner operator

omit [DecidableEq S] in
theorem AllowancesNonneg.update {owner operator : A} {amount : ℤ} (hn : env.AllowancesNonneg)
    (h0 : 0 ≤ amount) (h : env'.vault.allowance = Function.update env.vault.allowance owner
      (Function.update (env.vault.allowance owner) operator amount)) :
    env'.AllowancesNonneg := by
  intro a b
  rw [h]
  by_cases ha : a = owner
  · subst ha
    rw [Function.update_self]
    by_cases hb : b = operator
    · rw [hb, Function.update_self]
      exact h0
    · rw [Function.update_of_ne hb]
      exact hn a b
  · rw [Function.update_of_ne ha]
    exact hn a b

omit [DecidableEq S] in
/-- No more is spent than was allowed. -/
theorem allowancesNonneg_spendAllowance {owner operator : A} {shares : ℤ}
    (hn : env.AllowancesNonneg) (h : env.spendAllowance owner operator shares = .ok env') :
    env'.AllowancesNonneg := by
  unfold spendAllowance at h
  split_ifs at h
  · cases h
    exact hn
  · simp only [failIf_bind_eq_ok, Except.ok.injEq, not_lt] at h
    obtain ⟨hallowed, rfl⟩ := h
    exact hn.update (Int.sub_nonneg_of_le hallowed) rfl

omit [DecidableEq S] in
theorem allowance_transferShares {src : A} {dst : Party A} {amount : ℤ}
    (h : env.transferShares src dst amount = .ok env') :
    env'.vault.allowance = env.vault.allowance := by
  simp only [transferShares, failIf_bind_eq_ok, Except.ok.injEq] at h
  obtain ⟨_, _, rfl⟩ := h
  simp only [propagateLockupOnTransfer]
  split_ifs <;> rfl

omit [DecidableEq A] [DecidableEq S] in
theorem AllowancesNonneg.congr (hn : env.AllowancesNonneg)
    (h : env'.vault.allowance = env.vault.allowance) : env'.AllowancesNonneg := by
  intro owner operator
  rw [h]
  exact hn owner operator

omit [DecidableEq S] in
theorem allowancesNonneg_withdrawInternal {assets shares : ℤ} {receiver : Party A}
    {owner operator : A} (hn : env.AllowancesNonneg)
    (h : env.withdrawInternal assets shares receiver owner operator = .ok env') :
    env'.AllowancesNonneg := by
  simp only [withdrawInternal, burnShares, bind_eq_ok, failIf_eq_ok, Except.ok.injEq, not_lt,
    exists_const] at h
  obtain ⟨env1, hspend, env2, ⟨_, _, rfl⟩, htransfer⟩ := h
  obtain ⟨_, _, rfl⟩ := transfer_eq_ok.mp htransfer
  exact (allowancesNonneg_spendAllowance hn hspend).congr rfl

omit [DecidableEq S] in
theorem allowancesNonneg_vaultCall {caller : A} {call : VaultCall A} (hn : env.AllowancesNonneg)
    (h : env.vaultCall erc caller call = .ok env') : env'.AllowancesNonneg := by
  cases call with
  | deposit assets receiver src =>
      obtain ⟨⟨_, _⟩, hcall, rfl⟩ := map_eq_ok.mp h
      simp only [deposit, requireVaultNotPaused, mintShares, bind_eq_ok, failIf_eq_ok,
        exists_const, Except.ok.injEq, Prod.mk.injEq] at hcall
      obtain ⟨_, _, _, env2, htransfer, env3, ⟨_, rfl⟩, _, rfl⟩ := hcall
      rw [(transfer_eq_ok.mp htransfer).2.2]
      exact hn
  | mint shares receiver src =>
      obtain ⟨⟨_, _⟩, hcall, rfl⟩ := map_eq_ok.mp h
      simp only [mint, requireVaultNotPaused, mintShares, bind_eq_ok, failIf_eq_ok,
        exists_const, Except.ok.injEq, Prod.mk.injEq] at hcall
      obtain ⟨_, _, _, env2, htransfer, env3, ⟨_, rfl⟩, _, rfl⟩ := hcall
      rw [(transfer_eq_ok.mp htransfer).2.2]
      exact hn
  | withdraw assets receiver owner =>
      obtain ⟨⟨_, _⟩, hcall, rfl⟩ := map_eq_ok.mp h
      simp only [withdraw, bind_eq_ok, Except.ok.injEq, Prod.mk.injEq] at hcall
      obtain ⟨_, _, _, _, _, _, _, _, env1, hinner, _, rfl⟩ := hcall
      exact allowancesNonneg_withdrawInternal hn hinner
  | redeem shares receiver owner =>
      obtain ⟨⟨_, _⟩, hcall, rfl⟩ := map_eq_ok.mp h
      simp only [redeem, bind_eq_ok, Except.ok.injEq, Prod.mk.injEq] at hcall
      obtain ⟨_, _, _, _, _, _, _, _, env1, hinner, _, rfl⟩ := hcall
      exact allowancesNonneg_withdrawInternal hn hinner
  | transfer dst amount => exact hn.congr (allowance_transferShares h)
  | transferFrom src dst amount =>
      simp only [vaultCall, transferSharesFrom, bind_eq_ok] at h
      obtain ⟨env1, hspend, htransfer⟩ := h
      exact (allowancesNonneg_spendAllowance hn hspend).congr (allowance_transferShares htransfer)
  | approve spender amount =>
      simp only [vaultCall, approve, failIf_bind_eq_ok, Except.ok.injEq, not_lt] at h
      obtain ⟨h0, rfl⟩ := h
      exact hn.update h0 rfl
  | claimFees recipient =>
      simp only [vaultCall, claimFees, bind_eq_ok, Except.ok.injEq] at h
      obtain ⟨_, _, _, _, env1, htransfer, rfl⟩ := h
      rw [(transfer_eq_ok.mp htransfer).2.2]
      exact hn
  | pause | unpause =>
      simp only [vaultCall, setVaultPaused, bind_eq_ok, Except.ok.injEq] at h
      obtain ⟨_, _, rfl⟩ := h
      exact hn
  | payProfit trader amount => simp [vaultCall, Env.payProfit] at h
  | reserveLiquidity amount => simp [vaultCall, Env.reserveLiquidity] at h
  | releaseLiquidity amount => simp [vaultCall, Env.releaseLiquidity] at h
  | updateNetPnl pnl => simp [vaultCall, Env.updateNetPnl] at h
  | recordAbsorbedCollateral amount preBalance =>
      simp [vaultCall, Env.recordAbsorbedCollateral] at h
  | accrueFees amount => simp [vaultCall, Env.accrueFees] at h
  | claimFeesTo recipient amount => simp [vaultCall, Env.claimFeesTo] at h

/-- Only calls to the vault write allowances. -/
theorem allowancesNonneg_apply (hn : env.AllowancesNonneg) (h : env.apply erc op = .ok env') :
    env'.AllowancesNonneg := by
  have heff := apply_effect h
  cases op with
  | vault caller call => exact allowancesNonneg_vaultCall hn h
  | transferUsdc src dst amount =>
      rw [(transfer_eq_ok.mp h).2.2]
      exact hn
  | increase req =>
      cases heff with
      | increase awake size_pos effect => exact hn.congr (by rw [effect.vault])
      | quiet h => cases h
  | close call =>
      cases heff with
      | close names ready effect => exact hn.congr (by rw [effect.vault])
      | quiet h => cases h
  | setTpSl trader symbol takeProfit stopLoss =>
      cases heff with
      | setTpSl position hdelta => exact hn
      | quiet h => cases h
  | updateIndices caller symbol price =>
      cases heff with
      | updateIndices awake price_pos =>
          obtain ⟨markets, hf⟩ := env.freshEnv_eq symbol
          rw [hf]
          exact hn
      | quiet h => cases h
  | advance | config | pause | unpause | setMaxLeverage | setMarketDisabled =>
      cases heff with
      | quiet h => cases h <;> exact hn

theorem reachable_allowancesNonneg (hr : Reachable erc env) : env.AllowancesNonneg :=
  hr.induction_apply (fun _ _ _ _ _ => le_rfl) fun _ _ _ _ => allowancesNonneg_apply

omit [DecidableEq S] in
theorem transferShares_zero {src : A} (dst : Party A)
    (hshares : 0 ≤ env.vault.shares (.account src)) :
    ∃ env', env.transferShares src dst 0 = .ok env' := by
  refine FailsOnly.exists_ok (FailsOnly.bind (FailsOnly.failIf fun hneg => ?_) fun _ _ =>
    FailsOnly.bind (FailsOnly.failIf fun hshort => ?_) fun _ _ => FailsOnly.ok _ _)
  · exact lt_irrefl _ hneg
  · exact not_lt.mpr hshares hshort

/-- A transfer of no shares always goes through. -/
theorem succeeds_of_move_zero {src dst : Party A} (hr : Reachable erc env)
    (hmove : shareMove op = some (src, dst, 0)) : Succeeds erc env op := by
  have hshares := (reachable_sharesCounted hr).nonneg
  cases op with
  | vault caller call =>
      cases call with
      | transfer receiver amount =>
          cases hmove
          exact transferShares_zero dst (hshares _)
      | transferFrom owner receiver amount =>
          cases hmove
          have hallowed := reachable_allowancesNonneg hr owner caller
          simp only [Succeeds, apply, vaultCall, transferSharesFrom, spendAllowance]
          split_ifs
          · exact transferShares_zero dst (hshares _)
          · simp only [failIf, if_neg (not_lt.mpr hallowed), ok_bind]
            exact transferShares_zero dst (hshares _)
      | _ => cases hmove
  | _ => cases hmove

/-! ## Who writes a lockup -/

/-- The account that signs a call to the vault. -/
def vaultSigner : Op A S → Option (Party A)
  | .vault caller _ => some (.account caller)
  | _ => none

/-- A lockup is changed only by its owner, or together with a credit of shares. -/
def LockupShielded (erc : Erc4626) (env : Env A S) (op : Op A S) : Prop :=
  ∀ p, (env.step erc op).vault.lockupExpiresAt p ≠ env.vault.lockupExpiresAt p →
    vaultSigner op = some p ∨ env.vault.shares p < (env.step erc op).vault.shares p

/-- A transfer of no shares that somebody else than its recipient signs, from an
account whose lockup outlasts the recipient's. -/
def RelocksForFree (env : Env A S) (op : Op A S) : Prop :=
  ∃ src dst, shareMove op = some (src, dst, 0) ∧ vaultSigner op ≠ some dst ∧
    env.OutlastsLockup src dst

omit [DecidableEq A] [DecidableEq S] in
theorem OutlastsLockup.ne {src dst : Party A} (h : env.OutlastsLockup src dst) : src ≠ dst := by
  rintro rfl
  obtain ⟨e, he, _, hlt⟩ := h
  rw [he, Option.getD_some] at hlt
  exact lt_irrefl e hlt

omit [DecidableEq S] in
theorem propagate_ne_iff {src dst p : Party A} :
    (env.propagateLockupOnTransfer src dst).vault.lockupExpiresAt p ≠
      env.vault.lockupExpiresAt p ↔ p = dst ∧ env.OutlastsLockup src dst := by
  by_cases houtlasts : env.OutlastsLockup src dst
  · rw [propagate_of_outlasts houtlasts]
    by_cases hp : p = dst
    · subst hp
      refine iff_of_true ?_ ⟨rfl, houtlasts⟩
      obtain ⟨e, he, _, hlater⟩ := houtlasts
      rw [Function.update_self, he]
      intro hsame
      rw [← hsame, Option.getD_some] at hlater
      exact lt_irrefl e hlater
    · rw [Function.update_of_ne hp]
      exact iff_of_false (fun h => h rfl) fun h => hp h.1
  · rw [propagate_of_not_outlasts houtlasts]
    exact iff_of_false (fun h => h rfl) fun h => houtlasts h.2

/-- A lockup is recorded at the request of the depositor alone. -/
theorem signer_of_depositor {p : Party A} (hdeposit : depositor op = some p)
    (h : Succeeds erc env op) : vaultSigner op = some p := by
  obtain ⟨env', hok⟩ := h
  cases op with
  | vault caller call =>
      cases call with
      | deposit assets receiver src =>
          cases hdeposit
          obtain ⟨⟨_, _⟩, hcall, rfl⟩ := map_eq_ok.mp hok
          simp only [deposit, bind_eq_ok, failIf_eq_ok, not_or, not_not] at hcall
          obtain ⟨_, _, _, ⟨rfl, rfl⟩, _⟩ := hcall
          rfl
      | mint shares receiver src =>
          cases hdeposit
          obtain ⟨⟨_, _⟩, hcall, rfl⟩ := map_eq_ok.mp hok
          simp only [mint, bind_eq_ok, failIf_eq_ok, not_or, not_not] at hcall
          obtain ⟨_, _, _, ⟨rfl, rfl⟩, _⟩ := hcall
          rfl
      | _ => cases hdeposit
  | _ => cases hdeposit

/-- The transfer of nothing goes through, credits nothing and changes the lockup. -/
theorem not_shielded_of_relocks (hr : Reachable erc env) (h : env.RelocksForFree op) :
    ¬ LockupShielded erc env op := by
  obtain ⟨src, dst, hmove, hforeign, houtlasts⟩ := h
  intro hshielded
  obtain ⟨env', hok⟩ := succeeds_of_move_zero hr hmove
  have hstep : env.step erc op = env' := by rw [step, hok]
  cases apply_shareEffect hok with
  | kept hdeposit hmove' => cases hmove.symm.trans hmove'
  | minted hdeposit => cases (depositor_of_shareMove hmove).symm.trans hdeposit
  | burned hdeposit hmove' => cases hmove.symm.trans hmove'
  | moved hmove' nonneg held lockups shares supply =>
      cases hmove.symm.trans hmove'
      have hchanged : env'.vault.lockupExpiresAt dst ≠ env.vault.lockupExpiresAt dst := by
        rw [lockups]
        exact propagate_ne_iff.mpr ⟨rfl, houtlasts⟩
      rw [← hstep] at hchanged
      obtain hsigned | hcredited := hshielded dst hchanged
      · exact hforeign hsigned
      · rw [hstep, shares, moveUsdc_zero] at hcredited
        exact lt_irrefl _ hcredited

/-- Whoever else passes a longer lockup on also passes shares. -/
theorem shielded_of_not_relocks (h : ¬ env.RelocksForFree op) : LockupShielded erc env op := by
  intro p hchanged
  obtain ⟨heq, _⟩ | ⟨hok, _⟩ := step_cases erc env op
  · rw [heq] at hchanged
    exact absurd rfl hchanged
  cases apply_shareEffect hok with
  | kept hdeposit hmove lockups => exact absurd (congrFun lockups p) hchanged
  | burned hdeposit hmove nonneg held lockups => exact absurd (congrFun lockups p) hchanged
  | @minted user _ hdeposit nonneg lockups =>
      rw [lockups, lockup_recordLockup] at hchanged
      by_cases hp : p = user
      · rw [hp]
        exact .inl (signer_of_depositor hdeposit ⟨_, hok⟩)
      · rw [if_neg hp] at hchanged
        exact absurd rfl hchanged
  | @moved src dst amount hmove nonneg held lockups shares supply =>
      rw [lockups] at hchanged
      obtain ⟨rfl, houtlasts⟩ := propagate_ne_iff.mp hchanged
      by_cases hsigned : vaultSigner op = some p
      · exact .inl hsigned
      · right
        have hpaid : amount ≠ 0 := by
          rintro rfl
          exact h ⟨src, p, hmove, hsigned, houtlasts⟩
        rw [shares, moveUsdc_dst _ _ houtlasts.ne]
        omega

/-- A step shields lockups exactly if it does not relock for free. -/
theorem lockupShielded_iff (hr : Reachable erc env) (op : Op A S) :
    LockupShielded erc env op ↔ ¬ env.RelocksForFree op :=
  ⟨fun hshielded hrelocks => not_shielded_of_relocks hr hrelocks hshielded,
    shielded_of_not_relocks⟩

/-- In every run, lockups are changed only by their owners or with a credit of
shares exactly if no transfer of nothing passes a longer lockup on. -/
theorem lockups_shielded_iff (erc : Erc4626) (admin : A) (usdc : Party A → ℕ) (timestamp : ℕ)
    (ops : List (Op A S)) :
    let start : Env A S := genesis admin usdc timestamp
    Along (step erc) (LockupShielded erc) start ops ↔
      Along (step erc) (fun env op => ¬ env.RelocksForFree op) start ops := by
  intro start
  refine along_congr (fun env op hr => hr.run [op]) (fun env op hr => lockupShielded_iff hr op) ?_
  exact ⟨admin, usdc, timestamp, [], rfl⟩

/-- A provider whose lockup has ended is locked for 300 seconds more by a newcomer
who sends it nothing. -/
theorem lockup_extended_free :
    ¬ ∀ (before : List (Op ℕ ℕ)) (op : Op ℕ ℕ) (p : Party ℕ),
      let env := run (step offsetErc) (genesis 0 fundedAccounts 1000) before
      let env' := step offsetErc env op
      env'.vault.lockupExpiresAt p ≠ env.vault.lockupExpiresAt p →
        vaultSigner op = some p ∨ env.vault.shares p < env'.vault.shares p := by
  intro h
  have hmoved := h
    [.vault 2 (.deposit 10000000000 2 2), .advance 400, .vault 1 (.deposit 10000000 1 1)]
    (.vault 1 (.transfer (.account 2) 0)) (.account 2)
  revert hmoved
  decide +kernel

end Steps

end Env

end Stellars
