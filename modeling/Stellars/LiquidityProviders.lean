import Stellars.Vault

/-!
# Liquidity providers and the fee buffer

The public side of the vault: deposits, withdrawals, share transfers with their
lockups, fee claims and the vault's own pause switch. To the rest of the protocol
a successful call is at most one transfer and one fee claim (`MoneyEffect`).
-/
namespace Stellars
open GuardedRuns

/-- The conversions of the ERC-4626 library, each from an amount, the total
assets and the share supply. -/
structure Erc4626 where
  previewDeposit : ℤ → ℤ → ℤ → ℤ
  previewMint : ℤ → ℤ → ℤ → ℤ
  previewWithdraw : ℤ → ℤ → ℤ → ℤ
  previewRedeem : ℤ → ℤ → ℤ → ℤ

namespace Env

variable {A S : Type} [DecidableEq A]

/-! ## Lockups -/

def setLockupExpiresAt (env : Env A S) (user : Party A) (expiresAt : ℕ) : Env A S :=
  { env with
    vault := { env.vault with
      lockupExpiresAt := Function.update env.vault.lockupExpiresAt user (some expiresAt) } }

def recordLockup (env : Env A S) (user : Party A) : Env A S :=
  env.setLockupExpiresAt user (env.timestamp + env.cfg.protocolLimits.1.cooldownDuration)

def requireLockupElapsed (env : Env A S) (user : Party A) : Except Error Unit :=
  match env.vault.lockupExpiresAt user with
  | some expiry => failIf (env.timestamp < expiry) (.vault .cooldownNotElapsed)
  | none => .ok ()

/-- The recipient of shares inherits the sender's running lockup when it is the
later one. -/
def propagateLockupOnTransfer (env : Env A S) (src dst : Party A) : Env A S :=
  let fromExpiry := (env.vault.lockupExpiresAt src).getD 0
  if fromExpiry = 0 then env
  else if fromExpiry ≤ env.timestamp then env
  else if fromExpiry > (env.vault.lockupExpiresAt dst).getD 0 then
    env.setLockupExpiresAt dst fromExpiry
  else env

/-! ## Shares -/

def mintShares (env : Env A S) (receiver : Party A) (shares : ℤ) : Except Error (Env A S) := do
  failIf (shares < 0) (.token .negativeAmount)
  .ok { env with vault := { env.vault with
          shares := Function.update env.vault.shares receiver (env.vault.shares receiver + shares)
          totalSupply := env.vault.totalSupply + shares } }

def burnShares (env : Env A S) (owner : Party A) (shares : ℤ) : Except Error (Env A S) := do
  failIf (shares < 0) (.token .negativeAmount)
  failIf (env.vault.shares owner < shares) (.token .insufficientBalance)
  .ok { env with vault := { env.vault with
          shares := Function.update env.vault.shares owner (env.vault.shares owner - shares)
          totalSupply := env.vault.totalSupply - shares } }

def spendAllowance (env : Env A S) (owner operator : A) (shares : ℤ) :
    Except Error (Env A S) :=
  if operator = owner then .ok env
  else do
    failIf (env.vault.allowance owner operator < shares) (.token .insufficientAllowance)
    .ok { env with vault := { env.vault with
            allowance := Function.update env.vault.allowance owner
              (Function.update (env.vault.allowance owner) operator
                (env.vault.allowance owner operator - shares)) } }

def approve (env : Env A S) (owner spender : A) (amount : ℤ) : Except Error (Env A S) := do
  failIf (amount < 0) (.token .negativeAmount)
  .ok { env with vault := { env.vault with
          allowance := Function.update env.vault.allowance owner
            (Function.update (env.vault.allowance owner) spender amount) } }

def transferShares (env : Env A S) (src : A) (dst : Party A) (amount : ℤ) :
    Except Error (Env A S) := do
  failIf (amount < 0) (.token .negativeAmount)
  failIf (env.vault.shares (.account src) < amount) (.token .insufficientBalance)
  let env' : Env A S :=
    { env with vault := { env.vault with
        shares := moveUsdc env.vault.shares (.account src) dst amount } }
  .ok (env'.propagateLockupOnTransfer (.account src) dst)

def transferSharesFrom (env : Env A S) (spender src : A) (dst : Party A) (amount : ℤ) :
    Except Error (Env A S) := do
  let env' ← env.spendAllowance src spender amount
  env'.transferShares src dst amount

/-! ## Deposits and withdrawals -/

def requireVaultNotPaused (env : Env A S) : Except Error Unit :=
  failIf (env.vault.isPaused = true) (.vault .paused)

variable (erc : Erc4626)

def deposit (env : Env A S) (assets : ℤ) (receiver src operator : A) :
    Except Error (ℤ × Env A S) := do
  env.requireVaultNotPaused
  failIf (receiver ≠ src ∨ operator ≠ src) (.vault .depositMustBeSelf)
  failIf (assets ≤ 0) (.vault .zeroAmount)
  let env1 := env.recordLockup (.account receiver)
  let shares := erc.previewDeposit assets env.totalAssets env.vault.totalSupply
  let env2 ← env1.transfer (.account src) .vault assets
  let env3 ← env2.mintShares (.account receiver) shares
  .ok (shares, env3)

def mint (env : Env A S) (shares : ℤ) (receiver src operator : A) :
    Except Error (ℤ × Env A S) := do
  env.requireVaultNotPaused
  failIf (receiver ≠ src ∨ operator ≠ src) (.vault .depositMustBeSelf)
  failIf (shares ≤ 0) (.vault .zeroAmount)
  let env1 := env.recordLockup (.account receiver)
  let assets := erc.previewMint shares env.totalAssets env.vault.totalSupply
  let env2 ← env1.transfer (.account src) .vault assets
  let env3 ← env2.mintShares (.account receiver) shares
  .ok (assets, env3)

/-- The library's share of `withdraw` and `redeem`. -/
def withdrawInternal (env : Env A S) (assets shares : ℤ) (receiver : Party A)
    (owner operator : A) : Except Error (Env A S) := do
  let env1 ← env.spendAllowance owner operator shares
  let env2 ← env1.burnShares (.account owner) shares
  env2.transfer .vault receiver assets

def withdraw (env : Env A S) (assets : ℤ) (receiver : Party A) (owner operator : A) :
    Except Error (ℤ × Env A S) := do
  env.requireVaultNotPaused
  env.requireLockupElapsed (.account owner)
  env.requireFreeLiquidity assets
  failIf (assets > erc.previewRedeem (env.vault.shares (.account owner)) env.totalAssets
    env.vault.totalSupply) (.token .exceededMax)
  let shares := erc.previewWithdraw assets env.totalAssets env.vault.totalSupply
  let env' ← env.withdrawInternal assets shares receiver owner operator
  .ok (shares, env')

def redeem (env : Env A S) (shares : ℤ) (receiver : Party A) (owner operator : A) :
    Except Error (ℤ × Env A S) := do
  env.requireVaultNotPaused
  env.requireLockupElapsed (.account owner)
  let assets := erc.previewRedeem shares env.totalAssets env.vault.totalSupply
  env.requireFreeLiquidity assets
  failIf (shares > env.vault.shares (.account owner)) (.token .exceededMax)
  let env' ← env.withdrawInternal assets shares receiver owner operator
  .ok (assets, env')

/-! ## Fees and the pause switch -/

def requireVaultRole (env : Env A S) (caller : A) (role : Role) : Except Error Unit :=
  failIf (env.cfg.hasRole role caller = false) (.vault .unauthorized)

def claimFees (env : Env A S) (caller : A) (recipient : Party A) : Except Error (Env A S) := do
  env.requireVaultRole caller .admin
  let fees := env.vault.unclaimedFees
  failIf (fees ≤ 0) (.vault .zeroAmount)
  let env' ← env.transfer .vault recipient fees
  .ok (env'.setUnclaimedFees 0)

def setVaultPaused (env : Env A S) (caller : A) (paused : Bool) : Except Error (Env A S) := do
  env.requireVaultRole caller .pauser
  .ok { env with vault := { env.vault with isPaused := paused } }

end Env

/-- A call to the vault signed by an account. The last seven are guarded by
`require_position_manager`. -/
inductive VaultCall (A : Type)
  | deposit (assets : ℤ) (receiver src : A)
  | mint (shares : ℤ) (receiver src : A)
  | withdraw (assets : ℤ) (receiver : Party A) (owner : A)
  | redeem (shares : ℤ) (receiver : Party A) (owner : A)
  | transfer (dst : Party A) (amount : ℤ)
  | transferFrom (src : A) (dst : Party A) (amount : ℤ)
  | approve (spender : A) (amount : ℤ)
  | claimFees (recipient : Party A)
  | pause
  | unpause
  | payProfit (trader : A) (amount : ℤ)
  | reserveLiquidity (amount : ℤ)
  | releaseLiquidity (amount : ℤ)
  | updateNetPnl (pnl : ℤ)
  | recordAbsorbedCollateral (amount preBalance : ℤ)
  | accrueFees (amount : ℤ)
  | claimFeesTo (recipient : Party A) (amount : ℤ)

namespace Env

variable {A S : Type} [DecidableEq A]

def vaultCall (erc : Erc4626) (env : Env A S) (caller : A) :
    VaultCall A → Except Error (Env A S)
  | .deposit assets receiver src => (·.2) <$> env.deposit erc assets receiver src caller
  | .mint shares receiver src => (·.2) <$> env.mint erc shares receiver src caller
  | .withdraw assets receiver owner => (·.2) <$> env.withdraw erc assets receiver owner caller
  | .redeem shares receiver owner => (·.2) <$> env.redeem erc shares receiver owner caller
  | .transfer dst amount => env.transferShares caller dst amount
  | .transferFrom src dst amount => env.transferSharesFrom caller src dst amount
  | .approve spender amount => env.approve caller spender amount
  | .claimFees recipient => env.claimFees caller recipient
  | .pause => env.setVaultPaused caller true
  | .unpause => env.setVaultPaused caller false
  | .payProfit trader amount => env.payProfit (.account caller) trader amount
  | .reserveLiquidity amount => env.reserveLiquidity (.account caller) amount
  | .releaseLiquidity amount => env.releaseLiquidity (.account caller) amount
  | .updateNetPnl pnl => env.updateNetPnl (.account caller) pnl
  | .recordAbsorbedCollateral amount preBalance =>
      (fun _ => env) <$> env.recordAbsorbedCollateral (.account caller) amount preBalance
  | .accrueFees amount => env.accrueFees (.account caller) amount
  | .claimFeesTo recipient amount => env.claimFeesTo (.account caller) recipient amount

/-- Only share accounting, lockups and the vault's pause flag may differ. -/
structure SameBooks (env env' : Env A S) : Prop where
  timestamp : env'.timestamp = env.timestamp
  usdc : env'.usdc = env.usdc
  reservedUsdc : env'.vault.reservedUsdc = env.vault.reservedUsdc
  unclaimedFees : env'.vault.unclaimedFees = env.vault.unclaimedFees
  netGlobalTraderPnl : env'.vault.netGlobalTraderPnl = env.vault.netGlobalTraderPnl
  pm : env'.pm = env.pm
  cfg : env'.cfg = env.cfg

omit [DecidableEq A] in
theorem SameBooks.refl (env : Env A S) : SameBooks env env := ⟨rfl, rfl, rfl, rfl, rfl, rfl, rfl⟩

omit [DecidableEq A] in
theorem SameBooks.trans {e1 e2 e3 : Env A S} (h : SameBooks e1 e2) (h' : SameBooks e2 e3) :
    SameBooks e1 e3 :=
  ⟨h'.timestamp.trans h.timestamp, h'.usdc.trans h.usdc, h'.reservedUsdc.trans h.reservedUsdc,
    h'.unclaimedFees.trans h.unclaimedFees, h'.netGlobalTraderPnl.trans h.netGlobalTraderPnl,
    h'.pm.trans h.pm, h'.cfg.trans h.cfg⟩

omit [DecidableEq A] in
theorem SameBooks.freeLiquidity {env env' : Env A S} (h : SameBooks env env') :
    env'.freeLiquidity = env.freeLiquidity := by
  unfold Env.freeLiquidity totalAssets
  rw [h.usdc, h.reservedUsdc, h.unclaimedFees, h.netGlobalTraderPnl]

theorem sameBooks_recordLockup (env : Env A S) (user : Party A) :
    SameBooks env (env.recordLockup user) := ⟨rfl, rfl, rfl, rfl, rfl, rfl, rfl⟩

theorem sameBooks_mintShares {env env' : Env A S} {receiver : Party A} {shares : ℤ}
    (h : env.mintShares receiver shares = .ok env') : SameBooks env env' := by
  simp only [mintShares, failIf_bind_eq_ok, Except.ok.injEq] at h
  obtain ⟨_, rfl⟩ := h
  exact ⟨rfl, rfl, rfl, rfl, rfl, rfl, rfl⟩

theorem sameBooks_burnShares {env env' : Env A S} {owner : Party A} {shares : ℤ}
    (h : env.burnShares owner shares = .ok env') : SameBooks env env' := by
  simp only [burnShares, failIf_bind_eq_ok, Except.ok.injEq] at h
  obtain ⟨_, _, rfl⟩ := h
  exact ⟨rfl, rfl, rfl, rfl, rfl, rfl, rfl⟩

theorem sameBooks_spendAllowance {env env' : Env A S} {owner operator : A} {shares : ℤ}
    (h : env.spendAllowance owner operator shares = .ok env') : SameBooks env env' := by
  unfold spendAllowance at h
  split_ifs at h
  · cases h
    exact SameBooks.refl env
  · simp only [failIf_bind_eq_ok, Except.ok.injEq] at h
    obtain ⟨_, rfl⟩ := h
    exact ⟨rfl, rfl, rfl, rfl, rfl, rfl, rfl⟩

theorem sameBooks_propagateLockup (env : Env A S) (src dst : Party A) :
    SameBooks env (env.propagateLockupOnTransfer src dst) := by
  simp only [propagateLockupOnTransfer]
  split_ifs <;> exact ⟨rfl, rfl, rfl, rfl, rfl, rfl, rfl⟩

theorem sameBooks_transferShares {env env' : Env A S} {src : A} {dst : Party A} {amount : ℤ}
    (h : env.transferShares src dst amount = .ok env') : SameBooks env env' := by
  simp only [transferShares, failIf_bind_eq_ok, Except.ok.injEq] at h
  obtain ⟨_, _, rfl⟩ := h
  refine SameBooks.trans ?_ (sameBooks_propagateLockup _ _ _)
  exact ⟨rfl, rfl, rfl, rfl, rfl, rfl, rfl⟩

omit [DecidableEq A] in
theorem freeLiquidity_nonneg (env : Env A S) : 0 ≤ env.freeLiquidity := by
  simp only [freeLiquidity]
  split_ifs <;> omega

/-- What a call outside the position manager does to the money and the books: `amount`
moves from `src` to `dst`, `fees` stay unclaimed, and whatever leaves the vault
beyond the claimed fees was free. -/
structure MoneyEffect (env env' : Env A S) (src dst : Party A) (amount fees : ℤ) : Prop where
  nonneg : 0 ≤ amount
  fees_le : fees ≤ env.vault.unclaimedFees
  covered : src = .vault → amount - (env.vault.unclaimedFees - fees) ≤ env.freeLiquidity
  usdc : env'.usdc = moveUsdc env.usdc src dst amount
  timestamp : env'.timestamp = env.timestamp
  reservedUsdc : env'.vault.reservedUsdc = env.vault.reservedUsdc
  unclaimedFees : env'.vault.unclaimedFees = fees
  netGlobalTraderPnl : env'.vault.netGlobalTraderPnl = env.vault.netGlobalTraderPnl
  pm : env'.pm = env.pm
  cfg : env'.cfg = env.cfg

/-- Bookkeeping around one token transfer. -/
theorem MoneyEffect.of_transfer {e1 e2 e3 e4 : Env A S} {src dst : Party A} {amount : ℤ}
    (h12 : SameBooks e1 e2) (h23 : e2.transfer src dst amount = .ok e3) (h34 : SameBooks e3 e4)
    (hfree : src = .vault → amount ≤ e1.freeLiquidity) :
    MoneyEffect e1 e4 src dst amount e1.vault.unclaimedFees := by
  obtain ⟨h0, _, rfl⟩ := transfer_eq_ok.mp h23
  refine ⟨h0, le_rfl, ?_, ?_, ?_, ?_, ?_, ?_, ?_, ?_⟩
  · intro hv
    simpa using hfree hv
  · rw [h34.usdc, ← h12.usdc, usdc_setUsdc]
  · rw [h34.timestamp, ← h12.timestamp, timestamp_setUsdc]
  · rw [h34.reservedUsdc, ← h12.reservedUsdc, vault_setUsdc]
  · rw [h34.unclaimedFees, ← h12.unclaimedFees, vault_setUsdc]
  · rw [h34.netGlobalTraderPnl, ← h12.netGlobalTraderPnl, vault_setUsdc]
  · rw [h34.pm, ← h12.pm, pm_setUsdc]
  · rw [h34.cfg, ← h12.cfg, cfg_setUsdc]

theorem MoneyEffect.of_sameBooks {env env' : Env A S} (h : SameBooks env env') :
    MoneyEffect env env' .vault .vault 0 env.vault.unclaimedFees :=
  ⟨le_rfl, le_rfl, fun _ => by simpa using env.freeLiquidity_nonneg,
    by rw [h.usdc, moveUsdc_zero], h.timestamp, h.reservedUsdc, h.unclaimedFees, h.netGlobalTraderPnl, h.pm, h.cfg⟩

section Inversion

variable {erc : Erc4626} {env env' : Env A S}

theorem deposit_effect {assets shares : ℤ} {receiver src operator : A}
    (h : env.deposit erc assets receiver src operator = .ok (shares, env')) :
    MoneyEffect env env' (.account src) .vault assets env.vault.unclaimedFees := by
  simp only [deposit, requireVaultNotPaused, bind_eq_ok, failIf_eq_ok, exists_const,
    Except.ok.injEq,
    Prod.mk.injEq] at h
  obtain ⟨_, _, _, env2, htransfer, env3, hmint, _, rfl⟩ := h
  exact .of_transfer (sameBooks_recordLockup env _) htransfer (sameBooks_mintShares hmint) nofun

theorem mint_effect {assets shares : ℤ} {receiver src operator : A}
    (h : env.mint erc shares receiver src operator = .ok (assets, env')) :
    MoneyEffect env env' (.account src) .vault
      (erc.previewMint shares env.totalAssets env.vault.totalSupply) env.vault.unclaimedFees := by
  simp only [mint, requireVaultNotPaused, bind_eq_ok, failIf_eq_ok, exists_const,
    Except.ok.injEq,
    Prod.mk.injEq] at h
  obtain ⟨_, _, _, env2, htransfer, env3, hmint, _, rfl⟩ := h
  exact .of_transfer (sameBooks_recordLockup env _) htransfer (sameBooks_mintShares hmint) nofun

theorem withdrawInternal_effect {assets shares : ℤ} {receiver : Party A} {owner operator : A}
    (hfree : assets ≤ env.freeLiquidity)
    (h : env.withdrawInternal assets shares receiver owner operator = .ok env') :
    MoneyEffect env env' .vault receiver assets env.vault.unclaimedFees := by
  simp only [withdrawInternal, bind_eq_ok] at h
  obtain ⟨env1, hspend, env2, hburn, htransfer⟩ := h
  exact .of_transfer ((sameBooks_spendAllowance hspend).trans (sameBooks_burnShares hburn))
    htransfer (SameBooks.refl _) (fun _ => hfree)

theorem withdraw_effect {assets shares : ℤ} {receiver : Party A} {owner operator : A}
    (h : env.withdraw erc assets receiver owner operator = .ok (shares, env')) :
    MoneyEffect env env' .vault receiver assets env.vault.unclaimedFees := by
  simp only [withdraw, requireVaultNotPaused, requireFreeLiquidity, bind_eq_ok,
    failIf_eq_ok, exists_const, Except.ok.injEq, Prod.mk.injEq, not_lt] at h
  obtain ⟨_, _, _, hfree, _, env1, hinner, _, rfl⟩ := h
  exact withdrawInternal_effect hfree hinner

theorem redeem_effect {assets shares : ℤ} {receiver : Party A} {owner operator : A}
    (h : env.redeem erc shares receiver owner operator = .ok (assets, env')) :
    MoneyEffect env env' .vault receiver
      (erc.previewRedeem shares env.totalAssets env.vault.totalSupply)
      env.vault.unclaimedFees := by
  simp only [redeem, requireVaultNotPaused, requireFreeLiquidity, bind_eq_ok,
    failIf_eq_ok, exists_const, Except.ok.injEq, Prod.mk.injEq, not_lt] at h
  obtain ⟨_, _, _, hfree, _, env1, hinner, _, rfl⟩ := h
  exact withdrawInternal_effect hfree hinner

theorem claimFees_effect {caller : A} {recipient : Party A}
    (h : env.claimFees caller recipient = .ok env') :
    MoneyEffect env env' .vault recipient env.vault.unclaimedFees 0 := by
  simp only [claimFees, requireVaultRole, bind_eq_ok, failIf_eq_ok, exists_const,
    Except.ok.injEq] at h
  obtain ⟨_, hfees, env1, htransfer, rfl⟩ := h
  obtain ⟨h0, _, rfl⟩ := transfer_eq_ok.mp htransfer
  exact ⟨h0, by omega, fun _ => by simpa using env.freeLiquidity_nonneg, rfl, rfl, rfl, rfl, rfl, rfl, rfl⟩

theorem sameBooks_approve {owner spender : A} {amount : ℤ}
    (h : env.approve owner spender amount = .ok env') : SameBooks env env' := by
  simp only [approve, failIf_bind_eq_ok, Except.ok.injEq] at h
  obtain ⟨_, rfl⟩ := h
  exact ⟨rfl, rfl, rfl, rfl, rfl, rfl, rfl⟩

theorem sameBooks_transferSharesFrom {spender src : A} {dst : Party A} {amount : ℤ}
    (h : env.transferSharesFrom spender src dst amount = .ok env') : SameBooks env env' := by
  simp only [transferSharesFrom, bind_eq_ok] at h
  obtain ⟨env1, hspend, htransfer⟩ := h
  exact (sameBooks_spendAllowance hspend).trans (sameBooks_transferShares htransfer)

omit [DecidableEq A] in
theorem sameBooks_setVaultPaused {caller : A} {paused : Bool}
    (h : env.setVaultPaused caller paused = .ok env') : SameBooks env env' := by
  simp only [setVaultPaused, requireVaultRole, failIf_bind_eq_ok, Except.ok.injEq] at h
  obtain ⟨_, rfl⟩ := h
  exact ⟨rfl, rfl, rfl, rfl, rfl, rfl, rfl⟩

end Inversion

/-- Payer, recipient and amount of the transfer a vault call asks for. -/
def callMove (erc : Erc4626) (env : Env A S) : VaultCall A → Party A × Party A × ℤ
  | .deposit assets _ src => (.account src, .vault, assets)
  | .mint shares _ src =>
      (.account src, .vault, erc.previewMint shares env.totalAssets env.vault.totalSupply)
  | .withdraw assets receiver _ => (.vault, receiver, assets)
  | .redeem shares receiver _ =>
      (.vault, receiver, erc.previewRedeem shares env.totalAssets env.vault.totalSupply)
  | .claimFees recipient => (.vault, recipient, env.vault.unclaimedFees)
  | _ => (.vault, .vault, 0)

def feesAfter (env : Env A S) : VaultCall A → ℤ
  | .claimFees _ => 0
  | _ => env.vault.unclaimedFees

theorem vaultCall_effect {erc : Erc4626} {env env' : Env A S} {caller : A} {call : VaultCall A}
    (h : env.vaultCall erc caller call = .ok env') :
    MoneyEffect env env' (env.callMove erc call).1 (env.callMove erc call).2.1
      (env.callMove erc call).2.2 (env.feesAfter call) := by
  cases call with
  | deposit assets receiver src =>
      obtain ⟨⟨_, _⟩, hcall, rfl⟩ := map_eq_ok.mp h
      exact deposit_effect hcall
  | mint shares receiver src =>
      obtain ⟨⟨_, _⟩, hcall, rfl⟩ := map_eq_ok.mp h
      exact mint_effect hcall
  | withdraw assets receiver owner =>
      obtain ⟨⟨_, _⟩, hcall, rfl⟩ := map_eq_ok.mp h
      exact withdraw_effect hcall
  | redeem shares receiver owner =>
      obtain ⟨⟨_, _⟩, hcall, rfl⟩ := map_eq_ok.mp h
      exact redeem_effect hcall
  | transfer dst amount => exact .of_sameBooks (sameBooks_transferShares h)
  | transferFrom src dst amount => exact .of_sameBooks (sameBooks_transferSharesFrom h)
  | approve spender amount => exact .of_sameBooks (sameBooks_approve h)
  | claimFees recipient => exact claimFees_effect h
  | pause => exact .of_sameBooks (sameBooks_setVaultPaused h)
  | unpause => exact .of_sameBooks (sameBooks_setVaultPaused h)
  | payProfit trader amount => simp [vaultCall, Env.payProfit] at h
  | reserveLiquidity amount => simp [vaultCall, Env.reserveLiquidity] at h
  | releaseLiquidity amount => simp [vaultCall, Env.releaseLiquidity] at h
  | updateNetPnl pnl => simp [vaultCall, Env.updateNetPnl] at h
  | recordAbsorbedCollateral amount preBalance =>
      simp [vaultCall, Env.recordAbsorbedCollateral] at h
  | accrueFees amount => simp [vaultCall, Env.accrueFees] at h
  | claimFeesTo recipient amount => simp [vaultCall, Env.claimFeesTo] at h

end Env

end Stellars
