import Stellars.AdlGate
import Stellars.Settlement
import Stellars.ShareLedger

/-!
# What can happen to an account that signs nothing

Other accounts can neither spend its USDC nor its shares, and they can neither enlarge,
retarget nor shrink its positions. All they can do is close a position whole, when the gate
of the call they use is open, and then the owner is paid what the position is worth. The USDC
token's own allowances are not part of the model: its holder signs every payment it makes.
-/
namespace Stellars
open GuardedRuns KeyedTotals

def CloseCall.signer {A S : Type} : CloseCall A S → A
  | .decrease trader _ _ _ _ => trader
  | .liquidate caller _ _ _ | .deleverage caller _ _ _ | .executeOrder caller _ _ _ => caller

/-- The account whose signature the operation carries. -/
def Op.signer {A S : Type} : Op A S → Option A
  | .advance _ => none
  | .transferUsdc src _ _ => some src
  | .config caller _ | .vault caller _ => some caller
  | .increase req => some req.trader
  | .close call => some call.signer
  | .setTpSl trader _ _ _ => some trader
  | .updateIndices caller _ _ | .pause caller | .unpause caller => some caller
  | .setMaxLeverage caller _ _ | .setMarketDisabled caller _ _ => some caller

namespace Env

variable {A S : Type} [DecidableEq A] [DecidableEq S]

/-- What the whole of `pos` is worth in the refreshed market. -/
def closeValue (env : Env A S) (symbol : S) (pos : Position) (price : ℤ) : PositionEvaluation :=
  (env.freshTick symbol price).evaluate pos pos.size pos.collateral
    env.cfg.protocolLimits.1.fundingCutBps

/-- The gates at which others may close `pos` whole: its health is below the threshold; too
much profit or too much liquidity is tied up and `pos` is in profit; or it is old enough and
the mark has reached one of the prices its owner has set. -/
inductive Forced (env : Env A S) (pos : Position) : CloseCall A S → Prop
  | liquidate {caller trader : A} {symbol : S} {price : ℤ}
      (unhealthy : (env.closeValue symbol pos price).effectiveHealth <
        (pos.collateral * env.cfg.protocolLimits.1.liquidationThresholdBps).tdiv bps) :
      Forced env pos (.liquidate caller trader symbol price)
  | deleverage {caller trader : A} {symbol : S} {price : ℤ}
      (keeper : env.cfg.hasRole .keeper caller = true)
      (triggered : env.AdlTriggered (env.pm.realizedPnl + env.pm.totalUnrealizedPnl))
      (profitable : 0 < (env.closeValue symbol pos price).pnl) :
      Forced env pos (.deleverage caller trader symbol price)
  | executeOrder {caller trader : A} {symbol : S} {price : ℤ}
      (old : pos.lastIncreasedTime + env.cfg.protocolLimits.1.minPositionLifetime ≤ env.timestamp)
      (triggered : isTpTriggered pos.takeProfit price pos.isLong = true ∨
        isSlTriggered pos.stopLoss price pos.isLong = true) :
      Forced env pos (.executeOrder caller trader symbol price)

/-- What the owner is paid: the value of the position, and the escrow when the owner did
not ask for the close. -/
def forcedPayout (env : Env A S) (pos : Position) (call : CloseCall A S) : ℤ :=
  max (env.closeValue call.symbol pos call.price).effectiveHealth 0 +
    if call.kind = .deleverage then pos.executionFeeEscrow else 0

section Gates

variable {env env1 : Env A S} {call : CloseCall A S} {r : CloseRequest A S}

omit [DecidableEq A] [DecidableEq S] in
theorem adlTriggered_of_gate {pnl : ℤ}
    (h : ¬ ((VaultView.refresh env).adlPnlRatioBps pnl ≤ env.cfg.protocolLimits.1.adlPnlBps ∧
      (VaultView.refresh env).utilizationBps ≤ env.cfg.protocolLimits.1.adlUtilizationBps)) :
    env.AdlTriggered pnl := by
  rw [not_and_or, not_le, not_le, adlPnlRatioBps_gt_iff, utilizationBps_gt_iff] at h
  exact h

/-- A close that the owner did not sign has passed a gate, and it closes everything. -/
theorem closeRequest_forced (h : env.closeRequest call = .ok (env1, r))
    (hk : call.kind ≠ .user) : Forced env r.pos call ∧
      r.eval = env.closeValue call.symbol r.pos call.price ∧ r.sizeDelta = r.pos.size := by
  obtain ⟨hready, hnames⟩ := closeRequest_ok h
  have hwhole := hready.whole (closeRequest_kind h ▸ hk)
  have heval : r.eval = env.closeValue call.symbol r.pos call.price := by
    rw [hready.eval, hready.collateral, if_pos hwhole, hwhole, hready.tick, hnames.symbol,
      hnames.price]
    rfl
  refine ⟨?_, heval, hwhole⟩
  cases call with
  | decrease => exact absurd rfl hk
  | liquidate caller trader symbol price =>
      have hgate := liquidation_gate h (closeRequest_kind h)
      rw [heval] at hgate
      exact .liquidate hgate
  | deleverage caller trader symbol price =>
      simp only [closeRequest, deleverageRequest, requireRole, bind_eq_ok, orFail_eq_ok,
        failIf_eq_ok, exists_const, Except.ok.injEq, Prod.mk.injEq] at h
      obtain ⟨hkeeper, ⟨env2, tick⟩, hrefresh, hgate, pos, _, hpnl, rfl, rfl⟩ := h
      obtain ⟨_, rfl, rfl⟩ := refreshTick_eq_ok.mp hrefresh
      obtain ⟨markets, hf⟩ := env.freshEnv_eq symbol
      rw [cfg_freshEnv] at hgate
      refine .deleverage (by simpa using hkeeper) (adlTriggered_of_gate ?_) ?_
      · rw [hf] at hgate
        exact hgate
      · rw [heval] at hpnl
        exact not_le.mp hpnl
  | executeOrder caller trader symbol price =>
      simp only [closeRequest, executeOrderRequest, requireOldEnough, bind_eq_ok, orFail_eq_ok,
        failIf_eq_ok, exists_const, Except.ok.injEq, Prod.mk.injEq, not_lt] at h
      obtain ⟨pos, _, hold, ⟨env2, tick⟩, hrefresh, hgate, rfl, rfl⟩ := h
      obtain ⟨_, rfl, rfl⟩ := refreshTick_eq_ok.mp hrefresh
      refine .executeOrder hold ?_
      rw [not_and_or, Bool.not_eq_false, Bool.not_eq_false] at hgate
      exact hgate

end Gates

section Steps

variable {erc : Erc4626} {env env' : Env A S} {op : Op A S} {a : A}

/-! ## USDC -/

omit [DecidableEq A] [DecidableEq S] in
theorem le_moveUsdc [DecidableEq A] {usdc : Party A → ℤ} {p src dst : Party A} {amount : ℤ}
    (h0 : 0 ≤ amount) (hp : p ≠ src) : usdc p ≤ moveUsdc usdc src dst amount p := by
  simp only [moveUsdc, if_neg hp]
  split_ifs <;> omega

omit [DecidableEq S] in
/-- A vault call draws on nobody but its caller and the vault. -/
theorem callMove_src_cases {caller : A} {call : VaultCall A}
    (h : env.vaultCall erc caller call = .ok env') :
    (env.callMove erc call).1 = .vault ∨ (env.callMove erc call).1 = .account caller := by
  cases call with
  | deposit assets receiver src =>
      obtain ⟨⟨_, _⟩, hcall, rfl⟩ := map_eq_ok.mp h
      simp only [deposit, bind_eq_ok, failIf_eq_ok, exists_const, not_or, not_not] at hcall
      obtain ⟨_, _, ⟨_, rfl⟩, _⟩ := hcall
      exact .inr rfl
  | mint shares receiver src =>
      obtain ⟨⟨_, _⟩, hcall, rfl⟩ := map_eq_ok.mp h
      simp only [mint, bind_eq_ok, failIf_eq_ok, exists_const, not_or, not_not] at hcall
      obtain ⟨_, _, ⟨_, rfl⟩, _⟩ := hcall
      exact .inr rfl
  | _ => exact .inl rfl

/-- A close pays its owner the value of the slice and takes nothing from anybody. -/
theorem usdc_le_of_close {env1 : Env A S} {call : CloseCall A S} {r : CloseRequest A S}
    (hb : Books env) (h : env.closeRequest call = .ok (env1, r)) (heff : CloseEffect env env' r) :
    env.usdc (.account a) ≤ env'.usdc (.account a) := by
  have hready := (closeRequest_ok h).1
  have hescrow := (hb.wellFormed _ _ hready.position).escrow_nonneg
  have hcol := (hready.collateralDelta_bounds hb).1
  have hcredit : 0 ≤ r.traderCredit := by
    unfold CloseRequest.traderCredit
    split_ifs <;> omega
  have hearned : 0 ≤ r.executorCredit env.cfg.feeConfig.1 := by
    unfold CloseRequest.executorCredit
    split
    · exact Int.ediv_nonneg (by positivity) (by decide)
    · exact hescrow
    all_goals exact le_rfl
  rw [heff.usdc, closeUsdc_account hb h a]
  split_ifs <;> omega

theorem usdc_le_of_unsigned (hb : Books env) (h : env.apply erc op = .ok env')
    (hs : op.signer ≠ some a) : env.usdc (.account a) ≤ env'.usdc (.account a) := by
  have heff := apply_effect h
  cases op with
  | transferUsdc src dst amount =>
      obtain ⟨h0, _, rfl⟩ := transfer_eq_ok.mp h
      exact le_moveUsdc h0 (by simpa [Op.signer, eq_comm] using hs)
  | vault caller call =>
      have hmoney := vaultCall_effect h
      rw [hmoney.usdc]
      refine le_moveUsdc hmoney.nonneg ?_
      obtain hsrc | hsrc := callMove_src_cases h <;> rw [hsrc]
      · simp
      · simpa [Op.signer, eq_comm] using hs
  | increase req =>
      obtain ⟨_, _, pos, heffect⟩ := increasePosition_ok h
      rw [heffect.usdc, moveUsdc_other _ _ (by simp) (by simp),
        moveUsdc_other _ _ (by simpa [Op.signer, eq_comm] using hs) (by simp)]
  | close call =>
      obtain ⟨⟨env1, r⟩, hrequest, hclose⟩ := bind_eq_ok.mp h
      obtain rfl := (closeRequest_ok hrequest).1.refreshed
      exact usdc_le_of_close hb hrequest (executeClose_ok hclose)
  | setTpSl trader symbol takeProfit stopLoss =>
      obtain ⟨pos, _, rfl⟩ := setTpSl_ok h
      refine le_of_eq (moveUsdc_other _ _ ?_ (by simp)).symm
      simpa [Op.signer, eq_comm] using hs
  | updateIndices caller symbol price =>
      obtain ⟨_, _, rfl⟩ := updateIndices_ok h
      obtain ⟨markets, hf⟩ := env.freshEnv_eq symbol
      rw [hf]
      exact le_rfl
  | advance | config | pause | unpause | setMaxLeverage | setMarketDisabled =>
      cases heff with
      | quiet h => cases h <;> exact le_rfl

/-! ## Shares -/

/-- The account lets nobody else spend its shares. -/
def ApprovesNobody (env : Env A S) (a : A) : Prop := ∀ o, env.vault.allowance a o = 0

/-- The account's shares have not fallen, and still nobody may spend them. -/
def SharesKept (env env' : Env A S) (a : A) : Prop :=
  env.vault.shares (.account a) ≤ env'.vault.shares (.account a) ∧ env'.ApprovesNobody a

omit [DecidableEq A] [DecidableEq S] in
theorem SharesKept.of_eq (ha : env.ApprovesNobody a)
    (hshares : env'.vault.shares = env.vault.shares)
    (hallowance : env'.vault.allowance = env.vault.allowance) : SharesKept env env' a := by
  refine ⟨by rw [hshares], fun o => ?_⟩
  rw [hallowance]
  exact ha o

omit [DecidableEq S] in
theorem spendAllowance_unsigned {owner operator : A} {amount : ℤ} (ha : env.ApprovesNobody a)
    (hop : operator ≠ a) (h0 : 0 ≤ amount)
    (h : env.spendAllowance owner operator amount = .ok env') :
    (owner = a → amount = 0) ∧ env'.vault.shares = env.vault.shares ∧ env'.ApprovesNobody a := by
  unfold spendAllowance at h
  split_ifs at h with hself
  · cases h
    exact ⟨fun ho => absurd (hself.trans ho) hop, rfl, ha⟩
  · simp only [failIf_bind_eq_ok, Except.ok.injEq, not_lt] at h
    obtain ⟨hcap, rfl⟩ := h
    by_cases ho : owner = a
    · subst ho
      have hzero : amount = 0 := by
        have := ha operator
        omega
      refine ⟨fun _ => hzero, rfl, fun o => ?_⟩
      simp only [Function.update_self, Function.update_apply]
      split_ifs <;> simp [ha _, hzero]
    · refine ⟨fun h => absurd h ho, rfl, fun o => ?_⟩
      simp only [Function.update_of_ne (Ne.symm ho)]
      exact ha o

omit [DecidableEq S] in
theorem sharesKept_of_withdrawInternal {assets amount : ℤ} {receiver : Party A}
    {owner operator : A} (ha : env.ApprovesNobody a) (hop : operator ≠ a)
    (h : env.withdrawInternal assets amount receiver owner operator = .ok env') :
    SharesKept env env' a := by
  simp only [withdrawInternal, burnShares, bind_eq_ok, failIf_eq_ok, Except.ok.injEq, not_lt,
    exists_const] at h
  obtain ⟨env1, hspend, env2, ⟨hnonneg, _, rfl⟩, htransfer⟩ := h
  obtain ⟨_, _, rfl⟩ := transfer_eq_ok.mp htransfer
  obtain ⟨hzero, hshares, happroves⟩ := spendAllowance_unsigned ha hop hnonneg hspend
  refine ⟨?_, happroves⟩
  simp only [vault_setUsdc, hshares, Function.update_apply, Party.account.injEq]
  split_ifs with ho
  · rw [← ho, hzero ho.symm, sub_zero]
  · exact le_rfl

omit [DecidableEq S] in
theorem sharesKept_of_transferShares {src : A} {dst : Party A} {amount : ℤ}
    (ha : env.ApprovesNobody a) (hsrc : src = a → amount = 0)
    (h : env.transferShares src dst amount = .ok env') : SharesKept env env' a := by
  simp only [transferShares, failIf_bind_eq_ok, Except.ok.injEq, not_lt] at h
  obtain ⟨hnonneg, _, rfl⟩ := h
  have hmoved : env.vault.shares (.account a) ≤
      moveUsdc env.vault.shares (.account src) dst amount (.account a) := by
    by_cases ho : src = a
    · rw [hsrc ho, moveUsdc_zero]
    · exact le_moveUsdc hnonneg (by simpa using Ne.symm ho)
  unfold propagateLockupOnTransfer setLockupExpiresAt
  simp only
  split_ifs <;> exact ⟨hmoved, ha⟩

omit [DecidableEq S] in
theorem sharesKept_of_minted {env2 : Env A S} {src p : Party A} {assets amount : ℤ}
    (ha : env.ApprovesNobody a)
    (htransfer : (env.recordLockup p).transfer src .vault assets = .ok env2)
    (hmint : env2.mintShares p amount = .ok env') : SharesKept env env' a := by
  obtain ⟨_, _, rfl⟩ := transfer_eq_ok.mp htransfer
  simp only [mintShares, failIf_bind_eq_ok, Except.ok.injEq, not_lt] at hmint
  obtain ⟨hnonneg, rfl⟩ := hmint
  refine ⟨?_, ha⟩
  change env.vault.shares (.account a) ≤
    Function.update env.vault.shares p (env.vault.shares p + amount) (.account a)
  rw [Function.update_apply]
  split_ifs with hp
  · rw [hp]
    omega
  · exact le_rfl

omit [DecidableEq S] in
theorem vaultCall_sharesKept {caller : A} {call : VaultCall A} (ha : env.ApprovesNobody a)
    (hcaller : caller ≠ a) (h : env.vaultCall erc caller call = .ok env') :
    SharesKept env env' a := by
  cases call with
  | deposit assets receiver src =>
      obtain ⟨⟨_, _⟩, hcall, rfl⟩ := map_eq_ok.mp h
      simp only [deposit, requireVaultNotPaused, bind_eq_ok, failIf_eq_ok, exists_const,
        Except.ok.injEq, Prod.mk.injEq] at hcall
      obtain ⟨_, _, _, env2, htransfer, env3, hmint, _, rfl⟩ := hcall
      exact sharesKept_of_minted ha htransfer hmint
  | mint shares receiver src =>
      obtain ⟨⟨_, _⟩, hcall, rfl⟩ := map_eq_ok.mp h
      simp only [mint, requireVaultNotPaused, bind_eq_ok, failIf_eq_ok, exists_const,
        Except.ok.injEq, Prod.mk.injEq] at hcall
      obtain ⟨_, _, _, env2, htransfer, env3, hmint, _, rfl⟩ := hcall
      exact sharesKept_of_minted ha htransfer hmint
  | withdraw assets receiver owner =>
      obtain ⟨⟨_, _⟩, hcall, rfl⟩ := map_eq_ok.mp h
      simp only [withdraw, bind_eq_ok, Except.ok.injEq, Prod.mk.injEq] at hcall
      obtain ⟨_, _, _, _, _, _, _, _, env1, hinner, _, rfl⟩ := hcall
      exact sharesKept_of_withdrawInternal ha hcaller hinner
  | redeem shares receiver owner =>
      obtain ⟨⟨_, _⟩, hcall, rfl⟩ := map_eq_ok.mp h
      simp only [redeem, bind_eq_ok, Except.ok.injEq, Prod.mk.injEq] at hcall
      obtain ⟨_, _, _, _, _, _, _, _, env1, hinner, _, rfl⟩ := hcall
      exact sharesKept_of_withdrawInternal ha hcaller hinner
  | transfer dst amount =>
      exact sharesKept_of_transferShares ha (fun hsrc => absurd hsrc hcaller) h
  | transferFrom src dst amount =>
      simp only [vaultCall, transferSharesFrom, bind_eq_ok] at h
      obtain ⟨env1, hspend, htransfer⟩ := h
      have hnonneg : 0 ≤ amount := by
        simp only [transferShares, failIf_bind_eq_ok, not_lt] at htransfer
        exact htransfer.1
      obtain ⟨hzero, hshares, happroves⟩ := spendAllowance_unsigned ha hcaller hnonneg hspend
      obtain ⟨hkept, happroves'⟩ := sharesKept_of_transferShares happroves hzero htransfer
      exact ⟨hshares ▸ hkept, happroves'⟩
  | approve spender amount =>
      simp only [vaultCall, approve, failIf_bind_eq_ok, Except.ok.injEq] at h
      obtain ⟨_, rfl⟩ := h
      refine ⟨le_rfl, fun o => ?_⟩
      simp only [Function.update_of_ne (Ne.symm hcaller)]
      exact ha o
  | claimFees recipient =>
      simp only [vaultCall, claimFees, bind_eq_ok, Except.ok.injEq] at h
      obtain ⟨_, _, _, _, env1, htransfer, rfl⟩ := h
      rw [(transfer_eq_ok.mp htransfer).2.2]
      exact .of_eq ha rfl rfl
  | pause | unpause =>
      simp only [vaultCall, setVaultPaused, bind_eq_ok, Except.ok.injEq] at h
      obtain ⟨_, _, rfl⟩ := h
      exact .of_eq ha rfl rfl
  | payProfit trader amount => simp [vaultCall, Env.payProfit] at h
  | reserveLiquidity amount => simp [vaultCall, Env.reserveLiquidity] at h
  | releaseLiquidity amount => simp [vaultCall, Env.releaseLiquidity] at h
  | updateNetPnl pnl => simp [vaultCall, Env.updateNetPnl] at h
  | recordAbsorbedCollateral amount preBalance =>
      simp [vaultCall, Env.recordAbsorbedCollateral] at h
  | accrueFees amount => simp [vaultCall, Env.accrueFees] at h
  | claimFeesTo recipient amount => simp [vaultCall, Env.claimFeesTo] at h

theorem sharesKept_of_unsigned (ha : env.ApprovesNobody a) (h : env.apply erc op = .ok env')
    (hs : op.signer ≠ some a) : SharesKept env env' a := by
  have heff := apply_effect h
  cases op with
  | vault caller call =>
      exact vaultCall_sharesKept ha (by simpa [Op.signer] using hs) h
  | transferUsdc src dst amount =>
      rw [(transfer_eq_ok.mp h).2.2]
      exact .of_eq ha rfl rfl
  | increase req =>
      obtain ⟨_, _, pos, heffect⟩ := increasePosition_ok h
      exact .of_eq ha (by rw [heffect.vault]) (by rw [heffect.vault])
  | close call =>
      obtain ⟨r, _, _, heffect⟩ := closePosition_ok h
      exact .of_eq ha (by rw [heffect.vault]) (by rw [heffect.vault])
  | setTpSl trader symbol takeProfit stopLoss =>
      obtain ⟨pos, _, rfl⟩ := setTpSl_ok h
      exact .of_eq ha rfl rfl
  | updateIndices caller symbol price =>
      obtain ⟨_, _, rfl⟩ := updateIndices_ok h
      obtain ⟨markets, hf⟩ := env.freshEnv_eq symbol
      rw [hf]
      exact .of_eq ha rfl rfl
  | advance | config | pause | unpause | setMaxLeverage | setMarketDisabled =>
      cases heff with
      | quiet h => cases h <;> exact .of_eq ha rfl rfl

/-! ## Positions -/

/-- A call that the owner did not sign closed the whole position through an open gate, and
paid the owner. -/
structure ForcedOut (env env' : Env A S) (a : A) (symbol : S) (op : Op A S) : Prop where
  step : ∃ pos call, op = .close call ∧ call.trader = a ∧ call.symbol = symbol ∧
    env.getPosition a symbol = some pos ∧ Forced env pos call ∧
      env'.usdc (.account a) = env.usdc (.account a) + env.forcedPayout pos call
  gone : env'.getPosition a symbol = none

theorem forcedOut_of_close {call : CloseCall A S} (hb : Books env)
    (h : env.closePosition call = .ok env') (hs : call.signer ≠ call.trader) :
    ForcedOut env env' call.trader call.symbol (.close call) := by
  obtain ⟨⟨env1, r⟩, hrequest, hclose⟩ := bind_eq_ok.mp h
  obtain ⟨hready, hnames⟩ := closeRequest_ok hrequest
  obtain rfl := hready.refreshed
  have heffect := executeClose_ok hclose
  have hkind := closeRequest_kind hrequest
  have huser : call.kind ≠ .user := by
    cases call with
    | decrease => exact absurd rfl hs
    | _ => simp [CloseCall.kind]
  obtain ⟨hforced, heval, hwhole⟩ := closeRequest_forced hrequest huser
  have hpos := hready.position
  rw [hnames.trader, hnames.symbol] at hpos
  refine ⟨⟨r.pos, call, rfl, rfl, rfl, hpos, hforced, ?_⟩, ?_⟩
  · have hexecutor : r.executor ≠ some call.trader := by
      rw [hnames.executor]
      cases call with
      | decrease => exact absurd rfl hs
      | deleverage => simp [CloseCall.executor]
      | liquidate | executeOrder => simpa [CloseCall.executor, CloseCall.signer] using hs
    rw [heffect.usdc, closeUsdc_account hb hrequest, if_pos hnames.trader.symm, if_neg hexecutor,
      add_zero, CloseRequest.traderCredit, heval, hkind, forcedPayout]
    simp [huser]
  · rw [getPosition, heffect.positions, settledPositions, if_pos hwhole, hnames.trader,
      hnames.symbol]
    exact AList.lookup_erase _ _

theorem getPosition_of_close_other {call : CloseCall A S} {r : CloseRequest A S} {symbol : S}
    (hnames : CloseNames call r) (heff : CloseEffect env env' r)
    (hother : ¬ (call.trader = a ∧ call.symbol = symbol)) :
    env'.getPosition a symbol = env.getPosition a symbol := by
  rw [getPosition, heff.positions]
  refine lookup_settledPositions_of_ne ?_
  rw [hnames.trader, hnames.symbol]
  intro heq
  cases heq
  exact hother ⟨rfl, rfl⟩

theorem position_of_unsigned (hb : Books env) (h : env.apply erc op = .ok env')
    (hs : op.signer ≠ some a) (symbol : S) :
    env'.getPosition a symbol = env.getPosition a symbol ∨ ForcedOut env env' a symbol op := by
  have heff := apply_effect h
  cases op with
  | increase req =>
      obtain ⟨_, _, pos, heffect⟩ := increasePosition_ok h
      left
      rw [getPosition, heffect.positions, AList.lookup_insert_ne]
      · rfl
      · rintro heq
        cases heq
        exact hs rfl
  | close call =>
      by_cases hmine : call.trader = a ∧ call.symbol = symbol
      · obtain ⟨rfl, rfl⟩ := hmine
        exact .inr (forcedOut_of_close hb h (by simpa [Op.signer] using hs))
      · obtain ⟨r, hnames, _, heffect⟩ := closePosition_ok h
        exact .inl (getPosition_of_close_other hnames heffect hmine)
  | setTpSl trader other takeProfit stopLoss =>
      obtain ⟨pos, _, rfl⟩ := setTpSl_ok h
      left
      refine AList.lookup_insert_ne ?_
      rintro heq
      cases heq
      exact hs rfl
  | updateIndices caller other price =>
      obtain ⟨_, _, rfl⟩ := updateIndices_ok h
      exact .inl (env.getPosition_freshEnv other a symbol)
  | advance | transferUsdc | config | vault | pause | unpause | setMaxLeverage |
      setMarketDisabled =>
      cases heff with
      | quiet h =>
          left
          rw [getPosition, h.samePositions.positions]
          rfl

end Steps

/-! ## Runs -/

section Runs

variable {erc : Erc4626} {env : Env A S} {a : A}

/-- Along the run the account loses nothing but positions that others were allowed to
close, each of them at once and for its value. -/
structure Unharmed (erc : Erc4626) (env : Env A S) (ops : List (Op A S)) (a : A) : Prop where
  usdc : env.usdc (.account a) ≤ (run (step erc) env ops).usdc (.account a)
  shares : SharesKept env (run (step erc) env ops) a
  positions : ∀ symbol,
    (run (step erc) env ops).getPosition a symbol = env.getPosition a symbol ∨
      (run (step erc) env ops).getPosition a symbol = none ∧
        ∃ before op later, ops = before ++ op :: later ∧
          let now := run (step erc) env before
          now.getPosition a symbol = env.getPosition a symbol ∧
            ForcedOut now (step erc now op) a symbol op

theorem ForcedOut.getPosition_ne_none {env' : Env A S} {symbol : S} {op : Op A S}
    (h : ForcedOut env env' a symbol op) : env.getPosition a symbol ≠ none := by
  obtain ⟨pos, call, _, _, _, hpos, _⟩ := h.step
  rw [hpos]
  exact Option.some_ne_none pos

theorem step_unharmed {op : Op A S} (hr : Reachable erc env) (ha : env.ApprovesNobody a)
    (hs : op.signer ≠ some a) :
    env.usdc (.account a) ≤ (step erc env op).usdc (.account a) ∧
      SharesKept env (step erc env op) a ∧
        ∀ symbol, (step erc env op).getPosition a symbol = env.getPosition a symbol ∨
          ForcedOut env (step erc env op) a symbol op := by
  have hb := reachable_books hr
  obtain ⟨heq, _⟩ | ⟨hok, _⟩ := step_cases erc env op
  · rw [heq]
    exact ⟨le_rfl, ⟨le_rfl, ha⟩, fun _ => .inl rfl⟩
  · exact ⟨usdc_le_of_unsigned hb hok hs, sharesKept_of_unsigned ha hok hs,
      position_of_unsigned hb hok hs⟩

/-- Whatever all the others do, in whatever order: an account that signs nothing and has
approved nobody keeps its USDC, its shares and its positions, except that a position may be
closed whole through an open gate, for what it is worth. -/
theorem unsigned_unharmed (hr : Reachable erc env) (ha : env.ApprovesNobody a)
    (ops : List (Op A S)) (hs : ∀ op ∈ ops, op.signer ≠ some a) : Unharmed erc env ops a := by
  induction ops generalizing env with
  | nil => exact ⟨le_rfl, ⟨le_rfl, ha⟩, fun _ => .inl rfl⟩
  | cons op ops ih =>
      obtain ⟨husdc, hshares, hpositions⟩ := step_unharmed hr ha (hs op List.mem_cons_self)
      obtain ⟨husdc', hshares', hpositions'⟩ := ih (hr.run [op]) hshares.2
        fun o ho => hs o (List.mem_cons_of_mem _ ho)
      refine ⟨husdc.trans husdc', ⟨hshares.1.trans hshares'.1, hshares'.2⟩, fun symbol => ?_⟩
      obtain hsame | hforced := hpositions symbol
      · obtain hrest | ⟨hgone, before, op', later, rfl, hnow, hforced⟩ := hpositions' symbol
        · exact .inl (hrest.trans hsame)
        · exact .inr ⟨hgone, op :: before, op', later, rfl, hnow.trans hsame, hforced⟩
      · -- a position that is gone stays gone
        obtain hrest | ⟨_, _, _, _, _, hnow, hforced'⟩ := hpositions' symbol
        · exact .inr ⟨hrest.trans hforced.gone, [], op, ops, rfl, rfl, hforced⟩
        · exact absurd (hnow.trans hforced.gone) hforced'.getPosition_ne_none

/-- A trader who is away while the market falls and account 5 liquidates the position. -/
theorem unsigned_unharmed_liquidatedLong :
    Unharmed offsetErc liquidatedLong [.advance 86400, .close (.liquidate 5 2 0 803000000)] 2 :=
  unsigned_unharmed (reachable_deployed _ _) (fun _ => rfl) _ (by decide)

end Runs

end Env

end Stellars
