import Stellars.Books
import Stellars.Indexer

/-!
# The vault's row

Reservation, fees and net profit are published with every change. The balance is
not: it is known up to what came in since the last call that published it. A call
inside the vault either publishes an absolute total or leaves that drift alone,
except for revenue so small, or split so, that no fee is accrued on it.
-/
namespace Stellars
open GuardedRuns EventLogs Db

section Tracking

variable {A S : Type} [DecidableEq S]

/-- Part of a call's log has been read from `start` on: the row knows the books up to
`drift` in the balance, and no other table has changed. -/
structure Tracks (start db : Db A S) (env : Env A S) (drift : ℤ) : Prop where
  positions : db.positions = start.positions
  markets : db.markets = start.markets
  stored : start.vaultState.isSome → db.vaultState.isSome
  totalAssets : db.vaultRow.totalAssets + drift = env.totalAssets
  reservedUsdc : db.vaultRow.reservedUsdc = env.vault.reservedUsdc
  unclaimedFees : db.vaultRow.unclaimedFees = env.vault.unclaimedFees
  netGlobalTraderPnl : db.vaultRow.netGlobalTraderPnl = env.vault.netGlobalTraderPnl

/-- The three books that every change publishes. -/
structure SameVaultBooks (env env' : Env A S) : Prop where
  reservedUsdc : env'.vault.reservedUsdc = env.vault.reservedUsdc
  unclaimedFees : env'.vault.unclaimedFees = env.vault.unclaimedFees
  netGlobalTraderPnl : env'.vault.netGlobalTraderPnl = env.vault.netGlobalTraderPnl

omit [DecidableEq S] in
theorem SameVaultBooks.of_vault {env env' : Env A S} (h : env'.vault = env.vault) :
    SameVaultBooks env env' := by
  constructor <;> rw [h]

omit [DecidableEq S] in
theorem Env.SameBooks.vaultBooks {env env' : Env A S} (h : Env.SameBooks env env') :
    SameVaultBooks env env' := ⟨h.reservedUsdc, h.unclaimedFees, h.netGlobalTraderPnl⟩

end Tracking

/-- The calls of liquidity providers publish the balance after them. -/
def VaultCall.publishesTotal {A : Type} : VaultCall A → Bool
  | .deposit .. | .mint .. | .withdraw .. | .redeem .. => true
  | _ => false

namespace Env

variable {A S : Type} [DecidableEq A] [DecidableEq S]

/-- Revenue that arrives in the vault without an event. -/
def silentRevenue (env : Env A S) (amount : ℤ) : ℤ :=
  if 0 < env.feeSlice amount then 0 else max amount 0

omit [DecidableEq A] [DecidableEq S] in
theorem silentRevenue_nonneg (env : Env A S) (amount : ℤ) : 0 ≤ env.silentRevenue amount := by
  unfold silentRevenue
  split_ifs
  · exact le_rfl
  · exact le_max_right _ _

omit [DecidableEq S] in
/-- Only a liquidation settles an escrow into the vault. -/
theorem settledUsdc_vault (usdc : Party A → ℤ) (trader : A) {kind : CloseType}
    (executor : Option A) (isPartial : Bool) (escrow : ℤ) (h : kind ≠ .liquidation) :
    settledUsdc usdc (escrowRecipient trader kind executor isPartial) escrow .vault =
      usdc .vault := by
  have hother : ∀ a, moveUsdc usdc .positionManager (.account a) (max escrow 0) .vault =
      usdc .vault := fun a => moveUsdc_other _ _ (by simp) (by simp)
  cases kind with
  | user => cases isPartial <;> simp [settledUsdc, escrowRecipient, hother]
  | deleverage => exact hother trader
  | orderExecution => cases executor <;> simp [settledUsdc, escrowRecipient, hother]
  | liquidation => exact absurd rfl h

omit [DecidableEq S] in
theorem bountyUsdc_vault (usdc : Party A → ℤ) (executor : Option A) (amount : ℤ) :
    bountyUsdc usdc executor amount .vault = usdc .vault := by
  cases executor with
  | none => rfl
  | some addr => exact moveUsdc_other _ _ (by simp) (by simp)

omit [DecidableEq S] in
/-- Fees claimed by the vault itself never leave it. -/
def returnedFees (env : Env A S) : VaultCall A → ℤ
  | .claimFees recipient => if recipient = .vault then env.vault.unclaimedFees else 0
  | _ => 0

/-- A close that publishes an absolute balance on its way. -/
def ClosePublishesTotal (env : Env A S) (r : CloseRequest A S) : Prop :=
  let feeConfig := env.cfg.feeConfig.1
  0 < r.vaultToTrader ∨ 0 < r.vaultAbsorbed feeConfig ∨
    0 < env.feeSlice (r.distributableFees feeConfig) ∨
    0 < env.feeSlice (escrowRevenue r.kind r.pos.executionFeeEscrow)

instance (env : Env A S) (r : CloseRequest A S) : Decidable (env.ClosePublishesTotal r) :=
  inferInstanceAs (Decidable (_ ∨ _))

omit [DecidableEq A] [DecidableEq S] in
/-- Whichever step publishes the balance, the drift before it is forgotten. -/
theorem drift_forgotten (env : Env A S) (r : CloseRequest A S) (drift : ℤ) :
    (if env.ClosePublishesTotal r then 0 else drift) =
      if 0 < env.feeSlice (escrowRevenue r.kind r.pos.executionFeeEscrow) then 0
      else if 0 < env.feeSlice (r.distributableFees env.cfg.feeConfig.1) then 0
      else if 0 < r.vaultAbsorbed env.cfg.feeConfig.1 then 0
      else if 0 < r.vaultToTrader then 0 else drift := by
  simp only [ClosePublishesTotal]
  split_ifs <;> omega

end Env

namespace Tracks
open Env

variable {A S : Type} [DecidableEq A] [DecidableEq S]
variable (num : Numeric) (t : ℕ) {start db : Db A S} {env env' : Env A S} {drift : ℤ}
  {log : List (Event A S)}

omit [DecidableEq A] [DecidableEq S] in
/-- A balance that moves without an event moves the drift. -/
theorem moved (h : Tracks start db env drift) {amount : ℤ} (hbooks : SameVaultBooks env env')
    (htotal : env'.totalAssets = env.totalAssets + amount) :
    Tracks start db env' (drift + amount) := by
  have hbalance := h.totalAssets
  refine ⟨h.positions, h.markets, h.stored, by omega, ?_, ?_, ?_⟩
  · rw [hbooks.reservedUsdc, h.reservedUsdc]
  · rw [hbooks.unclaimedFees, h.unclaimedFees]
  · rw [hbooks.netGlobalTraderPnl, h.netGlobalTraderPnl]

omit [DecidableEq A] [DecidableEq S] in
theorem stays (h : Tracks start db env drift) (hbooks : SameVaultBooks env env')
    (htotal : env'.totalAssets = env.totalAssets) : Tracks start db env' drift := by
  rw [← add_zero drift]
  exact h.moved hbooks (htotal.trans (add_zero _).symm)

omit [DecidableEq A] [DecidableEq S] in
/-- An absolute balance ends the drift. -/
theorem snapshot (h : Tracks start db env drift) (hbooks : SameVaultBooks env env') :
    Tracks start (db.handleTotalAssetsUpdate env'.totalAssets) env' 0 := by
  refine ⟨h.positions, h.markets, fun _ => rfl, add_zero _, ?_, ?_, ?_⟩
  · rw [hbooks.reservedUsdc, ← h.reservedUsdc]
    rfl
  · rw [hbooks.unclaimedFees, ← h.unclaimedFees]
    rfl
  · rw [hbooks.netGlobalTraderPnl, ← h.netGlobalTraderPnl]
    rfl

omit [DecidableEq A] [DecidableEq S] in
theorem handleDeposit (h : Tracks start db env drift) (shares : ℤ) :
    Tracks start (db.handleDeposit shares) env drift :=
  ⟨h.positions, h.markets, fun _ => rfl, h.totalAssets, h.reservedUsdc, h.unclaimedFees,
    h.netGlobalTraderPnl⟩

omit [DecidableEq A] [DecidableEq S] in
theorem handleWithdraw (h : Tracks start db env drift) (shares : ℤ) :
    Tracks start (db.handleWithdraw shares) env drift := by
  obtain ⟨hp, hm, hs, ht, hr, hf, hn⟩ := h
  obtain ⟨positions, markets, _ | row, config⟩ := db
  · exact ⟨hp, hm, hs, ht, hr, hf, hn⟩
  · exact ⟨hp, hm, hs, ht, hr, hf, hn⟩

omit [DecidableEq A] [DecidableEq S] in
/-- Something is reserved only after an event has written the row. -/
theorem isSome_of_reserved (h : Tracks start db env drift) (hpos : 0 < env.vault.reservedUsdc) :
    db.vaultState.isSome := by
  apply vaultState_isSome
  intro hrow
  have hzero := h.reservedUsdc
  rw [hrow] at hzero
  exact absurd hzero.symm hpos.ne'

omit [DecidableEq A] [DecidableEq S] in
theorem isSome_of_fees (h : Tracks start db env drift) (hpos : 0 < env.vault.unclaimedFees) :
    db.vaultState.isSome := by
  apply vaultState_isSome
  intro hrow
  have hzero := h.unclaimedFees
  rw [hrow] at hzero
  exact absurd hzero.symm hpos.ne'

/-! ## Single calls -/

theorem reserveLiquidity (h : Tracks start db env drift) {amount : ℤ}
    (hrun : (Publishing.reserveLiquidity env .positionManager amount).run = .ok (env', log)) :
    Tracks start (db.readAt num t log) env' drift := by
  obtain ⟨hcall, rfl⟩ := run_announced.mp hrun
  obtain ⟨_, _, rfl⟩ := reserveLiquidity_eq_ok.mp hcall
  exact ⟨h.positions, h.markets, fun _ => rfl, h.totalAssets, rfl, h.unclaimedFees,
    h.netGlobalTraderPnl⟩

theorem releaseLiquidity (h : Tracks start db env drift) {amount : ℤ}
    (hrun : (Publishing.releaseLiquidity env .positionManager amount).run = .ok (env', log)) :
    Tracks start (db.readAt num t log) env' drift := by
  obtain ⟨hcall, rfl⟩ := run_announced.mp hrun
  obtain ⟨hpos, hle, rfl⟩ := releaseLiquidity_eq_ok.mp hcall
  have hrow := h.isSome_of_reserved (by omega)
  simp only [readAt_cons, readAt_nil, handle, handleRelease, updateVaultState_eq_upsert _ _ hrow]
  exact ⟨h.positions, h.markets, fun _ => rfl, h.totalAssets, rfl, h.unclaimedFees,
    h.netGlobalTraderPnl⟩

theorem payProfit (h : Tracks start db env drift) (hstart : start.vaultState.isSome) {trader : A}
    {amount : ℤ}
    (hrun : (Publishing.payProfit env .positionManager trader amount).run = .ok (env', log)) :
    Tracks start (db.readAt num t log) env' 0 := by
  obtain ⟨hcall, rfl⟩ := run_announced.mp hrun
  obtain ⟨_, _, _, rfl⟩ := payProfit_eq_ok.mp hcall
  simp only [readAt_cons, readAt_nil, handle, handlePayProfit,
    updateVaultState_eq_upsert _ _ (h.stored hstart)]
  exact ⟨h.positions, h.markets, fun _ => rfl, add_zero _, h.reservedUsdc, h.unclaimedFees,
    h.netGlobalTraderPnl⟩

theorem absorbCollateral (h : Tracks start db env drift) {amount : ℤ}
    (hrun : (Publishing.absorbCollateral env amount).run = .ok (env', log)) :
    Tracks start (db.readAt num t log) env' 0 := by
  simp only [Publishing.absorbCollateral, Publishing.recordAbsorbedCollateral, run_bind, run_call,
    run_publish, run_pure] at hrun
  obtain ⟨env1, _, _, ⟨htransfer, rfl⟩, ⟨_, _, _, ⟨_, _, _, ⟨_, rfl⟩, rfl, rfl⟩, ⟨rfl, rfl⟩, rfl⟩,
    rfl⟩ := hrun
  obtain ⟨_, _, rfl⟩ := transfer_eq_ok.mp htransfer
  exact ⟨h.positions, h.markets, fun _ => rfl, add_zero _, h.reservedUsdc, h.unclaimedFees,
    h.netGlobalTraderPnl⟩

theorem accrueFees (h : Tracks start db env drift) {amount : ℤ}
    (hrun : (Publishing.accrueFees env .positionManager amount).run = .ok (env', log)) :
    Tracks start (db.readAt num t log) env' 0 := by
  simp only [Publishing.accrueFees, run_bind, run_call, run_publish, run_pure] at hrun
  obtain ⟨env1, _, _, ⟨hcall, rfl⟩, ⟨_, _, _, rfl, ⟨_, _, _, rfl, ⟨rfl, rfl⟩, rfl⟩, rfl⟩, rfl⟩ := hrun
  obtain ⟨_, _, rfl⟩ := accrueFees_eq_ok.mp hcall
  exact ⟨h.positions, h.markets, fun _ => rfl, add_zero _, h.reservedUsdc, rfl,
    h.netGlobalTraderPnl⟩

/-! ## Revenue -/

theorem accrueNonLpSlice (h : Tracks start db env drift) {amount : ℤ} (hpos : 0 < amount)
    (hrun : (Publishing.accrueNonLpSlice env amount).run = .ok (env', log)) :
    Tracks start (db.readAt num t log) env' (if 0 < env.feeSlice amount then 0 else drift) := by
  have hslice : env.feeSlice amount = env.nonLpSlice amount := if_neg (not_le.mpr hpos)
  simp only [Publishing.accrueNonLpSlice] at hrun
  rw [hslice]
  split_ifs at hrun ⊢
  · exact h.accrueFees num t hrun
  · obtain ⟨rfl, rfl⟩ := run_pure.mp hrun
    exact h

theorem recvRevenue (h : Tracks start db env drift) {amount : ℤ}
    (hrun : (Publishing.recvRevenue env amount).run = .ok (env', log)) :
    Tracks start (db.readAt num t log) env'
      ((if 0 < env.feeSlice amount then 0 else drift) + env.silentRevenue amount) := by
  unfold Publishing.recvRevenue at hrun
  split_ifs at hrun with hle
  · obtain ⟨rfl, rfl⟩ := run_pure.mp hrun
    rw [silentRevenue, feeSlice_of_nonpos env hle, if_neg (lt_irrefl 0), if_neg (lt_irrefl 0),
      max_eq_right hle, add_zero]
    exact h
  · obtain ⟨env1, first, rest, hcall, hrest, rfl⟩ := run_bind.mp hrun
    obtain ⟨htransfer, rfl⟩ := run_call.mp hcall
    obtain ⟨_, _, rfl⟩ := transfer_eq_ok.mp htransfer
    have hmoved : Tracks start db
        (env.setUsdc (moveUsdc env.usdc .positionManager .vault amount)) (drift + amount) :=
      h.moved (.of_vault rfl) (moveUsdc_dst _ _ (by simp))
    have hread : Tracks start (db.readAt num t rest) env'
        (if 0 < env.feeSlice amount then 0 else drift + amount) :=
      hmoved.accrueNonLpSlice num t (by omega) hrest
    rw [silentRevenue, max_eq_left (by omega)]
    split_ifs at hread ⊢
    · exact hread
    · exact hread

theorem resliceRevenue (h : Tracks start db env drift) {amount : ℤ}
    (hrun : (Publishing.resliceRevenue env amount).run = .ok (env', log)) :
    Tracks start (db.readAt num t log) env' (if 0 < env.feeSlice amount then 0 else drift) := by
  unfold Publishing.resliceRevenue at hrun
  split_ifs at hrun with hle
  · obtain ⟨rfl, rfl⟩ := run_pure.mp hrun
    rw [feeSlice_of_nonpos env hle, if_neg (lt_irrefl 0)]
    exact h
  · exact h.accrueNonLpSlice num t (by omega) hrun

theorem settleOnClose (h : Tracks start db env drift) {trader : A} {kind : CloseType} {escrow : ℤ}
    {executor : Option A} {isPartial : Bool}
    (hrun : (Publishing.settleOnClose env trader kind escrow executor isPartial).run =
      .ok (env', log)) :
    Tracks start (db.readAt num t log) env'
      ((if 0 < env.feeSlice (escrowRevenue kind escrow) then 0 else drift) +
        env.silentRevenue (escrowRevenue kind escrow)) := by
  by_cases hkind : kind = .liquidation
  · subst hkind
    have hrevenue : (Publishing.recvRevenue env escrow).run = .ok (env', log) := by
      unfold Publishing.settleOnClose at hrun
      split_ifs at hrun with hle
      · rwa [Publishing.recvRevenue, if_pos hle]
      · exact hrun
    exact h.recvRevenue num t hrevenue
  · have hcall : env.settleOnClose trader kind escrow executor isPartial = .ok env' ∧ log = [] := by
      unfold Publishing.settleOnClose at hrun
      split_ifs at hrun with hle
      · obtain ⟨rfl, rfl⟩ := run_pure.mp hrun
        exact ⟨if_pos hle, rfl⟩
      · cases kind <;> first | exact run_call.mp hrun | exact absurd rfl hkind
    obtain ⟨hsettle, rfl⟩ := hcall
    obtain ⟨rfl, -⟩ := settleOnClose_ok hsettle
    have hzero : escrowRevenue kind escrow = 0 := if_neg hkind
    rw [hzero, silentRevenue, feeSlice_of_nonpos env le_rfl, if_neg (lt_irrefl 0),
      if_neg (lt_irrefl 0), max_self, add_zero, add_zero]
    exact h.stays (.of_vault rfl) (settledUsdc_vault env.usdc trader executor isPartial escrow hkind)

/-! ## Settlements -/

theorem refreshMarketUnrealizedPnl (h : Tracks start db env drift) {symbol : S} {markPrice : ℤ}
    (hrun : (Publishing.refreshMarketUnrealizedPnl env symbol markPrice).run = .ok (env', log)) :
    Tracks (start.handleMarketPnl symbol (env'.getMarketUnrealizedPnl symbol))
      (db.readAt num t log) env' drift := by
  simp only [Publishing.refreshMarketUnrealizedPnl, run_bind, run_call, run_publish,
    run_pure] at hrun
  obtain ⟨env1, _, _, ⟨hcall, rfl⟩, ⟨_, _, _, rfl, ⟨_, _, _, rfl, ⟨rfl, rfl⟩, rfl⟩, rfl⟩, rfl⟩ := hrun
  rw [refreshMarketUnrealizedPnl_eq] at hcall
  cases hcall
  exact ⟨h.positions, markets_upsertMarket_congr h.markets symbol fun row =>
      { row with marketUnrealizedPnl := _ }, fun _ => rfl, h.totalAssets, h.reservedUsdc,
    h.unclaimedFees, rfl⟩

theorem release_if_pos (h : Tracks start db env drift) {amount : ℤ}
    (hrun : (if amount > 0 then Publishing.releaseLiquidity env .positionManager amount
      else pure env).run = .ok (env', log)) :
    Tracks start (db.readAt num t log) env' drift ∧ env'.cfg = env.cfg := by
  split_ifs at hrun with hpos
  · obtain ⟨_, _, rfl⟩ := releaseLiquidity_eq_ok.mp (run_announced.mp hrun).1
    exact ⟨h.releaseLiquidity num t hrun, rfl⟩
  · obtain ⟨rfl, rfl⟩ := run_pure.mp hrun
    exact ⟨h, rfl⟩

theorem pay_if_pos (h : Tracks start db env drift) (hstart : start.vaultState.isSome) {trader : A}
    {amount : ℤ} (hrun : (if amount > 0 then
      Publishing.payProfit env .positionManager trader amount else pure env).run =
        .ok (env', log)) :
    Tracks start (db.readAt num t log) env' (if 0 < amount then 0 else drift) ∧
      env'.cfg = env.cfg := by
  split_ifs at hrun ⊢ with hpos
  · obtain ⟨_, _, _, rfl⟩ := payProfit_eq_ok.mp (run_announced.mp hrun).1
    exact ⟨h.payProfit num t hstart hrun, rfl⟩
  · obtain ⟨rfl, rfl⟩ := run_pure.mp hrun
    exact ⟨h, rfl⟩

theorem absorb_if_pos (h : Tracks start db env drift) {amount : ℤ}
    (hrun : (if amount > 0 then Publishing.absorbCollateral env amount else pure env).run =
      .ok (env', log)) :
    Tracks start (db.readAt num t log) env' (if 0 < amount then 0 else drift) ∧
      env'.cfg = env.cfg := by
  have hplain := erase_of_run hrun
  rw [erase_ite, Publishing.erase_absorbCollateral, erase_pure] at hplain
  refine ⟨?_, by rw [absorbCollateral_if_pos hplain, cfg_setUsdc]⟩
  split_ifs at hrun ⊢ with hpos
  · exact h.absorbCollateral num t hrun
  · obtain ⟨rfl, rfl⟩ := run_pure.mp hrun
    exact h

omit [DecidableEq S] in
/-- The payments of a settlement to the trader and the executor pass the vault by. -/
theorem payouts (h : Tracks start db env drift) {trader : A} {executor : Option A}
    {payout bounty : ℤ} {env1 : Env A S}
    (hpay : (if payout > 0 then env.transfer .positionManager (.account trader) payout
      else .ok env) = .ok env1) (hbounty : env1.payBounty executor bounty = .ok env') :
    Tracks start db env' drift ∧ env'.cfg = env.cfg := by
  obtain ⟨_, rfl⟩ := transfer_if_pos hpay
  obtain rfl := payBounty_ok hbounty
  refine ⟨h.stays (.of_vault rfl) ?_, rfl⟩
  rw [totalAssets_setUsdc, bountyUsdc_vault, usdc_setUsdc, moveUsdc_other _ _ (by simp) (by simp)]
  rfl

/-- A close knows the books again, up to an escrow forfeited in silence. -/
theorem executeClose (h : Tracks start db env drift) (hstart : start.vaultState.isSome)
    {r : CloseRequest A S} (hrun : (Publishing.executeClose env r).run = .ok (env', log)) :
    Tracks (start.handleMarketPnl r.symbol (env'.getMarketUnrealizedPnl r.symbol))
      (db.readAt num t log) env' ((if env.ClosePublishesTotal r then 0 else drift) +
        env.silentRevenue (escrowRevenue r.kind r.pos.executionFeeEscrow)) := by
  unfold Publishing.executeClose at hrun
  obtain ⟨env1, log1, _, hrelease, hrun1, rfl⟩ := run_bind.mp hrun
  obtain ⟨env2, log2, _, hpay, hrun2, rfl⟩ := run_bind.mp hrun1
  obtain ⟨env3, log3, _, habsorb, hrun3, rfl⟩ := run_bind.mp hrun2
  obtain ⟨env4, _, _, hreturn, hrun4, rfl⟩ := run_bind.mp hrun3
  obtain ⟨env5, _, _, hbounty, hrun5, rfl⟩ := run_bind.mp hrun4
  obtain ⟨env6, log6, _, hreslice, hrun6, rfl⟩ := run_bind.mp hrun5
  obtain ⟨env7, log7, log8, hescrow, hrun7, rfl⟩ := run_bind.mp hrun6
  obtain ⟨hreturned, rfl⟩ := run_call.mp hreturn
  obtain ⟨hrewarded, rfl⟩ := run_call.mp hbounty
  obtain ⟨h1, hc1⟩ := h.release_if_pos num t hrelease
  obtain ⟨h2, hc2⟩ := h1.pay_if_pos num t hstart hpay
  obtain ⟨h3, hc3⟩ := h2.absorb_if_pos num t habsorb
  obtain ⟨h5, hc5⟩ := h3.payouts hreturned hrewarded
  have hcfg5 : env5.cfg = env.cfg := by rw [hc5, hc3, hc2, hc1]
  obtain ⟨paid, hvault, hbalance, hcfg, hsliced⟩ : ∃ paid : Env A S, paid.vault = env5.vault ∧
      paid.totalAssets = env5.totalAssets ∧ paid.cfg = env5.cfg ∧
      (Publishing.resliceRevenue paid (r.distributableFees env.cfg.feeConfig.1)).run =
        .ok (env6, log6) := by refine ⟨_, ?_, ?_, ?_, hreslice⟩ <;> rfl
  have h6 := (h5.stays (.of_vault hvault) hbalance).resliceRevenue num t hsliced
  have hcfg6 : env6.cfg = env.cfg := by
    have hplain := erase_of_run hsliced
    rw [Publishing.erase_resliceRevenue] at hplain
    rw [(resliceRevenue_ok hplain).1]
    exact hcfg.trans hcfg5
  have h7 := h6.settleOnClose num t hescrow
  obtain ⟨settled, hvault', hbalance', hrefreshed⟩ : ∃ settled : Env A S,
      settled.vault = env7.vault ∧ settled.totalAssets = env7.totalAssets ∧
      (Publishing.refreshMarketUnrealizedPnl settled r.symbol r.tick.markPrice).run =
        .ok (env', log8) := by
    refine ⟨_, ?_, ?_, hrun7⟩ <;> rw [settlePosition_eq] <;> rfl
  have h8 := (h7.stays (.of_vault hvault') hbalance').refreshMarketUnrealizedPnl num t hrefreshed
  have hslice (e : Env A S) (he : e.cfg = env.cfg) (amount : ℤ) :
      e.feeSlice amount = env.feeSlice amount := by simp only [feeSlice, nonLpSlice, he]
  simp only [readAt_append, readAt_nil]
  rw [drift_forgotten, silentRevenue]
  simp only [silentRevenue, hslice env6 hcfg6, hslice paid (hcfg.trans hcfg5)] at h8
  exact h8

/-! ## Calls to the vault -/

omit [DecidableEq S] in
theorem claimed_totalAssets (env : Env A S) (recipient : Party A) (fees : ℤ) :
    moveUsdc env.usdc .vault recipient fees .vault =
      env.totalAssets - fees + if recipient = .vault then fees else 0 := by
  simp [moveUsdc, Env.totalAssets, eq_comm]

/-- The claim is subtracted wherever the fees went. -/
theorem claimFees (h : Tracks start db env drift) {caller : A} {recipient : Party A}
    (hrun : (Publishing.claimFees env caller recipient).run = .ok (env', log)) :
    Tracks start (db.readAt num t log) env'
      (drift + if recipient = .vault then env.vault.unclaimedFees else 0) := by
  obtain ⟨hcall, rfl⟩ := run_announced.mp hrun
  simp only [Env.claimFees, requireVaultRole, bind_eq_ok, failIf_eq_ok, exists_const,
    Except.ok.injEq, not_le] at hcall
  obtain ⟨_, hfees, env1, htransfer, rfl⟩ := hcall
  obtain ⟨_, _, rfl⟩ := transfer_eq_ok.mp htransfer
  have hmoved := claimed_totalAssets env recipient env.vault.unclaimedFees
  have hbalance := h.totalAssets
  simp only [readAt_cons, readAt_nil, handle, handleClaimFees,
    updateVaultState_eq_upsert _ _ (h.isSome_of_fees hfees)]
  refine ⟨h.positions, h.markets, fun _ => rfl, ?_, h.reservedUsdc, rfl, h.netGlobalTraderPnl⟩
  change db.vaultRow.totalAssets - env.vault.unclaimedFees + _ = moveUsdc _ _ _ _ _
  rw [hmoved]
  omega

omit [DecidableEq A] [DecidableEq S] in
theorem handleVaultPause (h : Tracks start db env drift) (isPaused : Bool) :
    Tracks start (db.handleVaultPause isPaused) env drift :=
  ⟨h.positions, h.markets, fun _ => rfl, h.totalAssets, h.reservedUsdc, h.unclaimedFees,
    h.netGlobalTraderPnl⟩

omit [DecidableEq A] [DecidableEq S] in
/-- A liquidity provider's call: an event of the library, then the balance. -/
theorem run_provider {x : Except Error (ℤ × Env A S)} {e : ℤ → Event A S}
    (hrun : ((do
      let result ← (do
        let result ← call x
        publish (e result.1)
        publish (.total result.2.totalAssets)
        pure result)
      pure result.2) : Publishing.Call A S (Env A S)).run = .ok (env', log)) :
    ∃ n, x = .ok (n, env') ∧ log = [e n, .total env'.totalAssets] := by
  simp only [run_bind, run_call, run_publish, run_pure] at hrun
  obtain ⟨⟨n, env1⟩, _, _, ⟨_, _, _, ⟨hx, rfl⟩, ⟨_, _, _, rfl, ⟨_, _, _, rfl, ⟨rfl, rfl⟩, rfl⟩, rfl⟩,
    rfl⟩, ⟨rfl, rfl⟩, rfl⟩ := hrun
  exact ⟨n, hx, rfl⟩

theorem vaultCall (h : Tracks start db env drift) {erc : Erc4626} {caller : A} {c : VaultCall A}
    (hrun : (Publishing.vaultCall erc env caller c).run = .ok (env', log)) :
    Tracks start (db.readAt num t log) env'
      ((if c.publishesTotal then 0 else drift) + env.returnedFees c) := by
  have hquiet (hsame : SameBooks env env') : Tracks start db env' (drift + 0) := by
    rw [add_zero]
    exact h.stays hsame.vaultBooks (by rw [Env.totalAssets, hsame.usdc, Env.totalAssets])
  have hplain := erase_of_run hrun
  rw [Publishing.erase_vaultCall] at hplain
  cases c with
  | deposit assets receiver src =>
      obtain ⟨shares, hcall, rfl⟩ := run_provider hrun
      have heffect := deposit_effect hcall
      exact (h.handleDeposit shares).snapshot
        ⟨heffect.reservedUsdc, heffect.unclaimedFees, heffect.netGlobalTraderPnl⟩
  | mint shares receiver src =>
      obtain ⟨assets, hcall, rfl⟩ := run_provider (e := fun _ => .deposit shares) hrun
      have heffect := mint_effect hcall
      exact (h.handleDeposit shares).snapshot
        ⟨heffect.reservedUsdc, heffect.unclaimedFees, heffect.netGlobalTraderPnl⟩
  | withdraw assets receiver owner =>
      obtain ⟨shares, hcall, rfl⟩ := run_provider hrun
      have heffect := withdraw_effect hcall
      exact (h.handleWithdraw shares).snapshot
        ⟨heffect.reservedUsdc, heffect.unclaimedFees, heffect.netGlobalTraderPnl⟩
  | redeem shares receiver owner =>
      obtain ⟨assets, hcall, rfl⟩ := run_provider (e := fun _ => .withdraw shares) hrun
      have heffect := redeem_effect hcall
      exact (h.handleWithdraw shares).snapshot
        ⟨heffect.reservedUsdc, heffect.unclaimedFees, heffect.netGlobalTraderPnl⟩
  | transfer dst amount =>
      obtain ⟨_, rfl⟩ := run_call.mp hrun
      exact hquiet (sameBooks_transferShares hplain)
  | transferFrom src dst amount =>
      obtain ⟨_, rfl⟩ := run_call.mp hrun
      exact hquiet (sameBooks_transferSharesFrom hplain)
  | approve spender amount =>
      obtain ⟨_, rfl⟩ := run_call.mp hrun
      exact hquiet (sameBooks_approve hplain)
  | claimFees recipient => exact h.claimFees num t hrun
  | pause =>
      obtain ⟨_, rfl⟩ := run_announced.mp hrun
      exact (hquiet (sameBooks_setVaultPaused hplain)).handleVaultPause true
  | unpause =>
      obtain ⟨_, rfl⟩ := run_announced.mp hrun
      exact (hquiet (sameBooks_setVaultPaused hplain)).handleVaultPause false
  | payProfit trader amount => simp [Env.vaultCall, Env.payProfit] at hplain
  | reserveLiquidity amount => simp [Env.vaultCall, Env.reserveLiquidity] at hplain
  | releaseLiquidity amount => simp [Env.vaultCall, Env.releaseLiquidity] at hplain
  | updateNetPnl pnl => simp [Env.vaultCall, Env.updateNetPnl] at hplain
  | recordAbsorbedCollateral amount preBalance =>
      simp [Env.vaultCall, Env.recordAbsorbedCollateral] at hplain
  | accrueFees amount => simp [Env.vaultCall, Env.accrueFees] at hplain
  | claimFeesTo recipient amount => simp [Env.vaultCall, Env.claimFeesTo] at hplain

end Tracks

end Stellars
