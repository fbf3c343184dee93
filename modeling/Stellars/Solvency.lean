import Stellars.Books

/-!
# Solvency of the vault

Reservations and unclaimed fees should fit the vault's balance. Closes, fee
claims and LP calls keep that bound; only an increase can break it, because the
utilization gate reads zero on an empty basis and rounds down at a cap of one.
`ReservesWithinBasis` is exactly what an increase must satisfy.
-/
namespace Stellars
open GuardedRuns KeyedTotals TruncatedDivision

namespace Env

variable {A S : Type} [DecidableEq A] [DecidableEq S]

def Solvent (env : Env A S) : Prop :=
  env.vault.reservedUsdc + env.vault.unclaimedFees ≤ env.totalAssets

instance (env : Env A S) : Decidable env.Solvent :=
  inferInstanceAs (Decidable (_ ≤ _))

/-- A successful increase finds assets beyond the fees, and under a cap of one
its size fits what they and the LP share of its open fee leave unreserved. -/
def ReservesWithinBasis (erc : Erc4626) (env : Env A S) : Op A S → Prop
  | .increase req => (∃ env', env.apply erc (.increase req) = .ok env') →
      0 < env.totalAssets - env.vault.unclaimedFees ∧
        (env.cfg.protocolLimits.1.maxUtilizationRatio < bps ∨
          env.vault.reservedUsdc + req.size ≤ env.totalAssets - env.vault.unclaimedFees +
            (env.openFee req - env.feeSlice (env.openFee req)))
  | _ => True

section Increase

variable {env env' : Env A S} {req : IncreaseRequest A S} {pos : Position}

omit [DecidableEq A] [DecidableEq S] in
theorem openFee_lt_size (env : Env A S) (hs : 0 < req.size) : env.openFee req < req.size := by
  have hfee := (FeeConfig.validate_ok env.cfg.feeConfig.2).1
  simp only [openFee, calcOpenFee]
  rw [if_neg (by omega)]
  have hlt : (env.cfg.feeConfig.1.openFeeBps : ℤ) < bps := by
    unfold bps maxOpenFeeBps at *
    omega
  exact share_lt hs (by positivity) hlt

/-- Below a cap of one the gate keeps the reservation inside the basis. -/
theorem reserved_lt_of_utilization {reserved basis cap : ℤ} (hr : 0 ≤ reserved)
    (hb : 0 < basis) (hcap : cap < bps) (h : calcUtilizationBps reserved basis ≤ cap) :
    reserved < basis := by
  rw [calcUtilizationBps, if_neg (by omega)] at h
  have hq := (tdiv_nonneg_bounds (a := reserved * bps) (by positivity) hb).2
  have hle : basis * (reserved * bps).tdiv basis ≤ basis * (bps - 1) :=
    mul_le_mul_of_nonneg_left (by omega) hb.le
  unfold bps at *
  nlinarith

theorem solvent_increase_iff (hb : Books env) (hs : 0 < req.size)
    (heff : IncreaseEffect env env' req pos) : env'.Solvent ↔
      0 < env.totalAssets - env.vault.unclaimedFees ∧
        (env.cfg.protocolLimits.1.maxUtilizationRatio < bps ∨
          env.vault.reservedUsdc + req.size ≤ env.totalAssets - env.vault.unclaimedFees +
            (env.openFee req - env.feeSlice (env.openFee req))) := by
  have hassets : env'.totalAssets = env.totalAssets + env.openFee req := by
    rw [totalAssets, heff.usdc, moveUsdc_dst _ _ (by simp), moveUsdc_other _ _ (by simp) (by simp)]
    rfl
  have hreserved : 0 ≤ env.vault.reservedUsdc := by
    rw [hb.reserved]
    exact total_nonneg fun k p hk => (hb.wellFormed k p hk).size_pos.le
  have hfee := openFee_lt_size env hs
  have hfee0 := env.openFee_nonneg req
  have hslice := env.feeSlice_bounds (env.openFee req)
  rw [max_eq_left hfee0] at hslice
  rw [Solvent, hassets, heff.reservedUsdc, heff.unclaimedFees]
  constructor
  · intro hsolvent
    exact ⟨by omega, .inr (by omega)⟩
  · rintro ⟨hbasis, hcap | hfits⟩
    · have hutil := heff.utilization
      rw [totalAssetsExclPnl_eq_max, max_eq_left hbasis.le] at hutil
      have hlt := reserved_lt_of_utilization (by omega) hbasis hcap hutil
      omega
    · omega

end Increase

section Steps

variable {erc : Erc4626} {env env' : Env A S} {op : Op A S}

omit [DecidableEq S] in
theorem closeUsdc_vault (env : Env A S) (r : CloseRequest A S) :
    env.closeUsdc r .vault =
      env.closeTransfers r .vault + max (escrowRevenue r.kind r.pos.executionFeeEscrow) 0 := by
  unfold closeUsdc settledUsdc escrowRecipient escrowRevenue
  cases r.kind with
  | user => cases r.isPartial <;> simp [moveUsdc]
  | liquidation => simp [moveUsdc]
  | deleverage => simp [moveUsdc]
  | orderExecution => cases r.executor <;> simp [moveUsdc]

/-- A close releases before it pays, and every later step has its own guard. -/
theorem solvent_close {env1 : Env A S} {r : CloseRequest A S} (hb : Books env)
    (hsolvent : env.Solvent) (hr : CloseReady env env1 r) (heff : CloseEffect env env' r) :
    env'.Solvent := by
  have hd := hr.sizeDelta_pos hb
  have hescrow := (env.feeSlice_bounds (escrowRevenue r.kind r.pos.executionFeeEscrow)).2
  have hslice := (env.feeSlice_bounds (r.distributableFees env.cfg.feeConfig.1)).1
  have hfits := heff.fees_fit
  have hpay := heff.payable
  rw [max_eq_left hd.le] at hfits hpay
  have hassets : env'.totalAssets = env.totalAssets - max r.vaultToTrader 0 +
      max (r.vaultAbsorbed env.cfg.feeConfig.1) 0 +
        max (escrowRevenue r.kind r.pos.executionFeeEscrow) 0 := by
    rw [totalAssets, heff.usdc, closeUsdc_vault, closeTransfers_vault]
  rw [Solvent] at hsolvent ⊢
  rw [hassets, heff.reservedUsdc, heff.unclaimedFees, max_eq_left hd.le]
  omega

omit [DecidableEq S] in
theorem solvent_money {src dst : Party A} {amount fees : ℤ} (hsolvent : env.Solvent)
    (h : MoneyEffect env env' src dst amount fees) : env'.Solvent := by
  have h0 := h.nonneg
  have hfees := h.fees_le
  rw [Solvent] at hsolvent
  rw [Solvent, totalAssets, h.usdc, h.reservedUsdc, h.unclaimedFees]
  by_cases hsrc : src = .vault
  · have hleft := le_totalAssets_of_le_freeLiquidity env hsolvent (h.covered hsrc)
    simp only [moveUsdc, hsrc, if_true, totalAssets] at hleft ⊢
    split_ifs <;> omega
  · simp only [moveUsdc, Ne.symm hsrc, if_false, totalAssets] at hsolvent ⊢
    split_ifs <;> omega

theorem solvent_effect_iff (hb : Books env) (hsolvent : env.Solvent)
    (hok : env.apply erc op = .ok env') (h : Effect erc env op env') :
    env'.Solvent ↔ ReservesWithinBasis erc env op := by
  cases h with
  | increase awake size_pos effect =>
      rw [solvent_increase_iff hb size_pos effect]
      exact ⟨fun hw _ => hw, fun hw => hw ⟨_, hok⟩⟩
  | close names ready effect =>
      exact iff_of_true (solvent_close hb hsolvent ready effect) trivial
  | setTpSl position hdelta =>
      refine iff_of_true ?_ trivial
      simpa [Solvent, setPosition, totalAssets, moveUsdc] using hsolvent
  | @updateIndices _ symbol _ awake price_pos =>
      refine iff_of_true ?_ trivial
      obtain ⟨markets, hf⟩ := env.freshEnv_eq symbol
      rw [hf]
      exact hsolvent
  | quiet h =>
      cases h with
      | transferUsdc h => exact iff_of_true (solvent_money hsolvent h) trivial
      | vault h => exact iff_of_true (solvent_money hsolvent h) trivial
      | _ => exact iff_of_true hsolvent trivial

theorem solvent_step_iff (env : Env A S) (op : Op A S) (hb : Books env)
    (hsolvent : env.Solvent) : (step erc env op).Solvent ↔ ReservesWithinBasis erc env op := by
  obtain ⟨heq, e, herr⟩ | ⟨hok, heff⟩ := step_cases erc env op
  · rw [heq]
    refine iff_of_true hsolvent ?_
    cases op with
    | increase req =>
        rintro ⟨env', hok⟩
        rw [herr] at hok
        cases hok
    | _ => trivial
  · exact solvent_effect_iff hb hsolvent hok heff

/-- A run stays solvent throughout exactly when each of its increases reserves
within the basis. -/
theorem run_solvent_iff (erc : Erc4626) (admin : A) (usdc : Party A → ℕ) (timestamp : ℕ)
    (ops : List (Op A S)) :
    Visits (step erc) Solvent (genesis admin usdc timestamp) ops ↔
      Along (step erc) (ReservesWithinBasis erc) (genesis admin usdc timestamp) ops := by
  have hstart : (genesis admin usdc timestamp : Env A S).Solvent := by
    simp [Solvent, genesis, totalAssets]
  exact visits_iff_along (step_preserves fun _ _ _ => effect_books) solvent_step_iff
    (books_genesis admin usdc timestamp) hstart

/-- After the only provider has left, the vault holds just its unclaimed fees.
An open of 0.1 then passes the gate on a basis of zero. -/
theorem insolvent_reachable :
    ¬ ∀ env : Env ℕ ℕ, Reachable offsetErc env → env.Solvent := by
  intro hsolvent
  have hbad := hsolvent _ (reachable_deployed 1000000000000
    [.increase ⟨2, 0, 10000000000, 1000000000, true, 0, 0, 0, 1000000000⟩,
      .advance 300,
      .close (.decrease 2 0 10000000000 0 1000000000),
      .vault 1 (.withdraw 1000009001842 (.account 1) 1),
      .increase ⟨2, 0, 1000000, 10000000, true, 0, 0, 0, 1000000000⟩])
  revert hbad
  decide +kernel

end Steps

end Env

end Stellars
