import Stellars.Solvency

/-!
# The utilization cap

An increase is gated by a truncated ratio of the reservation after it to the basis
before it, which reads zero on an empty basis. `WithinCap` is what the gate is
for: the reservation stays below the next basis point above the cap.
-/
namespace Stellars
open GuardedRuns TruncatedDivision

/-- Over a positive basis the truncated ratio passes exactly if the exact one is
below the next whole basis point. -/
theorem calcUtilizationBps_le_iff {reserved basis cap : ℤ} (hr : 0 ≤ reserved) (hb : 0 < basis) :
    calcUtilizationBps reserved basis ≤ cap ↔ reserved * bps < (cap + 1) * basis := by
  rw [calcUtilizationBps, if_neg (by omega),
    Int.tdiv_eq_ediv_of_nonneg (mul_nonneg hr (by decide)), ← Int.lt_add_one_iff,
    Int.ediv_lt_iff_lt_mul hb]

namespace Env

variable {A S : Type} [DecidableEq A] [DecidableEq S]

def WithinCap (env : Env A S) : Prop :=
  env.vault.reservedUsdc * bps <
    (env.cfg.protocolLimits.1.maxUtilizationRatio + 1) *
      (env.totalAssets - env.vault.unclaimedFees)

instance (env : Env A S) : Decidable env.WithinCap := inferInstanceAs (Decidable (_ < _))

section Increase

variable {erc : Erc4626} {env env' : Env A S} {req : IncreaseRequest A S}

theorem doIncreasePosition_size_pos (h : env.doIncreasePosition req = .ok env') :
    0 < req.size := by
  unfold doIncreasePosition at h
  obtain ⟨⟨env1, tick⟩, _, h⟩ := bind_eq_ok.mp h
  simp only [failIf_bind_eq_ok] at h
  obtain ⟨_, _, _, h⟩ := h
  obtain ⟨pos, _, h⟩ := bind_eq_ok.mp h
  obtain ⟨maxLeverage, _, h⟩ := bind_eq_ok.mp h
  obtain ⟨maxSize, _, h⟩ := bind_eq_ok.mp h
  simp only [validateTpSl, failIf_bind_eq_ok] at h
  obtain ⟨_, _, _, h⟩ := h
  obtain ⟨env2, _, h⟩ := bind_eq_ok.mp h
  obtain ⟨env3, _, h⟩ := bind_eq_ok.mp h
  obtain ⟨env4, hreserve, _⟩ := bind_eq_ok.mp h
  exact (reserveLiquidity_eq_ok.mp hreserve).1

omit [DecidableEq A] [DecidableEq S] in
/-- The open fee is at most a hundredth of the size. -/
theorem openFee_mul_le (env : Env A S) (hs : 0 < req.size) :
    env.openFee req * 100 ≤ req.size := by
  have hfee := (FeeConfig.validate_ok env.cfg.feeConfig.2).1
  simp only [openFee, calcOpenFee]
  rw [if_neg (by omega)]
  have hnum : 0 ≤ req.size * env.cfg.feeConfig.1.openFeeBps := by positivity
  have hle : req.size * (env.cfg.feeConfig.1.openFeeBps : ℤ) ≤ req.size * 100 :=
    mul_le_mul_of_nonneg_left (by exact_mod_cast hfee) hs.le
  have hq := (tdiv_nonneg_bounds hnum (show 0 < bps by decide)).1
  unfold bps at *
  omega

/-- The basis grows by the LP share of the open fee. -/
theorem IncreaseEffect.basis {pos : Position} (h : IncreaseEffect env env' req pos) :
    env'.totalAssets - env'.vault.unclaimedFees =
      env.totalAssets - env.vault.unclaimedFees +
        (env.openFee req - env.feeSlice (env.openFee req)) := by
  rw [h.unclaimedFees, totalAssets, h.usdc, moveUsdc_dst _ _ (by simp),
    moveUsdc_other _ _ (by simp) (by simp), totalAssets]
  omega

theorem withinCap_iff_of_effect {pos : Position} (hr : 0 ≤ env.vault.reservedUsdc)
    (hs : 0 < req.size) (h : IncreaseEffect env env' req pos) :
    env'.WithinCap ↔ env.vault.unclaimedFees < env.totalAssets := by
  have hslice := env.feeSlice_bounds (env.openFee req)
  rw [max_eq_left (env.openFee_nonneg req)] at hslice
  obtain ⟨-, hcap, hcap', -⟩ := ProtocolLimits.validate_ok env.cfg.protocolLimits.2
  rw [WithinCap, h.cfg, h.reservedUsdc, h.basis]
  constructor
  · intro hwithin
    by_contra hbasis
    -- only the open fee is left to back the reservation, and it is too small
    have hfee := openFee_mul_le env hs
    have hle : (env.cfg.protocolLimits.1.maxUtilizationRatio + 1) *
        (env.totalAssets - env.vault.unclaimedFees +
          (env.openFee req - env.feeSlice (env.openFee req))) ≤ 10001 * env.openFee req := by
      have hfee0 := env.openFee_nonneg req
      unfold bps at hcap'
      nlinarith
    unfold bps at hwithin
    omega
  · intro hbasis
    have hutil := h.utilization
    rw [totalAssetsExclPnl_eq_max, max_eq_left (by omega),
      calcUtilizationBps_le_iff (by omega) (by omega)] at hutil
    refine hutil.trans_le (mul_le_mul_of_nonneg_left ?_ (by omega))
    omega

/-- An increase leaves the reservation within the cap exactly if the vault held more
than its unclaimed fees. -/
theorem increase_withinCap_iff (hr : Reachable erc env)
    (h : env.doIncreasePosition req = .ok env') :
    env'.WithinCap ↔ env.vault.unclaimedFees < env.totalAssets := by
  obtain ⟨pos, heff⟩ := doIncreasePosition_ok h
  exact withinCap_iff_of_effect (reachable_books hr).reserved_nonneg
    (doIncreasePosition_size_pos h) heff

/-- The only provider has left, so that the vault holds its unclaimed fees. -/
def drained : Env ℕ ℕ :=
  deployed 1000000000000
    [.increase ⟨2, 0, 10000000000, 1000000000, true, 0, 0, 0, 1000000000⟩, .advance 300,
      .close (.decrease 2 0 10000000000 0 1000000000),
      .vault 1 (.withdraw 1000009001842 (.account 1) 1)]

theorem increase_withinCap_iff_drained :
    ∃ env', drained.doIncreasePosition ⟨2, 0, 1000000, 10000000, true, 0, 0, 0, 1000000000⟩ =
        .ok env' ∧
      (env'.WithinCap ↔ drained.vault.unclaimedFees < drained.totalAssets) := by
  obtain ⟨env', hok, _⟩ := exists_ok_of_bind_eq_some
    (show (drained.doIncreasePosition ⟨2, 0, 1000000, 10000000, true, 0, 0, 0,
      1000000000⟩).toOption.bind (fun s => some s.vault.reservedUsdc) = some 1000000 by decide +kernel)
  exact ⟨env', hok, increase_withinCap_iff (reachable_deployed _ _) hok⟩

/-- An open of 0.1 then passes the gate on a basis of zero. -/
theorem cap_exceeded :
    ¬∀ (env env' : Env ℕ ℕ) (req : IncreaseRequest ℕ ℕ), Reachable offsetErc env →
      env.doIncreasePosition req = .ok env' → env'.WithinCap := by
  intro h
  obtain ⟨env', hok, hcap⟩ := exists_ok_of_bind_eq_some
    (show (drained.doIncreasePosition ⟨2, 0, 1000000, 10000000, true, 0, 0, 0,
      1000000000⟩).toOption.bind (fun s => some (decide s.WithinCap)) = some false by
      decide +kernel)
  exact of_decide_eq_false (Option.some.inj hcap) (h drained env' _ (reachable_deployed _ _) hok)

end Increase

end Env

end Stellars
