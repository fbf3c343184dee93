import Mathlib.Algebra.Order.Ring.Int
import Mathlib.Tactic.Ring
import Mathlib.Tactic.Linarith

/-!
# Rates of pooled shares

A pool backs a number of shares by a number of assets. Rates are compared without dividing.
Assets may come or go with shares, or without: the rate does not fall as long as shares are
paid for at the rate or above, and redeemed at the rate or below.
-/
namespace Stellars.PoolRates

structure Pool where
  assets : ℤ
  shares : ℤ

namespace Pool

/-- A share of `q` is worth no less than a share of `p`. -/
def RateLe (p q : Pool) : Prop := p.assets * q.shares ≤ q.assets * p.shares

variable {p q r : Pool} {assets shares : ℤ}

@[refl] theorem RateLe.refl (p : Pool) : p.RateLe p := le_refl _

theorem RateLe.trans (hp : 0 ≤ p.shares) (hq : 0 < q.shares) (hr : 0 ≤ r.shares)
    (h : p.RateLe q) (h' : q.RateLe r) : p.RateLe r := by
  unfold RateLe at *
  refine le_of_mul_le_mul_right ?_ hq
  calc p.assets * r.shares * q.shares = p.assets * q.shares * r.shares := by ring
    _ ≤ q.assets * p.shares * r.shares := mul_le_mul_of_nonneg_right h hr
    _ = q.assets * r.shares * p.shares := by ring
    _ ≤ r.assets * q.shares * p.shares := mul_le_mul_of_nonneg_right h' hp
    _ = r.assets * p.shares * q.shares := by ring

/-- Shares that are added or removed, and what is paid in or out for them. -/
def flow (p : Pool) (assets shares : ℤ) : Pool := ⟨p.assets + assets, p.shares + shares⟩

theorem rateLe_flow_iff : p.RateLe (p.flow assets shares) ↔
    shares * p.assets ≤ assets * p.shares := by
  simp only [RateLe, flow]
  constructor <;> intro h <;> linarith

/-- What shares redeem for, rounded down. -/
def redeem (p : Pool) (shares : ℤ) : ℤ := (shares * p.assets).tdiv p.shares

theorem redeem_le_redeem (hp : 0 < p.shares) (hq : 0 < q.shares) (hpa : 0 ≤ p.assets)
    (hqa : 0 ≤ q.assets) (hs : 0 ≤ shares) (h : p.RateLe q) : p.redeem shares ≤ q.redeem shares := by
  simp only [redeem, Int.tdiv_eq_ediv_of_nonneg (mul_nonneg hs hpa),
    Int.tdiv_eq_ediv_of_nonneg (mul_nonneg hs hqa)]
  rw [Int.le_ediv_iff_mul_le hq]
  have hfloor := Int.ediv_mul_le (shares * p.assets) hp.ne'
  refine le_of_mul_le_mul_right ?_ hp
  calc shares * p.assets / p.shares * q.shares * p.shares
      = shares * p.assets / p.shares * p.shares * q.shares := by ring
    _ ≤ shares * p.assets * q.shares := mul_le_mul_of_nonneg_right hfloor hq.le
    _ = shares * (p.assets * q.shares) := by ring
    _ ≤ shares * (q.assets * p.shares) := mul_le_mul_of_nonneg_left h hs
    _ = shares * q.assets * p.shares := by ring

theorem redeem_mono (hp : 0 < p.shares) (hpa : 0 ≤ p.assets) {fewer : ℤ} (h0 : 0 ≤ fewer)
    (h : fewer ≤ shares) : p.redeem fewer ≤ p.redeem shares := by
  simp only [redeem, Int.tdiv_eq_ediv_of_nonneg (mul_nonneg h0 hpa),
    Int.tdiv_eq_ediv_of_nonneg (mul_nonneg (h0.trans h) hpa)]
  exact Int.ediv_le_ediv hp (mul_le_mul_of_nonneg_right h hpa)

/-- Shares that were bought short of one share's worth redeem short of that and of one unit. -/
theorem lt_redeem (hp : 0 < p.shares) (hq : 0 < q.shares) (hqa : 0 ≤ q.assets) (hs : 0 ≤ shares)
    (hbought : assets * p.shares < (shares + 1) * p.assets) (h : p.RateLe q) :
    (assets - q.redeem shares - 1) * p.shares < p.assets := by
  have hfloor : shares * q.assets < (q.redeem shares + 1) * q.shares := by
    rw [redeem, Int.tdiv_eq_ediv_of_nonneg (mul_nonneg hs hqa)]
    exact Int.lt_ediv_add_one_mul_self _ hq
  have hworth : shares * p.assets < (q.redeem shares + 1) * p.shares := by
    refine lt_of_mul_lt_mul_right ?_ hq.le
    calc shares * p.assets * q.shares = shares * (p.assets * q.shares) := by ring
      _ ≤ shares * (q.assets * p.shares) := mul_le_mul_of_nonneg_left h hs
      _ = shares * q.assets * p.shares := by ring
      _ < (q.redeem shares + 1) * q.shares * p.shares := mul_lt_mul_of_pos_right hfloor hp
      _ = (q.redeem shares + 1) * p.shares * q.shares := by ring
  linarith

/-- What a redemption of just bought shares returns. -/
theorem redeem_flow_le (hp : 0 < p.shares) (hpa : 0 ≤ p.assets) (ha : 0 ≤ assets)
    (hs : 0 ≤ shares) (hbought : shares * p.assets ≤ assets * p.shares) :
    (p.flow assets shares).redeem shares ≤ assets := by
  simp only [redeem, flow]
  rw [Int.tdiv_eq_ediv_of_nonneg (mul_nonneg hs (by omega))]
  refine Int.ediv_le_of_le_mul (by omega) ?_
  linarith

end Pool

end Stellars.PoolRates
