import Stellars.TrapFreedom

/-!
# The funding rate at every magnitude

When the product of imbalance and base rate overflows, both the imbalance and the total
are halved until it fits. Of the magnitude `2 ^ 127` only the negative fits, so a market
heavy on its long side is then halved once more than its mirror image, and the odd bit
of the total that is dropped may change the rate.
-/
namespace Stellars
open MachineIntegers TruncatedDivision

/-- After `k` halvings the product is `2 ^ 127` up to its sign, and one more halving of
the total changes the quotient. -/
def HalvesUnevenly (longOi shortOi base : ℤ) : Prop :=
  ∃ k : ℕ, |longOi - shortOi| / 2 ^ k * base = 2 ^ 127 ∧
    (2 ^ 127 : ℤ) / ((longOi + shortOi) / 2 ^ k) ≠ 2 ^ 126 / ((longOi + shortOi) / 2 ^ (k + 1))

theorem halvesUnevenly_swap {longOi shortOi base : ℤ} :
    HalvesUnevenly shortOi longOi base ↔ HalvesUnevenly longOi shortOi base := by
  unfold HalvesUnevenly
  rw [abs_sub_comm, add_comm shortOi longOi]

/-! ## Where the halving stops -/

section Halving

variable {d total base : ℤ} {k : ℕ}

theorem halved_pos_iff (hd : 0 ≤ d) (ht : 0 ≤ total) (hb : 0 ≤ base) :
    Halved d total base k ↔ total / 2 ^ k = 0 ∨ d / 2 ^ k * base < 2 ^ 127 := by
  have hproduct : 0 ≤ d / 2 ^ k * base := mul_nonneg (Int.ediv_nonneg hd (by positivity)) hb
  unfold Halved
  rw [Int.tdiv_eq_ediv_of_nonneg ht, Int.tdiv_eq_ediv_of_nonneg hd,
    Format.fits_of_nonneg hproduct]
  simp only [i128, i128Max]
  omega

theorem halved_neg_iff (hd : 0 ≤ d) (ht : 0 ≤ total) (hb : 0 ≤ base) :
    Halved (-d) total base k ↔ total / 2 ^ k = 0 ∨ d / 2 ^ k * base ≤ 2 ^ 127 := by
  have hproduct : 0 ≤ d / 2 ^ k * base := mul_nonneg (Int.ediv_nonneg hd (by positivity)) hb
  unfold Halved Format.Fits
  rw [Int.tdiv_eq_ediv_of_nonneg ht, Int.neg_tdiv, Int.tdiv_eq_ediv_of_nonneg hd, neg_mul]
  simp only [i128, i128Max, i128Min]
  omega

theorem calcFundingRate_of_first {longOi shortOi : ℤ}
    (hk : Halved (longOi - shortOi) (longOi + shortOi) base k)
    (hmin : ∀ j < k, ¬Halved (longOi - shortOi) (longOi + shortOi) base j) :
    calcFundingRate longOi shortOi base =
      ((longOi - shortOi).tdiv (2 ^ k) * base).tdiv ((longOi + shortOi).tdiv (2 ^ k)) := by
  have hfind := (Nat.find_eq_iff (exists_halved (longOi - shortOi) (longOi + shortOi) base)).mpr
    ⟨hk, hmin⟩
  rw [← yearlyFundingRate_eq]
  simp only [yearlyFundingRate, hfind]

/-- The loop stops somewhere, and both quotients have the same number of halvings. -/
theorem calcFundingRate_closed (longOi shortOi base : ℤ) :
    ∃ k : ℕ, calcFundingRate longOi shortOi base =
      ((longOi - shortOi).tdiv (2 ^ k) * base).tdiv ((longOi + shortOi).tdiv (2 ^ k)) :=
  ⟨_, calcFundingRate_of_first
    (Nat.find_spec (exists_halved (longOi - shortOi) (longOi + shortOi) base))
    fun _ hj => Nat.find_min (exists_halved (longOi - shortOi) (longOi + shortOi) base) hj⟩

/-- The imbalance is no larger than the total, halved or not. -/
theorem abs_calcFundingRate_le {longOi shortOi base : ℤ} (hl : 0 ≤ longOi) (hs : 0 ≤ shortOi)
    (hb : 0 ≤ base) : |calcFundingRate longOi shortOi base| ≤ base := by
  obtain ⟨k, hk⟩ := calcFundingRate_closed longOi shortOi base
  have hle : ((longOi - shortOi).tdiv (2 ^ k)).natAbs ≤ ((longOi + shortOi).tdiv (2 ^ k)).natAbs := by
    rw [Int.natAbs_tdiv, Int.natAbs_tdiv]
    exact Nat.div_le_div_right (by omega)
  rw [hk, Int.abs_eq_natAbs, Int.natAbs_tdiv, Int.natAbs_mul]
  have hdiv := Nat.div_le_of_le_mul (Nat.mul_le_mul_right base.natAbs hle)
  exact (Int.ofNat_le.mpr hdiv).trans (Int.natAbs_of_nonneg hb).le

/-- The rate has the sign of the imbalance, or none. -/
theorem calcFundingRate_eq_zero_or_sign {longOi shortOi base : ℤ} (h : 0 ≤ longOi + shortOi)
    (hb : 0 ≤ base) : calcFundingRate longOi shortOi base = 0 ∨
      (calcFundingRate longOi shortOi base).sign = (longOi - shortOi).sign := by
  have hsign := calcFundingRate_sign h hb
  obtain hneg | hzero | hpos := lt_trichotomy (longOi - shortOi) 0
  · obtain hr | hr := (nonpos_of_mul_nonneg_right hsign hneg).eq_or_lt
    · exact .inl hr
    · exact .inr (by rw [Int.sign_eq_neg_one_of_neg hr, Int.sign_eq_neg_one_of_neg hneg])
  · obtain ⟨k, hk⟩ := calcFundingRate_closed longOi shortOi base
    rw [hzero, Int.zero_tdiv, zero_mul, Int.zero_tdiv] at hk
    exact .inl hk
  · obtain hr | hr := (nonneg_of_mul_nonneg_right hsign hpos).eq_or_lt
    · exact .inl hr.symm
    · exact .inr (by rw [Int.sign_eq_one_of_pos hr, Int.sign_eq_one_of_pos hpos])

/-! ## A product of exactly `2 ^ 127` -/

theorem two_le_of_limit (hd : 0 ≤ d) (hb : i128.Fits base) (hlimit : d / 2 ^ k * base = 2 ^ 127) :
    2 ≤ d / 2 ^ k := by
  by_contra hsmall
  have hhi := hb.2
  have hnonneg : 0 ≤ d / 2 ^ k := Int.ediv_nonneg hd (by positivity)
  obtain hzero | hone : d / 2 ^ k = 0 ∨ d / 2 ^ k = 1 := by omega
  · rw [hzero, zero_mul] at hlimit
    omega
  · rw [hone, one_mul] at hlimit
    simp only [i128, i128Max] at hhi
    omega

/-- Before, the product was at least twice as large. -/
theorem limit_lt_before (hd : 0 ≤ d) (hb : 0 ≤ base) (hlimit : d / 2 ^ k * base = 2 ^ 127) {j : ℕ}
    (hj : j < k) : 2 ^ 127 < d / 2 ^ j * base := by
  obtain ⟨m, rfl⟩ := Nat.exists_eq_add_of_lt hj
  have hnonneg : 0 ≤ d / 2 ^ j / 2 ^ (m + 1) :=
    Int.ediv_nonneg (Int.ediv_nonneg hd (by positivity)) (by positivity)
  have htwo : (2 : ℤ) ≤ 2 ^ (m + 1) := le_self_pow₀ (by norm_num) (by omega)
  have hdouble : d / 2 ^ j / 2 ^ (m + 1) * 2 ≤ d / 2 ^ j :=
    (mul_le_mul_of_nonneg_left htwo hnonneg).trans (Int.ediv_mul_le _ (by positivity))
  rw [add_assoc, pow_add, ← Int.ediv_ediv_of_nonneg (by positivity)] at hlimit
  have hscaled := mul_le_mul_of_nonneg_right hdouble hb
  rw [mul_right_comm, hlimit] at hscaled
  omega

/-- A power of two in the product: the imbalance halves exactly. -/
theorem limit_after (hd : 0 ≤ d) (hb : i128.Fits base) (hlimit : d / 2 ^ k * base = 2 ^ 127) :
    d / 2 ^ (k + 1) * base = 2 ^ 126 := by
  have htwo := two_le_of_limit hd hb hlimit
  have hdvd : (d / 2 ^ k).natAbs ∣ 2 ^ 127 := by
    rw [← Int.natAbs_natCast (2 ^ 127), Int.natAbs_dvd_natAbs]
    exact ⟨base, by rw [hlimit]; norm_num⟩
  obtain ⟨m, -, hm⟩ := (Nat.dvd_prime_pow Nat.prime_two).mp hdvd
  have heven : d / 2 ^ k = d / 2 ^ (k + 1) * 2 := by
    have hm0 : m ≠ 0 := by
      rintro rfl
      omega
    have hdvd2 : (2 : ℤ) ∣ d / 2 ^ k := by
      rw [← Int.dvd_natAbs, hm]
      exact_mod_cast dvd_pow_self 2 hm0
    rw [pow_succ, ← Int.ediv_ediv_of_nonneg (by positivity), Int.ediv_mul_cancel hdvd2]
  rw [heven, mul_right_comm] at hlimit
  omega

end Halving

/-! ## Swapping the sides -/

section Swap

variable {light heavy base : ℤ}

/-- Without such a product both directions halve equally often. -/
theorem calcFundingRate_swap_of_no_limit (hle : light ≤ heavy) (hl : 0 ≤ light) (hb : 0 ≤ base)
    (hno : ∀ k : ℕ, (heavy - light) / 2 ^ k * base ≠ 2 ^ 127) :
    calcFundingRate light heavy base = -calcFundingRate heavy light base := by
  have hd : 0 ≤ heavy - light := by omega
  have ht : 0 ≤ heavy + light := by omega
  have hsame : ∀ k, Halved (-(heavy - light)) (heavy + light) base k ↔
      Halved (heavy - light) (heavy + light) base k := by
    intro k
    rw [halved_neg_iff hd ht hb, halved_pos_iff hd ht hb, (hno k).le_iff_lt]
  have hspec := Nat.find_spec (exists_halved (heavy - light) (heavy + light) base)
  have hmin := fun j hj => Nat.find_min (exists_halved (heavy - light) (heavy + light) base) (m := j) hj
  generalize Nat.find (exists_halved (heavy - light) (heavy + light) base) = k at hspec hmin
  have hneg : light - heavy = -(heavy - light) := by omega
  rw [calcFundingRate_of_first hspec hmin,
    calcFundingRate_of_first (k := k) (by rw [hneg, add_comm]; exact (hsame k).mpr hspec)
      (fun j hj => by rw [hneg, add_comm]; exact (hsame j).not.mpr (hmin j hj)),
    hneg, add_comm light, Int.neg_tdiv, neg_mul, Int.neg_tdiv]

/-- With it, the direction whose product is positive halves once more. -/
theorem calcFundingRate_of_limit (hl : 0 ≤ light) (hle : light ≤ heavy) (hb : 0 ≤ base)
    (hb' : i128.Fits base) {k : ℕ} (hlimit : (heavy - light) / 2 ^ k * base = 2 ^ 127) :
    calcFundingRate light heavy base = -(2 ^ 127 / ((heavy + light) / 2 ^ k)) ∧
      calcFundingRate heavy light base = 2 ^ 126 / ((heavy + light) / 2 ^ (k + 1)) := by
  have hd : 0 ≤ heavy - light := by omega
  have ht : 0 ≤ heavy + light := by omega
  have hafter := limit_after hd hb' hlimit
  have hbefore : ∀ j ≤ k, (heavy + light) / 2 ^ j ≠ 0 := by
    intro j hj
    have htwo := two_le_of_limit hd hb' hlimit
    have hdiv : (heavy - light) / 2 ^ k ≤ (heavy - light) / 2 ^ j := by
      apply Int.le_ediv_of_mul_le (by positivity)
      have hpow : (2 : ℤ) ^ j ≤ 2 ^ k := pow_le_pow_right₀ (by norm_num) hj
      exact (mul_le_mul_of_nonneg_left hpow (by omega)).trans (Int.ediv_mul_le _ (by positivity))
    have hmono : (heavy - light) / 2 ^ j ≤ (heavy + light) / 2 ^ j :=
      Int.ediv_le_ediv (by positivity) (by omega)
    omega
  have hneg : light - heavy = -(heavy - light) := by omega
  constructor
  · rw [calcFundingRate_of_first (k := k), hneg, add_comm light, Int.neg_tdiv, neg_mul,
      Int.neg_tdiv, Int.tdiv_eq_ediv_of_nonneg hd, hlimit, Int.tdiv_eq_ediv_of_nonneg (by positivity),
      Int.tdiv_eq_ediv_of_nonneg ht]
    · rw [hneg, add_comm]
      exact (halved_neg_iff hd ht hb).mpr (.inr hlimit.le)
    · intro j hj
      rw [hneg, add_comm, halved_neg_iff hd ht hb, not_or, not_le]
      exact ⟨hbefore j hj.le, limit_lt_before hd hb hlimit hj⟩
  · rw [calcFundingRate_of_first (k := k + 1), Int.tdiv_eq_ediv_of_nonneg hd, hafter,
      Int.tdiv_eq_ediv_of_nonneg (by positivity), Int.tdiv_eq_ediv_of_nonneg ht]
    · exact (halved_pos_iff hd ht hb).mpr (.inr (by rw [hafter]; norm_num))
    · intro j hj
      rw [halved_pos_iff hd ht hb, not_or, not_lt]
      refine ⟨hbefore j (by omega), ?_⟩
      obtain hlt | rfl := Nat.lt_succ_iff_lt_or_eq.mp hj
      · exact (limit_lt_before hd hb hlimit hlt).le
      · exact hlimit.ge

theorem calcFundingRate_swap_iff_of_le (hl : 0 ≤ light) (hle : light ≤ heavy) (hb : 0 ≤ base)
    (hb' : i128.Fits base) :
    calcFundingRate light heavy base = -calcFundingRate heavy light base ↔
      ¬HalvesUnevenly heavy light base := by
  have habs : |heavy - light| = heavy - light := abs_of_nonneg (by omega)
  by_cases hexists : ∃ k : ℕ, (heavy - light) / 2 ^ k * base = 2 ^ 127
  · obtain ⟨k, hlimit⟩ := hexists
    obtain ⟨hlight, hheavy⟩ := calcFundingRate_of_limit hl hle hb hb' hlimit
    rw [hlight, hheavy, neg_inj]
    constructor
    · rintro heq ⟨j, hj, hne⟩
      rw [habs] at hj
      -- the product passes `2 ^ 127` only once
      obtain hlt | rfl | hgt := lt_trichotomy j k
      · exact absurd hj (limit_lt_before (by omega) hb hlimit hlt).ne'
      · exact hne heq
      · exact absurd hlimit (limit_lt_before (by omega) hb hj hgt).ne'
    · intro heven
      by_contra hne
      exact heven ⟨k, by rw [habs]; exact hlimit, hne⟩
  · push Not at hexists
    refine iff_of_true (calcFundingRate_swap_of_no_limit hle hl hb hexists) ?_
    rintro ⟨k, hk, -⟩
    rw [habs] at hk
    exact hexists k hk

end Swap

theorem calcFundingRate_swap_iff {longOi shortOi base : ℤ} (hl : 0 ≤ longOi) (hs : 0 ≤ shortOi)
    (hb : 0 ≤ base) (hb' : i128.Fits base) :
    calcFundingRate shortOi longOi base = -calcFundingRate longOi shortOi base ↔
      ¬HalvesUnevenly longOi shortOi base := by
  obtain hle | hle := le_total shortOi longOi
  · exact calcFundingRate_swap_iff_of_le hs hle hb hb'
  · rw [← halvesUnevenly_swap, ← calcFundingRate_swap_iff_of_le hl hle hb hb', eq_comm,
      neg_eq_iff_eq_neg]

/-- For all open interests whose sum fits and every base rate the loop returns without a
trap, a rate no larger than the base and never against the imbalance. It negates when the
sides are swapped unless the two directions halve unevenly. -/
theorem funding_rate_well_behaved (longOi shortOi base : ℤ) (hl : 0 ≤ longOi) (hs : 0 ≤ shortOi)
    (hsum : i128.Fits (longOi + shortOi)) (hb : 0 ≤ base) (hb' : i128.Fits base) :
    ∃ rate, Trapping.calcFundingRate longOi shortOi base = some rate ∧ |rate| ≤ base ∧
      (rate = 0 ∨ rate.sign = (longOi - shortOi).sign) ∧
      (Trapping.calcFundingRate shortOi longOi base = some (-rate) ↔
        ¬HalvesUnevenly longOi shortOi base) := by
  have hswapped := (Trapping.calcFundingRate_eq base hs hl (by rwa [add_comm])).1
  refine ⟨calcFundingRate longOi shortOi base, (Trapping.calcFundingRate_eq base hl hs hsum).1,
    abs_calcFundingRate_le hl hs hb, calcFundingRate_eq_zero_or_sign (by omega) hb, ?_⟩
  rw [hswapped, Option.some.injEq]
  exact calcFundingRate_swap_iff hl hs hb hb'

theorem funding_rate_well_behaved_longHeavy :
    ∃ rate, Trapping.calcFundingRate 3000000000 1000000000 100 = some rate ∧ |rate| ≤ 100 ∧
      (rate = 0 ∨ rate.sign = ((3000000000 : ℤ) - 1000000000).sign) ∧
      (Trapping.calcFundingRate 1000000000 3000000000 100 = some (-rate) ↔
        ¬HalvesUnevenly 3000000000 1000000000 100) :=
  funding_rate_well_behaved 3000000000 1000000000 100 (by decide) (by decide) (by decide)
    (by decide) (by decide)

/-- At a base rate of four, one unit against `2 ^ 126 + 1` pays four on the long side and
three on the short one. -/
theorem funding_rate_not_antisymmetric :
    ¬∀ longOi shortOi base : ℤ, 0 ≤ longOi → 0 ≤ shortOi → i128.Fits (longOi + shortOi) →
      0 ≤ base → i128.Fits base →
      ∃ rate, Trapping.calcFundingRate longOi shortOi base = some rate ∧ |rate| ≤ base ∧
        (rate = 0 ∨ rate.sign = (longOi - shortOi).sign) ∧
        Trapping.calcFundingRate shortOi longOi base = some (-rate) := by
  intro h
  obtain ⟨rate, hlong, -, -, hshort⟩ :=
    h (2 ^ 126 + 1) 1 4 (by norm_num) (by norm_num) (by decide) (by norm_num) (by decide)
  have hlong' : calcFundingRate (2 ^ 126 + 1) 1 4 = 4 :=
    (calcFundingRate_of_first (k := 2) (by decide) (by decide)).trans (by decide)
  have hshort' : calcFundingRate 1 (2 ^ 126 + 1) 4 = -3 :=
    (calcFundingRate_of_first (k := 1) (by decide) (by decide)).trans (by decide)
  rw [(Trapping.calcFundingRate_eq _ (by norm_num) (by norm_num) (by decide)).1, hlong'] at hlong
  rw [(Trapping.calcFundingRate_eq _ (by norm_num) (by norm_num) (by decide)).1, hshort'] at hshort
  cases hlong
  cases hshort

end Stellars
