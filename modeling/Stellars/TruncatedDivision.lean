import Mathlib.Algebra.Order.Field.Rat
import Mathlib.Data.Int.Order.Basic
import Mathlib.Algebra.Order.BigOperators.Group.List
import Mathlib.Tactic

/-!
# Division that truncates toward zero

Fixed-point code divides products of signed integers and drops the remainder
toward zero. The lemmas below bound the loss of one division, of a sum of
divisions, and of a ratio whose two sides move together.
-/
namespace Stellars.TruncatedDivision

/-- Division by a nonnegative number keeps the sign. -/
theorem mul_tdiv_nonneg {s a b : ℤ} (h : 0 ≤ s * a) (hb : 0 ≤ b) : 0 ≤ s * a.tdiv b := by
  obtain ha | rfl | ha := lt_trichotomy a 0
  · have hs : s ≤ 0 := by
      by_contra hn
      nlinarith
    have hneg : 0 ≤ (-a).tdiv b := Int.tdiv_nonneg (by omega) hb
    rw [Int.neg_tdiv] at hneg
    exact mul_nonneg_of_nonpos_of_nonpos hs (by omega)
  · simp
  · have hs : 0 ≤ s := by
      by_contra hn
      nlinarith
    exact mul_nonneg hs (Int.tdiv_nonneg ha.le hb)

/-- One division loses less than one divisor, on either side. -/
theorem mul_tdiv_bounds (a : ℤ) {b : ℤ} (hb : 0 < b) :
    a - b < b * a.tdiv b ∧ b * a.tdiv b < a + b := by
  have hm := Int.mul_tdiv_add_tmod a b
  have hlt := Int.tmod_lt_of_pos a hb
  have hgt := Int.tmod_lt_of_pos (-a) hb
  rw [Int.neg_tmod] at hgt
  constructor <;> linarith

theorem tdiv_nonneg_bounds {a b : ℤ} (ha : 0 ≤ a) (hb : 0 < b) :
    b * a.tdiv b ≤ a ∧ a < b * a.tdiv b + b :=
  ⟨Int.mul_tdiv_self_le ha, Int.lt_mul_tdiv_self_add hb⟩

/-- A quotient is at most `k` when its dividend is below `k + 1` divisors. -/
theorem tdiv_le_of_lt_mul {n d k : ℤ} (hn : 0 ≤ n) (hd : 0 < d) (h : n < (k + 1) * d) :
    n.tdiv d ≤ k := by
  rw [Int.tdiv_eq_ediv_of_nonneg hn]
  exact Int.lt_add_one_iff.mp (Int.ediv_lt_of_lt_mul hd h)

/-- Dividing twice divides by the product. -/
theorem tdiv_tdiv (a : ℤ) {m : ℤ} (n : ℤ) (hm : 0 ≤ m) :
    (a.tdiv m).tdiv n = a.tdiv (m * n) := by
  have hpos : ∀ b : ℤ, 0 ≤ b → (b.tdiv m).tdiv n = b.tdiv (m * n) := by
    intro b hb
    rw [Int.tdiv_eq_ediv_of_nonneg (Int.tdiv_nonneg hb hm), Int.tdiv_eq_ediv_of_nonneg hb,
      Int.tdiv_eq_ediv_of_nonneg hb, Int.ediv_ediv_of_nonneg hm]
  obtain ha | ha := le_total 0 a
  · exact hpos a ha
  · have h := hpos (-a) (by omega)
    simp only [Int.neg_tdiv, neg_inj] at h
    exact h

/-- A truncated share of a nonnegative amount stays between zero and the amount. -/
theorem share_bounds {amount num den : ℤ} (ha : 0 ≤ amount) (hn : 0 ≤ num)
    (hd : 0 < den) (hle : num ≤ den) :
    0 ≤ (amount * num).tdiv den ∧ (amount * num).tdiv den ≤ amount := by
  have hnum : 0 ≤ amount * num := mul_nonneg ha hn
  refine ⟨Int.tdiv_nonneg hnum hd.le, ?_⟩
  have hb := (tdiv_nonneg_bounds hnum hd).1
  have hmul : amount * num ≤ den * amount := by nlinarith
  exact le_of_mul_le_mul_left (hb.trans hmul) hd

/-- A proper truncated share of a positive amount leaves something behind. -/
theorem share_lt {amount num den : ℤ} (ha : 0 < amount) (hn : 0 ≤ num)
    (hlt : num < den) : (amount * num).tdiv den < amount := by
  have hd : 0 < den := hn.trans_lt hlt
  have hnum : 0 ≤ amount * num := mul_nonneg ha.le hn
  have hb := (tdiv_nonneg_bounds hnum hd).1
  have hmul : amount * num < den * amount := by nlinarith
  exact lt_of_mul_lt_mul_left (hb.trans_lt hmul) hd.le

/-- The largest remainder is one short of the divisor. -/
theorem sub_mul_tdiv_bounds (a : ℤ) {b : ℤ} (hb : 0 < b) :
    -(b - 1) ≤ a - b * a.tdiv b ∧ a - b * a.tdiv b ≤ b - 1 := by
  have h := mul_tdiv_bounds a hb
  constructor <;> linarith [h.1, h.2]

/-- If `q` collects `n` truncated quotients whose numerators add up to `a`, then
truncating `a` once gives `q` up to `n`. -/
theorem abs_tdiv_sub_le {a q n b : ℤ} (hb : 0 < b) (hn : 0 ≤ n)
    (hlo : -(n * (b - 1)) ≤ a - b * q) (hhi : a - b * q ≤ n * (b - 1)) :
    |a.tdiv b - q| ≤ n := by
  have h := sub_mul_tdiv_bounds a hb
  have h1 : a.tdiv b - q < n + 1 := by
    apply lt_of_mul_lt_mul_left (a := b) _ hb.le
    nlinarith [h.1]
  have h2 : -(a.tdiv b - q) < n + 1 := by
    apply lt_of_mul_lt_mul_left (a := b) _ hb.le
    nlinarith [h.2]
  exact abs_le.mpr ⟨by omega, by omega⟩

/-- Truncation moves a quotient by less than one. -/
theorem abs_tdiv_sub_div_lt (a : ℤ) {b : ℤ} (hb : 0 < b) :
    |((a.tdiv b : ℤ) : ℚ) - (a : ℚ) / b| < 1 := by
  have hbq : (0 : ℚ) < b := by exact_mod_cast hb
  obtain ⟨hlo, hhi⟩ := mul_tdiv_bounds a hb
  have hloq : (a : ℚ) - b < b * (a.tdiv b : ℤ) := by exact_mod_cast hlo
  have hhiq : (b : ℚ) * (a.tdiv b : ℤ) < a + b := by exact_mod_cast hhi
  rw [abs_lt]
  constructor
  · rw [neg_lt_sub_iff_lt_add, div_lt_iff₀ hbq]
    linarith
  · rw [sub_lt_iff_lt_add, ← sub_lt_iff_lt_add', lt_div_iff₀ hbq]
    linarith

/-- Two amounts near values of one sign, each cut off at zero, exceed the cut-off
of an amount near the sum by at most the three errors. -/
theorem max_zero_add_le {x y z e f g : ℤ} {p q : ℚ} (hsign : 0 ≤ p ∧ 0 ≤ q ∨ p ≤ 0 ∧ q ≤ 0)
    (hx : |(x : ℚ) - p| ≤ e) (hy : |(y : ℚ) - q| ≤ f) (hz : |(z : ℚ) - (p + q)| ≤ g) :
    max x 0 + max y 0 ≤ max z 0 + (e + f + g) := by
  have he : (0 : ℚ) ≤ e := (abs_nonneg _).trans hx
  have hf : (0 : ℚ) ≤ f := (abs_nonneg _).trans hy
  have hg : (0 : ℚ) ≤ g := (abs_nonneg _).trans hz
  rw [abs_le] at hx hy hz
  have hq : max (x : ℚ) 0 + max (y : ℚ) 0 ≤ max (z : ℚ) 0 + (e + f + g) := by
    obtain ⟨hp, hq⟩ | ⟨hp, hq⟩ := hsign
    · have h1 : max (x : ℚ) 0 ≤ p + e := max_le (by linarith) (by linarith)
      have h2 : max (y : ℚ) 0 ≤ q + f := max_le (by linarith) (by linarith)
      have h3 := le_max_left (z : ℚ) 0
      linarith
    · have h1 : max (x : ℚ) 0 ≤ e := max_le (by linarith) he
      have h2 : max (y : ℚ) 0 ≤ f := max_le (by linarith) hf
      have h3 := le_max_right (z : ℚ) 0
      linarith
  exact_mod_cast hq

/-- Dividing and cutting a share off afterwards: two truncations, two errors. -/
theorem abs_sub_cut_lt (a : ℤ) {b cut den : ℤ} (hb : 0 < b) (hc : 0 ≤ cut) (hcd : cut ≤ den)
    (hd : 0 < den) :
    |((a.tdiv b - (a.tdiv b * cut).tdiv den : ℤ) : ℚ) - (a : ℚ) / b * (1 - (cut : ℚ) / den)| < 2 := by
  have hq := abs_tdiv_sub_div_lt a hb
  have hcut := abs_tdiv_sub_div_lt (a.tdiv b * cut) hd
  have hdq : (0 : ℚ) < den := by exact_mod_cast hd
  have h0 : (0 : ℚ) ≤ (cut : ℚ) / den := div_nonneg (by exact_mod_cast hc) hdq.le
  have h1 : (cut : ℚ) / den ≤ 1 := (div_le_one hdq).mpr (by exact_mod_cast hcd)
  push_cast at hcut ⊢
  rw [mul_div_assoc] at hcut
  rw [abs_lt] at hq hcut ⊢
  constructor <;> nlinarith

/-- A floor of `n / d`, taken `a` times, stays within `m` exactly if `n / d` does not
reach the next whole number above `m / a`. -/
theorem tdiv_mul_le_iff {n d a m : ℤ} (hn : 0 ≤ n) (hd : 0 < d) (ha : 0 < a) :
    n.tdiv d * a ≤ m ↔ n < (m / a + 1) * d := by
  rw [Int.tdiv_eq_ediv_of_nonneg hn, ← Int.le_ediv_iff_mul_le ha, ← Int.lt_add_one_iff,
    Int.ediv_lt_iff_lt_mul hd]

/-- A ceiling of `n / d`, taken `b` times, reaches `m` exactly if `n / d` exceeds the
whole number below the ceiling of `m / b`. -/
theorem le_tdiv_mul_iff {n d b m : ℤ} (hn : 0 ≤ n) (hd : 0 < d) (hb : 0 < b) :
    m ≤ (n + (d - 1)).tdiv d * b ↔ (-(-m / b) - 1) * d < n := by
  have hceil : -m / b ≥ -((n + (d - 1)).tdiv d) ↔ m ≤ (n + (d - 1)).tdiv d * b := by
    rw [ge_iff_le, Int.le_ediv_iff_mul_le hb, neg_mul, neg_le_neg_iff]
  rw [← hceil, ge_iff_le, neg_le, Int.tdiv_eq_ediv_of_nonneg (by omega),
    Int.le_ediv_iff_mul_le hd, sub_mul, one_mul]
  omega

/-- `(d * p) / n` inverts `x ↦ (n * x) / d`: one above it the value `p` is reached. -/
theorem le_mul_tdiv_of_inverse_lt {n d p x : ℤ} (hn : 0 < n) (hd : 0 < d)
    (h : (d * p).tdiv n + 1 ≤ x) : p ≤ (n * x).tdiv d := by
  have hq := (mul_tdiv_bounds (d * p) hn).1
  have hx : n * ((d * p).tdiv n + 1) ≤ n * x := mul_le_mul_of_nonneg_left h hn.le
  apply Int.le_tdiv_of_mul_le hd
  linarith

/-- Below it, by one and by what a step of one unit of the value costs, it is not. -/
theorem mul_tdiv_lt_of_lt_inverse {n d p x : ℤ} (hn : 0 < n) (hd : 0 < d)
    (h : x ≤ (d * p).tdiv n - ⌈(d : ℚ) / n⌉ - 1) : (n * x).tdiv d < p := by
  have hq := (mul_tdiv_bounds (d * p) hn).2
  have hstep : d ≤ n * ⌈(d : ℚ) / n⌉ := by
    have hnq : (0 : ℚ) < n := by exact_mod_cast hn
    have hceil := (div_le_iff₀' hnq).mp (Int.le_ceil ((d : ℚ) / n))
    exact_mod_cast hceil
  have hx : n * x ≤ n * ((d * p).tdiv n - ⌈(d : ℚ) / n⌉ - 1) := mul_le_mul_of_nonneg_left h hn.le
  have ht := (mul_tdiv_bounds (n * x) hd).2
  apply lt_of_mul_lt_mul_left (a := d) _ hd.le
  linarith

/-- A quotient does not exceed its truncation by a whole unit. -/
theorem div_lt_tdiv_add_one (a b : ℤ) : (a : ℚ) / b < (a.tdiv b : ℤ) + 1 := by
  obtain hb | rfl | hb := lt_trichotomy b 0
  · have h := (abs_lt.mp (abs_tdiv_sub_div_lt (-a) (neg_pos.mpr hb))).1
    rw [Int.neg_tdiv_neg, Int.cast_neg, Int.cast_neg, neg_div_neg_eq] at h
    linarith
  · simp
  · have h := (abs_lt.mp (abs_tdiv_sub_div_lt a hb)).1
    linarith

/-- Truncation leaves a positive whole number exactly if there was one to leave. -/
theorem tdiv_pos_iff (a b : ℤ) : 0 < a.tdiv b ↔ 1 ≤ (a : ℚ) / b := by
  have hpos : ∀ {a b : ℤ}, 0 < b → (0 < a.tdiv b ↔ 1 ≤ (a : ℚ) / b) := by
    intro a b hb
    have hbq : (0 : ℚ) < b := by exact_mod_cast hb
    rw [le_div_iff₀ hbq, one_mul, Int.cast_le]
    obtain ha | ha := le_or_gt 0 a
    · rw [Int.tdiv_eq_ediv_of_nonneg ha, ← Int.add_one_le_iff, zero_add, Int.le_ediv_iff_mul_le hb,
        one_mul]
    · have hneg := Int.tdiv_nonneg (neg_nonneg.mpr ha.le) hb.le
      rw [Int.neg_tdiv] at hneg
      exact iff_of_false (by omega) (by omega)
  obtain hb | rfl | hb := lt_trichotomy b 0
  · have h := hpos (a := -a) (neg_pos.mpr hb)
    rwa [Int.neg_tdiv_neg, Int.cast_neg, Int.cast_neg, neg_div_neg_eq] at h
  · simp
  · exact hpos hb

/-- A positive truncation does not exceed the quotient. -/
theorem tdiv_le_div {a b : ℤ} (h : 0 < a.tdiv b) : ((a.tdiv b : ℤ) : ℚ) ≤ (a : ℚ) / b := by
  have hpos : ∀ {a b : ℤ}, 0 ≤ a → 0 < b → ((a.tdiv b : ℤ) : ℚ) ≤ (a : ℚ) / b := by
    intro a b ha hb
    have hbq : (0 : ℚ) < b := by exact_mod_cast hb
    rw [le_div_iff₀ hbq, mul_comm]
    exact_mod_cast (tdiv_nonneg_bounds ha hb).1
  have hone := (tdiv_pos_iff a b).mp h
  obtain hb | rfl | hb := lt_trichotomy b 0
  · have hbq : (b : ℚ) < 0 := by exact_mod_cast hb
    have ha : a ≤ 0 := by
      rw [le_div_iff_of_neg hbq, one_mul, Int.cast_le] at hone
      omega
    have hneg := hpos (neg_nonneg.mpr ha) (neg_pos.mpr hb)
    rwa [Int.neg_tdiv_neg, Int.cast_neg, Int.cast_neg, neg_div_neg_eq] at hneg
  · simp at h
  · have hbq : (0 : ℚ) < b := by exact_mod_cast hb
    have ha : 0 ≤ a := by
      rw [le_div_iff₀ hbq, one_mul, Int.cast_le] at hone
      omega
    exact hpos ha hb

/-- Dividing in two parts loses at most one more unit. -/
theorem tdiv_add_bounds {a b d : ℤ} (ha : 0 ≤ a) (hb : 0 ≤ b) (hd : 0 < d) :
    a.tdiv d + b.tdiv d ≤ (a + b).tdiv d ∧ (a + b).tdiv d ≤ a.tdiv d + b.tdiv d + 1 := by
  obtain ⟨ha1, ha2⟩ := tdiv_nonneg_bounds ha hd
  obtain ⟨hb1, hb2⟩ := tdiv_nonneg_bounds hb hd
  constructor
  · apply Int.le_tdiv_of_mul_le hd
    linarith
  · apply tdiv_le_of_lt_mul (by omega) hd
    linarith

theorem abs_tdiv_add_sub_le {a b d : ℤ} (hsign : 0 ≤ a ∧ 0 ≤ b ∨ a ≤ 0 ∧ b ≤ 0) (hd : 0 < d) :
    |a.tdiv d + b.tdiv d - (a + b).tdiv d| ≤ 1 := by
  obtain ⟨ha, hb⟩ | ⟨ha, hb⟩ := hsign
  · obtain ⟨hlo, hhi⟩ := tdiv_add_bounds ha hb hd
    exact abs_le.mpr ⟨by omega, by omega⟩
  · obtain ⟨hlo, hhi⟩ := tdiv_add_bounds (neg_nonneg.mpr ha) (neg_nonneg.mpr hb) hd
    rw [← neg_add, Int.neg_tdiv, Int.neg_tdiv, Int.neg_tdiv] at hlo hhi
    exact abs_le.mpr ⟨by omega, by omega⟩

end Stellars.TruncatedDivision
