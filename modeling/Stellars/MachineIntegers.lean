import Mathlib.Tactic

/-!
# Machine integers that trap

A machine integer type is a range of representable values around zero. An
operation compiled with overflow checks computes the exact integer and traps,
here `none`, if the result is not representable or a divisor is zero.
-/
namespace Stellars.MachineIntegers

/-- The representable values, from `lo` to `hi`. -/
structure Format where
  lo : ℤ
  hi : ℤ
  lo_nonpos : lo ≤ 0
  hi_nonneg : 0 ≤ hi

namespace Format

variable {f : Format} {x y a b c n : ℤ}

def Fits (f : Format) (x : ℤ) : Prop := f.lo ≤ x ∧ x ≤ f.hi

instance (f : Format) (x : ℤ) : Decidable (f.Fits x) :=
  inferInstanceAs (Decidable (f.lo ≤ x ∧ x ≤ f.hi))

def checked (f : Format) (x : ℤ) : Option ℤ := if f.Fits x then some x else none

def add (f : Format) (a b : ℤ) : Option ℤ := f.checked (a + b)

def sub (f : Format) (a b : ℤ) : Option ℤ := f.checked (a - b)

def mul (f : Format) (a b : ℤ) : Option ℤ := f.checked (a * b)

/-- Division toward zero. -/
def div (f : Format) (a b : ℤ) : Option ℤ := if b = 0 then none else f.checked (a.tdiv b)

/-! ## Results -/

theorem checked_eq_some : f.checked x = some y ↔ f.Fits x ∧ x = y := by
  simp only [checked, ite_eq_iff, Option.some.injEq, reduceCtorEq, and_false, or_false]

theorem checked_of_fits (h : f.Fits x) : f.checked x = some x := if_pos h

theorem add_eq_some : f.add a b = some c ↔ f.Fits (a + b) ∧ a + b = c := checked_eq_some

theorem mul_eq_some : f.mul a b = some c ↔ f.Fits (a * b) ∧ a * b = c := checked_eq_some

theorem div_eq_some : f.div a b = some c ↔ b ≠ 0 ∧ f.Fits (a.tdiv b) ∧ a.tdiv b = c := by
  unfold div
  split_ifs with h
  · simp [h]
  · simp [checked_eq_some, h]

/-! ## Ranges -/

theorem fits_zero (f : Format) : f.Fits 0 := ⟨f.lo_nonpos, f.hi_nonneg⟩

theorem fits_of_nonneg (h : 0 ≤ x) : f.Fits x ↔ x ≤ f.hi :=
  ⟨And.right, fun hx => ⟨f.lo_nonpos.trans h, hx⟩⟩

/-- What lies between zero and a representable value is representable. -/
theorem Fits.of_between (hy : f.Fits y) (h : 0 ≤ x ∧ x ≤ y ∨ y ≤ x ∧ x ≤ 0) : f.Fits x := by
  obtain ⟨h0, hle⟩ | ⟨hle, h0⟩ := h
  · exact ⟨f.lo_nonpos.trans h0, hle.trans hy.2⟩
  · exact ⟨hy.1.trans hle, h0.trans f.hi_nonneg⟩

/-- Dividing by a positive number cannot trap. -/
theorem Fits.tdiv (hx : f.Fits x) (hn : 0 < n) : f.Fits (x.tdiv n) := by
  obtain h0 | h0 := le_total 0 x
  · exact hx.of_between (.inl ⟨Int.tdiv_nonneg h0 hn.le, Int.tdiv_le_self _ h0⟩)
  · have hneg : 0 ≤ (-x).tdiv n := Int.tdiv_nonneg (by omega) hn.le
    have hle := Int.tdiv_le_self n (show 0 ≤ -x by omega)
    rw [Int.neg_tdiv] at hneg hle
    exact hx.of_between (.inr ⟨by omega, by omega⟩)

theorem div_of_pos (ha : f.Fits a) (hb : 0 < b) : f.div a b = some (a.tdiv b) :=
  div_eq_some.mpr ⟨hb.ne', ha.tdiv hb, rfl⟩

/-- A factor of at least one only makes a product larger. -/
theorem Fits.of_mul (h : f.Fits (x * n)) (hn : 0 < n) : f.Fits x := by
  obtain h0 | h0 := le_total 0 x
  · exact h.of_between (.inl ⟨h0, le_mul_of_one_le_right h0 hn⟩)
  · refine h.of_between (.inr ⟨?_, h0⟩)
    nlinarith

end Format

end Stellars.MachineIntegers
