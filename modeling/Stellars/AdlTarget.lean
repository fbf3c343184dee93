import Stellars.KeeperMirror

/-!
# Whom the keeper deleverages

The keeper ranks profitable positions by profit times leverage and takes the first with
the largest rank. The rank is a truncated quotient and the search starts from zero, so a
winner whose rank is less than one is never found.
-/
namespace Stellars
open TruncatedDivision

/-! ## Keeping the first best -/

section Best

variable {α : Type} (score : α → Option ℤ)

/-- Entries without a score are skipped; a tie keeps what came first. -/
def keepBest (best : Option α × ℤ) (x : α) : Option α × ℤ :=
  match score x with
  | some s => if s > best.2 then (some x, s) else best
  | none => best

/-- The score kept bounds every score seen. It is the score of the entry kept, which is
one of those seen unless nothing exceeded the start. -/
theorem foldl_keepBest_spec (xs : List α) (best : Option α × ℤ) :
    best.2 ≤ (xs.foldl (keepBest score) best).2 ∧
    (∀ x ∈ xs, ∀ s, score x = some s → s ≤ (xs.foldl (keepBest score) best).2) ∧
    (xs.foldl (keepBest score) best = best ∨
      ∃ x ∈ xs, (xs.foldl (keepBest score) best).1 = some x ∧
        score x = some (xs.foldl (keepBest score) best).2 ∧
        best.2 < (xs.foldl (keepBest score) best).2) := by
  induction xs generalizing best with
  | nil => simp
  | cons y ys ih =>
      obtain ⟨hle, hbound, hkept⟩ := ih (keepBest score best y)
      rw [List.foldl_cons]
      set result := ys.foldl (keepBest score) (keepBest score best y)
      have hfirst : best.2 ≤ (keepBest score best y).2 ∧
          ∀ s, score y = some s → s ≤ (keepBest score best y).2 := by
        unfold keepBest
        cases hy : score y with
        | none => simp
        | some s =>
            simp only [Option.some.injEq, forall_eq']
            split_ifs with hs
            · exact ⟨hs.le, le_rfl⟩
            · exact ⟨le_rfl, not_lt.mp hs⟩
      refine ⟨hfirst.1.trans hle, ?_, ?_⟩
      · intro x hx s hs
        obtain rfl | hx := List.mem_cons.mp hx
        · exact (hfirst.2 s hs).trans hle
        · exact hbound x hx s hs
      · obtain hsame | ⟨x, hx, hx1, hx2, hlt⟩ := hkept
        · rw [hsame]
          unfold keepBest
          cases hy : score y with
          | none => exact .inl rfl
          | some s =>
              simp only
              split_ifs with hs
              · exact .inr ⟨y, List.mem_cons_self, rfl, hy, hs⟩
              · exact .inl rfl
        · exact .inr ⟨x, List.mem_cons_of_mem _ hx, hx1, hx2, hfirst.1.trans_lt hlt⟩

end Best

/-! ## The search -/

section Search

variable {A S : Type}

/-- Unrealized profit at the tick of the position's market; without a tick there is none. -/
def adlPnl (ticks : S → Option ProtocolMath.MarketTick) (pos : (_ : A × S) × PositionRow) : ℤ :=
  (ticks pos.1.2).elim 0 fun tick =>
    (tick.evaluate (ProtocolMath.toPositionState pos.2) none 0).pnl

/-- The loop's body up to the comparison; `none` is a `continue`. -/
def adlScore (ticks : S → Option ProtocolMath.MarketTick) (pos : (_ : A × S) × PositionRow) :
    Option ℤ := do
  let tick ← ticks pos.1.2
  if pos.2.collateral = 0 then none
  else
    let pnl := (tick.evaluate (ProtocolMath.toPositionState pos.2) none 0).pnl
    if pnl ≤ 0 then none
    else some ((pnl * pos.2.size).tdiv pos.2.collateral)

/-- Of the world it reads the positions and the ticks. -/
def findAdlTarget (ticks : S → Option ProtocolMath.MarketTick)
    (positions : List ((_ : A × S) × PositionRow)) : Option ((_ : A × S) × PositionRow) :=
  (positions.foldl (keepBest (adlScore ticks)) (none, 0)).1

variable (ticks : S → Option ProtocolMath.MarketTick)

/-- In profit on its current tick, with collateral to measure its leverage by. -/
def AdlProfitable (pos : (_ : A × S) × PositionRow) : Prop :=
  (ticks pos.1.2).isSome ∧ pos.2.collateral ≠ 0 ∧ 0 < adlPnl ticks pos

/-- Profit times leverage, without rounding. -/
def exactAdlScore (pos : (_ : A × S) × PositionRow) : ℚ :=
  (adlPnl ticks pos * pos.2.size : ℤ) / pos.2.collateral

/-- The search finds a winner whenever there is one, and of the winners one whose score
is the largest up to less than one unit. -/
structure FindsAdlTarget (positions : List ((_ : A × S) × PositionRow)) : Prop where
  none_iff : findAdlTarget ticks positions = none ↔
    ∀ pos ∈ positions, ¬AdlProfitable ticks pos
  best : ∀ target, findAdlTarget ticks positions = some target →
    target ∈ positions ∧ AdlProfitable ticks target ∧
      ∀ pos ∈ positions, AdlProfitable ticks pos →
        exactAdlScore ticks pos < exactAdlScore ticks target + 1

variable {ticks} {positions : List ((_ : A × S) × PositionRow)}

theorem adlScore_eq_some {pos : (_ : A × S) × PositionRow} {score : ℤ} :
    adlScore ticks pos = some score ↔
      AdlProfitable ticks pos ∧ (adlPnl ticks pos * pos.2.size).tdiv pos.2.collateral = score := by
  simp only [adlScore, AdlProfitable, adlPnl]
  cases ticks pos.1.2 with
  | none => simp
  | some tick =>
      simp only [Option.bind_eq_bind, Option.bind_some, Option.elim_some, Option.isSome_some,
        true_and]
      split_ifs with hcollateral hpnl
      · simp [hcollateral]
      · exact iff_of_false (by simp) fun h => absurd h.1.2 (not_lt.mpr hpnl)
      · simp only [Option.some.injEq, hcollateral, not_false_iff, not_le.mp hpnl, and_self, true_and,
          ne_eq]

/-- Only a winner that ranks at all is found. -/
theorem findAdlTarget_spec {target : (_ : A × S) × PositionRow}
    (h : findAdlTarget ticks positions = some target) :
    target ∈ positions ∧ AdlProfitable ticks target ∧ 1 ≤ exactAdlScore ticks target ∧
      ∀ pos ∈ positions, AdlProfitable ticks pos →
        exactAdlScore ticks pos < exactAdlScore ticks target + 1 := by
  obtain ⟨-, hbound, hkept⟩ := foldl_keepBest_spec (adlScore ticks) positions (none, 0)
  obtain hsame | ⟨x, hx, hx1, hx2, hlt⟩ := hkept
  · rw [findAdlTarget, hsame] at h
    cases h
  · rw [findAdlTarget, hx1] at h
    obtain rfl := Option.some.inj h
    obtain ⟨hprofit, hscore⟩ := adlScore_eq_some.mp hx2
    rw [← hscore] at hlt hbound
    refine ⟨hx, hprofit, (tdiv_pos_iff _ _).mp hlt, ?_⟩
    intro pos hpos hwins
    have hle := hbound pos hpos _ (adlScore_eq_some.mpr ⟨hwins, rfl⟩)
    calc exactAdlScore ticks pos
        < ((adlPnl ticks pos * pos.2.size).tdiv pos.2.collateral : ℤ) + 1 :=
          div_lt_tdiv_add_one _ _
      _ ≤ ((adlPnl ticks x * x.2.size).tdiv x.2.collateral : ℤ) + 1 := by
          have hcast := Int.cast_le (R := ℚ).mpr hle
          linarith
      _ ≤ exactAdlScore ticks x + 1 := by
          have hdiv := tdiv_le_div hlt
          unfold exactAdlScore
          linarith

theorem findAdlTarget_isSome {pos : (_ : A × S) × PositionRow} (hpos : pos ∈ positions)
    (hwins : AdlProfitable ticks pos) (hranks : 1 ≤ exactAdlScore ticks pos) :
    (findAdlTarget ticks positions).isSome := by
  obtain ⟨-, hbound, hkept⟩ := foldl_keepBest_spec (adlScore ticks) positions (none, 0)
  have hle := hbound pos hpos _ (adlScore_eq_some.mpr ⟨hwins, rfl⟩)
  have hpositive := (tdiv_pos_iff _ _).mpr hranks
  obtain hsame | ⟨x, _, hx1, -, -⟩ := hkept
  · rw [hsame] at hle
    omega
  · rw [findAdlTarget, hx1]
    rfl

/-- The search is complete and optimal exactly if, when there is a winner at all, the
exact score of one of them reaches one. -/
theorem findAdlTarget_finds_iff (ticks : S → Option ProtocolMath.MarketTick)
    (positions : List ((_ : A × S) × PositionRow)) :
    FindsAdlTarget ticks positions ↔
      ((∃ pos ∈ positions, AdlProfitable ticks pos) →
        ∃ pos ∈ positions, AdlProfitable ticks pos ∧ 1 ≤ exactAdlScore ticks pos) := by
  constructor
  · rintro ⟨hnone, -⟩ ⟨pos, hpos, hwins⟩
    cases hfind : findAdlTarget ticks positions with
    | none => exact absurd hwins (hnone.mp hfind pos hpos)
    | some target =>
        obtain ⟨hmem, hprofit, hranks, -⟩ := findAdlTarget_spec hfind
        exact ⟨target, hmem, hprofit, hranks⟩
  · intro h
    refine ⟨⟨?_, ?_⟩, ?_⟩
    · intro hnone pos hpos hwins
      obtain ⟨winner, hmem, hprofit, hranks⟩ := h ⟨pos, hpos, hwins⟩
      have hsome := findAdlTarget_isSome hmem hprofit hranks
      rw [hnone] at hsome
      cases hsome
    · intro hlosers
      cases hfind : findAdlTarget ticks positions with
      | none => rfl
      | some target =>
          obtain ⟨hmem, hprofit, -, -⟩ := findAdlTarget_spec hfind
          exact absurd hprofit (hlosers target hmem)
    · intro target hfind
      obtain ⟨hmem, hprofit, -, hbest⟩ := findAdlTarget_spec hfind
      exact ⟨hmem, hprofit, hbest⟩

section Scenario

/-- Entered at 100 with more collateral than size; the mark has moved to 100.1. -/
def cautiousLong : (_ : ℕ × ℕ) × PositionRow :=
  ⟨(2, 0), ⟨10000000, 1000, 1000000000, 0, 0, true, 1000, 0, 0⟩⟩

def tickAboveEntry : ℕ → Option ProtocolMath.MarketTick :=
  fun _ => some ⟨⟨0, 0, 1000, 1000, 0⟩, 1001000000⟩

/-- Its profit of one raw unit ranks below one, and the search comes back empty. -/
theorem findAdlTarget_misses :
    ¬∀ (ticks : ℕ → Option ProtocolMath.MarketTick) (positions : List ((_ : ℕ × ℕ) × PositionRow)),
      FindsAdlTarget ticks positions := by
  intro h
  have hempty : findAdlTarget tickAboveEntry [cautiousLong] = none := by decide +kernel
  apply (h tickAboveEntry [cautiousLong]).none_iff.mp hempty cautiousLong List.mem_cons_self
  refine ⟨rfl, ?_, ?_⟩ <;> decide +kernel

end Scenario

end Search

end Stellars
