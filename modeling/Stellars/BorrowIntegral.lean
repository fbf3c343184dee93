import Stellars.AwakeTime

/-!
# The borrow index as an integral

The index of a market advances at its refreshes, at the rate of that moment, for
all the time since the last one. Indexed value and unbilled value together are a
potential that grows with the rate of each awake second, as long as the rate
does not move while the market has time unbilled.
-/
namespace Stellars
open GuardedRuns KeyedTotals TruncatedDivision

/-- Different rates give different indices. -/
theorem accumulateBorrowIndex_inj {index rate rate' : ℤ} {seconds : ℕ} :
    accumulateBorrowIndex index rate seconds = accumulateBorrowIndex index rate' seconds ↔
      seconds = 0 ∨ rate = rate' := by
  simp only [accumulateBorrowIndex, add_right_inj, mul_right_comm _ indexPrecision]
  rw [indexGrowth_inj, mul_eq_mul_right_iff, Int.natCast_eq_zero, or_comm]

namespace Env

variable {A S : Type} [DecidableEq A] [DecidableEq S]

/-- The yearly rate, in basis points, that a refresh at this moment would use. -/
def borrowRateNow (env : Env A S) : ℤ := env.borrowRate (VaultView.refresh env)

/-- The rate times the awake seconds that pass. -/
def rateSeconds (env : Env A S) (op : Op A S) : ℤ := env.borrowRateNow * env.awakeSeconds op

def touches (symbol : S) (op : Op A S) : Bool := (refreshes op).any fun sm => sm.1 = symbol

/-- Indexed value and the value of the unbilled time at the present rate. -/
def borrowPotential (symbol : S) (env : Env A S) : ℤ :=
  bps * secondsPerYear * (env.getMarket symbol).accBorrowIndex +
    indexPrecision * (env.borrowRateNow * env.unbilled symbol)

/-- The step does not reprice the past of `symbol`: it refreshes the market, or the
market has no past to price, or the step moves neither the rate nor the window. -/
def KeepsPast (erc : Erc4626) (symbol : S) (env : Env A S) (op : Op A S) : Prop :=
  touches symbol op = true ∨ env.unbilled symbol = 0 ∨
    ((step erc env op).borrowRateNow = env.borrowRateNow ∧ UnpausesBilled erc symbol env op)

/-- A liquidity operation, or an operation on another market. -/
def Elsewhere (symbol : S) : Op A S → Prop
  | .vault _ (.deposit ..) | .vault _ (.mint ..) => True
  | .vault _ (.withdraw ..) | .vault _ (.redeem ..) => True
  | .increase req => req.symbol ≠ symbol
  | .close call => call.symbol ≠ symbol
  | _ => False

section Steps

variable {erc : Erc4626} {env env' : Env A S} {op : Op A S} {symbol : S}

omit [DecidableEq A] in
theorem touches_eq_true_iff {op : Op A S} :
    touches symbol op = true ↔ ∃ mark, refreshes op = some (symbol, mark) := by
  unfold touches
  cases refreshes op with
  | none => simp
  | some sm =>
      obtain ⟨other, mark⟩ := sm
      simp

/-- An operation that does not refresh a stored market does not write it. -/
theorem effect_getMarket (hs : (env.pm.markets.lookup symbol).isSome)
    (h : Effect erc env op env') (hop : touches symbol op = false) :
    env'.getMarket symbol = env.getMarket symbol := by
  cases hr : refreshes op with
  | none => exact getMarket_of_stored hs (effect_markets_of_not_refreshes h hr)
  | some sm =>
      obtain ⟨other, mark⟩ := sm
      refine (effect_refreshes h hr).others symbol ?_
      rintro rfl
      simp [touches, hr] at hop

theorem billedSeconds_of_not_touches (hop : touches symbol op = false) :
    billedSeconds erc symbol env op = 0 := by
  unfold billedSeconds touches at *
  split
  · rename_i hr
    rw [hr] at hop
    simp only [Option.any_some, decide_eq_false_iff_not] at hop
    exact if_neg hop
  · rfl

omit [DecidableEq A] in
/-- The refresh bills the unbilled time at the present rate, less than one raw
unit away from the exact product. -/
theorem borrowPotential_refreshed (h : Refreshed env env' symbol) :
    |borrowPotential symbol env' - borrowPotential symbol env| ≤ bps * secondsPerYear := by
  have hb := mul_tdiv_bounds (env.borrowRateNow * indexPrecision * env.unbilled symbol)
    (b := bps * secondsPerYear) (by decide)
  have hindex : (env'.getMarket symbol).accBorrowIndex =
      (env.getMarket symbol).accBorrowIndex +
        (env.borrowRateNow * indexPrecision * env.unbilled symbol).tdiv
          (bps * secondsPerYear) := by
    rw [h.borrow]
    exact accBorrowIndex_accrue _ _ _
  rw [borrowPotential, borrowPotential, hindex, unbilled_refreshed h, abs_le]
  constructor <;> push_cast <;> nlinarith [hb.1, hb.2]

/-- Where the past is kept, unbilled value grows by the rate of the awake time. -/
theorem unbilled_value_step (hc : Clocked symbol env) (htouch : touches symbol op = false)
    (hk : KeepsPast erc symbol env op) :
    (step erc env op).borrowRateNow * (step erc env op).unbilled symbol =
      env.borrowRateNow * env.unbilled symbol + env.rateSeconds op := by
  have hunbilled := unbilled_step erc env op hc
  have hdrop := droppedSeconds_nonneg erc symbol env op
  rw [billedSeconds_of_not_touches htouch, sub_zero] at hunbilled
  rw [rateSeconds, ← mul_add]
  obtain htrue | hzero | ⟨hrate, hunpause⟩ := hk
  · rw [htouch] at htrue
    cases htrue
  · by_cases hawake : env.awakeSeconds op = 0
    · have hnone : ((step erc env op).unbilled symbol : ℤ) = 0 := by omega
      simp [hnone, hzero, hawake]
    · -- only an advance of the clock takes awake time, and it moves no rate
      cases op with
      | advance seconds =>
          have hkeep : droppedSeconds erc symbol env (.advance seconds) = 0 := rfl
          rw [hunbilled, hkeep, sub_zero]
          rfl
      | _ => exact absurd rfl hawake
  · rw [hrate, hunbilled, (droppedSeconds_eq_zero_iff hc).mpr hunpause, sub_zero]

theorem borrowPotential_step (hc : Clocked symbol env) (hk : KeepsPast erc symbol env op) :
    |borrowPotential symbol (step erc env op) - borrowPotential symbol env -
        indexPrecision * env.rateSeconds op| ≤
      if touches symbol op then bps * secondsPerYear else 0 := by
  obtain ⟨heq, e, herr⟩ | ⟨hok, heff⟩ := step_cases erc env op
  · rw [heq, rateSeconds, awakeSeconds_of_revert herr]
    split_ifs <;> simp
  · cases htouch : touches symbol op with
    | true =>
        obtain ⟨mark, hop⟩ := touches_eq_true_iff.mp htouch
        rw [rateSeconds, awakeSeconds_of_refreshes env hop, mul_zero, mul_zero, sub_zero]
        exact borrowPotential_refreshed (effect_refreshes heff hop)
    | false =>
        have hmarket := effect_getMarket hc.stored heff htouch
        rw [borrowPotential, borrowPotential, hmarket, unbilled_value_step hc htouch hk]
        have hzero : ∀ x y z : ℤ, x + indexPrecision * (y + z) - (x + indexPrecision * y) -
            indexPrecision * z = 0 := by
          intro x y z
          ring
        rw [hzero]
        simp

/-! ## Operations elsewhere -/

/-- An operation elsewhere moves neither the market nor the clock. -/
theorem elsewhere_effect (he : Elsewhere symbol op) (h : Effect erc env op env') :
    env'.getMarket symbol = env.getMarket symbol ∧ SameClock env env' := by
  cases op with
  | increase req =>
      have hrefreshed := effect_refreshes h rfl
      exact ⟨hrefreshed.others symbol (Ne.symm he), hrefreshed.clock⟩
  | close call =>
      have hrefreshed := effect_refreshes h rfl
      exact ⟨hrefreshed.others symbol (Ne.symm he), hrefreshed.clock⟩
  | vault caller call =>
      cases h with
      | quiet h =>
          cases h with
          | vault h =>
              have hclock : SameClock env env' :=
                ⟨h.timestamp, by rw [h.pm], by rw [h.pm], by rw [h.pm]⟩
              exact ⟨getMarket_congr (by rw [h.pm]) h.timestamp symbol, hclock⟩
  | _ => exact he.elim

theorem elsewhere_step (erc : Erc4626) (env : Env A S) (op : Op A S) (he : Elsewhere symbol op) :
    (step erc env op).getMarket symbol = env.getMarket symbol ∧
      (step erc env op).unbilled symbol = env.unbilled symbol := by
  obtain ⟨heq, _⟩ | ⟨_, heff⟩ := step_cases erc env op
  · rw [heq]
    exact ⟨rfl, rfl⟩
  · obtain ⟨hmarket, hclock⟩ := elsewhere_effect he heff
    refine ⟨hmarket, ?_⟩
    rw [unbilled, hmarket]
    exact timeDelta_congr hclock rfl

theorem elsewhere_run (erc : Erc4626) (env : Env A S) (ops : List (Op A S)) (he : ∀ op ∈ ops, Elsewhere symbol op) :
    (run (step erc) env ops).getMarket symbol = env.getMarket symbol ∧
      (run (step erc) env ops).unbilled symbol = env.unbilled symbol := by
  induction ops generalizing env with
  | nil => exact ⟨rfl, rfl⟩
  | cons op ops ih =>
      have hop := elsewhere_step erc env op (he op List.mem_cons_self)
      have hrest := ih (step erc env op) fun o ho => he o (List.mem_cons_of_mem _ ho)
      exact ⟨hrest.1.trans hop.1, hrest.2.trans hop.2⟩

/-- After operations elsewhere, the next refresh prices the past at the rate they
left. -/
theorem accBorrowIndex_after {mark : ℤ} {ops : List (Op A S)} {last : Op A S}
    (he : ∀ op ∈ ops, Elsewhere symbol op)
    (hlast : (run (step erc) env ops).apply erc last = .ok env')
    (hop : refreshes last = some (symbol, mark)) :
    (env'.getMarket symbol).accBorrowIndex =
      accumulateBorrowIndex (env.getMarket symbol).accBorrowIndex
        (run (step erc) env ops).borrowRateNow (env.unbilled symbol) := by
  obtain ⟨hmarket, hunbilled⟩ := elsewhere_run erc env ops he
  rw [(effect_refreshes (apply_effect hlast) hop).borrow, ← hmarket, ← hunbilled]
  exact accBorrowIndex_accrue _ _ _

/-! ## Both readings of the accrual -/

/-- Two runs that part ways elsewhere price the past of the market alike exactly
when it has none or they leave the same rate. Along a run that reprices no past,
the index between two billed states is the integral of the rate, up to one raw
unit for each refresh of the market. -/
theorem borrow_accrual_spec (symbol : S) (hr : Reachable erc env) :
    (∀ (opsX opsY : List (Op A S)) (lastX lastY : Op A S) (envX envY : Env A S) (markX markY : ℤ),
      (∀ op ∈ opsX, Elsewhere symbol op) → (∀ op ∈ opsY, Elsewhere symbol op) →
      (run (step erc) env opsX).apply erc lastX = .ok envX →
      (run (step erc) env opsY).apply erc lastY = .ok envY →
      refreshes lastX = some (symbol, markX) → refreshes lastY = some (symbol, markY) →
      ((envX.getMarket symbol).accBorrowIndex = (envY.getMarket symbol).accBorrowIndex ↔
        env.unbilled symbol = 0 ∨ (run (step erc) env opsX).borrowRateNow =
          (run (step erc) env opsY).borrowRateNow)) ∧
    (∀ (ops : List (Op A S)), (env.pm.markets.lookup symbol).isSome →
      env.unbilled symbol = 0 → (run (step erc) env ops).unbilled symbol = 0 →
      Along (step erc) (KeepsPast erc symbol) env ops →
      |bps * secondsPerYear * (((run (step erc) env ops).getMarket symbol).accBorrowIndex -
          (env.getMarket symbol).accBorrowIndex) -
        indexPrecision * sumAlong (step erc) rateSeconds env ops| ≤
      ops.countP (touches symbol) * (bps * secondsPerYear)) := by
  refine ⟨?_, ?_⟩
  · intro opsX opsY lastX lastY envX envY markX markY hX hY happX happY hrefX hrefY
    rw [accBorrowIndex_after hX happX hrefX, accBorrowIndex_after hY happY hrefY,
      accumulateBorrowIndex_inj]
  · intro ops hstored hstart hend hkeeps
    have hc : Clocked symbol env := ⟨reachable_timeOrdered hr, hstored⟩
    have hrun := run_balance_error (φ := borrowPotential symbol)
      (g := fun env op => indexPrecision * env.rateSeconds op)
      (step_clocked erc) (fun _ _ => borrowPotential_step) hc hkeeps
    rw [sumAlong_mul, borrowPotential, borrowPotential, hstart, hend] at hrun
    convert hrun using 2
    push_cast
    ring

/-- A market with one long: six hundred seconds and a refresh follow the rate;
six hundred seconds and a deposit leave another rate than without the deposit. -/
theorem borrow_accrual_spec_deployed :
    let start := deployed 1000000000000
      [.increase ⟨2, 0, 100000000000, 10000000000, true, 0, 0, 0, 1000000000⟩]
    let env := deployed 1000000000000
      [.increase ⟨2, 0, 100000000000, 10000000000, true, 0, 0, 0, 1000000000⟩, .advance 600]
    (∃ envX envY, (run (step offsetErc) env []).apply offsetErc (.updateIndices 0 0 1000000000) =
        .ok envX ∧
      (run (step offsetErc) env [.vault 3 (.deposit 9000000000000 3 3)]).apply offsetErc
        (.updateIndices 0 0 1000000000) = .ok envY ∧
      ((envX.getMarket 0).accBorrowIndex = (envY.getMarket 0).accBorrowIndex ↔
        env.unbilled 0 = 0 ∨ (run (step offsetErc) env []).borrowRateNow =
          (run (step offsetErc) env [.vault 3 (.deposit 9000000000000 3 3)]).borrowRateNow)) ∧
    |bps * secondsPerYear * (((run (step offsetErc) start
          [.advance 600, .updateIndices 0 0 1000000000]).getMarket 0).accBorrowIndex -
        (start.getMarket 0).accBorrowIndex) - indexPrecision *
      sumAlong (step offsetErc) rateSeconds start [.advance 600, .updateIndices 0 0 1000000000]| ≤
      ([.advance 600, .updateIndices 0 0 1000000000] : List (Op ℕ ℕ)).countP (touches 0) *
        (bps * secondsPerYear) := by
  intro start env
  obtain ⟨envX, hX, -⟩ := exists_ok_of_bind_eq_some
    (x := (run (step offsetErc) env []).apply offsetErc (.updateIndices 0 0 1000000000))
    (f := fun _ => some true) (b := true) (by decide +kernel)
  obtain ⟨envY, hY, -⟩ := exists_ok_of_bind_eq_some
    (x := (run (step offsetErc) env [.vault 3 (.deposit 9000000000000 3 3)]).apply offsetErc
      (.updateIndices 0 0 1000000000)) (f := fun _ => some true) (b := true) (by decide +kernel)
  have hspec := borrow_accrual_spec 0 (reachable_deployed _ _ : Reachable offsetErc env)
  refine ⟨⟨envX, envY, hX, hY, hspec.1 _ _ _ _ _ _ _ _ (by simp) (by simp [Elsewhere]) hX hY rfl
    rfl⟩, ?_⟩
  apply (borrow_accrual_spec 0 (reachable_deployed _ _ : Reachable offsetErc start)).2
  · decide +kernel
  · decide +kernel
  · decide +kernel
  · exact ⟨.inr (.inl (by decide +kernel)), .inl rfl, trivial⟩

/-- Six hundred seconds at a utilization of ten percent, then a ninefold deposit in
the same second: the refresh prices those seconds at one percent. -/
theorem borrow_past_repriced :
    ¬ ∀ (env envX envY : Env ℕ ℕ) (opsX opsY : List (Op ℕ ℕ)) (lastX lastY : Op ℕ ℕ)
      (symbol : ℕ) (markX markY : ℤ), Reachable offsetErc env →
      (∀ op ∈ opsX, Elsewhere symbol op) → (∀ op ∈ opsY, Elsewhere symbol op) →
      (run (step offsetErc) env opsX).apply offsetErc lastX = .ok envX →
      (run (step offsetErc) env opsY).apply offsetErc lastY = .ok envY →
      refreshes lastX = some (symbol, markX) → refreshes lastY = some (symbol, markY) →
      (envX.getMarket symbol).accBorrowIndex = (envY.getMarket symbol).accBorrowIndex := by
  intro hsame
  have hstart := reachable_deployed 1000000000000
    [.increase ⟨2, 0, 100000000000, 10000000000, true, 0, 0, 0, 1000000000⟩, .advance 600]
  generalize hdep : deployed 1000000000000 [.increase ⟨2, 0, 100000000000, 10000000000, true,
    0, 0, 0, 1000000000⟩, .advance 600] = env at hstart
  obtain ⟨envX, hX, hbX⟩ := exists_ok_of_bind_eq_some
    (x := (run (step offsetErc) env []).apply offsetErc (.updateIndices 0 0 1000000000))
    (f := fun envX => some (envX.getMarket 0).accBorrowIndex) (b := 100000028348554)
    (by subst hdep; decide +kernel)
  obtain ⟨envY, hY, hbY⟩ := exists_ok_of_bind_eq_some
    (x := (run (step offsetErc) env [.vault 3 (.deposit 9000000000000 3 3)]).apply offsetErc
      (.updateIndices 0 0 1000000000))
    (f := fun envY => some (envY.getMarket 0).accBorrowIndex) (b := 100000019786910)
    (by subst hdep; decide +kernel)
  have heq := hsame env envX envY [] [.vault 3 (.deposit 9000000000000 3 3)] _ _ 0 _ _ hstart
    (by simp) (by simp [Elsewhere]) hX hY rfl rfl
  rw [Option.some.inj hbX, Option.some.inj hbY] at heq
  cases heq

end Steps

end Env

end Stellars
