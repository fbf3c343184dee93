import Stellars.Books

/-!
# Realized profit as cash

Every successful close books its net profit in `realizedPnl` and pays the trader
what is left of the released collateral. The two differ by what the collateral
could not cover, so the booked figure is the cash that changed hands exactly
when no close was under water.
-/
namespace Stellars
open GuardedRuns KeyedTotals

namespace CloseRequest

variable {A S : Type} (r : CloseRequest A S)

/-- What the trader gains or loses in USDC when the slice is settled. -/
def cash : ℤ := r.traderPayout - r.collateralDelta

/-- The part of a loss that the released collateral does not cover. -/
def uncovered : ℤ := max (-r.eval.effectiveHealth) 0

end CloseRequest

namespace Env

variable {A S : Type} [DecidableEq A] [DecidableEq S]

/-- The close that a successful operation settles. -/
def settledClose (erc : Erc4626) (env : Env A S) (op : Op A S) : Option (CloseRequest A S) :=
  match op, env.apply erc op with
  | .close call, .ok _ => (env.closeRequest call).toOption.map Prod.snd
  | _, _ => none

section Steps

variable {erc : Erc4626} {env env' env1 : Env A S} {op : Op A S} {r : CloseRequest A S}

/-- A settled close passed its checks and had its effect. -/
theorem settledClose_eq_some (h : settledClose erc env op = some r) :
    ∃ call, op = .close call ∧ CloseNames call r ∧ CloseReady env (env.freshEnv r.symbol) r ∧
      CloseEffect env (env.step erc op) r := by
  unfold settledClose at h
  split at h
  · next call env' hok =>
      obtain ⟨⟨env1, r1⟩, hrequest, hclose⟩ := bind_eq_ok.mp hok
      rw [hrequest] at h
      cases h
      obtain ⟨hready, hnames⟩ := closeRequest_ok hrequest
      have hstep : env.step erc (.close call) = env' := by rw [step, hok]
      obtain rfl := hready.refreshed
      exact ⟨call, rfl, hnames, hready, hstep ▸ executeClose_ok hclose⟩
  · cases h

/-- Every other step is an effect of another kind, or none. -/
theorem settledClose_eq_none (h : settledClose erc env op = none) :
    env.step erc op = env ∨ Effect erc env op (env.step erc op) ∧ ∀ call, op ≠ .close call := by
  obtain ⟨heq, _⟩ | ⟨hok, heff⟩ := step_cases erc env op
  · exact .inl heq
  · refine .inr ⟨heff, ?_⟩
    rintro call rfl
    obtain ⟨⟨env1, r⟩, hrequest, _⟩ := bind_eq_ok.mp hok
    simp only [settledClose, hok, hrequest] at h
    cases h

/-- The slice is worth the released collateral and the booked profit. -/
theorem CloseReady.effectiveHealth_eq (hr : CloseReady env env1 r) :
    r.eval.effectiveHealth = r.collateralDelta + r.netEconomicPnl := by
  rw [CloseRequest.netEconomicPnl, hr.eval]
  simp only [MarketTick.evaluate, calcHealth]
  ring

theorem CloseReady.cash_eq (hr : CloseReady env env1 r) :
    r.cash = r.netEconomicPnl + r.uncovered := by
  have hhealth := hr.effectiveHealth_eq
  rw [CloseRequest.cash, CloseRequest.uncovered, r.traderPayout_eq_max]
  omega

theorem realizedPnl_of_not_close (h : Effect erc env op env') (hop : ∀ call, op ≠ .close call) :
    env'.pm.realizedPnl = env.pm.realizedPnl := by
  cases h with
  | increase awake size_pos effect => rw [effect.pm]
  | @close call => exact absurd rfl (hop call)
  | setTpSl position hdelta => rfl
  | @updateIndices _ symbol _ awake price_pos =>
      obtain ⟨markets, hf⟩ := env.freshEnv_eq symbol
      rw [hf]
      rfl
  | quiet h =>
      cases h with
      | transferUsdc h => rw [h.pm]
      | vault h => rw [h.pm]
      | _ => rfl

/-! ## Over a run -/

def booked (erc : Erc4626) (env : Env A S) (op : Op A S) : ℤ :=
  (settledClose erc env op).elim 0 (·.netEconomicPnl)

/-- The cash a step moves between the trader it closes and the protocol. -/
def closeCash (erc : Erc4626) (env : Env A S) (op : Op A S) : ℤ :=
  (settledClose erc env op).elim 0 (·.cash)

/-- The slice that a close settles is not under water. -/
def AboveWater (erc : Erc4626) (env : Env A S) (op : Op A S) : Prop :=
  ∀ r, settledClose erc env op = some r → 0 ≤ r.eval.effectiveHealth

/-- No close books a loss larger than the collateral it releases. -/
def LossWithinCollateral (erc : Erc4626) (env : Env A S) (op : Op A S) : Prop :=
  ∀ r, settledClose erc env op = some r → -r.netEconomicPnl ≤ r.collateralDelta

theorem realizedPnl_step (env : Env A S) (op : Op A S) :
    (env.step erc op).pm.realizedPnl = env.pm.realizedPnl + booked erc env op := by
  unfold booked
  cases h : settledClose erc env op with
  | some r =>
      obtain ⟨_, _, _, _, heff⟩ := settledClose_eq_some h
      rw [heff.pm]
      rfl
  | none =>
      rw [Option.elim_none, add_zero]
      obtain heq | ⟨heff, hop⟩ := settledClose_eq_none h
      · rw [heq]
      · exact realizedPnl_of_not_close heff hop

theorem closeCash_sub_booked (env : Env A S) (op : Op A S) :
    0 ≤ closeCash erc env op - booked erc env op ∧
      (closeCash erc env op - booked erc env op = 0 ↔ AboveWater erc env op) := by
  unfold closeCash booked AboveWater
  cases h : settledClose erc env op with
  | none => simp
  | some r =>
      obtain ⟨_, _, _, hready, _⟩ := settledClose_eq_some h
      have hcash := hready.cash_eq
      simp only [Option.elim_some, Option.some.injEq, forall_eq', CloseRequest.uncovered] at hcash ⊢
      constructor <;> omega

theorem lossWithinCollateral_iff (env : Env A S) (op : Op A S) :
    LossWithinCollateral erc env op ↔ AboveWater erc env op := by
  refine forall₂_congr fun r h => ?_
  obtain ⟨_, _, _, hready, _⟩ := settledClose_eq_some h
  have hhealth := hready.effectiveHealth_eq
  omega

/-- Over any run from the start, `realizedPnl` is the cash that closes moved
exactly if no close is under water, and so is no loss booked beyond the
collateral that covers it. -/
theorem realizedPnl_eq_cash_iff (erc : Erc4626) (admin : A) (usdc : Party A → ℕ) (timestamp : ℕ)
    (ops : List (Op A S)) :
    let start : Env A S := genesis admin usdc timestamp
    ((run (step erc) start ops).pm.realizedPnl = sumAlong (step erc) (closeCash erc) start ops ↔
      Along (step erc) (AboveWater erc) start ops) ∧
    (Along (step erc) (LossWithinCollateral erc) start ops ↔
      Along (step erc) (AboveWater erc) start ops) := by
  intro start
  have hbooked : (run (step erc) start ops).pm.realizedPnl =
      0 + sumAlong (step erc) (booked erc) start ops :=
    run_balance' (φ := fun env : Env A S => env.pm.realizedPnl) ops realizedPnl_step
  have hnonneg : ∀ (env : Env A S) op, 0 ≤ closeCash erc env op - booked erc env op :=
    fun env op => (closeCash_sub_booked env op).1
  have hgap : _ ↔ Along (step erc) _ start ops := sumAlong_eq_zero_iff hnonneg
  rw [sumAlong_sub, along_congr' fun env op => (closeCash_sub_booked (S := S) env op).2] at hgap
  constructor
  · rw [← hgap, hbooked]
    omega
  · exact along_congr' fun env op => lossWithinCollateral_iff env op

/-- A long of 500 on 100 of collateral is liquidated at half its entry price: 100
leave the trader, and a loss of more than 250 is booked. -/
theorem realizedPnl_ne_cash :
    ¬ ∀ ops : List (Op ℕ ℕ),
      (run (step offsetErc) (genesis 0 fundedAccounts 1000) ops).pm.realizedPnl =
        sumAlong (step offsetErc) (closeCash offsetErc) (genesis 0 fundedAccounts 1000) ops := by
  intro hcash
  have hbad := hcash (setup 10000000000 ++
    [.increase ⟨2, 0, 5000000000, 1000000000, true, 0, 0, 0, 1000000000⟩,
      .close (.liquidate 3 2 0 500000000)])
  revert hbad
  decide +kernel

end Steps

end Env

end Stellars
