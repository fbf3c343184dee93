import Stellars.LiquidityProviders
import Stellars.PositionClose

/-!
# The protocol as a state machine

One operation is one signed call to one of the contracts, or the passing of
time. A call that reverts leaves the state as it was. `Effect` inverts a
successful operation once for all the invariants proved about runs.
-/
namespace Stellars
open GuardedRuns KeyedTotals

/-- `setMarketDisabled` is `disable_market` or `enable_market`. -/
inductive Op (A S : Type)
  | advance (seconds : ℕ)
  | transferUsdc (src : A) (dst : Party A) (amount : ℤ)
  | config (caller : A) (call : ConfigCall A)
  | vault (caller : A) (call : VaultCall A)
  | increase (req : IncreaseRequest A S)
  | close (call : CloseCall A S)
  | setTpSl (trader : A) (symbol : S) (takeProfit stopLoss : ℤ)
  | updateIndices (caller : A) (symbol : S) (price : ℤ)
  | pause (caller : A)
  | unpause (caller : A)
  | setMaxLeverage (caller : A) (symbol : S) (maxLeverage : ℤ)
  | setMarketDisabled (caller : A) (symbol : S) (disabled : Bool)

namespace Env

variable {A S : Type} [DecidableEq A] [DecidableEq S]

def configCall (env : Env A S) (caller : A) (call : ConfigCall A) : Except Error (Env A S) :=
  match env.cfg.call caller call with
  | .ok cfg => .ok { env with cfg := cfg }
  | .error e => .error (.config e)

def apply (erc : Erc4626) (env : Env A S) : Op A S → Except Error (Env A S)
  | .advance seconds => .ok { env with timestamp := env.timestamp + seconds }
  | .transferUsdc src dst amount => env.transfer (.account src) dst amount
  | .config caller call => env.configCall caller call
  | .vault caller call => env.vaultCall erc caller call
  | .increase req => env.increasePosition req
  | .close call => env.closePosition call
  | .setTpSl trader symbol takeProfit stopLoss => env.setTpSl trader symbol takeProfit stopLoss
  | .updateIndices caller symbol price => env.updateIndices caller symbol price
  | .pause caller => env.pause caller
  | .unpause caller => env.unpause caller
  | .setMaxLeverage caller symbol maxLeverage => env.setMaxLeverage caller symbol maxLeverage
  | .setMarketDisabled caller symbol disabled => env.setMarketDisabled caller symbol disabled

/-- A revert rolls everything back. -/
def step (erc : Erc4626) (env : Env A S) (op : Op A S) : Env A S :=
  match env.apply erc op with
  | .ok env' => env'
  | .error _ => env

/-- The contracts right after initialization. USDC may already have been sent
anywhere. -/
def genesis (admin : A) (usdc : Party A → ℕ) (timestamp : ℕ) : Env A S where
  timestamp := timestamp
  usdc := fun p => usdc p
  vault :=
    { reservedUsdc := 0
      unclaimedFees := 0
      netGlobalTraderPnl := 0
      isPaused := false
      lockupExpiresAt := fun _ => none
      shares := fun _ => 0
      totalSupply := 0
      allowance := fun _ _ => 0 }
  pm :=
    { isPaused := false
      realizedPnl := 0
      totalUnrealizedPnl := 0
      marketUnrealizedPnl := ∅
      lastUnpauseTime := 0
      lastPauseTime := 0
      maxLeverage := fun _ => none
      marketDisabled := fun _ => false
      positions := ∅
      markets := ∅ }
  cfg := .initializeWith admin

def Reachable (erc : Erc4626) (env : Env A S) : Prop :=
  ∃ admin usdc timestamp ops, env = run (step erc) (genesis admin usdc timestamp) ops

/-! ## Inverting an operation -/

/-- Payer, recipient and amount of the transfer an operation asks for, outside
the position manager. -/
def opMove (erc : Erc4626) (env : Env A S) : Op A S → Party A × Party A × ℤ
  | .transferUsdc src dst amount => (.account src, dst, amount)
  | .vault _ call => env.callMove erc call
  | _ => (.vault, .vault, 0)

/-- The market an operation refreshes, and the mark it refreshes at. -/
def refreshes : Op A S → Option (S × ℤ)
  | .increase req => some (req.symbol, req.price)
  | .close call => some (call.symbol, call.price)
  | .updateIndices _ symbol price => some (symbol, price)
  | _ => none

/-- Operations that leave positions, markets and reservations alone. -/
inductive Quiet (erc : Erc4626) (env : Env A S) : Op A S → Env A S → Prop
  | advance (seconds : ℕ) :
      Quiet erc env (.advance seconds) { env with timestamp := env.timestamp + seconds }
  | transferUsdc {src dst amount env'} (h : MoneyEffect env env' (.account src) dst amount
      env.vault.unclaimedFees) : Quiet erc env (.transferUsdc src dst amount) env'
  | config (caller : A) (call : ConfigCall A) (cfg : ConfigManager A) :
      Quiet erc env (.config caller call) { env with cfg := cfg }
  | vault {caller call env'} (h : MoneyEffect env env' (env.callMove erc call).1
      (env.callMove erc call).2.1 (env.callMove erc call).2.2 (env.feesAfter call)) :
      Quiet erc env (.vault caller call) env'
  | pause (caller : A) (h : env.pm.isPaused = false) : Quiet erc env (.pause caller)
      { env with pm := { env.pm with isPaused := true, lastPauseTime := env.timestamp } }
  | pauseAgain (caller : A) (h : env.pm.isPaused = true) : Quiet erc env (.pause caller) env
  | unpause (caller : A) (h : env.pm.isPaused = true) : Quiet erc env (.unpause caller)
      { env with pm := { env.pm with isPaused := false, lastUnpauseTime := env.timestamp } }
  | unpauseAgain (caller : A) (h : env.pm.isPaused = false) : Quiet erc env (.unpause caller) env
  | setMaxLeverage (caller : A) (symbol : S) (maxLeverage : ℤ) :
      Quiet erc env (.setMaxLeverage caller symbol maxLeverage)
        { env with pm := { env.pm with
          maxLeverage := Function.update env.pm.maxLeverage symbol (some maxLeverage) } }
  | setMarketDisabled (caller : A) (symbol : S) (disabled : Bool) :
      Quiet erc env (.setMarketDisabled caller symbol disabled)
        { env with pm := { env.pm with
          marketDisabled := Function.update env.pm.marketDisabled symbol disabled } }

/-- What a successful operation did. -/
inductive Effect (erc : Erc4626) (env : Env A S) : Op A S → Env A S → Prop
  | increase {req pos env'} (awake : env.pm.isPaused = false) (size_pos : 0 < req.size)
      (effect : IncreaseEffect env env' req pos) : Effect erc env (.increase req) env'
  | close {call r env'} (names : CloseNames call r) (ready : CloseReady env (env.freshEnv r.symbol) r)
      (effect : CloseEffect env env' r) : Effect erc env (.close call) env'
  | setTpSl {trader symbol takeProfit stopLoss pos delta}
      (position : env.getPosition trader symbol = some pos)
      (hdelta : delta = escrowDelta pos.executionFeeEscrow takeProfit stopLoss
        env.cfg.feeConfig.1.tpSlExecutionFee) :
      Effect erc env (.setTpSl trader symbol takeProfit stopLoss)
        ((env.setUsdc (moveUsdc env.usdc (.account trader) .positionManager delta)).setPosition
          trader symbol { pos with
            executionFeeEscrow := pos.executionFeeEscrow + delta
            takeProfit := takeProfit
            stopLoss := stopLoss })
  | updateIndices {caller symbol price} (awake : env.pm.isPaused = false) (price_pos : 0 < price) :
      Effect erc env (.updateIndices caller symbol price)
        ((env.freshEnv symbol).withMarketPnl symbol ((env.freshMarket symbol).unrealizedPnl price))
  | quiet {op env'} (h : Quiet erc env op env') : Effect erc env op env'

variable {erc : Erc4626} {env env' : Env A S} {op : Op A S}

theorem apply_effect (h : env.apply erc op = .ok env') : Effect erc env op env' := by
  cases op with
  | advance seconds =>
      cases h
      exact .quiet (.advance seconds)
  | transferUsdc src dst amount =>
      refine .quiet (.transferUsdc ?_)
      exact .of_transfer (SameBooks.refl env) h (SameBooks.refl env') nofun
  | config caller call =>
      simp only [apply, configCall] at h
      split at h <;> cases h
      exact .quiet (.config caller call _)
  | vault caller call => exact .quiet (.vault (vaultCall_effect h))
  | increase req =>
      obtain ⟨hp, hs, pos, heffect⟩ := increasePosition_ok h
      exact .increase hp hs heffect
  | close call =>
      obtain ⟨r, hnames, hready, heffect⟩ := closePosition_ok h
      exact .close hnames hready heffect
  | setTpSl trader symbol takeProfit stopLoss =>
      obtain ⟨pos, hpos, rfl⟩ := setTpSl_ok h
      exact .setTpSl hpos rfl
  | updateIndices caller symbol price =>
      obtain ⟨hp, hprice, rfl⟩ := updateIndices_ok h
      exact .updateIndices hp hprice
  | pause caller =>
      obtain ⟨hp, rfl⟩ | ⟨hp, rfl⟩ := pause_ok h
      · exact .quiet (.pauseAgain caller hp)
      · exact .quiet (.pause caller hp)
  | unpause caller =>
      obtain ⟨hp, rfl⟩ | ⟨hp, rfl⟩ := unpause_ok h
      · exact .quiet (.unpauseAgain caller hp)
      · exact .quiet (.unpause caller hp)
  | setMaxLeverage caller symbol maxLeverage =>
      obtain rfl := setMaxLeverage_ok h
      exact .quiet (.setMaxLeverage caller symbol maxLeverage)
  | setMarketDisabled caller symbol disabled =>
      obtain rfl := setMarketDisabled_ok h
      exact .quiet (.setMarketDisabled caller symbol disabled)

/-- An operation either reverts, leaving the state alone, or has its effect. -/
theorem step_cases (erc : Erc4626) (env : Env A S) (op : Op A S) :
    (env.step erc op = env ∧ ∃ e, env.apply erc op = .error e) ∨
      (env.apply erc op = .ok (env.step erc op) ∧ Effect erc env op (env.step erc op)) := by
  unfold step
  cases h : env.apply erc op with
  | error e => exact .inl ⟨rfl, e, rfl⟩
  | ok env' => exact .inr ⟨rfl, apply_effect h⟩

/-- To preserve a property it is enough that every effect does. -/
theorem step_preserves {Inv : Env A S → Prop}
    (h : ∀ env op env', Inv env → Effect erc env op env' → Inv env') (env : Env A S)
    (op : Op A S) (hi : Inv env) : Inv (env.step erc op) := by
  obtain ⟨heq, _⟩ | ⟨_, heffect⟩ := step_cases erc env op
  · rw [heq]
    exact hi
  · exact h env op _ hi heffect

/-- What holds at genesis and is preserved by every effect holds everywhere. -/
theorem Reachable.induction {Inv : Env A S → Prop}
    (hgenesis : ∀ admin usdc timestamp, Inv (genesis admin usdc timestamp))
    (h : ∀ env op env', Inv env → Effect erc env op env' → Inv env')
    (hr : Reachable erc env) : Inv env := by
  obtain ⟨admin, usdc, timestamp, ops, rfl⟩ := hr
  exact run_invariant' ops (step_preserves h) (hgenesis admin usdc timestamp)

theorem Reachable.apply (hr : Reachable erc env) (h : env.apply erc op = .ok env') :
    Reachable erc env' := by
  obtain ⟨admin, usdc, timestamp, ops, rfl⟩ := hr
  refine ⟨admin, usdc, timestamp, ops ++ [op], ?_⟩
  rw [run_append]
  simp only [run_cons, run_nil, step, h]

theorem Reachable.run (hr : Reachable erc env) (ops : List (Op A S)) :
    Reachable erc (run (step erc) env ops) := by
  obtain ⟨admin, usdc, timestamp, before, rfl⟩ := hr
  exact ⟨admin, usdc, timestamp, before ++ ops, (run_append _ _ _ _).symm⟩

/-- The same, step by accepted step from the states reached. -/
theorem Reachable.induction_apply {Inv : Env A S → Prop}
    (hgenesis : ∀ admin usdc timestamp, Inv (genesis admin usdc timestamp))
    (h : ∀ env op env', Reachable erc env → Inv env → env.apply erc op = .ok env' → Inv env')
    (hr : Reachable erc env) : Inv env := by
  obtain ⟨admin, usdc, timestamp, ops, rfl⟩ := hr
  let Reached : Env A S → Prop := fun env => Reachable erc env ∧ Inv env
  have hstep : ∀ env op, Reached env → Reached (step erc env op) := by
    rintro env op ⟨hr, hi⟩
    obtain ⟨heq, _⟩ | ⟨hok, _⟩ := step_cases erc env op
    · rw [heq]
      exact ⟨hr, hi⟩
    · exact ⟨hr.apply hok, h env op _ hr hi hok⟩
  have hstart : Reached (genesis admin usdc timestamp) :=
    ⟨⟨admin, usdc, timestamp, [], rfl⟩, hgenesis admin usdc timestamp⟩
  exact (run_invariant' ops hstep hstart).2

/-- Positions, markets and the counters that summarize them are untouched. -/
structure SamePositions (env env' : Env A S) : Prop where
  positions : env'.pm.positions = env.pm.positions
  markets : env'.pm.markets = env.pm.markets
  marketUnrealizedPnl : env'.pm.marketUnrealizedPnl = env.pm.marketUnrealizedPnl
  totalUnrealizedPnl : env'.pm.totalUnrealizedPnl = env.pm.totalUnrealizedPnl
  reservedUsdc : env'.vault.reservedUsdc = env.vault.reservedUsdc
  netGlobalTraderPnl : env'.vault.netGlobalTraderPnl = env.vault.netGlobalTraderPnl

omit [DecidableEq S] in
theorem MoneyEffect.samePositions {src dst : Party A} {amount fees : ℤ}
    (h : MoneyEffect env env' src dst amount fees) : SamePositions env env' :=
  ⟨by rw [h.pm], by rw [h.pm], by rw [h.pm], by rw [h.pm], h.reservedUsdc, h.netGlobalTraderPnl⟩

theorem Quiet.samePositions (h : Quiet erc env op env') : SamePositions env env' := by
  cases h with
  | transferUsdc h => exact h.samePositions
  | vault h => exact h.samePositions
  | _ => exact ⟨rfl, rfl, rfl, rfl, rfl, rfl⟩

theorem effect_timestamp_le (h : Effect erc env op env') : env.timestamp ≤ env'.timestamp := by
  cases h with
  | increase awake size_pos effect => rw [effect.timestamp]
  | close names ready effect => rw [effect.timestamp]
  | setTpSl position hdelta => exact le_rfl
  | @updateIndices _ symbol _ awake price_pos =>
      obtain ⟨markets, hf⟩ := env.freshEnv_eq symbol
      rw [hf]
      exact le_rfl
  | quiet h =>
      cases h with
      | advance seconds => exact Nat.le_add_right _ _
      | transferUsdc h => rw [h.timestamp]
      | vault h => rw [h.timestamp]
      | _ => exact le_rfl

/-- Time only passes. -/
theorem timestamp_le_step (erc : Erc4626) (env : Env A S) (op : Op A S) :
    env.timestamp ≤ (env.step erc op).timestamp := by
  obtain ⟨heq, _⟩ | ⟨_, heff⟩ := step_cases erc env op
  · rw [heq]
  · exact effect_timestamp_le heff

/-! ## A deployment to run -/

section Deployment

/-- The library's conversions with six virtual decimals of shares. -/
def offsetErc : Erc4626 where
  previewDeposit assets total supply := (assets * (supply + 1000000)).tdiv (total + 1)
  previewMint shares total supply :=
    (shares * (total + 1) + (supply + 1000000 - 1)).tdiv (supply + 1000000)
  previewWithdraw assets total supply := (assets * (supply + 1000000) + total).tdiv (total + 1)
  previewRedeem shares total supply := (shares * (total + 1)).tdiv (supply + 1000000)

def fundedAccounts : Party ℕ → ℕ
  | .account _ => 1000000000000000
  | _ => 0

/-- Account 0 administers, keeps and pauses; account 1 deposits; markets 0 and 1
allow a leverage of one hundred. -/
def setup (liquidity : ℤ) : List (Op ℕ ℕ) :=
  [.config 0 (.grantRole .keeper 0), .config 0 (.grantRole .pauser 0),
    .setMaxLeverage 0 0 100, .setMaxLeverage 0 1 100, .vault 1 (.deposit liquidity 1 1)]

def deployed (liquidity : ℤ) (ops : List (Op ℕ ℕ)) : Env ℕ ℕ :=
  run (step offsetErc) (genesis 0 fundedAccounts 1000) (setup liquidity ++ ops)

theorem reachable_deployed (liquidity : ℤ) (ops : List (Op ℕ ℕ)) :
    Reachable offsetErc (deployed liquidity ops) := ⟨_, _, _, _, rfl⟩

end Deployment

end Env

end Stellars
