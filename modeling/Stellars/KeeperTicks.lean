import Stellars.KeeperAdl
import Stellars.AdlTarget
import Stellars.KeeperDedup

/-!
# A tick of the cold loop

The cold loop reads the mirrored rows once, decides from them what to ask for, and asks for
one action after another while the chain moves on. Its choice of orders is the contract's,
and what it asks for stays right until its turn comes.
-/
namespace Stellars
open GuardedRuns KeyedTotals

namespace ProtocolMath

def isTpTriggered (takeProfit markPrice : ℤ) (isLong : Bool) : Bool :=
  if takeProfit ≤ 0 then false
  else if isLong then decide (markPrice ≥ takeProfit) else decide (markPrice ≤ takeProfit)

def isSlTriggered (stopLoss markPrice : ℤ) (isLong : Bool) : Bool :=
  if stopLoss ≤ 0 then false
  else if isLong then decide (markPrice ≤ stopLoss) else decide (markPrice ≥ stopLoss)

def MarketTick.isTpTriggered (tick : MarketTick) (takeProfit : ℤ) (isLong : Bool) : Bool :=
  ProtocolMath.isTpTriggered takeProfit tick.markPrice isLong

def MarketTick.isSlTriggered (tick : MarketTick) (stopLoss : ℤ) (isLong : Bool) : Bool :=
  ProtocolMath.isSlTriggered stopLoss tick.markPrice isLong

end ProtocolMath

/-! ## What the loop reads -/

structure LoopConfig extends KeeperConfig where
  indexUpdateThresholdSec : ℤ
  staleHardSkipSec : ℤ

/-- The columns of the mirrored configuration that only the cold loop reads. -/
structure ColdLimitsRow extends AdlLimitsRow where
  minPositionLifetime : ℤ

/-- No lag is an infinite one. -/
structure LoopWorld (A S : Type) extends KeeperWorld A S where
  markets : Table S MarketRow
  vault : Option VaultStateRow
  limits : Option ColdLimitsRow
  indexerLagSec : Option ℤ

/-- A cursor that has not recorded a close time yet is as good as none. -/
def indexerLagSec (lastLedgerCloseTime : Option ℤ) (now : ℤ) : Option ℤ :=
  lastLedgerCloseTime.bind fun closeTime => if closeTime = 0 then none else some (now - closeTime)

def loadLoopWorld {A S : Type} [DecidableEq S] (db : Db A S) (limits : Option ColdLimitsRow)
    (lastLedgerCloseTime : Option ℤ) (prices : S → Option ℤ) (now : ℤ) : LoopWorld A S :=
  { loadKeeperWorld db prices now with
    markets := db.markets
    vault := db.vaultState
    limits := limits
    indexerLagSec := indexerLagSec lastLedgerCloseTime now }

/-! ## What it decides -/

namespace LoopWorld

variable {A S : Type} (world : LoopWorld A S) (config : LoopConfig)

/-- `checkStaleness` tells the tick to skip. -/
def skips : Bool := world.indexerLagSec.elim true fun lag => decide (lag > config.staleHardSkipSec)

/-- Step 1. Markets nobody holds a position in are left alone. -/
def staleMarkets : List S :=
  if world.vault.elim false (·.isPaused) then []
  else (world.markets.entries.filter fun m =>
    decide (m.2.longOpenInterest + m.2.shortOpenInterest ≠ 0 ∧
      world.now - m.2.lastIndexUpdate > config.indexUpdateThresholdSec)).map (·.1)

/-- The body of step 2 up to the claim; `false` is a `continue`. -/
def orderTriggered (symbol : S) (pos : PositionRow) : Bool :=
  if pos.takeProfit = 0 ∧ pos.stopLoss = 0 then false
  else
    match world.ticks symbol with
    | none => false
    | some tick =>
        if world.now - pos.lastIncreasedTime < world.limits.elim 0 (·.minPositionLifetime) then
          false
        else
          tick.isTpTriggered pos.takeProfit pos.isLong || tick.isSlTriggered pos.stopLoss pos.isLong

def triggeredOrders : List (A × S) :=
  (world.positions.entries.filter fun pos => world.orderTriggered pos.1.2 pos.2).map (·.1)

/-- Step 3. -/
def adlTarget : Option (A × S) :=
  if keeperAdlTrigger world.vault (world.limits.map (·.toAdlLimitsRow)) then
    (findAdlTarget world.ticks world.positions.entries).map (·.1)
  else none

/-- The upkeep of indices and orders, which comes before the check for a deleverage. -/
def upkeep : List (KeeperAction A S) :=
  (world.staleMarkets config).map .updateIndices ++
    world.triggeredOrders.map fun key => .executeOrder key.1 key.2

def coldActions : List (KeeperAction A S) :=
  world.upkeep config ++ world.adlTarget.toList.map fun key => .deleveragePosition key.1 key.2

end LoopWorld

/-! ## Asking for it -/

/-- Who runs the tick, what the oracle answers meanwhile, when the keeper claims each action,
how long the action takes to reach the chain, and which refusals count as expected. -/
structure TickContext (A S : Type) where
  keeper : A
  price : S → ℤ
  clockMs : KeeperAction A S → ℕ
  seconds : KeeperAction A S → ℕ
  expected : Error → Bool

/-- The contracts, the claims, and what came of the actions so far; none is a success. -/
structure TickState (A S : Type) where
  env : Env A S
  dedup : TtlDedup (DedupKey A S)
  log : List (KeeperAction A S × Option Error)

namespace TickContext

variable {A S : Type} (ctx : TickContext A S)

/-- The contract call behind an action. -/
def op : KeeperAction A S → Op A S
  | .liquidatePosition trader symbol =>
      .close (.liquidate ctx.keeper trader symbol (ctx.price symbol))
  | .updateIndices symbol => .updateIndices ctx.keeper symbol (ctx.price symbol)
  | .executeOrder trader symbol =>
      .close (.executeOrder ctx.keeper trader symbol (ctx.price symbol))
  | .deleveragePosition trader symbol =>
      .close (.deleverage ctx.keeper trader symbol (ctx.price symbol))

end TickContext

namespace TickState

variable {A S : Type} [DecidableEq A] [DecidableEq S]

/-- Claim the key, ask for the action, and give the key back if the loop does so. -/
def attempt (erc : Erc4626) (ctx : TickContext A S) (t : TickState A S)
    (action : KeeperAction A S) : TickState A S :=
  let claimed := t.dedup.claim (ctx.clockMs action) action.key action.ttlMs
  if claimed.1 then
    let env := { t.env with timestamp := t.env.timestamp + ctx.seconds action }
    match env.apply erc (ctx.op action) with
    | .ok env' => ⟨env', claimed.2, t.log ++ [(action, none)]⟩
    | .error e =>
        ⟨env, if action.releasesOn (.rejected (ctx.expected e)) then claimed.2.release action.key
          else claimed.2, t.log ++ [(action, some e)]⟩
  else t

/-- `runColdTick`. -/
def runColdTick (erc : Erc4626) (ctx : TickContext A S) (config : LoopConfig)
    (world : LoopWorld A S) (t : TickState A S) : TickState A S :=
  if world.skips config then t else run (attempt erc ctx) t (world.coldActions config)

end TickState

/-! ## What the contract would execute -/

namespace Env

variable {A S : Type} [DecidableEq A] [DecidableEq S]

/-- The position is old enough and one of its orders is triggered at `price`. -/
def OrderDue (env : Env A S) (price : ℤ) (trader : A) (symbol : S) : Prop :=
  ∃ pos, env.getPosition trader symbol = some pos ∧
    pos.lastIncreasedTime + env.cfg.protocolLimits.1.minPositionLifetime ≤ env.timestamp ∧
    (isTpTriggered pos.takeProfit price pos.isLong = true ∨
      isSlTriggered pos.stopLoss price pos.isLong = true)

/-- Up to when the market has been billed. -/
def billedUntil (env : Env A S) (symbol : S) : ℕ := env.effectiveStart (env.getMarket symbol)

def coldLimitsRow (env : Env A S) : ColdLimitsRow :=
  { env.adlLimitsRow with minPositionLifetime := env.cfg.protocolLimits.1.minPositionLifetime }

section Gate

variable {erc : Erc4626} {env : Env A S} {caller trader : A} {symbol : S} {price : ℤ}

theorem executeOrderRequest_iff :
    (∃ result, env.executeOrderRequest caller trader symbol price = .ok result) ↔
      0 < price ∧ env.OrderDue price trader symbol := by
  simp only [executeOrderRequest, requireOldEnough, bind_eq_ok, orFail_eq_ok, failIf_eq_ok,
    exists_const, Except.ok.injEq, not_and_or, Bool.not_eq_false, not_lt]
  constructor
  · rintro ⟨result, pos, hpos, hage, ⟨env', tick⟩, hrefresh, htriggered, _⟩
    obtain ⟨hp, rfl, rfl⟩ := refreshTick_eq_ok.mp hrefresh
    exact ⟨hp, pos, hpos, hage, htriggered⟩
  · rintro ⟨hp, pos, hpos, hage, htriggered⟩
    exact ⟨_, pos, hpos, hage, ⟨_, _⟩, refreshTick_eq_ok.mpr ⟨hp, rfl, rfl⟩, htriggered, rfl⟩

/-- Of the contracts only the vault can refuse an order that is due. -/
theorem due_order_failsOnly (hr : Reachable erc env) (hp : 0 < price)
    (hdue : env.OrderDue price trader symbol) :
    FailsOnly (fun e => ∃ v, e = .vault v)
      (env.closePosition (.executeOrder caller trader symbol price)) := by
  have hb := reachable_books hr
  obtain ⟨⟨env1, r⟩, hrequest⟩ := executeOrderRequest_iff.mpr ⟨hp, hdue⟩
  have hclose : env.closeRequest (.executeOrder caller trader symbol price) = .ok (env1, r) :=
    hrequest
  have hready := (closeRequest_ok hclose).1
  have hkind : r.kind = .orderExecution := closeRequest_kind hclose
  have hcustody := custody_le hr hready.position
  have hcol := (hready.collateralDelta_bounds hb).2.1
  rw [closePosition_of_request hclose]
  by_cases hfits : ProfitFitsCache env r
  · refine executeClose_failsOnly hb hready (reachable_fees_nonneg hr)
      (hready.payable_of_fits hb hfits) (fun _ => ⟨_, rfl⟩) (fun hliq => ?_) fun hlt => ?_
    · rw [hkind] at hliq
      cases hliq
    · omega
  · rw [executeClose_reverts hb hready hfits]
    intro e he
    exact ⟨_, (Except.error.inj he).symm⟩

end Gate

/-! ## What an action leaves alone -/

/-- What the keeper's actions on some keys change. Positions under other keys stay, none
appears, and no market's billing goes back. -/
structure KeeperFrame (env env' : Env A S) (keys : List (DedupKey A S)) : Prop where
  timestamp : env.timestamp ≤ env'.timestamp
  cfg : env'.cfg = env.cfg
  isPaused : env'.pm.isPaused = env.pm.isPaused
  positions : ∀ trader symbol, .position trader symbol ∉ keys →
    env'.getPosition trader symbol = env.getPosition trader symbol
  gone : ∀ trader symbol, env.getPosition trader symbol = none →
    env'.getPosition trader symbol = none
  billed : ∀ symbol, env.billedUntil symbol ≤ env'.billedUntil symbol

section Frame

variable {erc : Erc4626} {env env' env'' : Env A S} {keys keys' : List (DedupKey A S)}

theorem KeeperFrame.refl (env : Env A S) (keys : List (DedupKey A S)) :
    KeeperFrame env env keys :=
  ⟨le_rfl, rfl, rfl, fun _ _ _ => rfl, fun _ _ h => h, fun _ => le_rfl⟩

theorem KeeperFrame.trans (h : KeeperFrame env env' keys) (h' : KeeperFrame env' env'' keys') :
    KeeperFrame env env'' (keys ++ keys') where
  timestamp := h.timestamp.trans h'.timestamp
  cfg := h'.cfg.trans h.cfg
  isPaused := h'.isPaused.trans h.isPaused
  positions := by
    intro trader symbol hnot
    rw [List.mem_append, not_or] at hnot
    exact (h'.positions trader symbol hnot.2).trans (h.positions trader symbol hnot.1)
  gone := fun trader symbol hnone => h'.gone trader symbol (h.gone trader symbol hnone)
  billed := fun symbol => (h.billed symbol).trans (h'.billed symbol)

omit [DecidableEq A] in
/-- Billing a market moves its clock forward, to the present if the protocol is awake. -/
theorem billedUntil_freshMarket (env : Env A S) (symbol : S) :
    env.billedUntil symbol ≤ env.effectiveStart (env.freshMarket symbol) ∧
      (env.pm.isPaused = false →
        env.timestamp ≤ env.effectiveStart (env.freshMarket symbol)) := by
  have hdelta : env.timeDelta (env.getMarket symbol) = env.effectiveNow (env.getMarket symbol) -
      max (env.getMarket symbol).lastIndexUpdate env.pm.lastUnpauseTime := by
    rw [← effectiveStart_eq_max]
    rfl
  have hnow : env.pm.isPaused = false → env.effectiveNow (env.getMarket symbol) = env.timestamp :=
    fun hawake => by simp [effectiveNow, hawake]
  simp only [billedUntil, freshMarket, accrue]
  split_ifs with hpos
  · simp only [effectiveStart_eq_max]
    refine ⟨by omega, fun hawake => ?_⟩
    have := hnow hawake
    omega
  · rw [effectiveStart_eq_max]
    refine ⟨le_rfl, fun hawake => ?_⟩
    have := hnow hawake
    omega

omit [DecidableEq A] in
theorem billed_of_freshMarket (symbol : S)
    (hstart : env'.pm.lastUnpauseTime = env.pm.lastUnpauseTime)
    (hfresh : (env'.getMarket symbol).lastIndexUpdate = (env.freshMarket symbol).lastIndexUpdate)
    (hsame : ∀ other, other ≠ symbol → env'.getMarket other = env.getMarket other) (other : S) :
    env.billedUntil other ≤ env'.billedUntil other := by
  by_cases hother : other = symbol
  · subst hother
    refine (billedUntil_freshMarket env other).1.trans ?_
    rw [billedUntil, effectiveStart_eq_max, effectiveStart_eq_max, hstart, hfresh]
  · rw [billedUntil, billedUntil, effectiveStart_eq_max, effectiveStart_eq_max, hstart,
      hsame other hother]

theorem keeperFrame_advance (env : Env A S) (seconds : ℕ) :
    KeeperFrame env { env with timestamp := env.timestamp + seconds } [] where
  timestamp := Nat.le_add_right _ _
  cfg := rfl
  isPaused := rfl
  positions := fun _ _ _ => rfl
  gone := fun _ _ h => h
  billed := by
    intro symbol
    simp only [billedUntil, effectiveStart_eq_max, getMarket]
    cases env.pm.markets.lookup symbol with
    | none =>
        simp only [Option.getD_none, MarketInfo.empty]
        omega
    | some m => exact le_rfl

theorem keeperFrame_close {call : CloseCall A S} (h : env.closePosition call = .ok env') :
    KeeperFrame env env' [.position call.trader call.symbol] := by
  obtain ⟨r, hnames, hready, heffect⟩ := closePosition_ok h
  refine ⟨heffect.timestamp.ge, heffect.cfg, by rw [heffect.pm], ?_, ?_, ?_⟩
  · intro trader symbol hne
    have hkey : (trader, symbol) ≠ (r.trader, r.symbol) := by
      rw [hnames.trader, hnames.symbol]
      rintro ⟨⟩
      exact hne List.mem_cons_self
    simp only [getPosition, heffect.positions, lookup_settledPositions_of_ne hkey]
  · intro trader symbol hnone
    by_contra hsome
    obtain ⟨pos, hpos⟩ := Option.ne_none_iff_exists'.mp hsome
    rw [getPosition, heffect.positions] at hpos
    obtain ⟨hkey, _⟩ | ⟨_, hold⟩ := lookup_settledPositions hpos
    · obtain ⟨rfl, rfl⟩ := Prod.mk.inj hkey
      rw [hready.position] at hnone
      cases hnone
    · rw [getPosition, hold] at hnone
      cases hnone
  · have hmarket : ∀ other, env'.getMarket other =
        if other = r.symbol then r.closedMarket else env.getMarket other := by
      intro other
      rw [← getMarket_setMarket, getMarket, getMarket, heffect.markets, heffect.timestamp]
      rfl
    refine billed_of_freshMarket r.symbol (by rw [heffect.pm]) ?_ ?_
    · rw [hmarket, if_pos rfl, CloseRequest.closedMarket, hready.market_eq]
      cases r.pos.isLong <;> rfl
    · intro other hother
      rw [hmarket, if_neg hother]

/-- What the keeper closes it closes whole. -/
theorem gone_of_closePosition {call : CloseCall A S} (hkind : call.kind ≠ .user)
    (h : env.closePosition call = .ok env') : env'.getPosition call.trader call.symbol = none := by
  obtain ⟨⟨env1, r⟩, hrequest, hclose⟩ := bind_eq_ok.mp h
  obtain ⟨hready, hnames⟩ := closeRequest_ok hrequest
  obtain rfl := hready.refreshed
  have hwhole := hready.whole (by rwa [closeRequest_kind hrequest])
  rw [getPosition, (executeClose_ok hclose).positions, settledPositions, if_pos hwhole,
    ← hnames.trader, ← hnames.symbol]
  exact AList.lookup_erase _ _

/-- An accepted update bills its market up to the present. -/
theorem keeperFrame_updateIndices {caller : A} {symbol : S} {price : ℤ}
    (h : env.updateIndices caller symbol price = .ok env') :
    KeeperFrame env env' [.indices symbol] ∧ env.timestamp ≤ env'.billedUntil symbol := by
  obtain ⟨hawake, -, rfl⟩ := updateIndices_ok h
  have hfresh := getMarket_freshEnv_self env symbol
  have hother := fun other (hne : other ≠ symbol) => getMarket_freshEnv_of_ne env hne
  obtain ⟨markets, heq⟩ := env.freshEnv_eq symbol
  rw [heq] at hfresh hother ⊢
  refine ⟨⟨le_rfl, rfl, rfl, fun _ _ _ => rfl, fun _ _ hnone => hnone, ?_⟩, ?_⟩
  · exact billed_of_freshMarket symbol rfl (congrArg MarketInfo.lastIndexUpdate hfresh) hother
  · refine ((billedUntil_freshMarket env symbol).2 hawake).trans (le_of_eq ?_)
    exact congrArg env.effectiveStart hfresh.symm

theorem keeperFrame_op {ctx : TickContext A S} {action : KeeperAction A S}
    (h : env.apply erc (ctx.op action) = .ok env') : KeeperFrame env env' [action.key] := by
  cases action with
  | updateIndices symbol => exact (keeperFrame_updateIndices h).1
  | liquidatePosition trader symbol => exact keeperFrame_close h
  | executeOrder trader symbol => exact keeperFrame_close h
  | deleveragePosition trader symbol => exact keeperFrame_close h

/-- A role and the switch are all an update needs beside a price. -/
theorem updateIndices_isOk_iff {caller : A} {symbol : S} {price : ℤ} :
    (∃ env', env.updateIndices caller symbol price = .ok env') ↔
      env.pm.isPaused = false ∧ env.cfg.hasRole .keeper caller = true ∧ 0 < price := by
  simp only [updateIndices, requireNotPaused, requireRole, bind_eq_ok, failIf_eq_ok, exists_const,
    Bool.not_eq_true, Bool.not_eq_false]
  constructor
  · rintro ⟨env', hawake, hrole, ⟨env1, tick⟩, hrefresh, _⟩
    exact ⟨hawake, hrole, (refreshTick_eq_ok.mp hrefresh).1⟩
  · rintro ⟨hawake, hrole, hp⟩
    exact ⟨_, hawake, hrole, ⟨_, _⟩, refreshTick_eq_ok.mpr ⟨hp, rfl, rfl⟩,
      refreshMarketUnrealizedPnl_eq _ _ _⟩

end Frame

end Env

/-! ## A tick's attempts -/

namespace TickState

variable {A S : Type} [DecidableEq A] [DecidableEq S]

/-- The action finds no live claim on its key. -/
def Granted (ctx : TickContext A S) (t : TickState A S) (action : KeeperAction A S) : Prop :=
  ∀ expiresAt, t.dedup.entries action.key = some expiresAt → expiresAt ≤ ctx.clockMs action

/-- The state in which a granted action reaches the chain. -/
def reached (ctx : TickContext A S) (t : TickState A S) (action : KeeperAction A S) : Env A S :=
  { t.env with timestamp := t.env.timestamp + ctx.seconds action }

/-- The action reached the chain, which accepted or refused it. -/
structure Asked (erc : Erc4626) (ctx : TickContext A S) (t t' : TickState A S)
    (action : KeeperAction A S) (refusal : Option Error) : Prop where
  log : t'.log = t.log ++ [(action, refusal)]
  dedup : ∀ key, key ≠ action.key → t'.dedup.entries key = t.dedup.entries key
  accepted : refusal = none → (t.reached ctx action).apply erc (ctx.op action) = .ok t'.env
  refused : ∀ e, refusal = some e → t'.env = t.reached ctx action ∧
    (t.reached ctx action).apply erc (ctx.op action) = .error e

variable {erc : Erc4626} {ctx : TickContext A S} {t t' : TickState A S}
  {action : KeeperAction A S} {actions : List (KeeperAction A S)}

theorem attempt_cases (erc : Erc4626) (ctx : TickContext A S) (t : TickState A S)
    (action : KeeperAction A S) :
    (¬t.Granted ctx action ∧ t.attempt erc ctx action = t) ∨
      (t.Granted ctx action ∧ ∃ refusal, Asked erc ctx t (t.attempt erc ctx action) action
        refusal) := by
  have hiff : (t.dedup.claim (ctx.clockMs action) action.key action.ttlMs).1 = true ↔
      t.Granted ctx action := TtlDedup.claim_granted_iff
  by_cases hgranted : t.Granted ctx action
  · have hclaim := hiff.mpr hgranted
    have hentries := TtlDedup.claim_entries hclaim
    refine .inr ⟨hgranted, ?_⟩
    simp only [attempt, if_pos hclaim]
    cases happly : Env.apply erc { t.env with timestamp := t.env.timestamp + ctx.seconds action }
        (ctx.op action) with
    | ok env' =>
        refine ⟨none, rfl, ?_, fun _ => happly, ?_⟩
        · intro key hne
          rw [hentries, Function.update_of_ne hne]
        · rintro e ⟨⟩
    | error e =>
        refine ⟨some e, rfl, ?_, ?_, ?_⟩
        · intro key hne
          simp only
          split_ifs
          · simp only [TtlDedup.release, hentries, Function.update_of_ne hne]
          · rw [hentries, Function.update_of_ne hne]
        · rintro ⟨⟩
        · rintro _ ⟨⟩
          exact ⟨rfl, happly⟩
  · exact .inl ⟨hgranted, by simp only [attempt, if_neg (hiff.not.mpr hgranted)]⟩

theorem frame_attempt (erc : Erc4626) (ctx : TickContext A S) (t : TickState A S)
    (action : KeeperAction A S) :
    Env.KeeperFrame t.env (t.attempt erc ctx action).env [action.key] := by
  obtain ⟨-, heq⟩ | ⟨-, refusal, hasked⟩ := attempt_cases erc ctx t action
  · rw [heq]
    exact .refl _ _
  · have hwait := Env.keeperFrame_advance t.env (ctx.seconds action)
    cases refusal with
    | none => exact hwait.trans (Env.keeperFrame_op (hasked.accepted rfl))
    | some e =>
        rw [(hasked.refused e rfl).1]
        exact hwait.trans (.refl _ _)

theorem frame_run (erc : Erc4626) (ctx : TickContext A S) (t : TickState A S)
    (actions : List (KeeperAction A S)) :
    Env.KeeperFrame t.env (run (attempt erc ctx) t actions).env (actions.map (·.key)) := by
  induction actions generalizing t with
  | nil => exact .refl _ _
  | cons action rest ih => exact (frame_attempt erc ctx t action).trans (ih _)

theorem reachable_reached (hr : Env.Reachable erc t.env) :
    Env.Reachable erc (t.reached ctx action) := by
  have hadvance : t.env.apply erc (.advance (ctx.seconds action)) = .ok (t.reached ctx action) :=
    rfl
  exact hr.apply hadvance

theorem reachable_attempt (hr : Env.Reachable erc t.env) :
    Env.Reachable erc (t.attempt erc ctx action).env := by
  have hwait : Env.Reachable erc (t.reached ctx action) := reachable_reached hr
  obtain ⟨-, heq⟩ | ⟨-, refusal, hasked⟩ := attempt_cases erc ctx t action
  · rwa [heq]
  · cases refusal with
    | none => exact hwait.apply (hasked.accepted rfl)
    | some e => rwa [(hasked.refused e rfl).1]

theorem reachable_run (hr : Env.Reachable erc t.env) (actions : List (KeeperAction A S)) :
    Env.Reachable erc (run (attempt erc ctx) t actions).env :=
  run_invariant' actions (fun (t : TickState A S) _ (ht : Env.Reachable erc t.env) =>
    reachable_attempt ht) hr

/-- Actions touch no claim but those on their own keys. -/
theorem entries_run {key : DedupKey A S} (hnot : key ∉ actions.map (·.key)) :
    (run (attempt erc ctx) t actions).dedup.entries key = t.dedup.entries key := by
  induction actions generalizing t with
  | nil => rfl
  | cons action rest ih =>
      rw [List.map_cons, List.mem_cons, not_or] at hnot
      rw [run_cons, ih hnot.2]
      obtain ⟨-, heq⟩ | ⟨-, refusal, hasked⟩ := attempt_cases erc ctx t action
      · rw [heq]
      · exact hasked.dedup key hnot.1

theorem mem_log_run {entry : KeeperAction A S × Option Error} (h : entry ∈ t.log) :
    entry ∈ (run (attempt erc ctx) t actions).log := by
  induction actions generalizing t with
  | nil => exact h
  | cons action rest ih =>
      refine ih ?_
      obtain ⟨-, heq⟩ | ⟨-, refusal, hasked⟩ := attempt_cases erc ctx t action
      · rwa [heq]
      · rw [hasked.log]
        exact List.mem_append_left _ h

/-- An action whose key no earlier one shares gets its turn if it was free at the start. -/
theorem asked_of_granted {before after : List (KeeperAction A S)}
    (hfirst : action.key ∉ before.map (·.key)) (hgranted : t.Granted ctx action) :
    ∃ refusal, (action, refusal) ∈ (run (attempt erc ctx) t (before ++ action :: after)).log := by
  rw [run_append, run_cons]
  obtain ⟨hlive, -⟩ | ⟨-, refusal, hasked⟩ :=
    attempt_cases erc ctx (run (attempt erc ctx) t before) action
  · refine absurd ?_ hlive
    rw [Granted, entries_run hfirst]
    exact hgranted
  · refine ⟨refusal, mem_log_run ?_⟩
    rw [hasked.log]
    exact List.mem_append_right _ List.mem_cons_self

/-! ## What the log says -/

/-- An executed order leaves no position behind, and only the vault refuses one. An update
succeeds for the keeper of an awake protocol, and bills up to `start` at least. -/
def Honest (ctx : TickContext A S) (start : ℕ) (env : Env A S) :
    KeeperAction A S × Option Error → Prop
  | (.executeOrder trader symbol, none) => env.getPosition trader symbol = none
  | (.executeOrder _ _, some e) => ∃ v, e = .vault v
  | (.updateIndices symbol, none) => start ≤ env.billedUntil symbol
  | (.updateIndices symbol, some _) => ¬(env.pm.isPaused = false ∧
      env.cfg.hasRole .keeper ctx.keeper = true ∧ 0 < ctx.price symbol)
  | _ => True

/-- The orders among the actions are due when the first action's turn comes. -/
def OrdersDue (ctx : TickContext A S) (env : Env A S) (actions : List (KeeperAction A S)) : Prop :=
  ∀ trader symbol, .executeOrder trader symbol ∈ actions →
    0 < ctx.price symbol ∧ env.OrderDue (ctx.price symbol) trader symbol

variable {start : ℕ}

theorem Honest.frame {env env' : Env A S} {keys : List (DedupKey A S)}
    {entry : KeeperAction A S × Option Error} (h : Honest ctx start env entry)
    (hframe : Env.KeeperFrame env env' keys) : Honest ctx start env' entry := by
  obtain ⟨action, refusal⟩ := entry
  cases action with
  | executeOrder trader symbol =>
      cases refusal with
      | none => exact hframe.gone _ _ h
      | some e => exact h
  | updateIndices symbol =>
      cases refusal with
      | none => exact h.trans (hframe.billed symbol)
      | some e =>
          simp only [Honest, hframe.isPaused, hframe.cfg]
          exact h
  | _ => exact trivial

/-- An order that is due stays so while the keeper works on other keys. -/
theorem orderDue_frame {env env' : Env A S} {keys : List (DedupKey A S)} {price : ℤ} {trader : A}
    {symbol : S} (hframe : Env.KeeperFrame env env' keys)
    (hkey : .position trader symbol ∉ keys) (hdue : env.OrderDue price trader symbol) :
    env'.OrderDue price trader symbol := by
  obtain ⟨pos, hpos, hage, htriggered⟩ := hdue
  refine ⟨pos, ?_, ?_, htriggered⟩
  · rw [hframe.positions trader symbol hkey, hpos]
  · rw [hframe.cfg]
    exact hage.trans hframe.timestamp

theorem honest_attempt (hr : Env.Reachable erc t.env) (hstart : start ≤ t.env.timestamp)
    (hdue : OrdersDue ctx t.env [action]) (hlog : ∀ entry ∈ t.log, Honest ctx start t.env entry) :
    ∀ entry ∈ (t.attempt erc ctx action).log,
      Honest ctx start (t.attempt erc ctx action).env entry := by
  have hframe := frame_attempt erc ctx t action
  have hwait := Env.keeperFrame_advance t.env (ctx.seconds action)
  have hreached : Env.Reachable erc (t.reached ctx action) := reachable_reached hr
  obtain ⟨-, heq⟩ | ⟨-, refusal, hasked⟩ := attempt_cases erc ctx t action
  · rwa [heq]
  rw [hasked.log]
  intro entry hentry
  obtain hold | hnew := List.mem_append.mp hentry
  · exact (hlog entry hold).frame hframe
  obtain rfl := List.mem_singleton.mp hnew
  cases action with
  | executeOrder trader symbol =>
      obtain ⟨hp, hdue⟩ := hdue trader symbol List.mem_cons_self
      have hlater := orderDue_frame hwait List.not_mem_nil hdue
      cases refusal with
      | none =>
          have hclosed : (t.reached ctx (.executeOrder trader symbol)).closePosition
              (.executeOrder ctx.keeper trader symbol (ctx.price symbol)) = .ok _ :=
            hasked.accepted rfl
          exact Env.gone_of_closePosition (by simp [CloseCall.kind]) hclosed
      | some e =>
          exact Env.due_order_failsOnly hreached hp hlater e (hasked.refused e rfl).2
  | updateIndices symbol =>
      cases refusal with
      | none =>
          have hbilled := (Env.keeperFrame_updateIndices (hasked.accepted rfl)).2
          exact (hstart.trans hwait.timestamp).trans hbilled
      | some e =>
          obtain ⟨henv, hrefused⟩ := hasked.refused e rfl
          rw [henv]
          intro hready
          obtain ⟨env', hok⟩ := Env.updateIndices_isOk_iff.mpr hready
          cases hok.symm.trans hrefused
  | _ => exact trivial

theorem honest_run (hr : Env.Reachable erc t.env) (hstart : start ≤ t.env.timestamp)
    (hkeys : (actions.map (·.key)).Nodup) (hdue : OrdersDue ctx t.env actions)
    (hlog : ∀ entry ∈ t.log, Honest ctx start t.env entry) :
    ∀ entry ∈ (run (attempt erc ctx) t actions).log,
      Honest ctx start (run (attempt erc ctx) t actions).env entry := by
  induction actions generalizing t with
  | nil => exact hlog
  | cons action rest ih =>
      have hframe := frame_attempt erc ctx t action
      rw [List.map_cons, List.nodup_cons] at hkeys
      refine ih (reachable_attempt hr) (hstart.trans hframe.timestamp) hkeys.2 ?_
        (honest_attempt hr hstart ?_ hlog)
      · intro trader symbol hmem
        obtain ⟨hp, hdue⟩ := hdue trader symbol (List.mem_cons_of_mem _ hmem)
        refine ⟨hp, orderDue_frame hframe (fun hkey => hkeys.1 ?_) hdue⟩
        rw [← List.mem_singleton.mp hkey]
        exact List.mem_map_of_mem hmem
      · intro trader symbol hmem
        exact hdue trader symbol (List.mem_cons.mpr (.inl (List.mem_singleton.mp hmem)))

end TickState

/-! ## What the tick selects -/

namespace LoopWorld

variable {A S : Type} [DecidableEq A] [DecidableEq S] {world : LoopWorld A S} {config : LoopConfig}

theorem mem_triggeredOrders {trader : A} {symbol : S} :
    (trader, symbol) ∈ world.triggeredOrders ↔ ∃ row,
      world.positions.lookup (trader, symbol) = some row ∧
        world.orderTriggered symbol row = true := by
  simp only [triggeredOrders, List.mem_map, List.mem_filter]
  constructor
  · rintro ⟨⟨key, row⟩, ⟨hmem, htriggered⟩, rfl⟩
    exact ⟨row, mem_entries_iff.mp hmem, htriggered⟩
  · rintro ⟨row, hrow, htriggered⟩
    exact ⟨⟨(trader, symbol), row⟩, ⟨mem_entries_iff.mpr hrow, htriggered⟩, rfl⟩

omit [DecidableEq A] [DecidableEq S] in
theorem executeOrder_mem_coldActions {trader : A} {symbol : S} :
    .executeOrder trader symbol ∈ world.coldActions config ↔
      (trader, symbol) ∈ world.triggeredOrders := by
  simp [coldActions, upkeep]

omit [DecidableEq A] [DecidableEq S] in
theorem executeOrder_mem_upkeep {trader : A} {symbol : S} :
    .executeOrder trader symbol ∈ world.upkeep config ↔
      (trader, symbol) ∈ world.triggeredOrders := by
  simp [upkeep]

omit [DecidableEq A] [DecidableEq S] in
/-- No two actions of the upkeep share a key. -/
theorem upkeep_keys_nodup : ((world.upkeep config).map (·.key)).Nodup := by
  have hmarkets : (world.staleMarkets config).Nodup := by
    unfold staleMarkets
    split_ifs
    · exact List.nodup_nil
    · exact (List.filter_sublist.map _).nodup world.markets.keys_nodup
  have horders : world.triggeredOrders.Nodup :=
    (List.filter_sublist.map _).nodup world.positions.keys_nodup
  rw [upkeep, List.map_append, List.map_map, List.map_map, List.nodup_append]
  refine ⟨hmarkets.map fun a b h => ?_, horders.map fun a b h => ?_, ?_⟩
  · simpa [KeeperAction.key] using h
  · simpa [KeeperAction.key, Prod.ext_iff] using h
  · intro a ha b hb
    obtain ⟨symbol, -, rfl⟩ := List.mem_map.mp ha
    obtain ⟨key, -, rfl⟩ := List.mem_map.mp hb
    simp [KeeperAction.key]

end LoopWorld

namespace Env

variable {A S : Type} [DecidableEq A] [DecidableEq S] {erc : Erc4626} {env : Env A S}
  {prices : S → Option ℤ}

/-- The world the loop loads from rows that mirror the chain. -/
def coldWorld (env : Env A S) (prices : S → Option ℤ) (lastLedgerCloseTime : Option ℤ) :
    LoopWorld A S :=
  loadLoopWorld env.mirrored (some env.coldLimitsRow) lastLedgerCloseTime prices env.timestamp

/-- A position's market is stored: its open interest counts the position. -/
theorem market_stored (hb : Books env) {trader : A} {symbol : S} {pos : Position}
    (hpos : env.getPosition trader symbol = some pos) :
    ∃ m, env.pm.markets.lookup symbol = some m := by
  by_contra hnone
  push Not at hnone
  have hside := hb.side symbol pos.isLong
  have hle := le_total (sideSize_nonneg hb symbol pos.isLong) hpos
  have hown : sideSize symbol pos.isLong (trader, symbol) pos = pos.size := if_pos ⟨rfl, rfl⟩
  have hsize := (hb.wellFormed _ _ hpos).size_pos
  have hempty : (MarketInfo.empty env.timestamp).openInterest pos.isLong = 0 := by
    cases pos.isLong <;> rfl
  rw [getMarket, Option.eq_none_iff_forall_ne_some.mpr hnone, Option.getD_none, hempty] at hside
  rw [hown] at hle
  omega

theorem isTpTriggered_zero (price : ℤ) (isLong : Bool) : isTpTriggered 0 price isLong = false := rfl

theorem isSlTriggered_zero (price : ℤ) (isLong : Bool) : isSlTriggered 0 price isLong = false := rfl

/-- The tick's choice of orders is the contract's. -/
theorem triggeredOrders_iff (hb : Books env) (lastLedgerCloseTime : Option ℤ) {trader : A}
    {symbol : S} {mark : ℤ} (hprice : prices symbol = some mark) :
    (trader, symbol) ∈ (env.coldWorld prices lastLedgerCloseTime).triggeredOrders ↔
      env.OrderDue mark trader symbol := by
  have hrows : (env.coldWorld prices lastLedgerCloseTime).positions.lookup (trader, symbol) =
      (env.getPosition trader symbol).map (·.row) := lookup_mapRows _ _ _
  rw [LoopWorld.mem_triggeredOrders, hrows]
  cases hpos : env.getPosition trader symbol with
  | none => simp [OrderDue, hpos]
  | some pos =>
      obtain ⟨m, hm⟩ := market_stored hb hpos
      have htick : (env.coldWorld prices lastLedgerCloseTime).ticks symbol =
          some (env.keeperTick symbol m mark) := ticks_mirrored hm hprice
      have hage : (env.coldWorld prices lastLedgerCloseTime).now - pos.row.lastIncreasedTime <
          (env.coldWorld prices lastLedgerCloseTime).limits.elim 0 (·.minPositionLifetime) ↔
          env.timestamp < pos.lastIncreasedTime + env.cfg.protocolLimits.1.minPositionLifetime := by
        change (env.timestamp : ℤ) - pos.lastIncreasedTime <
          env.cfg.protocolLimits.1.minPositionLifetime ↔ _
        omega
      have hports :
          ((env.keeperTick symbol m mark).isTpTriggered pos.row.takeProfit pos.row.isLong ||
            (env.keeperTick symbol m mark).isSlTriggered pos.row.stopLoss pos.row.isLong) =
            (isTpTriggered pos.takeProfit mark pos.isLong ||
              isSlTriggered pos.stopLoss mark pos.isLong) := rfl
      simp only [Option.map_some, Option.some.injEq, exists_eq_left', OrderDue, hpos,
        LoopWorld.orderTriggered, htick, hage, hports]
      by_cases hnone : pos.row.takeProfit = 0 ∧ pos.row.stopLoss = 0
      · have htp : pos.takeProfit = 0 := hnone.1
        have hsl : pos.stopLoss = 0 := hnone.2
        simp [hnone, htp, hsl, isTpTriggered_zero, isSlTriggered_zero]
      · rw [if_neg hnone]
        split_ifs with hyoung
        · simp [hyoung]
        · simp [not_lt.mp hyoung]

/-- Without a price in the mirror an order is passed over. -/
theorem triggeredOrders_iff_due (hb : Books env) (lastLedgerCloseTime : Option ℤ)
    {ctx : TickContext A S} (hprices : ∀ symbol mark, prices symbol = some mark →
      ctx.price symbol = mark ∧ 0 < mark) (trader : A) (symbol : S) :
    (trader, symbol) ∈ (env.coldWorld prices lastLedgerCloseTime).triggeredOrders ↔
      (prices symbol).isSome ∧ 0 < ctx.price symbol ∧
        env.OrderDue (ctx.price symbol) trader symbol := by
  cases hprice : prices symbol with
  | some mark =>
      obtain ⟨heq, hp⟩ := hprices symbol mark hprice
      rw [triggeredOrders_iff hb _ hprice, heq]
      simp [hp]
  | none =>
      have htick : (env.coldWorld prices lastLedgerCloseTime).ticks symbol = none := by
        simp [coldWorld, loadLoopWorld, loadKeeperWorld, hprice]
      refine iff_of_false (fun hmem => ?_) (by simp)
      obtain ⟨row, -, htriggered⟩ := LoopWorld.mem_triggeredOrders.mp hmem
      simp [LoopWorld.orderTriggered, htick] at htriggered

omit [DecidableEq A] in
theorem updateIndices_mem_upkeep {lastLedgerCloseTime : Option ℤ} {config : LoopConfig} {symbol : S}
    {m : MarketInfo} (hawake : env.vault.isPaused = false)
    (hm : env.pm.markets.lookup symbol = some m)
    (hoi : m.longOpenInterest + m.shortOpenInterest ≠ 0)
    (hstale : m.lastIndexUpdate + config.indexUpdateThresholdSec < env.timestamp) :
    .updateIndices symbol ∈ (env.coldWorld prices lastLedgerCloseTime).upkeep config := by
  have hrow : env.mirrored.markets.lookup symbol = some (env.marketRow symbol m) := by
    simp [mirrored, hm]
  have hvault : (env.coldWorld prices lastLedgerCloseTime).vault.elim false (·.isPaused) = false :=
    hawake
  refine List.mem_append_left _ (List.mem_map_of_mem ?_)
  simp only [LoopWorld.staleMarkets, hvault, Bool.false_eq_true, if_false]
  refine List.mem_map.mpr ⟨⟨symbol, env.marketRow symbol m⟩, ?_, rfl⟩
  refine List.mem_filter.mpr ⟨mem_entries_iff.mpr hrow, decide_eq_true ⟨hoi, ?_⟩⟩
  change (env.timestamp : ℤ) - m.lastIndexUpdate > config.indexUpdateThresholdSec
  omega

/-- What a cold tick does for the protocol: it asks for the orders the contract would
execute and for no others, each of them is executed unless the vault cannot pay, and no
market with positions is left unbilled for longer than the threshold. -/
structure ColdTickServes (ctx : TickContext A S) (config : LoopConfig) (prices : S → Option ℤ)
    (world : LoopWorld A S) (before after : TickState A S) : Prop where
  selects : ∀ trader symbol, .executeOrder trader symbol ∈ world.coldActions config ↔
    (prices symbol).isSome ∧ ∃ result, before.env.executeOrderRequest ctx.keeper trader symbol
      (ctx.price symbol) = .ok result
  executes : ∀ trader symbol, .executeOrder trader symbol ∈ world.coldActions config →
    before.Granted ctx (.executeOrder trader symbol) →
    after.env.getPosition trader symbol = none ∨
      ∃ v, (.executeOrder trader symbol, some (.vault v)) ∈ after.log
  refuses : ∀ trader symbol e, (.executeOrder trader symbol, some e) ∈ after.log →
    ∃ v, e = .vault v
  bills : before.env.pm.isPaused = false → before.env.vault.isPaused = false →
    before.env.cfg.hasRole .keeper ctx.keeper = true → 0 ≤ config.indexUpdateThresholdSec →
    ∀ symbol m, before.env.pm.markets.lookup symbol = some m →
      m.longOpenInterest + m.shortOpenInterest ≠ 0 → 0 < ctx.price symbol →
      before.Granted ctx (.updateIndices symbol) →
      (before.env.timestamp : ℤ) ≤
        after.env.billedUntil symbol + config.indexUpdateThresholdSec

/-- A cold tick on rows that mirror the chain serves the protocol, however long its actions
take. -/
theorem cold_tick_serves (erc : Erc4626) (env : Env A S) (dedup : TtlDedup (DedupKey A S))
    (ctx : TickContext A S) (config : LoopConfig) (prices : S → Option ℤ)
    (lastLedgerCloseTime : Option ℤ) (hr : Reachable erc env)
    (hprices : ∀ symbol mark, prices symbol = some mark → ctx.price symbol = mark ∧ 0 < mark)
    (hfresh : (env.coldWorld prices lastLedgerCloseTime).skips config = false) :
    ColdTickServes ctx config prices (env.coldWorld prices lastLedgerCloseTime) ⟨env, dedup, []⟩
      (TickState.runColdTick erc ctx config (env.coldWorld prices lastLedgerCloseTime)
        ⟨env, dedup, []⟩) := by
  have hb := reachable_books hr
  have hdue := triggeredOrders_iff_due hb lastLedgerCloseTime hprices
  set world := env.coldWorld prices lastLedgerCloseTime
  set before : TickState A S := ⟨env, dedup, []⟩
  set upkept := run (TickState.attempt erc ctx) before (world.upkeep config) with hupkept
  set deleverage : List (KeeperAction A S) :=
    world.adlTarget.toList.map fun key => .deleveragePosition key.1 key.2
  have hrun : TickState.runColdTick erc ctx config world before =
      run (TickState.attempt erc ctx) upkept deleverage := by
    rw [TickState.runColdTick, hfresh, if_neg Bool.false_ne_true, LoopWorld.coldActions, run_append]
  rw [hrun]
  have hframe := TickState.frame_run erc ctx before (world.upkeep config)
  have hlast := TickState.frame_run erc ctx upkept deleverage
  have hupkeep : ∀ entry ∈ upkept.log, TickState.Honest ctx env.timestamp upkept.env entry := by
    refine TickState.honest_run hr le_rfl LoopWorld.upkeep_keys_nodup ?_ (by simp [before])
    intro trader symbol hmem
    exact ((hdue trader symbol).mp (LoopWorld.executeOrder_mem_upkeep.mp hmem)).2
  have hhonest : ∀ entry ∈ (run (TickState.attempt erc ctx) upkept deleverage).log,
      TickState.Honest ctx env.timestamp (run (TickState.attempt erc ctx) upkept deleverage).env
        entry := by
    refine TickState.honest_run (TickState.reachable_run hr _) hframe.timestamp ?_ ?_ hupkeep
    · cases hadl : world.adlTarget with
      | none => simp [deleverage, hadl]
      | some key => simp [deleverage, hadl]
    · intro trader symbol hmem
      simp [deleverage] at hmem
  -- an upkeep action that was free at the start is in the log at the end
  have hasked : ∀ action ∈ world.upkeep config, before.Granted ctx action →
      ∃ refusal, (action, refusal) ∈ (run (TickState.attempt erc ctx) upkept deleverage).log := by
    intro action hmem hgranted
    obtain ⟨earlier, later, hsplit⟩ := List.append_of_mem hmem
    have hkeys : ((world.upkeep config).map (·.key)).Nodup := LoopWorld.upkeep_keys_nodup
    rw [hsplit, List.map_append, List.map_cons, List.nodup_append] at hkeys
    have hfirst : action.key ∉ earlier.map (·.key) := fun hkey =>
      hkeys.2.2 _ hkey _ List.mem_cons_self rfl
    have hturn : ∃ refusal, (action, refusal) ∈ upkept.log := by
      rw [hupkept, hsplit]
      exact TickState.asked_of_granted hfirst hgranted
    obtain ⟨refusal, hlog⟩ := hturn
    exact ⟨refusal, TickState.mem_log_run hlog⟩
  refine ⟨?_, ?_, ?_, ?_⟩
  · intro trader symbol
    rw [LoopWorld.executeOrder_mem_coldActions, hdue, executeOrderRequest_iff]
  · intro trader symbol hmem hgranted
    rw [LoopWorld.executeOrder_mem_coldActions, ← LoopWorld.executeOrder_mem_upkeep] at hmem
    obtain ⟨refusal, hlog⟩ := hasked _ hmem hgranted
    cases refusal with
    | none => exact .inl (hhonest _ hlog)
    | some e =>
        obtain ⟨v, rfl⟩ := hhonest _ hlog
        exact .inr ⟨v, hlog⟩
  · intro trader symbol e hlog
    exact hhonest _ hlog
  · intro hawake hvault hrole hthreshold symbol m hm hoi hp hgranted
    by_cases hstale : m.lastIndexUpdate + config.indexUpdateThresholdSec < env.timestamp
    · have hmem : .updateIndices symbol ∈ world.upkeep config :=
        updateIndices_mem_upkeep hvault hm hoi hstale
      obtain ⟨refusal, hlog⟩ := hasked _ hmem hgranted
      have hentry := hhonest _ hlog
      cases refusal with
      | none =>
          have hbilled : env.timestamp ≤ _ := hentry
          change (env.timestamp : ℤ) ≤ _
          omega
      | some e =>
          refine absurd ⟨?_, ?_, hp⟩ hentry
          · rw [hlast.isPaused, hframe.isPaused]
            exact hawake
          · rw [hlast.cfg, hframe.cfg]
            exact hrole
    · have hbilled := (hframe.billed symbol).trans (hlast.billed symbol)
      have hbefore : m.lastIndexUpdate ≤ env.billedUntil symbol := by
        rw [billedUntil, getMarket_of_lookup hm, effectiveStart_eq_max]
        exact le_max_left _ _
      have hle := hbefore.trans hbilled
      change (env.timestamp : ℤ) ≤ _
      omega

/-- A long of ten times its collateral whose profit is to be taken at 120 percent, which the
price has reached an hour later. -/
theorem cold_tick_serves_takeProfit :
    let env := deployed 100000000000
      [.increase ⟨2, 0, 10000000000, 1000000000, true, 1200000000, 0, 0, 1000000000⟩,
        .advance 3600]
    let world := env.coldWorld (fun _ => some 1250000000) (some 4590)
    let ctx : TickContext ℕ ℕ := ⟨0, fun _ => 1250000000, fun _ => 0, fun _ => 5, fun _ => false⟩
    (2, 0) ∈ world.triggeredOrders ∧ ColdTickServes ctx ⟨⟨8000⟩, 30, 60⟩
      (fun _ => some 1250000000) world ⟨env, ⟨fun _ => none⟩, []⟩
      (TickState.runColdTick offsetErc ctx ⟨⟨8000⟩, 30, 60⟩ world ⟨env, ⟨fun _ => none⟩, []⟩) := by
  intro env world ctx
  refine ⟨by decide +kernel, cold_tick_serves offsetErc env _ ctx _ _ _ (reachable_deployed _ _)
    ?_ (by decide +kernel)⟩
  rintro symbol mark ⟨⟩
  exact ⟨rfl, by decide⟩

end Env

end Stellars
