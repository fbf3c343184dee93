import Stellars.Books

/-!
# When indices advance

An operation that refreshes a market advances the indices of that market and of
no other. Between refreshes a market carries unbilled time: the length of its
awake window so far.
-/
namespace Stellars
open GuardedRuns KeyedTotals

namespace Env

variable {A S : Type} [DecidableEq A] [DecidableEq S]

/-- The seconds the next refresh of `symbol` will bill. -/
def unbilled (env : Env A S) (symbol : S) : ℕ := env.timeDelta (env.getMarket symbol)

/-- The clock and the pause switch of the position manager. -/
structure SameClock (env env' : Env A S) : Prop where
  timestamp : env'.timestamp = env.timestamp
  isPaused : env'.pm.isPaused = env.pm.isPaused
  lastPauseTime : env'.pm.lastPauseTime = env.pm.lastPauseTime
  lastUnpauseTime : env'.pm.lastUnpauseTime = env.pm.lastUnpauseTime

/-- `symbol` was refreshed: its indices and update time are those of the accrual
from `env`, and no other market changed. -/
structure Refreshed (env env' : Env A S) (symbol : S) : Prop where
  clock : SameClock env env'
  borrow : (env'.getMarket symbol).accBorrowIndex = (env.freshMarket symbol).accBorrowIndex
  funding : (env'.getMarket symbol).accFundingIndex = (env.freshMarket symbol).accFundingIndex
  updated : (env'.getMarket symbol).lastIndexUpdate = (env.freshMarket symbol).lastIndexUpdate
  others : ∀ other, other ≠ symbol → env'.getMarket other = env.getMarket other

section Markets

variable {erc : Erc4626} {env env' : Env A S} {op : Op A S}

omit [DecidableEq A] in
/-- Reading markets depends on the table and, where nothing is stored, the clock. -/
theorem getMarket_congr (hm : env'.pm.markets = env.pm.markets)
    (ht : env'.timestamp = env.timestamp) (symbol : S) :
    env'.getMarket symbol = env.getMarket symbol := by
  rw [getMarket, getMarket, hm, ht]

omit [DecidableEq A] in
theorem refreshed_of_insert {symbol : S} {market : MarketInfo} (hclock : SameClock env env')
    (h : env'.pm.markets = env.pm.markets.insert symbol market)
    (hb : market.accBorrowIndex = (env.freshMarket symbol).accBorrowIndex)
    (hf : market.accFundingIndex = (env.freshMarket symbol).accFundingIndex)
    (hu : market.lastIndexUpdate = (env.freshMarket symbol).lastIndexUpdate) :
    Refreshed env env' symbol := by
  have hread : ∀ other, env'.getMarket other = (env.setMarket symbol market).getMarket other :=
    getMarket_congr h hclock.timestamp
  refine ⟨hclock, ?_, ?_, ?_, ?_⟩
  · rw [hread, getMarket_setMarket, if_pos rfl, hb]
  · rw [hread, getMarket_setMarket, if_pos rfl, hf]
  · rw [hread, getMarket_setMarket, if_pos rfl, hu]
  · intro other hne
    rw [hread, getMarket_setMarket, if_neg hne]

/-- Every operation on a market refreshes it first. -/
theorem effect_refreshes {symbol : S} {mark : ℤ} (h : Effect erc env op env')
    (hop : refreshes op = some (symbol, mark)) : Refreshed env env' symbol := by
  cases h with
  | @increase req pos _ awake size_pos effect =>
      cases hop
      have hclock : SameClock env env' :=
        ⟨effect.timestamp, by rw [effect.pm], by rw [effect.pm], by rw [effect.pm]⟩
      exact refreshed_of_insert hclock effect.markets (MarketInfo.accBorrowIndex_setSide _ _ _ _)
        (MarketInfo.accFundingIndex_setSide _ _ _ _) (MarketInfo.lastIndexUpdate_setSide _ _ _ _)
  | @close call r _ names ready effect =>
      cases hop
      have hclock : SameClock env env' :=
        ⟨effect.timestamp, by rw [effect.pm], by rw [effect.pm], by rw [effect.pm]⟩
      rw [← names.symbol]
      apply refreshed_of_insert hclock effect.markets <;> rw [← ready.market_eq]
      · exact MarketInfo.accBorrowIndex_setSide _ _ _ _
      · exact MarketInfo.accFundingIndex_setSide _ _ _ _
      · exact MarketInfo.lastIndexUpdate_setSide _ _ _ _
  | setTpSl position hdelta => cases hop
  | updateIndices awake price_pos =>
      cases hop
      have hself := getMarket_freshEnv_self env symbol
      refine ⟨?_, congrArg (·.accBorrowIndex) hself, congrArg (·.accFundingIndex) hself,
        congrArg (·.lastIndexUpdate) hself, fun other hne => getMarket_freshEnv_of_ne env hne⟩
      obtain ⟨markets, hf⟩ := env.freshEnv_eq symbol
      rw [hf]
      exact ⟨rfl, rfl, rfl, rfl⟩
  | quiet h => cases h <;> cases hop

/-- Every other operation leaves the stored markets alone. -/
theorem effect_markets_of_not_refreshes (h : Effect erc env op env')
    (hop : refreshes op = none) : env'.pm.markets = env.pm.markets := by
  cases h with
  | increase | close | updateIndices => cases hop
  | setTpSl position hdelta => rfl
  | quiet h => exact h.samePositions.markets

end Markets

/-! ## Unbilled time -/

section Unbilled

variable {env env' : Env A S}

omit [DecidableEq A] [DecidableEq S] in
theorem timeDelta_congr {m m' : MarketInfo} (h : SameClock env env')
    (hm : m'.lastIndexUpdate = m.lastIndexUpdate) : env'.timeDelta m' = env.timeDelta m := by
  simp only [timeDelta, effectiveNow, effectiveStart, h.timestamp, h.isPaused, h.lastPauseTime,
    h.lastUnpauseTime, hm]

omit [DecidableEq A] [DecidableEq S] in
/-- Once accrued, nothing is left to bill. -/
theorem timeDelta_accrue (env : Env A S) (view : VaultView) (m : MarketInfo) :
    env.timeDelta (env.accrue view m) = 0 := by
  unfold accrue
  split_ifs with h
  · cases hp : env.pm.isPaused with
    | false =>
        rw [timeDelta_awake _ hp] at h ⊢
        simp only [effectiveNow, hp]
        simp
    | true =>
        rw [timeDelta_paused _ hp] at h ⊢
        have hpos : env.pm.lastPauseTime > 0 := by omega
        simp only [effectiveNow, hp, if_true, if_pos hpos]
        omega
  · omega

omit [DecidableEq A] in
theorem unbilled_refreshed {symbol : S} (h : Refreshed env env' symbol) :
    env'.unbilled symbol = 0 := by
  rw [unbilled, timeDelta_congr h.clock h.updated]
  exact timeDelta_accrue env _ _

omit [DecidableEq A] in
theorem unbilled_refreshed_other {symbol other : S} (h : Refreshed env env' symbol)
    (hne : other ≠ symbol) : env'.unbilled other = env.unbilled other := by
  rw [unbilled, timeDelta_congr h.clock (by rw [h.others other hne])]
  rfl

end Unbilled

/-! ## Clocks never run ahead -/

/-- No recorded time lies in the future. -/
structure TimeOrdered (env : Env A S) : Prop where
  unpause : env.pm.lastUnpauseTime ≤ env.timestamp
  pause : env.pm.lastPauseTime ≤ env.timestamp
  update : ∀ symbol, (env.getMarket symbol).lastIndexUpdate ≤ env.timestamp

section TimeOrder

variable {erc : Erc4626} {env env' : Env A S} {op : Op A S}

omit [DecidableEq A] in
theorem freshMarket_update_le (ht : TimeOrdered env) (symbol : S) :
    (env.freshMarket symbol).lastIndexUpdate ≤ env.timestamp := by
  have hu := ht.update symbol
  have hun := ht.unpause
  unfold freshMarket accrue
  split_ifs with h
  · simp only [effectiveNow, effectiveStart_eq_max]
    split_ifs <;> omega
  · exact hu

omit [DecidableEq A] in
theorem timeOrdered_refreshed {symbol : S} (ht : TimeOrdered env)
    (h : Refreshed env env' symbol) : TimeOrdered env' := by
  refine ⟨?_, ?_, ?_⟩
  · rw [h.clock.lastUnpauseTime, h.clock.timestamp]
    exact ht.unpause
  · rw [h.clock.lastPauseTime, h.clock.timestamp]
    exact ht.pause
  · intro other
    rw [h.clock.timestamp]
    by_cases hs : other = symbol
    · rw [hs, h.updated]
      exact freshMarket_update_le ht symbol
    · rw [h.others other hs]
      exact ht.update other

omit [DecidableEq A] in
/-- Where the table stays, reading a market moves at most with the clock. -/
theorem update_le_of_markets (ht : TimeOrdered env) (hm : env'.pm.markets = env.pm.markets)
    (hle : env.timestamp ≤ env'.timestamp) (symbol : S) :
    (env'.getMarket symbol).lastIndexUpdate ≤ env'.timestamp := by
  have hu := ht.update symbol
  rw [getMarket] at hu ⊢
  rw [hm]
  cases hl : env.pm.markets.lookup symbol with
  | none => exact le_rfl
  | some m =>
      rw [hl] at hu
      exact hu.trans hle

theorem effect_timeOrdered (ht : TimeOrdered env) (h : Effect erc env op env') :
    TimeOrdered env' := by
  cases hop : refreshes op with
  | some sm =>
      obtain ⟨symbol, mark⟩ := sm
      exact timeOrdered_refreshed ht (effect_refreshes h hop)
  | none =>
      have hm := effect_markets_of_not_refreshes h hop
      cases h with
      | increase | close | updateIndices => cases hop
      | setTpSl position hdelta =>
          exact ⟨ht.unpause, ht.pause, update_le_of_markets ht hm le_rfl⟩
      | quiet h =>
          have hun := ht.unpause
          have hp := ht.pause
          cases h with
          | advance seconds =>
              have hle : env.timestamp ≤ env.timestamp + seconds := by omega
              exact ⟨hun.trans hle, hp.trans hle, update_le_of_markets ht hm hle⟩
          | transferUsdc h | vault h =>
              refine ⟨?_, ?_, update_le_of_markets ht hm h.timestamp.ge⟩
              · rw [h.pm, h.timestamp]
                exact hun
              · rw [h.pm, h.timestamp]
                exact hp
          | pause => exact ⟨hun, le_rfl, update_le_of_markets ht hm le_rfl⟩
          | unpause => exact ⟨le_rfl, hp, update_le_of_markets ht hm le_rfl⟩
          | _ => exact ⟨hun, hp, update_le_of_markets ht hm le_rfl⟩

theorem reachable_timeOrdered (hr : Reachable erc env) : TimeOrdered env :=
  hr.induction (fun _ _ _ => ⟨Nat.zero_le _, Nat.zero_le _, fun _ => le_rfl⟩)
    fun _ _ _ => effect_timeOrdered

end TimeOrder

end Env

end Stellars
