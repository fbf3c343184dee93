import Stellars.Accrual

/-!
# Billed time and awake time

Unbilled time is a potential: an advance of the clock while awake adds to it, a
refresh moves it to what has been billed, and a pause keeps it. Only the end of
a pause can drop it, namely when the market was not refreshed since before the
pause began.
-/
namespace Stellars
open GuardedRuns KeyedTotals

namespace Env

variable {A S : Type} [DecidableEq A] [DecidableEq S]

/-- Seconds that pass while the position manager is not paused. -/
def awakeSeconds (env : Env A S) : Op A S → ℤ
  | .advance seconds => if env.pm.isPaused then 0 else seconds
  | _ => 0

/-- Seconds that a successful operation bills to `symbol`. -/
def billedSeconds (erc : Erc4626) (symbol : S) (env : Env A S) (op : Op A S) : ℤ :=
  match env.apply erc op, refreshes op with
  | .ok _, some (other, _) => if other = symbol then env.unbilled symbol else 0
  | _, _ => 0

/-- Seconds of `symbol` that the end of a pause drops. -/
def droppedSeconds (erc : Erc4626) (symbol : S) (env : Env A S) (op : Op A S) : ℤ :=
  match env.apply erc op, op with
  | .ok _, .unpause _ => if env.pm.isPaused then env.unbilled symbol else 0
  | _, _ => 0

/-- When a pause ends, `symbol` has been billed up to where the pause began. -/
def UnpausesBilled (erc : Erc4626) (symbol : S) (env : Env A S) : Op A S → Prop
  | .unpause caller => (∃ env', env.apply erc (.unpause caller) = .ok env') →
      env.pm.isPaused = true → env.pm.lastPauseTime ≤
        max (env.getMarket symbol).lastIndexUpdate env.pm.lastUnpauseTime
  | _ => True

/-- The market is stored, as it is from its first position on, and no recorded
time lies ahead. -/
structure Clocked (symbol : S) (env : Env A S) : Prop where
  ordered : TimeOrdered env
  stored : (env.pm.markets.lookup symbol).isSome

section Steps

variable {erc : Erc4626} {env env' : Env A S} {op : Op A S} {symbol : S}

omit [DecidableEq A] in
theorem getMarket_of_stored (hs : (env.pm.markets.lookup symbol).isSome)
    (hm : env'.pm.markets = env.pm.markets) : env'.getMarket symbol = env.getMarket symbol := by
  obtain ⟨m, hl⟩ := Option.isSome_iff_exists.mp hs
  rw [getMarket, getMarket, hm, hl]
  rfl

theorem effect_stored (hs : (env.pm.markets.lookup symbol).isSome)
    (h : Effect erc env op env') : (env'.pm.markets.lookup symbol).isSome := by
  have hinsert : ∀ other (m : MarketInfo),
      ((env.pm.markets.insert other m).lookup symbol).isSome := by
    intro other m
    by_cases he : symbol = other
    · rw [he, AList.lookup_insert]
      rfl
    · rw [AList.lookup_insert_ne he]
      exact hs
  cases h with
  | increase awake size_pos effect =>
      rw [effect.markets]
      exact hinsert _ _
  | close names ready effect =>
      rw [effect.markets]
      exact hinsert _ _
  | setTpSl position hdelta => exact hs
  | @updateIndices _ other _ awake price_pos =>
      simp only [withMarketPnl, freshEnv]
      split_ifs
      · exact hinsert _ _
      · exact hs
  | quiet h =>
      rw [h.samePositions.markets]
      exact hs

theorem step_clocked (erc : Erc4626) (env : Env A S) (op : Op A S) (hc : Clocked symbol env) :
    Clocked symbol (step erc env op) :=
  step_preserves (fun _ _ _ hc h =>
    ⟨effect_timeOrdered hc.ordered h, effect_stored hc.stored h⟩) env op hc

/-- The potential moves by what is awake, billed and dropped. -/
theorem unbilled_quiet (hc : Clocked symbol env) (hok : env.apply erc op = .ok env')
    (h : Quiet erc env op env') : (env'.unbilled symbol : ℤ) =
      env.unbilled symbol + env.awakeSeconds op - droppedSeconds erc symbol env op := by
  have hmarket := getMarket_of_stored hc.stored h.samePositions.markets
  have hupdate := hc.ordered.update symbol
  have hpause := hc.ordered.pause
  have hunpause := hc.ordered.unpause
  have hsame : SameClock env env' → (env'.unbilled symbol : ℤ) = env.unbilled symbol := by
    intro hclock
    rw [unbilled, hmarket, timeDelta_congr hclock rfl]
    rfl
  simp only [unbilled] at hsame ⊢
  rw [hmarket] at hsame ⊢
  cases h with
  | advance seconds =>
      simp only [awakeSeconds, droppedSeconds, apply]
      cases hp : env.pm.isPaused with
      | false =>
          rw [timeDelta_awake _ hp, timeDelta_awake _ (by exact hp)]
          simp only [Bool.false_eq_true, if_false]
          omega
      | true =>
          rw [timeDelta_paused _ hp, timeDelta_paused _ (by exact hp)]
          simp only [if_true]
          omega
  | pause caller hp =>
      simp only [awakeSeconds, droppedSeconds, hok]
      rw [timeDelta_awake _ hp, timeDelta_paused _ (by rfl)]
      simp
  | unpause caller hp =>
      simp only [awakeSeconds, droppedSeconds, hok, hp, unbilled, if_true]
      rw [timeDelta_awake _ (by rfl)]
      simp only
      omega
  | unpauseAgain caller hp =>
      simp only [awakeSeconds, droppedSeconds, hok, hp]
      simp
  | transferUsdc h | vault h =>
      have hclock : SameClock env env' := ⟨h.timestamp, by rw [h.pm], by rw [h.pm], by rw [h.pm]⟩
      simp only [awakeSeconds, droppedSeconds, hok, hsame hclock]
      simp
  | _ =>
      simp only [awakeSeconds, droppedSeconds, hok, hsame ⟨rfl, rfl, rfl, rfl⟩]
      simp

omit [DecidableEq A] [DecidableEq S] in
/-- Refreshing takes no time. -/
theorem awakeSeconds_of_refreshes (env : Env A S) {sm : S × ℤ} (h : refreshes op = some sm) :
    env.awakeSeconds op = 0 := by
  cases op with
  | advance seconds => cases h
  | _ => rfl

/-- Time always passes: only other operations can revert. -/
theorem awakeSeconds_of_revert {e : Error} (h : env.apply erc op = .error e) :
    env.awakeSeconds op = 0 := by
  cases op with
  | advance seconds => cases h
  | _ => rfl

theorem unbilled_effect (hc : Clocked symbol env) (hok : env.apply erc op = .ok env')
    (h : Effect erc env op env') : (env'.unbilled symbol : ℤ) = env.unbilled symbol +
      (env.awakeSeconds op - billedSeconds erc symbol env op -
        droppedSeconds erc symbol env op) := by
  cases hop : refreshes op with
  | some sm =>
      obtain ⟨other, mark⟩ := sm
      have hrefresh := effect_refreshes h hop
      have hawake := awakeSeconds_of_refreshes env hop
      have hdrop : droppedSeconds erc symbol env op = 0 := by
        cases op <;> first | (simp only [droppedSeconds, hok]; done) | cases hop
      have hbill : billedSeconds erc symbol env op =
          if other = symbol then (env.unbilled symbol : ℤ) else 0 := by
        simp only [billedSeconds, hok, hop]
      rw [hawake, hdrop, hbill]
      split_ifs with hsym
      · rw [hsym] at hrefresh
        rw [unbilled_refreshed hrefresh]
        omega
      · rw [unbilled_refreshed_other hrefresh (Ne.symm hsym)]
        omega
  | none =>
      have hbill : billedSeconds erc symbol env op = 0 := by
        simp only [billedSeconds, hok, hop]
      cases h with
      | increase | close | updateIndices => cases hop
      | @setTpSl trader other _ _ pos delta position hdelta =>
          have hclock : (env.unbilled symbol : ℤ) = env.unbilled symbol + (0 - 0 - 0) := by omega
          rw [hbill]
          simp only [awakeSeconds, droppedSeconds, hok]
          exact hclock
      | quiet h =>
          rw [unbilled_quiet hc hok h, hbill]
          omega

theorem unbilled_step (erc : Erc4626) (env : Env A S) (op : Op A S) (hc : Clocked symbol env) :
    ((step erc env op).unbilled symbol : ℤ) = env.unbilled symbol +
      (env.awakeSeconds op - billedSeconds erc symbol env op -
        droppedSeconds erc symbol env op) := by
  obtain ⟨heq, e, herr⟩ | ⟨hok, heff⟩ := step_cases erc env op
  · rw [heq, awakeSeconds_of_revert herr]
    simp [billedSeconds, droppedSeconds, herr]
  · exact unbilled_effect hc hok heff

theorem droppedSeconds_nonneg (erc : Erc4626) (symbol : S) (env : Env A S) (op : Op A S) :
    0 ≤ droppedSeconds erc symbol env op := by
  unfold droppedSeconds
  split
  · split_ifs <;> omega
  · exact le_rfl

theorem droppedSeconds_eq_zero_iff (hc : Clocked symbol env) :
    droppedSeconds erc symbol env op = 0 ↔ UnpausesBilled erc symbol env op := by
  have hpause := hc.ordered.pause
  cases op with
  | unpause caller =>
      simp only [droppedSeconds, UnpausesBilled]
      cases hok : env.apply erc (.unpause caller) with
      | error e => simp
      | ok env' =>
          cases hp : env.pm.isPaused with
          | false => simp
          | true =>
              rw [unbilled, timeDelta_paused _ hp]
              simp only [if_true, Except.ok.injEq, exists_eq', forall_const]
              omega
  | _ => simp [droppedSeconds, UnpausesBilled]

/-- Between two refreshes of a stored market the billed seconds are the awake
ones exactly when every pause that ended in between found the market billed up
to the start of that pause. -/
theorem billed_eq_awake_iff {env0 env1 : Env A S} {first last : Op A S} {ops : List (Op A S)}
    {mark0 mark1 : ℤ} (hr : Reachable erc env) (hfirst : env.apply erc first = .ok env0)
    (hop0 : refreshes first = some (symbol, mark0))
    (hstored : (env0.pm.markets.lookup symbol).isSome)
    (hlast : (run (step erc) env0 ops).apply erc last = .ok env1)
    (hop1 : refreshes last = some (symbol, mark1)) :
    sumAlong (step erc) (billedSeconds erc symbol) env0 (ops ++ [last]) =
        sumAlong (step erc) awakeSeconds env0 (ops ++ [last]) ↔
      Along (step erc) (UnpausesBilled erc symbol) env0 ops := by
  have heff0 := apply_effect hfirst
  have hc : Clocked symbol env0 :=
    ⟨effect_timeOrdered (reachable_timeOrdered hr) heff0, hstored⟩
  have hstart : env0.unbilled symbol = 0 := unbilled_refreshed (effect_refreshes heff0 hop0)
  have hend : (run (step erc) env0 (ops ++ [last])).unbilled symbol = 0 := by
    rw [run_append]
    simp only [run_cons, run_nil, step, hlast]
    exact unbilled_refreshed (effect_refreshes (apply_effect hlast) hop1)
  have hbalance := run_balance (φ := fun env => (env.unbilled symbol : ℤ)) (ops ++ [last])
    (step_clocked erc) (unbilled_step erc) hc
  rw [sumAlong_sub, sumAlong_sub, hend, hstart] at hbalance
  have hdropped : sumAlong (step erc) (billedSeconds erc symbol) env0 (ops ++ [last]) =
      sumAlong (step erc) awakeSeconds env0 (ops ++ [last]) ↔
        sumAlong (step erc) (droppedSeconds erc symbol) env0 (ops ++ [last]) = 0 := by
    omega
  rw [hdropped, sumAlong_eq_zero_iff (droppedSeconds_nonneg erc symbol),
    along_congr (step_clocked erc) (fun _ _ h => droppedSeconds_eq_zero_iff h) hc,
    along_append]
  refine and_iff_left ⟨?_, trivial⟩
  cases last with
  | unpause caller => cases hop1
  | _ => trivial

/-- A refresh at 1000, a hundred awake seconds, a refresh: a hundred are billed. -/
theorem billed_eq_awake_deployed :
    let first : Op ℕ ℕ := .increase ⟨2, 0, 10000000000, 1000000000, true, 0, 0, 0, 1000000000⟩
    ∃ env0 env1, (deployed 1000000000000 []).apply offsetErc first = .ok env0 ∧
      (run (step offsetErc) env0 [.advance 100]).apply offsetErc
        (.updateIndices 0 0 1000000000) = .ok env1 ∧
      (sumAlong (step offsetErc) (billedSeconds offsetErc 0) env0
          ([.advance 100] ++ [.updateIndices 0 0 1000000000]) =
        sumAlong (step offsetErc) awakeSeconds env0
          ([.advance 100] ++ [.updateIndices 0 0 1000000000]) ↔
      Along (step offsetErc) (UnpausesBilled offsetErc 0) env0 [.advance 100]) := by
  intro first
  obtain ⟨env0, hfirst, hrest⟩ := exists_ok_of_bind_eq_some
    (x := (deployed 1000000000000 []).apply offsetErc first)
    (f := fun env0 => ((run (step offsetErc) env0 [.advance 100]).apply offsetErc
      (.updateIndices 0 0 1000000000)).toOption.bind fun _ =>
        some (env0.pm.markets.lookup 0).isSome) (b := true) (by decide +kernel)
  obtain ⟨env1, hlast, hstored⟩ := exists_ok_of_bind_eq_some hrest
  exact ⟨env0, env1, hfirst, hlast, billed_eq_awake_iff (reachable_deployed _ _) hfirst rfl
    (Option.some.inj hstored) hlast rfl⟩

/-- A hundred awake seconds, a pause of fifty, ten more awake seconds: the next
refresh bills ten of the hundred and ten. -/
theorem billed_ne_awake :
    ¬ ∀ (env env0 env1 : Env ℕ ℕ) (first last : Op ℕ ℕ) (ops : List (Op ℕ ℕ)) (symbol : ℕ)
      (mark0 mark1 : ℤ), Reachable offsetErc env → env.apply offsetErc first = .ok env0 →
      refreshes first = some (symbol, mark0) → (env0.pm.markets.lookup symbol).isSome →
      (run (step offsetErc) env0 ops).apply offsetErc last = .ok env1 →
      refreshes last = some (symbol, mark1) →
      env.pm.isPaused = false → (run (step offsetErc) env0 ops).pm.isPaused = false →
      sumAlong (step offsetErc) (billedSeconds offsetErc symbol) env0 (ops ++ [last]) =
        sumAlong (step offsetErc) awakeSeconds env0 (ops ++ [last]) := by
  intro hbilled
  have hstart := reachable_deployed 1000000000000 []
  generalize hdep : deployed 1000000000000 ([] : List (Op ℕ ℕ)) = env at hstart
  obtain ⟨env0, hfirst, hrest⟩ := exists_ok_of_bind_eq_some
    (x := env.apply offsetErc
      (.increase ⟨2, 0, 10000000000, 1000000000, true, 0, 0, 0, 1000000000⟩))
    (f := fun env0 => ((run (step offsetErc) env0
        [.advance 100, .pause 0, .advance 50, .unpause 0, .advance 10]).apply offsetErc
      (.updateIndices 0 0 1000000000)).toOption.bind fun _ => some
        ((env0.pm.markets.lookup 0).isSome, env.pm.isPaused,
          (run (step offsetErc) env0
            [.advance 100, .pause 0, .advance 50, .unpause 0, .advance 10]).pm.isPaused,
          sumAlong (step offsetErc) (billedSeconds offsetErc 0) env0
            ([.advance 100, .pause 0, .advance 50, .unpause 0, .advance 10] ++
              [.updateIndices 0 0 1000000000]),
          sumAlong (step offsetErc) awakeSeconds env0
            ([.advance 100, .pause 0, .advance 50, .unpause 0, .advance 10] ++
              [.updateIndices 0 0 1000000000])))
    (b := (true, false, false, 10, 110)) (by subst hdep; decide +kernel)
  obtain ⟨env1, hlast, hread⟩ := exists_ok_of_bind_eq_some hrest
  simp only [Option.some.injEq, Prod.mk.injEq] at hread
  obtain ⟨hstored, hawake, hend, hbill, hpassed⟩ := hread
  have heq := hbilled env env0 env1 _ _ _ 0 _ _ hstart hfirst rfl hstored hlast rfl hawake hend
  omega

end Steps

end Env

end Stellars
