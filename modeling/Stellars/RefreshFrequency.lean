import Stellars.BorrowIntegral
import Stellars.EntryAveraging
import Stellars.PositionBounds

/-!
# How often a market is refreshed

A refresh bills the awake time since the last one and truncates. Refreshing in several
calls splits one truncated product into several at unchanged rates, and every extra call
loses at most one raw unit.
-/
namespace Stellars
open GuardedRuns KeyedTotals TruncatedDivision

/-- One `update_indices` call: when the keeper makes it, and the mark it finds. -/
structure IndexCall (A : Type) where
  timestamp : ℕ
  caller : A
  price : ℤ

namespace Env

variable {A S : Type}

def atTime (env : Env A S) (timestamp : ℕ) : Env A S := { env with timestamp := timestamp }

variable [DecidableEq A] [DecidableEq S]

def callAt (env : Env A S) (symbol : S) (c : IndexCall A) : Except Error (Env A S) :=
  (env.atTime c.timestamp).updateIndices c.caller symbol c.price

/-- The calls of a schedule in order, none of them refused. -/
def callsAt (env : Env A S) (symbol : S) (calls : List (IndexCall A)) : Except Error (Env A S) :=
  calls.foldlM (fun env c => env.callAt symbol c) env

/-- The seconds a refresh at `timestamp` would bill. -/
def billable (env : Env A S) (symbol : S) (timestamp : ℕ) : ℕ :=
  (env.atTime timestamp).unbilled symbol

/-- What a call of the schedule leaves behind: both indices billed at the rates of `env`,
which it keeps, and the rest of the time still to bill. -/
structure IndexStep (env env' : Env A S) (symbol : S) (timestamp : ℕ) : Prop where
  isPaused : env'.pm.isPaused = false
  cfg : env'.cfg = env.cfg
  reservedUsdc : env'.vault.reservedUsdc = env.vault.reservedUsdc
  borrowRate : env'.borrowRateNow = env.borrowRateNow
  fundingRate : env'.fundingRate (env'.getMarket symbol) = env.fundingRate (env.getMarket symbol)
  borrow : (env'.getMarket symbol).accBorrowIndex = accumulateBorrowIndex
    (env.getMarket symbol).accBorrowIndex env.borrowRateNow (env.billable symbol timestamp)
  funding : (env'.getMarket symbol).accFundingIndex = accumulateFundingIndex
    (env.getMarket symbol).accFundingIndex (env.fundingRate (env.getMarket symbol))
    (env.billable symbol timestamp)
  billable : ∀ later, timestamp ≤ later →
    env'.billable symbol later + env.billable symbol timestamp = env.billable symbol later

section Calls

variable {erc : Erc4626} {env env' : Env A S} {symbol : S} {c : IndexCall A}

/-- In the protocol a call is two operations: time passes, the keeper calls. -/
theorem callAt_eq_apply (h : env.timestamp ≤ c.timestamp) :
    env.callAt symbol c = env.apply erc (.advance (c.timestamp - env.timestamp)) >>= fun env =>
      env.apply erc (.updateIndices c.caller symbol c.price) := by
  simp only [apply, ok_bind, Nat.add_sub_cancel' h]
  rfl

theorem callAt_eq_ok : env.callAt symbol c = .ok env' ↔
    env.pm.isPaused = false ∧ env.cfg.hasRole .keeper c.caller = true ∧ 0 < c.price ∧
      env' = ((env.atTime c.timestamp).freshEnv symbol).withMarketPnl symbol
        (((env.atTime c.timestamp).freshMarket symbol).unrealizedPnl c.price) := by
  simp only [callAt, updateIndices, requireNotPaused, requireRole, bind_eq_ok, failIf_eq_ok,
    exists_const, Prod.exists, refreshTick_eq_ok, refreshMarketUnrealizedPnl_eq, Except.ok.injEq]
  constructor
  · rintro ⟨hawake, hrole, _, _, ⟨hprice, rfl, rfl⟩, rfl⟩
    rw [getMarket_freshEnv_self]
    exact ⟨eq_false_of_ne_true hawake, eq_true_of_ne_false hrole, hprice, rfl⟩
  · rintro ⟨hawake, hrole, hprice, rfl⟩
    refine ⟨ne_true_of_eq_false hawake, ne_false_of_eq_true hrole, _, _, ⟨hprice, rfl, rfl⟩, ?_⟩
    rw [getMarket_freshEnv_self]

omit [DecidableEq A] in
/-- Only the timestamp of a market that is not stored depends on the clock. -/
theorem read_getMarket_atTime {β : Type} (f : MarketInfo → β)
    (hf : ∀ now now', f (.empty now) = f (.empty now')) (env : Env A S) (timestamp : ℕ) (symbol : S) :
    f ((env.atTime timestamp).getMarket symbol) = f (env.getMarket symbol) := by
  simp only [getMarket, atTime]
  cases env.pm.markets.lookup symbol with
  | none => exact hf _ _
  | some m => rfl

omit [DecidableEq A] in
theorem billable_stored {m : MarketInfo} (hm : env.pm.markets.lookup symbol = some m)
    (hawake : env.pm.isPaused = false) (timestamp : ℕ) :
    env.billable symbol timestamp =
      timestamp - max m.lastIndexUpdate env.pm.lastUnpauseTime := by
  have hmarket : (env.atTime timestamp).getMarket symbol = m := getMarket_of_lookup hm
  have hawake' : (env.atTime timestamp).pm.isPaused = false := hawake
  rw [billable, unbilled, hmarket, timeDelta_awake _ hawake']
  rfl

omit [DecidableEq A] in
theorem billable_unstored (hm : env.pm.markets.lookup symbol = none)
    (hawake : env.pm.isPaused = false) (timestamp : ℕ) : env.billable symbol timestamp = 0 := by
  have hmarket : (env.atTime timestamp).getMarket symbol = .empty timestamp := by
    rw [getMarket, show (env.atTime timestamp).pm.markets.lookup symbol = none from hm]
    rfl
  have hawake' : (env.atTime timestamp).pm.isPaused = false := hawake
  rw [billable, unbilled, hmarket, timeDelta_awake _ hawake']
  exact Nat.sub_eq_zero_of_le (le_max_left _ _)

omit [DecidableEq A] in
theorem billable_withMarketPnl (env : Env A S) (symbol : S) (pnl : ℤ) (timestamp : ℕ) :
    (env.withMarketPnl symbol pnl).billable symbol timestamp = env.billable symbol timestamp := rfl

omit [DecidableEq A] in
/-- A refresh moves the start of the next window to its own time, unless it bills nothing. -/
theorem billable_freshEnv (hawake : env.pm.isPaused = false) {timestamp later : ℕ}
    (hle : timestamp ≤ later) :
    ((env.atTime timestamp).freshEnv symbol).billable symbol later +
      env.billable symbol timestamp = env.billable symbol later := by
  by_cases hbilled : env.billable symbol timestamp = 0
  · have hsame : (env.atTime timestamp).freshEnv symbol = env.atTime timestamp :=
      if_neg (Nat.not_lt_of_le hbilled.le)
    rw [hsame, hbilled, add_zero]
    rfl
  · cases hm : env.pm.markets.lookup symbol with
    | none => exact absurd (billable_unstored hm hawake timestamp) hbilled
    | some m =>
        have hpos : (env.atTime timestamp).timeDelta ((env.atTime timestamp).getMarket symbol) > 0 :=
          Nat.pos_of_ne_zero hbilled
        have hfresh : (env.atTime timestamp).freshEnv symbol =
            (env.atTime timestamp).setMarket symbol ((env.atTime timestamp).freshMarket symbol) :=
          if_pos hpos
        have hstored : ((env.atTime timestamp).freshEnv symbol).pm.markets.lookup symbol =
            some ((env.atTime timestamp).freshMarket symbol) := by
          rw [hfresh]
          exact AList.lookup_insert _
        have hawake' : ((env.atTime timestamp).freshEnv symbol).pm.isPaused = false := by
          rw [hfresh]
          exact hawake
        have hunpause : ((env.atTime timestamp).freshEnv symbol).pm.lastUnpauseTime =
            env.pm.lastUnpauseTime := by
          rw [hfresh]
          rfl
        have hupdate : ((env.atTime timestamp).freshMarket symbol).lastIndexUpdate = timestamp := by
          rw [freshMarket, accrue, if_pos hpos]
          simp only [effectiveNow, atTime, hawake, Bool.false_eq_true, if_false]
        rw [billable_stored hm hawake] at hbilled
        rw [billable_stored hstored hawake', hupdate, hunpause, billable_stored hm hawake,
          billable_stored hm hawake]
        omega

theorem indexStep_callAt (h : env.callAt symbol c = .ok env') :
    IndexStep env env' symbol c.timestamp := by
  obtain ⟨hawake, -, -, rfl⟩ := callAt_eq_ok.mp h
  obtain ⟨markets, hfresh⟩ := (env.atTime c.timestamp).freshEnv_eq symbol
  have hmarket : (((env.atTime c.timestamp).freshEnv symbol).withMarketPnl symbol
      (((env.atTime c.timestamp).freshMarket symbol).unrealizedPnl c.price)).getMarket symbol =
        (env.atTime c.timestamp).freshMarket symbol := getMarket_freshEnv_self _ _
  have hlong := read_getMarket_atTime (·.longOpenInterest) (fun _ _ => rfl) env c.timestamp symbol
  have hshort := read_getMarket_atTime (·.shortOpenInterest) (fun _ _ => rfl) env c.timestamp symbol
  have hfunding : (env.atTime c.timestamp).fundingRate ((env.atTime c.timestamp).getMarket symbol) =
      env.fundingRate (env.getMarket symbol) := by
    rw [fundingRate, fundingRate, hlong, hshort]
    rfl
  refine ⟨?_, ?_, ?_, ?_, ?_, ?_, ?_, ?_⟩
  · rw [hfresh]
    exact hawake
  · rw [hfresh]
    rfl
  · rw [hfresh]
    rfl
  · rw [hfresh]
    rfl
  · have hlong' := openInterest_freshMarket (env.atTime c.timestamp) symbol true
    have hshort' := openInterest_freshMarket (env.atTime c.timestamp) symbol false
    simp only [MarketInfo.openInterest, if_true, Bool.false_eq_true, if_false] at hlong' hshort'
    rw [hmarket, hfresh, fundingRate, fundingRate, hlong', hshort', hlong, hshort]
    rfl
  · rw [hmarket, freshMarket, accBorrowIndex_accrue,
      read_getMarket_atTime (·.accBorrowIndex) (fun _ _ => rfl) env c.timestamp symbol]
    rfl
  · rw [hmarket, freshMarket, accFundingIndex_accrue, hfunding,
      read_getMarket_atTime (·.accFundingIndex) (fun _ _ => rfl) env c.timestamp symbol]
    rfl
  · intro later hle
    rw [billable_withMarketPnl]
    exact billable_freshEnv hawake hle

/-- Billing in two parts against billing at once, at one rate. -/
theorem accumulate_split (index rate : ℤ) (first rest : ℕ) :
    |accumulateBorrowIndex (accumulateBorrowIndex index rate first) rate rest -
        accumulateBorrowIndex index rate (rest + first)| ≤ 1 ∧
      (0 ≤ rate → accumulateBorrowIndex (accumulateBorrowIndex index rate first) rate rest ≤
        accumulateBorrowIndex index rate (rest + first)) := by
  have hsum : rate * indexPrecision * ((rest + first : ℕ) : ℤ) =
      rate * indexPrecision * first + rate * indexPrecision * rest := by
    push_cast
    ring
  have hyear : 0 < bps * secondsPerYear := by decide
  have hprecision : 0 < indexPrecision := by decide
  simp only [accumulateBorrowIndex, hsum]
  constructor
  · have hsign : 0 ≤ rate * indexPrecision * first ∧ 0 ≤ rate * indexPrecision * rest ∨
        rate * indexPrecision * first ≤ 0 ∧ rate * indexPrecision * rest ≤ 0 := by
      obtain hr | hr := le_total 0 rate
      · exact .inl ⟨by positivity, by positivity⟩
      · have hscaled := mul_nonpos_of_nonpos_of_nonneg hr hprecision.le
        exact .inr ⟨mul_nonpos_of_nonpos_of_nonneg hscaled (by positivity),
          mul_nonpos_of_nonpos_of_nonneg hscaled (by positivity)⟩
    have habs := abs_le.mp (abs_tdiv_add_sub_le hsign hyear)
    exact abs_le.mpr ⟨by omega, by omega⟩
  · intro hr
    have hle := (tdiv_add_bounds (a := rate * indexPrecision * first)
      (b := rate * indexPrecision * rest) (by positivity) (by positivity) hyear).1
    omega

/-- A call before the last one costs the borrow index at most one raw unit, and moves the
funding index by no more. -/
theorem callAt_twice {last : IndexCall A} {env1 twice : Env A S} (hr : 0 ≤ env.vault.reservedUsdc)
    (hle : c.timestamp ≤ last.timestamp) (hfirst : env.callAt symbol c = .ok env1)
    (hlast : env1.callAt symbol last = .ok twice) :
    ∃ single, env.callAt symbol last = .ok single ∧
      (twice.getMarket symbol).accBorrowIndex ≤ (single.getMarket symbol).accBorrowIndex ∧
      (single.getMarket symbol).accBorrowIndex - 1 ≤ (twice.getMarket symbol).accBorrowIndex ∧
      |(twice.getMarket symbol).accFundingIndex - (single.getMarket symbol).accFundingIndex| ≤
        1 := by
  have hawake := (callAt_eq_ok.mp hfirst).1
  obtain ⟨-, hrole, hprice, -⟩ := callAt_eq_ok.mp hlast
  have hstep1 := indexStep_callAt hfirst
  have hstep2 := indexStep_callAt hlast
  rw [hstep1.cfg] at hrole
  obtain ⟨single, hsingle⟩ : ∃ single, env.callAt symbol last = .ok single :=
    ⟨_, callAt_eq_ok.mpr ⟨hawake, hrole, hprice, rfl⟩⟩
  have hwhole := indexStep_callAt hsingle
  have hsplit := hstep1.billable _ hle
  have hborrow2 := hstep2.borrow
  have hfunding2 := hstep2.funding
  rw [hstep1.borrowRate, hstep1.borrow] at hborrow2
  rw [hstep1.fundingRate, hstep1.funding] at hfunding2
  have hborrow := accumulate_split (env.getMarket symbol).accBorrowIndex env.borrowRateNow
    (env.billable symbol c.timestamp) (env1.billable symbol last.timestamp)
  have hfunding := accumulate_split (env.getMarket symbol).accFundingIndex
    (env.fundingRate (env.getMarket symbol)) (env.billable symbol c.timestamp)
    (env1.billable symbol last.timestamp)
  rw [← hborrow2, hsplit, ← hwhole.borrow] at hborrow
  rw [hsplit] at hfunding
  refine ⟨single, hsingle, hborrow.2 (borrowRate_nonneg hr), ?_, ?_⟩
  · have hbelow := (abs_le.mp hborrow.1).1
    omega
  · rw [hfunding2, hwhole.funding]
    exact hfunding.1

/-- Whatever the schedule, the indices end up within one raw unit for each call but the
last of where the last call alone would have put them, the borrow index never above. -/
theorem refresh_frequency_bounds (env : Env A S) (symbol : S) (calls : List (IndexCall A))
    (last : IndexCall A) (many : Env A S) (hr : 0 ≤ env.vault.reservedUsdc)
    (hordered : ((calls ++ [last]).map (·.timestamp)).Pairwise (· ≤ ·))
    (hmany : env.callsAt symbol (calls ++ [last]) = .ok many) :
    ∃ single, env.callAt symbol last = .ok single ∧
      (many.getMarket symbol).accBorrowIndex ≤ (single.getMarket symbol).accBorrowIndex ∧
      (single.getMarket symbol).accBorrowIndex - calls.length ≤
        (many.getMarket symbol).accBorrowIndex ∧
      |(many.getMarket symbol).accFundingIndex - (single.getMarket symbol).accFundingIndex| ≤
        calls.length := by
  induction calls generalizing env with
  | nil =>
      refine ⟨many, ?_, le_rfl, ?_, ?_⟩
      · simpa [callsAt] using hmany
      · simp
      · simp
  | cons c rest ih =>
      rw [List.cons_append, callsAt, List.foldlM_cons, bind_eq_ok] at hmany
      obtain ⟨env1, hcall, hrest⟩ := hmany
      rw [List.cons_append, List.map_cons, List.pairwise_cons] at hordered
      have hr1 : 0 ≤ env1.vault.reservedUsdc := by
        rw [(indexStep_callAt hcall).reservedUsdc]
        exact hr
      obtain ⟨twice, htwice, hupper, hlower, hfunding⟩ := ih env1 hr1 hordered.2 hrest
      have hlast : c.timestamp ≤ last.timestamp := hordered.1 _ (by simp)
      obtain ⟨single, hsingle, hupper1, hlower1, hfunding1⟩ := callAt_twice hr hlast hcall htwice
      refine ⟨single, hsingle, hupper.trans hupper1, ?_, ?_⟩
      · rw [List.length_cons]
        push_cast
        omega
      · have htriangle := abs_sub_le (many.getMarket symbol).accFundingIndex
          (twice.getMarket symbol).accFundingIndex (single.getMarket symbol).accFundingIndex
        rw [List.length_cons]
        push_cast
        omega

/-- A long is opened, and the keeper calls twice in the next second and once a day later. -/
def threeRefreshes : List (IndexCall ℕ) := [⟨1001, 0, 1000000000⟩, ⟨1001, 0, 1000000000⟩]

theorem refresh_frequency_bounds_threeRefreshes :
    ∃ many single : Env ℕ ℕ, longAtHundred.callAt 0 ⟨87401, 0, 1100000000⟩ = .ok single ∧
      longAtHundred.callsAt 0 (threeRefreshes ++ [⟨87401, 0, 1100000000⟩]) = .ok many ∧
      (many.getMarket 0).accBorrowIndex ≤ (single.getMarket 0).accBorrowIndex ∧
      (single.getMarket 0).accBorrowIndex - 2 ≤ (many.getMarket 0).accBorrowIndex ∧
      |(many.getMarket 0).accFundingIndex - (single.getMarket 0).accFundingIndex| ≤ 2 := by
  obtain ⟨many, hmany, -⟩ := exists_ok_of_bind_eq_some
    (x := longAtHundred.callsAt 0 (threeRefreshes ++ [⟨87401, 0, 1100000000⟩]))
    (f := fun env => some env.timestamp) (b := 87401) (by decide +kernel)
  obtain ⟨single, hsingle, hupper, hlower, hfunding⟩ := refresh_frequency_bounds longAtHundred 0
    threeRefreshes ⟨87401, 0, 1100000000⟩ many (by decide +kernel) (by decide) hmany
  exact ⟨many, single, hsingle, hmany, hupper, hlower, hfunding⟩

end Calls

end Env

end Stellars
