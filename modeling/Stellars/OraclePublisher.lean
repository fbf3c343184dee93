import Mathlib.Logic.Function.Basic
import Stellars.GuardedRuns

/-!
# The oracle publishers' push loop

A publisher polls its exchange and pushes a price on-chain when it moved or the last
push is stale. A price too far from the last pushed one is dropped before either test.
-/
namespace Stellars
open GuardedRuns

/-- What the loop keeps for a ticker. -/
structure LastPush where
  scaledPrice : ℤ
  pushedAt : ℤ
  deriving Repr, DecidableEq

structure PushPolicy where
  pushOnDeltaBps : ℤ
  pushOnStaleSec : ℤ
  maxDeltaBpsPerTick : ℤ
  minIntervalBetweenPushesMs : ℤ
  deriving Repr, DecidableEq

def defaultPolicy : PushPolicy where
  pushOnDeltaBps := 5
  pushOnStaleSec := 5
  maxDeltaBpsPerTick := 200
  minIntervalBetweenPushesMs := 500

/-- What one poll meets: the scaled price unless fetching or scaling throws, the clock
in milliseconds where it is read, and whether the submission goes through. -/
structure Poll where
  scaled : Option ℤ
  throttleClock : ℤ
  staleClock : ℤ
  submitted : Bool
  pushClock : ℤ
  deriving Repr, DecidableEq

inductive PollOutcome
  | skipped
  | rejected (deltaBps : ℤ)
  | throttled
  | unmoved
  | submitFailed
  | pushed (scaled : ℤ)
  deriving Repr, DecidableEq

def absDeltaBps (a b : ℤ) : ℤ :=
  if b ≤ 0 then 0
  else
    let diff := if a > b then a - b else b - a
    (diff * 10000).tdiv b

namespace PushPolicy

variable (policy : PushPolicy)

def shouldPush (prev : Option LastPush) (next now : ℤ) : Bool :=
  match prev with
  | none => true
  | some prev =>
      let ageMs := now - prev.pushedAt
      if ageMs ≥ policy.pushOnStaleSec * 1000 then true
      else decide (absDeltaBps next prev.scaledPrice ≥ policy.pushOnDeltaBps)

variable {T : Type} [DecidableEq T]

/-- The two early returns of a ticker that was pushed before. -/
def refusal (prev : Option LastPush) (scaled : ℤ) (poll : Poll) : Option PollOutcome :=
  match prev with
  | none => none
  | some last =>
      let deltaBps := absDeltaBps scaled last.scaledPrice
      if deltaBps > policy.maxDeltaBpsPerTick then some (.rejected deltaBps)
      else
        let sinceLastPushMs := poll.throttleClock - last.pushedAt
        if sinceLastPushMs < policy.minIntervalBetweenPushesMs then some .throttled else none

def tickOnce (lastPush : T → Option LastPush) (ticker : T) (poll : Poll) :
    PollOutcome × (T → Option LastPush) :=
  match poll.scaled with
  | none => (.skipped, lastPush)
  | some scaled =>
      let prev := lastPush ticker
      match policy.refusal prev scaled poll with
      | some outcome => (outcome, lastPush)
      | none =>
          if policy.shouldPush prev scaled poll.staleClock = false then (.unmoved, lastPush)
          else if poll.submitted = true then
            (.pushed scaled, Function.update lastPush ticker (some ⟨scaled, poll.pushClock⟩))
          else (.submitFailed, lastPush)

/-- The loop takes the tickers in turn. -/
def step (lastPush : T → Option LastPush) (poll : T × Poll) : T → Option LastPush :=
  (policy.tickOnce lastPush poll.1 poll.2).2

/-! ## A source that stays at one price -/

/-- From now on every poll of the ticker reports `price`, and its submission succeeds. -/
def Steady (ticker : T) (price : ℤ) (polls : List (T × Poll)) : Prop :=
  ∀ poll, (ticker, poll) ∈ polls → poll.scaled = some price ∧ poll.submitted = true

/-- The poll comes when the minimum interval and the staleness bound have elapsed. -/
def LateFor (prev : Option LastPush) (poll : Poll) : Prop :=
  ∀ last, prev = some last →
    policy.minIntervalBetweenPushesMs ≤ poll.throttleClock - last.pushedAt ∧
      policy.pushOnStaleSec * 1000 ≤ poll.staleClock - last.pushedAt

def WaitedOut (prev : Option LastPush) (ticker : T) (polls : List (T × Poll)) : Prop :=
  ∃ poll, (ticker, poll) ∈ polls ∧ policy.LateFor prev poll

/-- Whenever the source stays at `price` for long enough, `price` is the last pushed. -/
def Reaches (lastPush : T → Option LastPush) (ticker : T) (price : ℤ) : Prop :=
  ∀ polls, Steady ticker price polls → policy.WaitedOut (lastPush ticker) ticker polls →
    (run policy.step lastPush polls ticker).map (·.scaledPrice) = some price

/-- However long the source stays at `price`, the next poll rejects it. -/
def RejectsForever (lastPush : T → Option LastPush) (ticker : T) (price : ℤ) : Prop :=
  ∀ polls poll, Steady ticker price polls → poll.scaled = some price →
    ∃ deltaBps, (policy.tickOnce (run policy.step lastPush polls) ticker poll).1 = .rejected deltaBps

/-- The publisher gets to `price`, and does not reject it forever. -/
def Unstuck (lastPush : T → Option LastPush) (ticker : T) (price : ℤ) : Prop :=
  policy.Reaches lastPush ticker price ∧ ¬ policy.RejectsForever lastPush ticker price

/-- Within the per-tick limit of the last pushed price, if there is one. -/
def Near (prev : Option LastPush) (price : ℤ) : Prop :=
  ∀ last, prev = some last → absDeltaBps price last.scaledPrice ≤ policy.maxDeltaBpsPerTick

section Ticks

variable {policy} {lastPush : T → Option LastPush} {prev : Option LastPush} {ticker other : T}
  {price : ℤ} {poll : Poll} {last : LastPush}

/-- A poll leaves the entries alone or stores the price it has submitted. -/
theorem step_cases (policy : PushPolicy) (lastPush : T → Option LastPush) (ticker : T)
    (poll : Poll) :
    policy.step lastPush (ticker, poll) = lastPush ∨
      ∃ scaled, poll.scaled = some scaled ∧ policy.step lastPush (ticker, poll) =
        Function.update lastPush ticker (some ⟨scaled, poll.pushClock⟩) := by
  unfold step tickOnce
  cases poll.scaled with
  | none => exact .inl rfl
  | some scaled =>
      dsimp only
      cases policy.refusal (lastPush ticker) scaled poll with
      | some outcome => exact .inl rfl
      | none =>
          dsimp only
          split_ifs
          · exact .inl rfl
          · exact .inr ⟨scaled, rfl, rfl⟩
          · exact .inl rfl

theorem step_other (hne : ticker ≠ other) :
    policy.step lastPush (other, poll) ticker = lastPush ticker := by
  obtain hsame | ⟨scaled, _, hpush⟩ := step_cases policy lastPush other poll
  · rw [hsame]
  · rw [hpush, Function.update_of_ne hne]

theorem tickOnce_rejected (hlast : lastPush ticker = some last)
    (hfar : policy.maxDeltaBpsPerTick < absDeltaBps price last.scaledPrice)
    (hprice : poll.scaled = some price) :
    policy.tickOnce lastPush ticker poll =
      (.rejected (absDeltaBps price last.scaledPrice), lastPush) := by
  have hrefused : policy.refusal (lastPush ticker) price poll =
      some (.rejected (absDeltaBps price last.scaledPrice)) := by
    rw [hlast]
    exact if_pos hfar
  simp only [tickOnce, hprice, hrefused]

theorem refusal_of_near (poll : Poll) (hnear : policy.Near prev price) :
    policy.refusal prev price poll = none ∨ policy.refusal prev price poll = some .throttled := by
  cases prev with
  | none => exact .inl rfl
  | some last =>
      simp only [refusal]
      rw [if_neg (not_lt.mpr (hnear last rfl))]
      split_ifs
      · exact .inr rfl
      · exact .inl rfl

/-- Only a price too far from the last one is rejected. -/
theorem not_rejected_of_near {deltaBps : ℤ} (hprice : poll.scaled = some price)
    (hnear : policy.Near (lastPush ticker) price) :
    (policy.tickOnce lastPush ticker poll).1 ≠ .rejected deltaBps := by
  obtain hadmitted | hthrottled := refusal_of_near poll hnear
  · simp only [tickOnce, hprice, hadmitted]
    split_ifs <;> rintro ⟨⟩
  · simp only [tickOnce, hprice, hthrottled]
    rintro ⟨⟩

/-- A late poll near the last price pushes. -/
theorem step_late (hprice : poll.scaled = some price) (hok : poll.submitted = true)
    (hnear : policy.Near (lastPush ticker) price)
    (hlate : policy.LateFor (lastPush ticker) poll) :
    policy.step lastPush (ticker, poll) =
      Function.update lastPush ticker (some ⟨price, poll.pushClock⟩) := by
  have hadmitted : policy.refusal (lastPush ticker) price poll = none := by
    cases hlast : lastPush ticker with
    | none => rfl
    | some last =>
        simp only [refusal]
        rw [if_neg (not_lt.mpr (hnear last hlast)), if_neg (not_lt.mpr (hlate last hlast).1)]
  have hpush : policy.shouldPush (lastPush ticker) price poll.staleClock = true := by
    cases hlast : lastPush ticker with
    | none => rfl
    | some last => exact if_pos (hlate last hlast).2
  simp only [step, tickOnce, hprice, hadmitted, hpush, hok, if_true]
  rfl

end Ticks

/-! ## Getting to the price -/

section Runs

variable {policy} {lastPush : T → Option LastPush} {ticker : T} {price : ℤ}
  {polls : List (T × Poll)} {last : LastPush}

/-- A steady source leaves the entry alone until it pushes. -/
theorem run_steady (policy : PushPolicy) (lastPush : T → Option LastPush)
    (hsteady : Steady ticker price polls) :
    run policy.step lastPush polls ticker = lastPush ticker ∨
      (run policy.step lastPush polls ticker).map (·.scaledPrice) = some price := by
  induction polls generalizing lastPush with
  | nil => exact .inl rfl
  | cons head polls ih =>
      obtain ⟨other, poll⟩ := head
      rw [run_cons]
      have hrest : Steady ticker price polls := fun p hp => hsteady p (List.mem_cons_of_mem _ hp)
      obtain hkept | hpushed := ih (policy.step lastPush (other, poll)) hrest
      · rw [hkept]
        by_cases hne : ticker = other
        · subst hne
          obtain ⟨hprice, _⟩ := hsteady poll List.mem_cons_self
          obtain hsame | ⟨scaled, hscaled, hpush⟩ := step_cases policy lastPush ticker poll
          · rw [hsame]
            exact .inl rfl
          · rw [hpush, Function.update_self, ← hprice, hscaled]
            exact .inr rfl
        · exact .inl (step_other hne)
      · exact .inr hpushed

/-- Once pushed, a steady price stays the last one. -/
theorem run_pushed (hsteady : Steady ticker price polls)
    (hpushed : (lastPush ticker).map (·.scaledPrice) = some price) :
    (run policy.step lastPush polls ticker).map (·.scaledPrice) = some price := by
  obtain hkept | hprice := run_steady policy lastPush hsteady
  · rw [hkept]
    exact hpushed
  · exact hprice

/-- From a price near the last one, the late poll of a steady source pushes at the
latest. -/
theorem reaches_of_near (hnear : policy.Near (lastPush ticker) price) :
    policy.Reaches lastPush ticker price := by
  rintro polls hsteady ⟨poll, hmem, hlate⟩
  obtain ⟨before, after, rfl⟩ := List.append_of_mem hmem
  obtain ⟨hprice, hok⟩ := hsteady poll hmem
  have hbefore : Steady ticker price before := fun p hp =>
    hsteady p (List.mem_append_left _ hp)
  have hafter : Steady ticker price after := fun p hp =>
    hsteady p (List.mem_append_right _ (List.mem_cons_of_mem _ hp))
  rw [run_append, run_cons]
  refine run_pushed hafter ?_
  obtain hkept | hpushed := run_steady policy lastPush hbefore
  · rw [← hkept] at hnear hlate
    rw [step_late hprice hok hnear hlate, Function.update_self]
    rfl
  · have hpoll : Steady ticker price [(ticker, poll)] := by
      intro p hp
      cases List.mem_singleton.mp hp
      exact ⟨hprice, hok⟩
    exact run_pushed hpoll hpushed

/-- A price too far away is rejected by each poll, which leaves the entry alone. -/
theorem run_far (hlast : lastPush ticker = some last)
    (hfar : policy.maxDeltaBpsPerTick < absDeltaBps price last.scaledPrice)
    (hsteady : Steady ticker price polls) :
    run policy.step lastPush polls ticker = some last := by
  induction polls generalizing lastPush with
  | nil => exact hlast
  | cons head polls ih =>
      obtain ⟨other, poll⟩ := head
      refine ih ?_ fun p hp => hsteady p (List.mem_cons_of_mem _ hp)
      by_cases hne : ticker = other
      · subst hne
        rw [step, tickOnce_rejected hlast hfar (hsteady poll List.mem_cons_self).1]
        exact hlast
      · rw [step_other hne]
        exact hlast

theorem rejectsForever_of_far (hlast : lastPush ticker = some last)
    (hfar : policy.maxDeltaBpsPerTick < absDeltaBps price last.scaledPrice) :
    policy.RejectsForever lastPush ticker price := by
  intro polls poll hsteady hprice
  rw [tickOnce_rejected (run_far hlast hfar hsteady) hfar hprice]
  exact ⟨_, rfl⟩

/-- A price near the last one is not rejected now. -/
theorem not_rejectsForever_of_near (hnear : policy.Near (lastPush ticker) price) :
    ¬ policy.RejectsForever lastPush ticker price := by
  intro hrejects
  have hnone : Steady ticker price ([] : List (T × Poll)) := by
    intro p hp
    cases hp
  obtain ⟨deltaBps, hrejected⟩ := hrejects [] ⟨some price, 0, 0, true, 0⟩ hnone rfl
  exact not_rejected_of_near rfl hnear hrejected

end Runs

/-- The publisher is not stuck before a price exactly if that is within the
per-tick limit of the last price pushed, if any was. -/
theorem unstuck_iff (policy : PushPolicy) (lastPush : T → Option LastPush) (ticker : T)
    (price : ℤ) :
    policy.Unstuck lastPush ticker price ↔ policy.Near (lastPush ticker) price := by
  constructor
  · rintro ⟨-, hrejects⟩ last hlast
    by_contra hfar
    exact hrejects (rejectsForever_of_far hlast (not_le.mp hfar))
  · exact fun hnear => ⟨reaches_of_near hnear, not_rejectsForever_of_near hnear⟩

/-- A price three percent above the last one. -/
theorem stuck_after_jump :
    ¬ ∀ (policy : PushPolicy) (lastPush : ℕ → Option LastPush) (ticker : ℕ) (price : ℤ),
      0 < price → policy.Unstuck lastPush ticker price := by
  intro h
  obtain ⟨-, hrejects⟩ := h defaultPolicy (fun _ => some ⟨1000000000, 0⟩) 0 1030000000 (by decide)
  exact hrejects (rejectsForever_of_far rfl (by decide))

end PushPolicy
end Stellars
