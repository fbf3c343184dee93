import Stellars.GuardedRuns
import Stellars.Promises
import Mathlib.Data.List.Basic

/-!
# The keeper's submission queue

Both keeper loops submit through one chain of promises: a call is chained behind the
last one with its rejection swallowed. Callers, reactions and the ends of actions
interleave in any order.
-/
namespace Stellars
open GuardedRuns Promises

structure Serializer (ε α : Type) where
  heap : Heap ε α
  chain : ℕ

namespace Serializer

variable {ε α : Type} (undefined : α)

def createSerializer : Serializer ε α := ⟨.resolved undefined, 0⟩

/-- `next` is the promise the caller gets; the chain goes on without its rejection. -/
def serialize (s : Serializer ε α) : Serializer ε α × ℕ :=
  let next := s.heap.size
  let heap := s.heap.derive s.chain .onFulfilled
  (⟨heap.derive next (.onRejected undefined), heap.size⟩, next)

end Serializer

inductive Activity (ε α : Type)
  | started (promise : ℕ)
  | ended (promise : ℕ) (r : Except ε α)

inductive QueueOp (ε α : Type)
  | serialize
  | react (promise : ℕ)
  | finish (promise : ℕ) (r : Except ε α)

/-- The serializer with the promises it has handed out, oldest first, and what the
actions behind them have done. -/
structure Submissions (ε α : Type) where
  serializer : Serializer ε α
  promises : List ℕ
  log : List (Activity ε α)

def Promises.Status.isRunning {ε α : Type} : Status ε α → Bool
  | .running => true
  | _ => false

namespace Submissions

variable {ε α : Type} (undefined : α)

def start : Submissions ε α := ⟨.createSerializer undefined, [], []⟩

def heap (t : Submissions ε α) : Heap ε α := t.serializer.heap

def setHeap (t : Submissions ε α) (h : Heap ε α) : Submissions ε α :=
  { t with serializer := { t.serializer with heap := h } }

def record (t : Submissions ε α) (a : Activity ε α) : Submissions ε α :=
  { t with log := t.log ++ [a] }

def step (t : Submissions ε α) : QueueOp ε α → Submissions ε α
  | .serialize =>
      let (serializer, next) := t.serializer.serialize undefined
      { t with serializer := serializer, promises := t.promises ++ [next] }
  | .react p =>
      let t' := t.setHeap (t.heap.react p)
      if !(t.heap.status p).isRunning && (t'.heap.status p).isRunning then
        t'.record (.started p)
      else t'
  | .finish p r =>
      let t' := t.setHeap (t.heap.finish p r)
      if (t.heap.status p).isRunning && !(t'.heap.status p).isRunning then
        t'.record (.ended p r)
      else t'

/-- The actions of the first promises, one after the other, with their results. -/
def turns (promises : List ℕ) (results : List (Except ε α)) : List (Activity ε α) :=
  (promises.zip results).flatMap fun turn => [.started turn.1, .ended turn.1 turn.2]

/-- The action in progress, if there is one. -/
def current (t : Submissions ε α) (next : Option ℕ) : List (Activity ε α) :=
  match next with
  | some p => if (t.heap.status p).isRunning then [.started p] else []
  | none => []

/-- Actions run one at a time in the order of the calls; each caller gets the result of
its own action, and nobody else's failure. -/
structure Orderly (t : Submissions ε α) (results : List (Except ε α)) : Prop where
  served : results.length ≤ t.promises.length
  log : t.log = turns t.promises results ++ t.current t.promises[results.length]?
  own : ∀ (k p : ℕ) (r : Except ε α), t.promises[k]? = some p →
    (t.heap.status p = .settled r ↔ results[k]? = some r)

/-- When no action runs and a call is waiting, at most two reactions start its action. -/
def Wakes (t : Submissions ε α) (results : List (Except ε α)) : Prop :=
  results.length < t.promises.length → t.log = turns t.promises results →
    ∃ (p : ℕ) (reactions : List ℕ), t.promises[results.length]? = some p ∧
      reactions.length ≤ 2 ∧
        (run (step undefined) t (reactions.map .react)).log = t.log ++ [.started p]

/-- The odd promises are the callers', the even ones pass on to the next. -/
structure Line (t : Submissions ε α) : Prop where
  size : t.heap.size = 2 * t.promises.length + 1
  last : t.serializer.chain = 2 * t.promises.length
  promises : t.promises = (List.range t.promises.length).map (2 * · + 1)
  actions : ∀ k, k < t.promises.length → (t.heap.cell (2 * k + 1)).handler = .onFulfilled
  passes : ∀ k, k < t.promises.length →
    (t.heap.cell (2 * k + 2)).handler = .onRejected undefined

/-- The line while `results` are in. -/
structure InTurn (t : Submissions ε α) (results : List (Except ε α)) (f : ℕ) : Prop
    extends Line undefined t where
  chain : t.heap.Chain f
  turn : f = 2 * results.length ∨ f = 2 * results.length + 1
  ended : ∀ k r, results[k]? = some r → t.heap.status (2 * k + 1) = .settled r
  passed : ∀ k, 2 * k < f → ∃ a, t.heap.status (2 * k) = .settled (.ok a)
  between : f = 2 * results.length → f < t.heap.size → t.heap.status f = .pending
  log : t.log = turns t.promises results ++ t.current t.promises[results.length]?

variable {undefined} {t : Submissions ε α} {results : List (Except ε α)} {f : ℕ}

theorem Line.getElem (h : Line undefined t) (k : ℕ) :
    t.promises[k]? = if k < t.promises.length then some (2 * k + 1) else none := by
  split_ifs with hk
  · rw [h.promises]
    simp [hk]
  · exact List.getElem?_eq_none (not_lt.mp hk)

theorem InTurn.served (h : InTurn undefined t results f) :
    results.length ≤ t.promises.length := by
  have hle := h.chain.le_size
  have hsize := h.size
  obtain hf | hf := h.turn <;> omega

theorem inTurn_start : InTurn undefined (start undefined : Submissions ε α) [] 1 where
  chain := Heap.chain_resolved undefined
  size := rfl
  last := rfl
  promises := rfl
  actions := fun _ hk => absurd hk (Nat.not_lt_zero _)
  passes := fun _ hk => absurd hk (Nat.not_lt_zero _)
  turn := .inr rfl
  ended := fun _ _ hr => by simp at hr
  passed := fun _ _ => ⟨undefined, rfl⟩
  between := fun h => absurd h Nat.one_ne_zero
  log := rfl

/-! ## Steps -/

@[simp] theorem heap_setHeap (h : Heap ε α) : (t.setHeap h).heap = h := rfl

@[simp] theorem heap_record (a : Activity ε α) : (t.record a).heap = t.heap := rfl

theorem step_react_of_eq {p : ℕ} (h : t.heap.react p = t.heap) : step undefined t (.react p) = t := by
  simp only [step, h, heap_setHeap, Bool.not_and_self, Bool.false_eq_true, if_false]
  rfl

theorem step_finish_of_eq {p : ℕ} {r : Except ε α} (h : t.heap.finish p r = t.heap) :
    step undefined t (.finish p r) = t := by
  simp only [step, h, heap_setHeap, Bool.and_not_self, Bool.false_eq_true, if_false]
  rfl

theorem current_congr {t' : Submissions ε α} {next : Option ℕ}
    (h : ∀ p, next = some p → t'.heap.status p = t.heap.status p) :
    t'.current next = t.current next := by
  cases next with
  | none => rfl
  | some p => simp only [current, h p rfl]

@[simp] theorem turns_nil (promises : List ℕ) :
    turns promises ([] : List (Except ε α)) = [] := by simp [turns]

@[simp] theorem turns_cons (p : ℕ) (promises : List ℕ) (r : Except ε α) :
    turns (p :: promises) (r :: results) = .started p :: .ended p r :: turns promises results := rfl

theorem turns_append_promise {promises : List ℕ} (p : ℕ) (h : results.length ≤ promises.length) :
    turns (promises ++ [p]) results = turns promises results := by
  induction promises generalizing results with
  | nil =>
      rw [List.length_eq_zero_iff.mp (Nat.le_zero.mp h), turns_nil, turns_nil]
  | cons q promises ih =>
      cases results with
      | nil => rw [turns_nil, turns_nil]
      | cons r results =>
          rw [List.cons_append, turns_cons, turns_cons, ih (Nat.le_of_succ_le_succ h)]

theorem turns_append_result {promises : List ℕ} {p : ℕ} (r : Except ε α)
    (h : promises[results.length]? = some p) :
    turns promises (results ++ [r]) = turns promises results ++ [.started p, .ended p r] := by
  induction results generalizing promises with
  | nil =>
      cases promises with
      | nil => simp at h
      | cons q promises =>
          obtain rfl : q = p := by simpa using h
          simp
  | cons r' results ih =>
      cases promises with
      | nil => simp at h
      | cons q promises =>
          rw [List.cons_append, turns_cons, turns_cons, ih (by simpa using h)]
          rfl

/-- A call joins the end of the line and disturbs nobody in it. -/
theorem inTurn_serialize (h : InTurn undefined t results f) :
    InTurn undefined (step undefined t .serialize) results f := by
  have hchain : t.serializer.chain = t.heap.size - 1 := by
    rw [h.last, h.size]
    omega
  have hserved := h.served
  set next := t.heap.size with hnext
  have hn : next = 2 * t.promises.length + 1 := h.size
  set h1 := t.heap.derive t.serializer.chain .onFulfilled with hh1
  have hsize1 : h1.size = next + 1 := rfl
  have hheap : (step undefined t .serialize).heap = h1.derive next (.onRejected undefined) := rfl
  have hpromises : (step undefined t .serialize).promises = t.promises ++ [next] := rfl
  have hlen : (step undefined t .serialize).promises.length = t.promises.length + 1 := by
    rw [hpromises, List.length_append, List.length_singleton]
  have hcell : ∀ p < next, (step undefined t .serialize).heap.cell p = t.heap.cell p :=
    fun p hp => by
      rw [hheap, Heap.cell_derive_of_lt _ _ _ _ (by omega), hh1,
        Heap.cell_derive_of_lt _ _ _ _ hp]
  have hcaller : (step undefined t .serialize).heap.cell next =
      ⟨t.serializer.chain, .onFulfilled, .pending⟩ := by
    rw [hheap, Heap.cell_derive_of_lt _ _ _ _ (by omega), hh1, hnext, Heap.cell_derive_self]
  have hpass : (step undefined t .serialize).heap.cell (next + 1) =
      ⟨next, .onRejected undefined, .pending⟩ := by
    rw [hheap, ← hsize1, Heap.cell_derive_self]
  have hstatus : ∀ p < next, (step undefined t .serialize).heap.status p = t.heap.status p :=
    fun p hp => by rw [Heap.status, hcell p hp, Heap.status]
  refine ⟨⟨?_, ?_, ?_, fun k hk => ?_, fun k hk => ?_⟩, ?_, h.turn, fun k r hr => ?_,
    fun k hk => ?_, fun hf hlt => ?_, ?_⟩
  · rw [hlen]
    change next + 1 + 1 = _
    omega
  · rw [hlen]
    change next + 1 = _
    omega
  · rw [hlen, List.range_succ, List.map_append, ← h.promises, hpromises, hn]
    rfl
  · obtain hlt | rfl := Nat.lt_succ_iff_lt_or_eq.mp (hlen ▸ hk)
    · rw [hcell _ (by omega)]
      exact h.actions k hlt
    · rw [← hn, hcaller]
  · obtain hlt | rfl := Nat.lt_succ_iff_lt_or_eq.mp (hlen ▸ hk)
    · rw [hcell _ (by omega)]
      exact h.passes k hlt
    · rw [show 2 * t.promises.length + 2 = next + 1 by omega, hpass]
  · have h2 := (h.chain.derive .onFulfilled).derive (.onRejected undefined)
    rwa [← hchain] at h2
  · rw [hstatus _ ?_]
    · exact h.ended k r hr
    · have hk := (List.getElem?_eq_some_iff.mp hr).1
      omega
  · have hle := h.chain.le_size
    rw [hstatus _ (by omega)]
    exact h.passed k hk
  · have hle := h.chain.le_size
    rw [hstatus f (by omega)]
    exact h.between hf (by omega)
  · change t.log = _
    rw [h.log, hpromises, turns_append_promise next hserved]
    congr 1
    obtain hlt | heq := hserved.lt_or_eq
    · rw [List.getElem?_append_left hlt]
      refine (current_congr fun p hp => hstatus p ?_).symm
      rw [h.getElem, if_pos hlt] at hp
      cases hp
      omega
    · have hnone : t.promises[results.length]? = none := List.getElem?_eq_none heq.ge
      rw [hnone, List.getElem?_append_right heq.ge, heq, Nat.sub_self]
      simp only [current, List.getElem?_cons_zero, Heap.status, hcaller, Status.isRunning,
        Bool.false_eq_true, if_false]

theorem Line.record (h : Line undefined t) (a : Activity ε α) : Line undefined (t.record a) :=
  ⟨h.size, h.last, h.promises, h.actions, h.passes⟩

theorem Line.setStatus (h : Line undefined t) (p : ℕ) (s : Status ε α) :
    Line undefined (t.setHeap (t.heap.setStatus p s)) where
  size := h.size
  last := h.last
  promises := h.promises
  actions := fun k hk => (t.heap.handler_setStatus p _ s).trans (h.actions k hk)
  passes := fun k hk => (t.heap.handler_setStatus p _ s).trans (h.passes k hk)

/-- The promise between two actions settles, whatever the first one ended with. -/
theorem inTurn_pass (h : InTurn undefined t results f) (hf : f = 2 * results.length)
    (hlt : f < t.heap.size) (a : α) :
    InTurn undefined (t.setHeap (t.heap.setStatus f (.settled (.ok a)))) results (f + 1) := by
  have hother : ∀ q, q ≠ f →
      (t.setHeap (t.heap.setStatus f (.settled (.ok a)))).heap.status q = t.heap.status q :=
    fun q hq => by rw [heap_setHeap, Heap.status_setStatus, if_neg hq]
  refine ⟨h.toLine.setStatus f _, h.chain.settle hlt _, by omega, fun k r hr => ?_,
    fun k hk => ?_, by omega, ?_⟩
  · rw [hother _ (by omega)]
    exact h.ended k r hr
  · by_cases hkf : 2 * k = f
    · exact ⟨a, by rw [heap_setHeap, Heap.status_setStatus, if_pos hkf]⟩
    · rw [hother _ hkf]
      exact h.passed k (by omega)
  · change t.log = _
    rw [h.log]
    refine congrArg _ (current_congr fun p hp => hother p ?_).symm
    rw [h.getElem] at hp
    split_ifs at hp
    cases hp
    omega

theorem inTurn_take (h : InTurn undefined t results f) (hf : f = 2 * results.length + 1)
    (hlt : f < t.heap.size) (hpend : t.heap.status f = .pending) :
    InTurn undefined ((t.setHeap (t.heap.setStatus f .running)).record (.started f))
      results f := by
  have hother : ∀ q, q ≠ f →
      (t.heap.setStatus f (.running : Status ε α)).status q = t.heap.status q :=
    fun q hq => by rw [Heap.status_setStatus, if_neg hq]
  have hnext : t.promises[results.length]? = some f := by
    have hsize := h.size
    rw [h.getElem, if_pos (by omega), hf]
  refine ⟨(h.toLine.setStatus f _).record _, h.chain.start, .inr hf, fun k r hr => ?_, fun k hk => ?_,
    by omega, ?_⟩
  · have hk := (List.getElem?_eq_some_iff.mp hr).1
    exact (hother _ (by omega)).trans (h.ended k r hr)
  · obtain ⟨a, ha⟩ := h.passed k hk
    exact ⟨a, (hother _ (by omega)).trans ha⟩
  · have hbefore : t.current (some f) = [] := by simp [current, hpend, Status.isRunning]
    have hafter : ((t.setHeap (t.heap.setStatus f .running)).record (.started f)).current
        (some f) = [.started f] := by simp [current, Status.isRunning]
    change t.log ++ _ = turns t.promises results ++ current _ t.promises[results.length]?
    rw [h.log, hnext, hbefore, hafter, List.append_nil]

theorem step_react_pass (h : InTurn undefined t results f) (hf : f = 2 * results.length)
    (hlt : f < t.heap.size) :
    ∃ a, step undefined t (.react f) = t.setHeap (t.heap.setStatus f (.settled (.ok a))) := by
  have hsize := h.size
  have hpos := h.chain.pos
  obtain ⟨r, -, hreact⟩ := h.chain.react_self hlt (h.between hf hlt)
  have hhandler := h.passes (results.length - 1) (by omega)
  rw [show 2 * (results.length - 1) + 2 = f by omega] at hhandler
  obtain ⟨a, ha⟩ : ∃ a, (t.heap.cell f).handler.reaction r = .settled (.ok a) := by
    rw [hhandler]
    cases r <;> exact ⟨_, rfl⟩
  refine ⟨a, ?_⟩
  simp [step, hreact, ha, Status.isRunning]

theorem step_react_take (h : InTurn undefined t results f) (hf : f = 2 * results.length + 1)
    (hlt : f < t.heap.size) (hpend : t.heap.status f = .pending) :
    step undefined t (.react f) =
      (t.setHeap (t.heap.setStatus f .running)).record (.started f) := by
  have hsize := h.size
  obtain ⟨r, hr, hreact⟩ := h.chain.react_self hlt hpend
  obtain ⟨a, ha⟩ := h.passed results.length (by omega)
  have hhandler := h.actions results.length (by omega)
  rw [← hf] at hhandler
  rw [show f - 1 = 2 * results.length by omega, ha] at hr
  cases hr
  simp [step, hreact, hhandler, Handler.reaction, hpend, Status.isRunning]

/-- Only the promise at the front reacts: it passes the turn on, or takes it. -/
theorem inTurn_react (h : InTurn undefined t results f) (p : ℕ) :
    ∃ f', InTurn undefined (step undefined t (.react p)) results f' := by
  by_cases hpf : p = f
  · subst hpf
    by_cases hlt : p < t.heap.size
    · by_cases hpend : t.heap.status p = .pending
      · obtain hf | hf := h.turn
        · obtain ⟨a, hstep⟩ := step_react_pass h hf hlt
          exact ⟨p + 1, hstep ▸ inTurn_pass h hf hlt a⟩
        · exact ⟨p, step_react_take h hf hlt hpend ▸ inTurn_take h hf hlt hpend⟩
      · exact ⟨p, by rwa [step_react_of_eq (Heap.react_of_not_pending hpend)]⟩
    · exact ⟨p, by rwa [step_react_of_eq (Heap.react_of_size_le (not_lt.mp hlt))]⟩
  · exact ⟨f, by rwa [step_react_of_eq (h.chain.react_of_ne hpf)]⟩

theorem inTurn_finish (h : InTurn undefined t results f) (p : ℕ) (r : Except ε α) :
    ∃ results' f', InTurn undefined (step undefined t (.finish p r)) results' f' := by
  by_cases hrun : p = f ∧ f < t.heap.size ∧ t.heap.status f = .running
  · obtain ⟨rfl, hlt, hrun⟩ := hrun
    have hsize := h.size
    have hodd : p = 2 * results.length + 1 := by
      obtain hf | hf := h.turn
      · rw [h.between hf hlt] at hrun
        cases hrun
      · exact hf
    have hother : ∀ q, q ≠ p →
        (t.heap.setStatus p (.settled r)).status q = t.heap.status q :=
      fun q hq => by rw [Heap.status_setStatus, if_neg hq]
    have hnext : t.promises[results.length]? = some p := by
      rw [h.getElem, if_pos (by omega), hodd]
    have hstep : step undefined t (.finish p r) =
        (t.setHeap (t.heap.setStatus p (.settled r))).record (.ended p r) := by
      simp [step, Heap.finish_of_running r hrun hlt, hrun, Status.isRunning]
    rw [hstep]
    refine ⟨results ++ [r], p + 1, (h.toLine.setStatus p _).record _, h.chain.settle hlt r, ?_,
      fun k r' hr' => ?_, fun k hk => ?_, fun hf hlt' => ?_, ?_⟩
    · rw [List.length_append, List.length_singleton]
      omega
    · obtain hk | hk := Nat.lt_or_ge k results.length
      · rw [List.getElem?_append_left hk] at hr'
        exact (hother _ (by omega)).trans (h.ended k r' hr')
      · have hk' := (List.getElem?_eq_some_iff.mp hr').1
        rw [List.length_append, List.length_singleton] at hk'
        obtain rfl : k = results.length := by omega
        have hr : r = r' := by simpa using hr'
        rw [← hodd, ← hr]
        exact (t.heap.status_setStatus p p _).trans (if_pos rfl)
    · obtain ⟨a, ha⟩ := h.passed k (by omega)
      exact ⟨a, (hother _ (by omega)).trans ha⟩
    · exact (hother _ (by omega)).trans (h.chain.pending (p + 1) (by omega) hlt')
    · have hbefore : t.current (some p) = [.started p] := by
        simp [current, hrun, Status.isRunning]
      have hafter : ((t.setHeap (t.heap.setStatus p (.settled r))).record (.ended p r)).current
          t.promises[(results ++ [r]).length]? = [] := by
        rw [h.getElem, List.length_append, List.length_singleton]
        split_ifs with hmore
        · have hpend := h.chain.pending (p + 2) (by omega) (by omega)
          rw [show 2 * (results.length + 1) + 1 = p + 2 by omega]
          simp [current, hpend, Status.isRunning]
        · rfl
      change t.log ++ _ = turns t.promises (results ++ [r]) ++ current _ t.promises[_]?
      rw [hafter, h.log, hnext, hbefore, turns_append_result r hnext]
      simp
  · refine ⟨results, f, ?_⟩
    have hsame : t.heap.finish p r = t.heap := by
      by_cases hpf : p = f
      · subst hpf
        by_cases hlt : p < t.heap.size
        · exact Heap.finish_of_not_running r fun hr => hrun ⟨rfl, hlt, hr⟩
        · unfold Heap.finish
          split
          · exact if_neg hlt
          · rfl
      · exact h.chain.finish_of_ne r hpf
    rwa [step_finish_of_eq hsame]

theorem inTurn_step (h : ∃ results f, InTurn undefined t results f) (op : QueueOp ε α) :
    ∃ results f, InTurn undefined (step undefined t op) results f := by
  obtain ⟨results, f, h⟩ := h
  cases op with
  | serialize => exact ⟨results, f, inTurn_serialize h⟩
  | react p => exact ⟨results, inTurn_react h p⟩
  | finish p r => exact inTurn_finish h p r

theorem InTurn.orderly (h : InTurn undefined t results f) : Orderly t results where
  served := h.served
  log := h.log
  own := fun k p r hp => by
    rw [h.getElem] at hp
    split_ifs at hp with hk
    obtain rfl : 2 * k + 1 = p := by simpa using hp
    have hsize := h.size
    refine ⟨fun hr => ?_, h.ended k r⟩
    by_cases hlt : k < results.length
    · have hown := h.ended k _ (List.getElem?_eq_getElem hlt)
      rw [hr] at hown
      cases hown
      exact List.getElem?_eq_getElem hlt
    · exfalso
      have hturn := h.turn
      obtain heq | hlater : 2 * k + 1 = f ∨ f < 2 * k + 1 := by omega
      · exact h.chain.unsettled (by omega) ⟨r, heq ▸ hr⟩
      · rw [h.chain.pending _ hlater (by omega)] at hr
        cases hr

theorem InTurn.wakes (h : InTurn undefined t results f) : Wakes undefined t results := by
  intro hwaits hidle
  have hsize := h.size
  have hnext : t.promises[results.length]? = some (2 * results.length + 1) := by
    rw [h.getElem, if_pos hwaits]
  have hstill : t.current (some (2 * results.length + 1)) = [] := by
    have hlog := h.log
    rw [hidle, hnext] at hlog
    exact List.self_eq_append_right.mp hlog
  have hready : t.heap.status (2 * results.length + 1) = .pending := by
    obtain hf | hf := h.turn
    · exact h.chain.pending _ (by omega) (by omega)
    · cases hstatus : t.heap.status (2 * results.length + 1) with
      | pending => rfl
      | running => simp [current, hstatus, Status.isRunning] at hstill
      | settled r => exact absurd ⟨r, hf ▸ hstatus⟩ (h.chain.unsettled (by omega))
  refine ⟨2 * results.length + 1, ?_⟩
  obtain hf | hf := h.turn
  · obtain ⟨a, hpass⟩ := step_react_pass h hf (by omega)
    have hnow := inTurn_pass h hf (by omega) a
    have hpend : (t.setHeap (t.heap.setStatus f (.settled (.ok a)))).heap.status (f + 1) =
        .pending := by
      rw [heap_setHeap, Heap.status_setStatus, if_neg (by omega), hf]
      exact hready
    refine ⟨[f, f + 1], hnext, le_rfl, ?_⟩
    rw [List.map_cons, List.map_cons, List.map_nil, run_cons, run_cons, run_nil, hpass,
      step_react_take hnow (by omega) (by simp only [heap_setHeap, Heap.size_setStatus]; omega)
        hpend, hf]
    rfl
  · refine ⟨[f], hnext, Nat.le_succ 1, ?_⟩
    rw [List.map_cons, List.map_nil, run_cons, run_nil,
      step_react_take h hf (by omega) (hf ▸ hready), hf]
    rfl

/-- However callers, reactions and the ends of actions interleave, the keeper's
submissions run one at a time in the order they were made, and none is forgotten. -/
theorem submissions_in_order (ops : List (QueueOp ε α)) :
    let t := run (step undefined) (start undefined) ops
    ∃ results, Orderly t results ∧ Wakes undefined t results := by
  intro t
  have hstep : ∀ t (op : QueueOp ε α), (∃ results f, InTurn undefined t results f) →
      ∃ results f, InTurn undefined (step undefined t op) results f := fun _ op h => inTurn_step h op
  have hturn : ∃ results f, InTurn undefined t results f :=
    run_invariant' ops hstep ⟨[], 1, inTurn_start⟩
  obtain ⟨results, f, h⟩ := hturn
  exact ⟨results, h.orderly, h.wakes⟩

end Submissions
end Stellars
