import Mathlib.Control.Monad.Writer
import Stellars.GuardedRuns

/-!
# Calls that publish events

A logged call is a guarded call together with the events it publishes; a revert
publishes nothing. Erasing the events gives the guarded call back. A reader that
sees only the log of a run folds a handler over it, and the rules here carry what
ties the reader to the state from one step to the whole run.
-/
namespace Stellars.EventLogs
open GuardedRuns

abbrev Logged (ε ω α : Type) := WriterT (List ω) (Except ε) α

section Calls

variable {ε ω α β : Type}

/-- A call that publishes nothing. -/
def call (x : Except ε α) : Logged ε ω α := WriterT.mk ((fun a => (a, [])) <$> x)

def publish (e : ω) : Logged ε ω Unit := WriterT.mk (.ok ((), [e]))

/-- The call without its events. -/
def erase (x : Logged ε ω α) : Except ε α := Prod.fst <$> x.run

@[simp] theorem erase_call (x : Except ε α) : erase (call x : Logged ε ω α) = x := by
  cases x <;> rfl

@[simp] theorem erase_publish (e : ω) : erase (publish e : Logged ε ω Unit) = .ok () := rfl

@[simp] theorem erase_pure (a : α) : erase (pure a : Logged ε ω α) = .ok a := rfl

@[simp] theorem erase_bind (x : Logged ε ω α) (f : α → Logged ε ω β) :
    erase (x >>= f) = erase x >>= fun a => erase (f a) := by
  have hrun : (x >>= f).run = x.run >>= fun p =>
      (fun q : β × List ω => (q.1, p.2 ++ q.2)) <$> (f p.1).run := rfl
  rw [erase, hrun, erase]
  cases x.run with
  | error e => rfl
  | ok p => cases h : (f p.1).run <;> simp [Functor.map, Except.map, bind, Except.bind, erase, h]

@[simp] theorem erase_ite (c : Prop) [Decidable c] (x y : Logged ε ω α) :
    erase (if c then x else y) = if c then erase x else erase y := by
  split_ifs <;> rfl

@[simp] theorem bind_ok (x : Except ε α) : (x >>= Except.ok) = x := by
  cases x <;> rfl

theorem bind_ok_comp (x : Except ε α) (f : α → β) : (x >>= fun a => .ok (f a)) = f <$> x := by
  cases x <;> rfl

theorem erase_of_run {x : Logged ε ω α} {a : α} {log : List ω} (h : x.run = .ok (a, log)) :
    erase x = .ok a := by
  rw [erase, h]
  rfl

theorem exists_log {x : Logged ε ω α} {a : α} (h : erase x = .ok a) :
    ∃ log, x.run = .ok (a, log) := by
  obtain ⟨⟨a', log⟩, hrun, rfl⟩ := map_eq_ok.mp h
  exact ⟨log, hrun⟩

@[simp] theorem run_call {x : Except ε α} {a : α} {log : List ω} :
    (call x : Logged ε ω α).run = .ok (a, log) ↔ x = .ok a ∧ log = [] := by
  cases x <;> simp [call, Functor.map, Except.map, eq_comm]

@[simp] theorem run_publish {e : ω} {u : Unit} {log : List ω} :
    (publish e : Logged ε ω Unit).run = .ok (u, log) ↔ log = [e] := by
  simp [publish, eq_comm]

@[simp] theorem run_pure {a b : α} {log : List ω} :
    (pure a : Logged ε ω α).run = .ok (b, log) ↔ a = b ∧ log = [] := by
  have hrun : (pure a : Logged ε ω α).run = .ok (a, []) := rfl
  rw [hrun, Except.ok.injEq, Prod.mk.injEq, eq_comm (a := log)]

theorem run_bind {x : Logged ε ω α} {f : α → Logged ε ω β} {b : β} {log : List ω} :
    (x >>= f).run = .ok (b, log) ↔
      ∃ a first rest, x.run = .ok (a, first) ∧ (f a).run = .ok (b, rest) ∧ log = first ++ rest := by
  have hrun : (x >>= f).run = x.run >>= fun p =>
      (fun q : β × List ω => (q.1, p.2 ++ q.2)) <$> (f p.1).run := rfl
  rw [hrun, bind_eq_ok]
  constructor
  · rintro ⟨⟨a, first⟩, hx, hf⟩
    obtain ⟨⟨b', rest⟩, hrest, heq⟩ := map_eq_ok.mp hf
    obtain ⟨rfl, rfl⟩ := Prod.mk.inj heq
    exact ⟨a, first, rest, hx, hrest, rfl⟩
  · rintro ⟨a, first, rest, hx, hrest, rfl⟩
    exact ⟨(a, first), hx, map_eq_ok.mpr ⟨(b, rest), hrest, rfl⟩⟩

/-- A first call that publishes nothing leaves the log to the rest. -/
theorem run_call_bind {x : Except ε α} {f : α → Logged ε ω β} {b : β} {log : List ω} :
    (call x >>= f).run = .ok (b, log) ↔ ∃ a, x = .ok a ∧ (f a).run = .ok (b, log) := by
  simp only [run_bind, run_call]
  constructor
  · rintro ⟨a, _, _, ⟨hx, rfl⟩, hf, rfl⟩
    exact ⟨a, hx, hf⟩
  · rintro ⟨a, hx, hf⟩
    exact ⟨a, [], log, ⟨hx, rfl⟩, hf, rfl⟩

/-- A call that announces its result. -/
theorem run_announced {x : Except ε α} {e : α → ω} {a : α} {log : List ω} :
    (call x >>= fun a => publish (e a) >>= fun _ => pure a).run = .ok (a, log) ↔
      x = .ok a ∧ log = [e a] := by
  simp only [run_bind, run_call, run_publish, run_pure]
  constructor
  · rintro ⟨_, _, _, ⟨hx, rfl⟩, ⟨_, _, _, rfl, ⟨rfl, rfl⟩, rfl⟩, rfl⟩
    exact ⟨hx, rfl⟩
  · rintro ⟨hx, rfl⟩
    exact ⟨a, [], [e a], ⟨hx, rfl⟩, ⟨(), [e a], [], rfl, ⟨rfl, rfl⟩, rfl⟩, rfl⟩

/-- A call that announces its result at most. -/
theorem run_announced_if {c : Prop} [Decidable c] {x : Except ε α} {e : ω} {a : α} {log : List ω}
    (h : (call x >>= fun a =>
      if c then publish e >>= fun _ => pure a else pure a).run = .ok (a, log)) :
    x = .ok a ∧ (log = [] ∨ log = [e]) := by
  split_ifs at h
  · obtain ⟨hx, hlog⟩ := run_announced.mp h
    exact ⟨hx, .inr hlog⟩
  · obtain ⟨_, hx, hdone⟩ := run_call_bind.mp h
    obtain ⟨rfl, rfl⟩ := run_pure.mp hdone
    exact ⟨hx, .inl rfl⟩

/-- The events of a call, none if it reverts. -/
def events (x : Logged ε ω α) : List ω :=
  match x.run with
  | .ok (_, log) => log
  | .error _ => []

theorem events_of_run {x : Logged ε ω α} {a : α} {log : List ω} (h : x.run = .ok (a, log)) :
    events x = log := by
  rw [events, h]

theorem events_of_error {x : Logged ε ω α} {e : ε} (h : erase x = .error e) : events x = [] := by
  unfold events
  split
  · next hrun =>
      rw [erase_of_run hrun] at h
      cases h
  · rfl

end Calls

section Replay

variable {σ ι ω δ : Type*} (step : σ → ι → σ) (out : σ → ι → List ω)

/-- Everything a run publishes, in order. -/
def logOf (s : σ) : List ι → List ω
  | [] => []
  | op :: ops => out s op ++ logOf (step s op) ops

def replay (handle : δ → ω → δ) (d : δ) (log : List ω) : δ := log.foldl handle d

variable {handle : δ → ω → δ}

@[simp] theorem replay_nil (d : δ) : replay handle d [] = d := rfl

@[simp] theorem replay_cons (d : δ) (e : ω) (log : List ω) :
    replay handle d (e :: log) = replay handle (handle d e) log := rfl

@[simp] theorem replay_append (d : δ) (first rest : List ω) :
    replay handle d (first ++ rest) = replay handle (replay handle d first) rest := by
  simp [replay]

variable {step out}

/-- What a step keeps between the state and its reader holds after every run. -/
theorem replay_invariant {Inv : σ → δ → Prop}
    (hstep : ∀ s d op, Inv s d → Inv (step s op) (replay handle d (out s op)))
    {s : σ} {d : δ} (ops : List ι) (h : Inv s d) :
    Inv (run step s ops) (replay handle d (logOf step out s ops)) := by
  induction ops generalizing s d with
  | nil => exact h
  | cons op ops ih =>
      rw [logOf, replay_append]
      exact ih (hstep s d op h)

/-- Some step of the run satisfies `R`. -/
def Meets (step : σ → ι → σ) (R : σ → ι → Prop) (s : σ) : List ι → Prop
  | [] => False
  | op :: ops => R s op ∨ Meets step R (step s op) ops

/-- Every step that satisfies `P` is followed by one that satisfies `R`. -/
def FollowedBy (step : σ → ι → σ) (P R : σ → ι → Prop) (s : σ) : List ι → Prop
  | [] => True
  | op :: ops => (P s op → Meets step R (step s op) ops) ∧ FollowedBy step P R (step s op) ops

/-- When `P`-steps spoil what the reader knows and `R`-steps that are not
`P`-steps repair it, it is intact after a run exactly if every `P`-step was
followed by an `R`-step. -/
theorem replay_intact_iff {Inv Bad : σ → δ → Prop} {P R : σ → ι → Prop}
    (hinv : ∀ s d op, Inv s d → Inv (step s op) (replay handle d (out s op)))
    (hstep : ∀ s d op, Inv s d →
      (Bad (step s op) (replay handle d (out s op)) ↔ P s op ∨ Bad s d ∧ ¬ R s op))
    {s : σ} {d : δ} (ops : List ι) (h : Inv s d) :
    ¬ Bad (run step s ops) (replay handle d (logOf step out s ops)) ↔
      (Bad s d → Meets step R s ops) ∧ FollowedBy step P R s ops := by
  induction ops generalizing s d with
  | nil => simp [Meets, FollowedBy, logOf]
  | cons op ops ih =>
      rw [logOf, replay_append, run_cons, ih (hinv s d op h), hstep s d op h]
      simp only [Meets, FollowedBy]
      tauto

end Replay

end Stellars.EventLogs
