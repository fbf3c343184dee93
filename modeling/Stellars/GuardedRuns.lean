import Mathlib.Algebra.Order.Ring.Int
import Mathlib.Tactic

/-!
# Guarded calls and runs of calls

A call either returns a new state or reverts with an error. A run folds a list
of calls, and a reverted call leaves its state as it was. The rules here carry
one-step facts to whole runs: an invariant, a condition met along the way, and a
quantity that every step changes by a known amount.
-/
namespace Stellars.GuardedRuns

section Calls

variable {ε α β : Type}

/-- Revert with `e` when `c` holds. -/
def failIf (c : Prop) [Decidable c] (e : ε) : Except ε Unit := if c then .error e else .ok ()

@[simp] theorem failIf_eq_ok {c : Prop} [Decidable c] {e : ε} {u : Unit} :
    failIf c e = .ok u ↔ ¬ c := by
  unfold failIf
  split <;> simp_all

@[simp] theorem failIf_eq_error {c : Prop} [Decidable c] {e e' : ε} :
    failIf c e = .error e' ↔ c ∧ e = e' := by
  unfold failIf
  split <;> simp_all

theorem bind_eq_ok {x : Except ε α} {f : α → Except ε β} {b : β} :
    (x >>= f) = .ok b ↔ ∃ a, x = .ok a ∧ f a = .ok b := by
  cases x with
  | error e => simp [bind, Except.bind]
  | ok a => simp [bind, Except.bind]

/-- A result read off a call shows that the call succeeded. -/
theorem exists_ok_of_bind_eq_some {x : Except ε α} {f : α → Option β} {b : β}
    (h : x.toOption.bind f = some b) : ∃ a, x = .ok a ∧ f a = some b := by
  cases x with
  | error e => cases h
  | ok a => exact ⟨a, rfl, h⟩

/-- Unwrap an option or revert with `e`. -/
def orFail (x : Option α) (e : ε) : Except ε α := x.elim (.error e) .ok

@[simp] theorem orFail_eq_ok {x : Option α} {e : ε} {a : α} :
    orFail x e = .ok a ↔ x = some a := by
  cases x <;> simp [orFail]

theorem map_eq_ok {f : α → β} {x : Except ε α} {b : β} :
    f <$> x = .ok b ↔ ∃ a, x = .ok a ∧ f a = b := by
  cases x with
  | error e => simp [Functor.map, Except.map]
  | ok a => simp [Functor.map, Except.map]

@[simp] theorem failIf_bind_eq_ok {c : Prop} [Decidable c] {e : ε} {f : Unit → Except ε β} {b : β} :
    (failIf c e >>= f) = .ok b ↔ ¬ c ∧ f () = .ok b := by
  rw [bind_eq_ok]
  constructor
  · rintro ⟨_, hc, hf⟩
    exact ⟨failIf_eq_ok.mp hc, hf⟩
  · rintro ⟨hc, hf⟩
    exact ⟨(), failIf_eq_ok.mpr hc, hf⟩

@[simp] theorem ok_bind (a : α) (f : α → Except ε β) : (Except.ok a >>= f) = f a := rfl

@[simp] theorem error_bind (e : ε) (f : α → Except ε β) : (Except.error e >>= f) = .error e := rfl

/-- The error of a call that reverts. -/
def raised : Except ε α → Option ε
  | .error e => some e
  | .ok _ => none

theorem eq_error_of_raised {x : Except ε α} {e : ε} (h : raised x = some e) : x = .error e := by
  cases x with
  | error e' => rw [Option.some.inj h]
  | ok a => cases h

/-- The errors a call can raise all lie in `E`. -/
def FailsOnly (E : ε → Prop) (x : Except ε α) : Prop := ∀ e, x = .error e → E e

theorem FailsOnly.ok (E : ε → Prop) (a : α) : FailsOnly E (Except.ok a : Except ε α) := by
  intro e h
  cases h

theorem FailsOnly.failIf {E : ε → Prop} {c : Prop} [Decidable c] {e : ε} (h : c → E e) :
    FailsOnly E (failIf c e) := by
  intro e' he
  obtain ⟨hc, rfl⟩ := failIf_eq_error.mp he
  exact h hc

theorem FailsOnly.orFail {E : ε → Prop} {x : Option α} {e : ε} (h : x = none → E e) :
    FailsOnly E (orFail x e) := by
  cases x with
  | none =>
      intro e' he
      cases he
      exact h rfl
  | some a => exact FailsOnly.ok _ _

/-- Sequencing: the first call fails inside `E`, and so does the second from
every state the first can return. -/
theorem FailsOnly.bind {E : ε → Prop} {x : Except ε α} {f : α → Except ε β}
    (hx : FailsOnly E x) (hf : ∀ a, x = .ok a → FailsOnly E (f a)) : FailsOnly E (x >>= f) := by
  cases x with
  | error e =>
      intro e' he
      exact hx e' (by simpa using he)
  | ok a => exact hf a rfl

/-- A call that cannot fail returns. -/
theorem FailsOnly.exists_ok {x : Except ε α} (h : FailsOnly (fun _ => False) x) :
    ∃ a, x = .ok a := by
  cases x with
  | error e => exact (h e rfl).elim
  | ok a => exact ⟨a, rfl⟩

end Calls

section Runs

variable {σ ι : Type*} (step : σ → ι → σ)

def run (s : σ) (ops : List ι) : σ := ops.foldl step s

@[simp] theorem run_nil (s : σ) : run step s [] = s := rfl

@[simp] theorem run_cons (s : σ) (op : ι) (ops : List ι) :
    run step s (op :: ops) = run step (step s op) ops := rfl

theorem run_append (s : σ) (ops ops' : List ι) :
    run step s (ops ++ ops') = run step (run step s ops) ops' := by simp [run]

variable {step} in
/-- A view of the state that follows its own steps follows whole runs. -/
theorem run_map {τ : Type*} {step' : τ → ι → τ} {φ : σ → τ}
    (h : ∀ s op, φ (step s op) = step' (φ s) op) (s : σ) (ops : List ι) :
    φ (run step s ops) = run step' (φ s) ops := by
  induction ops generalizing s with
  | nil => rfl
  | cons op ops ih => rw [run_cons, run_cons, ih, h]

/-- Every step of the run is taken from a state and with an operation that
satisfy `P`. -/
def Along (P : σ → ι → Prop) (s : σ) : List ι → Prop
  | [] => True
  | op :: ops => P s op ∧ Along P (step s op) ops

/-- Every state of the run, the first and the last included, satisfies `P`. -/
def Visits (P : σ → Prop) (s : σ) : List ι → Prop
  | [] => P s
  | op :: ops => P s ∧ Visits P (step s op) ops

/-- The sum over the steps of what each step contributes. -/
def sumAlong (g : σ → ι → ℤ) (s : σ) : List ι → ℤ
  | [] => 0
  | op :: ops => g s op + sumAlong g (step s op) ops

variable {step}

theorem along_append {P : σ → ι → Prop} {s : σ} {ops ops' : List ι} :
    Along step P s (ops ++ ops') ↔ Along step P s ops ∧ Along step P (run step s ops) ops' := by
  induction ops generalizing s with
  | nil => simp [Along]
  | cons op ops ih => simp [Along, ih, and_assoc]

/-- Along a run that keeps `Inv`, conditions equivalent under `Inv` agree. -/
theorem along_congr {Inv : σ → Prop} {P Q : σ → ι → Prop} {s : σ} {ops : List ι}
    (hinv : ∀ s op, Inv s → Inv (step s op)) (h : ∀ s op, Inv s → (P s op ↔ Q s op))
    (hs : Inv s) : Along step P s ops ↔ Along step Q s ops := by
  induction ops generalizing s with
  | nil => exact Iff.rfl
  | cons op ops ih => exact and_congr (h s op hs) (ih (hinv s op hs))

theorem along_congr' {P Q : σ → ι → Prop} {s : σ} {ops : List ι}
    (h : ∀ s op, P s op ↔ Q s op) : Along step P s ops ↔ Along step Q s ops := by
  have hPQ : P = Q := funext₂ fun s op => propext (h s op)
  rw [hPQ]

/-- Steps that satisfy `Q` keep an invariant under which they satisfy `P`. -/
theorem along_of_along {Inv : σ → Prop} {P Q : σ → ι → Prop} {s : σ} {ops : List ι}
    (hkeep : ∀ s op, Inv s → Q s op → Inv (step s op)) (h : ∀ s op, Inv s → Q s op → P s op)
    (hs : Inv s) (hQ : Along step Q s ops) : Along step P s ops := by
  induction ops generalizing s with
  | nil => trivial
  | cons op ops ih => exact ⟨h s op hs hQ.1, ih (hkeep s op hs hQ.1) hQ.2⟩

theorem run_invariant {Inv : σ → Prop} {P : σ → ι → Prop} {s : σ} {ops : List ι}
    (hstep : ∀ s op, Inv s → P s op → Inv (step s op)) (hs : Inv s)
    (hP : Along step P s ops) : Inv (run step s ops) := by
  induction ops generalizing s with
  | nil => exact hs
  | cons op ops ih => exact ih (hstep s op hs hP.1) hP.2

theorem run_invariant' {Inv : σ → Prop} {s : σ} (ops : List ι)
    (hstep : ∀ s op, Inv s → Inv (step s op)) (hs : Inv s) : Inv (run step s ops) := by
  induction ops generalizing s with
  | nil => exact hs
  | cons op ops ih => exact ih (hstep s op hs)

/-- What no step of the run touches is at the end as it was at the start. -/
theorem run_frame {β : Type*} {φ : σ → β} {T : σ → ι → Prop} {s : σ} {ops : List ι}
    (hframe : ∀ s op, ¬ T s op → φ (step s op) = φ s)
    (h : Along step (fun s op => ¬ T s op) s ops) : φ (run step s ops) = φ s := by
  induction ops generalizing s with
  | nil => rfl
  | cons op ops ih => rw [run_cons, ih h.2, hframe s op h.1]

/-- A run either never touches, or has a last step that does. -/
theorem along_not_or_last (T : σ → ι → Prop) (s : σ) (ops : List ι) :
    Along step (fun s op => ¬ T s op) s ops ∨
      ∃ before op after, ops = before ++ op :: after ∧ T (run step s before) op ∧
        Along step (fun s op => ¬ T s op) (run step s (before ++ [op])) after := by
  induction ops generalizing s with
  | nil => exact .inl trivial
  | cons op ops ih =>
      obtain hrest | ⟨before, last, after, hops, hlast, hafter⟩ := ih (step s op)
      · by_cases hop : T s op
        · exact .inr ⟨[], op, ops, rfl, hop, hrest⟩
        · exact .inl ⟨hop, hrest⟩
      · refine .inr ⟨op :: before, last, after, ?_, hlast, hafter⟩
        rw [hops, List.cons_append]

/-- What holds along a run holds at each of its steps. -/
theorem Along.at_step {P : σ → ι → Prop} {s : σ} {before after : List ι} {op : ι}
    (h : Along step P s (before ++ op :: after)) : P (run step s before) op :=
  (along_append.mp h).2.1

/-- A step that touches comes no later than the last one. -/
theorem length_le_of_last {T : σ → ι → Prop} {s : σ} {before after earlier later : List ι}
    {op op' : ι} (hafter : Along step (fun s op => ¬ T s op) (run step s (before ++ [op])) after)
    (hsplit : before ++ op :: after = earlier ++ op' :: later)
    (htouch : T (run step s earlier) op') :
    earlier.length < before.length ∨ earlier = before ∧ op' = op := by
  obtain ⟨mid, hearlier, hrest⟩ | ⟨mid, hbefore, hrest⟩ := List.append_eq_append_iff.mp hsplit
  · cases mid with
    | nil =>
        obtain ⟨rfl, rfl⟩ := List.cons_eq_cons.mp hrest
        exact .inr ⟨by simpa using hearlier, rfl⟩
    | cons op1 mid =>
        obtain ⟨rfl, rfl⟩ := List.cons_eq_cons.mp hrest
        rw [hearlier, List.append_cons, run_append] at htouch
        exact absurd htouch hafter.at_step
  · cases mid with
    | nil =>
        obtain ⟨rfl, rfl⟩ := List.cons_eq_cons.mp hrest
        exact .inr ⟨by simpa using hbefore.symm, rfl⟩
    | cons op1 mid =>
        left
        rw [hbefore, List.length_append, List.length_cons]
        omega

/-- When every step keeps `Q` exactly if it satisfies `P`, the states of a run
all satisfy `Q` exactly if its steps all satisfy `P`. -/
theorem visits_iff_along {Inv Q : σ → Prop} {P : σ → ι → Prop} {s : σ} {ops : List ι}
    (hinv : ∀ s op, Inv s → Inv (step s op))
    (hstep : ∀ s op, Inv s → Q s → (Q (step s op) ↔ P s op)) (hs : Inv s) (hQ : Q s) :
    Visits step Q s ops ↔ Along step P s ops := by
  induction ops generalizing s with
  | nil => simp [Visits, Along, hQ]
  | cons op ops ih =>
      have hop := hstep s op hs hQ
      constructor
      · rintro ⟨_, hrest⟩
        have hQ' : Q (step s op) := by cases ops <;> first | exact hrest | exact hrest.1
        exact ⟨hop.mp hQ', (ih (hinv s op hs) hQ').mp hrest⟩
      · rintro ⟨hP, hrest⟩
        have hQ' := hop.mpr hP
        exact ⟨hQ, (ih (hinv s op hs) hQ').mpr hrest⟩

theorem Visits.last {P : σ → Prop} {s : σ} {ops : List ι} (h : Visits step P s ops) :
    P (run step s ops) := by
  induction ops generalizing s with
  | nil => exact h
  | cons op ops ih => exact ih h.2

/-- Steps that satisfy `P` keep an invariant, so the states of a run of such steps all have
what the invariant implies. -/
theorem visits_of_along {Inv R : σ → Prop} {P : σ → ι → Prop} {s : σ} {ops : List ι}
    (hsound : ∀ s, Inv s → R s) (hkeep : ∀ s op, Inv s → P s op → Inv (step s op)) (hs : Inv s)
    (hP : Along step P s ops) : Visits step R s ops := by
  induction ops generalizing s with
  | nil => exact hsound s hs
  | cons op ops ih => exact ⟨hsound s hs, ih (hkeep s op hs hP.1) hP.2⟩

/-- When steps that satisfy `P` keep an invariant that implies `R`, and other steps lead
out of `R`, the states of a run all satisfy `R` exactly if its steps all satisfy `P`. -/
theorem visits_iff_along_of {Inv R : σ → Prop} {P : σ → ι → Prop} {s : σ} {ops : List ι}
    (hsound : ∀ s, Inv s → R s) (hkeep : ∀ s op, Inv s → P s op → Inv (step s op))
    (hexact : ∀ s op, Inv s → R (step s op) → P s op) (hs : Inv s) :
    Visits step R s ops ↔ Along step P s ops := by
  refine ⟨?_, visits_of_along hsound hkeep hs⟩
  induction ops generalizing s with
  | nil => exact fun _ => trivial
  | cons op ops ih =>
      rintro ⟨_, hrest⟩
      have hR : R (step s op) := by cases ops <;> first | exact hrest | exact hrest.1
      have hP := hexact s op hs hR
      exact ⟨hP, ih (hkeep s op hs hP) hrest⟩

/-- A quantity that each step changes by `g` changes over a run by the sum. -/
theorem run_balance {Inv : σ → Prop} {φ : σ → ℤ} {g : σ → ι → ℤ} {s : σ} (ops : List ι)
    (hinv : ∀ s op, Inv s → Inv (step s op))
    (hstep : ∀ s op, Inv s → φ (step s op) = φ s + g s op) (hs : Inv s) :
    φ (run step s ops) = φ s + sumAlong step g s ops := by
  induction ops generalizing s with
  | nil => simp [sumAlong]
  | cons op ops ih =>
      have h1 := hstep s op hs
      have h2 := ih (hinv s op hs)
      simp only [run_cons, sumAlong]
      omega

theorem run_balance' {φ : σ → ℤ} {g : σ → ι → ℤ} {s : σ} (ops : List ι)
    (hstep : ∀ s op, φ (step s op) = φ s + g s op) :
    φ (run step s ops) = φ s + sumAlong step g s ops := by
  let Inv : σ → Prop := fun _ => True
  have hinv : ∀ s op, Inv s → Inv (step s op) := fun _ _ _ => trivial
  exact run_balance ops hinv (fun s op _ => hstep s op) trivial

/-- A quantity that no step raises by more than `g` rises over a run by at most the sum. -/
theorem run_bound {Inv : σ → Prop} {φ : σ → ℤ} {g : σ → ι → ℤ} {s : σ} (ops : List ι)
    (hinv : ∀ s op, Inv s → Inv (step s op))
    (hstep : ∀ s op, Inv s → φ (step s op) ≤ φ s + g s op) (hs : Inv s) :
    φ (run step s ops) ≤ φ s + sumAlong step g s ops := by
  induction ops generalizing s with
  | nil => simp [sumAlong]
  | cons op ops ih =>
      have h1 := hstep s op hs
      have h2 := ih (hinv s op hs)
      simp only [run_cons, sumAlong]
      omega

/-- A quantity that each step changes by `g`, up to `c` on the steps picked out
by `p`, changes over a run by the sum, up to `c` for each of those steps. -/
theorem run_balance_error {Inv : σ → Prop} {P : σ → ι → Prop} {φ : σ → ℤ} {g : σ → ι → ℤ}
    {p : ι → Bool} {c : ℤ} {s : σ} {ops : List ι}
    (hinv : ∀ s op, Inv s → Inv (step s op))
    (hstep : ∀ s op, Inv s → P s op → |φ (step s op) - φ s - g s op| ≤ if p op then c else 0)
    (hs : Inv s) (hP : Along step P s ops) :
    |φ (run step s ops) - φ s - sumAlong step g s ops| ≤ ops.countP p * c := by
  induction ops generalizing s with
  | nil => simp [sumAlong]
  | cons op ops ih =>
      have h1 := hstep s op hs hP.1
      have h2 := ih (hinv s op hs) hP.2
      have hsplit : φ (run step s (op :: ops)) - φ s - sumAlong step g s (op :: ops) =
          (φ (step s op) - φ s - g s op) +
            (φ (run step (step s op) ops) - φ (step s op) - sumAlong step g (step s op) ops) := by
        simp only [run_cons, sumAlong]
        ring
      have hcount : ((op :: ops).countP p : ℤ) * c = (if p op then c else 0) + ops.countP p * c := by
        rw [List.countP_cons]
        split_ifs <;> push_cast <;> ring
      rw [hsplit, hcount]
      exact (abs_add_le _ _).trans (add_le_add h1 h2)

theorem sumAlong_add (f g : σ → ι → ℤ) (s : σ) (ops : List ι) :
    sumAlong step (fun s op => f s op + g s op) s ops =
      sumAlong step f s ops + sumAlong step g s ops := by
  induction ops generalizing s with
  | nil => rfl
  | cons op ops ih =>
      simp only [sumAlong, ih]
      omega

theorem sumAlong_sub (f g : σ → ι → ℤ) (s : σ) (ops : List ι) :
    sumAlong step (fun s op => f s op - g s op) s ops =
      sumAlong step f s ops - sumAlong step g s ops := by
  induction ops generalizing s with
  | nil => rfl
  | cons op ops ih =>
      simp only [sumAlong, ih]
      omega

theorem sumAlong_mul (c : ℤ) (g : σ → ι → ℤ) (s : σ) (ops : List ι) :
    sumAlong step (fun s op => c * g s op) s ops = c * sumAlong step g s ops := by
  induction ops generalizing s with
  | nil => simp [sumAlong]
  | cons op ops ih =>
      simp only [sumAlong, ih]
      ring

theorem sumAlong_le {f g : σ → ι → ℤ} (h : ∀ s op, f s op ≤ g s op) {s : σ} {ops : List ι} :
    sumAlong step f s ops ≤ sumAlong step g s ops := by
  induction ops generalizing s with
  | nil => exact le_rfl
  | cons op ops ih => exact add_le_add (h s op) ih

theorem sumAlong_nonneg {g : σ → ι → ℤ} {s : σ} {ops : List ι}
    (h : ∀ s op, 0 ≤ g s op) : 0 ≤ sumAlong step g s ops := by
  induction ops generalizing s with
  | nil => exact le_rfl
  | cons op ops ih => exact add_nonneg (h s op) ih

/-- A sum of nonnegative contributions vanishes exactly when each one does. -/
theorem sumAlong_eq_zero_iff {g : σ → ι → ℤ} {s : σ} {ops : List ι}
    (h : ∀ s op, 0 ≤ g s op) :
    sumAlong step g s ops = 0 ↔ Along step (fun s op => g s op = 0) s ops := by
  induction ops generalizing s with
  | nil => simp [sumAlong, Along]
  | cons op ops ih =>
      have h1 := h s op
      have h2 : 0 ≤ sumAlong step g (step s op) ops := sumAlong_nonneg h
      simp only [sumAlong, Along, ← ih]
      omega

end Runs

end Stellars.GuardedRuns
