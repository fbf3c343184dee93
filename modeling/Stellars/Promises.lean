import Mathlib.Order.Basic
import Mathlib.Order.Nat

/-!
# Promises derived from one another

Each promise waits for one other and carries a handler for its value or for its
rejection. Once the other has settled, the reaction may run at any later moment; a
handler for the value starts an action that settles whenever it likes.

In a chain, where every promise waits for the one created before it, the settled
promises are always the oldest ones: only the first unsettled one can move.
-/
namespace Stellars.Promises

/-- `onFulfilled` starts an action; `onRejected v` replaces a rejection by `v`. -/
inductive Handler (α : Type*)
  | onFulfilled
  | onRejected (v : α)

inductive Status (ε α : Type*)
  | pending
  | running
  | settled (r : Except ε α)

/-- What a handler makes of the promise it waited for. -/
def Handler.reaction {ε α : Type*} : Handler α → Except ε α → Status ε α
  | .onFulfilled, .ok _ => .running
  | .onFulfilled, .error e => .settled (.error e)
  | .onRejected _, .ok a => .settled (.ok a)
  | .onRejected v, .error _ => .settled (.ok v)

structure Cell (ε α : Type*) where
  awaits : ℕ
  handler : Handler α
  status : Status ε α

/-- Cells at or beyond `size` have not been created. -/
structure Heap (ε α : Type*) where
  size : ℕ
  cell : ℕ → Cell ε α

namespace Heap

variable {ε α : Type*}

def status (h : Heap ε α) (p : ℕ) : Status ε α := (h.cell p).status

/-- A heap whose only promise is already fulfilled. -/
def resolved (v : α) : Heap ε α := ⟨1, fun _ => ⟨0, .onRejected v, .settled (.ok v)⟩⟩

/-- The promise created is the one numbered `h.size`. -/
def derive (h : Heap ε α) (awaits : ℕ) (handler : Handler α) : Heap ε α where
  size := h.size + 1
  cell := Function.update h.cell h.size ⟨awaits, handler, .pending⟩

def setStatus (h : Heap ε α) (p : ℕ) (s : Status ε α) : Heap ε α :=
  { h with cell := Function.update h.cell p { h.cell p with status := s } }

/-- Run the reaction of promise `p`, if it is due. -/
def react (h : Heap ε α) (p : ℕ) : Heap ε α :=
  match h.status p, h.status (h.cell p).awaits with
  | .pending, .settled r =>
      if p < h.size then h.setStatus p ((h.cell p).handler.reaction r) else h
  | _, _ => h

/-- The action that promise `p` started has ended with `r`. -/
def finish (h : Heap ε α) (p : ℕ) (r : Except ε α) : Heap ε α :=
  match h.status p with
  | .running => if p < h.size then h.setStatus p (.settled r) else h
  | _ => h

section Reading

variable (h : Heap ε α) (p q : ℕ)

@[simp] theorem size_setStatus (s : Status ε α) : (h.setStatus p s).size = h.size := rfl

@[simp] theorem status_setStatus (s : Status ε α) :
    (h.setStatus p s).status q = if q = p then s else h.status q := by
  by_cases hq : q = p
  · subst hq
    simp [status, setStatus]
  · simp [status, setStatus, hq]

@[simp] theorem awaits_setStatus (s : Status ε α) :
    ((h.setStatus p s).cell q).awaits = (h.cell q).awaits := by
  by_cases hq : q = p
  · subst hq
    simp [setStatus]
  · simp [setStatus, hq]

@[simp] theorem handler_setStatus (s : Status ε α) :
    ((h.setStatus p s).cell q).handler = (h.cell q).handler := by
  by_cases hq : q = p
  · subst hq
    simp [setStatus]
  · simp [setStatus, hq]

theorem cell_derive_of_lt (awaits : ℕ) (handler : Handler α) (hq : q < h.size) :
    (h.derive awaits handler).cell q = h.cell q := by
  simp [derive, hq.ne]

theorem cell_derive_self (awaits : ℕ) (handler : Handler α) :
    (h.derive awaits handler).cell h.size = ⟨awaits, handler, .pending⟩ := by simp [derive]

end Reading

/-! ## Chains -/

def Settled (h : Heap ε α) (p : ℕ) : Prop := ∃ r, h.status p = .settled r

/-- Every promise waits for its predecessor, and `f` is the first one not settled. -/
structure Chain (h : Heap ε α) (f : ℕ) : Prop where
  awaits : ∀ p, 0 < p → p < h.size → (h.cell p).awaits = p - 1
  settled : ∀ p < f, h.Settled p
  unsettled : f < h.size → ¬ h.Settled f
  pending : ∀ p, f < p → p < h.size → h.status p = .pending
  pos : 0 < f
  le_size : f ≤ h.size

theorem chain_resolved (v : α) : (resolved v : Heap ε α).Chain 1 where
  awaits := fun p h0 h1 => absurd h1 (by simp only [resolved]; omega)
  settled := fun _ _ => ⟨.ok v, rfl⟩
  unsettled := fun h => absurd h (lt_irrefl 1)
  pending := fun p h1 h2 => absurd h2 (by simp only [resolved]; omega)
  pos := Nat.one_pos
  le_size := le_rfl

variable {h : Heap ε α} {f : ℕ}

/-- A promise derived from the newest one joins the chain. -/
theorem Chain.derive (hc : h.Chain f) (handler : Handler α) :
    (h.derive (h.size - 1) handler).Chain f := by
  have hold : ∀ p, p < h.size → (h.derive (h.size - 1) handler).status p = h.status p :=
    fun p hp => by rw [status, h.cell_derive_of_lt p _ _ hp, status]
  have hlast : (h.derive (h.size - 1) handler).status h.size = .pending := by
    rw [status, h.cell_derive_self]
  have hle := hc.le_size
  refine ⟨fun p h0 hp => ?_, fun p hp => ?_, fun _ => ?_, fun p hfp hp => ?_, hc.pos, ?_⟩
  · obtain hlt | rfl := Nat.lt_succ_iff_lt_or_eq.mp hp
    · rw [h.cell_derive_of_lt p _ _ hlt]
      exact hc.awaits p h0 hlt
    · rw [h.cell_derive_self]
  · obtain ⟨r, hr⟩ := hc.settled p hp
    exact ⟨r, by rw [hold p (by omega), hr]⟩
  · rintro ⟨r, hr⟩
    obtain hlt | heq := hle.lt_or_eq
    · exact hc.unsettled hlt ⟨r, by rw [← hold f hlt, hr]⟩
    · rw [heq, hlast] at hr
      cases hr
  · obtain hlt | rfl := Nat.lt_succ_iff_lt_or_eq.mp hp
    · rw [hold p hlt]
      exact hc.pending p hfp hlt
    · exact hlast
  · exact Nat.le_succ_of_le hle

/-- Settling the first unsettled promise hands over to the next one. -/
theorem Chain.settle (hc : h.Chain f) (hf : f < h.size) (r : Except ε α) :
    (h.setStatus f (.settled r)).Chain (f + 1) := by
  refine ⟨fun p h0 hp => ?_, fun p hp => ?_, fun hlt => ?_, fun p hfp hp => ?_, by omega, hf⟩
  · rw [awaits_setStatus]
    exact hc.awaits p h0 hp
  · obtain hlt | rfl := Nat.lt_succ_iff_lt_or_eq.mp hp
    · obtain ⟨r', hr'⟩ := hc.settled p hlt
      exact ⟨r', by rw [status_setStatus, if_neg (by omega), hr']⟩
    · exact ⟨r, by simp⟩
  · rintro ⟨r', hr'⟩
    rw [status_setStatus, if_neg (by omega), hc.pending (f + 1) (by omega) hlt] at hr'
    cases hr'
  · rw [status_setStatus, if_neg (by omega)]
    exact hc.pending p (by omega) hp

theorem Chain.start (hc : h.Chain f) : (h.setStatus f .running).Chain f := by
  refine ⟨fun p h0 hp => ?_, fun p hp => ?_, fun _ => ?_, fun p hfp hp => ?_, hc.pos, hc.le_size⟩
  · rw [awaits_setStatus]
    exact hc.awaits p h0 hp
  · obtain ⟨r, hr⟩ := hc.settled p hp
    exact ⟨r, by rw [status_setStatus, if_neg (by omega), hr]⟩
  · rintro ⟨r, hr⟩
    rw [status_setStatus, if_pos rfl] at hr
    cases hr
  · rw [status_setStatus, if_neg (by omega)]
    exact hc.pending p hfp hp

/-- A reaction elsewhere is not due. -/
theorem Chain.react_of_ne (hc : h.Chain f) {p : ℕ} (hp : p ≠ f) : h.react p = h := by
  unfold react
  by_cases hlt : p < h.size
  · obtain hpf | hfp := Nat.lt_or_gt_of_ne hp
    · obtain ⟨r, hr⟩ := hc.settled p hpf
      simp only [hr]
    · rw [hc.awaits p (by omega) hlt, hc.pending p hfp hlt]
      split
      · rename_i r _ hr
        -- the predecessor is the first unsettled promise or comes after it
        obtain heq | hlater : p - 1 = f ∨ f < p - 1 := by omega
        · exact absurd ⟨r, heq ▸ hr⟩ (hc.unsettled (by omega))
        · rw [hc.pending (p - 1) hlater (by omega)] at hr
          cases hr
      · rfl
  · split
    · rw [if_neg hlt]
    · rfl

theorem react_of_size_le {p : ℕ} (hp : h.size ≤ p) : h.react p = h := by
  unfold react
  split
  · rw [if_neg (by omega)]
  · rfl

theorem react_of_not_pending {p : ℕ} (hp : h.status p ≠ .pending) : h.react p = h := by
  unfold react
  split
  · contradiction
  · rfl

theorem Chain.react_self (hc : h.Chain f) (hf : f < h.size) (hpend : h.status f = .pending) :
    ∃ r, h.status (f - 1) = .settled r ∧
      h.react f = h.setStatus f ((h.cell f).handler.reaction r) := by
  have hpos := hc.pos
  obtain ⟨r, hr⟩ := hc.settled (f - 1) (by omega)
  refine ⟨r, hr, ?_⟩
  unfold react
  rw [hc.awaits f hpos hf, hpend, hr]
  exact if_pos hf

theorem finish_of_not_running {p : ℕ} (r : Except ε α) (hp : h.status p ≠ .running) :
    h.finish p r = h := by
  unfold finish
  split
  · contradiction
  · rfl

theorem finish_of_running {p : ℕ} (r : Except ε α) (hp : h.status p = .running)
    (hlt : p < h.size) : h.finish p r = h.setStatus p (.settled r) := by
  unfold finish
  rw [hp]
  exact if_pos hlt

theorem Chain.finish_of_ne (hc : h.Chain f) {p : ℕ} (r : Except ε α) (hp : p ≠ f) :
    h.finish p r = h := by
  unfold finish
  split
  · rename_i hrun
    split_ifs with hlt
    · obtain hpf | hfp := Nat.lt_or_gt_of_ne hp
      · obtain ⟨r', hr'⟩ := hc.settled p hpf
        rw [hr'] at hrun
        cases hrun
      · rw [hc.pending p hfp hlt] at hrun
        cases hrun
    · rfl
  · rfl

end Heap

end Stellars.Promises
