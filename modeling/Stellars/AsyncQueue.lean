import Mathlib.Data.List.Basic

/-!
# A bounded queue with waiting consumers

A push goes to a waiting consumer or into the buffer, whose oldest entry it drops when
the buffer is full. Closing releases the consumers and lets the buffer be read out.
-/
namespace Stellars

structure AsyncQueue (α : Type*) where
  buf : List α
  waiters : ℕ
  closed : Bool
  dropped : ℕ
  deriving Repr, DecidableEq

namespace AsyncQueue

variable {α : Type*}

def empty : AsyncQueue α := ⟨[], 0, false, 0⟩

/-- The queue after a push, and the value if a consumer was waiting for it. -/
def push (maxLen : ℕ) (q : AsyncQueue α) (v : α) : AsyncQueue α × Option α :=
  if q.closed = true then (q, none)
  else if 0 < q.waiters then ({ q with waiters := q.waiters - 1 }, some v)
  else if maxLen ≤ q.buf.length then
    ({ q with buf := q.buf.tail ++ [v], dropped := q.dropped + 1 }, none)
  else ({ q with buf := q.buf ++ [v] }, none)

def close (q : AsyncQueue α) : AsyncQueue α :=
  if q.closed = true then q else { q with closed := true, waiters := 0 }

/-- The queue after a call of `next`, and the value if there was one. -/
def next (q : AsyncQueue α) : AsyncQueue α × Option α :=
  match q.buf with
  | v :: rest => ({ q with buf := rest }, some v)
  | [] => if q.closed = true then (q, none) else ({ q with waiters := q.waiters + 1 }, none)

/-- What a push would drop. -/
def evicted (maxLen : ℕ) (q : AsyncQueue α) : Option α :=
  if q.closed = false ∧ q.waiters = 0 ∧ maxLen ≤ q.buf.length then q.buf.head? else none

section Calls

variable {q : AsyncQueue α} {maxLen : ℕ} {v : α}

theorem push_closed (h : q.closed = true) : q.push maxLen v = (q, none) := if_pos h

@[simp] theorem buf_close : q.close.buf = q.buf := by
  unfold close
  split_ifs <;> rfl

/-- Until it is closed, a queue hands over, buffers or drops whatever is pushed. -/
theorem push_countP (maxLen : ℕ) (v : α) (p : α → Bool) (h : q.closed = false) :
    (q.push maxLen v).2.toList.countP p + (q.push maxLen v).1.buf.countP p +
      (q.evicted maxLen).toList.countP p = q.buf.countP p + [v].countP p := by
  unfold push evicted
  rw [if_neg (by simp [h])]
  by_cases hwaits : 0 < q.waiters
  · rw [if_pos hwaits, if_neg (by omega)]
    simp only [Option.toList_some, Option.toList_none, List.countP_nil]
    omega
  · rw [if_neg hwaits]
    by_cases hfull : maxLen ≤ q.buf.length
    · rw [if_pos hfull, if_pos ⟨h, by omega, hfull⟩]
      cases q.buf with
      | nil => rfl
      | cons head rest =>
          simp only [List.tail_cons, List.head?_cons, Option.toList_some, Option.toList_none,
            List.countP_append, List.countP_cons, List.countP_nil]
          omega
    · rw [if_neg hfull, if_neg (by omega)]
      simp only [Option.toList_none, List.countP_append, List.countP_nil]
      omega

theorem next_countP (q : AsyncQueue α) (p : α → Bool) :
    q.next.2.toList.countP p + q.next.1.buf.countP p = q.buf.countP p := by
  unfold next
  cases hbuf : q.buf with
  | nil =>
      dsimp only
      split_ifs <;> simp [hbuf]
  | cons head rest =>
      simp only [Option.toList_some, List.countP_cons, List.countP_nil]
      omega

theorem length_next (q : AsyncQueue α) : q.next.1.buf.length = q.buf.length - 1 := by
  unfold next
  cases hbuf : q.buf with
  | nil =>
      dsimp only
      split_ifs <;> simp [hbuf]
  | cons head rest => rfl

end Calls

/-- The queue stands between what was pushed and what was received: only an empty one
keeps consumers waiting, and what was received, followed by what is buffered, was
pushed in that order. -/
structure Between (received pushed : List α) (q : AsyncQueue α) : Prop where
  idle : 0 < q.waiters → q.buf = []
  order : (received ++ q.buf).Sublist pushed

section Between

variable {q : AsyncQueue α} {received pushed : List α} {maxLen : ℕ}

theorem between_empty : Between [] [] (empty : AsyncQueue α) :=
  ⟨fun _ => rfl, List.Sublist.refl _⟩

theorem Between.push (h : Between received pushed q) (v : α) :
    Between (received ++ (q.push maxLen v).2.toList) (pushed ++ [v]) (q.push maxLen v).1 := by
  have hidle := h.idle
  have hkept : (received ++ q.buf).Sublist (pushed ++ [v]) :=
    h.order.trans (List.sublist_append_left _ _)
  unfold AsyncQueue.push
  split_ifs with hclosed hwaits hfull
  · exact ⟨hidle, by simpa using hkept⟩
  · refine ⟨fun _ => hidle hwaits, ?_⟩
    have horder := h.order.append_right [v]
    rw [hidle hwaits] at horder ⊢
    simpa using horder
  · refine ⟨fun h0 => absurd h0 hwaits, ?_⟩
    have htail : (received ++ q.buf.tail).Sublist pushed :=
      ((List.tail_sublist _).append_left received).trans h.order
    simpa using htail.append_right [v]
  · refine ⟨fun h0 => absurd h0 hwaits, ?_⟩
    simpa using h.order.append_right [v]

theorem Between.next (h : Between received pushed q) :
    Between (received ++ q.next.2.toList) pushed q.next.1 := by
  have hidle := h.idle
  have horder := h.order
  unfold AsyncQueue.next
  cases hbuf : q.buf with
  | nil =>
      dsimp only
      split_ifs
      · exact ⟨hidle, by simpa using horder⟩
      · refine ⟨fun _ => rfl, ?_⟩
        rw [hbuf] at horder
        simpa using horder
  | cons head rest =>
      refine ⟨fun hwaits => ?_, ?_⟩
      · have := hidle hwaits
        rw [hbuf] at this
        cases this
      · rw [hbuf] at horder
        simpa using horder

theorem Between.close (h : Between received pushed q) : Between received pushed q.close := by
  unfold AsyncQueue.close
  split_ifs
  · exact h
  · exact ⟨fun hwaits => absurd hwaits (Nat.lt_irrefl 0), h.order⟩

end Between

end AsyncQueue
end Stellars
