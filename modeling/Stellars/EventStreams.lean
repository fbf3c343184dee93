import Stellars.AsyncQueue
import Stellars.GuardedRuns

/-!
# The API's event streams

The broadcaster calls a stream for every database notification of its channel, and
with a resync marker after a reconnect, when notifications may have been missed. The
stream filters, queues, and writes what its consumer takes from the queue.
-/
namespace Stellars
open GuardedRuns

/-- The keys of a payload object that the streams look at. -/
structure Payload (S I : Type) where
  resync : Bool
  id : Option I
  symbol : Option S
  deriving Repr, DecidableEq

/-- A notification of the stream's channel; no payload is null or not an object. -/
structure Notification (S I : Type) where
  payload : Option (Payload S I)
  deriving Repr, DecidableEq

/-- What the triggers send: a row's id and symbol, where it has them. -/
structure Row (S I : Type) where
  id : Option I
  symbol : Option S
  deriving Repr, DecidableEq

namespace Notification

variable {S I : Type}

def ofRow (row : Option (Row S I)) : Notification S I where
  payload := row.map fun r => ⟨false, r.id, r.symbol⟩

def marker : Notification S I where
  payload := some ⟨true, none, none⟩

def isResync (n : Notification S I) : Bool := n.payload.any (·.resync)

@[simp] theorem isResync_ofRow (row : Option (Row S I)) : (ofRow row).isResync = false := by
  cases row <;> rfl

end Notification

structure SseEventSpec (D : Type) where
  event : String
  id : String
  data : D
  deriving Repr, DecidableEq

/-- The event a stream writes: a resync, or what its route made of a row. -/
inductive SseEvent (E : Type)
  | resync
  | row (event : E)
  deriving Repr, DecidableEq

def SseEvent.isResync {E : Type} : SseEvent E → Bool
  | .resync => true
  | .row _ => false

/-- A route with its symbol filter, if it has one, and what the projector answers to
the notifications it is asked about in turn; it reads the database. -/
structure Route (S I E : Type) where
  symbol : Option S
  project : ℕ → Option (Payload S I) → Option E

namespace Route

variable {S I E : Type} [DecidableEq S]

def filter (route : Route S I E) (payload : Option (Payload S I)) : Bool :=
  match route.symbol with
  | none => true
  | some symbol => decide (payload.bind (·.symbol) = some symbol)

omit [DecidableEq S] in
/-- The body of the consumer's loop. -/
def event (route : Route S I E) (turn : ℕ) (n : Notification S I) : Option (SseEvent E) :=
  if n.isResync = true then some .resync else (route.project turn n.payload).map .row

variable {D : Type}

omit [DecidableEq S] in
/-- One row of the table; it may have changed each time it is selected. -/
def markets [ToString S] (symbol : S) (select : ℕ → Option (ℕ × D)) :
    Route S I (SseEventSpec D) where
  symbol := some symbol
  project turn _ := (select turn).map fun row =>
    ⟨"market", "market:" ++ toString symbol ++ ":" ++ toString row.1, row.2⟩

/-- No filtered route lets a marker through. -/
@[simp] theorem filter_marker (route : Route S I E) :
    route.filter (Notification.marker : Notification S I).payload = route.symbol.isNone := by
  unfold filter
  cases route.symbol <;> rfl

end Route

/-- The last two fields are only observed: what the filter let through to the queue,
and how many markers came in while the stream was open. -/
structure EventStream (S I E : Type) where
  queue : AsyncQueue (Notification S I)
  received : List (Notification S I)
  written : List (SseEvent E)
  pushed : List (Notification S I)
  markers : ℕ

inductive StreamOp (S I : Type)
  | notify (row : Option (Row S I))
  | resync
  | next
  | close
  deriving Repr, DecidableEq

namespace EventStream

variable {S I E : Type} [DecidableEq S]

def opened : EventStream S I E := ⟨.empty, [], [], [], 0⟩

section Steps

variable (route : Route S I E) (maxLen : ℕ)

omit [DecidableEq S] in
/-- The consumer gets a value, if there is one, and writes its event. -/
def consume (s : EventStream S I E) : Option (Notification S I) → EventStream S I E
  | none => s
  | some n =>
      { s with
        received := s.received ++ [n]
        written := s.written ++ (route.event s.received.length n).toList }

/-- The callback that the broadcaster calls. -/
def deliver (s : EventStream S I E) (n : Notification S I) : EventStream S I E :=
  if route.filter n.payload = false then s
  else
    let result := s.queue.push maxLen n
    consume route { s with queue := result.1, pushed := s.pushed ++ [n] } result.2

def step (s : EventStream S I E) : StreamOp S I → EventStream S I E
  | .notify row => s.deliver route maxLen (.ofRow row)
  | .resync =>
      { s.deliver route maxLen .marker with
        markers := if s.queue.closed = true then s.markers else s.markers + 1 }
  | .next =>
      let result := s.queue.next
      consume route { s with queue := result.1 } result.2
  | .close => { s with queue := s.queue.close }

end Steps

/-! ## Where the markers are -/

def resyncs (s : EventStream S I E) : ℕ := s.written.countP (·.isResync)

/-- Markers that were written or wait in the buffer. -/
def kept (s : EventStream S I E) : ℕ :=
  s.resyncs + s.queue.buf.countP (·.isResync)

/-- Whenever the consumer goes on until the buffer is empty, every marker delivered
while the stream was open has been written. -/
def WrittenOnceDrained (route : Route S I E) (maxLen : ℕ) (s : EventStream S I E) : Prop :=
  ∀ calls, (run (step route maxLen) s (List.replicate calls .next)).queue.buf = [] →
    (run (step route maxLen) s (List.replicate calls .next)).resyncs = s.markers

/-- A push would drop a marker. -/
def EvictsMarker (maxLen : ℕ) (s : EventStream S I E) : Prop :=
  ∃ n, s.queue.evicted maxLen = some n ∧ n.isResync = true

/-- An open stream rejects the notification, a marker, or lets it through to push one
out of the full buffer. -/
def Loses (route : Route S I E) (maxLen : ℕ) (s : EventStream S I E) (n : Notification S I) :
    Prop :=
  s.queue.closed = false ∧
    (route.filter n.payload = false ∧ n.isResync = true ∨
      route.filter n.payload = true ∧ s.EvictsMarker maxLen)

def LosesMarker (route : Route S I E) (maxLen : ℕ) (s : EventStream S I E) :
    StreamOp S I → Prop
  | .notify row => s.Loses route maxLen (.ofRow row)
  | .resync => s.Loses route maxLen .marker
  | .next | .close => False

/-- An open stream with a symbol filter loses every marker. -/
theorem losesMarker_resync_iff {route : Route S I E} {maxLen : ℕ} {s : EventStream S I E}
    (hopen : s.queue.closed = false) :
    LosesMarker route maxLen s .resync ↔
      route.symbol.isSome = true ∨ s.EvictsMarker maxLen := by
  have hmarker : (Notification.marker : Notification S I).isResync = true := rfl
  simp only [LosesMarker, Loses, hopen, hmarker, Route.filter_marker, true_and, and_true]
  cases route.symbol <;> simp

section Kept

variable {route : Route S I E} {maxLen : ℕ} {s : EventStream S I E} {op : StreamOp S I}

omit [DecidableEq S] in
@[simp] theorem queue_consume (v : Option (Notification S I)) :
    (s.consume route v).queue = s.queue := by
  cases v <;> rfl

omit [DecidableEq S] in
@[simp] theorem pushed_consume (v : Option (Notification S I)) :
    (s.consume route v).pushed = s.pushed := by
  cases v <;> rfl

omit [DecidableEq S] in
@[simp] theorem markers_consume (v : Option (Notification S I)) :
    (s.consume route v).markers = s.markers := by
  cases v <;> rfl

omit [DecidableEq S] in
@[simp] theorem received_consume (v : Option (Notification S I)) :
    (s.consume route v).received = s.received ++ v.toList := by
  cases v <;> simp [consume]

omit [DecidableEq S] in
/-- A resync event is written for each marker received, and for nothing else. -/
@[simp] theorem resyncs_consume (v : Option (Notification S I)) :
    (s.consume route v).resyncs = s.resyncs + v.toList.countP (·.isResync) := by
  cases v with
  | none => rfl
  | some n =>
      simp only [consume, resyncs, List.countP_append, Route.event]
      cases hmarker : n.isResync with
      | true => simp [SseEvent.isResync, hmarker]
      | false =>
          cases route.project s.received.length n.payload <;> simp [SseEvent.isResync, hmarker]

omit [DecidableEq S] in
theorem evictsMarker_iff :
    s.EvictsMarker maxLen ↔ 0 < (s.queue.evicted maxLen).toList.countP (·.isResync) := by
  unfold EvictsMarker
  cases s.queue.evicted maxLen with
  | none => simp
  | some n => cases hmarker : n.isResync <;> simp [hmarker]

theorem deliver_filtered {n : Notification S I} (hfilter : route.filter n.payload = false) :
    s.deliver route maxLen n = s := if_pos hfilter

@[simp] theorem markers_deliver (n : Notification S I) :
    (s.deliver route maxLen n).markers = s.markers := by
  unfold deliver
  split_ifs
  · rfl
  · exact markers_consume _

theorem kept_closed (n : Notification S I) (hclosed : s.queue.closed = true) :
    (s.deliver route maxLen n).kept = s.kept := by
  unfold deliver
  split_ifs
  · rfl
  · simp only [kept, resyncs_consume, queue_consume, AsyncQueue.push_closed hclosed]
    rfl

/-- A notification that is let through is kept, less what it pushes out. -/
theorem kept_deliver (maxLen : ℕ) (n : Notification S I) (hfilter : route.filter n.payload = true)
    (hopen : s.queue.closed = false) :
    (s.deliver route maxLen n).kept + (s.queue.evicted maxLen).toList.countP (·.isResync) =
      s.kept + [n].countP (·.isResync) := by
  have hcount := AsyncQueue.push_countP maxLen n (·.isResync) hopen
  simp only [deliver, hfilter, kept, Bool.true_eq_false, if_false, resyncs_consume, queue_consume]
  simp only [resyncs] at hcount ⊢
  omega

/-- What is kept grows by a marker let in exactly if none is lost. -/
theorem kept_deliver_iff (n : Notification S I) :
    (s.deliver route maxLen n).kept =
        s.kept + (if s.queue.closed = true then 0 else [n].countP (·.isResync)) ↔
      ¬ s.Loses route maxLen n := by
  cases hclosed : s.queue.closed with
  | true =>
      rw [kept_closed n hclosed]
      exact iff_of_true rfl fun hloses => Bool.false_ne_true (hloses.1.symm.trans hclosed)
  | false =>
      simp only [Loses, hclosed, Bool.false_eq_true, if_false, true_and]
      cases hfilter : route.filter n.payload with
      | true =>
          have hkept := kept_deliver maxLen n hfilter hclosed
          simp only [Bool.true_eq_false, false_and, true_and, false_or, evictsMarker_iff]
          omega
      | false =>
          rw [deliver_filtered hfilter]
          cases hmarker : n.isResync <;> simp [hmarker]

theorem kept_next : (s.step route maxLen .next).kept = s.kept := by
  have hcount := s.queue.next_countP (·.isResync)
  simp only [step, kept, resyncs_consume, queue_consume]
  simp only [resyncs]
  omega

theorem kept_nexts (route : Route S I E) (maxLen : ℕ) (s : EventStream S I E) (calls : ℕ) :
    (run (step route maxLen) s (List.replicate calls .next)).kept = s.kept ∧
      (run (step route maxLen) s (List.replicate calls .next)).markers = s.markers ∧
      (run (step route maxLen) s (List.replicate calls .next)).queue.buf.length =
        s.queue.buf.length - calls := by
  induction calls generalizing s with
  | zero => exact ⟨rfl, rfl, rfl⟩
  | succ calls ih =>
      obtain ⟨hkept, hmarkers, hlength⟩ := ih (s.step route maxLen .next)
      rw [List.replicate_succ, run_cons]
      refine ⟨hkept.trans kept_next, hmarkers.trans (markers_consume _), hlength.trans ?_⟩
      simp only [step, queue_consume, AsyncQueue.length_next]
      omega

/-- The consumer gets every marker exactly if none is missing from what is kept. -/
theorem writtenOnceDrained_iff : WrittenOnceDrained route maxLen s ↔ s.kept = s.markers := by
  constructor
  · intro hdrained
    obtain ⟨hkept, -, hlength⟩ := kept_nexts route maxLen s s.queue.buf.length
    have hempty := List.length_eq_zero_iff.mp (hlength.trans (Nat.sub_self _))
    rw [← hdrained s.queue.buf.length hempty, ← hkept, kept, hempty]
    rfl
  · intro hkept calls hempty
    obtain ⟨hsame, -, -⟩ := kept_nexts route maxLen s calls
    rw [← hkept, ← hsame, kept, hempty]
    rfl

/-- One step keeps the balance exactly if it loses no marker. -/
theorem kept_step_iff (h : s.kept = s.markers) (op : StreamOp S I) :
    (s.step route maxLen op).kept = (s.step route maxLen op).markers ↔
      ¬ LosesMarker route maxLen s op := by
  cases op with
  | notify row =>
      have hmarkers : (s.step route maxLen (.notify row)).markers = s.kept +
          (if s.queue.closed = true then 0
            else [(Notification.ofRow row : Notification S I)].countP (·.isResync)) := by
        simp [step, h]
      rw [hmarkers]
      exact kept_deliver_iff (.ofRow row)
  | resync =>
      have hmarkers : (s.step route maxLen .resync).markers = s.kept +
          (if s.queue.closed = true then 0
            else [(Notification.marker : Notification S I)].countP (·.isResync)) := by
        simp only [step, h]
        split_ifs <;> rfl
      rw [hmarkers]
      exact kept_deliver_iff .marker
  | next =>
      have hmarkers : (s.step route maxLen .next).markers = s.markers := markers_consume _
      rw [kept_next, hmarkers]
      exact iff_of_true h id
  | close =>
      refine iff_of_true ?_ id
      simp only [step, kept, AsyncQueue.buf_close]
      exact h

end Kept

/-! ## Whole runs -/

section Runs

variable {route : Route S I E} {maxLen : ℕ} {s : EventStream S I E}

theorem between_step (h : AsyncQueue.Between s.received s.pushed s.queue) (op : StreamOp S I) :
    AsyncQueue.Between (s.step route maxLen op).received (s.step route maxLen op).pushed
      (s.step route maxLen op).queue := by
  have hdeliver : ∀ n, AsyncQueue.Between (s.deliver route maxLen n).received
      (s.deliver route maxLen n).pushed (s.deliver route maxLen n).queue := by
    intro n
    unfold deliver
    split_ifs
    · exact h
    · simp only [received_consume, pushed_consume, queue_consume]
      exact h.push n
  cases op with
  | notify row => exact hdeliver (.ofRow row)
  | resync => exact hdeliver .marker
  | next =>
      simp only [step, received_consume, pushed_consume, queue_consume]
      exact h.next
  | close => exact h.close

end Runs

/-- What the consumer receives is pushed in that order, none of it twice; and in every
run every marker reaches the client exactly if no step loses one. -/
theorem markers_written_iff (route : Route S I E) (maxLen : ℕ) (ops : List (StreamOp S I)) :
    (run (step route maxLen) opened ops).received.Sublist
        (run (step route maxLen) opened ops).pushed ∧
      (Visits (step route maxLen) (WrittenOnceDrained route maxLen) opened ops ↔
        Along (step route maxLen) (fun s op => ¬ LosesMarker route maxLen s op) opened ops) := by
  let Ordered : EventStream S I E → Prop := fun s =>
    AsyncQueue.Between s.received s.pushed s.queue
  have hordered : Ordered (run (step route maxLen) opened ops) :=
    run_invariant' ops (fun _ op h => between_step h op) AsyncQueue.between_empty
  refine ⟨(List.sublist_append_left _ _).trans hordered.order, ?_⟩
  have hdrained : WrittenOnceDrained route maxLen = fun s => s.kept = s.markers :=
    funext fun s => propext writtenOnceDrained_iff
  rw [hdrained]
  let Any : EventStream S I E → Prop := fun _ => True
  have hany : ∀ s op, Any s → Any (step route maxLen s op) := fun _ _ _ => trivial
  exact visits_iff_along hany (fun s op _ h => kept_step_iff h op) trivial rfl

/-- A marker that comes while a client follows one market. -/
theorem marker_unwritten :
    ¬ ∀ (route : Route ℕ ℕ (SseEventSpec ℕ)) (maxLen : ℕ) (ops : List (StreamOp ℕ ℕ)),
      Visits (step route maxLen) (WrittenOnceDrained route maxLen) opened ops := by
  intro h
  have hwritten := (h (Route.markets 0 fun _ => none) 1000 [.resync]).2 0 rfl
  exact absurd hwritten (by decide)

end EventStream
end Stellars
