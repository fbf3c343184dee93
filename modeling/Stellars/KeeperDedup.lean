import Stellars.GuardedRuns

/-!
# The claims of the keeper's loops

Before a loop queues an action it claims the action's key, and it releases the key when
the action fails. A claim expires on its own, but a release names only the key: an action
that outlives its claim releases whatever claim holds the key by then.
-/
namespace Stellars
open GuardedRuns

/-- `posKey`, or the key under which a market's indices are updated. -/
inductive DedupKey (A S : Type)
  | position (trader : A) (symbol : S)
  | indices (symbol : S)
  deriving DecidableEq

/-- For each claimed key the time its claim expires. -/
structure TtlDedup (K : Type) where
  entries : K → Option ℕ

namespace TtlDedup

variable {K : Type} [DecidableEq K]

/-- Whether the claim is granted, and the entries after it. -/
def claim (d : TtlDedup K) (now : ℕ) (key : K) (ttlMs : ℕ) : Bool × TtlDedup K :=
  match d.entries key with
  | some expiresAt =>
      if expiresAt > now then (false, d)
      else (true, ⟨Function.update d.entries key (some (now + ttlMs))⟩)
  | none => (true, ⟨Function.update d.entries key (some (now + ttlMs))⟩)

def release (d : TtlDedup K) (key : K) : TtlDedup K := ⟨Function.update d.entries key none⟩

theorem claim_granted_iff {d : TtlDedup K} {now : ℕ} {key : K} {ttlMs : ℕ} :
    (d.claim now key ttlMs).1 = true ↔
      ∀ expiresAt, d.entries key = some expiresAt → expiresAt ≤ now := by
  unfold claim
  cases d.entries key with
  | none => simp
  | some expiresAt =>
      by_cases h : expiresAt > now
      · simp [h, not_le.mpr h]
      · simp [h, not_lt.mp h]

theorem claim_entries {d : TtlDedup K} {now : ℕ} {key : K} {ttlMs : ℕ}
    (h : (d.claim now key ttlMs).1 = true) :
    (d.claim now key ttlMs).2.entries = Function.update d.entries key (some (now + ttlMs)) := by
  unfold claim at h ⊢
  split at h
  · split_ifs at h ⊢
    rfl
  · rfl

end TtlDedup

/-! ## The two loops -/

inductive KeeperLoop
  | hot
  | cold
  deriving DecidableEq, Repr

/-- What a loop asks the executor for. -/
inductive KeeperAction (A S : Type)
  | liquidatePosition (trader : A) (symbol : S)
  | updateIndices (symbol : S)
  | executeOrder (trader : A) (symbol : S)
  | deleveragePosition (trader : A) (symbol : S)

/-- `expected` is a rejection that is normal during keeper operation. -/
inductive SubmitOutcome
  | submitted
  | rejected (expected : Bool)
  deriving DecidableEq

namespace KeeperAction

variable {A S : Type}

def loop : KeeperAction A S → KeeperLoop
  | .liquidatePosition _ _ => .hot
  | _ => .cold

def key : KeeperAction A S → DedupKey A S
  | .liquidatePosition trader symbol => .position trader symbol
  | .updateIndices symbol => .indices symbol
  | .executeOrder trader symbol => .position trader symbol
  | .deleveragePosition trader symbol => .position trader symbol

def ttlMs : KeeperAction A S → ℕ
  | .updateIndices _ => 5000
  | _ => 60000

/-- A refused index update keeps its slot when the refusal was expected. -/
def releasesOn : KeeperAction A S → SubmitOutcome → Bool
  | _, .submitted => false
  | .updateIndices _, .rejected expected => !expected
  | _, .rejected _ => true

end KeeperAction

/-- A loop awaits its action in the serializer, then goes on with the outcome; none when
the action threw. -/
inductive LoopState (A S : Type)
  | free
  | awaiting (action : KeeperAction A S)
  | settled (action : KeeperAction A S) (outcome : Option SubmitOutcome)

def LoopState.WorksFor {A S : Type} (loop : KeeperLoop) : LoopState A S → Prop
  | .free => True
  | .awaiting action => action.loop = loop
  | .settled action _ => action.loop = loop

/-- `chain` are the loops whose actions the serializer has not run yet, in order. -/
structure Keeper (A S : Type) where
  now : ℕ
  dedup : TtlDedup (DedupKey A S)
  loops : KeeperLoop → LoopState A S
  chain : List KeeperLoop

/-- Time passes, a loop comes to an action, the serializer's first action ends, or a loop
goes on after its action. -/
inductive KeeperOp (A S : Type)
  | advance (ms : ℕ)
  | claim (action : KeeperAction A S)
  | complete (outcome : Option SubmitOutcome)
  | resume (loop : KeeperLoop)

namespace Keeper

variable {A S : Type} [DecidableEq A] [DecidableEq S]

def start (now : ℕ) : Keeper A S := ⟨now, ⟨fun _ => none⟩, fun _ => .free, []⟩

def isFree (k : Keeper A S) (loop : KeeperLoop) : Bool :=
  match k.loops loop with
  | .free => true
  | _ => false

/-- The loop is free to claim, and its claim would succeed. -/
def grants (k : Keeper A S) (action : KeeperAction A S) : Bool :=
  k.isFree action.loop && (k.dedup.claim k.now action.key action.ttlMs).1

/-- The action whose key the loop will release when it goes on. -/
def releasing (k : Keeper A S) (loop : KeeperLoop) : Option (KeeperAction A S) :=
  match k.loops loop with
  | .settled action (some outcome) => if action.releasesOn outcome then some action else none
  | _ => none

def step (k : Keeper A S) : KeeperOp A S → Keeper A S
  | .advance ms => { k with now := k.now + ms }
  | .claim action =>
      if k.grants action then
        { k with
          dedup := (k.dedup.claim k.now action.key action.ttlMs).2
          loops := Function.update k.loops action.loop (.awaiting action)
          chain := k.chain ++ [action.loop] }
      else k
  | .complete outcome =>
      match k.chain with
      | [] => k
      | loop :: rest =>
          match k.loops loop with
          | .awaiting action =>
              { k with
                loops := Function.update k.loops loop (.settled action outcome)
                chain := rest }
          | _ => k
  | .resume loop =>
      match k.loops loop with
      | .settled _ _ =>
          { k with
            dedup := match k.releasing loop with
              | some action => k.dedup.release action.key
              | none => k.dedup
            loops := Function.update k.loops loop .free }
      | _ => k

end Keeper

/-! ## Who owns what -/

/-- A claim that was granted: the owner may rely on it until `expiresAt`. -/
structure GrantedClaim (A S : Type) where
  number : ℕ
  key : DedupKey A S
  expiresAt : ℕ

/-- The keeper with the claims granted and not yet released by their owners, and for each
loop the number of its last claim. -/
structure ClaimTrace (A S : Type) where
  keeper : Keeper A S
  granted : ℕ
  own : KeeperLoop → ℕ
  held : List (GrantedClaim A S)

namespace ClaimTrace

variable {A S : Type} [DecidableEq A] [DecidableEq S]

def start (now : ℕ) : ClaimTrace A S := ⟨.start now, 0, fun _ => 0, []⟩

def step (t : ClaimTrace A S) (op : KeeperOp A S) : ClaimTrace A S :=
  { keeper := t.keeper.step op
    granted := match op with
      | .claim action => if t.keeper.grants action then t.granted + 1 else t.granted
      | _ => t.granted
    own := match op with
      | .claim action =>
          if t.keeper.grants action then Function.update t.own action.loop t.granted else t.own
      | _ => t.own
    held := match op with
      | .claim action =>
          if t.keeper.grants action then
            ⟨t.granted, action.key, t.keeper.now + action.ttlMs⟩ :: t.held
          else t.held
      | .resume loop =>
          if (t.keeper.releasing loop).isSome then t.held.filter (·.number ≠ t.own loop) else t.held
      | _ => t.held }

/-- No claim that the keeper would grant now is of a key that another still holds. -/
def Exclusive (t : ClaimTrace A S) : Prop :=
  ∀ action, t.keeper.grants action = true → ∀ c ∈ t.held, c.key = action.key →
    c.expiresAt ≤ t.keeper.now

/-- A loop that releases a key leaves no claim of another without its entry. -/
def Timely (t : ClaimTrace A S) : KeeperOp A S → Prop
  | .resume loop => ∀ action, t.keeper.releasing loop = some action → ∀ c ∈ t.held,
      c.key = action.key → c.number ≠ t.own loop → c.expiresAt ≤ t.keeper.now
  | _ => True

/-- A claim in force is the one the entry of its key was made for, and every loop works on
actions of its own. -/
structure Guarded (t : ClaimTrace A S) : Prop where
  entry : ∀ c ∈ t.held, t.keeper.now < c.expiresAt →
    t.keeper.dedup.entries c.key = some c.expiresAt
  loops : ∀ loop, (t.keeper.loops loop).WorksFor loop

section Steps

variable {t : ClaimTrace A S} {op : KeeperOp A S}

/-- Forgetting the owners gives the keeper's run back. -/
theorem run_keeper (t : ClaimTrace A S) (ops : List (KeeperOp A S)) :
    (run step t ops).keeper = run Keeper.step t.keeper ops :=
  run_map (φ := ClaimTrace.keeper) (fun _ _ => rfl) t ops

omit [DecidableEq A] [DecidableEq S] in
theorem releasing_eq_some {k : Keeper A S} {loop : KeeperLoop} {action : KeeperAction A S}
    (h : k.releasing loop = some action) : ∃ outcome, k.loops loop = .settled action outcome := by
  unfold Keeper.releasing at h
  split at h
  · next action' outcome hloop =>
      split_ifs at h
      obtain rfl := Option.some.inj h
      exact ⟨some outcome, hloop⟩
  · cases h

theorem grants_iff {k : Keeper A S} {action : KeeperAction A S} :
    k.grants action = true ↔ k.isFree action.loop = true ∧
      ∀ expiresAt, k.dedup.entries action.key = some expiresAt → expiresAt ≤ k.now := by
  rw [Keeper.grants, Bool.and_eq_true, TtlDedup.claim_granted_iff]

omit [DecidableEq A] [DecidableEq S] in
theorem worksFor_update {loops : KeeperLoop → LoopState A S} {loop : KeeperLoop}
    {state : LoopState A S} (h : ∀ loop, (loops loop).WorksFor loop) (hstate : state.WorksFor loop)
    (other : KeeperLoop) : (Function.update loops loop state other).WorksFor other := by
  obtain rfl | hne := eq_or_ne other loop
  · rw [Function.update_self]
    exact hstate
  · rw [Function.update_of_ne hne]
    exact h other

theorem exclusive_of_guarded (h : Guarded t) : Exclusive t := by
  intro action hgrants c hc hkey
  by_contra hlive
  have hentry := h.entry c hc (not_le.mp hlive)
  rw [hkey] at hentry
  exact hlive ((grants_iff.mp hgrants).2 _ hentry)

/-- A granted claim takes the entry of a key that nobody holds. -/
theorem guarded_claim (h : Guarded t) (action : KeeperAction A S) :
    Guarded (t.step (.claim action)) := by
  by_cases hgrants : t.keeper.grants action = true
  · have hclaim : (t.keeper.dedup.claim t.keeper.now action.key action.ttlMs).1 = true :=
      (Bool.and_eq_true_iff.mp hgrants).2
    have hfree := exclusive_of_guarded h action hgrants
    simp only [step, Keeper.step, if_pos hgrants]
    refine ⟨?_, worksFor_update h.loops rfl⟩
    intro c hc hlive
    simp only at hc hlive ⊢
    rw [TtlDedup.claim_entries hclaim]
    obtain rfl | hc := List.mem_cons.mp hc
    · exact Function.update_self _ _ _
    · have hne : c.key ≠ action.key := fun hkey => absurd (hfree c hc hkey) (not_le.mpr hlive)
      rw [Function.update_of_ne hne]
      exact h.entry c hc hlive
  · simp only [step, Keeper.step, if_neg hgrants]
    exact h

theorem guarded_complete (h : Guarded t) (outcome : Option SubmitOutcome) :
    Guarded (t.step (.complete outcome)) := by
  simp only [step, Keeper.step]
  split
  · exact h
  · next first rest hchain =>
      split
      · next action haction =>
          have hworks := h.loops first
          rw [haction] at hworks
          exact ⟨h.entry, worksFor_update h.loops hworks⟩
      · exact h

/-- Going on frees the loop, and deletes the entry if the loop releases. -/
theorem step_resume {loop : KeeperLoop} {action : KeeperAction A S}
    {outcome : Option SubmitOutcome} (hloop : t.keeper.loops loop = .settled action outcome) :
    (t.keeper.step (.resume loop)).loops = Function.update t.keeper.loops loop .free ∧
      (t.keeper.step (.resume loop)).now = t.keeper.now ∧
      (t.keeper.step (.resume loop)).dedup = match t.keeper.releasing loop with
        | some action => t.keeper.dedup.release action.key
        | none => t.keeper.dedup := by
  simp only [Keeper.step, hloop, and_self]

theorem guarded_resume (h : Guarded t) (loop : KeeperLoop) (htimely : Timely t (.resume loop)) :
    Guarded (t.step (.resume loop)) := by
  cases hloop : t.keeper.loops loop with
  | settled action outcome =>
      obtain ⟨hloops, hnow, hdedup⟩ := step_resume hloop
      constructor
      · simp only [step, hnow, hdedup]
        cases hreleasing : t.keeper.releasing loop with
        | none => simpa using h.entry
        | some released =>
            intro c hc hlive
            simp only [Option.isSome_some, if_true, List.mem_filter, decide_eq_true_eq] at hc
            have hne : c.key ≠ released.key := fun hkey =>
              absurd (htimely released hreleasing c hc.1 hkey hc.2) (not_le.mpr hlive)
            simp only [TtlDedup.release]
            rw [Function.update_of_ne hne]
            exact h.entry c hc.1 hlive
      · simp only [step, hloops]
        exact worksFor_update h.loops trivial
  | free | awaiting =>
      have hnone : t.keeper.releasing loop = none := by rw [Keeper.releasing, hloop]
      simp only [step, Keeper.step, hloop, hnone]
      exact h

theorem guarded_step (h : Guarded t) (htimely : Timely t op) : Guarded (t.step op) := by
  cases op with
  | advance ms =>
      refine ⟨?_, h.loops⟩
      intro c hc hlive
      simp only [step, Keeper.step] at hlive hc ⊢
      exact h.entry c hc (by omega)
  | claim action => exact guarded_claim h action
  | complete outcome => exact guarded_complete h outcome
  | resume loop => exact guarded_resume h loop htimely

/-- After a release the loop could claim the key again at once. -/
theorem timely_of_exclusive_step (h : Guarded t) (hexclusive : Exclusive (t.step op)) :
    Timely t op := by
  cases op with
  | resume loop =>
      intro action hreleasing c hc hkey hother
      obtain ⟨outcome, hloop⟩ := releasing_eq_some hreleasing
      obtain ⟨hloops, hnow, hdedup⟩ := step_resume hloop
      have hown := h.loops loop
      rw [hloop] at hown
      have hgrants : (t.step (.resume loop)).keeper.grants action = true := by
        rw [grants_iff, show action.loop = loop from hown]
        constructor
        · simp only [step, Keeper.isFree, hloops, Function.update_self]
        · intro expiresAt hentry
          simp only [step, hdedup, hreleasing, TtlDedup.release, Function.update_self] at hentry
          cases hentry
      have hheld : c ∈ (t.step (.resume loop)).held := by
        simp only [step, hreleasing, Option.isSome_some, if_true, List.mem_filter,
          decide_eq_true_eq]
        exact ⟨hc, hother⟩
      exact (hexclusive action hgrants c hheld hkey).trans hnow.le
  | advance | claim | complete => exact trivial

end Steps

/-- In every run of the two loops a claim belongs to its owner throughout exactly if no
loop ever releases a key that another claim holds by then. -/
theorem claims_owned_iff (now : ℕ) (ops : List (KeeperOp A S)) :
    (run step (start now) ops).keeper = run Keeper.step (.start now : Keeper A S) ops ∧
    (Visits step Exclusive (start now) ops ↔
      Along step Timely (start now : ClaimTrace A S) ops) := by
  have hstart : Guarded (start now : ClaimTrace A S) := by
    refine ⟨?_, fun _ => trivial⟩
    intro c hc
    cases hc
  exact ⟨run_keeper (start now) ops, visits_iff_along_of (fun _ => exclusive_of_guarded)
    (fun _ _ => guarded_step) (fun _ _ => timely_of_exclusive_step) hstart⟩

section Scenario

/-- A liquidation takes a minute. The cold loop claims the position for an order, and then
the liquidation fails. -/
def lateRelease : List (KeeperOp ℕ ℕ) :=
  [.claim (.liquidatePosition 2 0), .advance 60000, .claim (.executeOrder 2 0),
    .complete (some (.rejected true)), .resume .hot]

/-- The hot loop could claim the position again while the cold loop holds it. -/
theorem claims_not_owned :
    ¬∀ (now : ℕ) (ops : List (KeeperOp ℕ ℕ)), Visits step Exclusive (start now) ops := by
  intro h
  have hlast : Exclusive (run step (start 0) lateRelease) := (h 0 lateRelease).last
  have hheld : (⟨1, .position 2 0, 120000⟩ : GrantedClaim ℕ ℕ) ∈
      (run step (start 0 : ClaimTrace ℕ ℕ) lateRelease).held := List.mem_cons_self
  exact absurd (hlast (.liquidatePosition 2 0) rfl _ hheld rfl) (by decide)

end Scenario

end ClaimTrace

end Stellars
