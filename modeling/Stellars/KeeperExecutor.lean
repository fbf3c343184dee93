import Stellars.GuardedRuns
import Stellars.KeeperDedup
import Mathlib.Algebra.BigOperators.Group.List.Basic
import Mathlib.Data.List.Infix

/-!
# The keeper's executor

A submission is simulated, signed and sent. What it paid is added to a tally that starts
again at midnight UTC, written to the audit log, and reported once a day when it crosses
the budget; nothing here ever holds a submission back.
-/
namespace Stellars
open GuardedRuns

/-- Op-type for cost tracking. -/
inductive OpType
  | updateIndices
  | liquidatePosition
  | executeOrder
  | deleveragePosition
  deriving DecidableEq, Repr

/-! ## Reading a sent transaction -/

/-- A number that is no integer, like a string that is none, makes `BigInt` throw. -/
inductive Numeral
  | bigint (n : ℤ)
  | number (n : Option ℤ)
  | string (s : String)
  | other

structure GetTransactionResponse where
  txHash : Option String
  ledger : Option ℕ
  createdAt : Option Numeral
  feeCharged : Option Numeral

structure SentLike where
  hash : Option String
  getTransactionResponse : Option GetTransactionResponse

structure SubmissionRecord where
  txHash : String
  ledger : ℕ
  unixSeconds : ℤ
  feeStroops : ℤ

section Extraction

variable (parseBigInt : String → Option ℤ)

/-- None when `BigInt` throws. An XDR value counts as the bigint it converts to. -/
def extractFeeCharged (sent : SentLike) : Option ℤ :=
  match sent.getTransactionResponse.bind (·.feeCharged) with
  | none => some 0
  | some (.bigint n) => some n
  | some (.number n) => n
  | some (.string s) => parseBigInt s
  | some .other => some 0

def extractRecord (now : ℕ) (sent : SentLike) : Option SubmissionRecord := do
  let response := sent.getTransactionResponse
  let wallClock : ℤ := now / 1000
  let unixSeconds ← match response.bind (·.createdAt) with
    | some (.number n) => n
    | some (.string s) => if s.length > 0 then parseBigInt s else some wallClock
    | _ => some wallClock
  let feeStroops ← extractFeeCharged parseBigInt sent
  some
    { txHash := ((response.bind (·.txHash)).or sent.hash).getD ""
      ledger := (response.bind (·.ledger)).getD 0
      unixSeconds := unixSeconds
      feeStroops := feeStroops }

end Extraction

/-- Position-manager errors that are normal during keeper operation, codes 3, 5, 6, 9,
10, 13 and 17. -/
def expectedRejections : List String :=
  ["Paused", "PositionNotOldEnough", "PositionNotFound", "HealthFactorOk", "AdlNotTriggered",
    "OrderNotTriggered", "AdlTargetNotProfitable"]

def classify (reason : String) : Bool :=
  expectedRejections.any fun name => decide (name.toList <:+: reason.toList)

/-! ## The tally of a day -/

def startOfDayUtc (ms : ℕ) : ℕ := 86400000 * (ms / 86400000)

theorem startOfDayUtc_mono {a b : ℕ} (h : a ≤ b) : startOfDayUtc a ≤ startOfDayUtc b :=
  Nat.mul_le_mul_left _ (Nat.div_le_div_right h)

structure CostTracker where
  totalSpentStroops : ℤ
  byOpSpentStroops : OpType → ℤ
  windowStart : ℕ
  capCrossedThisWindow : Bool

namespace CostTracker

def start (now : ℕ) : CostTracker := ⟨0, fun _ => 0, startOfDayUtc now, false⟩

@[simp] theorem windowStart_start (now : ℕ) : (start now).windowStart = startOfDayUtc now := rfl

def rolloverIfNewDay (c : CostTracker) (now : ℕ) : CostTracker :=
  if startOfDayUtc now ≠ c.windowStart then .start now else c

/-- The tally after a fee, and whether it makes the keeper warn. -/
def recordSpend (cap : ℤ) (c : CostTracker) (now : ℕ) (op : OpType) (feeStroops : ℤ) :
    CostTracker × Bool :=
  if feeStroops ≤ 0 then (c, false)
  else
    let c := c.rolloverIfNewDay now
    let c := { c with
      totalSpentStroops := c.totalSpentStroops + feeStroops
      byOpSpentStroops := Function.update c.byOpSpentStroops op
        (c.byOpSpentStroops op + feeStroops) }
    if c.totalSpentStroops > cap ∧ c.capCrossedThisWindow = false then
      ({ c with capCrossedThisWindow := true }, true)
    else (c, false)

theorem recordSpend_of_pos {cap : ℤ} (c : CostTracker) {now : ℕ} {op : OpType} {fee : ℤ}
    (hfee : 0 < fee) :
    (c.recordSpend cap now op fee).1.windowStart = (c.rolloverIfNewDay now).windowStart ∧
      (c.recordSpend cap now op fee).1.totalSpentStroops =
        (c.rolloverIfNewDay now).totalSpentStroops + fee ∧
      (∀ o, (c.recordSpend cap now op fee).1.byOpSpentStroops o =
        (c.rolloverIfNewDay now).byOpSpentStroops o + if op = o then fee else 0) ∧
      ((c.recordSpend cap now op fee).1.capCrossedThisWindow = true ↔
        (c.rolloverIfNewDay now).capCrossedThisWindow = true ∨
          cap < (c.rolloverIfNewDay now).totalSpentStroops + fee) ∧
      ((c.recordSpend cap now op fee).2 = true ↔
        (c.rolloverIfNewDay now).capCrossedThisWindow = false ∧
          cap < (c.rolloverIfNewDay now).totalSpentStroops + fee) := by
  have hbyOp : ∀ (f : OpType → ℤ) o, Function.update f op (f op + fee) o =
      f o + if op = o then fee else 0 := by
    intro f o
    by_cases ho : o = op
    · subst ho
      simp
    · simp [Function.update_of_ne ho, Ne.symm ho]
  unfold recordSpend
  rw [if_neg (not_le.mpr hfee)]
  dsimp only
  split_ifs with hover
  · exact ⟨rfl, rfl, hbyOp _, iff_of_true rfl (.inr hover.1), iff_of_true rfl ⟨hover.2, hover.1⟩⟩
  · refine ⟨rfl, rfl, hbyOp _, ⟨.inl, ?_⟩, iff_of_false id ?_⟩
    · rintro (hcrossed | hcap)
      · exact hcrossed
      · cases hc : (c.rolloverIfNewDay now).capCrossedThisWindow with
        | true => rfl
        | false => exact absurd ⟨hcap, hc⟩ hover
    · exact fun hboth => hover ⟨hboth.2, hboth.1⟩

end CostTracker

/-- `KEEPER_DAILY_FEE_BUDGET_STROOPS`. -/
abbrev keeperDailyFeeBudgetStroops : ℤ := 10000000000

theorem budget_nonneg : 0 ≤ keeperDailyFeeBudgetStroops := by decide

/-! ## Submissions -/

/-- What a call of the executor asks for, and what the node and the database make of it. -/
structure Submission (A S : Type) where
  op : OpType
  symbol : Option S
  trader : Option A
  build : Except String Unit
  sent : Except String SentLike
  insertFails : Bool

/-- A row of `keeper_fees`. -/
structure KeeperFeeRow (A S : Type) where
  txHash : String
  ledger : ℕ
  timestamp : ℤ
  opType : OpType
  symbol : Option S
  trader : Option A
  feeChargedStroops : ℤ

/-- `warnings` holds the day of each budget warning in the log. -/
structure Executor (A S : Type) where
  now : ℕ
  costs : CostTracker
  keeperFees : List (KeeperFeeRow A S)
  warnings : List ℕ

inductive ExecutorOp (A S : Type)
  | wait (ms : ℕ)
  | submit (s : Submission A S)
  | costSummary

namespace Executor

variable {A S : Type} (parseBigInt : String → Option ℤ)

def create (now : ℕ) : Executor A S := ⟨now, .start now, [], []⟩

def persistFee (e : Executor A S) (s : Submission A S) (rec : SubmissionRecord) : Executor A S :=
  if rec.txHash = "" then e
  else if s.insertFails then e
  else { e with keeperFees := e.keeperFees ++
    [{ txHash := rec.txHash
       ledger := rec.ledger
       timestamp := rec.unixSeconds
       opType := s.op
       symbol := s.symbol
       trader := s.trader
       feeChargedStroops := rec.feeStroops }] }

/-- Only a failed simulation can be an expected rejection. -/
def submitWithSim (e : Executor A S) (s : Submission A S) : Executor A S × SubmitOutcome :=
  match s.build with
  | .error reason => (e, .rejected (classify reason))
  | .ok () =>
      match s.sent with
      | .error _ => (e, .rejected false)
      | .ok sent =>
          match extractRecord parseBigInt e.now sent with
          | none => (e, .rejected false)
          | some rec =>
              let (costs, warns) := e.costs.recordSpend keeperDailyFeeBudgetStroops e.now s.op
                rec.feeStroops
              let e := { e with
                costs := costs
                warnings := if warns then e.warnings ++ [costs.windowStart] else e.warnings }
              (e.persistFee s rec, .submitted)

def costSummary (e : Executor A S) : Executor A S × (ℤ × (OpType → ℤ)) :=
  let costs := e.costs.rolloverIfNewDay e.now
  ({ e with costs := costs }, (costs.totalSpentStroops, costs.byOpSpentStroops))

end Executor

/-! ## Runs -/

/-- A submission with the time at which it was recorded and what came of it. -/
structure Submitted (A S : Type) where
  time : ℕ
  submission : Submission A S
  outcome : SubmitOutcome

namespace Submitted

variable {A S : Type} (parseBigInt : String → Option ℤ) (x : Submitted A S)

/-- Nothing when it was not included. -/
def record : Option SubmissionRecord :=
  match x.submission.build, x.submission.sent with
  | .ok (), .ok sent => extractRecord parseBigInt x.time sent
  | _, _ => none

/-- What it adds to the tally of its day. -/
def charge : ℤ := (x.record parseBigInt).elim 0 fun rec => max rec.feeStroops 0

def feeRow : Option (KeeperFeeRow A S) :=
  (x.record parseBigInt).bind fun rec =>
    if rec.txHash = "" ∨ x.submission.insertFails then none
    else some
      { txHash := rec.txHash
        ledger := rec.ledger
        timestamp := rec.unixSeconds
        opType := x.submission.op
        symbol := x.submission.symbol
        trader := x.submission.trader
        feeChargedStroops := rec.feeStroops }

end Submitted

structure ExecutorTrace (A S : Type) where
  executor : Executor A S
  past : List (Submitted A S)

namespace ExecutorTrace

variable {A S : Type} (parseBigInt : String → Option ℤ)

def start (now : ℕ) : ExecutorTrace A S := ⟨.create now, []⟩

def step (t : ExecutorTrace A S) : ExecutorOp A S → ExecutorTrace A S
  | .wait ms => { t with executor := { t.executor with now := t.executor.now + ms } }
  | .submit s =>
      let (executor, outcome) := t.executor.submitWithSim parseBigInt s
      ⟨executor, t.past ++ [⟨t.executor.now, s, outcome⟩]⟩
  | .costSummary => { t with executor := t.executor.costSummary.1 }

/-- What the submissions of a day that satisfy `p` have paid. -/
def spent (past : List (Submitted A S)) (day : ℕ) (p : OpType → Bool) : ℤ :=
  (past.map fun x => if startOfDayUtc x.time = day ∧ p x.submission.op then x.charge parseBigInt
    else 0).sum

def spentOn (past : List (Submitted A S)) (day : ℕ) : ℤ := spent parseBigInt past day fun _ => true

/-- The cost summary is exact, every day over budget has been warned of once, the audit
log has a row for each included transaction that could be written, and nothing but an
included transaction is charged. -/
structure Accounted (t : ExecutorTrace A S) : Prop where
  total : t.executor.costSummary.2.1 = spentOn parseBigInt t.past (startOfDayUtc t.executor.now)
  byOp : ∀ op, t.executor.costSummary.2.2 op =
    spent parseBigInt t.past (startOfDayUtc t.executor.now) fun o => o = op
  warned : ∀ day, t.executor.warnings.count day =
    if keeperDailyFeeBudgetStroops < spentOn parseBigInt t.past day then 1 else 0
  audited : t.executor.keeperFees = t.past.filterMap fun x => x.feeRow parseBigInt
  outcomes : ∀ x ∈ t.past, x.outcome = .submitted ↔ (x.record parseBigInt).isSome

/-- The tally of the window, which may be that of an earlier day. -/
structure Tallied (t : ExecutorTrace A S) : Prop where
  current : t.executor.costs.windowStart ≤ startOfDayUtc t.executor.now
  past : ∀ x ∈ t.past, x.time ≤ t.executor.now
  idle : ∀ x ∈ t.past, t.executor.costs.windowStart < startOfDayUtc x.time →
    x.charge parseBigInt = 0
  total : t.executor.costs.totalSpentStroops =
    spentOn parseBigInt t.past t.executor.costs.windowStart
  byOp : ∀ op, t.executor.costs.byOpSpentStroops op =
    spent parseBigInt t.past t.executor.costs.windowStart fun o => o = op
  crossed : t.executor.costs.capCrossedThisWindow = true ↔
    keeperDailyFeeBudgetStroops < t.executor.costs.totalSpentStroops
  warned : ∀ day, t.executor.warnings.count day =
    if keeperDailyFeeBudgetStroops < spentOn parseBigInt t.past day then 1 else 0
  audited : t.executor.keeperFees = t.past.filterMap fun x => x.feeRow parseBigInt
  outcomes : ∀ x ∈ t.past, x.outcome = .submitted ↔ (x.record parseBigInt).isSome

variable {parseBigInt} {t : ExecutorTrace A S}

theorem spent_append (past : List (Submitted A S)) (x : Submitted A S) (day : ℕ)
    (p : OpType → Bool) : spent parseBigInt (past ++ [x]) day p =
      spent parseBigInt past day p +
        if startOfDayUtc x.time = day ∧ p x.submission.op then x.charge parseBigInt else 0 := by
  rw [spent, List.map_append, List.sum_append, List.map_singleton, List.sum_singleton, spent]

/-- A day on which nothing was charged. -/
theorem spent_eq_zero {past : List (Submitted A S)} {day : ℕ} (p : OpType → Bool)
    (h : ∀ x ∈ past, startOfDayUtc x.time = day → x.charge parseBigInt = 0) :
    spent parseBigInt past day p = 0 := by
  refine List.sum_eq_zero fun c hc => ?_
  obtain ⟨x, hx, rfl⟩ := List.mem_map.mp hc
  split_ifs with hday
  · exact h x hx hday.1
  · rfl

/-- Rolling the window over to today changes no tally: nothing was charged today yet. -/
theorem Tallied.rollover (h : Tallied parseBigInt t) :
    Tallied parseBigInt { t with executor := t.executor.costSummary.1 } ∧
      (t.executor.costs.rolloverIfNewDay t.executor.now).windowStart =
        startOfDayUtc t.executor.now := by
  have hcosts : (t.executor.costSummary.1).costs =
      t.executor.costs.rolloverIfNewDay t.executor.now := rfl
  by_cases htoday : startOfDayUtc t.executor.now = t.executor.costs.windowStart
  · have hsame : t.executor.costs.rolloverIfNewDay t.executor.now = t.executor.costs :=
      if_neg (not_not.mpr htoday)
    have heq : t.executor.costSummary.1 = t.executor := by
      rw [Executor.costSummary, hsame]
    exact ⟨by rwa [heq], by rw [hsame, htoday]⟩
  · have hnew : t.executor.costs.rolloverIfNewDay t.executor.now = .start t.executor.now :=
      if_pos htoday
    have hlater : t.executor.costs.windowStart < startOfDayUtc t.executor.now :=
      lt_of_le_of_ne h.current (Ne.symm htoday)
    have hzero : ∀ p, spent parseBigInt t.past (startOfDayUtc t.executor.now) p = 0 :=
      fun p => spent_eq_zero p fun x hx hday => h.idle x hx (hday.symm ▸ hlater)
    rw [hnew] at hcosts
    refine ⟨⟨?_, h.past, fun x hx hday => ?_, ?_, fun op => ?_, ?_, h.warned, h.audited,
      h.outcomes⟩, by rw [hnew, CostTracker.windowStart_start]⟩
    · rw [hcosts, CostTracker.windowStart_start]
      exact le_rfl
    · rw [hcosts, CostTracker.windowStart_start] at hday
      exact absurd (startOfDayUtc_mono (h.past x hx)) (not_le.mpr hday)
    · rw [hcosts, CostTracker.windowStart_start]
      exact (hzero _).symm
    · rw [hcosts, CostTracker.windowStart_start]
      exact (hzero _).symm
    · rw [hcosts]
      exact iff_of_false Bool.false_ne_true (not_lt.mpr budget_nonneg)

theorem tallied_start (now : ℕ) :
    Tallied parseBigInt (start now : ExecutorTrace A S) where
  current := le_rfl
  past := fun _ hx => absurd hx List.not_mem_nil
  idle := fun _ hx => absurd hx List.not_mem_nil
  total := rfl
  byOp := fun _ => rfl
  crossed := iff_of_false Bool.false_ne_true (not_lt.mpr budget_nonneg)
  warned := fun _ => (if_neg (not_lt.mpr budget_nonneg)).symm
  audited := rfl
  outcomes := fun _ hx => absurd hx List.not_mem_nil

theorem Tallied.wait (h : Tallied parseBigInt t) (ms : ℕ) :
    Tallied parseBigInt (step parseBigInt t (.wait ms)) :=
  { h with
    current := h.current.trans (startOfDayUtc_mono (Nat.le_add_right _ _))
    past := fun x hx => (h.past x hx).trans (Nat.le_add_right _ _) }

/-- One more submission, charged in today's window or not at all. -/
theorem Tallied.add (h : Tallied parseBigInt t) {x : Submitted A S} {e : Executor A S}
    (hat : x.time = t.executor.now) (hnow : e.now = t.executor.now)
    (hday : t.executor.costs.windowStart = startOfDayUtc t.executor.now ∨
      x.charge parseBigInt = 0)
    (hwindow : e.costs.windowStart = t.executor.costs.windowStart)
    (htotal : e.costs.totalSpentStroops =
      t.executor.costs.totalSpentStroops + x.charge parseBigInt)
    (hbyOp : ∀ op, e.costs.byOpSpentStroops op = t.executor.costs.byOpSpentStroops op +
      if x.submission.op = op then x.charge parseBigInt else 0)
    (hcrossed : e.costs.capCrossedThisWindow = true ↔
      keeperDailyFeeBudgetStroops < e.costs.totalSpentStroops)
    (hwarned : ∀ day, e.warnings.count day = t.executor.warnings.count day +
      if day = e.costs.windowStart ∧
          t.executor.costs.totalSpentStroops ≤ keeperDailyFeeBudgetStroops ∧
          keeperDailyFeeBudgetStroops < e.costs.totalSpentStroops then 1 else 0)
    (hfees : e.keeperFees = t.executor.keeperFees ++ (x.feeRow parseBigInt).toList)
    (houtcome : x.outcome = .submitted ↔ (x.record parseBigInt).isSome) :
    Tallied parseBigInt ⟨e, t.past ++ [x]⟩ := by
  have hadd : ∀ day p, spent parseBigInt (t.past ++ [x]) day p = spent parseBigInt t.past day p +
      if day = e.costs.windowStart ∧ p x.submission.op then x.charge parseBigInt else 0 := by
    intro day p
    rw [spent_append, hwindow, hat]
    obtain htoday | hzero := hday
    · simp only [← htoday, eq_comm]
    · simp only [hzero, ite_self]
  have hsum : spentOn parseBigInt t.past e.costs.windowStart =
      t.executor.costs.totalSpentStroops := by rw [hwindow, h.total]
  refine ⟨?_, fun y hy => ?_, fun y hy hlater => ?_, ?_, fun op => ?_, hcrossed, fun day => ?_,
    ?_, fun y hy => ?_⟩
  · rw [hwindow, hnow]
    exact h.current
  · rw [hnow]
    obtain hy | hy := List.mem_append.mp hy
    · exact h.past y hy
    · rw [List.mem_singleton.mp hy, hat]
  · rw [hwindow] at hlater
    obtain hy | hy := List.mem_append.mp hy
    · exact h.idle y hy hlater
    · obtain rfl := List.mem_singleton.mp hy
      obtain htoday | hzero := hday
      · rw [hat, htoday] at hlater
        exact absurd hlater (lt_irrefl _)
      · exact hzero
  · rw [spentOn, hadd, if_pos ⟨rfl, rfl⟩, htotal, ← hsum, spentOn]
  · rw [hadd, hbyOp, h.byOp, hwindow]
    simp
  · rw [hwarned, h.warned, spentOn, spentOn, hadd]
    by_cases hd : day = e.costs.windowStart
    · subst hd
      have hnew : spent parseBigInt t.past e.costs.windowStart (fun _ => true) +
          x.charge parseBigInt = e.costs.totalSpentStroops := by
        rw [htotal, ← hsum, spentOn]
      have hold : spent parseBigInt t.past e.costs.windowStart (fun _ => true) =
          t.executor.costs.totalSpentStroops := hsum
      have hcharge : 0 ≤ x.charge parseBigInt := by
        unfold Submitted.charge
        cases x.record parseBigInt with
        | none => exact le_rfl
        | some rec => exact le_max_right _ _
      simp only [true_and, if_true, hold]
      split_ifs <;> omega
    · simp [hd]
  · rw [hfees, h.audited, List.filterMap_append]
    cases hrow : x.feeRow parseBigInt <;> simp [hrow]
  · obtain hy | hy := List.mem_append.mp hy
    · exact h.outcomes y hy
    · rw [List.mem_singleton.mp hy]
      exact houtcome

/-- A submission that was not included leaves the executor as it was. -/
theorem submitWithSim_of_none {s : Submission A S} {outcome : SubmitOutcome}
    (h : (⟨t.executor.now, s, outcome⟩ : Submitted A S).record parseBigInt = none) :
    ∃ expected, t.executor.submitWithSim parseBigInt s = (t.executor, .rejected expected) := by
  unfold Submitted.record at h
  unfold Executor.submitWithSim
  cases hbuild : s.build with
  | error reason => exact ⟨classify reason, rfl⟩
  | ok u =>
      cases hsent : s.sent with
      | error reason => exact ⟨false, rfl⟩
      | ok sent =>
          simp only [hbuild, hsent] at h
          simp only [h]
          exact ⟨false, rfl⟩

theorem submitWithSim_of_some {s : Submission A S} {outcome : SubmitOutcome}
    {rec : SubmissionRecord}
    (h : (⟨t.executor.now, s, outcome⟩ : Submitted A S).record parseBigInt = some rec) :
    t.executor.submitWithSim parseBigInt s =
      (let spend := t.executor.costs.recordSpend keeperDailyFeeBudgetStroops t.executor.now s.op
        rec.feeStroops
      (Executor.persistFee { t.executor with
        costs := spend.1
        warnings := if spend.2 then t.executor.warnings ++ [spend.1.windowStart]
          else t.executor.warnings } s rec, .submitted)) := by
  unfold Submitted.record at h
  unfold Executor.submitWithSim
  cases hbuild : s.build with
  | error reason => simp [hbuild] at h
  | ok u =>
      cases hsent : s.sent with
      | error reason => simp [hbuild, hsent] at h
      | ok sent =>
          simp only [hbuild, hsent] at h
          simp only [h]

theorem keeperFees_persistFee (e : Executor A S) {s : Submission A S} {rec : SubmissionRecord}
    {x : Submitted A S} (hs : x.submission = s) (h : x.record parseBigInt = some rec) :
    (e.persistFee s rec).keeperFees = e.keeperFees ++ (x.feeRow parseBigInt).toList := by
  unfold Executor.persistFee Submitted.feeRow
  rw [h, hs, Option.bind_some]
  by_cases hhash : rec.txHash = ""
  · simp [hhash]
  · cases hfails : s.insertFails <;> simp [hhash]

@[simp] theorem costs_persistFee (e : Executor A S) (s : Submission A S) (rec : SubmissionRecord) :
    (e.persistFee s rec).costs = e.costs := by
  unfold Executor.persistFee
  split_ifs <;> rfl

@[simp] theorem now_persistFee (e : Executor A S) (s : Submission A S) (rec : SubmissionRecord) :
    (e.persistFee s rec).now = e.now := by
  unfold Executor.persistFee
  split_ifs <;> rfl

@[simp] theorem warnings_persistFee (e : Executor A S) (s : Submission A S)
    (rec : SubmissionRecord) : (e.persistFee s rec).warnings = e.warnings := by
  unfold Executor.persistFee
  split_ifs <;> rfl

theorem Tallied.submit (h : Tallied parseBigInt t) (s : Submission A S) :
    Tallied parseBigInt (step parseBigInt t (.submit s)) := by
  set outcome := (t.executor.submitWithSim parseBigInt s).2 with houtcome
  set x : Submitted A S := ⟨t.executor.now, s, outcome⟩ with hx
  have hstep : step parseBigInt t (.submit s) =
      ⟨(t.executor.submitWithSim parseBigInt s).1, t.past ++ [x]⟩ := rfl
  rw [hstep]
  cases hrec : x.record parseBigInt with
  | none =>
      obtain ⟨expected, hsubmit⟩ := submitWithSim_of_none hrec
      have hcharge : x.charge parseBigInt = 0 := by rw [Submitted.charge, hrec]; rfl
      rw [hsubmit]
      refine h.add rfl rfl (.inr hcharge) rfl (by rw [hcharge, add_zero]) (fun op => ?_) h.crossed
        (fun day => ?_) ?_ ?_
      · rw [hcharge, ite_self, add_zero]
      · rw [if_neg fun hd => absurd hd.2.2 (not_lt.mpr hd.2.1), add_zero]
      · rw [Submitted.feeRow, hrec]
        simp
      · rw [hrec, show x.outcome = outcome from rfl, houtcome, hsubmit]
        simp
  | some rec =>
      have hsubmit := submitWithSim_of_some hrec
      have hsubmitted : x.outcome = .submitted := by
        rw [show x.outcome = outcome from rfl, houtcome, hsubmit]
      have hcharge : x.charge parseBigInt = max rec.feeStroops 0 := by
        rw [Submitted.charge, hrec]
        rfl
      have hfees : ∀ e : Executor A S,
          (e.persistFee s rec).keeperFees = e.keeperFees ++ (x.feeRow parseBigInt).toList :=
        fun e => keeperFees_persistFee e rfl hrec
      have hrecord : x.outcome = .submitted ↔ (x.record parseBigInt).isSome :=
        iff_of_true hsubmitted (by rw [hrec]; rfl)
      rw [hsubmit]
      obtain hfee | hfee := le_or_gt rec.feeStroops 0
      · have hspend : t.executor.costs.recordSpend keeperDailyFeeBudgetStroops t.executor.now s.op
            rec.feeStroops = (t.executor.costs, false) := if_pos hfee
        rw [max_eq_right hfee] at hcharge
        simp only [hspend, Bool.false_eq_true, if_false]
        refine h.add rfl (by simp) (.inr hcharge) (by simp) (by simp [hcharge]) (fun op => ?_)
          (by simp [h.crossed]) (fun day => ?_) (hfees _) hrecord
        · simp [hcharge]
        · rw [if_neg fun hd => absurd hd.2.2 (by simpa using hd.2.1)]
          simp
      · obtain ⟨h1, htoday⟩ := h.rollover
        obtain ⟨hwindow, htotal, hbyOp, hcrossed, hwarns⟩ :=
          @CostTracker.recordSpend_of_pos keeperDailyFeeBudgetStroops t.executor.costs
            t.executor.now s.op _ hfee
        rw [max_eq_left hfee.le] at hcharge
        have hbefore := h1.crossed
        have hrolled : (t.executor.costSummary.1).costs =
            t.executor.costs.rolloverIfNewDay t.executor.now := rfl
        rw [hrolled] at hbefore
        refine h1.add rfl (by simp; rfl) (.inl htoday) ?_ ?_ (fun op => ?_) ?_ (fun day => ?_)
          (hfees _) hrecord
        · rw [costs_persistFee]
          exact hwindow
        · rw [costs_persistFee, hcharge]
          exact htotal
        · rw [costs_persistFee, hcharge]
          exact hbyOp op
        · simp only [costs_persistFee, htotal]
          rw [hcrossed, hbefore]
          omega
        · have hwarns' : (t.executor.costs.recordSpend keeperDailyFeeBudgetStroops t.executor.now
              s.op rec.feeStroops).2 = true ↔
              (t.executor.costSummary.1).costs.totalSpentStroops ≤ keeperDailyFeeBudgetStroops ∧
              keeperDailyFeeBudgetStroops < (t.executor.costs.recordSpend
                keeperDailyFeeBudgetStroops t.executor.now s.op rec.feeStroops).1.totalSpentStroops := by
            rw [hwarns, htotal, ← not_lt, hrolled, ← hbefore, Bool.not_eq_true]
          simp only [costs_persistFee, warnings_persistFee, ← hwarns']
          split_ifs with hwarn hday hday
          · rw [List.count_append, List.count_singleton, if_pos (by simp [hday.1])]
            rfl
          · rw [List.count_append, List.count_singleton, if_neg (fun heq => hday ⟨?_, hwarn⟩)]
            · rfl
            · exact (by simpa using heq : _ = day).symm
          · exact absurd hday.2 hwarn
          · rfl

theorem tallied_step (h : Tallied parseBigInt t) (op : ExecutorOp A S) :
    Tallied parseBigInt (step parseBigInt t op) := by
  cases op with
  | wait ms => exact h.wait ms
  | submit s => exact h.submit s
  | costSummary => exact h.rollover.1

theorem Tallied.accounted (h : Tallied parseBigInt t) : Accounted parseBigInt t := by
  obtain ⟨h1, htoday⟩ := h.rollover
  have htotal := h1.total
  have hbyOp := h1.byOp
  have hwindow : (t.executor.costSummary.1).costs.windowStart = startOfDayUtc t.executor.now :=
    htoday
  rw [hwindow] at htotal
  simp only [hwindow] at hbyOp
  exact ⟨htotal, hbyOp, h.warned, h.audited, h.outcomes⟩

/-- After any submissions at any times, with whatever came of them. -/
theorem costs_accounted (parseBigInt : String → Option ℤ) (now : ℕ) (ops : List (ExecutorOp A S)) :
    Accounted parseBigInt (run (step parseBigInt) (start now) ops) := by
  have htallied : Tallied parseBigInt (run (step parseBigInt) (start now) ops) :=
    run_invariant' ops (fun _ op h => tallied_step h op) (tallied_start now)
  exact htallied.accounted

end ExecutorTrace

end Stellars
