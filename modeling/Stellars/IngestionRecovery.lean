import Stellars.EventIngestion
import Mathlib.Data.List.Infix

/-!
# Exactly-once ingestion

The event loop asks the RPC node for the events past its cursor, tries again on transient
errors, and commits a page together with the cursor past it. A round whose page does not
commit leaves everything as it was, and a restart finds the cursor in the database. So
whatever fails on the way, the tables hold the effects of a prefix of the chain's events,
each of them once and in the chain's order. The driver is assumed to report a commit
exactly when there was one.
-/
namespace Stellars
open GuardedRuns SqlTransactions

/-! ## Fetching a page -/

/-- `\w` -/
def isWordChar (c : Char) : Bool := c.isAlphanum || c == '_'

/-- The text of `\b5\d\d\b`. -/
def isServerError : List Char → Bool
  | ['5', tens, ones] => tens.isDigit && ones.isDigit
  | _ => false

def transientFailures : List String := ["econnreset", "etimedout", "econnrefused", "fetch failed"]

/-- A word between two boundaries is a run of word characters that no other prolongs. -/
def isRetryable (message : String) : Bool :=
  let words := message.toList.splitOnP fun c => !isWordChar c
  words.contains "429".toList || words.contains "418".toList || words.any isServerError ||
    transientFailures.any fun failure =>
      decide (failure.toList <:+: message.toList.map Char.toLower)

inductive EventsRequest
  | cursor (cursor : String)
  | startLedger (ledger : ℕ)
  deriving DecidableEq

/-- An empty cursor is none. -/
def eventsRequest (startLedger : ℕ) : Option String → EventsRequest
  | some cursor => if cursor = "" then .startLedger startLedger else .cursor cursor
  | none => .startLedger startLedger

/-- The tries from number `attempt` on, when `left` more may follow it. -/
def fetchLoop (getEvents : ℕ → Except String Page) : ℕ → ℕ → Except String Page
  | 0, attempt => getEvents attempt
  | left + 1, attempt =>
      match getEvents attempt with
      | .ok page => .ok page
      | .error err =>
          if isRetryable err then fetchLoop getEvents left (attempt + 1) else .error err

def maxAttempts : ℕ := 5

/-- `getEvents` is what the server answers to each try of this round. -/
def fetchEvents (getEvents : ℕ → Except String Page) : Except String Page :=
  fetchLoop getEvents (maxAttempts - 1) 0

theorem fetchLoop_eq_ok {getEvents : ℕ → Except String Page} {page : Page} {left attempt : ℕ}
    (h : fetchLoop getEvents left attempt = .ok page) :
    ∃ tried, tried ≤ left ∧ getEvents (attempt + tried) = .ok page ∧
      ∀ i < tried, ∃ err, getEvents (attempt + i) = .error err ∧ isRetryable err = true := by
  induction left generalizing attempt with
  | zero => exact ⟨0, le_rfl, h, by simp⟩
  | succ left ih =>
      rw [fetchLoop] at h
      split at h
      · next answer hanswer =>
          cases h
          exact ⟨0, by omega, hanswer, by simp⟩
      · next err herr =>
          split at h
          · next hretry =>
              obtain ⟨tried, hle, hpage, hearlier⟩ := ih h
              refine ⟨tried + 1, by omega, by rw [← hpage]; congr 1; omega, ?_⟩
              intro i hi
              cases i with
              | zero => exact ⟨err, herr, hretry⟩
              | succ i =>
                  have := hearlier i (by omega)
                  rwa [show attempt + (i + 1) = attempt + 1 + i by omega]
          · cases h

/-- The page of a fetch is an answer of the server. -/
theorem exists_answer {getEvents : ℕ → Except String Page} {page : Page}
    (h : fetchEvents getEvents = .ok page) : ∃ attempt, getEvents attempt = .ok page := by
  obtain ⟨tried, -, hpage, -⟩ := fetchLoop_eq_ok h
  exact ⟨_, hpage⟩

/-! ## The event loop, and the process around it -/

/-- A round of the loop at a time, with the server's answers to its tries, or the end of
the process at any point of a round, followed by a new start. -/
inductive IndexerOp
  | poll (now : ℕ) (getEvents : ℕ → Except String Page)
  | restart

/-- What `main` reads before the loop starts. -/
def IndexerState.resume {D : Type} (deployed : ℕ) (s : IndexerState D) : IndexerState D :=
  match s.cursorRow with
  | some row =>
      if row.lastCursor = "" then { s with cursor := none, startLedger := deployed }
      else { s with cursor := some row.lastCursor, startLedger := row.lastLedger }
  | none => { s with cursor := none, startLedger := deployed }

/-- The indexer with what the events it ingested have written, event by event. -/
structure IndexerTrace (D W : Type) where
  indexer : IndexerState D
  written : List (List W)

/-! ## What the server promises -/

/-- The server's answer to a request is the part of the chain's events between the request
and the cursor it hands out; `position` tells how many events lie before either. -/
structure Page.Answers (log : List RawEvent) (position : EventsRequest → ℕ)
    (request : EventsRequest) (page : Page) : Prop where
  cursor : page.nextCursor ≠ ""
  forward : position request ≤ position (.cursor page.nextCursor)
  known : position (.cursor page.nextCursor) ≤ log.length
  events : page.events =
    (log.take (position (.cursor page.nextCursor))).drop (position request)

theorem Page.Answers.take {log : List RawEvent} {position : EventsRequest → ℕ}
    {request : EventsRequest} {page : Page} (h : page.Answers log position request) :
    log.take (position (.cursor page.nextCursor)) =
      log.take (position request) ++ page.events := by
  have hsplit := List.take_append_drop (position request)
    (log.take (position (.cursor page.nextCursor)))
  rw [List.take_take, min_eq_left h.forward] at hsplit
  rw [h.events, hsplit]

namespace IndexerTrace

variable {D Q R W : Type}

def start (tables : D) (deployed : ℕ) : IndexerTrace D W where
  indexer := ⟨tables, none, none, deployed⟩
  written := []

section Steps

variable (ix : EventPipeline Q R W) (E : Engine D Q R W) (unixSeconds : String → String)
  (deployed : ℕ)

/-- A fetch that fails is caught by the loop, like a page that does. -/
def step (t : IndexerTrace D W) : IndexerOp → IndexerTrace D W
  | .restart => { t with indexer := t.indexer.resume deployed }
  | .poll now getEvents =>
      match fetchEvents getEvents with
      | .error _ => t
      | .ok page =>
          let polled := ix.poll E unixSeconds now t.indexer page
          ⟨polled.state, t.written ++ polled.effects⟩

end Steps

/-- The request of the next round. -/
def request (t : IndexerTrace D W) : EventsRequest :=
  eventsRequest t.indexer.startLedger t.indexer.cursor

/-- Every page the server answers this round's request with is such a part. -/
def Serves (log : List RawEvent) (position : EventsRequest → ℕ) (t : IndexerTrace D W) :
    IndexerOp → Prop
  | .restart => True
  | .poll _ getEvents =>
      ∀ attempt page, getEvents attempt = .ok page → page.Answers log position t.request

/-! ## Each event once -/

/-- The tables hold what the events before the next request do to them in one transaction,
in the chain's order; nothing of any other event is in them. -/
structure IngestedUpTo (ix : EventPipeline Q R W) (E : Engine D Q R W) (tables : D)
    (log : List RawEvent) (progress : ℕ) (t : IndexerTrace D W) : Prop where
  known : progress ≤ log.length
  parsed : ∀ raw ∈ log.take progress, ∃ script, ix.eventScript raw = .ok script
  ingested : runAll E ⟨tables, false⟩ ((log.take progress).map ix.isolatedScript) =
    (⟨t.indexer.tables, false⟩, t.written)

/-- The loop's cursor is the row's, so a restart asks for the same page. -/
structure InStep (deployed : ℕ) (t : IndexerTrace D W) : Prop where
  cursor : t.indexer.cursor = t.indexer.cursorRow.map (·.lastCursor)
  cursor_ne : t.indexer.cursor ≠ some ""
  start : t.indexer.cursor = none → t.indexer.startLedger = deployed

section Invariant

variable {ix : EventPipeline Q R W} {E : Engine D Q R W} {unixSeconds : String → String}
  {deployed : ℕ} {tables : D} {log : List RawEvent} {position : EventsRequest → ℕ}
  {t : IndexerTrace D W}

theorem request_of_some {cursor : String} (h : t.indexer.cursor = some cursor)
    (hne : cursor ≠ "") : t.request = .cursor cursor := by
  rw [request, h]
  exact if_neg hne

theorem InStep.request_resume (h : InStep deployed t) :
    InStep deployed { t with indexer := t.indexer.resume deployed } ∧
      IndexerTrace.request { t with indexer := t.indexer.resume deployed } = t.request := by
  unfold IndexerState.resume
  cases hrow : t.indexer.cursorRow with
  | none =>
      have hcursor : t.indexer.cursor = none := by rw [h.cursor, hrow]; rfl
      refine ⟨⟨by simp, by simp, fun _ => rfl⟩, ?_⟩
      simp [request, eventsRequest, hcursor, h.start hcursor]
  | some row =>
      have hcursor : t.indexer.cursor = some row.lastCursor := by rw [h.cursor, hrow]; rfl
      have hne : row.lastCursor ≠ "" := fun heq => h.cursor_ne (by rw [hcursor, heq])
      simp only [if_neg hne]
      refine ⟨⟨by simp, by simpa using hne, by simp⟩, ?_⟩
      rw [request_of_some hcursor hne, request_of_some rfl hne]

theorem effects_of_not_committed {now : ℕ} {s : IndexerState D} {page : Page}
    (h : (ix.poll E unixSeconds now s page).committed = false) :
    (ix.poll E unixSeconds now s page).effects = [] := by
  revert h
  unfold EventPipeline.poll
  split
  · intro _
    rfl
  · split_ifs <;> simp

/-- A page that hands out the cursor of the request is empty. -/
theorem events_of_not_moves {page : Page} (hpage : page.Answers log position t.request)
    (hidle : ¬ page.Moves t.indexer.cursor) : page.events = [] := by
  have hcursor : t.indexer.cursor = some page.nextCursor := by
    by_contra hne
    exact hidle ⟨hpage.cursor, hne⟩
  rw [hpage.events, request_of_some hcursor hpage.cursor]
  exact List.drop_eq_nil_of_le (List.length_take_le _ _)

/-- A round whose page commits ingests exactly the events up to the page's cursor. -/
theorem poll_commits {now : ℕ} {page : Page} (hstep : InStep deployed t)
    (h : IngestedUpTo ix E tables log (position t.request) t)
    (hpage : page.Answers log position t.request)
    (hcommits : (ix.poll E unixSeconds now t.indexer page).committed = true) :
    let polled := ix.poll E unixSeconds now t.indexer page
    let after : IndexerTrace D W := ⟨polled.state, t.written ++ polled.effects⟩
    InStep deployed after ∧ after.request = .cursor page.nextCursor ∧
      IngestedUpTo ix E tables log (position after.request) after := by
  intro polled after
  obtain ⟨hparse, hopen⟩ := EventPipeline.poll_committed.mp hcommits
  obtain ⟨htables, heffects, hcursor⟩ := EventPipeline.poll_of_committed hcommits
  by_cases hmoves : page.Moves t.indexer.cursor
  · obtain ⟨hrow, hnext, -⟩ := hcursor hmoves
    have hrequest : after.request = .cursor page.nextCursor :=
      request_of_some hnext hpage.cursor
    have hsplit : log.take (position after.request) =
        log.take (position t.request) ++ page.events := by
      rw [hrequest, hpage.take]
    refine ⟨⟨?_, ?_, ?_⟩, hrequest, ⟨?_, ?_, ?_⟩⟩
    · rw [hnext, hrow]
      rfl
    · rw [hnext]
      simpa using hpage.cursor
    · rw [hnext]
      simp
    · rw [hrequest]
      exact hpage.known
    · rw [hsplit]
      simpa [or_imp, forall_and] using ⟨h.parsed, hparse⟩
    · rw [hsplit, List.map_append, runAll_append, h.ingested, ← heffects]
      refine Prod.ext ?_ rfl
      rw [Tx.eq_of_open hopen, ← htables]
  · have hevents := events_of_not_moves hpage hmoves
    have hidle : polled = ⟨t.indexer, true, []⟩ := by
      simp [polled, EventPipeline.poll, EventPipeline.handleEvents, hevents, hmoves]
    have hsame : after = t := by simp [after, hidle]
    rw [hsame]
    have hnext : t.indexer.cursor = some page.nextCursor := by
      by_contra hne
      exact hmoves ⟨hpage.cursor, hne⟩
    exact ⟨hstep, request_of_some hnext hpage.cursor, h⟩

/-- What holds between two rounds. -/
def Ingesting (ix : EventPipeline Q R W) (E : Engine D Q R W) (deployed : ℕ) (tables : D)
    (log : List RawEvent) (position : EventsRequest → ℕ) (t : IndexerTrace D W) : Prop :=
  InStep deployed t ∧ IngestedUpTo ix E tables log (position t.request) t

theorem ingesting_start (hstart : position (.startLedger deployed) = 0) :
    Ingesting ix E deployed tables log position (start tables deployed) := by
  have hrequest : position (start tables deployed : IndexerTrace D W).request = 0 := hstart
  refine ⟨⟨rfl, by simp [start], fun _ => rfl⟩, ⟨?_, ?_, ?_⟩⟩
  · omega
  · simp [hrequest]
  · rw [hrequest]
    rfl

/-- The cases of a step: a page was committed, or the next request stays as it is. -/
theorem ingesting_step (op : IndexerOp) (h : Ingesting ix E deployed tables log position t)
    (hserves : Serves log position t op) :
    Ingesting ix E deployed tables log position (step ix E unixSeconds deployed t op) ∧
      position t.request ≤ position (step ix E unixSeconds deployed t op).request := by
  obtain ⟨hstep, hupto⟩ := h
  cases op with
  | restart =>
      obtain ⟨hresumed, hrequest⟩ := hstep.request_resume
      refine ⟨⟨hresumed, ?_⟩, hrequest.symm ▸ le_rfl⟩
      rw [step, hrequest]
      have htables : (t.indexer.resume deployed).tables = t.indexer.tables := by
        unfold IndexerState.resume
        split <;> [split_ifs <;> rfl; rfl]
      exact ⟨hupto.known, hupto.parsed, by rw [hupto.ingested, htables]⟩
  | poll now getEvents =>
      cases hfetch : fetchEvents getEvents with
      | error err =>
          simp only [step, hfetch]
          exact ⟨⟨hstep, hupto⟩, le_rfl⟩
      | ok page =>
          simp only [step, hfetch]
          obtain ⟨attempt, hanswer⟩ := exists_answer hfetch
          have hpage := hserves attempt page hanswer
          cases hcommits : (ix.poll E unixSeconds now t.indexer page).committed with
          | false =>
              rw [EventPipeline.poll_of_not_committed hcommits,
                effects_of_not_committed hcommits, List.append_nil]
              exact ⟨⟨hstep, hupto⟩, le_rfl⟩
          | true =>
              obtain ⟨hstep', hrequest, hupto'⟩ := poll_commits hstep hupto hpage hcommits
              exact ⟨⟨hstep', hupto'⟩, hrequest ▸ hpage.forward⟩

/-- While no event of the chain throws or does harm, every page that is fetched commits. -/
theorem request_of_harmless {now : ℕ} {getEvents : ℕ → Except String Page} {page : Page}
    (h : Ingesting ix E deployed tables log position t)
    (hserves : Serves log position t (.poll now getEvents))
    (hfetch : fetchEvents getEvents = .ok page)
    (hparse : ∀ raw ∈ log, ∃ script, ix.eventScript raw = .ok script)
    (hharmless : AllHarmless E tables (log.map ix.isolatedScript)) :
    (step ix E unixSeconds deployed t (.poll now getEvents)).request =
      .cursor page.nextCursor := by
  obtain ⟨hstep, hupto⟩ := h
  obtain ⟨attempt, hanswer⟩ := exists_answer hfetch
  have hpage := hserves attempt page hanswer
  have hlog : log = log.take (position t.request) ++ page.events ++
      log.drop (position (.cursor page.nextCursor)) := by
    rw [← hpage.take, List.take_append_drop]
  rw [hlog, List.map_append, List.map_append, allHarmless_append, allHarmless_append] at hharmless
  obtain ⟨⟨hpast, hnow⟩, -⟩ := hharmless
  have htables : (isolatedAll E tables
      ((log.take (position t.request)).map ix.isolatedScript)).1 = t.indexer.tables := by
    have hrun := hupto.ingested
    rw [runAll_of_allHarmless hpast] at hrun
    exact congrArg (fun r => r.1.db) hrun
  rw [htables] at hnow
  have hevents : ∀ raw ∈ page.events, ∃ script, ix.eventScript raw = .ok script := by
    intro raw hraw
    refine hparse raw ?_
    rw [hlog]
    simp [hraw]
  have hcommits : (ix.poll E unixSeconds now t.indexer page).committed = true :=
    EventPipeline.poll_committed.mpr ⟨hevents, by rw [runAll_of_allHarmless hnow]⟩
  simp only [step, hfetch]
  exact (poll_commits hstep hupto hpage hcommits).2.1

end Invariant

section Runs

variable {ix : EventPipeline Q R W} {E : Engine D Q R W} {unixSeconds : String → String}
  {deployed : ℕ} {tables : D} {log : List RawEvent} {position : EventsRequest → ℕ}
  {ops : List IndexerOp}

theorem ingesting_run {t : IndexerTrace D W} (h : Ingesting ix E deployed tables log position t)
    (hserves : Along (step ix E unixSeconds deployed) (Serves log position) t ops) :
    Ingesting ix E deployed tables log position (run (step ix E unixSeconds deployed) t ops) ∧
      position t.request ≤ position (run (step ix E unixSeconds deployed) t ops).request := by
  induction ops generalizing t with
  | nil => exact ⟨h, le_rfl⟩
  | cons op ops ih =>
      obtain ⟨hnext, hle⟩ := ingesting_step op h hserves.1
      obtain ⟨hrun, hle'⟩ := ih hnext hserves.2
      exact ⟨hrun, hle.trans hle'⟩

/-- Whatever the node answers, whichever pages fail and whenever the process is restarted:
the tables hold the effects of the chain's events up to the cursor, each of them once and in
order; no event is asked for again once it is in; and while no event of the chain does
harm, what has been fetched is in. -/
theorem ingested_exactly_once (hstart : position (.startLedger deployed) = 0)
    (hserves : Along (step ix E unixSeconds deployed) (Serves log position)
      (start tables deployed) ops) :
    let after := run (step ix E unixSeconds deployed) (start tables deployed)
    IngestedUpTo ix E tables log (position (after ops).request) (after ops) ∧
      (∀ earlier later, ops = earlier ++ later →
        position (after earlier).request ≤ position (after ops).request) ∧
      ((∀ raw ∈ log, ∃ script, ix.eventScript raw = .ok script) →
        AllHarmless E tables (log.map ix.isolatedScript) →
          ∀ earlier now getEvents later page, ops = earlier ++ .poll now getEvents :: later →
            fetchEvents getEvents = .ok page →
              position (.cursor page.nextCursor) ≤ position (after ops).request) := by
  intro after
  have hinit : Ingesting ix E deployed tables log position (start tables deployed) :=
    ingesting_start hstart
  refine ⟨(ingesting_run hinit hserves).1.2, ?_, ?_⟩
  · rintro earlier later rfl
    obtain ⟨hbefore, hafter⟩ := along_append.mp hserves
    have hle := (ingesting_run (ingesting_run hinit hbefore).1 hafter).2
    rwa [← run_append] at hle
  · rintro hparse hharmless earlier now getEvents later page rfl hfetch
    obtain ⟨hbefore, hround, hafter⟩ := along_append.mp hserves
    have hmid := (ingesting_run hinit hbefore).1
    have hle := (ingesting_run (ingesting_step _ hmid hround).1 hafter).2
    rw [request_of_harmless hmid hround hfetch hparse hharmless] at hle
    rwa [← run_cons (step ix E unixSeconds deployed), ← run_append] at hle

end Runs

end IndexerTrace

/-! ## A rate limit and a restart between two pages -/

section TwoPages

def chainEvents : List RawEvent := [priceEvent ["AAAADwAAAANCVEMA"], priceEvent ["AAAADwAAAANCVEMA"]]

/-- One event lies before the first cursor handed out, both before the second. -/
def chainPosition : EventsRequest → ℕ
  | .startLedger _ => 0
  | .cursor cursor => if cursor = "21474836480-1" then 1 else 2

def twoPages : List IndexerOp :=
  [.poll 0 fun attempt => if attempt = 0 then .error "Request failed with status code 429"
      else .ok ⟨chainEvents.take 1, 6, "21474836480-1"⟩,
    .restart,
    .poll 0 fun _ => .ok ⟨chainEvents.drop 1, 7, "21474836480-2"⟩]

/-- The indexer of the oracle router's events, after some rounds. -/
def routerIndexer (ops : List IndexerOp) : IndexerTrace (List OracleInsert) OracleInsert :=
  run (IndexerTrace.step routerPipeline (oracleTables fun _ => true) (fun _ => "1767225600") 1)
    (IndexerTrace.start [] 1) ops

theorem serves_twoPages :
    Along (IndexerTrace.step routerPipeline (oracleTables fun _ => true) (fun _ => "1767225600") 1)
      (IndexerTrace.Serves chainEvents chainPosition) (IndexerTrace.start [] 1) twoPages := by
  have hrequest : (routerIndexer (twoPages.take 2)).request = .cursor "21474836480-1" := by
    decide +kernel
  refine ⟨?_, trivial, ?_, trivial⟩
  · intro attempt page hanswer
    simp only at hanswer
    split_ifs at hanswer
    cases hanswer
    exact ⟨by decide, by decide, by decide, rfl⟩
  · intro attempt page hanswer
    cases hanswer
    change Page.Answers _ _ (routerIndexer (twoPages.take 2)).request _
    rw [hrequest]
    exact ⟨by decide, by decide, by decide, rfl⟩

/-- After the rate limit, the restart and the second page, the two prices are in, once each. -/
theorem ingested_exactly_once_twoPages :
    IndexerTrace.IngestedUpTo routerPipeline (oracleTables fun _ => true) [] chainEvents
      (chainPosition (routerIndexer twoPages).request) (routerIndexer twoPages) :=
  (IndexerTrace.ingested_exactly_once rfl serves_twoPages).1

end TwoPages

end Stellars
