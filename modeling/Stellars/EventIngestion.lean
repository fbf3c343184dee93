import Stellars.GuardedRuns
import Stellars.SqlTransactions

/-!
# Pages of events

The indexer handles a page of events in one transaction, which then moves the cursor
past the page. What a handler throws is caught and logged, but a statement that failed
has aborted the transaction by then, what the handler wrote before stays written, and
what the parser throws is not caught inside the transaction at all.
-/
namespace Stellars
open GuardedRuns SqlTransactions

/-! ## Parsing -/

/-- What `scValToNative` returns. -/
inductive Native
  | null
  | bigint (n : ℤ)
  | number (n : ℤ)
  | string (s : String)
  | boolean (b : Bool)
  | bytes (b : List UInt8)
  | address (s : String)
  | array (items : List Native)
  | object (fields : List (String × Native))

def Native.normalize : Native → Native
  | .address s => .string s
  | val => val

structure RawEvent where
  contractId : String
  topic : List String
  value : String
  ledger : ℕ
  txHash : String
  ledgerClosedAt : String

structure EventFieldSpec where
  topicFields : List String
  dataFields : List String

structure ParsedEvent where
  contractId : String
  topic0 : String
  data : List (String × Native)
  ledger : ℕ
  txHash : String
  timestamp : String

/-- A parameter of the event; a later assignment of its name replaces an earlier one. -/
def ParsedEvent.field (event : ParsedEvent) (name : String) : Option Native :=
  event.data.reverse.lookup name

/-- What the indexer is started with: the XDR decoder with `scValToNative`, the events of
each contract by the name in their first topic, and the handler of each contract. -/
structure EventPipeline (Q R W : Type) where
  fromXDR : String → Except String Native
  specMaps : String → String → Option EventFieldSpec
  routes : String → Option (ParsedEvent → Script Q R W)

/-- Data come as a vector, as a map or as one value. -/
def decodeData (dataFields : List String) : Native → List (String × Native)
  | .array items => dataFields.zip (items.map Native.normalize)
  | .object fields =>
      dataFields.filterMap fun name => (fields.lookup name).map fun val => (name, val.normalize)
  | .address _ => []
  | .bytes _ => []
  | decodedValue =>
      match dataFields with
      | [name] => [(name, decodedValue.normalize)]
      | _ => []

namespace EventPipeline

variable {D Q R W : Type} (ix : EventPipeline Q R W)

def decodeScVal (b64 : String) : Except String Native :=
  (ix.fromXDR b64).map Native.normalize

/-- Topics that are missing at the end leave their parameters out. -/
def decodeTopics : List String → List String → Except String (List (String × Native))
  | name :: names, b64 :: rest => do
      let val ← ix.decodeScVal b64
      let vals ← decodeTopics names rest
      return (name, val) :: vals
  | _, _ => return []

/-- None for an event the contract's spec does not name. -/
def parseEvent (raw : RawEvent) : Except String (Option ParsedEvent) :=
  match raw.topic with
  | [] => .error ("[spec-parser] event has no topics: contract=" ++ raw.contractId)
  | first :: rest => do
      let topic0 ← ix.decodeScVal first
      match topic0 with
      | .string name =>
          match ix.specMaps raw.contractId name with
          | none => return none
          | some eventSpec => do
              let params ← ix.decodeTopics eventSpec.topicFields rest
              let decodedValue ← ix.fromXDR raw.value
              return some
                { contractId := raw.contractId
                  topic0 := name
                  data := params ++ decodeData eventSpec.dataFields decodedValue
                  ledger := raw.ledger
                  txHash := raw.txHash
                  timestamp := raw.ledgerClosedAt }
      | _ => return none

/-- An event without a route or without a spec is skipped. -/
def eventScript (raw : RawEvent) : Except String (Script Q R W) :=
  match ix.routes raw.contractId with
  | none => .ok .done
  | some handler => do
      match ← ix.parseEvent raw with
      | none => return .done
      | some parsed => return handler parsed

/-! ## The transaction of a page -/

/-- The loop over the page's events, with what each of them wrote. Only the handler's call
is inside the `try`. -/
def handleEvents (E : Engine D Q R W) (tx : Tx D) :
    List RawEvent → Except String (Tx D × List (List W))
  | [] => .ok (tx, [])
  | raw :: rest => do
      let script ← ix.eventScript raw
      let ran := script.run E tx
      let after ← handleEvents E ran.tx rest
      return (after.1, ran.writes :: after.2)

end EventPipeline

/-- What `fetchEvents` returns. -/
structure Page where
  events : List RawEvent
  latestLedger : ℕ
  nextCursor : String

/-- The row of `indexer_cursor`. -/
structure CursorRow where
  lastLedger : ℕ
  lastCursor : String
  lastLedgerCloseTime : String
  deriving DecidableEq

/-- The database, and the loop's own copy of where it has got to. -/
structure IndexerState (D : Type) where
  tables : D
  cursorRow : Option CursorRow
  cursor : Option String
  startLedger : ℕ

def Page.Moves (page : Page) (cursor : Option String) : Prop :=
  page.nextCursor ≠ "" ∧ cursor ≠ some page.nextCursor

instance (page : Page) (cursor : Option String) : Decidable (page.Moves cursor) :=
  inferInstanceAs (Decidable (_ ∧ _))

/-- A page without events takes the close time from the clock. -/
def Page.cursorRow (page : Page) (unixSeconds : String → String) (now : ℕ) : CursorRow where
  lastLedger := page.latestLedger
  lastCursor := page.nextCursor
  lastLedgerCloseTime :=
    match page.events.getLast? with
    | some lastEvent => unixSeconds lastEvent.ledgerClosedAt
    | none => toString now

/-- What one round of the event loop leaves, whether the page's transaction committed, and
what each event wrote in it. -/
structure Polled (D W : Type) where
  state : IndexerState D
  committed : Bool
  effects : List (List W)

namespace EventPipeline

variable {D Q R W : Type} (ix : EventPipeline Q R W) (E : Engine D Q R W)
  (unixSeconds : String → String)

/-- One round of `eventLoop` with the page it fetched. The cursor's upsert fails in an
aborted transaction, and committing an aborted transaction rolls it back. -/
def poll (now : ℕ) (s : IndexerState D) (page : Page) : Polled D W :=
  match ix.handleEvents E ⟨s.tables, false⟩ page.events with
  | .error _ => ⟨s, false, []⟩
  | .ok (tx, effects) =>
      if tx.aborted then ⟨s, false, []⟩
      else if page.Moves s.cursor then
        ⟨{ tables := tx.db
           cursorRow := some (page.cursorRow unixSeconds now)
           cursor := some page.nextCursor
           startLedger := page.latestLedger }, true, effects⟩
      else ⟨{ s with tables := tx.db }, true, effects⟩

/-- A parser that throws has the same effects as a handler that throws at once. -/
def isolatedScript (raw : RawEvent) : Script Q R W :=
  match ix.eventScript raw with
  | .error _ => .throw
  | .ok script => script

/-- The page's transaction commits with the effects of the events that do not throw, in
their order, and with the cursor moved past the page. -/
structure Ingested (now : ℕ) (s : IndexerState D) (page : Page) : Prop where
  commits : (ix.poll E unixSeconds now s page).committed = true
  tables : (ix.poll E unixSeconds now s page).state.tables =
    (isolatedAll E s.tables (page.events.map ix.isolatedScript)).1
  effects : (ix.poll E unixSeconds now s page).effects =
    (isolatedAll E s.tables (page.events.map ix.isolatedScript)).2
  cursor : page.Moves s.cursor →
    (ix.poll E unixSeconds now s page).state.cursorRow =
        some (page.cursorRow unixSeconds now) ∧
      (ix.poll E unixSeconds now s page).state.cursor = some page.nextCursor ∧
      (ix.poll E unixSeconds now s page).state.startLedger = page.latestLedger

end EventPipeline

namespace EventPipeline

section Pages

variable {D Q R W : Type} {ix : EventPipeline Q R W} {E : Engine D Q R W}
  {unixSeconds : String → String}

/-- The loop reaches the page's end exactly when every event parses, and then it has run
all their handlers in one transaction. -/
theorem handleEvents_eq_ok {tx : Tx D} {events : List RawEvent} {r : Tx D × List (List W)} :
    ix.handleEvents E tx events = .ok r ↔
      (∀ raw ∈ events, ∃ script, ix.eventScript raw = .ok script) ∧
        r = runAll E tx (events.map ix.isolatedScript) := by
  induction events generalizing tx r with
  | nil => simp [handleEvents, runAll, eq_comm]
  | cons raw rest ih =>
      simp only [handleEvents, bind_eq_ok, List.forall_mem_cons, List.map_cons, runAll]
      constructor
      · rintro ⟨script, hscript, after, hafter, hr⟩
        obtain ⟨hparse, rfl⟩ := ih.mp hafter
        refine ⟨⟨⟨script, hscript⟩, hparse⟩, ?_⟩
        simp only [isolatedScript, hscript]
        exact (Except.ok.inj hr).symm
      · rintro ⟨⟨⟨script, hscript⟩, hparse⟩, rfl⟩
        refine ⟨script, hscript, _, ih.mpr ⟨hparse, rfl⟩, ?_⟩
        simp only [isolatedScript, hscript]
        rfl

theorem handleEvents_of_parses {tx : Tx D} {events : List RawEvent}
    (hparse : ∀ raw ∈ events, ∃ script, ix.eventScript raw = .ok script) :
    ix.handleEvents E tx events = .ok (runAll E tx (events.map ix.isolatedScript)) :=
  handleEvents_eq_ok.mpr ⟨hparse, rfl⟩

/-- A round whose transaction does not commit changes nothing. -/
theorem poll_of_not_committed {now : ℕ} {s : IndexerState D} {page : Page}
    (h : (ix.poll E unixSeconds now s page).committed = false) :
    (ix.poll E unixSeconds now s page).state = s := by
  revert h
  unfold poll
  split
  · intro _
    rfl
  · split_ifs <;> simp

/-- When the transaction commits. -/
theorem poll_committed {now : ℕ} {s : IndexerState D} {page : Page} :
    (ix.poll E unixSeconds now s page).committed = true ↔
      (∀ raw ∈ page.events, ∃ script, ix.eventScript raw = .ok script) ∧
        (runAll E ⟨s.tables, false⟩ (page.events.map ix.isolatedScript)).1.aborted = false := by
  cases hr : ix.handleEvents E ⟨s.tables, false⟩ page.events with
  | error err =>
      simp only [poll, hr]
      constructor
      · intro h
        cases h
      · rintro ⟨hparse, -⟩
        rw [handleEvents_of_parses hparse] at hr
        cases hr
  | ok r =>
      obtain ⟨hparse, rfl⟩ := handleEvents_eq_ok.mp hr
      simp only [poll, hr]
      split_ifs with haborted hmoves
      · simp [haborted]
      · simpa [haborted] using hparse
      · simpa [haborted] using hparse

/-- What a round that commits leaves. -/
theorem poll_of_committed {now : ℕ} {s : IndexerState D} {page : Page}
    (h : (ix.poll E unixSeconds now s page).committed = true) :
    (ix.poll E unixSeconds now s page).state.tables =
        (runAll E ⟨s.tables, false⟩ (page.events.map ix.isolatedScript)).1.db ∧
      (ix.poll E unixSeconds now s page).effects =
        (runAll E ⟨s.tables, false⟩ (page.events.map ix.isolatedScript)).2 ∧
      (page.Moves s.cursor →
        (ix.poll E unixSeconds now s page).state.cursorRow =
            some (page.cursorRow unixSeconds now) ∧
          (ix.poll E unixSeconds now s page).state.cursor = some page.nextCursor ∧
          (ix.poll E unixSeconds now s page).state.startLedger = page.latestLedger) := by
  obtain ⟨hparse, hopen⟩ := poll_committed.mp h
  by_cases hmoves : page.Moves s.cursor
  · simp [poll, handleEvents_of_parses hparse, hopen, hmoves]
  · simp [poll, handleEvents_of_parses hparse, hopen, hmoves]

/-- A page is ingested exactly when no event's parser throws and every handler that throws
does so on its own, before it has written anything. -/
theorem ingested_iff (now : ℕ) (s : IndexerState D) (page : Page) :
    ix.Ingested E unixSeconds now s page ↔
      (∀ raw ∈ page.events, ∃ script, ix.eventScript raw = .ok script) ∧
        AllHarmless E s.tables (page.events.map ix.isolatedScript) := by
  constructor
  · intro h
    obtain ⟨hparse, hopen⟩ := poll_committed.mp h.commits
    refine ⟨hparse, runAll_isolates_iff.mp ⟨hopen, ?_⟩⟩
    rw [← (poll_of_committed h.commits).2.1, h.effects]
  · rintro ⟨hparse, hharmless⟩
    have hrun := runAll_of_allHarmless hharmless
    have hcommits : (ix.poll E unixSeconds now s page).committed = true :=
      poll_committed.mpr ⟨hparse, by rw [hrun]⟩
    obtain ⟨htables, heffects, hcursor⟩ := poll_of_committed hcommits
    rw [hrun] at htables heffects
    exact ⟨hcommits, htables, heffects, hcursor⟩

/-- After a round that does not commit, the event loop asks for the same page again and
never gets past it. -/
theorem run_poll_stuck {now : ℕ} {s : IndexerState D} {page : Page}
    (h : (ix.poll E unixSeconds now s page).committed = false) (clock : List ℕ) :
    run (fun s now => (ix.poll E unixSeconds now s page).state) s clock = s := by
  induction clock with
  | nil => rfl
  | cons later clock ih =>
      have hlater : (ix.poll E unixSeconds later s page).committed = false := by
        rw [← Bool.not_eq_true]
        intro hcommits
        rw [poll_committed.mpr (poll_committed.mp hcommits)] at h
        cases h
      rw [run_cons, poll_of_not_committed hlater, ih]

end Pages

end EventPipeline

/-! ## The oracle router's events -/

/-- A number as the numeric column takes it, or the value that is none. -/
def toNumericString : Option Native → Except (Option Native) String
  | some (.bigint n) => .ok (toString n)
  | some (.number n) => .ok (toString n)
  | some (.string s) => .ok s
  | val => .error val

/-- An insert into `oracle_prices` or into `oracle_config_events`; a field that is missing
is sent as the column's default. -/
inductive OracleInsert
  | price (ledger : ℕ) (timestamp : String) (symbol : Option Native) (price : String)
  | config (txHash : String) (ledger : ℕ) (timestamp staleness deviation cacheDuration : String)
      (minRequiredSources : Option Native)

abbrev OracleScript := Script Empty Empty OracleInsert

open Script in
def handlePrice (event : ParsedEvent) : OracleScript :=
  ofExcept (toNumericString (event.field "timestamp")) fun timestamp =>
    ofExcept (toNumericString (event.field "price")) fun price =>
      .write (.price event.ledger timestamp (event.field "symbol") price) .done

open Script in
def handleOracleConfig (unixSeconds : String → String) (event : ParsedEvent) : OracleScript :=
  ofExcept (toNumericString (event.field "staleness")) fun staleness =>
    ofExcept (toNumericString (event.field "deviation")) fun deviation =>
      ofExcept (toNumericString (event.field "cache_duration")) fun cacheDuration =>
        .write
          (.config event.txHash event.ledger (unixSeconds event.timestamp) staleness deviation
            cacheDuration (event.field "min_required_sources"))
          .done

/-- The rotation is only logged, with its sources joined; only an array has a `join`. -/
def handleOracleSources (event : ParsedEvent) : OracleScript :=
  match event.field "sources" with
  | some (.array _) => .done
  | _ => .throw

def handleOracleRouterEvent (unixSeconds : String → String) (event : ParsedEvent) :
    OracleScript :=
  match event.topic0 with
  | "price" => handlePrice event
  | "orccfg" => handleOracleConfig unixSeconds event
  | "orcsrc" => handleOracleSources event
  | _ => .done

/-- Neither column has a default, and neither takes a null. -/
def OracleInsert.notNull : OracleInsert → Bool
  | .price _ _ symbol _ => isPresent symbol
  | .config _ _ _ _ _ _ minRequiredSources => isPresent minRequiredSources
where
  isPresent : Option Native → Bool
    | none => false
    | some .null => false
    | some _ => true

/-- The two tables; `castable` are the rows whose values the column types take. -/
def oracleTables (castable : OracleInsert → Bool) :
    Engine (List OracleInsert) Empty Empty OracleInsert where
  query _ q := q.elim
  write rows row := if row.notNull && castable row then some (rows ++ [row]) else none

theorem oracleTables_write_isSome {castable : OracleInsert → Bool} {rows : List OracleInsert}
    {row : OracleInsert} :
    ((oracleTables castable).write rows row).isSome ↔ row.notNull = true ∧ castable row = true := by
  simp [oracleTables]

/-- A price event does harm exactly when its numbers are numbers and its row is refused. -/
theorem harmless_handlePrice_iff {castable : OracleInsert → Bool} {rows : List OracleInsert}
    {event : ParsedEvent} :
    (handlePrice event).Harmless (oracleTables castable) rows ↔
      ∀ timestamp, toNumericString (event.field "timestamp") = .ok timestamp →
        ∀ price, toNumericString (event.field "price") = .ok price →
          (OracleInsert.price event.ledger timestamp (event.field "symbol") price).notNull = true ∧
            castable (.price event.ledger timestamp (event.field "symbol") price) = true := by
  simp only [handlePrice, Script.harmless_ofExcept_iff, Script.harmless_write_done_iff,
    oracleTables_write_isSome]

/-- A rotation of the sources never does harm: it sends no statement. -/
theorem harmless_handleOracleSources {castable : OracleInsert → Bool}
    {rows : List OracleInsert} {event : ParsedEvent} :
    (handleOracleSources event).Harmless (oracleTables castable) rows := by
  unfold handleOracleSources
  split
  · intro h
    cases h
  · exact Script.harmless_throw rows

/-! ## A page that is never ingested -/

/-- The router's pipeline, with a decoder that knows three values. -/
def routerPipeline : EventPipeline Empty Empty OracleInsert where
  fromXDR b64 :=
    if b64 = "AAAADwAAAAVwcmljZQAAAA==" then .ok (.string "price")
    else if b64 = "AAAADwAAAANCVEMA" then .ok (.string "BTC")
    else if b64 = "AAAAEAAAAAEAAAACAAAACgAAAAAAAAAAAAAAAAAAAGQAAAAFAAAAAAAAAAc=" then
      .ok (.array [.bigint 100, .bigint 7])
    else .error "XDR Read Error"
  specMaps contractId name :=
    if contractId = "router" ∧ name = "price" then some ⟨["symbol"], ["price", "timestamp"]⟩
    else none
  routes contractId :=
    if contractId = "router" then some (handleOracleRouterEvent fun _ => "1767225600") else none

def priceEvent (topics : List String) : RawEvent where
  contractId := "router"
  topic := "AAAADwAAAAVwcmljZQAAAA==" :: topics
  value := "AAAAEAAAAAEAAAACAAAACgAAAAAAAAAAAAAAAAAAAGQAAAAFAAAAAAAAAAc="
  ledger := 5
  txHash := "00"
  ledgerClosedAt := "2026-01-01T00:00:00Z"

/-- The second event carries no symbol: its insert fails, and the first event and the
cursor are lost with it. -/
theorem bad_event_halts_ingestion :
    ¬ routerPipeline.Ingested (oracleTables fun _ => true) (fun _ => "1767225600") 0
      ⟨[], none, none, 1⟩ ⟨[priceEvent ["AAAADwAAAANCVEMA"], priceEvent []], 6, "21474836480-1"⟩ := by
  intro h
  have hcommits := h.commits
  revert hcommits
  decide +kernel

end Stellars
