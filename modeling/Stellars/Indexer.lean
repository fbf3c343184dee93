import Stellars.MirrorDatabase
import Stellars.Publishing

/-!
# The indexer

Each handler writes one event into the tables. An upsert starts from a row of
defaults when there is none; an update without a row does nothing. Open interests
and average prices are never published: they are recomputed from the position rows.
-/
namespace Stellars
open EventLogs KeyedTotals

/-- The database's numeric type rounds a quotient at a scale of its own, half away
from zero. -/
structure Numeric where
  scale : ℤ → ℤ → ℕ

/-- `TRUNC` of the quotient by a positive divisor. -/
def Numeric.truncDiv (num : Numeric) (a b : ℤ) : ℤ :=
  let unit : ℤ := 10 ^ num.scale a b
  a.sign * ((2 * unit * |a| + b) / (2 * b) / unit)

namespace Db

variable {A S : Type}

def empty : Db A S := ⟨∅, ∅, none, none⟩

def vaultRow (db : Db A S) : VaultStateRow := db.vaultState.getD {}

/-! ## The vault's handlers -/

def recomputeFreeLiquidity (db : Db A S) : Db A S :=
  { db with
    vaultState := db.vaultState.map fun s =>
      let pnlFloor := if s.netGlobalTraderPnl > 0 then s.netGlobalTraderPnl else 0
      let raw := s.totalAssets - s.reservedUsdc - s.unclaimedFees - pnlFloor
      { s with freeLiquidity := if raw > 0 then raw else 0 } }

def upsertVaultState (db : Db A S) (f : VaultStateRow → VaultStateRow) : Db A S :=
  recomputeFreeLiquidity { db with vaultState := some (f db.vaultRow) }

def updateVaultState (db : Db A S) (f : VaultStateRow → VaultStateRow) : Db A S :=
  recomputeFreeLiquidity { db with vaultState := db.vaultState.map f }

def handleDeposit (db : Db A S) (shares : ℤ) : Db A S :=
  db.upsertVaultState fun s => { s with totalShares := s.totalShares + shares }

def handleWithdraw (db : Db A S) (shares : ℤ) : Db A S :=
  db.updateVaultState fun s => { s with totalShares := s.totalShares - shares }

def handleAbsorbedCollateral (db : Db A S) (newTotalAssets : ℤ) : Db A S :=
  db.upsertVaultState fun s => { s with totalAssets := newTotalAssets }

def handlePayProfit (db : Db A S) (newTotalAssets : ℤ) : Db A S :=
  db.updateVaultState fun s => { s with totalAssets := newTotalAssets }

def handleTotalAssetsUpdate (db : Db A S) (newTotalAssets : ℤ) : Db A S :=
  db.upsertVaultState fun s => { s with totalAssets := newTotalAssets }

def handleReserve (db : Db A S) (newTotal : ℤ) : Db A S :=
  db.upsertVaultState fun s => { s with reservedUsdc := newTotal }

def handleRelease (db : Db A S) (newTotal : ℤ) : Db A S :=
  db.updateVaultState fun s => { s with reservedUsdc := newTotal }

def handleAccrueFees (db : Db A S) (newTotal : ℤ) : Db A S :=
  db.upsertVaultState fun s => { s with unclaimedFees := newTotal }

/-- The only handlers that subtract instead of writing an absolute total. -/
def handleClaimFees (db : Db A S) (amount : ℤ) : Db A S :=
  db.updateVaultState fun s =>
    { s with unclaimedFees := 0, totalAssets := s.totalAssets - amount }

def handleClaimFeesTo (db : Db A S) (amount newTotal : ℤ) : Db A S :=
  db.updateVaultState fun s =>
    { s with unclaimedFees := newTotal, totalAssets := s.totalAssets - amount }

def handleNetPnl (db : Db A S) (pnl : ℤ) : Db A S :=
  db.upsertVaultState fun s => { s with netGlobalTraderPnl := pnl }

/-- Free liquidity does not depend on the pause. -/
def handleVaultPause (db : Db A S) (isPaused : Bool) : Db A S :=
  { db with vaultState := some { db.vaultRow with isPaused := isPaused } }

/-! ## The position manager's handlers -/

variable [DecidableEq S]

def marketRow (db : Db A S) (symbol : S) : MarketRow := (db.markets.lookup symbol).getD {}

def upsertMarket (db : Db A S) (symbol : S) (f : MarketRow → MarketRow) : Db A S :=
  { db with markets := db.markets.insert symbol (f (db.marketRow symbol)) }

/-- The sum over the position rows of one side of a market. -/
def sideSum (db : Db A S) (symbol : S) (isLong : Bool) (f : PositionRow → ℤ) : ℤ :=
  total (fun key row => if key.2 = symbol ∧ row.isLong = isLong then f row else 0) db.positions

def sideAvg (num : Numeric) (db : Db A S) (symbol : S) (isLong : Bool) : ℤ :=
  let oi := db.sideSum symbol isLong (·.size)
  if oi > 0 then num.truncDiv (db.sideSum symbol isLong fun row => row.size * row.entryPrice) oi
  else 0

def refreshMarketAggregates (num : Numeric) (db : Db A S) (symbol : S) : Db A S :=
  db.upsertMarket symbol fun row =>
    { row with
      longOpenInterest := db.sideSum symbol true (·.size)
      shortOpenInterest := db.sideSum symbol false (·.size)
      globalLongAvgPrice := db.sideAvg num symbol true
      globalShortAvgPrice := db.sideAvg num symbol false }

def handleIndices (db : Db A S) (symbol : S) (accBorrowIndex accFundingIndex : ℤ)
    (timestamp : ℕ) : Db A S :=
  db.upsertMarket symbol fun row =>
    { row with
      accBorrowIndex := accBorrowIndex
      accFundingIndex := accFundingIndex
      lastIndexUpdate := timestamp }

def handleMaxLeverage (db : Db A S) (symbol : S) (maxLeverage : ℤ) : Db A S :=
  db.upsertMarket symbol fun row => { row with maxLeverage := maxLeverage }

def handleMarketPnl (db : Db A S) (symbol : S) (unrealizedPnl : ℤ) : Db A S :=
  db.upsertMarket symbol fun row => { row with marketUnrealizedPnl := unrealizedPnl }

/-- Only the end of a pause is mirrored. -/
def handlePause (closeTime : ℕ) (db : Db A S) (isPaused : Bool) : Db A S :=
  if isPaused then db
  else { db with
    protocolConfig := some { db.protocolConfig.getD {} with lastUnpauseTime := closeTime } }

variable [DecidableEq A]

/-- A row that exists keeps the ledger's close time instead of the published one. -/
def handleIncrease (num : Numeric) (closeTime : ℕ) (db : Db A S) (trader : A) (symbol : S)
    (row : PositionRow) : Db A S :=
  let row := match db.positions.lookup (trader, symbol) with
    | some _ => { row with lastIncreasedTime := closeTime }
    | none => row
  refreshMarketAggregates num
    { db with positions := db.positions.insert (trader, symbol) row } symbol

def updatePosition (db : Db A S) (trader : A) (symbol : S) (f : PositionRow → PositionRow) :
    Db A S :=
  match db.positions.lookup (trader, symbol) with
  | some row => { db with positions := db.positions.insert (trader, symbol) (f row) }
  | none => db

def deletePosition (db : Db A S) (trader : A) (symbol : S) : Db A S :=
  { db with positions := db.positions.erase (trader, symbol) }

def handleDecrease (num : Numeric) (db : Db A S) (trader : A) (symbol : S) (isFullClose : Bool)
    (newTotalSize newTotalCollateral : ℤ) : Db A S :=
  let db' := if isFullClose then db.deletePosition trader symbol
    else db.updatePosition trader symbol fun row =>
      { row with size := newTotalSize, collateral := newTotalCollateral }
  refreshMarketAggregates num db' symbol

def handleLiquidation (num : Numeric) (db : Db A S) (trader : A) (symbol : S) : Db A S :=
  refreshMarketAggregates num (db.deletePosition trader symbol) symbol

def handleExecuteOrder (num : Numeric) (db : Db A S) (trader : A) (symbol : S) : Db A S :=
  refreshMarketAggregates num (db.deletePosition trader symbol) symbol

def handleAdl (num : Numeric) (db : Db A S) (trader : A) (symbol : S) : Db A S :=
  refreshMarketAggregates num (db.deletePosition trader symbol) symbol

def handleTpSl (db : Db A S) (trader : A) (symbol : S) (takeProfit stopLoss : ℤ) : Db A S :=
  db.updatePosition trader symbol fun row =>
    { row with takeProfit := takeProfit, stopLoss := stopLoss }

/-- `handleVaultEvent` and `handlePositionManagerEvent`. -/
def handle (num : Numeric) (db : Db A S) : ℕ × Event A S → Db A S
  | (_, .deposit shares) => db.handleDeposit shares
  | (_, .withdraw shares) => db.handleWithdraw shares
  | (_, .payProfit newTotalAssets) => db.handlePayProfit newTotalAssets
  | (_, .absorbed newTotalAssets) => db.handleAbsorbedCollateral newTotalAssets
  | (_, .total newTotalAssets) => db.handleTotalAssetsUpdate newTotalAssets
  | (_, .reserve newTotal) => db.handleReserve newTotal
  | (_, .release newTotal) => db.handleRelease newTotal
  | (_, .fees newTotal) => db.handleAccrueFees newTotal
  | (_, .claim amount) => db.handleClaimFees amount
  | (_, .claimTo amount newTotal) => db.handleClaimFeesTo amount newTotal
  | (_, .netPnl pnl) => db.handleNetPnl pnl
  | (_, .vaultPause isPaused) => db.handleVaultPause isPaused
  | (closeTime, .increase trader symbol entryPrice isLong tp sl newTotalSize newTotalCollateral
      entryBorrowIndex entryFundingIndex lastIncreasedTime) =>
      handleIncrease num closeTime db trader symbol
        { collateral := newTotalCollateral
          size := newTotalSize
          entryPrice := entryPrice
          entryBorrowIndex := entryBorrowIndex
          entryFundingIndex := entryFundingIndex
          isLong := isLong
          lastIncreasedTime := lastIncreasedTime
          takeProfit := tp
          stopLoss := sl }
  | (_, .decrease trader symbol isFullClose newTotalSize newTotalCollateral) =>
      handleDecrease num db trader symbol isFullClose newTotalSize newTotalCollateral
  | (_, .liq trader symbol) => handleLiquidation num db trader symbol
  | (_, .execOrd trader symbol) => handleExecuteOrder num db trader symbol
  | (_, .adl trader symbol) => handleAdl num db trader symbol
  | (_, .indices symbol accBorrowIndex accFundingIndex timestamp) =>
      db.handleIndices symbol accBorrowIndex accFundingIndex timestamp
  | (_, .tpSl trader symbol takeProfit stopLoss) =>
      db.handleTpSl trader symbol takeProfit stopLoss
  | (_, .maxLev symbol maxLeverage) => db.handleMaxLeverage symbol maxLeverage
  | (_, .mktPnl symbol unrealizedPnl) => db.handleMarketPnl symbol unrealizedPnl
  | (closeTime, .pause isPaused) => handlePause closeTime db isPaused

/-! ## Reading a log -/

/-- The events of one ledger, read in order. -/
def readAt (num : Numeric) (closeTime : ℕ) (db : Db A S) (log : List (Event A S)) : Db A S :=
  replay (handle num) db (log.map (closeTime, ·))

section Reading

variable (num : Numeric) (t : ℕ) (db : Db A S)

@[simp] theorem readAt_nil : readAt num t db [] = db := rfl

@[simp] theorem readAt_cons (e : Event A S) (log : List (Event A S)) :
    readAt num t db (e :: log) = readAt num t (handle num db (t, e)) log := rfl

@[simp] theorem readAt_append (first rest : List (Event A S)) :
    readAt num t db (first ++ rest) = readAt num t (readAt num t db first) rest := by
  simp [readAt]

omit [DecidableEq A] in
@[simp] theorem marketRow_upsertMarket (symbol other : S) (f : MarketRow → MarketRow) :
    (db.upsertMarket symbol f).marketRow other =
      if other = symbol then f (db.marketRow symbol) else db.marketRow other := by
  by_cases h : other = symbol
  · subst h
    simp [marketRow, upsertMarket]
  · simp [marketRow, upsertMarket, h]

omit [DecidableEq A] in
theorem marketRow_congr {db db' : Db A S} (h : db'.markets = db.markets) (symbol : S) :
    db'.marketRow symbol = db.marketRow symbol := by rw [marketRow, h, marketRow]

omit [DecidableEq A] in
theorem markets_upsertMarket_congr {db db' : Db A S} (h : db'.markets = db.markets) (symbol : S)
    (f : MarketRow → MarketRow) :
    (db'.upsertMarket symbol f).markets = (db.upsertMarket symbol f).markets := by
  simp only [upsertMarket, h, marketRow_congr h]

omit [DecidableEq A] [DecidableEq S] in
theorem vaultState_isSome {db : Db A S} (h : db.vaultRow ≠ {}) : db.vaultState.isSome := by
  cases hrow : db.vaultState with
  | some row => rfl
  | none => exact absurd (by rw [vaultRow, hrow]; rfl) h

omit [DecidableEq A] [DecidableEq S] in
/-- An update writes its row when there is one. -/
theorem updateVaultState_eq_upsert (f : VaultStateRow → VaultStateRow)
    (h : db.vaultState.isSome) : db.updateVaultState f = db.upsertVaultState f := by
  obtain ⟨row, hrow⟩ := Option.isSome_iff_exists.mp h
  simp [updateVaultState, upsertVaultState, vaultRow, hrow]

end Reading

end Db

end Stellars
