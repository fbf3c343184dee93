import Stellars.Books
import Stellars.Indexer

/-!
# The tables of positions and markets

A position row is written from its event field by field. The open interest and the
average price of a market's side are recomputed from the rows whenever one of them
changes, so they are functions of the positions alone.
-/
namespace Stellars
open KeyedTotals EventLogs Db

/-- The columns that an accrual writes. -/
def MarketRow.indices (row : MarketRow) : ℤ × ℤ × ℤ :=
  (row.accBorrowIndex, row.accFundingIndex, row.lastIndexUpdate)

def MarketInfo.indices (m : MarketInfo) : ℤ × ℤ × ℤ :=
  (m.accBorrowIndex, m.accFundingIndex, m.lastIndexUpdate)

def MarketRow.openInterest (row : MarketRow) (isLong : Bool) : ℤ :=
  if isLong then row.longOpenInterest else row.shortOpenInterest

def MarketRow.avgPrice (row : MarketRow) (isLong : Bool) : ℤ :=
  if isLong then row.globalLongAvgPrice else row.globalShortAvgPrice

section Rows

variable {A S : Type} [DecidableEq A] [DecidableEq S]

/-- The rows of exactly these positions. -/
def RowsOf (rows : Table (A × S) PositionRow) (positions : Table (A × S) Position) : Prop :=
  ∀ key, rows.lookup key = (positions.lookup key).map Position.row

variable {rows : Table (A × S) PositionRow} {positions positions' : Table (A × S) Position}

theorem RowsOf.insert (h : RowsOf rows positions) (key : A × S) (pos : Position) :
    RowsOf (rows.insert key pos.row) (positions.insert key pos) := by
  intro other
  by_cases hk : other = key
  · rw [hk, AList.lookup_insert, AList.lookup_insert]
    rfl
  · rw [AList.lookup_insert_ne hk, AList.lookup_insert_ne hk, h]

theorem RowsOf.erase (h : RowsOf rows positions) (key : A × S) :
    RowsOf (rows.erase key) (positions.erase key) := by
  intro other
  by_cases hk : other = key
  · rw [hk, AList.lookup_erase, AList.lookup_erase]
    rfl
  · rw [AList.lookup_erase_ne hk, AList.lookup_erase_ne hk, h]

/-- Sums over the rows of a side are sums over its positions. -/
theorem RowsOf.sideSum {db : Db A S} (h : RowsOf db.positions positions) (symbol : S)
    (isLong : Bool) (f : PositionRow → ℤ) : db.sideSum symbol isLong f =
      total (onSide symbol isLong fun pos => f pos.row) positions := by
  apply total_eq_of_entry
  intro key
  unfold entry
  rw [h key]
  cases positions.lookup key <;> rfl

/-- The average the indexer computes for a side. -/
def sideMean (num : Numeric) (positions : Table (A × S) Position) (symbol : S) (isLong : Bool) :
    ℤ :=
  let oi := total (sideSize symbol isLong) positions
  if oi > 0 then
    num.truncDiv (total (onSide symbol isLong fun pos => pos.size * pos.entryPrice) positions) oi
  else 0

theorem RowsOf.sideAvg (num : Numeric) {db : Db A S} (h : RowsOf db.positions positions)
    (symbol : S) (isLong : Bool) :
    db.sideAvg num symbol isLong = sideMean num positions symbol isLong := by
  have hsize : db.sideSum symbol isLong (·.size) = total (sideSize symbol isLong) positions :=
    h.sideSum symbol isLong _
  have hvalue := h.sideSum symbol isLong fun row => row.size * row.entryPrice
  unfold Db.sideAvg sideMean
  rw [hsize, hvalue]
  rfl

/-- A side counts the positions of its own market only. -/
theorem total_onSide_congr {symbol : S} (f : Position → ℤ) (isLong : Bool)
    (h : ∀ key : A × S, key.2 = symbol → positions'.lookup key = positions.lookup key) :
    total (onSide symbol isLong f) positions' = total (onSide symbol isLong f) positions := by
  apply total_eq_of_entry
  intro key
  by_cases hkey : key.2 = symbol
  · rw [entry, h key hkey, entry]
  · have hzero : onSide symbol isLong f key = fun _ => 0 :=
      funext fun _ => if_neg fun hc => hkey hc.1
    simp only [entry, hzero]
    cases positions'.lookup key <;> cases positions.lookup key <;> rfl

/-- The tables describe these positions. -/
structure MirrorsPositions (num : Numeric) (db : Db A S) (positions : Table (A × S) Position) :
    Prop where
  rows : RowsOf db.positions positions
  openInterest : ∀ symbol isLong,
    (db.marketRow symbol).openInterest isLong = total (sideSize symbol isLong) positions
  avgPrice : ∀ symbol isLong,
    (db.marketRow symbol).avgPrice isLong = sideMean num positions symbol isLong

end Rows

/-! ## Columns of a market row -/

section Columns

variable {A S : Type} [DecidableEq S] (db : Db A S) (symbol other : S)

/-- A write leaves the columns it does not name as they were. -/
theorem read_upsertMarket {α : Type} {g : MarketRow → α} {f : MarketRow → MarketRow}
    (hg : ∀ row, g (f row) = g row) :
    g ((db.upsertMarket symbol f).marketRow other) = g (db.marketRow other) := by
  rw [marketRow_upsertMarket]
  split_ifs with h
  · rw [hg, h]
  · rfl

variable (num : Numeric)

theorem openInterest_refreshMarketAggregates (isLong : Bool) :
    ((refreshMarketAggregates num db symbol).marketRow other).openInterest isLong =
      if other = symbol then db.sideSum symbol isLong (·.size)
      else (db.marketRow other).openInterest isLong := by
  rw [refreshMarketAggregates, marketRow_upsertMarket]
  cases isLong <;> split_ifs <;> rfl

theorem avgPrice_refreshMarketAggregates (isLong : Bool) :
    ((refreshMarketAggregates num db symbol).marketRow other).avgPrice isLong =
      if other = symbol then db.sideAvg num symbol isLong
      else (db.marketRow other).avgPrice isLong := by
  rw [refreshMarketAggregates, marketRow_upsertMarket]
  cases isLong <;> split_ifs <;> rfl

@[simp] theorem indices_refreshMarketAggregates :
    ((refreshMarketAggregates num db symbol).marketRow other).indices =
      (db.marketRow other).indices :=
  read_upsertMarket db symbol other fun _ => rfl

@[simp] theorem indices_handleMarketPnl (pnl : ℤ) :
    ((db.handleMarketPnl symbol pnl).marketRow other).indices = (db.marketRow other).indices :=
  read_upsertMarket db symbol other fun _ => rfl

@[simp] theorem indices_handleMaxLeverage (maxLeverage : ℤ) :
    ((db.handleMaxLeverage symbol maxLeverage).marketRow other).indices =
      (db.marketRow other).indices :=
  read_upsertMarket db symbol other fun _ => rfl

theorem markets_updatePosition [DecidableEq A] (trader : A) (f : PositionRow → PositionRow) :
    (db.updatePosition trader symbol f).markets = db.markets := by
  unfold updatePosition
  split <;> rfl

end Columns

/-! ## Handlers that keep the tables right -/

namespace MirrorsPositions

variable {A S : Type} [DecidableEq A] [DecidableEq S] {num : Numeric} {db : Db A S}
variable {rows : Table (A × S) PositionRow} {positions positions' : Table (A × S) Position}

/-- A write to the other columns of a market. -/
theorem upsertMarket (h : MirrorsPositions num db positions) (symbol : S)
    {f : MarketRow → MarketRow} (hoi : ∀ row b, (f row).openInterest b = row.openInterest b)
    (havg : ∀ row b, (f row).avgPrice b = row.avgPrice b) :
    MirrorsPositions num (db.upsertMarket symbol f) positions where
  rows := h.rows
  openInterest := fun other isLong =>
    (read_upsertMarket (g := (·.openInterest isLong)) db symbol other (hoi · isLong)).trans
      (h.openInterest other isLong)
  avgPrice := fun other isLong =>
    (read_upsertMarket (g := (·.avgPrice isLong)) db symbol other (havg · isLong)).trans
      (h.avgPrice other isLong)

theorem handleIndices (h : MirrorsPositions num db positions) (symbol : S)
    (accBorrowIndex accFundingIndex : ℤ) (timestamp : ℕ) :
    MirrorsPositions num (db.handleIndices symbol accBorrowIndex accFundingIndex timestamp)
      positions :=
  h.upsertMarket symbol (fun _ _ => rfl) (fun _ _ => rfl)

theorem handleMarketPnl (h : MirrorsPositions num db positions) (symbol : S) (pnl : ℤ) :
    MirrorsPositions num (db.handleMarketPnl symbol pnl) positions :=
  h.upsertMarket symbol (fun _ _ => rfl) (fun _ _ => rfl)

theorem handleMaxLeverage (h : MirrorsPositions num db positions) (symbol : S) (maxLeverage : ℤ) :
    MirrorsPositions num (db.handleMaxLeverage symbol maxLeverage) positions :=
  h.upsertMarket symbol (fun _ _ => rfl) (fun _ _ => rfl)

/-- Positions of one market change, and its aggregates are recomputed. -/
theorem recompute (h : MirrorsPositions num db positions) (symbol : S)
    (hrows : RowsOf rows positions')
    (hother : ∀ key : A × S, key.2 ≠ symbol → positions'.lookup key = positions.lookup key) :
    MirrorsPositions num (refreshMarketAggregates num { db with positions := rows } symbol)
      positions' := by
  let db' : Db A S := { db with positions := rows }
  have hmarkets : db'.markets = db.markets := rfl
  have hrows' : RowsOf db'.positions positions' := hrows
  have hkept {other : S} (hs : other ≠ symbol) (f : Position → ℤ) (isLong : Bool) :
      total (onSide other isLong f) positions' = total (onSide other isLong f) positions :=
    total_onSide_congr f isLong fun key hk => hother key (hk ▸ hs)
  refine ⟨hrows, ?_, ?_⟩
  · intro other isLong
    rw [openInterest_refreshMarketAggregates, hrows'.sideSum, marketRow_congr hmarkets]
    split_ifs with hs
    · rw [hs]
      rfl
    · rw [h.openInterest, sideSize, hkept hs]
  · intro other isLong
    rw [avgPrice_refreshMarketAggregates, hrows'.sideAvg, marketRow_congr hmarkets]
    split_ifs with hs
    · rw [hs]
    · rw [h.avgPrice, sideMean, sideMean, sideSize, hkept hs, hkept hs]

/-- The row of a position that is added to takes the close time of the ledger. -/
theorem handleIncrease (h : MirrorsPositions num db positions) {t : ℕ} (trader : A) (symbol : S)
    {pos : Position} (ht : pos.lastIncreasedTime = t) :
    MirrorsPositions num (handleIncrease num t db trader symbol pos.row)
      (positions.insert (trader, symbol) pos) := by
  have hrow : { pos.row with lastIncreasedTime := (t : ℤ) } = pos.row := by
    rw [← ht]
    rfl
  have hwrite : Db.handleIncrease num t db trader symbol pos.row = refreshMarketAggregates num
      { db with positions := db.positions.insert (trader, symbol) pos.row } symbol := by
    unfold Db.handleIncrease
    cases db.positions.lookup (trader, symbol) with
    | none => rfl
    | some row => rw [hrow]
  rw [hwrite]
  apply h.recompute symbol (h.rows.insert _ pos)
  exact fun key hne => AList.lookup_insert_ne fun hk => hne (congrArg Prod.snd hk)

theorem deletePosition (h : MirrorsPositions num db positions) (trader : A) (symbol : S) :
    MirrorsPositions num (refreshMarketAggregates num (db.deletePosition trader symbol) symbol)
      (positions.erase (trader, symbol)) := by
  apply h.recompute symbol (h.rows.erase (trader, symbol))
  exact fun key hne => AList.lookup_erase_ne fun hk => hne (congrArg Prod.snd hk)

/-- An update finds the row of a stored position. -/
theorem updatePosition_eq (h : MirrorsPositions num db positions) {trader : A} {symbol : S}
    {f : PositionRow → PositionRow} {pos pos' : Position}
    (hpos : positions.lookup (trader, symbol) = some pos) (hf : f pos.row = pos'.row) :
    db.updatePosition trader symbol f =
      { db with positions := db.positions.insert (trader, symbol) pos'.row } := by
  have hrow : db.positions.lookup (trader, symbol) = some pos.row := by
    rw [h.rows, hpos]
    rfl
  rw [updatePosition, hrow, ← hf]

/-- What a close leaves of its position. -/
theorem closeEvent (h : MirrorsPositions num db positions) {r : CloseRequest A S} (t : ℕ)
    (hpos : positions.lookup (r.trader, r.symbol) = some r.pos)
    (hwhole : r.kind ≠ .user → r.sizeDelta = r.pos.size) :
    MirrorsPositions num (handle num db (t, Publishing.closeEvent r))
      (if r.sizeDelta = r.pos.size then positions.erase (r.trader, r.symbol)
        else positions.insert (r.trader, r.symbol) r.remainder) := by
  have hdelete := h.deletePosition r.trader r.symbol
  by_cases hfull : r.sizeDelta = r.pos.size
  · rw [if_pos hfull]
    have hevent : handle num db (t, Publishing.closeEvent r) =
        refreshMarketAggregates num (db.deletePosition r.trader r.symbol) r.symbol := by
      unfold Publishing.closeEvent
      cases r.kind with
      | user => simp [handle, handleDecrease, hfull]
      | liquidation => rfl
      | deleverage => rfl
      | orderExecution => rfl
    rw [hevent]
    exact hdelete
  · rw [if_neg hfull]
    have hkind : r.kind = .user := by
      by_contra hkind
      exact hfull (hwhole hkind)
    let f : PositionRow → PositionRow := fun row =>
      { row with
        size := r.pos.size - r.sizeDelta
        collateral := r.pos.collateral - r.collateralDelta }
    have hrow : db.updatePosition r.trader r.symbol f =
        { db with positions := db.positions.insert (r.trader, r.symbol) r.remainder.row } :=
      h.updatePosition_eq hpos rfl
    have hevent : handle num db (t, Publishing.closeEvent r) = refreshMarketAggregates num
        { db with positions := db.positions.insert (r.trader, r.symbol) r.remainder.row }
          r.symbol := by
      rw [← hrow]
      simp [Publishing.closeEvent, hkind, handle, handleDecrease, hfull, f]
    rw [hevent]
    apply h.recompute r.symbol (h.rows.insert _ _)
    exact fun key hne => AList.lookup_insert_ne fun hk => hne (congrArg Prod.snd hk)

/-- Orders are neither sizes nor prices. -/
theorem handleTpSl (h : MirrorsPositions num db positions) {trader : A} {symbol : S}
    {pos pos' : Position} {takeProfit stopLoss : ℤ}
    (hpos : positions.lookup (trader, symbol) = some pos)
    (hrow : { pos.row with takeProfit := takeProfit, stopLoss := stopLoss } = pos'.row) :
    MirrorsPositions num (db.handleTpSl trader symbol takeProfit stopLoss)
      (positions.insert (trader, symbol) pos') := by
  have hsize : pos'.size = pos.size := congrArg PositionRow.size hrow.symm
  have hentry : pos'.entryPrice = pos.entryPrice := congrArg PositionRow.entryPrice hrow.symm
  have hside : pos'.isLong = pos.isLong := congrArg PositionRow.isLong hrow.symm
  have hkept (other : S) (isLong : Bool) (f : Position → ℤ) (hf : f pos' = f pos) :
      total (onSide other isLong f) (positions.insert (trader, symbol) pos') =
        total (onSide other isLong f) positions := by
    apply Env.total_insert_same hpos
    simp only [onSide, hf, hside]
  unfold Db.handleTpSl
  rw [h.updatePosition_eq hpos hrow]
  refine ⟨h.rows.insert _ _, ?_, ?_⟩
  · intro other isLong
    rw [sideSize, hkept other isLong (·.size) hsize]
    exact h.openInterest other isLong
  · intro other isLong
    have hvalue : pos'.size * pos'.entryPrice = pos.size * pos.entryPrice := by rw [hsize, hentry]
    rw [sideMean, sideSize, hkept other isLong (·.size) hsize, hkept other isLong _ hvalue]
    exact h.avgPrice other isLong

end MirrorsPositions

end Stellars
