import Stellars.PnlMirror

/-!
# One average price for a whole side

The vault is told the profit of a side computed from its open interest and one
average entry price. Averages are arithmetic and profit divides by the entry, so
the aggregate is the traders' profit only while all entries of a side coincide.
They do in every run that adds to a side at its standing average, or to the one
position that makes up the side.
-/
namespace Stellars
open GuardedRuns KeyedTotals TruncatedDivision

/-! ## Sides of a market -/

namespace MarketInfo

def sidePnl (oi avg markPrice : ℤ) (isLong : Bool) : ℤ :=
  if oi > 0 ∧ avg > 0 then (oi * priceDiff avg markPrice isLong).tdiv avg else 0

theorem unrealizedPnl_eq_sides (m : MarketInfo) (markPrice : ℤ) :
    m.unrealizedPnl markPrice = sidePnl (m.openInterest true) (m.avgPrice true) markPrice true +
      sidePnl (m.openInterest false) (m.avgPrice false) markPrice false := rfl

end MarketInfo

def Position.pnlAt (markPrice : ℤ) (pos : Position) : ℤ :=
  calcUnrealizedPnl pos.size pos.entryPrice markPrice pos.isLong

namespace Env

variable {A S : Type} [DecidableEq A] [DecidableEq S]

/-- The profit of every open position of a market at `markPrice`. -/
def tradersPnl (env : Env A S) (symbol : S) (markPrice : ℤ) : ℤ :=
  total (fun key pos => if key.2 = symbol then pos.pnlAt markPrice else 0) env.pm.positions

def openPositions (env : Env A S) (symbol : S) : ℤ :=
  total (fun key _ => if key.2 = symbol then 1 else 0) env.pm.positions

/-- Every position entered at the average of its side. -/
structure UniformEntries (env : Env A S) : Prop where
  books : Books env
  entry : ∀ key pos, env.pm.positions.lookup key = some pos →
    pos.entryPrice = (env.getMarket key.2).avgPrice pos.isLong

section Value

variable {env : Env A S}

/-- An open side has a positive average, so where either is missing no position is. -/
theorem no_position_of_not_open (hu : UniformEntries env) {symbol : S} {b : Bool}
    (hopen : ¬ ((env.getMarket symbol).openInterest b > 0 ∧ (env.getMarket symbol).avgPrice b > 0))
    (k : A × S) (p : Position) (hk : env.pm.positions.lookup k = some p) :
    ¬ (k.2 = symbol ∧ p.isLong = b) := by
  rintro ⟨hsym, hlong⟩
  have hw := hu.books.wellFormed k p hk
  have hle := le_total (sideSize_nonneg hu.books symbol b) hk
  simp only [sideSize, onSide, hsym, hlong, and_self, if_true] at hle
  apply hopen
  rw [hu.books.side]
  refine ⟨lt_of_lt_of_le hw.size_pos hle, ?_⟩
  rw [← hsym, ← hlong, ← hu.entry k p hk]
  exact hw.entry_pos

/-- The aggregate of one side against its positions, one by one. -/
theorem sidePnl_near (hu : UniformEntries env) (symbol : S) (markPrice : ℤ) (b : Bool) :
    |MarketInfo.sidePnl ((env.getMarket symbol).openInterest b)
        ((env.getMarket symbol).avgPrice b) markPrice b -
      total (onSide symbol b (·.pnlAt markPrice)) env.pm.positions| ≤
      total (onSide symbol b fun _ => 1) env.pm.positions := by
  have hcount : ∀ k p, env.pm.positions.lookup k = some p →
      0 ≤ onSide symbol b (fun _ => 1) k p := by
    intro k p _
    simp only [onSide]
    split_ifs <;> omega
  set avg := (env.getMarket symbol).avgPrice b with havg
  by_cases hopen : (env.getMarket symbol).openInterest b > 0 ∧ avg > 0
  · have hnum : (env.getMarket symbol).openInterest b * priceDiff avg markPrice b =
        total (fun k p => priceDiff avg markPrice b * sideSize symbol b k p)
          env.pm.positions := by
      rw [total_mul_left, ← hu.books.side, mul_comm]
    rw [MarketInfo.sidePnl, if_pos hopen, hnum]
    apply abs_tdiv_total_sub_le hopen.2 hcount
    intro k p hk
    simp only [sideSize, onSide]
    split_ifs with hside
    · obtain ⟨hsym, hlong⟩ := hside
      have hentry : p.entryPrice = avg := by
        rw [hu.entry k p hk, hsym, hlong]
      have hbound := sub_mul_tdiv_bounds (p.size * priceDiff avg markPrice b) hopen.2
      rw [Position.pnlAt, hentry, hlong, calcUnrealizedPnl_of_pos _ _ hopen.2,
        mul_comm (priceDiff _ _ _), one_mul]
      exact abs_le.mpr hbound
    · simp
  · have hnone := no_position_of_not_open hu hopen
    have hzero : ∀ f : Position → ℤ, total (onSide symbol b f) env.pm.positions = 0 := by
      intro f
      exact total_eq_zero fun k p hk => if_neg (hnone k p hk)
    rw [MarketInfo.sidePnl, if_neg hopen, hzero, hzero]
    simp

omit [DecidableEq A] in
theorem total_sides (t : Table (A × S) Position) (symbol : S) (f : Position → ℤ) :
    total (fun key pos => if key.2 = symbol then f pos else 0) t =
      total (onSide symbol true f) t + total (onSide symbol false f) t := by
  rw [← total_add]
  congr 1
  funext key pos
  simp only [onSide]
  cases pos.isLong <;> simp

/-- With uniform entries the aggregate is right up to one unit a position. -/
theorem unrealizedPnl_near (hu : UniformEntries env) (symbol : S) (markPrice : ℤ) :
    |(env.getMarket symbol).unrealizedPnl markPrice - env.tradersPnl symbol markPrice| ≤
      env.openPositions symbol := by
  have hlong := sidePnl_near hu symbol markPrice true
  have hshort := sidePnl_near hu symbol markPrice false
  rw [MarketInfo.unrealizedPnl_eq_sides, tradersPnl, openPositions,
    total_sides _ _ (·.pnlAt markPrice), total_sides _ _ (fun _ => 1)]
  rw [abs_le] at *
  constructor <;> linarith

end Value

/-! ## Runs that keep the entries of a side together -/

def priorSize (env : Env A S) (req : IncreaseRequest A S) : ℤ :=
  entry (fun _ pos => pos.size) env.pm.positions (req.trader, req.symbol)

/-- A successful increase merges into the only position of its side, or happens
at the side's average price. Other operations are free. -/
def EntersAtAverage (erc : Erc4626) (env : Env A S) : Op A S → Prop
  | .increase req => (∃ env', env.apply erc (.increase req) = .ok env') →
      (env.getMarket req.symbol).openInterest req.isLong = env.priorSize req ∨
        req.price = (env.getMarket req.symbol).avgPrice req.isLong
  | _ => True

section Steps

variable {erc : Erc4626} {env env' : Env A S} {op : Op A S}

omit [DecidableEq A] in
theorem avgPrice_getMarket_congr (h : env'.pm.markets = env.pm.markets) (other : S) (b : Bool) :
    (env'.getMarket other).avgPrice b = (env.getMarket other).avgPrice b :=
  read_getMarket_congr (f := (·.avgPrice b)) (fun _ _ => rfl) h other

omit [DecidableEq A] in
theorem avgPrice_getMarket_insert {symbol : S} {market : MarketInfo}
    (h : env'.pm.markets = env.pm.markets.insert symbol market) (other : S) (b : Bool) :
    (env'.getMarket other).avgPrice b =
      if other = symbol then market.avgPrice b else (env.getMarket other).avgPrice b :=
  read_getMarket_insert (f := (·.avgPrice b)) (fun _ _ => rfl) h other

omit [DecidableEq A] in
theorem avgPrice_freshEnv (env : Env A S) (symbol other : S) (b : Bool) :
    ((env.freshEnv symbol).getMarket other).avgPrice b = (env.getMarket other).avgPrice b := by
  by_cases h : other = symbol
  · rw [h, getMarket_freshEnv_self, avgPrice_freshMarket]
  · rw [getMarket_freshEnv_of_ne env h]

theorem openInterest_nonneg (hb : Books env) (symbol : S) (b : Bool) :
    0 ≤ (env.getMarket symbol).openInterest b := by
  rw [hb.side]
  exact total_nonneg (sideSize_nonneg hb symbol b)

/-- A position beside another one leaves its side larger than the other. -/
theorem size_add_entry_le_side (hb : Books env) {key other : A × S} {pos : Position}
    (hk : env.pm.positions.lookup key = some pos) (hne : key ≠ other) :
    pos.size + entry (sideSize key.2 pos.isLong) env.pm.positions other ≤
      (env.getMarket key.2).openInterest pos.isLong := by
  have hle := add_le_total (sideSize_nonneg hb key.2 pos.isLong) hk hne
  have hself : sideSize key.2 pos.isLong key pos = pos.size := if_pos ⟨rfl, rfl⟩
  rw [hself] at hle
  rw [hb.side]
  exact hle

section Increase

variable {req : IncreaseRequest A S} {pos : Position}

theorem entry_sideSize_of_merged {tick : MarketTick}
    (hmerged : env.increasedPosition req tick = .ok pos) :
    entry (sideSize req.symbol req.isLong) env.pm.positions (req.trader, req.symbol) =
      env.priorSize req := by
  obtain ⟨old, hold, hside, _⟩ | ⟨hnone, _⟩ := increasedPosition_cases hmerged
  · rw [priorSize, entry_some hold, entry_some hold]
    exact if_pos ⟨rfl, hside⟩
  · rw [priorSize, entry_none hnone, entry_none hnone]

/-- Beside other positions of the side, the condition keeps the average. -/
theorem average_kept (hb : Books env) (hs : 0 < req.size)
    (heff : IncreaseEffect env env' req pos)
    (hcond : (env.getMarket req.symbol).openInterest req.isLong = env.priorSize req ∨
      req.price = (env.getMarket req.symbol).avgPrice req.isLong)
    {key : A × S} {p : Position} (hk : env.pm.positions.lookup key = some p)
    (hne : key ≠ (req.trader, req.symbol)) (hsym : key.2 = req.symbol)
    (hside : p.isLong = req.isLong) :
    (env.openedMarket req).avgPrice req.isLong =
      (env.getMarket req.symbol).avgPrice req.isLong := by
  simp only [openedMarket, MarketInfo.addOpenInterest, MarketInfo.avgPrice_setSide, if_true,
    avgPrice_freshMarket, openInterest_freshMarket]
  obtain hall | hprice := hcond
  · have hle := size_add_entry_le_side hb hk hne
    have hpos := (hb.wellFormed key p hk).size_pos
    rw [hsym, hside, entry_sideSize_of_merged heff.merged, hall] at hle
    omega
  · rw [hprice]
    exact updateGlobalAvgPrice_same (openInterest_nonneg hb _ _) hs

/-- The merged position enters at the new average of its side. -/
theorem merged_at_average (hu : UniformEntries env) (hs : 0 < req.size)
    (heff : IncreaseEffect env env' req pos)
    (hcond : (env.getMarket req.symbol).openInterest req.isLong = env.priorSize req ∨
      req.price = (env.getMarket req.symbol).avgPrice req.isLong) :
    pos.entryPrice = (env.openedMarket req).avgPrice req.isLong := by
  have hoi := openInterest_nonneg hu.books req.symbol req.isLong
  simp only [openedMarket, MarketInfo.addOpenInterest, MarketInfo.avgPrice_setSide, if_true,
    avgPrice_freshMarket, openInterest_freshMarket]
  obtain ⟨old, hold, hside, rfl⟩ | ⟨hnone, rfl⟩ := increasedPosition_cases heff.merged
  · have hentry : old.entryPrice = (env.getMarket req.symbol).avgPrice req.isLong := by
      rw [hu.entry _ old hold, hside]
    have hpos := (hu.books.wellFormed _ old hold).size_pos
    simp only [Position.increase, freshTick]
    obtain hall | hprice := hcond
    · rw [priorSize, entry_some hold] at hall
      rw [hentry, hall]
    · rw [hentry, hprice, updateGlobalAvgPrice_same hpos.le hs, updateGlobalAvgPrice_same hoi hs]
  · simp only [Position.create, freshTick]
    obtain hall | hprice := hcond
    · rw [priorSize, entry_none hnone] at hall
      rw [hall, updateGlobalAvgPrice, if_neg (by omega), if_pos rfl]
    · rw [hprice, updateGlobalAvgPrice_same hoi hs]

theorem uniform_increase (hu : UniformEntries env) (hs : 0 < req.size)
    (heff : IncreaseEffect env env' req pos)
    (hcond : (env.getMarket req.symbol).openInterest req.isLong = env.priorSize req ∨
      req.price = (env.getMarket req.symbol).avgPrice req.isLong) : UniformEntries env' := by
  refine ⟨books_increase hu.books hs heff, ?_⟩
  intro key p hp
  rw [avgPrice_getMarket_insert heff.markets]
  rw [heff.positions] at hp
  obtain ⟨rfl, rfl⟩ | ⟨hk, hold⟩ := lookup_insert_eq_some hp
  · have hlong := (increasedPosition_grows heff.merged).1
    rw [if_pos rfl, hlong]
    exact merged_at_average hu hs heff hcond
  · have hentry := hu.entry key p hold
    split_ifs with hsym
    · by_cases hside : p.isLong = req.isLong
      · rw [hentry, hside, hsym, average_kept hu.books hs heff hcond hold hk hsym hside]
      · rw [hentry, hsym, openedMarket, MarketInfo.addOpenInterest, MarketInfo.avgPrice_setSide,
          if_neg hside, avgPrice_freshMarket]
    · exact hentry

end Increase

/-- Taking a slice out at the average keeps the average of what stays. -/
theorem uniform_close {r : CloseRequest A S} {env1 : Env A S} (hu : UniformEntries env)
    (hr : CloseReady env env1 r) (heff : CloseEffect env env' r) : UniformEntries env' := by
  have hb := hu.books
  have hclosed := hu.entry _ r.pos hr.position
  have hentry_pos := (hb.wellFormed _ _ hr.position).entry_pos
  -- the average moves only on the closed side, and there only when it empties
  have hkept : ∀ b, (b = r.pos.isLong →
      r.sizeDelta < (env.getMarket r.symbol).openInterest r.pos.isLong) →
      r.closedMarket.avgPrice b = (env.getMarket r.symbol).avgPrice b := by
    intro b hlt
    simp only [CloseRequest.closedMarket, MarketInfo.avgPrice_setSide, hr.market_eq,
      avgPrice_freshMarket, openInterest_freshMarket]
    split_ifs with hside
    · rw [hside, ← hclosed]
      exact removeFromGlobalAvgPrice_same hentry_pos (hlt hside)
    · rfl
  refine ⟨books_close hb hr heff, ?_⟩
  intro key p hp
  rw [avgPrice_getMarket_insert heff.markets]
  rw [heff.positions] at hp
  obtain ⟨rfl, hpart, rfl⟩ | ⟨hk, hold⟩ := lookup_settledPositions hp
  · have hlt : r.sizeDelta < r.pos.size := lt_of_le_of_ne hr.size_le hpart
    have hle := le_total (sideSize_nonneg hb r.symbol r.pos.isLong) hr.position
    rw [← hb.side, sideSize, onSide, if_pos ⟨rfl, rfl⟩] at hle
    rw [if_pos rfl]
    exact hclosed.trans (hkept _ fun _ => lt_of_lt_of_le hlt hle).symm
  · rw [hu.entry key p hold]
    split_ifs with hsym
    · rw [hsym, hkept]
      intro hside
      have hle := size_add_entry_le_side hb hold hk
      have hpos := (hb.wellFormed key p hold).size_pos
      rw [hsym, hside, entry_some hr.position, sideSize, onSide, if_pos ⟨rfl, rfl⟩] at hle
      have hsize := hr.size_le
      omega
    · rfl

theorem effect_uniform (hu : UniformEntries env) (hok : env.apply erc op = .ok env')
    (h : Effect erc env op env') (hcond : EntersAtAverage erc env op) : UniformEntries env' := by
  have hbooks := effect_books hu.books h
  cases h with
  | increase awake size_pos effect => exact uniform_increase hu size_pos effect (hcond ⟨_, hok⟩)
  | close names ready effect => exact uniform_close hu ready effect
  | @setTpSl trader symbol _ _ pos _ position hdelta =>
      refine ⟨hbooks, ?_⟩
      intro key p hp
      obtain ⟨rfl, rfl⟩ | ⟨_, hold⟩ := lookup_insert_eq_some hp
      · exact hu.entry _ pos position
      · exact hu.entry key p hold
  | @updateIndices _ symbol _ awake price_pos =>
      refine ⟨hbooks, ?_⟩
      intro key p hp
      have hentry := hu.entry key p ((env.positions_freshEnv symbol) ▸ hp)
      rw [hentry, ← avgPrice_freshEnv env symbol]
      rfl
  | quiet h =>
      have hsame := h.samePositions
      refine ⟨hbooks, ?_⟩
      intro key p hp
      rw [hsame.positions] at hp
      rw [avgPrice_getMarket_congr hsame.markets]
      exact hu.entry key p hp

omit [DecidableEq A] in
theorem getMarket_of_insert {symbol : S} {market : MarketInfo}
    (h : env'.pm.markets = env.pm.markets.insert symbol market) :
    env'.getMarket symbol = market := by
  rw [getMarket, h, AList.lookup_insert]
  rfl

/-- Right after a refresh the cached value is the aggregate at the mark. -/
theorem cached_after_refresh {symbol : S} {mark : ℤ} (h : Effect erc env op env')
    (hop : refreshes op = some (symbol, mark)) :
    env'.getMarketUnrealizedPnl symbol = (env'.getMarket symbol).unrealizedPnl mark := by
  cases h with
  | increase awake size_pos effect =>
      cases hop
      rw [getMarketUnrealizedPnl_pushed (pnlPushed_increase effect), if_pos rfl,
        getMarket_of_insert effect.markets]
  | close names ready effect =>
      cases hop
      rw [← names.symbol, ← names.price, getMarketUnrealizedPnl_pushed (pnlPushed_close effect),
        if_pos rfl, getMarket_of_insert effect.markets]
  | setTpSl position hdelta => cases hop
  | updateIndices awake price_pos =>
      cases hop
      rw [getMarketUnrealizedPnl_pushed (pnlPushed_updateIndices env symbol mark), if_pos rfl]
      have hmarket := getMarket_freshEnv_self env symbol
      exact congrArg (·.unrealizedPnl mark) hmarket.symm
  | quiet h => cases h <;> cases hop

/-- In every run whose increases happen at the average of their side, a refresh
leaves the vault with the traders' profit, up to one unit an open position. -/
theorem aggregate_matches_traders (erc : Erc4626) (admin : A) (usdc : Party A → ℕ)
    (timestamp : ℕ) (ops : List (Op A S)) (op : Op A S) (env' : Env A S) (symbol : S) (mark : ℤ)
    (hrun : Along (step erc) (EntersAtAverage erc) (genesis admin usdc timestamp) (ops ++ [op]))
    (hok : (run (step erc) (genesis admin usdc timestamp) ops).apply erc op = .ok env')
    (hop : refreshes op = some (symbol, mark)) :
    |env'.getMarketUnrealizedPnl symbol - env'.tradersPnl symbol mark| ≤
      env'.openPositions symbol := by
  obtain ⟨hbefore, hlast⟩ := along_append.mp hrun
  have hgenesis : UniformEntries (genesis admin usdc timestamp : Env A S) :=
    ⟨books_genesis admin usdc timestamp, nofun⟩
  have hstep : ∀ (env : Env A S) op, UniformEntries env → EntersAtAverage erc env op →
      UniformEntries (step erc env op) := by
    intro env op hu hcond
    obtain ⟨heq, _⟩ | ⟨hok, heff⟩ := step_cases erc env op
    · rw [heq]
      exact hu
    · exact effect_uniform hu hok heff hcond
  have huniform := run_invariant hstep hgenesis hbefore
  have heff := apply_effect hok
  rw [cached_after_refresh heff hop]
  exact unrealizedPnl_near (effect_uniform huniform hok heff hlast.1) symbol mark

/-- Two longs entered at 100 and refreshed at 300: the aggregate is exact. -/
theorem aggregate_matches_traders_deployed :
    let opened := setup 1000000000000 ++
      [.increase ⟨2, 0, 10000000000, 1000000000, true, 0, 0, 0, 1000000000⟩,
        .increase ⟨3, 0, 10000000000, 1000000000, true, 0, 0, 0, 1000000000⟩]
    ∃ env', (run (step offsetErc) (genesis 0 fundedAccounts 1000) opened).apply offsetErc
        (.updateIndices 0 0 3000000000) = .ok env' ∧
      |env'.getMarketUnrealizedPnl 0 - env'.tradersPnl 0 3000000000| ≤ env'.openPositions 0 := by
  intro opened
  obtain ⟨env', hok, _⟩ := exists_ok_of_bind_eq_some
    (x := (run (step offsetErc) (genesis 0 fundedAccounts 1000) opened).apply offsetErc
      (.updateIndices 0 0 3000000000))
    (f := fun env => some (env.getMarketUnrealizedPnl 0)) (b := 40000000000) (by decide +kernel)
  refine ⟨env', hok, aggregate_matches_traders _ _ _ _ _ _ _ _ _ ?_ hok rfl⟩
  exact ⟨trivial, trivial, trivial, trivial, trivial, fun _ => .inl (by decide +kernel),
    fun _ => .inr (by decide +kernel), trivial, trivial⟩

/-- The change of a side's aggregate when its average moves one raw unit. -/
def averageUnitSwing (m : MarketInfo) (markPrice : ℤ) (b : Bool) : ℤ :=
  let pnlAt (avg : ℤ) := MarketInfo.sidePnl (m.openInterest b) avg markPrice b
  max |pnlAt (m.avgPrice b + 1) - pnlAt (m.avgPrice b)|
    |pnlAt (m.avgPrice b - 1) - pnlAt (m.avgPrice b)|

/-- Two longs of 1000 entered at 100 and at 200: at a mark of 300 they have
gained 2500, and the vault is told 2000. -/
theorem aggregate_misses_traders :
    ¬ ∀ (ops : List (Op ℕ ℕ)) (op : Op ℕ ℕ) (env' : Env ℕ ℕ) (symbol : ℕ) (mark : ℤ),
      (run (step offsetErc) (genesis 0 fundedAccounts 1000) ops).apply offsetErc op = .ok env' →
      refreshes op = some (symbol, mark) →
      |env'.getMarketUnrealizedPnl symbol - env'.tradersPnl symbol mark| ≤
        env'.openPositions symbol + (ops.length + 1) *
          (averageUnitSwing (env'.getMarket symbol) mark true +
            averageUnitSwing (env'.getMarket symbol) mark false) := by
  intro hmatch
  obtain ⟨env', hok, hfar⟩ := exists_ok_of_bind_eq_some
    (x := (run (step offsetErc) (genesis 0 fundedAccounts 1000) (setup 1000000000000 ++
      [.increase ⟨2, 0, 10000000000, 1000000000, true, 0, 0, 0, 1000000000⟩,
        .increase ⟨3, 0, 10000000000, 1000000000, true, 0, 0, 0, 2000000000⟩])).apply offsetErc
      (.updateIndices 0 0 3000000000))
    (f := fun env => some (decide (|env.getMarketUnrealizedPnl 0 - env.tradersPnl 0 3000000000| ≤
      env.openPositions 0 + 8 * (averageUnitSwing (env.getMarket 0) 3000000000 true +
        averageUnitSwing (env.getMarket 0) 3000000000 false)))) (b := false) (by decide +kernel)
  have hclose := hmatch _ _ env' 0 3000000000 hok rfl
  simp only [Option.some.injEq, decide_eq_false_iff_not] at hfar
  exact hfar hclose

end Steps

end Env

end Stellars
