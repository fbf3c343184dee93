import Stellars.Protocol

/-!
# Reservations and open interest

Three counters in two contracts describe the same open positions: the vault's
reservation, the open interest of each side of each market, and the positions'
own sizes. `Books` ties them together and holds in every reachable state.
-/
namespace Stellars
open GuardedRuns KeyedTotals

/-- What every stored position satisfies. -/
structure Position.WellFormed (pos : Position) : Prop where
  size_pos : 0 < pos.size
  collateral_pos : 0 < pos.collateral
  entry_pos : 0 < pos.entryPrice
  escrow_nonneg : 0 ≤ pos.executionFeeEscrow

section Sides

variable {A S : Type} [DecidableEq S]

/-- The value of `f` at a position on one side of one market, zero elsewhere. -/
def onSide (symbol : S) (isLong : Bool) (f : Position → ℤ) (key : A × S) (pos : Position) : ℤ :=
  if key.2 = symbol ∧ pos.isLong = isLong then f pos else 0

def sideSize (symbol : S) (isLong : Bool) : A × S → Position → ℤ :=
  onSide symbol isLong (·.size)

end Sides

namespace Env

variable {A S : Type} [DecidableEq A] [DecidableEq S]

structure Books (env : Env A S) : Prop where
  wellFormed : ∀ key pos, env.pm.positions.lookup key = some pos → pos.WellFormed
  side : ∀ symbol isLong, (env.getMarket symbol).openInterest isLong =
    total (sideSize symbol isLong) env.pm.positions
  reserved : env.vault.reservedUsdc = total (fun _ pos => pos.size) env.pm.positions
  markets : env.vault.reservedUsdc =
    total (fun _ m => m.longOpenInterest + m.shortOpenInterest) env.pm.markets

theorem sideSize_nonneg {env : Env A S} (hb : Books env) (symbol : S) (b : Bool) (k : A × S)
    (p : Position) (hk : env.pm.positions.lookup k = some p) : 0 ≤ sideSize symbol b k p := by
  have hs := (hb.wellFormed k p hk).size_pos
  simp only [sideSize, onSide]
  split_ifs <;> omega

theorem Books.reserved_nonneg {env : Env A S} (hb : Books env) : 0 ≤ env.vault.reservedUsdc := by
  rw [hb.reserved]
  exact total_nonneg fun k pos hk => (hb.wellFormed k pos hk).size_pos.le

/-! ## Reading markets after a change -/

section Markets

variable {env env' : Env A S} {symbol : S} {market : MarketInfo}

omit [DecidableEq A] in
/-- The clock only shows in the update time of a market that was never stored. -/
theorem read_getMarket_congr {α : Type} {f : MarketInfo → α}
    (hf : ∀ t t', f (.empty t) = f (.empty t')) (h : env'.pm.markets = env.pm.markets)
    (other : S) : f (env'.getMarket other) = f (env.getMarket other) := by
  unfold getMarket
  rw [h]
  cases env.pm.markets.lookup other with
  | none => exact hf _ _
  | some m => rfl

omit [DecidableEq A] in
theorem read_getMarket_insert {α : Type} {f : MarketInfo → α}
    (hf : ∀ t t', f (.empty t) = f (.empty t'))
    (h : env'.pm.markets = env.pm.markets.insert symbol market) (other : S) :
    f (env'.getMarket other) = if other = symbol then f market else f (env.getMarket other) := by
  have hread : f (env'.getMarket other) = f ((env.setMarket symbol market).getMarket other) :=
    read_getMarket_congr hf h other
  rw [hread, getMarket_setMarket]
  split_ifs <;> rfl

omit [DecidableEq A] in
theorem openInterest_getMarket_congr (h : env'.pm.markets = env.pm.markets) (other : S)
    (b : Bool) : (env'.getMarket other).openInterest b = (env.getMarket other).openInterest b :=
  read_getMarket_congr (f := (·.openInterest b)) (fun _ _ => rfl) h other

omit [DecidableEq A] in
theorem openInterest_getMarket_insert (h : env'.pm.markets = env.pm.markets.insert symbol market)
    (other : S) (b : Bool) : (env'.getMarket other).openInterest b =
      if other = symbol then market.openInterest b else (env.getMarket other).openInterest b :=
  read_getMarket_insert (f := (·.openInterest b)) (fun _ _ => rfl) h other

omit [DecidableEq A] in
theorem openInterest_freshEnv (env : Env A S) (symbol other : S) (b : Bool) :
    ((env.freshEnv symbol).getMarket other).openInterest b =
      (env.getMarket other).openInterest b := by
  by_cases h : other = symbol
  · rw [h, getMarket_freshEnv_self, openInterest_freshMarket]
  · rw [getMarket_freshEnv_of_ne env h]

omit [DecidableEq A] in
/-- A market's entry in the open-interest total is what reading it returns. -/
theorem entry_markets (env : Env A S) (symbol : S) :
    entry (fun _ m => m.longOpenInterest + m.shortOpenInterest) env.pm.markets symbol =
      (env.getMarket symbol).longOpenInterest + (env.getMarket symbol).shortOpenInterest := by
  unfold entry getMarket
  cases env.pm.markets.lookup symbol <;> rfl

omit [DecidableEq A] in
theorem totalOi_insert (env : Env A S) (symbol : S) (market : MarketInfo) :
    total (fun _ m => m.longOpenInterest + m.shortOpenInterest)
        (env.pm.markets.insert symbol market) =
      total (fun _ m => m.longOpenInterest + m.shortOpenInterest) env.pm.markets +
        ((market.longOpenInterest + market.shortOpenInterest) -
          ((env.getMarket symbol).longOpenInterest + (env.getMarket symbol).shortOpenInterest)) := by
  rw [total_insert, entry_markets]
  ring

omit [DecidableEq A] in
/-- Accruing indices leaves both sides as they are. -/
theorem oi_freshMarket (env : Env A S) (symbol : S) :
    (env.freshMarket symbol).longOpenInterest + (env.freshMarket symbol).shortOpenInterest =
      (env.getMarket symbol).longOpenInterest + (env.getMarket symbol).shortOpenInterest :=
  congrArg₂ (· + ·) (env.openInterest_freshMarket symbol true)
    (env.openInterest_freshMarket symbol false)

omit [DecidableEq A] in
theorem totalOi_freshEnv (env : Env A S) (symbol : S) :
    total (fun _ m => m.longOpenInterest + m.shortOpenInterest) (env.freshEnv symbol).pm.markets =
      total (fun _ m => m.longOpenInterest + m.shortOpenInterest) env.pm.markets := by
  unfold freshEnv
  split_ifs
  · rw [setMarket, setMarkets, totalOi_insert, oi_freshMarket, sub_self, add_zero]
  · rfl

end Markets

omit [DecidableEq A] in
/-- Changing one side by `d` changes the market's open interest by `d`. -/
theorem MarketInfo.oi_setSide (m : MarketInfo) (b : Bool) (d avg : ℤ) :
    (m.setSide b (m.openInterest b + d) avg).longOpenInterest +
        (m.setSide b (m.openInterest b + d) avg).shortOpenInterest =
      m.longOpenInterest + m.shortOpenInterest + d := by
  cases b <;> simp only [MarketInfo.setSide, MarketInfo.openInterest] <;> simp <;> ring

/-! ## The position an increase leaves -/

section Increase

variable {env env' : Env A S} {req : IncreaseRequest A S} {pos : Position} {tick : MarketTick}

theorem increasedPosition_cases (h : env.increasedPosition req tick = .ok pos) :
    (∃ old, env.getPosition req.trader req.symbol = some old ∧ old.isLong = req.isLong ∧
      pos = old.increase req tick env.timestamp (env.escrowOwed req)) ∨
    (env.getPosition req.trader req.symbol = none ∧
      pos = Position.create req tick env.timestamp (env.escrowOwed req)) := by
  unfold increasedPosition at h
  split at h
  · next old hold =>
      simp only [failIf_bind_eq_ok, not_not, Except.ok.injEq] at h
      exact .inl ⟨old, hold, h.1.symm, h.2.symm⟩
  · next hnone =>
      cases h
      exact .inr ⟨hnone, rfl⟩

/-- Size, collateral and escrow grow by what the call brings; the side stays. -/
theorem increasedPosition_grows (h : env.increasedPosition req tick = .ok pos) :
    pos.isLong = req.isLong ∧
    pos.size = entry (fun _ p => p.size) env.pm.positions (req.trader, req.symbol) + req.size ∧
    pos.collateral = entry (fun _ p => p.collateral) env.pm.positions (req.trader, req.symbol) +
      req.collateral ∧
    pos.executionFeeEscrow = entry (fun _ p => p.executionFeeEscrow) env.pm.positions
      (req.trader, req.symbol) + env.escrowOwed req := by
  obtain ⟨old, hold, hside, rfl⟩ | ⟨hnone, rfl⟩ := increasedPosition_cases h
  · rw [entry_some hold, entry_some hold, entry_some hold]
    exact ⟨hside, rfl, rfl, rfl⟩
  · rw [entry_none hnone, entry_none hnone, entry_none hnone]
    exact ⟨rfl, (zero_add _).symm, (zero_add _).symm, (zero_add _).symm⟩

theorem increasedPosition_wellFormed (hb : Books env) (hs : 0 < req.size)
    (heff : IncreaseEffect env env' req pos) : pos.WellFormed := by
  have hmin := (ProtocolLimits.validate_ok env.cfg.protocolLimits.2).1
  have hcol := heff.min_collateral
  have hesc := env.escrowOwed_nonneg req
  have hprice := heff.price_pos
  obtain ⟨old, hold, _, rfl⟩ | ⟨_, rfl⟩ := increasedPosition_cases heff.merged
  · have hw := hb.wellFormed _ old hold
    have hsize := hw.size_pos
    have hc := hw.collateral_pos
    have he := hw.escrow_nonneg
    refine ⟨?_, ?_, ?_, ?_⟩
    · exact add_pos hsize hs
    · simp only [Position.increase]
      omega
    · exact updateGlobalAvgPrice_pos (.inr hw.entry_pos) hsize.le hprice hs
    · exact add_nonneg he hesc
  · exact ⟨hs, lt_of_lt_of_le (by omega) hcol, hprice, hesc⟩

/-- An increase adds `req.size` to the total of its own side only. -/
theorem sideSize_increase (heff : IncreaseEffect env env' req pos) (symbol : S) (b : Bool) :
    total (sideSize symbol b) env'.pm.positions = total (sideSize symbol b) env.pm.positions +
      (if req.symbol = symbol ∧ req.isLong = b then req.size else 0) := by
  rw [heff.positions, total_insert]
  obtain ⟨old, hold, hside, rfl⟩ | ⟨hnone, rfl⟩ := increasedPosition_cases heff.merged
  · rw [entry_some hold]
    simp only [sideSize, onSide, Position.increase, hside]
    split_ifs <;> ring
  · rw [entry_none hnone, sub_zero]
    rfl

theorem books_increase (hb : Books env) (hs : 0 < req.size)
    (heff : IncreaseEffect env env' req pos) : Books env' := by
  refine ⟨?_, ?_, ?_, ?_⟩
  · intro key p hp
    rw [heff.positions] at hp
    obtain ⟨_, rfl⟩ | ⟨_, hold⟩ := lookup_insert_eq_some hp
    · exact increasedPosition_wellFormed hb hs heff
    · exact hb.wellFormed key p hold
  · intro symbol b
    rw [sideSize_increase heff, openInterest_getMarket_insert heff.markets, ← hb.side]
    by_cases hsym : symbol = req.symbol
    · subst hsym
      simp only [openedMarket, MarketInfo.addOpenInterest, MarketInfo.openInterest_setSide,
        openInterest_freshMarket, if_true, true_and]
      by_cases hside : b = req.isLong
      · rw [if_pos hside, if_pos hside.symm, hside]
      · rw [if_neg hside, if_neg (Ne.symm hside), add_zero]
    · rw [if_neg hsym, if_neg (fun hc => hsym hc.1.symm), add_zero]
  · have hsize := (increasedPosition_grows heff.merged).2.1
    rw [heff.reservedUsdc, heff.positions, total_insert, ← hb.reserved, hsize]
    ring
  · have hoi : (env.openedMarket req).longOpenInterest + (env.openedMarket req).shortOpenInterest =
        (env.freshMarket req.symbol).longOpenInterest +
          (env.freshMarket req.symbol).shortOpenInterest + req.size :=
      MarketInfo.oi_setSide _ _ _ _
    rw [heff.reservedUsdc, heff.markets, totalOi_insert, hoi, oi_freshMarket, ← hb.markets]
    ring

end Increase

/-! ## The position a close leaves -/

section Close

variable {env env' env1 : Env A S} {r : CloseRequest A S}

/-- What a close leaves stored: its remainder, and every other position. -/
theorem lookup_settledPositions {key : A × S} {p : Position}
    (h : (env.settledPositions r).lookup key = some p) :
    key = (r.trader, r.symbol) ∧ r.sizeDelta ≠ r.pos.size ∧ p = r.remainder ∨
      key ≠ (r.trader, r.symbol) ∧ env.pm.positions.lookup key = some p := by
  unfold settledPositions at h
  split_ifs at h with hfull
  · exact .inr (lookup_erase_eq_some h)
  · obtain ⟨hk, rfl⟩ | hold := lookup_insert_eq_some h
    · exact .inl ⟨hk, hfull, rfl⟩
    · exact .inr hold

theorem lookup_settledPositions_of_ne {key : A × S} (hk : key ≠ (r.trader, r.symbol)) :
    (env.settledPositions r).lookup key = env.pm.positions.lookup key := by
  unfold settledPositions
  split_ifs
  · exact AList.lookup_erase_ne hk
  · exact AList.lookup_insert_ne hk

/-- A close replaces its position's summand by the remainder's. -/
theorem total_settledPositions {f : A × S → Position → ℤ}
    (hpos : env.getPosition r.trader r.symbol = some r.pos) :
    total f (env.settledPositions r) = total f env.pm.positions - f (r.trader, r.symbol) r.pos +
      (if r.sizeDelta = r.pos.size then 0 else f (r.trader, r.symbol) r.remainder) := by
  unfold settledPositions
  split_ifs
  · rw [total_erase, entry_some hpos, add_zero]
  · rw [total_insert, entry_some hpos]

/-- For sizes the replacement is the closed slice. -/
theorem sizes_settledPositions (hpos : env.getPosition r.trader r.symbol = some r.pos) :
    total (fun _ p => p.size) (env.settledPositions r) =
      total (fun _ p => p.size) env.pm.positions - r.sizeDelta := by
  rw [total_settledPositions hpos]
  simp only [CloseRequest.remainder]
  split_ifs <;> omega

theorem sideSize_settledPositions (hpos : env.getPosition r.trader r.symbol = some r.pos)
    (symbol : S) (b : Bool) :
    total (sideSize symbol b) (env.settledPositions r) = total (sideSize symbol b) env.pm.positions -
      (if r.symbol = symbol ∧ r.pos.isLong = b then r.sizeDelta else 0) := by
  rw [total_settledPositions hpos]
  by_cases hs : r.symbol = symbol ∧ r.pos.isLong = b
  · have hpart : sideSize symbol b (r.trader, r.symbol) r.remainder = r.pos.size - r.sizeDelta :=
      if_pos hs
    have hwhole : sideSize symbol b (r.trader, r.symbol) r.pos = r.pos.size := if_pos hs
    rw [hpart, hwhole, if_pos hs]
    split_ifs <;> omega
  · have hpart : sideSize symbol b (r.trader, r.symbol) r.remainder = 0 := if_neg hs
    have hwhole : sideSize symbol b (r.trader, r.symbol) r.pos = 0 := if_neg hs
    rw [hpart, hwhole, if_neg hs, ite_self, add_zero]

theorem CloseReady.sizeDelta_pos (hb : Books env) (hr : CloseReady env env1 r) :
    0 < r.sizeDelta := by
  obtain h | h := hr.size_pos
  · exact h
  · rw [h]
    exact (hb.wellFormed _ _ hr.position).size_pos

theorem CloseReady.collateralDelta_bounds (hb : Books env) (hr : CloseReady env env1 r) :
    0 ≤ r.collateralDelta ∧ r.collateralDelta ≤ r.pos.collateral ∧
      (r.sizeDelta ≠ r.pos.size → r.collateralDelta < r.pos.collateral) := by
  have hw := hb.wellFormed _ _ hr.position
  have hd := hr.sizeDelta_pos hb
  have hc := hw.collateral_pos
  rw [hr.collateral]
  split_ifs with hfull
  · exact ⟨hc.le, le_rfl, fun hne => absurd hfull hne⟩
  · have hlt : r.sizeDelta < r.pos.size := lt_of_le_of_ne hr.size_le hfull
    have hb := TruncatedDivision.share_bounds hc.le hd.le hw.size_pos hr.size_le
    exact ⟨hb.1, hb.2, fun _ => TruncatedDivision.share_lt hc hd.le hlt⟩

theorem CloseReady.remainder_wellFormed (hb : Books env) (hr : CloseReady env env1 r)
    (hne : r.sizeDelta ≠ r.pos.size) : r.remainder.WellFormed := by
  have hw := hb.wellFormed _ _ hr.position
  have hc := (hr.collateralDelta_bounds hb).2.2 hne
  have hle := hr.size_le
  refine ⟨?_, ?_, hw.entry_pos, hw.escrow_nonneg⟩
  · simp only [CloseRequest.remainder]
    omega
  · simp only [CloseRequest.remainder]
    omega

/-- The closed slice never exceeds what its own side counts. -/
theorem CloseReady.sizeDelta_le_side (hb : Books env) (hr : CloseReady env env1 r) :
    r.sizeDelta ≤ (env.getMarket r.symbol).openInterest r.pos.isLong := by
  have hle := le_total (sideSize_nonneg hb r.symbol r.pos.isLong) hr.position
  simp only [sideSize, onSide, and_self, if_true] at hle
  rw [hb.side]
  exact hr.size_le.trans hle

theorem CloseReady.sizeDelta_le_reserved (hb : Books env) (hr : CloseReady env env1 r) :
    r.sizeDelta ≤ env.vault.reservedUsdc := by
  have hle := le_total (f := fun _ p => p.size)
    (fun k p hp => (hb.wellFormed k p hp).size_pos.le) hr.position
  rw [hb.reserved]
  exact hr.size_le.trans hle

theorem CloseReady.market_eq (hr : CloseReady env env1 r) :
    r.tick.market = env.freshMarket r.symbol := by
  rw [hr.tick]
  rfl

theorem books_close (hb : Books env) (hr : CloseReady env env1 r)
    (heff : CloseEffect env env' r) : Books env' := by
  have hd := hr.sizeDelta_pos hb
  have hreserved : env'.vault.reservedUsdc = env.vault.reservedUsdc - r.sizeDelta := by
    rw [heff.reservedUsdc, max_eq_left hd.le]
  refine ⟨?_, ?_, ?_, ?_⟩
  · intro key p hp
    rw [heff.positions] at hp
    obtain ⟨_, hpart, rfl⟩ | ⟨_, hold⟩ := lookup_settledPositions hp
    · exact hr.remainder_wellFormed hb hpart
    · exact hb.wellFormed key p hold
  · intro symbol b
    rw [openInterest_getMarket_insert heff.markets, heff.positions, sideSize_settledPositions hr.position,
      ← hb.side]
    by_cases hsym : symbol = r.symbol
    · subst hsym
      simp only [CloseRequest.closedMarket, MarketInfo.openInterest_setSide, hr.market_eq,
        openInterest_freshMarket, if_true, true_and]
      by_cases hside : b = r.pos.isLong
      · rw [if_pos hside, if_pos hside.symm, hside]
      · rw [if_neg hside, if_neg (Ne.symm hside), sub_zero]
    · rw [if_neg hsym, if_neg (fun hc => hsym hc.1.symm), sub_zero]
  · rw [hreserved, heff.positions, sizes_settledPositions hr.position, hb.reserved]
  · have hoi : r.closedMarket.longOpenInterest + r.closedMarket.shortOpenInterest =
        r.tick.market.longOpenInterest + r.tick.market.shortOpenInterest + -r.sizeDelta :=
      MarketInfo.oi_setSide _ _ _ _
    rw [hreserved, heff.markets, totalOi_insert, hoi, hr.market_eq, oi_freshMarket, ← hb.markets]
    ring

end Close

/-! ## Every reachable state -/

section Invariant

variable {erc : Erc4626} {env env' : Env A S} {op : Op A S}

theorem books_of_same (hb : Books env) (h : SamePositions env env') : Books env' := by
  refine ⟨?_, ?_, ?_, ?_⟩
  · rw [h.positions]
    exact hb.wellFormed
  · intro symbol b
    rw [openInterest_getMarket_congr h.markets, h.positions]
    exact hb.side symbol b
  · rw [h.reservedUsdc, h.positions]
    exact hb.reserved
  · rw [h.reservedUsdc, h.markets]
    exact hb.markets

/-- Rewriting a position's orders and escrow leaves every size where it was. -/
theorem total_insert_same {f : A × S → Position → ℤ} {t : Table (A × S) Position} {key : A × S}
    {pos pos' : Position} (hk : t.lookup key = some pos) (hf : f key pos' = f key pos) :
    total f (t.insert key pos') = total f t := by
  rw [total_insert, entry_some hk, hf]
  ring

theorem books_setTpSl {trader : A} {symbol : S} {pos : Position} {takeProfit stopLoss delta : ℤ}
    {usdc : Party A → ℤ} (hb : Books env) (hpos : env.getPosition trader symbol = some pos)
    (hdelta : 0 ≤ pos.executionFeeEscrow + delta) :
    Books ((env.setUsdc usdc).setPosition trader symbol { pos with
      executionFeeEscrow := pos.executionFeeEscrow + delta
      takeProfit := takeProfit
      stopLoss := stopLoss }) := by
  have hw := hb.wellFormed _ _ hpos
  refine ⟨?_, ?_, ?_, ?_⟩
  · intro key p hp
    obtain ⟨_, rfl⟩ | ⟨_, hold⟩ := lookup_insert_eq_some hp
    · exact ⟨hw.size_pos, hw.collateral_pos, hw.entry_pos, hdelta⟩
    · exact hb.wellFormed key p hold
  · intro other b
    exact (hb.side other b).trans (total_insert_same hpos rfl).symm
  · exact hb.reserved.trans (total_insert_same hpos rfl).symm
  · exact hb.markets

theorem books_freshEnv (hb : Books env) (symbol : S) : Books (env.freshEnv symbol) := by
  have hoi := openInterest_freshEnv env symbol
  have htotal := totalOi_freshEnv env symbol
  obtain ⟨markets, h⟩ := env.freshEnv_eq symbol
  rw [h] at hoi htotal ⊢
  refine ⟨hb.wellFormed, ?_, hb.reserved, ?_⟩
  · intro other b
    rw [hoi]
    exact hb.side other b
  · rw [htotal]
    exact hb.markets

theorem effect_books (hb : Books env) (h : Effect erc env op env') : Books env' := by
  cases h with
  | increase awake size_pos effect => exact books_increase hb size_pos effect
  | close names ready effect => exact books_close hb ready effect
  | setTpSl position hdelta =>
      apply books_setTpSl hb position
      rw [hdelta]
      have hfee := (FeeConfig.validate_ok env.cfg.feeConfig.2).2.2.1
      exact escrowDelta_nonneg_after (hb.wellFormed _ _ position).escrow_nonneg hfee
  | updateIndices awake price_pos =>
      have hf := books_freshEnv hb
      exact ⟨(hf _).wellFormed, (hf _).side, (hf _).reserved, (hf _).markets⟩
  | quiet h => exact books_of_same hb h.samePositions

theorem books_genesis (admin : A) (usdc : Party A → ℕ) (timestamp : ℕ) :
    Books (genesis admin usdc timestamp : Env A S) := by
  refine ⟨?_, ?_, rfl, rfl⟩
  · intro key pos h
    cases h
  · intro symbol b
    cases b <;> rfl

theorem reachable_books (hr : Reachable erc env) : Books env :=
  hr.induction books_genesis fun _ _ _ => effect_books

/-- An invariant may rely on the books at every step. -/
theorem Reachable.books_induction {Inv : Env A S → Prop}
    (hgenesis : ∀ admin usdc timestamp, Inv (genesis admin usdc timestamp))
    (h : ∀ env op env', Books env → Inv env → Effect erc env op env' → Inv env')
    (hr : Reachable erc env) : Inv env :=
  hr.induction_apply hgenesis fun env op env' hr hi hok =>
    h env op env' (reachable_books hr) hi (apply_effect hok)

/-- Reservation, open interest and position sizes agree in every reachable
state, so a close neither underflows the open interest nor fails to release. -/
theorem reachable_reservation_agrees (hr : Reachable erc env) :
    env.vault.reservedUsdc = total (fun _ pos => pos.size) env.pm.positions ∧
    env.vault.reservedUsdc =
      total (fun _ m => m.longOpenInterest + m.shortOpenInterest) env.pm.markets ∧
    (∀ symbol isLong, (env.getMarket symbol).openInterest isLong =
      total (sideSize symbol isLong) env.pm.positions) ∧
    (∀ call env1 r, env.closeRequest call = .ok (env1, r) →
      (∃ env2, env1.releaseLiquidity .positionManager r.sizeDelta = .ok env2) ∧
        0 ≤ r.tick.market.openInterest r.pos.isLong - r.sizeDelta) := by
  have hb := reachable_books hr
  refine ⟨hb.reserved, hb.markets, hb.side, ?_⟩
  intro call env1 r hcall
  have hready := (closeRequest_ok hcall).1
  have hfresh : env1.vault.reservedUsdc = env.vault.reservedUsdc := by
    obtain ⟨markets, h⟩ := env.freshEnv_eq r.symbol
    rw [hready.refreshed, h]
    rfl
  constructor
  · refine ⟨_, releaseLiquidity_eq_ok.mpr ⟨hready.sizeDelta_pos hb, ?_, rfl⟩⟩
    rw [hfresh]
    exact hready.sizeDelta_le_reserved hb
  · have hle := hready.sizeDelta_le_side hb
    rw [hready.market_eq, openInterest_freshMarket]
    omega

/-- With a long of 500 and a short of 300 open, 800 are reserved. -/
theorem reachable_reservation_agrees_deployed :
    let env := deployed 100000000000
      [.increase ⟨2, 0, 5000000000, 100000000, true, 0, 0, 0, 70⟩,
        .increase ⟨3, 0, 3000000000, 100000000, false, 0, 0, 0, 50⟩]
    env.vault.reservedUsdc = 8000000000 ∧
    env.vault.reservedUsdc = total (fun _ pos => pos.size) env.pm.positions ∧
    env.vault.reservedUsdc =
      total (fun _ m => m.longOpenInterest + m.shortOpenInterest) env.pm.markets ∧
    (∀ symbol isLong, (env.getMarket symbol).openInterest isLong =
      total (sideSize symbol isLong) env.pm.positions) ∧
    (∀ call env1 r, env.closeRequest call = .ok (env1, r) →
      (∃ env2, env1.releaseLiquidity .positionManager r.sizeDelta = .ok env2) ∧
        0 ≤ r.tick.market.openInterest r.pos.isLong - r.sizeDelta) :=
  ⟨by decide +kernel, reachable_reservation_agrees (reachable_deployed _ _)⟩

end Invariant

end Env

end Stellars
