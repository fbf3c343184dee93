import Stellars.AwakeTime

/-!
# Bounds of stored positions

Each bound of a position leans on another one. A partial close releases a floored
share of the collateral, so what it leaves is no more leveraged than before. A
merge floors the mean of two borrow indices, so the entry stays behind the
market. The market's index grows because validated rates are not negative, and
its update time because an accrual ends after it starts, paused or not.
-/
namespace Stellars
open GuardedRuns KeyedTotals TruncatedDivision

/-- Everything but the orders and their escrow. -/
structure Position.SameTerms (pos old : Position) : Prop where
  size : pos.size = old.size
  collateral : pos.collateral = old.collateral
  isLong : pos.isLong = old.isLong
  entryBorrowIndex : pos.entryBorrowIndex = old.entryBorrowIndex
  entryFundingIndex : pos.entryFundingIndex = old.entryFundingIndex

theorem Position.SameTerms.refl (pos : Position) : pos.SameTerms pos := ⟨rfl, rfl, rfl, rfl, rfl⟩

namespace Env

variable {A S : Type} [DecidableEq A] [DecidableEq S]

section Steps

variable {erc : Erc4626} {env env' : Env A S} {op : Op A S} {key : A × S} {pos : Position}

/-- A stored position was increased, partly closed, or kept its terms. -/
theorem position_cases (h : Effect erc env op env')
    (hpos : env'.pm.positions.lookup key = some pos) :
    (∃ req, op = .increase req ∧ key = (req.trader, req.symbol) ∧ 0 < req.size ∧
      IncreaseEffect env env' req pos) ∨
    (∃ call r, op = .close call ∧ key = (r.trader, r.symbol) ∧
      CloseReady env (env.freshEnv r.symbol) r ∧ r.sizeDelta ≠ r.pos.size ∧ pos = r.remainder) ∨
    (∃ old, env.pm.positions.lookup key = some old ∧ pos.SameTerms old) := by
  cases h with
  | increase awake size_pos effect =>
      rw [effect.positions] at hpos
      obtain ⟨hkey, rfl⟩ | ⟨_, hold⟩ := lookup_insert_eq_some hpos
      · exact .inl ⟨_, rfl, hkey, size_pos, effect⟩
      · exact .inr (.inr ⟨pos, hold, .refl pos⟩)
  | close names ready effect =>
      rw [effect.positions] at hpos
      obtain ⟨hkey, hpart, rfl⟩ | ⟨_, hold⟩ := lookup_settledPositions hpos
      · exact .inr (.inl ⟨_, _, rfl, hkey, ready, hpart, rfl⟩)
      · exact .inr (.inr ⟨pos, hold, .refl pos⟩)
  | setTpSl position hdelta =>
      obtain ⟨rfl, rfl⟩ | ⟨_, hold⟩ := lookup_insert_eq_some hpos
      · exact .inr (.inr ⟨_, position, rfl, rfl, rfl, rfl, rfl⟩)
      · exact .inr (.inr ⟨pos, hold, .refl pos⟩)
  | @updateIndices _ symbol _ awake price_pos =>
      refine .inr (.inr ⟨pos, ?_, .refl pos⟩)
      rw [← positions_freshEnv env symbol]
      exact hpos
  | quiet h =>
      refine .inr (.inr ⟨pos, ?_, .refl pos⟩)
      rw [← h.samePositions.positions]
      exact hpos

/-! ## Indices grow -/

omit [DecidableEq A] [DecidableEq S] in
/-- A validated configuration never charges a negative rate. -/
theorem borrowRate_nonneg (h : 0 ≤ env.vault.reservedUsdc) :
    0 ≤ env.borrowRate (VaultView.refresh env) := by
  obtain ⟨hbase, h1, h2, _, hopt, _⟩ :=
    BorrowRateConfig.validate_ok env.cfg.borrowRateConfig.2
  apply calcBorrowRate_nonneg (calcUtilizationBps_nonneg _ h) hbase h1 (h1.trans h2)
  omega

omit [DecidableEq A] in
theorem accBorrowIndex_le_freshMarket (h : 0 ≤ env.vault.reservedUsdc) (symbol : S) :
    (env.getMarket symbol).accBorrowIndex ≤ (env.freshMarket symbol).accBorrowIndex := by
  rw [freshMarket, accBorrowIndex_accrue]
  exact le_accumulateBorrowIndex _ (borrowRate_nonneg h)

omit [DecidableEq A] in
/-- An accrual that bills anything ends after it starts. -/
theorem lastIndexUpdate_le_freshMarket (env : Env A S) (symbol : S) :
    (env.getMarket symbol).lastIndexUpdate ≤ (env.freshMarket symbol).lastIndexUpdate := by
  unfold freshMarket accrue
  split_ifs with h
  · rw [timeDelta, effectiveStart_eq_max] at h
    dsimp only
    omega
  · exact le_rfl

theorem effect_accBorrowIndex_le (hb : Books env) (h : Effect erc env op env') (symbol : S) :
    (env.getMarket symbol).accBorrowIndex ≤ (env'.getMarket symbol).accBorrowIndex := by
  cases hop : refreshes op with
  | some sm =>
      obtain ⟨other, mark⟩ := sm
      have hr := effect_refreshes h hop
      by_cases hs : symbol = other
      · rw [hs, hr.borrow]
        exact accBorrowIndex_le_freshMarket hb.reserved_nonneg other
      · rw [hr.others symbol hs]
  | none =>
      have hm := effect_markets_of_not_refreshes h hop
      exact (read_getMarket_congr (f := (·.accBorrowIndex)) (fun _ _ => rfl) hm symbol).ge

theorem effect_lastIndexUpdate_le {symbol : S} (hs : (env.pm.markets.lookup symbol).isSome)
    (h : Effect erc env op env') :
    (env.getMarket symbol).lastIndexUpdate ≤ (env'.getMarket symbol).lastIndexUpdate := by
  cases hop : refreshes op with
  | some sm =>
      obtain ⟨other, mark⟩ := sm
      have hr := effect_refreshes h hop
      by_cases hsym : symbol = other
      · rw [hsym, hr.updated]
        exact lastIndexUpdate_le_freshMarket env other
      · rw [hr.others symbol hsym]
  | none =>
      rw [getMarket_of_stored hs (effect_markets_of_not_refreshes h hop)]

/-- `m'` is `m` or `m` some accruals later. -/
structure IndicesGrow (m m' : MarketInfo) : Prop where
  accBorrowIndex : m.accBorrowIndex ≤ m'.accBorrowIndex
  lastIndexUpdate : m.lastIndexUpdate ≤ m'.lastIndexUpdate

/-- A stored market stays stored, and its indices grow. -/
theorem effect_indicesGrow {symbol : S} {m : MarketInfo} (hb : Books env)
    (hm : env.pm.markets.lookup symbol = some m) (h : Effect erc env op env') :
    ∃ m', env'.pm.markets.lookup symbol = some m' ∧ IndicesGrow m m' := by
  have hs := Option.isSome_iff_exists.mpr ⟨m, hm⟩
  obtain ⟨m', hm'⟩ := Option.isSome_iff_exists.mp (effect_stored hs h)
  have hborrow := effect_accBorrowIndex_le hb h symbol
  have hupdate := effect_lastIndexUpdate_le hs h
  rw [getMarket_of_lookup hm, getMarket_of_lookup hm'] at hborrow hupdate
  exact ⟨m', hm', hborrow, hupdate⟩

/-! ## Entries stay behind the index -/

/-- No position entered at a borrow index its market has yet to reach. -/
structure EntriesBehind (env : Env A S) : Prop where
  index : ∀ symbol, 0 ≤ (env.getMarket symbol).accBorrowIndex
  entry : ∀ key pos, env.pm.positions.lookup key = some pos →
    0 ≤ pos.entryBorrowIndex ∧ pos.entryBorrowIndex ≤ (env.getMarket key.2).accBorrowIndex

theorem increasedPosition_entry {req : IncreaseRequest A S} (hb : Books env)
    (he : EntriesBehind env) (hs : 0 < req.size) (heff : IncreaseEffect env env' req pos) :
    0 ≤ pos.entryBorrowIndex ∧
      pos.entryBorrowIndex ≤ (env.freshMarket req.symbol).accBorrowIndex := by
  have hgrow := accBorrowIndex_le_freshMarket hb.reserved_nonneg req.symbol
  obtain ⟨old, hold, _, rfl⟩ | ⟨_, rfl⟩ := increasedPosition_cases heff.merged
  · obtain ⟨h0, hle⟩ := he.entry _ old hold
    have hsize := (hb.wellFormed _ old hold).size_pos
    exact updateGlobalAvgPrice_le h0 (hle.trans hgrow) hsize.le hs
  · exact ⟨(he.index _).trans hgrow, le_rfl⟩

theorem effect_entriesBehind (hb : Books env) (he : EntriesBehind env)
    (h : Effect erc env op env') : EntriesBehind env' := by
  have hgrow := effect_accBorrowIndex_le hb h
  refine ⟨fun symbol => (he.index symbol).trans (hgrow symbol), ?_⟩
  intro key pos hpos
  obtain ⟨req, rfl, rfl, hs, heff⟩ | ⟨_, r, _, rfl, hready, _, rfl⟩ | ⟨old, hold, hsame⟩ :=
    position_cases h hpos
  · have hr := effect_refreshes h rfl
    rw [hr.borrow]
    exact increasedPosition_entry hb he hs heff
  · obtain ⟨h0, hle⟩ := he.entry _ r.pos hready.position
    exact ⟨h0, hle.trans (hgrow _)⟩
  · obtain ⟨h0, hle⟩ := he.entry key old hold
    rw [hsame.entryBorrowIndex]
    exact ⟨h0, hle.trans (hgrow _)⟩

theorem reachable_entriesBehind (hr : Reachable erc env) : EntriesBehind env := by
  apply hr.books_induction
  · intro admin usdc timestamp
    have hindex : (0 : ℤ) ≤ indexPrecision := by decide
    refine ⟨fun _ => hindex, ?_⟩
    intro key pos hpos
    cases hpos
  · exact fun _ _ _ hb he heff => effect_entriesBehind hb he heff

/-- Whatever slice is valued, whenever, its borrow fee is not negative. -/
theorem borrowFee_nonneg (hr : Reachable erc env) (hpos : env.pm.positions.lookup key = some pos)
    (price collateral : ℤ) {size : ℤ} (hs : 0 ≤ size) (fundingCutBps : ℕ) :
    0 ≤ ((env.freshTick key.2 price).evaluate pos size collateral fundingCutBps).borrowFee := by
  have hentry := ((reachable_entriesBehind hr).entry key pos hpos).2
  have hgrow := accBorrowIndex_le_freshMarket (reachable_books hr).reserved_nonneg key.2
  have hdelta : 0 ≤ (env.freshMarket key.2).accBorrowIndex - pos.entryBorrowIndex := by omega
  exact Int.tdiv_nonneg (mul_nonneg hdelta hs) (by decide)

/-! ## Leverage -/

/-- The operation is an increase of the position at `key`, and it succeeds. -/
def Increases (erc : Erc4626) (key : A × S) (env : Env A S) (op : Op A S) : Prop :=
  ∃ req env', op = .increase req ∧ key = (req.trader, req.symbol) ∧ env.apply erc op = .ok env'

/-- A position at `key` is no larger than `maxLeverage` times its collateral. -/
def WithinLeverage (key : A × S) (maxLeverage : ℤ) (env : Env A S) : Prop :=
  ∀ pos, env.pm.positions.lookup key = some pos → pos.size ≤ pos.collateral * maxLeverage

/-- A slice releases at most its share of the collateral. -/
theorem CloseReady.remainder_leverage {r : CloseRequest A S} {env1 : Env A S} {maxLeverage : ℤ}
    (hb : Books env) (hr : CloseReady env env1 r) (hne : r.sizeDelta ≠ r.pos.size)
    (h : r.pos.size ≤ r.pos.collateral * maxLeverage) :
    r.remainder.size ≤ r.remainder.collateral * maxLeverage := by
  have hw := hb.wellFormed _ _ hr.position
  have hs := hw.size_pos
  have hc := hw.collateral_pos
  have hd := hr.sizeDelta_pos hb
  have hle := hr.size_le
  have hlev : 0 < maxLeverage := by
    by_contra hn
    nlinarith
  have hshare : r.pos.size * r.collateralDelta ≤ r.pos.collateral * r.sizeDelta := by
    rw [hr.collateral, if_neg hne]
    exact (tdiv_nonneg_bounds (by positivity) hs).1
  simp only [CloseRequest.remainder]
  apply le_of_mul_le_mul_left (a := r.pos.size) _ hs
  calc r.pos.size * (r.pos.size - r.sizeDelta)
      ≤ r.pos.collateral * maxLeverage * (r.pos.size - r.sizeDelta) :=
        mul_le_mul_of_nonneg_right h (by omega)
    _ = (r.pos.collateral * r.pos.size - r.pos.collateral * r.sizeDelta) * maxLeverage := by ring
    _ ≤ (r.pos.collateral * r.pos.size - r.pos.size * r.collateralDelta) * maxLeverage := by
        apply mul_le_mul_of_nonneg_right _ hlev.le
        omega
    _ = r.pos.size * ((r.pos.collateral - r.collateralDelta) * maxLeverage) := by ring

theorem withinLeverage_step {maxLeverage : ℤ} (hb : Books env) (h : WithinLeverage key maxLeverage env)
    (hnot : ¬ Increases erc key env op) : WithinLeverage key maxLeverage (env.step erc op) := by
  obtain ⟨heq, -⟩ | ⟨hok, heff⟩ := step_cases erc env op
  · rw [heq]
    exact h
  intro pos hpos
  obtain ⟨req, rfl, hkey, _, _⟩ | ⟨_, r, _, rfl, hready, hne, rfl⟩ | ⟨old, hold, hsame⟩ :=
    position_cases heff hpos
  · exact absurd ⟨req, _, rfl, hkey, hok⟩ hnot
  · exact hready.remainder_leverage hb hne (h _ hready.position)
  · rw [hsame.size, hsame.collateral]
    exact h old hold

/-- No position appears at a key that is not increased. -/
theorem noPosition_step (h : env.pm.positions.lookup key = none)
    (hnot : ¬ Increases erc key env op) : (env.step erc op).pm.positions.lookup key = none := by
  obtain ⟨heq, -⟩ | ⟨hok, heff⟩ := step_cases erc env op
  · rw [heq]
    exact h
  cases hpos : (env.step erc op).pm.positions.lookup key with
  | none => rfl
  | some pos =>
      obtain ⟨req, rfl, hkey, _, _⟩ | ⟨_, r, _, rfl, hready, _, _⟩ | ⟨old, hold, _⟩ :=
        position_cases heff hpos
      · exact absurd ⟨req, _, rfl, hkey, hok⟩ hnot
      · cases h.symm.trans hready.position
      · cases h.symm.trans hold

theorem noPosition_run {ops : List (Op A S)} (h : env.pm.positions.lookup key = none)
    (hnot : Along (step erc) (fun s op => ¬ Increases erc key s op) env ops) :
    (run (step erc) env ops).pm.positions.lookup key = none := by
  induction ops generalizing env with
  | nil => exact h
  | cons op ops ih => exact ih (noPosition_step h hnot.1) hnot.2

/-- The leverage an increase was admitted at holds until the next one. -/
theorem withinLeverage_run {op : Op A S} {after : List (Op A S)} (hr : Reachable erc env)
    (hop : Increases erc key env op)
    (hnot : Along (step erc) (fun s op => ¬ Increases erc key s op) (env.step erc op) after) :
    ∃ maxLeverage, env.pm.maxLeverage key.2 = some maxLeverage ∧
      WithinLeverage key maxLeverage (run (step erc) (env.step erc op) after) := by
  obtain ⟨req, env', rfl, rfl, hok⟩ := hop
  have hstep : env.step erc (.increase req) = env' := by rw [step, hok]
  obtain ⟨_, _, pos, heff⟩ := increasePosition_ok hok
  obtain ⟨maxLeverage, hlev, hle⟩ := heff.leverage
  refine ⟨maxLeverage, hlev, ?_⟩
  rw [hstep] at hnot ⊢
  have hfirst : WithinLeverage (req.trader, req.symbol) maxLeverage env' := by
    intro pos' hpos'
    rw [heff.positions, AList.lookup_insert] at hpos'
    cases hpos'
    exact hle
  let Inv : Env A S → Prop := fun s => Books s ∧ WithinLeverage (req.trader, req.symbol) maxLeverage s
  have hinv : ∀ s op, Inv s → ¬ Increases erc (req.trader, req.symbol) s op → Inv (s.step erc op) :=
    fun s op hi hn => ⟨step_preserves (fun _ _ _ => effect_books) s op hi.1,
      withinLeverage_step hi.1 hi.2 hn⟩
  exact (run_invariant hinv ⟨reachable_books (hr.apply hok), hfirst⟩ hnot).2

/-- What every stored position satisfies at the end of a run from `start`. -/
structure PositionBounded (erc : Erc4626) (start : Env A S) (ops : List (Op A S)) (key : A × S)
    (pos : Position) : Prop where
  wellFormed : pos.WellFormed
  entry : 0 ≤ pos.entryBorrowIndex ∧
    pos.entryBorrowIndex ≤ ((run (step erc) start ops).getMarket key.2).accBorrowIndex
  borrowFee : ∀ price collateral size fundingCutBps, 0 ≤ size →
    0 ≤ (((run (step erc) start ops).freshTick key.2 price).evaluate pos size collateral
      fundingCutBps).borrowFee
  leverage : ∃ before op after maxLeverage, ops = before ++ op :: after ∧
    Increases erc key (run (step erc) start before) op ∧
    Along (step erc) (fun s op => ¬ Increases erc key s op)
      (run (step erc) start (before ++ [op])) after ∧
    (run (step erc) start before).pm.maxLeverage key.2 = some maxLeverage ∧
    pos.size ≤ pos.collateral * maxLeverage

theorem exists_last_increase {start : Env A S} {ops : List (Op A S)}
    (hr : Reachable erc start) (hstart : start.pm.positions.lookup key = none)
    (hpos : (run (step erc) start ops).pm.positions.lookup key = some pos) :
    ∃ before op after maxLeverage, ops = before ++ op :: after ∧
      Increases erc key (run (step erc) start before) op ∧
      Along (step erc) (fun s op => ¬ Increases erc key s op)
        (run (step erc) start (before ++ [op])) after ∧
      (run (step erc) start before).pm.maxLeverage key.2 = some maxLeverage ∧
      pos.size ≤ pos.collateral * maxLeverage := by
  obtain hnot | ⟨before, op, after, rfl, hop, hnot⟩ :=
    along_not_or_last (Increases erc key) start ops
  · cases (noPosition_run hstart hnot).symm.trans hpos
  · have hsplit : run (step erc) start (before ++ [op]) =
        (run (step erc) start before).step erc op := run_append _ _ _ _
    have hnot' := hnot
    rw [hsplit] at hnot'
    obtain ⟨maxLeverage, hlev, hwithin⟩ := withinLeverage_run (hr.run before) hop hnot'
    refine ⟨before, op, after, maxLeverage, rfl, hop, hnot, hlev, hwithin pos ?_⟩
    rw [run_append] at hpos
    exact hpos

/-- Every position stored at the end of a run is bounded, and the next operation
moves no stored market's indices back. -/
theorem positions_bounded (erc : Erc4626) (admin : A) (usdc : Party A → ℕ) (timestamp : ℕ)
    (ops : List (Op A S)) :
    let start : Env A S := genesis admin usdc timestamp
    let env := run (step erc) start ops
    (∀ key pos, env.pm.positions.lookup key = some pos → PositionBounded erc start ops key pos) ∧
    (∀ symbol m, env.pm.markets.lookup symbol = some m → ∀ op,
      ∃ m', (env.step erc op).pm.markets.lookup symbol = some m' ∧ IndicesGrow m m') := by
  intro start env
  have hstart : Reachable erc start := ⟨admin, usdc, timestamp, [], rfl⟩
  have hr : Reachable erc env := ⟨admin, usdc, timestamp, ops, rfl⟩
  constructor
  · intro key pos hpos
    exact ⟨(reachable_books hr).wellFormed key pos hpos,
      (reachable_entriesBehind hr).entry key pos hpos,
      fun price collateral _ cut hs => borrowFee_nonneg hr hpos price collateral hs cut,
      exists_last_increase hstart rfl hpos⟩
  · intro symbol m hm op
    obtain ⟨heq, -⟩ | ⟨_, heff⟩ := step_cases erc env op
    · exact ⟨m, by rw [heq, hm], le_rfl, le_rfl⟩
    · exact effect_indicesGrow (reachable_books hr) hm heff

/-- A long of 500 on 10 of collateral, halved after the cap on leverage fell to 2. -/
def halvedLong : List (Op ℕ ℕ) :=
  setup 100000000000 ++ [.increase ⟨2, 0, 5000000000, 100000000, true, 0, 0, 0, 70⟩,
    .setMaxLeverage 0 0 2, .advance 300, .close (.decrease 2 0 2500000000 0 80)]

/-- The rest still answers to the cap of its opening. -/
theorem positions_bounded_halvedLong :
    ∃ pos, PositionBounded offsetErc (genesis 0 fundedAccounts 1000) halvedLong (2, 0) pos ∧
      2 * pos.collateral < pos.size := by
  have hstored : ∃ pos, (run (step offsetErc) (genesis 0 fundedAccounts 1000)
      halvedLong).pm.positions.lookup (2, 0) = some pos ∧ 2 * pos.collateral < pos.size :=
    ⟨⟨50000000, 2500000000, 70, 100000000000000, 100000000000000, true, 1000, 0, 0, 0⟩,
      by decide +kernel⟩
  obtain ⟨pos, hpos, hlarge⟩ := hstored
  exact ⟨pos, (positions_bounded _ _ _ _ _).1 _ _ hpos, hlarge⟩

end Steps

end Env

end Stellars
