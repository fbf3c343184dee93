import Stellars.Protocol
import Stellars.ProtocolMath

/-!
# The keeper's view against the contract's

The keeper projects a tick for each mirrored market and selects positions by the
health it computes. Its formulas are the contract's. What differs is what they
are fed: it bills through a pause, measures utilization on assets that include
unclaimed fees, and does not round a funding rate whose product overflows.
-/
namespace Stellars
open GuardedRuns KeyedTotals

/-- The one field of the keeper's configuration that the scan reads. -/
structure KeeperConfig where
  liquidationSafetyMarginBps : ℤ

structure KeeperWorld (A S : Type) where
  now : ℤ
  positions : Table (A × S) PositionRow
  ticks : S → Option ProtocolMath.MarketTick
  protocolConfig : Option ProtocolConfigRow

structure LiquidationCandidate (A S : Type) where
  trader : A
  symbol : S
  pos : PositionRow
  health : ℤ

section Keeper

variable {A S : Type} [DecidableEq S]

/-- A market has a tick when it has a row and a price. -/
def loadKeeperWorld (db : Db A S) (prices : S → Option ℤ) (now : ℤ) : KeeperWorld A S where
  now := now
  positions := db.positions
  ticks := fun symbol => do
    let m ← db.markets.lookup symbol
    let price ← prices symbol
    some (ProtocolMath.MarketTick.project
      { market := ProtocolMath.toMarketState m
        markPrice := price
        vault := ProtocolMath.toVaultLiquidity db.vaultState
        rateConfig := ProtocolMath.toBorrowRateConfig db.protocolConfig
        now := now
        lastUnpauseTime := db.protocolConfig.elim 0 (·.lastUnpauseTime) })
  protocolConfig := db.protocolConfig

omit [DecidableEq S] in
/-- Positions below the threshold, the least healthy first. -/
def scanLiquidationCandidates (world : KeeperWorld A S) (config : KeeperConfig) :
    List (LiquidationCandidate A S) :=
  let thresholdBps :=
    world.protocolConfig.elim config.liquidationSafetyMarginBps (·.liquidationThresholdBps)
  let fundingCutBps := world.protocolConfig.elim 0 (·.fundingCutBps)
  let candidates := world.positions.entries.filterMap fun e => do
    let tick ← world.ticks e.1.2
    let threshold := (e.2.collateral * thresholdBps).tdiv bps
    let eval := tick.evaluate (ProtocolMath.toPositionState e.2) none fundingCutBps
    if eval.effectiveHealth ≥ threshold then none
    else some ⟨e.1.1, e.1.2, e.2, eval.effectiveHealth⟩
  candidates.mergeSort fun a b => decide (a.health ≤ b.health)

end Keeper

/-! ## Agreement with the contract -/

/-- The two ticks carry the same indices and value every slice alike. -/
structure SameTick (tick : ProtocolMath.MarketTick) (onChain : MarketTick) : Prop where
  accBorrowIndex : tick.market.accBorrowIndex = onChain.market.accBorrowIndex
  accFundingIndex : tick.market.accFundingIndex = onChain.market.accFundingIndex
  evaluate : ∀ (pos : Position) (size collateral : ℤ) (fundingCutBps : ℕ),
    let mirror := tick.evaluate (ProtocolMath.toPositionState pos.row) (some ⟨size, collateral⟩)
      fundingCutBps
    let eval := onChain.evaluate pos size collateral fundingCutBps
    mirror.pnl = eval.pnl ∧ mirror.borrowFee = eval.borrowFee ∧
      mirror.fundingFee = eval.fundingFee ∧
      mirror.effectiveFunding = eval.effectiveFunding ∧
      mirror.fundingProtocolCut = eval.fundingProtocolCut ∧
      mirror.effectiveHealth = eval.effectiveHealth

/-- The port asks whether the payers fall short, the contract whether they suffice. -/
theorem zeroSumFunding_port (m : MarketInfo) (isLong : Bool) (fee : ℤ) :
    (if fee > 0 then
      if (if isLong then m.longOpenInterest else m.shortOpenInterest) ≤ 0 then 0
      else if (if isLong then m.shortOpenInterest else m.longOpenInterest) <
          (if isLong then m.longOpenInterest else m.shortOpenInterest) then
        (fee * (if isLong then m.shortOpenInterest else m.longOpenInterest)).tdiv
          (if isLong then m.longOpenInterest else m.shortOpenInterest)
      else fee
    else fee) = zeroSumFunding m isLong fee := by
  simp only [zeroSumFunding, MarketInfo.openInterest]
  cases isLong with
  | false =>
      simp only [Bool.not_false, if_true, Bool.false_eq_true, if_false]
      split_ifs <;> first | rfl | omega
  | true =>
      simp only [Bool.not_true, if_true, Bool.false_eq_true, if_false]
      split_ifs <;> first | rfl | omega

/-- Ticks with the same indices, open interests and mark value every slice alike. -/
theorem sameTick_of_market {tick : ProtocolMath.MarketTick} {onChain : MarketTick}
    (hb : tick.market.accBorrowIndex = onChain.market.accBorrowIndex)
    (hf : tick.market.accFundingIndex = onChain.market.accFundingIndex)
    (hl : tick.market.longOpenInterest = onChain.market.longOpenInterest)
    (hs : tick.market.shortOpenInterest = onChain.market.shortOpenInterest)
    (hm : tick.markPrice = onChain.markPrice) : SameTick tick onChain := by
  refine ⟨hb, hf, ?_⟩
  intro pos size collateral fundingCutBps mirror eval
  have hmirror : mirror = { eval with
      health := calcHealth collateral eval.pnl eval.borrowFee eval.fundingFee } := by
    simp only [mirror, eval, ProtocolMath.MarketTick.evaluate, MarketTick.evaluate, hb, hf, hl, hs,
      hm, Option.elim_some]
    have hzero := zeroSumFunding_port onChain.market pos.isLong
      (calcFundingFee size pos.entryFundingIndex onChain.market.accFundingIndex pos.isLong)
    rw [← hzero]
    rfl
  rw [hmirror]
  exact ⟨rfl, rfl, rfl, rfl, rfl, rfl⟩

namespace Env

variable {A S : Type} [DecidableEq A] [DecidableEq S]

/-- `liquidate_position` gets past its checks. -/
def Liquidatable (env : Env A S) (caller trader : A) (symbol : S) (price : ℤ) : Prop :=
  ∃ result, env.liquidateRequest caller trader symbol price = .ok result

/-- With every row mirrored, the keeper's tick of `symbol` is the contract's, and
its scan selects the positions there that the contract would liquidate. -/
structure KeeperAgrees (env : Env A S) (config : KeeperConfig) (prices : S → Option ℤ)
    (symbol : S) (mark : ℤ) : Prop where
  tick : ∃ tick, (loadKeeperWorld env.mirrored prices env.timestamp).ticks symbol = some tick ∧
    SameTick tick (env.freshTick symbol mark)
  scan : ∀ caller trader,
    (∃ c ∈ scanLiquidationCandidates (loadKeeperWorld env.mirrored prices env.timestamp) config,
      c.trader = trader ∧ c.symbol = symbol) ↔ env.Liquidatable caller trader symbol mark

/-! ## What the keeper bills -/

/-- The seconds the keeper projects over, through a pause if there is one. -/
def projectedSeconds (env : Env A S) (m : MarketInfo) : ℕ :=
  env.timestamp - max m.lastIndexUpdate env.pm.lastUnpauseTime

/-- The borrow rate at a utilization of all assets, unclaimed fees included. -/
def grossBorrowRate (env : Env A S) : ℤ :=
  let c := env.cfg.borrowRateConfig.1
  calcBorrowRate (calcUtilizationBps env.vault.reservedUsdc env.totalAssets) c.baseBorrowRateBps
    c.slope1Bps c.slope2Bps c.optimalUtilizationBps

/-- The funding rate without the contract's halving. -/
def exactFundingRate (env : Env A S) (m : MarketInfo) : ℤ :=
  ProtocolMath.calcFundingRate m.longOpenInterest m.shortOpenInterest
    env.cfg.borrowRateConfig.1.baseFundingRateBps

/-- Rate times seconds is the same for the keeper as for the contract. -/
structure SameAccrual (env : Env A S) (m : MarketInfo) : Prop where
  borrow : env.grossBorrowRate * env.projectedSeconds m =
    env.borrowRate (VaultView.refresh env) * env.timeDelta m
  funding : env.exactFundingRate m * env.projectedSeconds m = env.fundingRate m * env.timeDelta m

section Agreement

variable {env : Env A S} {symbol : S} {m : MarketInfo} {mark : ℤ}

/-- The keeper's tick of a market with row `m`. -/
def keeperTick (env : Env A S) (symbol : S) (m : MarketInfo) (mark : ℤ) :
    ProtocolMath.MarketTick :=
  ProtocolMath.MarketTick.project
    { market := ProtocolMath.toMarketState (env.marketRow symbol m)
      markPrice := mark
      vault := ProtocolMath.toVaultLiquidity (some env.vaultStateRow)
      rateConfig := ProtocolMath.toBorrowRateConfig (some env.protocolConfigRow)
      now := env.timestamp
      lastUnpauseTime := env.pm.lastUnpauseTime }

omit [DecidableEq A] in
theorem ticks_mirrored {prices : S → Option ℤ} (hm : env.pm.markets.lookup symbol = some m)
    (hprice : prices symbol = some mark) :
    (loadKeeperWorld env.mirrored prices env.timestamp).ticks symbol =
      some (env.keeperTick symbol m mark) := by
  have hrow : env.mirrored.markets.lookup symbol = some (env.marketRow symbol m) := by
    simp [mirrored, hm]
  simp only [loadKeeperWorld, hrow, hprice, Option.bind_eq_bind, Option.bind_some]
  rfl

omit [DecidableEq A] in
theorem keeperTick_indices (env : Env A S) (symbol : S) (m : MarketInfo) (mark : ℤ) :
    (env.keeperTick symbol m mark).market.accBorrowIndex = m.accBorrowIndex +
        (env.grossBorrowRate * env.projectedSeconds m * indexPrecision).tdiv
          (bps * secondsPerYear) ∧
      (env.keeperTick symbol m mark).market.accFundingIndex = m.accFundingIndex +
        (env.exactFundingRate m * env.projectedSeconds m * indexPrecision).tdiv
          (bps * secondsPerYear) := by
  apply ProtocolMath.MarketTick.project_indices
  simp only [projectedSeconds, ProtocolMath.toMarketState, marketRow]
  omega

omit [DecidableEq A] in
theorem freshMarket_of_stored (hm : env.pm.markets.lookup symbol = some m) :
    env.freshMarket symbol = env.accrue (VaultView.refresh env) m := by
  rw [freshMarket, getMarket, hm]
  rfl

omit [DecidableEq A] in
/-- The indices agree exactly when the accruals do. -/
theorem same_indices_iff (mark : ℤ) (hm : env.pm.markets.lookup symbol = some m) :
    (env.keeperTick symbol m mark).market.accBorrowIndex = (env.freshMarket symbol).accBorrowIndex ∧
      (env.keeperTick symbol m mark).market.accFundingIndex =
        (env.freshMarket symbol).accFundingIndex ↔ env.SameAccrual m := by
  rw [freshMarket_of_stored hm, accBorrowIndex_accrue, accFundingIndex_accrue,
    (keeperTick_indices env symbol m mark).1, (keeperTick_indices env symbol m mark).2,
    accumulateBorrowIndex, accumulateFundingIndex, add_right_inj, add_right_inj, mul_right_comm _ indexPrecision,
    mul_right_comm _ indexPrecision, indexGrowth_inj, indexGrowth_inj]
  exact ⟨fun h => ⟨h.1, h.2⟩, fun h => ⟨h.borrow, h.funding⟩⟩

/-! ## When the accruals agree -/

omit [DecidableEq A] [DecidableEq S] in
theorem projectedSeconds_awake (m : MarketInfo) (h : env.pm.isPaused = false) :
    env.projectedSeconds m = env.timeDelta m := by
  rw [timeDelta_awake m h, projectedSeconds]

omit [DecidableEq A] [DecidableEq S] in
theorem projectedSeconds_paused (m : MarketInfo) (h : env.pm.isPaused = true) :
    env.projectedSeconds m = env.timeDelta m ↔
      env.timestamp ≤ max env.pm.lastPauseTime (max m.lastIndexUpdate env.pm.lastUnpauseTime) := by
  rw [timeDelta_paused m h, projectedSeconds]
  omega

omit [DecidableEq A] [DecidableEq S] in
/-- Unclaimed fees are what sets the two utilizations apart. -/
theorem grossBorrowRate_of_no_fees (h : env.vault.unclaimedFees = 0) :
    env.grossBorrowRate = env.borrowRate (VaultView.refresh env) := by
  have hutil : calcUtilizationBps env.vault.reservedUsdc env.totalAssets =
      calcUtilizationBps env.vault.reservedUsdc env.totalAssetsExclPnl := by
    rw [totalAssetsExclPnl_eq_max, h, sub_zero]
    obtain hle | hlt := le_or_gt env.totalAssets 0
    · simp [calcUtilizationBps, hle]
    · rw [max_eq_left hlt.le]
  rw [grossBorrowRate, hutil]
  rfl

omit [DecidableEq A] [DecidableEq S] in
theorem exactFundingRate_of_fits {product : ℤ}
    (h : checkedMul (m.longOpenInterest - m.shortOpenInterest)
      env.cfg.borrowRateConfig.1.baseFundingRateBps = some product) :
    env.exactFundingRate m = env.fundingRate m := by
  simp only [exactFundingRate, fundingRate, ProtocolMath.calcFundingRate, calcFundingRate, h]
  rw [checkedMul_eq_some h]

omit [DecidableEq A] [DecidableEq S] in
/-- At equal rates the keeper may only bill seconds that the contract bills too,
unless nothing is charged. -/
theorem sameAccrual_iff_of_rates (hb : env.grossBorrowRate = env.borrowRate (VaultView.refresh env))
    (hf : env.exactFundingRate m = env.fundingRate m) :
    env.SameAccrual m ↔ env.projectedSeconds m = env.timeDelta m ∨
      env.borrowRate (VaultView.refresh env) = 0 ∧ env.fundingRate m = 0 := by
  constructor
  · intro h
    have hborrow := h.borrow
    have hfunding := h.funding
    rw [hb, mul_eq_mul_left_iff] at hborrow
    rw [hf, mul_eq_mul_left_iff] at hfunding
    omega
  · rintro (h | ⟨h1, h2⟩)
    · exact ⟨by rw [hb, h], by rw [hf, h]⟩
    · exact ⟨by rw [hb, h1, zero_mul, zero_mul], by rw [hf, h2, zero_mul, zero_mul]⟩

omit [DecidableEq A] [DecidableEq S] in
/-- While awake, without unclaimed fees and within the range of the product. -/
theorem sameAccrual_of_awake {product : ℤ} (hawake : env.pm.isPaused = false)
    (hfees : env.vault.unclaimedFees = 0)
    (hfits : checkedMul (m.longOpenInterest - m.shortOpenInterest)
      env.cfg.borrowRateConfig.1.baseFundingRateBps = some product) : env.SameAccrual m :=
  (sameAccrual_iff_of_rates (grossBorrowRate_of_no_fees hfees)
    (exactFundingRate_of_fits hfits)).mpr (.inl (projectedSeconds_awake m hawake))

/-! ## Selection -/

theorem mem_scanLiquidationCandidates {world : KeeperWorld A S} {config : KeeperConfig}
    {trader : A} {limits : ProtocolConfigRow} (hcfg : world.protocolConfig = some limits) :
    (∃ c ∈ scanLiquidationCandidates world config, c.trader = trader ∧ c.symbol = symbol) ↔
      ∃ row tick, world.positions.lookup (trader, symbol) = some row ∧
        world.ticks symbol = some tick ∧
        (tick.evaluate (ProtocolMath.toPositionState row) none
          limits.fundingCutBps).effectiveHealth <
            (row.collateral * limits.liquidationThresholdBps).tdiv bps := by
  simp only [scanLiquidationCandidates, hcfg, Option.elim_some, List.mem_mergeSort,
    List.mem_filterMap]
  constructor
  · rintro ⟨c, ⟨⟨⟨a, s⟩, row⟩, hmem, hc⟩, rfl, rfl⟩
    simp only [Option.bind_eq_bind, Option.bind_eq_some_iff] at hc
    obtain ⟨tick, htick, hc⟩ := hc
    split_ifs at hc with hhealth
    obtain rfl := Option.some.inj hc
    exact ⟨row, tick, mem_entries_iff.mp hmem, htick, not_le.mp hhealth⟩
  · rintro ⟨row, tick, hrow, htick, hhealth⟩
    let health := (tick.evaluate (ProtocolMath.toPositionState row) none
      limits.fundingCutBps).effectiveHealth
    refine ⟨⟨trader, symbol, row, health⟩,
      ⟨⟨(trader, symbol), row⟩, mem_entries_iff.mpr hrow, ?_⟩, rfl, rfl⟩
    simp only [htick, Option.bind_eq_bind, Option.bind_some]
    rw [if_neg (not_le.mpr hhealth)]

theorem liquidatable_iff {caller trader : A} : env.Liquidatable caller trader symbol mark ↔
    0 < mark ∧ ∃ pos, env.getPosition trader symbol = some pos ∧
      ((env.freshTick symbol mark).evaluate pos pos.size pos.collateral
        env.cfg.protocolLimits.1.fundingCutBps).effectiveHealth <
          (pos.collateral * env.cfg.protocolLimits.1.liquidationThresholdBps).tdiv bps := by
  simp only [Liquidatable, liquidateRequest, bind_eq_ok, orFail_eq_ok, failIf_eq_ok,
    exists_const, Except.ok.injEq]
  constructor
  · rintro ⟨result, ⟨env', tick⟩, hrefresh, pos, hpos, hhealth, _⟩
    obtain ⟨hp, rfl, rfl⟩ := refreshTick_eq_ok.mp hrefresh
    rw [getPosition_freshEnv] at hpos
    simp only [fullClose, cfg_freshEnv] at hhealth
    exact ⟨hp, pos, hpos, not_le.mp hhealth⟩
  · rintro ⟨hp, pos, hpos, hhealth⟩
    refine ⟨_, ⟨_, _⟩, refreshTick_eq_ok.mpr ⟨hp, rfl, rfl⟩, pos, ?_, ?_, rfl⟩
    · rw [getPosition_freshEnv, hpos]
    · simp only [fullClose, cfg_freshEnv]
      exact not_le.mpr hhealth

/-- A tick equal to the contract's selects as the contract does. -/
theorem selects_of_sameTick {config : KeeperConfig} {prices : S → Option ℤ}
    {tick : ProtocolMath.MarketTick} (hp : 0 < mark)
    (htick : (loadKeeperWorld env.mirrored prices env.timestamp).ticks symbol = some tick)
    (hsame : SameTick tick (env.freshTick symbol mark)) (caller trader : A) :
    (∃ c ∈ scanLiquidationCandidates (loadKeeperWorld env.mirrored prices env.timestamp) config,
      c.trader = trader ∧ c.symbol = symbol) ↔ env.Liquidatable caller trader symbol mark := by
  have hcfg : (loadKeeperWorld env.mirrored prices env.timestamp).protocolConfig =
      some env.protocolConfigRow := rfl
  have hrows : (loadKeeperWorld env.mirrored prices env.timestamp).positions =
      mapRows (fun _ pos => pos.row) env.pm.positions := rfl
  rw [mem_scanLiquidationCandidates hcfg, liquidatable_iff]
  have hhealth (pos : Position) : (tick.evaluate (ProtocolMath.toPositionState pos.row) none
      env.protocolConfigRow.fundingCutBps).effectiveHealth =
        ((env.freshTick symbol mark).evaluate pos pos.size pos.collateral
          env.cfg.protocolLimits.1.fundingCutBps).effectiveHealth :=
    (hsame.evaluate pos pos.size pos.collateral _).2.2.2.2.2
  constructor
  · rintro ⟨row, tick', hrow, htick', hlt⟩
    obtain rfl := Option.some.inj (htick.symm.trans htick')
    rw [hrows, lookup_mapRows] at hrow
    obtain ⟨pos, hpos, rfl⟩ := Option.map_eq_some_iff.mp hrow
    rw [hhealth pos] at hlt
    exact ⟨hp, pos, hpos, hlt⟩
  · rintro ⟨_, pos, hpos, hlt⟩
    refine ⟨pos.row, tick, ?_, htick, ?_⟩
    · have hpos' : env.pm.positions.lookup (trader, symbol) = some pos := hpos
      rw [hrows, lookup_mapRows, hpos', Option.map_some]
    · rw [hhealth pos]
      exact hlt

/-- The keeper agrees with the contract exactly when both bill a market alike. -/
theorem keeper_agrees_iff {config : KeeperConfig} {prices : S → Option ℤ}
    (hm : env.pm.markets.lookup symbol = some m) (hprice : prices symbol = some mark)
    (hp : 0 < mark) : env.KeeperAgrees config prices symbol mark ↔ env.SameAccrual m := by
  have htick := ticks_mirrored hm hprice
  rw [← same_indices_iff mark hm]
  constructor
  · intro h
    obtain ⟨tick, htick', hsame⟩ := h.tick
    obtain rfl := Option.some.inj (htick.symm.trans htick')
    exact ⟨hsame.accBorrowIndex, hsame.accFundingIndex⟩
  · rintro ⟨hb, hf⟩
    have hget : env.getMarket symbol = m := getMarket_of_lookup hm
    have hsame : SameTick (env.keeperTick symbol m mark) (env.freshTick symbol mark) := by
      refine sameTick_of_market hb hf ?_ ?_ rfl
      · have := env.openInterest_freshMarket symbol true
        rw [hget] at this
        exact this.symm
      · have := env.openInterest_freshMarket symbol false
        rw [hget] at this
        exact this.symm
    exact ⟨⟨_, htick, hsame⟩, selects_of_sameTick hp htick hsame⟩

end Agreement

/-! ## A market the keeper bills through a pause -/

/-- A long of ten times its collateral, opened half a minute before a pause. -/
def pausedLong : List (Op ℕ ℕ) :=
  [.increase ⟨2, 0, 10000000000, 1000000000, true, 0, 0, 0, 100⟩, .advance 30, .pause 0]

theorem keeper_agrees_iff_pausedLong :
    (deployed 100000000000 pausedLong).KeeperAgrees ⟨0⟩ (fun _ => some 92) 0 92 := by
  obtain ⟨m, hm, hsame⟩ := Option.bind_eq_some_iff.mp
    (show ((deployed 100000000000 pausedLong).pm.markets.lookup 0).bind (fun m =>
      let env := deployed 100000000000 pausedLong
      some (decide (env.grossBorrowRate * env.projectedSeconds m =
          env.borrowRate (VaultView.refresh env) * env.timeDelta m ∧
        env.exactFundingRate m * env.projectedSeconds m = env.fundingRate m * env.timeDelta m)))
      = some true by decide +kernel)
  obtain ⟨hborrow, hfunding⟩ := of_decide_eq_true (Option.some.inj hsame)
  exact (keeper_agrees_iff hm rfl (by decide)).mpr ⟨hborrow, hfunding⟩

/-- A year into the pause the keeper has billed the long away, which the contract
refuses to liquidate. -/
theorem keeper_disagrees : ¬ ∀ (env : Env ℕ ℕ) (config : KeeperConfig) (prices : ℕ → Option ℤ)
    (symbol : ℕ) (m : MarketInfo) (mark : ℤ), Reachable offsetErc env →
    env.pm.markets.lookup symbol = some m → prices symbol = some mark → 0 < mark →
    env.KeeperAgrees config prices symbol mark := by
  intro hagrees
  have hr := reachable_deployed 100000000000 (pausedLong ++ [.advance 31536000])
  generalize henv : deployed 100000000000 (pausedLong ++ [.advance 31536000]) = env at hr
  obtain ⟨m, hm, -⟩ := Option.bind_eq_some_iff.mp
    (show (env.pm.markets.lookup 0).bind (fun m => some m.longOpenInterest) = some 10000000000 by
      rw [← henv]; decide +kernel)
  obtain ⟨row, hrow, hhealth⟩ := Option.bind_eq_some_iff.mp
    (show (env.mirrored.positions.lookup (2, 0)).bind (fun row =>
      ((loadKeeperWorld env.mirrored (fun _ => some 92) env.timestamp).ticks 0).map fun tick =>
        decide ((tick.evaluate (ProtocolMath.toPositionState row) none
          env.protocolConfigRow.fundingCutBps).effectiveHealth <
            (row.collateral * env.protocolConfigRow.liquidationThresholdBps).tdiv bps))
      = some true by rw [← henv]; decide +kernel)
  obtain ⟨tick, htick, hhealth⟩ := Option.map_eq_some_iff.mp hhealth
  obtain ⟨result, hok⟩ :=
    ((hagrees env ⟨0⟩ (fun _ => some 92) 0 m 92 hr hm rfl (by decide)).scan 0 2).mp
      ((mem_scanLiquidationCandidates rfl).mpr
        ⟨row, tick, hrow, htick, of_decide_eq_true hhealth⟩)
  have hrefused : (env.liquidateRequest 0 2 0 92).toOption.isSome = false := by
    rw [← henv]; decide +kernel
  rw [hok] at hrefused
  cases hrefused

end Env

end Stellars
