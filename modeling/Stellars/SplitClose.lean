import Stellars.Accrual
import Stellars.SliceValue
import Stellars.WinnerPayout

/-!
# One close or two

A decrease hands one slice of the position to the settlement. Two decreases in
the same second see the same indices and the same mark, but the second one sees
the side of its position without the first slice.
-/
namespace Stellars
open GuardedRuns KeyedTotals TruncatedDivision

namespace Env

variable {A S : Type} [DecidableEq A] [DecidableEq S]

/-- The request an accepted `decrease_position` hands over. -/
def decreaseOf (env : Env A S) (trader : A) (symbol : S) (pos : Position) (size price : ℤ) :
    CloseRequest A S where
  trader := trader
  symbol := symbol
  pos := pos
  tick := env.freshTick symbol price
  sizeDelta := size
  collateralDelta := pos.releasedCollateral size
  eval := (env.freshTick symbol price).evaluate pos size (pos.releasedCollateral size)
    env.cfg.protocolLimits.1.fundingCutBps
  kind := .user
  executor := none

/-- A successful decrease of `size`. -/
structure Decreased (env env' : Env A S) (trader : A) (symbol : S) (pos : Position)
    (size price : ℤ) : Prop where
  size_pos : 0 < size
  ready : CloseReady env (env.freshEnv symbol) (env.decreaseOf trader symbol pos size price)
  effect : CloseEffect env env' (env.decreaseOf trader symbol pos size price)

section Decrease

variable {erc : Erc4626} {env env' : Env A S} {trader : A} {symbol : S} {pos : Position}
  {size acceptablePrice price : ℤ}

theorem closeRequest_decrease_iff {env1 : Env A S} {r : CloseRequest A S} :
    env.closeRequest (.decrease trader symbol size acceptablePrice price) = .ok (env1, r) ↔
      ∃ pos, env.getPosition trader symbol = some pos ∧ 0 < size ∧ size ≤ pos.size ∧ 0 < price ∧
        pos.lastIncreasedTime + env.cfg.protocolLimits.1.minPositionLifetime ≤ env.timestamp ∧
        ¬ (acceptablePrice > 0 ∧ pos.isLong = true ∧ price < acceptablePrice) ∧
        ¬ (acceptablePrice > 0 ∧ pos.isLong = false ∧ price > acceptablePrice) ∧
        env1 = env.freshEnv symbol ∧ r = env.decreaseOf trader symbol pos size price := by
  simp only [closeRequest, decreaseRequest, bind_eq_ok, orFail_eq_ok,
    failIf_eq_ok, requireOldEnough, exists_const, Except.ok.injEq, Prod.mk.injEq, not_lt, not_le,
    Prod.exists, refreshTick_eq_ok]
  constructor
  · rintro ⟨h0, pos, hpos, hage, env2, tick, ⟨hprice, rfl, rfl⟩, hlong, hshort, hle, rfl, rfl⟩
    exact ⟨pos, hpos, h0, hle, hprice, hage, hlong, hshort, rfl, rfl⟩
  · rintro ⟨pos, hpos, h0, hle, hprice, hage, hlong, hshort, rfl, rfl⟩
    exact ⟨h0, pos, hpos, hage, _, _, ⟨hprice, rfl, rfl⟩, hlong, hshort, hle, rfl, rfl⟩

theorem decrease_ok
    (h : env.closePosition (.decrease trader symbol size acceptablePrice price) = .ok env') :
    ∃ pos, Decreased env env' trader symbol pos size price := by
  obtain ⟨⟨env1, r⟩, hrequest, hclose⟩ := bind_eq_ok.mp h
  obtain ⟨hready, -⟩ := closeRequest_ok hrequest
  obtain ⟨pos, -, h0, -, -, -, -, -, rfl, rfl⟩ := closeRequest_decrease_iff.mp hrequest
  exact ⟨pos, h0, hready, executeClose_ok hclose⟩

/-- A close by the trader pays the whole payout, and the escrow with the last
slice. -/
theorem closeUsdc_trader (hb : Books env) {env1 : Env A S}
    (hr : CloseReady env env1 (env.decreaseOf trader symbol pos size price)) :
    env.closeUsdc (env.decreaseOf trader symbol pos size price) (.account trader) =
      env.usdc (.account trader) + max ((env.freshTick symbol price).sliceHealth pos size
        env.cfg.protocolLimits.1.fundingCutBps) 0 +
          (if size = pos.size then pos.executionFeeEscrow else 0) := by
  have hcol := (hr.collateralDelta_bounds hb).1
  have hesc : 0 ≤ pos.executionFeeEscrow := (hb.wellFormed _ _ hr.position).escrow_nonneg
  have hle : size ≤ pos.size := hr.size_le
  set r := env.decreaseOf trader symbol pos size price with hrdef
  have hpayout : r.traderPayout = max ((env.freshTick symbol price).sliceHealth pos size
      env.cfg.protocolLimits.1.fundingCutBps) 0 := r.traderPayout_eq_max
  have hpaid : env.closeTransfers r (.account trader) =
      env.usdc (.account trader) + r.traderPayout := by
    change moveUsdc (moveUsdc (moveUsdc env.usdc .vault (.account trader) (max r.vaultToTrader 0))
      .positionManager .vault (max (r.vaultAbsorbed env.cfg.feeConfig.1) 0)) .positionManager
        (.account trader) (max r.pmToTrader 0) (.account trader) = _
    rw [moveUsdc_dst _ _ (by simp), moveUsdc_other _ _ (by simp) (by simp),
      moveUsdc_dst _ _ (by simp), add_assoc, r.traderPayout_split hcol]
  change settledUsdc (env.closeTransfers r)
    (if decide (size < pos.size) then none else some (.account trader)) pos.executionFeeEscrow
      (.account trader) = _
  rw [← hpayout, ← hpaid]
  by_cases hfull : size = pos.size
  · rw [if_neg (by simp [hfull]), if_pos hfull, settledUsdc, moveUsdc_dst _ _ (by simp),
      max_eq_left hesc]
  · have hlt : size < pos.size := lt_of_le_of_ne hle hfull
    rw [if_pos (by simpa using hlt), if_neg hfull, settledUsdc, add_zero]

variable (h : Decreased env env' trader symbol pos size price)
include h

theorem Decreased.usdc_trader (hb : Books env) :
    env'.usdc (.account trader) = env.usdc (.account trader) +
      max ((env.freshTick symbol price).sliceHealth pos size
        env.cfg.protocolLimits.1.fundingCutBps) 0 +
          (if size = pos.size then pos.executionFeeEscrow else 0) := by
  rw [h.effect.usdc]
  exact closeUsdc_trader hb h.ready

theorem Decreased.getPosition (hlt : size < pos.size) :
    env'.getPosition trader symbol = some (pos.withoutSlice size) := by
  have hpart : (env.decreaseOf trader symbol pos size price).sizeDelta ≠
      (env.decreaseOf trader symbol pos size price).pos.size := hlt.ne
  rw [Env.getPosition, h.effect.positions, settledPositions, if_neg hpart]
  exact AList.lookup_insert _

/-- The next decrease in the same second finds the market as this one left it. -/
theorem Decreased.freshMarket : env'.freshMarket symbol =
    (env.decreaseOf trader symbol pos size price).closedMarket := by
  have hnames : CloseNames (.decrease trader symbol size 0 price)
      (env.decreaseOf trader symbol pos size price) := ⟨rfl, rfl, rfl, rfl⟩
  have heff : Effect offsetErc env (.close (.decrease trader symbol size 0 price)) env' :=
    .close hnames h.ready h.effect
  have hbilled : env'.unbilled symbol = 0 :=
    unbilled_refreshed (effect_refreshes heff rfl)
  have hsame : env'.freshMarket symbol = env'.getMarket symbol := by
    rw [Env.freshMarket, accrue, if_neg]
    rw [unbilled] at hbilled
    omega
  rw [hsame]
  exact getMarket_of_insert h.effect.markets

/-- It keeps the indices and the other side, and shrinks its own side. -/
theorem Decreased.freshMarket_reads :
    (env'.freshMarket symbol).accBorrowIndex = (env.freshMarket symbol).accBorrowIndex ∧
      (env'.freshMarket symbol).accFundingIndex = (env.freshMarket symbol).accFundingIndex ∧
      (env'.freshMarket symbol).openInterest (!pos.isLong) =
        (env.freshMarket symbol).openInterest (!pos.isLong) ∧
      (env'.freshMarket symbol).openInterest pos.isLong =
        (env.freshMarket symbol).openInterest pos.isLong - size := by
  rw [h.freshMarket]
  refine ⟨MarketInfo.accBorrowIndex_setSide _ _ _ _, MarketInfo.accFundingIndex_setSide _ _ _ _,
    ?_, ?_⟩
  · exact (MarketInfo.openInterest_setSide _ _ _ _ _).trans (if_neg (by simp [decreaseOf]))
  · exact (MarketInfo.openInterest_setSide _ _ _ _ _).trans (if_pos rfl)

theorem Decreased.size_le_side (hb : Books env) :
    size ≤ (env.freshMarket symbol).openInterest pos.isLong := by
  rw [openInterest_freshMarket]
  exact h.ready.sizeDelta_le_side hb

end Decrease

/-! ## Splitting a close -/

section Split

variable {erc : Erc4626} {env envS env1 env2 : Env A S} {trader : A} {symbol : S}
  {pos : Position} {first second acceptablePrice price : ℤ}

/-- Health of the two slices and of the whole, each near its share at one rate. -/
theorem split_health_near (hb : Books env) (hfirst : 0 < first)
    (hsecond : 0 < second)
    (hdS : Decreased env envS trader symbol pos (first + second) price)
    (hd1 : Decreased env env1 trader symbol pos first price)
    (hunscaled : (env.freshMarket symbol).Unscaled pos) :
    let cut := env.cfg.protocolLimits.1.fundingCutBps
    let tick := env.freshTick symbol price
    ∃ rate : ℚ, |(tick.sliceHealth pos (first + second) cut : ℚ) - rate * (first + second : ℤ)| ≤
        (5 : ℤ) ∧
      |(tick.sliceHealth pos first cut : ℚ) - rate * first| ≤ (5 : ℤ) ∧
      |((env1.freshTick symbol price).sliceHealth (pos.withoutSlice first) second cut : ℚ) -
        rate * second| ≤ (6 : ℤ) := by
  intro cut tick
  have hw := hb.wellFormed _ _ hdS.ready.position
  have hentry : 0 < pos.entryPrice := hw.entry_pos
  have hsize : 0 < pos.size := hw.size_pos
  have hle : first + second ≤ pos.size := hdS.ready.size_le
  have hside := hdS.size_le_side hb
  have hcut : cut ≤ 10000 := by
    have hok := (ProtocolLimits.validate_ok env.cfg.protocolLimits.2).2.2.2.1
    exact hok.trans (by decide)
  obtain ⟨hborrow, hfunding, hother, hown⟩ := hd1.freshMarket_reads
  obtain ⟨rate, hrate⟩ := fundingShare_near hcut hunscaled
  have hwhole : ∀ size, 0 < size → size ≤ first + second →
      |(tick.sliceHealth pos size cut : ℚ) - tick.healthRate pos rate * size| ≤ (5 : ℤ) := by
    intro size h0 hmax
    have hshare := hrate tick.market size rfl rfl le_rfl h0 (hmax.trans hle) (hmax.trans hside)
    have hcol := (releasedCollateral_near hsize size).le
    exact health_near tick 1 hentry (by exact_mod_cast hcol) hshare
  have hsum := hwhole (first + second) (add_pos hfirst hsecond) le_rfl
  have hhead := hwhole first hfirst (le_add_of_nonneg_right hsecond.le)
  have hshare := hrate (env1.freshMarket symbol) second hfunding hother
    (by rw [hown]; exact Int.sub_le_self _ hfirst.le) hsecond (by omega)
    (by rw [hown]; exact le_sub_iff_add_le'.mpr hside)
  have hcol := (releasedCollateral_withoutSlice_near hfirst hsecond hle).le
  have hnear := health_near tick 2 hentry (by exact_mod_cast hcol) hshare
  have htail : |((env1.freshTick symbol price).sliceHealth (pos.withoutSlice first) second cut : ℚ) -
      tick.healthRate pos rate * second| ≤ (6 : ℤ) := by
    have hmarket : (env1.freshTick symbol price).market = env1.freshMarket symbol := rfl
    rw [MarketTick.sliceHealth_eq, hmarket, hborrow]
    exact hnear
  exact ⟨tick.healthRate pos rate, hsum, hhead, htail⟩

/-- In a reachable state, two decreases in the same second at the same mark pay at
most sixteen raw units more than one, unless the position receives scaled-down
funding. -/
theorem split_close_le (hr : Reachable erc env) (hfirst : 0 < first) (hsecond : 0 < second)
    (hS : env.apply erc (.close (.decrease trader symbol (first + second) acceptablePrice price)) =
      .ok envS)
    (h1 : env.apply erc (.close (.decrease trader symbol first acceptablePrice price)) = .ok env1)
    (h2 : env1.apply erc (.close (.decrease trader symbol second acceptablePrice price)) =
      .ok env2)
    (hpos : env.getPosition trader symbol = some pos)
    (hunscaled : (env.freshMarket symbol).Unscaled pos) :
    env2.usdc (.account trader) ≤ envS.usdc (.account trader) + 16 := by
  have hb := reachable_books hr
  have hb1 := effect_books hb (apply_effect h1)
  obtain ⟨posS, hdS⟩ := decrease_ok hS
  obtain ⟨pos1, hd1⟩ := decrease_ok h1
  obtain rfl : pos = posS := Option.some.inj (hpos.symm.trans hdS.ready.position)
  obtain rfl : pos = pos1 := Option.some.inj (hpos.symm.trans hd1.ready.position)
  have hleS : first + second ≤ pos.size := hdS.ready.size_le
  have hlt1 : first < pos.size := by omega
  obtain ⟨rest, hd2⟩ := decrease_ok h2
  obtain rfl : rest = pos.withoutSlice first :=
    Option.some.inj (hd2.ready.position.symm.trans (hd1.getPosition hlt1))
  obtain ⟨rate, hwhole, hhead, htail⟩ :=
    split_health_near hb hfirst hsecond hdS hd1 hunscaled
  have hsign : 0 ≤ rate * first ∧ 0 ≤ rate * second ∨ rate * first ≤ 0 ∧ rate * second ≤ 0 := by
    have hf : (0 : ℚ) ≤ first := by exact_mod_cast hfirst.le
    have hs : (0 : ℚ) ≤ second := by exact_mod_cast hsecond.le
    obtain h0 | h0 := le_total 0 rate
    · exact .inl ⟨mul_nonneg h0 hf, mul_nonneg h0 hs⟩
    · exact .inr ⟨mul_nonpos_of_nonpos_of_nonneg h0 hf, mul_nonpos_of_nonpos_of_nonneg h0 hs⟩
  rw [Int.cast_add, mul_add] at hwhole
  have hpaid := max_zero_add_le hsign hhead htail hwhole
  have hescrow : (if second = (pos.withoutSlice first).size then
      (pos.withoutSlice first).executionFeeEscrow else 0) =
        if first + second = pos.size then pos.executionFeeEscrow else 0 := by
    simp only [Position.withoutSlice]
    split_ifs <;> first | rfl | omega
  rw [hd2.usdc_trader hb1, hd1.usdc_trader hb, hdS.usdc_trader hb, hd1.effect.cfg, hescrow,
    if_neg hlt1.ne]
  omega

/-- A day after opening, a long of 10000 closes 3000 and 2000, or 5000 at once. -/
theorem split_close_le_deployed :
    let env := deployed 1000000000000
      [.increase ⟨2, 0, 100000000000, 10000000000, true, 0, 0, 0, 1000000000⟩, .advance 86400]
    ∃ envS env1 env2, env.apply offsetErc
        (.close (.decrease 2 0 (30000000000 + 20000000000) 0 1010000000)) = .ok envS ∧
      env.apply offsetErc (.close (.decrease 2 0 30000000000 0 1010000000)) = .ok env1 ∧
      env1.apply offsetErc (.close (.decrease 2 0 20000000000 0 1010000000)) = .ok env2 ∧
      env2.usdc (.account 2) ≤ envS.usdc (.account 2) + 16 := by
  intro env
  obtain ⟨envS, hS, -⟩ := exists_ok_of_bind_eq_some (x := env.apply offsetErc
    (.close (.decrease 2 0 (30000000000 + 20000000000) 0 1010000000)))
    (f := fun _ => some true) (b := true) (by decide +kernel)
  obtain ⟨env1, h1, hrest⟩ := exists_ok_of_bind_eq_some (x := env.apply offsetErc
    (.close (.decrease 2 0 30000000000 0 1010000000)))
    (f := fun env1 => (env1.apply offsetErc
      (.close (.decrease 2 0 20000000000 0 1010000000))).toOption.bind fun _ => some true)
    (b := true) (by decide +kernel)
  obtain ⟨env2, h2, -⟩ := exists_ok_of_bind_eq_some hrest
  have hread : (env.getPosition 2 0).map (fun pos => decide ((env.freshMarket 0).Unscaled pos)) =
      some true := by decide +kernel
  obtain ⟨pos, hpos, hunscaled⟩ := Option.map_eq_some_iff.mp hread
  exact ⟨envS, env1, env2, hS, h1, h2, split_close_le (reachable_deployed _ _) (by norm_num)
    (by norm_num) hS h1 h2 hpos (of_decide_eq_true hunscaled)⟩

end Split

/-! ## States in which splitting gains -/

section Family

def richAccounts : Party ℕ → ℕ
  | .account i => 1000000000000000 * (i + 1)
  | _ => 0

/-- Borrowing and opening are free and funding runs at three percent a year. -/
def fundingOps : List (Op ℕ ℕ) := setup 1000000000000 ++
  [.config 0 (.updateBorrowRateConfig ⟨0, 0, 0, 8000, 300⟩),
    .config 0 (.updateProtocolLimits ⟨10000000, 300, 0, 8500, 0, 9000, 9500, 200⟩),
    .config 0 (.setFeeConfig ⟨0, 100, 5000000⟩),
    .increase ⟨3, 0, 40000000000, 4000000000, true, 0, 0, 0, 1000000000⟩,
    .increase ⟨2, 0, 20000000000, 2000000000, false, 0, 0, 0, 1000000000⟩]

/-- Account 3 is long 4000 and account 2 short 2000, both entered at 100. -/
def fundingOpened : Env ℕ ℕ := run (step offsetErc) (genesis 0 richAccounts 1000) fundingOps

def holder (isLong : Bool) : ℕ := if isLong then 3 else 2

def fundingPosition (isLong : Bool) (size collateral : ℤ) : Position where
  collateral := collateral
  size := size
  entryPrice := 1000000000
  entryBorrowIndex := indexPrecision
  entryFundingIndex := indexPrecision
  isLong := isLong
  lastIncreasedTime := 1000
  takeProfit := 0
  stopLoss := 0
  executionFeeEscrow := 0

/-- After `years` of funding from longs to shorts, with `size` still open on each
side and `room` left in the vault. -/
structure FundingStage (env : Env ℕ ℕ) (years : ℕ) (size collateral : Bool → ℤ) (room : ℤ) :
    Prop where
  reachable : Reachable offsetErc env
  position : ∀ b, env.getPosition (holder b) 0 =
    some (fundingPosition b (size b) (collateral b))
  side : ∀ b, (env.freshMarket 0).openInterest b = size b
  avg : ∀ b, (env.freshMarket 0).avgPrice b = 1000000000
  borrow : (env.freshMarket 0).accBorrowIndex = indexPrecision
  funding : (env.freshMarket 0).accFundingIndex = indexPrecision + 1000000000000 * years
  cut : env.cfg.protocolLimits.1.fundingCutBps = 0
  lifetime : env.cfg.protocolLimits.1.minPositionLifetime = 0
  time : 1000 ≤ env.timestamp
  total : env.pm.totalUnrealizedPnl = 0
  cached : env.getMarketUnrealizedPnl 0 = 0
  net : env.vault.netGlobalTraderPnl = 0
  room_le : room ≤ env.totalAssets - env.vault.unclaimedFees - env.vault.reservedUsdc

variable {env env' : Env ℕ ℕ} {years : ℕ} {size collateral : Bool → ℤ} {room x : ℤ} {b : Bool}

/-- At the entry price and without fees, funding is all a slice earns. -/
theorem FundingStage.evaluate (hs : FundingStage env years size collateral room) (b : Bool)
    (x : ℤ) :
    let pos := fundingPosition b (size b) (collateral b)
    let r := env.decreaseOf (holder b) 0 pos x 1000000000
    r.netEconomicPnl = (env.freshMarket 0).fundingShare pos x 0 ∧
      (env.freshTick 0 1000000000).sliceHealth pos x env.cfg.protocolLimits.1.fundingCutBps =
        pos.releasedCollateral x + (env.freshMarket 0).fundingShare pos x 0 ∧
      ∀ feeConfig, r.distributableFees feeConfig ≤ 0 := by
  intro pos r
  have hpnl : calcUnrealizedPnl x pos.entryPrice 1000000000 pos.isLong = 0 := by
    rw [show pos.entryPrice = 1000000000 from rfl, calcUnrealizedPnl_of_pos _ _ (by decide)]
    cases b <;> simp [pos, priceDiff, fundingPosition]
  have hborrow : calcBorrowFee x pos.entryBorrowIndex
      (env.freshTick 0 1000000000).market.accBorrowIndex = 0 := by
    rw [show (env.freshTick 0 1000000000).market.accBorrowIndex = indexPrecision from hs.borrow]
    simp [pos, fundingPosition, calcBorrowFee]
  have hevalPnl : r.eval.pnl = 0 := hpnl
  have hevalBorrow : r.eval.borrowFee = 0 := hborrow
  have hevalFunding : r.eval.effectiveFunding = (env.freshMarket 0).fundingShare pos x
      env.cfg.protocolLimits.1.fundingCutBps := rfl
  have hevalCut : r.eval.fundingProtocolCut = 0 := by
    change fundingCut env.cfg.protocolLimits.1.fundingCutBps _ = 0
    rw [hs.cut, fundingCut]
    simp
  refine ⟨?_, ?_, fun feeConfig => ?_⟩
  · rw [CloseRequest.netEconomicPnl, hevalPnl, hevalBorrow, hevalFunding, hs.cut]
    ring
  · rw [MarketTick.sliceHealth_eq, hborrow, hs.cut]
    change _ + calcUnrealizedPnl x pos.entryPrice 1000000000 pos.isLong - _ + _ = _
    rw [hpnl]
    simp only [add_zero, sub_zero]
    rfl
  · simp only [CloseRequest.distributableFees, hevalBorrow, hevalCut]
    split_ifs
    · exact le_rfl
    · exact min_le_left _ _

/-- A slice closes when the funding it earns fits the room in the vault. -/
theorem FundingStage.succeeds (hs : FundingStage env years size collateral room) (h0 : 0 < x)
    (hle : x ≤ size b)
    (hroom : max ((env.freshMarket 0).fundingShare
      (fundingPosition b (size b) (collateral b)) x 0) 0 ≤ room + x) :
    ∃ env', env.apply offsetErc (.close (.decrease (holder b) 0 x 0 1000000000)) = .ok env' ∧
      Decreased env env' (holder b) 0 (fundingPosition b (size b) (collateral b)) x
        1000000000 := by
  have hb := reachable_books hs.reachable
  have hage : (fundingPosition b (size b) (collateral b)).lastIncreasedTime +
      env.cfg.protocolLimits.1.minPositionLifetime ≤ env.timestamp := by
    rw [hs.lifetime]
    exact hs.time
  have hrequest : env.closeRequest (.decrease (holder b) 0 x 0 1000000000) = .ok (_, _) :=
    closeRequest_decrease_iff.mpr ⟨_, hs.position b, h0, hle, (by decide : (0 : ℤ) < 1000000000),
      hage, by simp, by simp, rfl, rfl⟩
  obtain ⟨hready, -⟩ := closeRequest_ok hrequest
  obtain ⟨hnet, -, hfees⟩ := hs.evaluate b x
  have hpay := hready.vaultToTrader_cases hb
  have hroomLe := hs.room_le
  have hsize : (env.decreaseOf (holder b) 0 (fundingPosition b (size b) (collateral b)) x
    1000000000).sizeDelta = x := rfl
  rw [hnet] at hpay
  have hcovers : env.owed (env.decreaseOf (holder b) 0
      (fundingPosition b (size b) (collateral b)) x 1000000000) ≤ env.totalAssets -
        env.vault.unclaimedFees - (env.vault.reservedUsdc - x) := by
    rw [owed, feeSlice_of_nonpos _ (hfees _)]
    omega
  have hfits : ProfitFitsCache env (env.decreaseOf (holder b) 0
      (fundingPosition b (size b) (collateral b)) x 1000000000) := by
    rw [ProfitFitsCache, hnet, hs.net, hsize]
    omega
  obtain ⟨env', hclose⟩ := covered_close_succeeds hs.reachable hready (by simp [decreaseOf])
    hcovers hfits
  have happly : env.apply offsetErc (.close (.decrease (holder b) 0 x 0 1000000000)) = .ok env' := by
    rw [apply, closePosition_of_request hrequest]
    exact hclose
  exact ⟨env', happly, h0, hready, executeClose_ok hclose⟩

section Next

variable (hs : FundingStage env years size collateral room)
  (hd : Decreased env env' (holder b) 0 (fundingPosition b (size b) (collateral b)) x 1000000000)
  (hlt : x < size b)
include hs

include hlt in
/-- A slice leaves at the average of its side, which therefore stays. -/
theorem FundingStage.closedMarket_eq :
    (env.decreaseOf (holder b) 0 (fundingPosition b (size b) (collateral b)) x
      1000000000).closedMarket = (env.freshMarket 0).setSide b (size b - x) 1000000000 := by
  change (env.freshMarket 0).setSide b ((env.freshMarket 0).openInterest b - x)
    (removeFromGlobalAvgPrice ((env.freshMarket 0).avgPrice b)
      ((env.freshMarket 0).openInterest b) 1000000000 x) = _
  rw [hs.side, hs.avg, removeFromGlobalAvgPrice_same (by decide) hlt]

/-- At the price everyone entered at, no profit is pushed. -/
theorem FundingStage.flat (oi : ℤ) :
    ((env.freshMarket 0).setSide b oi 1000000000).unrealizedPnl 1000000000 = 0 ∧
      env.totalPnlWith 0 0 = 0 := by
  constructor
  · rw [MarketInfo.unrealizedPnl_eq_sides]
    simp [MarketInfo.sidePnl, priceDiff, hs.avg]
  · rw [totalPnlWith, hs.total, hs.cached]
    rfl

include hd hlt

theorem FundingStage.position_next (b' : Bool) : env'.getPosition (holder b') 0 =
    some (fundingPosition b' (Function.update size b (size b - x) b')
      (Function.update collateral b (collateral b - (collateral b * x).tdiv (size b)) b')) := by
  by_cases he : b' = b
  · rw [he, hd.getPosition hlt, Function.update_self, Function.update_self]
    have hreleased : (fundingPosition b (size b) (collateral b)).releasedCollateral x =
        (collateral b * x).tdiv (size b) := if_neg hlt.ne
    rw [Position.withoutSlice, hreleased]
    rfl
  · have hkey : (holder b', (0 : ℕ)) ≠ (holder b, 0) := by
      cases b <;> cases b' <;> simp_all [holder]
    rw [Function.update_of_ne he, Function.update_of_ne he, ← hs.position b', Env.getPosition,
      hd.effect.positions]
    exact lookup_settledPositions_of_ne hkey

omit hlt in
/-- The vault loses what the slice earns and gains room for its size. -/
theorem FundingStage.room_next : room - max ((env.freshMarket 0).fundingShare
      (fundingPosition b (size b) (collateral b)) x 0) 0 ≤
    env'.totalAssets - env'.vault.unclaimedFees - env'.vault.reservedUsdc := by
  obtain ⟨hnet, -, hfees⟩ := hs.evaluate b x
  set r := env.decreaseOf (holder b) 0 (fundingPosition b (size b) (collateral b)) x 1000000000
    with hr
  have hassets : env'.totalAssets = env.totalAssets - max r.vaultToTrader 0 +
      max (r.vaultAbsorbed env.cfg.feeConfig.1) 0 := by
    rw [totalAssets, hd.effect.usdc, closeUsdc_vault, closeTransfers_vault]
    exact add_zero _
  have hunclaimed : env'.vault.unclaimedFees = env.vault.unclaimedFees := by
    rw [hd.effect.unclaimedFees, feeSlice_of_nonpos _ (hfees _)]
    exact (add_zero _).trans (add_zero _)
  have hreserved : env'.vault.reservedUsdc = env.vault.reservedUsdc - x := by
    rw [hd.effect.reservedUsdc]
    exact congrArg _ (max_eq_left hd.size_pos.le)
  have hpay := hd.ready.vaultToTrader_cases (reachable_books hs.reachable)
  rw [← hr, hnet] at hpay
  rw [hassets, hunclaimed, hreserved]
  have hroom := hs.room_le
  have habsorbed := le_max_right (r.vaultAbsorbed env.cfg.feeConfig.1) 0
  have hx := hd.size_pos
  omega

/-- A slice that leaves a remainder leaves the same stage with less on its side. -/
theorem FundingStage.next
    (hok : env.apply offsetErc (.close (.decrease (holder b) 0 x 0 1000000000)) = .ok env') :
    FundingStage env' years (Function.update size b (size b - x))
      (Function.update collateral b (collateral b - (collateral b * x).tdiv (size b)))
      (room - max ((env.freshMarket 0).fundingShare
        (fundingPosition b (size b) (collateral b)) x 0) 0) := by
  have hclosed := hs.closedMarket_eq hlt
  have hmarket : env'.freshMarket 0 = _ := hd.freshMarket.trans hclosed
  obtain ⟨hflat, htotal⟩ := hs.flat (b := b) (size b - x)
  rw [← hclosed] at hflat
  rw [← congrArg (env.totalPnlWith 0) hflat] at htotal
  refine ⟨hs.reachable.apply hok, hs.position_next hd hlt, ?_, ?_, ?_, ?_, ?_, ?_, ?_, ?_, ?_, ?_,
    hs.room_next hd⟩
  · intro b'
    rw [hmarket, MarketInfo.openInterest_setSide, hs.side, Function.update_apply]
  · intro b'
    rw [hmarket, MarketInfo.avgPrice_setSide, hs.avg, ite_self]
  · rw [hmarket, MarketInfo.accBorrowIndex_setSide, hs.borrow]
  · rw [hmarket, MarketInfo.accFundingIndex_setSide, hs.funding]
  · rw [hd.effect.cfg, hs.cut]
  · rw [hd.effect.cfg, hs.lifetime]
  · rw [hd.effect.timestamp]
    exact hs.time
  · rw [hd.effect.pm]
    exact htotal
  · rw [getMarketUnrealizedPnl_pushed (pnlPushed_close hd.effect)]
    exact (if_pos rfl).trans hflat
  · rw [hd.effect.vault]
    exact htotal

end Next

/-- What account 10 or a later one can send. -/
def donated (years : ℕ) : ℤ := 1000000000000000 * (years + 11)

/-- Another account tops up the vault, and `years` go by. -/
def fundingAccrued (years : ℕ) : Env ℕ ℕ :=
  run (step offsetErc) fundingOpened
    [.transferUsdc (years + 10) .vault (donated years), .advance (31536000 * years)]

theorem usdc_fundingOpened (years : ℕ) :
    fundingOpened.usdc (.account (years + 10)) = donated years := by
  have hspared : ∀ op ∈ fundingOps, Spares (years + 10) op := by
    simp [fundingOps, setup, Spares, CloseCall.trader]
  rw [fundingOpened, run_usdc_spared fundingOps hspared]
  simp only [genesis, richAccounts, donated]
  push_cast
  ring

theorem run_donate_wait {env : Env ℕ ℕ} {src seconds : ℕ} {amount : ℤ} (h0 : 0 ≤ amount)
    (hfunds : amount ≤ env.usdc (.account src)) :
    run (step offsetErc) env [.transferUsdc src .vault amount, .advance seconds] =
      { env with
        timestamp := env.timestamp + seconds
        usdc := moveUsdc env.usdc (.account src) .vault amount } := by
  have hsent : env.apply offsetErc (.transferUsdc src .vault amount) =
      .ok (env.setUsdc (moveUsdc env.usdc (.account src) .vault amount)) :=
    transfer_eq_ok.mpr ⟨h0, hfunds, rfl⟩
  simp only [run_cons, run_nil, step, hsent]
  rfl

theorem fundingAccrued_eq (years : ℕ) : fundingAccrued years =
    { fundingOpened with
      timestamp := fundingOpened.timestamp + 31536000 * years
      usdc := moveUsdc fundingOpened.usdc (.account (years + 10)) .vault (donated years) } := by
  have h0 : 0 ≤ donated years := by
    unfold donated
    positivity
  exact run_donate_wait h0 (usdc_fundingOpened years).ge

/-- What the opening run stores. -/
theorem fundingOpened_reads :
    fundingOpened.pm.positions.lookup (3, 0) =
        some (fundingPosition true 40000000000 4000000000) ∧
      fundingOpened.pm.positions.lookup (2, 0) =
        some (fundingPosition false 20000000000 2000000000) ∧
      fundingOpened.pm.markets.lookup 0 = some ⟨1000000000, 1000000000, 40000000000,
        20000000000, indexPrecision, indexPrecision, 1000⟩ ∧
      fundingOpened.timestamp = 1000 ∧ fundingOpened.pm.isPaused = false ∧
      fundingOpened.pm.lastUnpauseTime = 0 ∧
      fundingOpened.cfg.borrowRateConfig.1 = ⟨0, 0, 0, 8000, 300⟩ ∧
      fundingOpened.cfg.protocolLimits.1 = ⟨10000000, 300, 0, 8500, 0, 9000, 9500, 200⟩ ∧
      fundingOpened.pm.totalUnrealizedPnl = 0 ∧ fundingOpened.getMarketUnrealizedPnl 0 = 0 ∧
      fundingOpened.vault.netGlobalTraderPnl = 0 ∧ fundingOpened.vault.unclaimedFees = 0 ∧
      fundingOpened.vault.reservedUsdc = 60000000000 ∧
      fundingOpened.usdc .vault = 1000000000000 := by
  decide +kernel

/-- A year at one percent adds a hundredth of the precision to the funding index. -/
theorem accumulateFundingIndex_years (index : ℤ) (years : ℕ) :
    accumulateFundingIndex index 100 (31536000 * years) = index + 1000000000000 * years := by
  have hnum : 100 * indexPrecision * ((31536000 * years : ℕ) : ℤ) =
      bps * secondsPerYear * (1000000000000 * years) := by
    unfold indexPrecision bps secondsPerYear
    push_cast
    ring
  rw [accumulateFundingIndex, hnum, Int.mul_tdiv_cancel_left _ (by decide)]

theorem fundingStage (years : ℕ) : FundingStage (fundingAccrued years) years
    (fun b => if b then 40000000000 else 20000000000)
    (fun b => if b then 4000000000 else 2000000000) (donated years) := by
  have hreach : Reachable offsetErc (fundingAccrued years) := by
    refine ⟨0, richAccounts, 1000, fundingOps ++ [.transferUsdc (years + 10) .vault (donated years),
      .advance (31536000 * years)], ?_⟩
    rw [run_append]
    rfl
  obtain ⟨hlong, hshort, hmarket, htime, hawake, hunpause, hrates, hlimits, htotal, hcached, hnet,
    hunclaimed, hreserved, hvault⟩ := fundingOpened_reads
  have heq := fundingAccrued_eq years
  generalize fundingAccrued years = env at heq hreach ⊢
  have hstored : env.getMarket 0 = ⟨1000000000, 1000000000, 40000000000, 20000000000,
      indexPrecision, indexPrecision, 1000⟩ := by
    rw [getMarket, heq, hmarket]
    rfl
  have hdelta : env.timeDelta (env.getMarket 0) = 31536000 * years := by
    have hawake' : env.pm.isPaused = false := by rw [heq, hawake]
    rw [timeDelta_awake _ hawake', hstored]
    simp only [heq, htime, hunpause]
    omega
  have hfree : env.borrowRate (VaultView.refresh env) = 0 := by
    simp only [borrowRate, heq, hrates]
    simp [calcBorrowRate]
  have hfundingRate : env.fundingRate (env.getMarket 0) = 100 := by
    rw [hstored]
    simp only [fundingRate, heq, hrates]
    decide
  refine ⟨hreach, ?_, ?_, ?_, ?_, ?_, ?_, ?_, ?_, ?_, ?_, ?_, ?_⟩
  · intro b
    rw [getPosition, heq]
    cases b with
    | false => exact hshort
    | true => exact hlong
  · intro b
    rw [openInterest_freshMarket, hstored]
    cases b <;> rfl
  · intro b
    rw [avgPrice_freshMarket, hstored]
    cases b <;> rfl
  · rw [freshMarket, accBorrowIndex_accrue, hfree, hstored]
    simp [accumulateBorrowIndex]
  · rw [freshMarket, accFundingIndex_accrue, hfundingRate, hdelta, accumulateFundingIndex_years,
      hstored]
  · rw [heq, hlimits]
  · rw [heq, hlimits]
  · rw [heq, htime]
    exact Nat.le_add_right _ _
  · rw [heq, htotal]
  · rw [getMarketUnrealizedPnl, heq]
    exact hcached
  · rw [heq, hnet]
  · rw [totalAssets, heq]
    simp only [moveUsdc_dst _ _ (show Party.account (years + 10) ≠ .vault by simp), hunclaimed,
      hreserved, hvault]
    omega

theorem FundingStage.fee (hs : FundingStage env years size collateral room) (y : ℤ) :
    ((fundingPosition b (size b) (collateral b)).fundingDelta (env.freshMarket 0) *
      (100 * y)).tdiv indexPrecision = if b then -(years * y) else years * y := by
  have hprecision : indexPrecision ≠ 0 := by decide
  rw [Position.fundingDelta, hs.funding]
  cases b with
  | false =>
      simp only [fundingPosition, Bool.false_eq_true, if_false, add_sub_cancel_left]
      rw [show (1000000000000 * (years : ℤ)) * (100 * y) = indexPrecision * (years * y) by
        unfold indexPrecision; ring, Int.mul_tdiv_cancel_left _ hprecision]
  | true =>
      simp only [fundingPosition, if_true]
      rw [show (indexPrecision - (indexPrecision + 1000000000000 * (years : ℤ))) * (100 * y) =
        indexPrecision * -(years * y) by unfold indexPrecision; ring,
        Int.mul_tdiv_cancel_left _ hprecision]

/-- Longs pay, so a slice of the long side earns nothing. -/
theorem FundingStage.share_long (hs : FundingStage env years size collateral room) {y : ℤ}
    (hy : 0 ≤ y) : max ((env.freshMarket 0).fundingShare
      (fundingPosition true (size true) (collateral true)) (100 * y) 0) 0 = 0 := by
  have hfee := hs.fee (b := true) y
  rw [if_pos rfl] at hfee
  have hle : -((years : ℤ) * y) ≤ 0 := neg_nonpos.mpr (mul_nonneg (Int.natCast_nonneg _) hy)
  rw [fundingShare_of_payer (100 * y) (hfee.trans_le hle), hfee, max_eq_right hle]

/-- A slice of the short side earns a hundredth a year, scaled to what the longs
can pay. -/
theorem FundingStage.share_short (hs : FundingStage env years size collateral room) {y : ℤ}
    (hyears : 0 < years) (hy : 0 < y) (hopen : 0 < size false) :
    (env.freshMarket 0).fundingShare
      (fundingPosition false (size false) (collateral false)) (100 * y) 0 =
        if size true ≥ size false then years * y
        else (years * y * size true).tdiv (size false) := by
  have hfee := hs.fee (b := false) y
  have hpos : 0 < (years : ℤ) * y := mul_pos (by exact_mod_cast hyears) hy
  simp only [MarketInfo.fundingShare, zeroSumFunding, fundingCut, calcFundingFee_eq]
  rw [hfee]
  simp only [fundingPosition, Bool.false_eq_true, if_false, Bool.not_false, hs.side, if_pos hpos,
    if_neg (not_le.mpr hopen)]
  simp

/-- What the trader of a slice receives: its collateral and its funding. -/
theorem FundingStage.paid (hs : FundingStage env years size collateral room)
    (hd : Decreased env env' (holder b) 0 (fundingPosition b (size b) (collateral b)) x
      1000000000) : env'.usdc (.account (holder b)) = env.usdc (.account (holder b)) +
      max ((fundingPosition b (size b) (collateral b)).releasedCollateral x +
        (env.freshMarket 0).fundingShare (fundingPosition b (size b) (collateral b)) x 0) 0 := by
  rw [hd.usdc_trader (reachable_books hs.reachable), (hs.evaluate b x).2.1]
  exact (congrArg _ (ite_self 0)).trans (add_zero _)

/-- Once 3000 of the longs have left, they can fund half of the short side. -/
theorem fundingHalved (years : ℕ) : ∃ (env : Env ℕ ℕ) (size collateral : Bool → ℤ),
    FundingStage env years size collateral (donated years) ∧ size true = 10000000000 ∧
      size false = 20000000000 ∧ collateral false = 2000000000 := by
  have hroom : 0 ≤ donated years := by
    unfold donated
    positivity
  have hstart := fundingStage years
  have hlong := hstart.share_long (y := 300000000) (by norm_num)
  obtain ⟨env, hok, hd⟩ := hstart.succeeds (b := true) (x := 100 * 300000000) (by norm_num)
    (by norm_num) (by rw [hlong]; omega)
  have hs := hstart.next hd (by norm_num) hok
  rw [hlong, sub_zero] at hs
  exact ⟨env, _, _, hs, by norm_num, by simp, by simp⟩

/-- Half of the short closes at half the funding and the other half at all of it;
the whole short closes at half. -/
theorem scaled_split_gains {years : ℕ} (hyears : 0 < years) :
    ∃ env envS env1 env2 : Env ℕ ℕ, Reachable offsetErc env ∧
      env.apply offsetErc (.close (.decrease 2 0 (10000000000 + 10000000000) 0 1000000000)) =
        .ok envS ∧
      env.apply offsetErc (.close (.decrease 2 0 10000000000 0 1000000000)) = .ok env1 ∧
      env1.apply offsetErc (.close (.decrease 2 0 10000000000 0 1000000000)) = .ok env2 ∧
      env2.usdc (.account 2) = envS.usdc (.account 2) + 50000000 * years := by
  obtain ⟨env, size, collateral, hs, hsizeT, hsizeF, hcol⟩ := fundingHalved years
  have hroom : 1000000000000000 * (years : ℤ) ≤ donated years := by
    unfold donated
    omega
  have hscaled : ∀ y, 0 < y → (env.freshMarket 0).fundingShare
      (fundingPosition false (size false) (collateral false)) (100 * (2 * y)) 0 = years * y := by
    intro y hy
    rw [hs.share_short hyears (by omega) (by omega), hsizeT, hsizeF, if_neg (by norm_num),
      show (years : ℤ) * (2 * y) * 10000000000 = 20000000000 * (years * y) by ring,
      Int.mul_tdiv_cancel_left _ (by norm_num)]
  have hwhole := hscaled 100000000 (by norm_num)
  have hfirst := hscaled 50000000 (by norm_num)
  norm_num at hwhole hfirst
  obtain ⟨envS, hokS, hdS⟩ := hs.succeeds (b := false) (x := 20000000000) (by norm_num)
    (by omega) (by omega)
  obtain ⟨env1, hok1, hd1⟩ := hs.succeeds (b := false) (x := 10000000000) (by norm_num)
    (by omega) (by omega)
  have hs1 := hs.next hd1 (by omega) hok1
  -- after the first half both sides are even, and nothing is scaled down
  generalize hsize1 : Function.update size false (size false - 10000000000) = size1 at hs1
  generalize hcol1 : Function.update collateral false _ = collateral1 at hs1
  have hsize1T : size1 true = 10000000000 := by
    rw [← hsize1, Function.update_of_ne (by decide), hsizeT]
  have hsize1F : size1 false = 10000000000 := by
    rw [← hsize1, Function.update_self, hsizeF]
    norm_num
  have hcol1F : collateral1 false = 1000000000 := by
    rw [← hcol1, Function.update_self, hcol, hsizeF]
    decide
  have hsecond := hs1.share_short (y := 100000000) hyears (by norm_num) (by omega)
  rw [if_pos (by omega)] at hsecond
  norm_num at hsecond
  obtain ⟨env2, hok2, hd2⟩ := hs1.succeeds (b := false) (x := 10000000000) (by norm_num)
    (by omega) (by omega)
  refine ⟨env, envS, env1, env2, hs.reachable, hokS, hok1, hok2, ?_⟩
  have hpaidS := hs.paid hdS
  have hpaid1 := hs.paid hd1
  have hpaid2 := hs1.paid hd2
  have hreleasedS : (fundingPosition false (size false) (collateral false)).releasedCollateral
      20000000000 = 2000000000 := by
    rw [hsizeF, hcol]
    decide
  have hreleased1 : (fundingPosition false (size false) (collateral false)).releasedCollateral
      10000000000 = 1000000000 := by
    rw [hsizeF, hcol]
    decide
  have hreleased2 : (fundingPosition false (size1 false) (collateral1 false)).releasedCollateral
      10000000000 = 1000000000 := by
    rw [hsize1F, hcol1F]
    decide
  rw [hreleasedS, hwhole, max_eq_left (by positivity)] at hpaidS
  rw [hreleased1, hfirst, max_eq_left (by positivity)] at hpaid1
  rw [hreleased2, hsecond, max_eq_left (by positivity)] at hpaid2
  simp only [holder, Bool.false_eq_true, if_false] at hpaidS hpaid1 hpaid2
  rw [hpaid2, hpaid1, hpaidS]
  ring

/-- No constant bounds what splitting a close can gain. -/
theorem split_unbounded :
    ¬ ∃ constant : ℤ, ∀ (env envS env1 env2 : Env ℕ ℕ) (trader symbol : ℕ)
      (first second acceptablePrice price : ℤ), Reachable offsetErc env → 0 < first → 0 < second →
      env.apply offsetErc (.close (.decrease trader symbol (first + second) acceptablePrice price)) =
        .ok envS →
      env.apply offsetErc (.close (.decrease trader symbol first acceptablePrice price)) =
        .ok env1 →
      env1.apply offsetErc (.close (.decrease trader symbol second acceptablePrice price)) =
        .ok env2 →
      env2.usdc (.account trader) ≤ envS.usdc (.account trader) + constant := by
  rintro ⟨constant, hbound⟩
  obtain ⟨env, envS, env1, env2, hr, hS, h1, h2, hgain⟩ :=
    scaled_split_gains (Nat.succ_pos constant.toNat)
  have hle := hbound env envS env1 env2 2 0 _ _ 0 _ hr (by norm_num) (by norm_num) hS h1 h2
  have hself := Int.self_le_toNat constant
  push_cast at hgain
  omega

end Family

end Env

end Stellars
