import Stellars.AdlGate
import Stellars.KeeperMirror
import Stellars.UtilizationCap

/-!
# The quote of an increase

Before an order is signed the frontend derives its fee, its daily accruals, a
liquidation price and the liquidity the vault has left. The quote computes its
headroom by multiplication, the contract truncates a ratio after the fact and
then asks the vault, so the two can differ on a size near the cap and on an empty
basis.
-/
namespace Stellars
open GuardedRuns TruncatedDivision

namespace ProtocolMath

abbrev secondsPerDay : ℤ := 86400

/-- Without `slippageBps` the acceptable price is not capped. -/
structure IncreaseIntent where
  collateral : ℤ
  size : ℤ
  isLong : Bool
  slippageBps : Option ℤ
  deriving Repr, DecidableEq

structure VaultSnapshot where
  reservedUsdc : ℤ
  totalAssets : ℤ
  unclaimedFees : ℤ
  deriving Repr, DecidableEq

structure QuoteLimits where
  maxUtilizationRatioBps : ℤ
  liquidationThresholdBps : ℤ
  deriving Repr, DecidableEq

structure IncreaseQuoteInput where
  intent : IncreaseIntent
  tick : MarketTick
  openFeeBps : ℤ
  vault : VaultSnapshot
  protocolLimits : QuoteLimits
  rateConfig : BorrowRateConfig
  deriving Repr, DecidableEq

structure IncreaseQuote where
  openFee : ℤ
  dailyBorrow : ℤ
  dailyFunding : ℤ
  liquidationPrice : Option ℤ
  acceptablePrice : ℤ
  liquidityHeadroom : ℤ
  exceedsLiquidity : Bool
  deriving Repr, DecidableEq

def liquidationPriceAtOpen (mark collateral size : ℤ) (isLong : Bool)
    (liquidationThresholdBps : ℤ) : Option ℤ :=
  if collateral ≤ 0 ∨ size ≤ 0 ∨ mark ≤ 0 then none
  else
    let lossBuffer := (collateral * (bps - liquidationThresholdBps)).tdiv bps
    let adjustment := (mark * lossBuffer).tdiv size
    some (if isLong then mark - adjustment else mark + adjustment)

def evaluateIncrease (input : IncreaseQuoteInput) : IncreaseQuote :=
  let size := input.intent.size
  let isLong := input.intent.isLong
  let slippageBps := input.intent.slippageBps.getD 0
  let mark := input.tick.markPrice
  let rates := input.rateConfig
  let openFee := if size > 0 then (size * input.openFeeBps).tdiv bps else 0
  let safeBasis :=
    if input.vault.totalAssets > input.vault.unclaimedFees then
      input.vault.totalAssets - input.vault.unclaimedFees
    else 0
  let utilBps :=
    if safeBasis > 0 then calcUtilizationBps input.vault.reservedUsdc safeBasis else 0
  let borrowRate := calcBorrowRate utilBps rates.baseBorrowRateBps rates.slope1Bps
    rates.slope2Bps rates.optimalUtilizationBps
  let dailyBorrow :=
    if size > 0 then (size * borrowRate * secondsPerDay).tdiv (bps * secondsPerYear) else 0
  let fundingRate := calcFundingRate input.tick.market.longOpenInterest
    input.tick.market.shortOpenInterest rates.baseFundingRateBps
  let traderRate := if isLong then -fundingRate else fundingRate
  let dailyFunding :=
    if size > 0 then (size * traderRate * secondsPerDay).tdiv (bps * secondsPerYear) else 0
  let liquidationPrice := liquidationPriceAtOpen mark input.intent.collateral size isLong
    input.protocolLimits.liquidationThresholdBps
  let acceptablePrice :=
    if slippageBps > 0 ∧ mark > 0 then
      if isLong then mark + (mark * slippageBps).tdiv bps
      else mark - (mark * slippageBps).tdiv bps
    else 0
  let maxReserved := (safeBasis * input.protocolLimits.maxUtilizationRatioBps).tdiv bps
  let liquidityHeadroom :=
    if maxReserved > input.vault.reservedUsdc then maxReserved - input.vault.reservedUsdc else 0
  { openFee := openFee
    dailyBorrow := dailyBorrow
    dailyFunding := dailyFunding
    liquidationPrice := liquidationPrice
    acceptablePrice := acceptablePrice
    liquidityHeadroom := liquidityHeadroom
    exceedsLiquidity := decide (size > 0 ∧ size > liquidityHeadroom) }

theorem evaluateIncrease_exceeds (input : IncreaseQuoteInput) :
    (evaluateIncrease input).exceedsLiquidity = true ↔
      input.intent.size > 0 ∧ input.intent.size > (evaluateIncrease input).liquidityHeadroom :=
  decide_eq_true_iff

theorem evaluateIncrease_headroom (input : IncreaseQuoteInput) :
    (evaluateIncrease input).liquidityHeadroom =
      max ((max (input.vault.totalAssets - input.vault.unclaimedFees) 0 *
        input.protocolLimits.maxUtilizationRatioBps).tdiv bps - input.vault.reservedUsdc) 0 := by
  have hbasis : (if input.vault.totalAssets > input.vault.unclaimedFees then
      input.vault.totalAssets - input.vault.unclaimedFees else 0) =
        max (input.vault.totalAssets - input.vault.unclaimedFees) 0 := by
    split_ifs <;> omega
  simp only [evaluateIncrease, hbasis]
  split_ifs <;> omega

end ProtocolMath

namespace Env

variable {A S : Type} [DecidableEq A] [DecidableEq S]

/-- The quote that the mirrored vault, market and configuration give. -/
def quoteInput (env : Env A S) (intent : ProtocolMath.IncreaseIntent)
    (tick : ProtocolMath.MarketTick) : ProtocolMath.IncreaseQuoteInput where
  intent := intent
  tick := tick
  openFeeBps := env.cfg.feeConfig.1.openFeeBps
  vault :=
    { reservedUsdc := env.vaultStateRow.reservedUsdc
      totalAssets := env.vaultStateRow.totalAssets
      unclaimedFees := env.vaultStateRow.unclaimedFees }
  protocolLimits :=
    { maxUtilizationRatioBps := env.cfg.protocolLimits.1.maxUtilizationRatio
      liquidationThresholdBps := env.cfg.protocolLimits.1.liquidationThresholdBps }
  rateConfig := ProtocolMath.toBorrowRateConfig (some env.protocolConfigRow)

def quote (env : Env A S) (intent : ProtocolMath.IncreaseIntent)
    (tick : ProtocolMath.MarketTick) : ProtocolMath.IncreaseQuote :=
  ProtocolMath.evaluateIncrease (env.quoteInput intent tick)

/-- The contract refuses `size` at the utilization gate, or the vault refuses to
reserve it once the open fee has arrived. -/
def RefusesSize (env : Env A S) (size : ℤ) : Prop :=
  calcUtilizationBps (env.vault.reservedUsdc + size) env.totalAssetsExclPnl >
      env.cfg.protocolLimits.1.maxUtilizationRatio ∨
    env.vault.reservedUsdc + size >
      env.totalAssets + calcOpenFee size env.cfg.feeConfig.1.openFeeBps

section Gate

variable {env env' : Env A S} {req : IncreaseRequest A S} {size : ℤ}

omit [DecidableEq A] [DecidableEq S] in
theorem totalAssetsExclPnl_nonneg (env : Env A S) : 0 ≤ env.totalAssetsExclPnl := by
  rw [totalAssetsExclPnl_eq_max]
  exact le_max_right _ _

omit [DecidableEq A] [DecidableEq S] in
/-- The headroom is exceeded exactly if the reservation would pass the cap before
any truncation. -/
theorem quote_exceeds_iff (intent : ProtocolMath.IncreaseIntent)
    (tick : ProtocolMath.MarketTick) (hs : 0 < intent.size) :
    (env.quote intent tick).exceedsLiquidity = true ↔
      env.totalAssetsExclPnl * env.cfg.protocolLimits.1.maxUtilizationRatio <
        (env.vault.reservedUsdc + intent.size) * bps := by
  obtain ⟨-, hcap, -⟩ := ProtocolLimits.validate_ok env.cfg.protocolLimits.2
  have hmax : 0 ≤ env.totalAssetsExclPnl * env.cfg.protocolLimits.1.maxUtilizationRatio :=
    mul_nonneg env.totalAssetsExclPnl_nonneg (by omega)
  have hheadroom : (env.quote intent tick).liquidityHeadroom =
      max ((env.totalAssetsExclPnl * env.cfg.protocolLimits.1.maxUtilizationRatio).tdiv bps -
        env.vault.reservedUsdc) 0 := by
    rw [quote, ProtocolMath.evaluateIncrease_headroom, totalAssetsExclPnl_eq_max]
    rfl
  rw [quote, ProtocolMath.evaluateIncrease_exceeds, ← quote, hheadroom,
    ← Int.ediv_lt_iff_lt_mul (show 0 < bps by decide), ← Int.tdiv_eq_ediv_of_nonneg hmax]
  have hsize : (env.quoteInput intent tick).intent.size = intent.size := rfl
  rw [hsize]
  omega

omit [DecidableEq A] [DecidableEq S] in
/-- The contract refuses a size from the next whole basis point above the cap on,
over a positive basis, or where the raw assets do not cover the reservation. -/
theorem refusesSize_iff (hs : 0 < size) (hr : 0 ≤ env.vault.reservedUsdc) :
    env.RefusesSize size ↔
      (0 < env.totalAssetsExclPnl ∧
        (env.cfg.protocolLimits.1.maxUtilizationRatio + 1) * env.totalAssetsExclPnl ≤
          (env.vault.reservedUsdc + size) * bps) ∨
      env.totalAssets + calcOpenFee size env.cfg.feeConfig.1.openFeeBps <
        env.vault.reservedUsdc + size := by
  obtain ⟨-, hcap, -⟩ := ProtocolLimits.validate_ok env.cfg.protocolLimits.2
  refine or_congr ?_ Iff.rfl
  by_cases hbasis : 0 < env.totalAssetsExclPnl
  · rw [gt_iff_lt, ← not_le, calcUtilizationBps_le_iff (by omega) hbasis, not_lt]
    exact (and_iff_right hbasis).symm
  · refine iff_of_false ?_ fun h => hbasis h.1
    rw [calcUtilizationBps, if_pos (by omega)]
    omega

omit [DecidableEq A] [DecidableEq S] in
/-- What the contract refuses the quote announces. -/
theorem exceeds_of_refusesSize (hs : 0 < size) (hr : 0 ≤ env.vault.reservedUsdc)
    (hu : 0 ≤ env.vault.unclaimedFees) (h : env.RefusesSize size) :
    env.totalAssetsExclPnl * env.cfg.protocolLimits.1.maxUtilizationRatio <
      (env.vault.reservedUsdc + size) * bps := by
  obtain ⟨-, hcap, hcap', -⟩ := ProtocolLimits.validate_ok env.cfg.protocolLimits.2
  obtain ⟨hbasis, hutil⟩ | hassets := (refusesSize_iff hs hr).mp h
  · linarith
  · have hfee := calcOpenFee_nonneg size env.cfg.feeConfig.1.openFeeBps
    have hle : env.totalAssetsExclPnl < env.vault.reservedUsdc + size := by
      rw [totalAssetsExclPnl_eq_max]
      omega
    have h0 := env.totalAssetsExclPnl_nonneg
    calc _ ≤ env.totalAssetsExclPnl * bps := mul_le_mul_of_nonneg_left hcap' h0
      _ < _ := mul_lt_mul_of_pos_right hle (by decide)

/-! ### Refusals of the contract -/

/-- Not an error of the utilization gate or of the vault's reservation. -/
def NotLiquidity (e : Error) : Prop :=
  e ≠ .positionManager .utilizationCapBreached ∧ e ≠ .vault .reservationExceedsTotalAssets

omit [DecidableEq S] in
theorem transfer_notLiquidity {src dst : Party A} {amount : ℤ} :
    FailsOnly NotLiquidity (env.transfer src dst amount) :=
  FailsOnly.bind (FailsOnly.failIf fun _ => ⟨nofun, nofun⟩) fun _ _ =>
    FailsOnly.bind (FailsOnly.failIf fun _ => ⟨nofun, nofun⟩) fun _ _ => FailsOnly.ok _ _

omit [DecidableEq S] in
theorem recvRevenue_notLiquidity {amount : ℤ} :
    FailsOnly NotLiquidity (env.recvRevenue amount) := by
  unfold recvRevenue
  split_ifs with h
  · exact FailsOnly.ok _ _
  · refine FailsOnly.bind transfer_notLiquidity fun _ _ => ?_
    exact accrueNonLpSlice_failsOnly (not_le.mp h) fun _ => ⟨nofun, nofun⟩

theorem increasedPosition_notLiquidity {tick : MarketTick} :
    FailsOnly NotLiquidity (env.increasedPosition req tick) := by
  unfold increasedPosition
  cases env.getPosition req.trader req.symbol with
  | none => exact FailsOnly.ok _ _
  | some pos =>
      exact FailsOnly.bind (FailsOnly.failIf fun _ => ⟨nofun, nofun⟩) fun _ _ => FailsOnly.ok _ _

/-- A size that neither check refuses fails, if at all, for another reason. -/
theorem doIncreasePosition_notLiquidity (hs : 0 < req.size) (h : ¬env.RefusesSize req.size) :
    FailsOnly NotLiquidity (env.doIncreasePosition req) := by
  rw [RefusesSize, not_or, gt_iff_lt, not_lt, gt_iff_lt, not_lt] at h
  obtain ⟨hgate, hreserve⟩ := h
  unfold doIncreasePosition
  refine FailsOnly.bind (refreshTick_failsOnly _ ⟨nofun, nofun⟩) fun ⟨env1, tick⟩ hrefresh => ?_
  obtain ⟨_, rfl, rfl⟩ := refreshTick_eq_ok.mp hrefresh
  obtain ⟨markets, hfresh⟩ := env.freshEnv_eq req.symbol
  rw [hfresh]
  refine FailsOnly.bind (FailsOnly.failIf fun _ => ⟨nofun, nofun⟩) fun _ _ => ?_
  refine FailsOnly.bind (FailsOnly.failIf fun _ => ⟨nofun, nofun⟩) fun _ _ => ?_
  refine FailsOnly.bind (FailsOnly.failIf fun _ => ⟨nofun, nofun⟩) fun _ _ => ?_
  refine FailsOnly.bind increasedPosition_notLiquidity fun pos _ => ?_
  refine FailsOnly.bind (FailsOnly.orFail fun _ => ⟨nofun, nofun⟩) fun maxLeverage _ => ?_
  refine FailsOnly.bind (FailsOnly.orFail fun _ => ⟨nofun, nofun⟩) fun maxSize _ => ?_
  refine FailsOnly.bind (FailsOnly.failIf fun _ => ⟨nofun, nofun⟩) fun _ _ => ?_
  refine FailsOnly.bind (FailsOnly.failIf fun _ => ⟨nofun, nofun⟩) fun _ _ => ?_
  refine FailsOnly.bind (FailsOnly.failIf fun hutil => absurd hgate (not_le.mpr hutil))
    fun _ _ => ?_
  refine FailsOnly.bind transfer_notLiquidity fun env2 htransfer => ?_
  refine FailsOnly.bind recvRevenue_notLiquidity fun env3 hrevenue => ?_
  obtain ⟨_, _, rfl⟩ := transfer_eq_ok.mp htransfer
  obtain ⟨rfl, _⟩ := recvRevenue_ok hrevenue
  have hfits : env.vault.reservedUsdc + req.size ≤
      moveUsdc (moveUsdc env.usdc (.account req.trader) .positionManager
        (req.collateral + env.openFee req + env.escrowOwed req)) .positionManager .vault
          (max (env.openFee req) 0) .vault := by
    rw [max_eq_left (env.openFee_nonneg req), moveUsdc_dst _ _ (by simp),
      moveUsdc_other _ _ (by simp) (by simp)]
    exact hreserve
  refine FailsOnly.bind ?_ fun env4 _ => ?_
  · rw [reserveLiquidity_eq_ok.mpr ⟨hs, hfits, rfl⟩]
    exact FailsOnly.ok _ _
  · rw [refreshMarketUnrealizedPnl_eq]
    exact FailsOnly.ok _ _

theorem not_refusesSize_of_ok (h : env.doIncreasePosition req = .ok env') :
    ¬env.RefusesSize req.size := by
  obtain ⟨pos, heff⟩ := doIncreasePosition_ok h
  rw [RefusesSize, not_or, gt_iff_lt, not_lt, gt_iff_lt, not_lt]
  exact ⟨heff.utilization, heff.reserve_fits⟩

/-- The quote and the contract agree on a size exactly if it stays within the
untruncated cap, or reaches the next whole basis point of a positive basis, or is
more than the vault's assets and the open fee can back. -/
theorem quote_predicts_gate_iff (env : Env A S) (req : IncreaseRequest A S)
    (intent : ProtocolMath.IncreaseIntent) (tick : ProtocolMath.MarketTick)
    (hsize : intent.size = req.size) (hs : 0 < req.size) (hr : 0 ≤ env.vault.reservedUsdc)
    (hu : 0 ≤ env.vault.unclaimedFees) :
    (((env.quote intent tick).exceedsLiquidity = true ↔ env.RefusesSize req.size) ↔
      (env.vault.reservedUsdc + req.size) * bps ≤
          env.totalAssetsExclPnl * env.cfg.protocolLimits.1.maxUtilizationRatio ∨
        (0 < env.totalAssetsExclPnl ∧
          (env.cfg.protocolLimits.1.maxUtilizationRatio + 1) * env.totalAssetsExclPnl ≤
            (env.vault.reservedUsdc + req.size) * bps) ∨
        env.totalAssets + env.openFee req < env.vault.reservedUsdc + req.size) ∧
    (∀ env', env.doIncreasePosition req = .ok env' → ¬env.RefusesSize req.size) ∧
    ∀ e, env.doIncreasePosition req = .error e →
      (e = .positionManager .utilizationCapBreached ∨
        e = .vault .reservationExceedsTotalAssets) → env.RefusesSize req.size := by
  refine ⟨?_, fun env' => not_refusesSize_of_ok, fun e he hliquidity => ?_⟩
  · have hrefuses : env.RefusesSize req.size ↔ _ := refusesSize_iff hs hr
    have hexceeds := exceeds_of_refusesSize hs hr hu
    have hquote : (env.quote intent tick).exceedsLiquidity = true ↔ _ :=
      quote_exceeds_iff intent tick (hsize ▸ hs)
    rw [hsize] at hquote
    rw [hquote, openFee, ← hrefuses, ← not_lt]
    constructor
    · intro hagree
      by_cases hover : env.totalAssetsExclPnl * env.cfg.protocolLimits.1.maxUtilizationRatio <
          (env.vault.reservedUsdc + req.size) * bps
      · exact .inr (hagree.mp hover)
      · exact .inl hover
    · rintro (hwithin | hrefused)
      · exact ⟨fun hover => absurd hover hwithin, fun h => absurd (hexceeds h) hwithin⟩
      · exact ⟨fun _ => hrefused, fun _ => hexceeds hrefused⟩
  · by_contra hfits
    obtain ⟨hcap, hreservation⟩ := doIncreasePosition_notLiquidity hs hfits e he
    exact hliquidity.elim hcap hreservation

/-- Seen at a mark of 100 on a market that nobody has traded. -/
def quietTick : ProtocolMath.MarketTick :=
  ⟨⟨indexPrecision, indexPrecision, 0, 0, 0⟩, 1000000000⟩

theorem quote_predicts_gate_iff_withinCap :
    (((deployed 100000000000 []).quote ⟨1000000000, 10000000000, true, none⟩
        quietTick).exceedsLiquidity = true ↔
      (deployed 100000000000 []).RefusesSize 10000000000) := by
  let env := deployed 100000000000 []
  let req : IncreaseRequest ℕ ℕ := ⟨2, 0, 10000000000, 1000000000, true, 0, 0, 0, 1000000000⟩
  exact (quote_predicts_gate_iff env req ⟨1000000000, 10000000000, true, none⟩ quietTick rfl
    (by decide) (by decide +kernel) (by decide +kernel)).1.mpr (.inl (by decide +kernel))

/-- The largest size whose truncated ratio is still the cap: the quote announces a
refusal and the contract opens it. -/
theorem quote_refuses_accepted :
    ¬∀ (env : Env ℕ ℕ) (req : IncreaseRequest ℕ ℕ) (intent : ProtocolMath.IncreaseIntent)
      (tick : ProtocolMath.MarketTick), Reachable offsetErc env → intent.size = req.size →
      0 < req.size →
      ((env.quote intent tick).exceedsLiquidity = true ↔ env.RefusesSize req.size) := by
  intro h
  let env := deployed 100000000000 []
  let req : IncreaseRequest ℕ ℕ := ⟨2, 0, 85000000001, 10000000000, true, 0, 0, 0, 1000000000⟩
  have hexceeds : (env.quote ⟨10000000000, 85000000001, true, none⟩
      quietTick).exceedsLiquidity = true := by decide +kernel
  obtain ⟨env', hok, _⟩ := exists_ok_of_bind_eq_some
    (show (env.doIncreasePosition req).toOption.bind (fun s => some s.vault.reservedUsdc) =
      some 85000000001 by decide +kernel)
  exact not_refusesSize_of_ok hok ((h env req ⟨10000000000, 85000000001, true, none⟩ quietTick
    (reachable_deployed _ _) rfl (by decide)).mp hexceeds)

end Gate

end Env

end Stellars
