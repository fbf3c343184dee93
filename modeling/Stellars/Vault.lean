import Stellars.Environment

/-!
# The vault

The vault keeps three books beside its USDC balance: the reservation backing
open positions, the fees not yet claimed, and the last net trader profit pushed
by the position manager. Share accounting comes from an ERC-4626 library outside
the repository, whose four conversions are a parameter.
-/
namespace Stellars
open GuardedRuns

namespace Env

variable {A S : Type}

/-! ## Reads -/

def totalAssets (env : Env A S) : ℤ := env.usdc .vault

def freeLiquidity (env : Env A S) : ℤ :=
  let netPnl := env.vault.netGlobalTraderPnl
  let pnlDeduction := if netPnl > 0 then netPnl else 0
  let free := env.totalAssets - env.vault.reservedUsdc - env.vault.unclaimedFees - pnlDeduction
  if free < 0 then 0 else free

/-- The basis of utilization: mark prices cannot move it. -/
def totalAssetsExclPnl (env : Env A S) : ℤ :=
  let v := env.totalAssets - env.vault.unclaimedFees
  if v < 0 then 0 else v

theorem totalAssetsExclPnl_eq_max (env : Env A S) :
    env.totalAssetsExclPnl = max (env.totalAssets - env.vault.unclaimedFees) 0 := by
  simp only [totalAssetsExclPnl]
  split_ifs <;> omega

/-- A positive payment fits the free liquidity exactly when the deducted
balance itself covers it. -/
theorem le_freeLiquidity_iff (env : Env A S) {amount : ℤ} (h : 0 < amount) :
    amount ≤ env.freeLiquidity ↔
      amount + max env.vault.netGlobalTraderPnl 0 + env.vault.reservedUsdc +
        env.vault.unclaimedFees ≤ env.totalAssets := by
  simp only [freeLiquidity]
  split_ifs <;> omega

theorem le_totalAssets_of_le_freeLiquidity (env : Env A S) {amount : ℤ}
    (hb : env.vault.reservedUsdc + env.vault.unclaimedFees ≤ env.totalAssets)
    (h : amount ≤ env.freeLiquidity) :
    amount + env.vault.reservedUsdc + env.vault.unclaimedFees ≤ env.totalAssets := by
  simp only [freeLiquidity] at h
  split_ifs at h <;> omega

variable [DecidableEq A]

/-! ## Entry points for the position manager -/

def requirePositionManager (caller : Party A) : Except Error Unit :=
  failIf (caller ≠ .positionManager) (.vault .notPositionManager)

def requireFreeLiquidity (env : Env A S) (amount : ℤ) : Except Error Unit :=
  failIf (amount > env.freeLiquidity) (.vault .insufficientFreeLiquidity)

def payProfit (env : Env A S) (caller : Party A) (trader : A) (amount : ℤ) :
    Except Error (Env A S) := do
  requirePositionManager caller
  failIf (amount ≤ 0) (.vault .zeroAmount)
  env.requireFreeLiquidity amount
  env.transfer .vault (.account trader) amount

omit [DecidableEq A] in
@[simp] theorem totalAssets_setUsdc (env : Env A S) (usdc : Party A → ℤ) :
    (env.setUsdc usdc).totalAssets = usdc .vault := rfl

def setReservedUsdc (env : Env A S) (amount : ℤ) : Env A S :=
  { env with vault := { env.vault with reservedUsdc := amount } }

def setUnclaimedFees (env : Env A S) (amount : ℤ) : Env A S :=
  { env with vault := { env.vault with unclaimedFees := amount } }

def reserveLiquidity (env : Env A S) (caller : Party A) (amount : ℤ) :
    Except Error (Env A S) := do
  requirePositionManager caller
  failIf (amount ≤ 0) (.vault .zeroAmount)
  let newReserved := env.vault.reservedUsdc + amount
  failIf (newReserved > env.totalAssets) (.vault .reservationExceedsTotalAssets)
  .ok (env.setReservedUsdc newReserved)

def releaseLiquidity (env : Env A S) (caller : Party A) (amount : ℤ) :
    Except Error (Env A S) := do
  requirePositionManager caller
  failIf (amount ≤ 0) (.vault .zeroAmount)
  failIf (amount > env.vault.reservedUsdc) (.vault .insufficientFreeLiquidity)
  .ok (env.setReservedUsdc (env.vault.reservedUsdc - amount))

def updateNetPnl (env : Env A S) (caller : Party A) (pnl : ℤ) : Except Error (Env A S) := do
  requirePositionManager caller
  .ok { env with vault := { env.vault with netGlobalTraderPnl := pnl } }

/-- Checks the transfer that came before it; moves nothing itself. -/
def recordAbsorbedCollateral (env : Env A S) (caller : Party A) (amount preBalance : ℤ) :
    Except Error Unit := do
  requirePositionManager caller
  failIf (amount ≤ 0) (.vault .zeroAmount)
  failIf (env.totalAssets - preBalance ≠ amount) (.vault .absorbedCollateralMismatch)

def accrueFees (env : Env A S) (caller : Party A) (amount : ℤ) : Except Error (Env A S) := do
  requirePositionManager caller
  failIf (amount ≤ 0) (.vault .zeroAmount)
  let newTotal := env.vault.unclaimedFees + amount
  failIf (newTotal + env.vault.reservedUsdc > env.totalAssets) (.vault .feeAccrualExceedsAssets)
  .ok (env.setUnclaimedFees newTotal)

def claimFeesTo (env : Env A S) (caller recipient : Party A) (amount : ℤ) :
    Except Error (Env A S) := do
  requirePositionManager caller
  failIf (amount ≤ 0) (.vault .zeroAmount)
  failIf (amount > env.vault.unclaimedFees) (.vault .insufficientFees)
  let env' ← env.transfer .vault recipient amount
  .ok (env'.setUnclaimedFees (env.vault.unclaimedFees - amount))

@[simp] theorem requirePositionManager_self :
    requirePositionManager (Party.positionManager : Party A) = .ok () := by
  simp [requirePositionManager, failIf]

@[simp] theorem requirePositionManager_account (a : A) :
    requirePositionManager (.account a) = .error (.vault .notPositionManager) := by
  simp [requirePositionManager, failIf]

theorem payProfit_eq_ok {env env' : Env A S} {trader : A} {amount : ℤ} :
    env.payProfit .positionManager trader amount = .ok env' ↔
      0 < amount ∧ amount ≤ env.freeLiquidity ∧ amount ≤ env.totalAssets ∧
        env' = env.setUsdc (moveUsdc env.usdc .vault (.account trader) amount) := by
  simp only [payProfit, requirePositionManager_self, ok_bind, requireFreeLiquidity,
    failIf_bind_eq_ok, transfer_eq_ok, not_lt, not_le, totalAssets]
  constructor
  · rintro ⟨h0, hf, _, hb, rfl⟩
    exact ⟨h0, hf, hb, rfl⟩
  · rintro ⟨h0, hf, hb, rfl⟩
    exact ⟨h0, hf, h0.le, hb, rfl⟩

theorem reserveLiquidity_eq_ok {env env' : Env A S} {amount : ℤ} :
    env.reserveLiquidity .positionManager amount = .ok env' ↔
      0 < amount ∧ env.vault.reservedUsdc + amount ≤ env.totalAssets ∧
        env.setReservedUsdc (env.vault.reservedUsdc + amount) = env' := by
  simp only [reserveLiquidity, requirePositionManager_self, ok_bind, failIf_bind_eq_ok,
    Except.ok.injEq, not_lt, not_le]

theorem releaseLiquidity_eq_ok {env env' : Env A S} {amount : ℤ} :
    env.releaseLiquidity .positionManager amount = .ok env' ↔
      0 < amount ∧ amount ≤ env.vault.reservedUsdc ∧
        env.setReservedUsdc (env.vault.reservedUsdc - amount) = env' := by
  simp only [releaseLiquidity, requirePositionManager_self, ok_bind, failIf_bind_eq_ok,
    Except.ok.injEq, not_lt, not_le]

theorem recordAbsorbedCollateral_eq_ok {env : Env A S} {amount preBalance : ℤ} {u : Unit} :
    env.recordAbsorbedCollateral .positionManager amount preBalance = .ok u ↔
      0 < amount ∧ env.totalAssets - preBalance = amount := by
  simp only [recordAbsorbedCollateral, requirePositionManager_self, ok_bind, failIf_bind_eq_ok,
    failIf_eq_ok, not_le, not_not]

theorem accrueFees_eq_ok {env env' : Env A S} {amount : ℤ} :
    env.accrueFees .positionManager amount = .ok env' ↔
      0 < amount ∧
        env.vault.unclaimedFees + amount + env.vault.reservedUsdc ≤ env.totalAssets ∧
        env.setUnclaimedFees (env.vault.unclaimedFees + amount) = env' := by
  simp only [accrueFees, requirePositionManager_self, ok_bind, failIf_bind_eq_ok,
    Except.ok.injEq, not_lt, not_le]

end Env

end Stellars
