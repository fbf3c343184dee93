import Stellars.GuardedRuns
import Stellars.FixedPointMath

/-!
# The configuration manager

Roles, the two-step admin transfer and the four tunable records. Every record is
stored together with the proof that its own `validate` accepted it, so that no
state of the protocol holds an unchecked parameter.
-/
namespace Stellars
open GuardedRuns

inductive ConfigManagerError
  | unauthorized
  | upgradeTimelockTooShort
  | invalidAdminProposal
  | notPendingAdmin
  | noPendingAdmin
  | invalidFeeSplitSum
  | invalidMinCollateral
  | invalidMaxUtilization
  | invalidFundingCut
  | invalidAdlPnl
  | invalidAdlUtilization
  | invalidLiquidationThreshold
  | invalidCooldownDuration
  | invalidMinPositionLifetime
  | invalidBorrowRateNegative
  | invalidOptimalUtilization
  | invalidSlopeOrdering
  | invalidSlopeTooSteep
  | invalidOpenFee
  | invalidLiquidationBounty
  | invalidTpSlExecutionFee
  deriving Repr, DecidableEq

/-- The symbols of the roles that the contracts ask for. -/
def namedRoles : List String := ["ADMIN", "UPGRADER", "PAUSER", "KEEPER", "ORACLE"]

/-- Any symbol can be granted as a role, the unnamed ones too. -/
inductive Role
  | admin
  | upgrader
  | pauser
  | keeper
  | oracle
  | other (symbol : { s : String // s ∉ namedRoles })
  deriving Repr, DecidableEq

structure FeeSplits where
  lpBps : ℕ
  devBps : ℕ
  stakerBps : ℕ
  deriving Repr, DecidableEq

structure FeeConfig where
  openFeeBps : ℕ
  liquidationBountyBps : ℕ
  tpSlExecutionFee : ℤ
  deriving Repr, DecidableEq

structure ProtocolLimits where
  minCollateral : ℤ
  cooldownDuration : ℕ
  minPositionLifetime : ℕ
  maxUtilizationRatio : ℤ
  fundingCutBps : ℕ
  adlPnlBps : ℕ
  adlUtilizationBps : ℕ
  liquidationThresholdBps : ℕ
  deriving Repr, DecidableEq

structure BorrowRateConfig where
  baseBorrowRateBps : ℤ
  slope1Bps : ℤ
  slope2Bps : ℤ
  optimalUtilizationBps : ℤ
  baseFundingRateBps : ℤ
  deriving Repr, DecidableEq

/-! ## Bounds -/

abbrev maxOpenFeeBps : ℕ := 100
abbrev maxLiquidationBountyBps : ℕ := 1000
abbrev maxTpSlExecutionFee : ℤ := 100000000000
abbrev maxFundingCutBps : ℕ := 3000
abbrev minAdlPnlBps : ℕ := 5000
abbrev maxSlope2Bps : ℤ := 20000
abbrev minUpgradeTimelock : ℕ := 86400

/-- 46 days of 17280 five-second ledgers. -/
abbrev maxCooldownDuration : ℕ := 46 * 17280 * 5

def FeeSplits.validate (c : FeeSplits) : Except ConfigManagerError Unit :=
  failIf (c.lpBps + c.devBps + c.stakerBps ≠ 10000) .invalidFeeSplitSum

def FeeConfig.validate (c : FeeConfig) : Except ConfigManagerError Unit := do
  failIf (c.openFeeBps > maxOpenFeeBps) .invalidOpenFee
  failIf (c.liquidationBountyBps > maxLiquidationBountyBps) .invalidLiquidationBounty
  failIf (c.tpSlExecutionFee < 0 ∨ c.tpSlExecutionFee > maxTpSlExecutionFee)
    .invalidTpSlExecutionFee

def ProtocolLimits.validate (c : ProtocolLimits) : Except ConfigManagerError Unit := do
  failIf (c.minCollateral < 1) .invalidMinCollateral
  failIf (c.maxUtilizationRatio < 1 ∨ c.maxUtilizationRatio > bps) .invalidMaxUtilization
  failIf (c.fundingCutBps > maxFundingCutBps) .invalidFundingCut
  failIf (c.adlPnlBps < minAdlPnlBps ∨ c.adlPnlBps > 10000) .invalidAdlPnl
  failIf (c.adlUtilizationBps < 1 ∨ c.adlUtilizationBps > 10000) .invalidAdlUtilization
  failIf (c.liquidationThresholdBps > 10000 / 10) .invalidLiquidationThreshold
  failIf (c.cooldownDuration > maxCooldownDuration) .invalidCooldownDuration
  failIf (c.minPositionLifetime > 86400) .invalidMinPositionLifetime

def BorrowRateConfig.validate (c : BorrowRateConfig) : Except ConfigManagerError Unit := do
  failIf (c.baseBorrowRateBps < 0 ∨ c.slope1Bps < 0 ∨ c.slope2Bps < 0 ∨ c.baseFundingRateBps < 0)
    .invalidBorrowRateNegative
  failIf (c.optimalUtilizationBps < 1 ∨ c.optimalUtilizationBps > bps) .invalidOptimalUtilization
  failIf (c.slope2Bps < c.slope1Bps) .invalidSlopeOrdering
  failIf (c.slope2Bps > maxSlope2Bps) .invalidSlopeTooSteep

theorem FeeSplits.validate_ok {c : FeeSplits} (h : c.validate = .ok ()) :
    c.lpBps + c.devBps + c.stakerBps = 10000 := by
  simpa [FeeSplits.validate] using h

theorem FeeConfig.validate_ok {c : FeeConfig} (h : c.validate = .ok ()) :
    c.openFeeBps ≤ maxOpenFeeBps ∧ c.liquidationBountyBps ≤ maxLiquidationBountyBps ∧
      0 ≤ c.tpSlExecutionFee ∧ c.tpSlExecutionFee ≤ maxTpSlExecutionFee := by
  simp only [FeeConfig.validate, failIf_bind_eq_ok, failIf_eq_ok] at h
  omega

/-- What an accepted limits record promises to the rest of the protocol. -/
theorem ProtocolLimits.validate_ok {c : ProtocolLimits} (h : c.validate = .ok ()) :
    1 ≤ c.minCollateral ∧ 1 ≤ c.maxUtilizationRatio ∧ c.maxUtilizationRatio ≤ bps ∧
      c.fundingCutBps ≤ maxFundingCutBps ∧ c.liquidationThresholdBps ≤ 1000 := by
  simp only [ProtocolLimits.validate, failIf_bind_eq_ok, failIf_eq_ok] at h
  omega

theorem BorrowRateConfig.validate_ok {c : BorrowRateConfig} (h : c.validate = .ok ()) :
    0 ≤ c.baseBorrowRateBps ∧ 0 ≤ c.slope1Bps ∧ c.slope1Bps ≤ c.slope2Bps ∧
      c.slope2Bps ≤ maxSlope2Bps ∧ 1 ≤ c.optimalUtilizationBps ∧
      c.optimalUtilizationBps ≤ bps ∧ 0 ≤ c.baseFundingRateBps := by
  simp only [BorrowRateConfig.validate, failIf_bind_eq_ok, failIf_eq_ok] at h
  omega

/-- A record that its own bounds check has accepted. -/
abbrev Checked {α : Type} (validate : α → Except ConfigManagerError Unit) : Type :=
  { c : α // validate c = .ok () }

def check {α : Type} (validate : α → Except ConfigManagerError Unit) (c : α) :
    Except ConfigManagerError (Checked validate) :=
  match h : validate c with
  | .ok () => .ok ⟨c, h⟩
  | .error e => .error e

/-! ## Storage and entry points -/

structure ConfigManager (A : Type) where
  admin : A
  pendingAdmin : Option A
  hasRole : Role → A → Bool
  feeSplits : Checked FeeSplits.validate
  feeConfig : Checked FeeConfig.validate
  protocolLimits : Checked ProtocolLimits.validate
  borrowRateConfig : Checked BorrowRateConfig.validate
  upgradeTimelock : ℕ

namespace ConfigManager

variable {A : Type} [DecidableEq A]

def defaultFeeSplits : Checked FeeSplits.validate := ⟨⟨9000, 1000, 0⟩, rfl⟩

def defaultFeeConfig : Checked FeeConfig.validate := ⟨⟨10, 100, 5000000⟩, rfl⟩

def defaultProtocolLimits : Checked ProtocolLimits.validate :=
  ⟨⟨10000000, 300, 60, 8500, 500, 9000, 9500, 200⟩, rfl⟩

def defaultBorrowRateConfig : Checked BorrowRateConfig.validate :=
  ⟨⟨100, 500, 5000, 8000, 100⟩, rfl⟩

def initializeWith (admin : A) : ConfigManager A where
  admin := admin
  pendingAdmin := none
  hasRole := fun role account => role = .admin ∧ account = admin
  feeSplits := defaultFeeSplits
  feeConfig := defaultFeeConfig
  protocolLimits := defaultProtocolLimits
  borrowRateConfig := defaultBorrowRateConfig
  upgradeTimelock := 86400

def setRole (cfg : ConfigManager A) (role : Role) (account : A) (held : Bool) : ConfigManager A :=
  { cfg with
    hasRole := fun r a => if r = role ∧ a = account then held else cfg.hasRole r a }

def requireAdmin (cfg : ConfigManager A) (caller : A) : Except ConfigManagerError Unit :=
  failIf (caller ≠ cfg.admin) .unauthorized

/-- The admin role moves only through the two-step transfer below. -/
def grantRole (cfg : ConfigManager A) (caller : A) (role : Role) (account : A) :
    Except ConfigManagerError (ConfigManager A) := do
  cfg.requireAdmin caller
  failIf (role = .admin) .unauthorized
  .ok (cfg.setRole role account true)

def revokeRole (cfg : ConfigManager A) (caller : A) (role : Role) (account : A) :
    Except ConfigManagerError (ConfigManager A) := do
  cfg.requireAdmin caller
  failIf (role = .admin) .unauthorized
  .ok (cfg.setRole role account false)

def updateFeeSplits (cfg : ConfigManager A) (caller : A) (c : FeeSplits) :
    Except ConfigManagerError (ConfigManager A) := do
  cfg.requireAdmin caller
  let c ← check FeeSplits.validate c
  .ok { cfg with feeSplits := c }

def updateProtocolLimits (cfg : ConfigManager A) (caller : A) (c : ProtocolLimits) :
    Except ConfigManagerError (ConfigManager A) := do
  cfg.requireAdmin caller
  let c ← check ProtocolLimits.validate c
  .ok { cfg with protocolLimits := c }

def setFeeConfig (cfg : ConfigManager A) (caller : A) (c : FeeConfig) :
    Except ConfigManagerError (ConfigManager A) := do
  cfg.requireAdmin caller
  let c ← check FeeConfig.validate c
  .ok { cfg with feeConfig := c }

def updateBorrowRateConfig (cfg : ConfigManager A) (caller : A) (c : BorrowRateConfig) :
    Except ConfigManagerError (ConfigManager A) := do
  cfg.requireAdmin caller
  let c ← check BorrowRateConfig.validate c
  .ok { cfg with borrowRateConfig := c }

def setUpgradeTimelock (cfg : ConfigManager A) (caller : A) (seconds : ℕ) :
    Except ConfigManagerError (ConfigManager A) := do
  cfg.requireAdmin caller
  failIf (seconds < minUpgradeTimelock) .upgradeTimelockTooShort
  .ok { cfg with upgradeTimelock := seconds }

def proposeAdmin (cfg : ConfigManager A) (caller newAdmin : A) :
    Except ConfigManagerError (ConfigManager A) := do
  cfg.requireAdmin caller
  failIf (caller = newAdmin) .invalidAdminProposal
  .ok { cfg with pendingAdmin := some newAdmin }

def acceptAdmin (cfg : ConfigManager A) (newAdmin : A) :
    Except ConfigManagerError (ConfigManager A) :=
  match cfg.pendingAdmin with
  | none => .error .noPendingAdmin
  | some pending => do
      failIf (pending ≠ newAdmin) .notPendingAdmin
      failIf (cfg.hasRole .admin cfg.admin = false) .unauthorized
      let cfg' := (cfg.setRole .admin cfg.admin false).setRole .admin newAdmin true
      .ok { cfg' with admin := newAdmin, pendingAdmin := none }

def cancelAdminProposal (cfg : ConfigManager A) (caller : A) :
    Except ConfigManagerError (ConfigManager A) := do
  cfg.requireAdmin caller
  .ok { cfg with pendingAdmin := none }

end ConfigManager

inductive ConfigCall (A : Type)
  | grantRole (role : Role) (account : A)
  | revokeRole (role : Role) (account : A)
  | updateFeeSplits (c : FeeSplits)
  | updateProtocolLimits (c : ProtocolLimits)
  | setFeeConfig (c : FeeConfig)
  | updateBorrowRateConfig (c : BorrowRateConfig)
  | setUpgradeTimelock (seconds : ℕ)
  | proposeAdmin (newAdmin : A)
  | acceptAdmin
  | cancelAdminProposal

/-- An authenticated call by `caller`. -/
def ConfigManager.call {A : Type} [DecidableEq A] (cfg : ConfigManager A) (caller : A) :
    ConfigCall A → Except ConfigManagerError (ConfigManager A)
  | .grantRole role account => cfg.grantRole caller role account
  | .revokeRole role account => cfg.revokeRole caller role account
  | .updateFeeSplits c => cfg.updateFeeSplits caller c
  | .updateProtocolLimits c => cfg.updateProtocolLimits caller c
  | .setFeeConfig c => cfg.setFeeConfig caller c
  | .updateBorrowRateConfig c => cfg.updateBorrowRateConfig caller c
  | .setUpgradeTimelock seconds => cfg.setUpgradeTimelock caller seconds
  | .proposeAdmin newAdmin => cfg.proposeAdmin caller newAdmin
  | .acceptAdmin => cfg.acceptAdmin caller
  | .cancelAdminProposal => cfg.cancelAdminProposal caller

end Stellars
