import Stellars.AdminHandover
import Stellars.EventFormat
import Stellars.MirrorDatabase

/-!
# The configuration's mirror

The keeper and the API read the configuration from a table that the indexer fills from the
configuration manager's events. An event carries one record only, so a row is written by
several events, and of a role only the grants and revocations are kept. The table holds the
stored configuration after every run of the contract.
-/
namespace Stellars
open GuardedRuns SqlTransactions

/-! ## The contract's events -/

inductive ConfigEvent (A : Type)
  | roleChange (role : Role) (account : A) (isGrant : Bool)
  | feeSplitsUpdate (c : FeeSplits)
  | feeConfigUpdate (c : FeeConfig)
  | limitsUpdate (c : ProtocolLimits)
  | borrowRateUpdate (c : BorrowRateConfig)
  | upgradeTimelockUpdate (timelockSeconds : ℕ)
  | adminProposed (proposer newAdmin : A)
  | adminProposalCancelled (canceller : A)

namespace ConfigManager

variable {A : Type}

/-- `initialize` publishes the defaults it stores, so that no row is partly empty. -/
def initializeEvents (admin : A) : List (ConfigEvent A) :=
  [.roleChange .admin admin true, .feeSplitsUpdate defaultFeeSplits.1,
    .feeConfigUpdate defaultFeeConfig.1, .limitsUpdate defaultProtocolLimits.1,
    .borrowRateUpdate defaultBorrowRateConfig.1, .upgradeTimelockUpdate 86400]

/-- What a call that succeeds publishes. A grant and a revocation are published even when
they change nothing. -/
def callEvents (cfg : ConfigManager A) (caller : A) : ConfigCall A → List (ConfigEvent A)
  | .grantRole role account => [.roleChange role account true]
  | .revokeRole role account => [.roleChange role account false]
  | .updateFeeSplits c => [.feeSplitsUpdate c]
  | .updateProtocolLimits c => [.limitsUpdate c]
  | .setFeeConfig c => [.feeConfigUpdate c]
  | .updateBorrowRateConfig c => [.borrowRateUpdate c]
  | .setUpgradeTimelock seconds => [.upgradeTimelockUpdate seconds]
  | .proposeAdmin newAdmin => [.adminProposed caller newAdmin]
  | .acceptAdmin => [.roleChange .admin cfg.admin false, .roleChange .admin caller true]
  | .cancelAdminProposal => [.adminProposalCancelled caller]

variable [DecidableEq A]

def stepEvents (cfg : ConfigManager A) (tx : A × ConfigCall A) : List (ConfigEvent A) :=
  match cfg.call tx.1 tx.2 with
  | .ok _ => cfg.callEvents tx.1 tx.2
  | .error _ => []

/-- Everything that is published along a run. -/
def runEvents (cfg : ConfigManager A) : List (A × ConfigCall A) → List (ConfigEvent A)
  | [] => []
  | tx :: txs => cfg.stepEvents tx ++ runEvents (cfg.step tx) txs

end ConfigManager

/-! ## What the events say -/

/-- The columns of `protocol_config` that the configuration manager's events fill. -/
inductive ConfigColumn
  | lpBps
  | devBps
  | stakerBps
  | minCollateral
  | cooldownDuration
  | minPositionLifetime
  | maxUtilizationRatio
  | fundingCutBps
  | adlPnlBps
  | adlUtilizationBps
  | liquidationThresholdBps
  | baseBorrowRateBps
  | slope1Bps
  | slope2Bps
  | optimalUtilizationBps
  | baseFundingRateBps
  | openFeeBps
  | liquidationBountyBps
  | tpSlExecutionFee
  deriving DecidableEq

/-- The configuration as its readers see it, and whether there is any. -/
@[ext] structure ConfigView (A : Type) where
  present : Bool
  columns : ConfigColumn → ℤ
  hasRole : Role → A → Bool

namespace ConfigEvent

variable {A : Type}

/-- What the event carries for integer columns. -/
def integers : ConfigEvent A → List (ConfigColumn × ℤ)
  | .feeSplitsUpdate c => [(.lpBps, c.lpBps), (.devBps, c.devBps), (.stakerBps, c.stakerBps)]
  | .feeConfigUpdate c =>
      [(.openFeeBps, c.openFeeBps), (.liquidationBountyBps, c.liquidationBountyBps)]
  | .limitsUpdate c =>
      [(.fundingCutBps, c.fundingCutBps), (.adlPnlBps, c.adlPnlBps),
        (.adlUtilizationBps, c.adlUtilizationBps),
        (.liquidationThresholdBps, c.liquidationThresholdBps)]
  | _ => []

/-- What the event carries for numeric columns. -/
def numerics : ConfigEvent A → List (ConfigColumn × ℤ)
  | .feeConfigUpdate c => [(.tpSlExecutionFee, c.tpSlExecutionFee)]
  | .limitsUpdate c =>
      [(.minCollateral, c.minCollateral), (.cooldownDuration, c.cooldownDuration),
        (.minPositionLifetime, c.minPositionLifetime),
        (.maxUtilizationRatio, c.maxUtilizationRatio)]
  | .borrowRateUpdate c =>
      [(.baseBorrowRateBps, c.baseBorrowRateBps), (.slope1Bps, c.slope1Bps),
        (.slope2Bps, c.slope2Bps), (.optimalUtilizationBps, c.optimalUtilizationBps),
        (.baseFundingRateBps, c.baseFundingRateBps)]
  | _ => []

def values (e : ConfigEvent A) : List (ConfigColumn × ℤ) := e.integers ++ e.numerics

/-- The records of the published events have passed their checks. -/
def Valid : ConfigEvent A → Prop
  | .feeSplitsUpdate c => c.validate = .ok ()
  | .feeConfigUpdate c => c.validate = .ok ()
  | .limitsUpdate c => c.validate = .ok ()
  | .borrowRateUpdate c => c.validate = .ok ()
  | _ => True

end ConfigEvent

namespace ConfigView

variable {A : Type} [DecidableEq A]

def setRole (view : ConfigView A) (role : Role) (account : A) (held : Bool) : ConfigView A :=
  { view with hasRole := fun r a => if r = role ∧ a = account then held else view.hasRole r a }

def assign (view : ConfigView A) (values : List (ConfigColumn × ℤ)) : ConfigView A :=
  { view with
    present := true
    columns := fun col => (values.lookup col).getD (view.columns col) }

def apply (view : ConfigView A) : ConfigEvent A → ConfigView A
  | .roleChange role account isGrant => view.setRole role account isGrant
  | .upgradeTimelockUpdate _ => view
  | .adminProposed .. => view
  | .adminProposalCancelled _ => view
  | e => view.assign e.values

end ConfigView

namespace ConfigManager

variable {A : Type} [DecidableEq A]

def column (cfg : ConfigManager A) : ConfigColumn → ℤ
  | .lpBps => cfg.feeSplits.1.lpBps
  | .devBps => cfg.feeSplits.1.devBps
  | .stakerBps => cfg.feeSplits.1.stakerBps
  | .minCollateral => cfg.protocolLimits.1.minCollateral
  | .cooldownDuration => cfg.protocolLimits.1.cooldownDuration
  | .minPositionLifetime => cfg.protocolLimits.1.minPositionLifetime
  | .maxUtilizationRatio => cfg.protocolLimits.1.maxUtilizationRatio
  | .fundingCutBps => cfg.protocolLimits.1.fundingCutBps
  | .adlPnlBps => cfg.protocolLimits.1.adlPnlBps
  | .adlUtilizationBps => cfg.protocolLimits.1.adlUtilizationBps
  | .liquidationThresholdBps => cfg.protocolLimits.1.liquidationThresholdBps
  | .baseBorrowRateBps => cfg.borrowRateConfig.1.baseBorrowRateBps
  | .slope1Bps => cfg.borrowRateConfig.1.slope1Bps
  | .slope2Bps => cfg.borrowRateConfig.1.slope2Bps
  | .optimalUtilizationBps => cfg.borrowRateConfig.1.optimalUtilizationBps
  | .baseFundingRateBps => cfg.borrowRateConfig.1.baseFundingRateBps
  | .openFeeBps => cfg.feeConfig.1.openFeeBps
  | .liquidationBountyBps => cfg.feeConfig.1.liquidationBountyBps
  | .tpSlExecutionFee => cfg.feeConfig.1.tpSlExecutionFee

def view (cfg : ConfigManager A) : ConfigView A := ⟨true, cfg.column, cfg.hasRole⟩

theorem view_initializeWith (admin : A) (start : ConfigView A)
    (hstart : ∀ role account, start.hasRole role account = false) :
    (initializeEvents admin).foldl ConfigView.apply start = (initializeWith admin).view := by
  ext col account
  · rfl
  · cases col <;> rfl
  · change (if col = .admin ∧ account = admin then true else start.hasRole col account) = _
    simp [view, initializeWith, hstart]

theorem check_eq_ok {α : Type} {validate : α → Except ConfigManagerError Unit} {c : α}
    {c' : Checked validate} : check validate c = .ok c' ↔ c'.1 = c := by
  obtain ⟨c', hc'⟩ := c'
  unfold check
  constructor
  · intro h
    split at h
    · simpa [eq_comm] using h
    · cases h
  · rintro rfl
    split
    · rfl
    · simp_all

variable {cfg cfg' : ConfigManager A} {caller : A} {call : ConfigCall A}

/-- What a call that succeeds stores. -/
inductive Stores (cfg : ConfigManager A) (caller : A) : ConfigCall A → ConfigManager A → Prop
  | granted (role : Role) (account : A) :
      Stores cfg caller (.grantRole role account) (cfg.setRole role account true)
  | revoked (role : Role) (account : A) :
      Stores cfg caller (.revokeRole role account) (cfg.setRole role account false)
  | feeSplits (c : Checked FeeSplits.validate) :
      Stores cfg caller (.updateFeeSplits c.1) { cfg with feeSplits := c }
  | protocolLimits (c : Checked ProtocolLimits.validate) :
      Stores cfg caller (.updateProtocolLimits c.1) { cfg with protocolLimits := c }
  | feeConfig (c : Checked FeeConfig.validate) :
      Stores cfg caller (.setFeeConfig c.1) { cfg with feeConfig := c }
  | borrowRateConfig (c : Checked BorrowRateConfig.validate) :
      Stores cfg caller (.updateBorrowRateConfig c.1) { cfg with borrowRateConfig := c }
  | upgradeTimelock (seconds : ℕ) :
      Stores cfg caller (.setUpgradeTimelock seconds) { cfg with upgradeTimelock := seconds }
  | proposed (newAdmin : A) :
      Stores cfg caller (.proposeAdmin newAdmin) { cfg with pendingAdmin := some newAdmin }
  | accepted :
      Stores cfg caller .acceptAdmin
        { (cfg.setRole .admin cfg.admin false).setRole .admin caller true with
          admin := caller, pendingAdmin := none }
  | cancelled : Stores cfg caller .cancelAdminProposal { cfg with pendingAdmin := none }

theorem call_stores (h : cfg.call caller call = .ok cfg') : Stores cfg caller call cfg' := by
  cases call with
  | grantRole role account =>
      simp only [ConfigManager.call, grantRole, bind_eq_ok, Except.ok.injEq] at h
      obtain ⟨_, _, _, _, rfl⟩ := h
      exact .granted role account
  | revokeRole role account =>
      simp only [ConfigManager.call, revokeRole, bind_eq_ok, Except.ok.injEq] at h
      obtain ⟨_, _, _, _, rfl⟩ := h
      exact .revoked role account
  | updateFeeSplits c =>
      simp only [ConfigManager.call, updateFeeSplits, bind_eq_ok, check_eq_ok,
        Except.ok.injEq] at h
      obtain ⟨_, _, c', rfl, rfl⟩ := h
      exact .feeSplits c'
  | updateProtocolLimits c =>
      simp only [ConfigManager.call, updateProtocolLimits, bind_eq_ok, check_eq_ok,
        Except.ok.injEq] at h
      obtain ⟨_, _, c', rfl, rfl⟩ := h
      exact .protocolLimits c'
  | setFeeConfig c =>
      simp only [ConfigManager.call, setFeeConfig, bind_eq_ok, check_eq_ok,
        Except.ok.injEq] at h
      obtain ⟨_, _, c', rfl, rfl⟩ := h
      exact .feeConfig c'
  | updateBorrowRateConfig c =>
      simp only [ConfigManager.call, updateBorrowRateConfig, bind_eq_ok, check_eq_ok,
        Except.ok.injEq] at h
      obtain ⟨_, _, c', rfl, rfl⟩ := h
      exact .borrowRateConfig c'
  | setUpgradeTimelock seconds =>
      simp only [ConfigManager.call, setUpgradeTimelock, bind_eq_ok, Except.ok.injEq] at h
      obtain ⟨_, _, _, _, rfl⟩ := h
      exact .upgradeTimelock seconds
  | proposeAdmin newAdmin =>
      simp only [ConfigManager.call, proposeAdmin, bind_eq_ok, Except.ok.injEq] at h
      obtain ⟨_, _, _, _, rfl⟩ := h
      exact .proposed newAdmin
  | acceptAdmin =>
      simp only [ConfigManager.call, acceptAdmin] at h
      split at h
      · cases h
      · rename_i pending _
        simp only [failIf_bind_eq_ok, not_not, Except.ok.injEq] at h
        obtain ⟨rfl, _, rfl⟩ := h
        exact .accepted
  | cancelAdminProposal =>
      simp only [ConfigManager.call, cancelAdminProposal, bind_eq_ok, Except.ok.injEq] at h
      obtain ⟨_, _, rfl⟩ := h
      exact .cancelled

/-- The events of a call say what it has stored. -/
theorem view_of_stores (h : Stores cfg caller call cfg') :
    cfg'.view = (cfg.callEvents caller call).foldl ConfigView.apply cfg.view := by
  cases h with
  | feeSplits c | protocolLimits c | feeConfig c | borrowRateConfig c =>
      ext col
      · rfl
      · cases col <;> rfl
      · rfl
  | _ => rfl

theorem view_step (cfg : ConfigManager A) (tx : A × ConfigCall A) :
    (cfg.step tx).view = (cfg.stepEvents tx).foldl ConfigView.apply cfg.view := by
  cases h : cfg.call tx.1 tx.2 with
  | error e => simp [step, stepEvents, h]
  | ok cfg' =>
      rw [step_of_ok h, view_of_stores (call_stores h)]
      simp [stepEvents, h]

theorem view_run (cfg : ConfigManager A) (txs : List (A × ConfigCall A)) :
    (run step cfg txs).view = (cfg.runEvents txs).foldl ConfigView.apply cfg.view := by
  induction txs generalizing cfg with
  | nil => rfl
  | cons tx txs ih => rw [run_cons, ih, view_step, runEvents, List.foldl_append]

omit [DecidableEq A] in
theorem valid_initializeEvents (admin : A) : ∀ e ∈ initializeEvents admin, e.Valid := by
  simp only [initializeEvents, List.forall_mem_cons, ConfigEvent.Valid]
  exact ⟨trivial, defaultFeeSplits.2, defaultFeeConfig.2, defaultProtocolLimits.2,
    defaultBorrowRateConfig.2, trivial, by simp⟩

theorem valid_callEvents (h : Stores cfg caller call cfg') :
    ∀ e ∈ cfg.callEvents caller call, e.Valid := by
  cases h with
  | feeSplits c | protocolLimits c | feeConfig c | borrowRateConfig c =>
      simp only [callEvents, List.forall_mem_singleton]
      exact c.2
  | _ => simp [callEvents, ConfigEvent.Valid]

theorem valid_runEvents (cfg : ConfigManager A) (txs : List (A × ConfigCall A)) :
    ∀ e ∈ cfg.runEvents txs, e.Valid := by
  induction txs generalizing cfg with
  | nil => simp [runEvents]
  | cons tx txs ih =>
      intro e he
      rw [runEvents, List.mem_append] at he
      obtain he | he := he
      · cases h : cfg.call tx.1 tx.2 with
        | error err => simp [stepEvents, h] at he
        | ok cfg' =>
            simp only [stepEvents, h] at he
            exact valid_callEvents (call_stores h) e he
      · exact ih (cfg.step tx) e he

end ConfigManager

/-! ## The events on the wire -/

/-- The columns are named like the events' fields. -/
def ConfigColumn.field : ConfigColumn → String
  | .lpBps => "lp_bps"
  | .devBps => "dev_bps"
  | .stakerBps => "staker_bps"
  | .minCollateral => "min_collateral"
  | .cooldownDuration => "cooldown_duration"
  | .minPositionLifetime => "min_position_lifetime"
  | .maxUtilizationRatio => "max_utilization_ratio"
  | .fundingCutBps => "funding_cut_bps"
  | .adlPnlBps => "adl_pnl_bps"
  | .adlUtilizationBps => "adl_utilization_bps"
  | .liquidationThresholdBps => "liquidation_threshold_bps"
  | .baseBorrowRateBps => "base_borrow_rate_bps"
  | .slope1Bps => "slope1_bps"
  | .slope2Bps => "slope2_bps"
  | .optimalUtilizationBps => "optimal_utilization_bps"
  | .baseFundingRateBps => "base_funding_rate_bps"
  | .openFeeBps => "open_fee_bps"
  | .liquidationBountyBps => "liquidation_bounty_bps"
  | .tpSlExecutionFee => "tp_sl_execution_fee"

def Role.symbol : Role → String
  | .admin => "ADMIN"
  | .upgrader => "UPGRADER"
  | .pauser => "PAUSER"
  | .keeper => "KEEPER"
  | .oracle => "ORACLE"
  | .other s => s.1

theorem Role.symbol_injective : Function.Injective Role.symbol := by
  intro r r' h
  have hother : ∀ (s : { s : String // s ∉ namedRoles }) (name : String), name ∈ namedRoles →
      s.1 ≠ name := fun s name hname heq => s.2 (heq ▸ hname)
  cases r with
  | other s =>
      cases r' with
      | other s' => exact congrArg Role.other (Subtype.ext h)
      | _ => exact absurd h (hother s _ (by decide))
  | _ =>
      cases r' with
      | other s => exact absurd h.symm (hother s _ (by decide))
      | _ => first | rfl | exact absurd h (by decide)

namespace ConfigEvent

variable {A : Type} (addr : A → String)

def topic : ConfigEvent A → String
  | .roleChange .. => "role"
  | .feeSplitsUpdate _ => "feecfg"
  | .feeConfigUpdate _ => "feecnf"
  | .limitsUpdate _ => "limits"
  | .borrowRateUpdate _ => "rates"
  | .upgradeTimelockUpdate _ => "upgtl"
  | .adminProposed .. => "adminprop"
  | .adminProposalCancelled _ => "admincxl"

/-- The fields in the order of the event's declaration. A `u32` decodes to a number, a wider
integer to a bigint. -/
def fields : ConfigEvent A → List (String × Native)
  | .roleChange role account isGrant =>
      [("role", .string role.symbol), ("account", .string (addr account)),
        ("is_grant", .boolean isGrant)]
  | .feeSplitsUpdate c =>
      [("lp_bps", .number c.lpBps), ("dev_bps", .number c.devBps),
        ("staker_bps", .number c.stakerBps)]
  | .feeConfigUpdate c =>
      [("open_fee_bps", .number c.openFeeBps),
        ("liquidation_bounty_bps", .number c.liquidationBountyBps),
        ("tp_sl_execution_fee", .bigint c.tpSlExecutionFee)]
  | .limitsUpdate c =>
      [("min_collateral", .bigint c.minCollateral),
        ("cooldown_duration", .bigint c.cooldownDuration),
        ("min_position_lifetime", .bigint c.minPositionLifetime),
        ("max_utilization_ratio", .bigint c.maxUtilizationRatio),
        ("funding_cut_bps", .number c.fundingCutBps), ("adl_pnl_bps", .number c.adlPnlBps),
        ("adl_utilization_bps", .number c.adlUtilizationBps),
        ("liquidation_threshold_bps", .number c.liquidationThresholdBps)]
  | .borrowRateUpdate c =>
      [("base_borrow_rate_bps", .bigint c.baseBorrowRateBps), ("slope1_bps", .bigint c.slope1Bps),
        ("slope2_bps", .bigint c.slope2Bps),
        ("optimal_utilization_bps", .bigint c.optimalUtilizationBps),
        ("base_funding_rate_bps", .bigint c.baseFundingRateBps)]
  | .upgradeTimelockUpdate timelockSeconds => [("timelock_seconds", .bigint timelockSeconds)]
  | .adminProposed proposer newAdmin =>
      [("proposer", .string (addr proposer)), ("new_admin", .string (addr newAdmin))]
  | .adminProposalCancelled canceller => [("canceller", .string (addr canceller))]

/-- Every field travels in the data, as an element of a vector. -/
def spec (e : ConfigEvent A) : EventSpec where
  prefixTopics := [e.topic]
  params := (e.fields addr).map fun field => ⟨field.1, .data⟩
  dataFormat := .vec

def vals (e : ConfigEvent A) (name : String) : Native := ((e.fields addr).lookup name).getD .null

variable {addr}

theorem normalize_fields (e : ConfigEvent A) :
    ∀ field ∈ e.fields addr, field.2.normalize = field.2 := by
  cases e <;> simp [fields, Native.normalize]

/-- The parser hands out the fields as the event has them. -/
theorem field_parsedFrom (e : ConfigEvent A) (raw : RawEvent) (name : String) :
    (EventPipeline.parsedFrom (e.spec addr) e.topic (e.vals addr) raw).field name =
      (e.fields addr).lookup name := by
  rw [EventPipeline.field_parsedFrom]
  have hnames : (e.spec addr).params.map (·.name) = (e.fields addr).map Prod.fst := by
    simp [spec]
  rw [hnames, vals]
  cases hlookup : (e.fields addr).lookup name with
  | none =>
      rw [if_neg]
      intro hmem
      obtain ⟨field, hfield, rfl⟩ := List.mem_map.mp hmem
      simpa using List.lookup_eq_none_iff.mp hlookup field hfield
  | some val =>
      obtain ⟨before, after, hfields, -⟩ := List.lookup_eq_some_iff.mp hlookup
      have hmem : (name, val) ∈ e.fields addr := by
        rw [hfields]
        simp
      rw [if_pos (List.mem_map_of_mem (f := Prod.fst) hmem)]
      exact congrArg some (normalize_fields e _ hmem)

theorem lookup_integers (e : ConfigEvent A) :
    ∀ p ∈ e.integers, (e.fields addr).lookup p.1.field = some (.number p.2) := by
  cases e <;> simp [integers, fields, ConfigColumn.field, List.lookup_cons]

theorem lookup_numerics (e : ConfigEvent A) :
    ∀ p ∈ e.numerics, (e.fields addr).lookup p.1.field = some (.bigint p.2) := by
  cases e <;> simp [numerics, fields, ConfigColumn.field, List.lookup_cons]

/-- A checked record fits the integer columns. -/
theorem integers_fit {e : ConfigEvent A} (h : e.Valid) :
    ∀ p ∈ e.integers, 0 ≤ p.2 ∧ p.2 < 2 ^ 31 := by
  cases e with
  | feeSplitsUpdate c =>
      have hsum := FeeSplits.validate_ok h
      simp only [integers, List.forall_mem_cons, List.not_mem_nil,
        IsEmpty.forall_iff, implies_true, and_true]
      omega
  | feeConfigUpdate c =>
      obtain ⟨hopen, hbounty, -, -⟩ := FeeConfig.validate_ok h
      unfold maxOpenFeeBps maxLiquidationBountyBps at *
      simp only [integers, List.forall_mem_cons, List.not_mem_nil,
        IsEmpty.forall_iff, implies_true, and_true]
      omega
  | limitsUpdate c =>
      simp only [Valid, ProtocolLimits.validate, failIf_bind_eq_ok, failIf_eq_ok] at h
      unfold maxFundingCutBps at *
      simp only [integers, List.forall_mem_cons, List.not_mem_nil,
        IsEmpty.forall_iff, implies_true, and_true]
      omega
  | _ => simp [integers]

end ConfigEvent

/-! ## The indexer's tables -/

/-- The row of `protocol_config`. -/
structure ProtocolConfigTuple where
  columns : ConfigColumn → ℤ := fun _ => 0
  lastUnpauseTime : ℤ := 0
  updatedAtLedger : ℤ := 0

/-- The columns that the keeper's mirror of the row reads. -/
def ProtocolConfigTuple.read (row : ProtocolConfigTuple) : ProtocolConfigRow where
  fundingCutBps := row.columns .fundingCutBps
  liquidationThresholdBps := row.columns .liquidationThresholdBps
  baseBorrowRateBps := row.columns .baseBorrowRateBps
  slope1Bps := row.columns .slope1Bps
  slope2Bps := row.columns .slope2Bps
  optimalUtilizationBps := row.columns .optimalUtilizationBps
  baseFundingRateBps := row.columns .baseFundingRateBps
  lastUnpauseTime := row.lastUnpauseTime

/-- Where the row holds the stored configuration, it is the row the keeper reckons with. -/
theorem ProtocolConfigTuple.read_eq {A S : Type} [DecidableEq A] {row : ProtocolConfigTuple}
    {env : Env A S} (hcolumns : row.columns = env.cfg.column)
    (hunpause : row.lastUnpauseTime = env.pm.lastUnpauseTime) :
    row.read = env.protocolConfigRow := by
  simp only [read, Env.protocolConfigRow, hcolumns, hunpause, ConfigManager.column]

structure RoleEventRow where
  txHash : String
  ledger : ℤ
  timestamp : ℤ
  role : String
  account : String
  isGrant : Bool

structure ConfigTables where
  protocolConfig : Option ProtocolConfigTuple
  roleEvents : List RoleEventRow

/-- What the database's column types make of the values sent to them. -/
structure ColumnTypes where
  integer : Native → Option ℤ
  numeric : String → Option ℤ
  text : Native → Option String
  boolean : Native → Option Bool

/-- The documented ranges: an `integer` has four bytes, a `numeric` any number of digits. -/
structure ColumnTypes.Lawful (types : ColumnTypes) : Prop where
  integer (n : ℤ) : -2 ^ 31 ≤ n → n < 2 ^ 31 → types.integer (.number n) = some n
  numeric (n : ℤ) : types.numeric (toString n) = some n
  text (s : String) : types.text (.string s) = some s
  boolean (b : Bool) : types.boolean (.boolean b) = some b

/-- An upsert of the row of `protocol_config`, or an insert into `role_events`. -/
inductive ConfigWrite
  | upsert (ledger : ℕ) (integers : List (ConfigColumn × Native))
      (numerics : List (ConfigColumn × String))
  | roleEvent (txHash : String) (ledger : ℕ) (timestamp : String)
      (role account isGrant : Option Native)

def ProtocolConfigTuple.set (row : ProtocolConfigTuple) (ledger : ℤ)
    (values : List (ConfigColumn × ℤ)) : ProtocolConfigTuple :=
  { row with
    columns := fun col => (values.lookup col).getD (row.columns col)
    updatedAtLedger := ledger }

/-- A value that its column does not take fails the statement, and so does one that is missing
from a column without a default. -/
def ConfigTables.write (types : ColumnTypes) (tables : ConfigTables) :
    ConfigWrite → Option ConfigTables
  | .upsert ledger integers numerics => do
      let ledger ← types.integer (.number ledger)
      let integers ← integers.mapM fun p => (types.integer p.2).map fun n => (p.1, n)
      let numerics ← numerics.mapM fun p => (types.numeric p.2).map fun n => (p.1, n)
      let row := (tables.protocolConfig.getD {}).set ledger (integers ++ numerics)
      return { tables with protocolConfig := some row }
  | .roleEvent txHash ledger timestamp role account isGrant => do
      let ledger ← types.integer (.number ledger)
      let timestamp ← types.numeric timestamp
      let role ← role.bind types.text
      let account ← account.bind types.text
      let isGrant ← isGrant.bind types.boolean
      let row := ⟨txHash, ledger, timestamp, role, account, isGrant⟩
      return { tables with roleEvents := tables.roleEvents ++ [row] }

def configTables (types : ColumnTypes) : Engine ConfigTables Empty Empty ConfigWrite where
  query _ q := q.elim
  write := ConfigTables.write types

/-! ## The indexer's handlers -/

abbrev ConfigScript := Script Empty Empty ConfigWrite

/-- The integer columns take the fields as they are, the numeric ones their texts. A field
that is missing is left out of the statement. -/
def upsertProtocolConfig (event : ParsedEvent) (integers numerics : List ConfigColumn) :
    ConfigScript :=
  .ofExcept
    (numerics.mapM fun col => (toNumericString (event.field col.field)).map fun text => (col, text))
    fun texts =>
      .write
        (.upsert event.ledger
          (integers.filterMap fun col => (event.field col.field).map fun val => (col, val)) texts)
        .done

def handleFeeSplits (event : ParsedEvent) : ConfigScript :=
  upsertProtocolConfig event [.lpBps, .devBps, .stakerBps] []

def handleFeeConfig (event : ParsedEvent) : ConfigScript :=
  upsertProtocolConfig event [.openFeeBps, .liquidationBountyBps] [.tpSlExecutionFee]

def handleLimits (event : ParsedEvent) : ConfigScript :=
  upsertProtocolConfig event
    [.fundingCutBps, .adlPnlBps, .adlUtilizationBps, .liquidationThresholdBps]
    [.minCollateral, .cooldownDuration, .minPositionLifetime, .maxUtilizationRatio]

def handleBorrowRates (event : ParsedEvent) : ConfigScript :=
  upsertProtocolConfig event []
    [.baseBorrowRateBps, .slope1Bps, .slope2Bps, .optimalUtilizationBps, .baseFundingRateBps]

def handleRole (unixSeconds : String → String) (event : ParsedEvent) : ConfigScript :=
  .write
    (.roleEvent event.txHash event.ledger (unixSeconds event.timestamp) (event.field "role")
      (event.field "account") (event.field "is_grant"))
    .done

/-- An upgrade timelock is logged only, and a proposal has no case at all. -/
def handleConfigManagerEvent (unixSeconds : String → String) (event : ParsedEvent) :
    ConfigScript :=
  match event.topic0 with
  | "feecfg" => handleFeeSplits event
  | "feecnf" => handleFeeConfig event
  | "limits" => handleLimits event
  | "rates" => handleBorrowRates event
  | "role" => handleRole unixSeconds event
  | "upgtl" => .done
  | _ => .done

/-! ## What the tables say -/

namespace ConfigTables

/-- The last event of a role and an account says whether the account holds the role. -/
def holds (tables : ConfigTables) (role account : String) : Bool :=
  ((tables.roleEvents.filter fun row => row.role = role ∧ row.account = account).getLast?.map
    (·.isGrant)).getD false

def view {A : Type} (addr : A → String) (tables : ConfigTables) : ConfigView A where
  present := tables.protocolConfig.isSome
  columns := (tables.protocolConfig.getD {}).columns
  hasRole role account := tables.holds role.symbol (addr account)

def lastUnpauseTime (tables : ConfigTables) : ℤ := (tables.protocolConfig.getD {}).lastUnpauseTime

theorem holds_append (tables : ConfigTables) (row : RoleEventRow) (role account : String) :
    ConfigTables.holds { tables with roleEvents := tables.roleEvents ++ [row] } role account =
      if role = row.role ∧ account = row.account then row.isGrant
      else tables.holds role account := by
  by_cases hrow : role = row.role ∧ account = row.account
  · obtain ⟨rfl, rfl⟩ := hrow
    simp [holds]
  · have hother : ¬ (row.role = role ∧ row.account = account) := fun h =>
      hrow ⟨h.1.symm, h.2.symm⟩
    rw [if_neg hrow]
    simp only [holds, List.filter_append, List.filter_cons, hother, decide_false,
      Bool.false_eq_true, if_false, List.filter_nil, List.append_nil]

variable {A : Type} {addr : A → String}

theorem view_append [DecidableEq A] (haddr : Function.Injective addr) (tables : ConfigTables)
    {row : RoleEventRow} {role : Role} {account : A} (hrole : row.role = role.symbol)
    (haccount : row.account = addr account) :
    ConfigTables.view addr { tables with roleEvents := tables.roleEvents ++ [row] } =
      (tables.view addr).setRole role account row.isGrant := by
  ext r a
  · rfl
  · rfl
  · simp only [view, ConfigView.setRole, holds_append, hrole, haccount, haddr.eq_iff,
      Role.symbol_injective.eq_iff]

end ConfigTables

/-! ## One event -/

theorem mapM_eq_pure {m : Type → Type} [Monad m] [LawfulMonad m] {α β : Type} {f : α → m β}
    {g : α → β} {l : List α} (h : ∀ a ∈ l, f a = pure (g a)) : l.mapM f = pure (l.map g) := by
  induction l with
  | nil => simp
  | cons a l ih =>
      obtain ⟨ha, hl⟩ := List.forall_mem_cons.mp h
      simp [ha, ih hl]

section Handling

variable {types : ColumnTypes} {unixSeconds : String → String} {event : ParsedEvent}
  {tables : ConfigTables}

theorem run_write_done {w : ConfigWrite} {tables' : ConfigTables}
    (h : tables.write types w = some tables') :
    ((.write w .done : ConfigScript).run (configTables types) ⟨tables, false⟩).tx =
      ⟨tables', false⟩ := by
  simp [Script.run, configTables, h]

theorem upsertProtocolConfig_run (hlawful : types.Lawful) (hledger : event.ledger < 2 ^ 31)
    {integers numerics : List (ConfigColumn × ℤ)}
    (hintegers : ∀ p ∈ integers, event.field p.1.field = some (.number p.2) ∧
      0 ≤ p.2 ∧ p.2 < 2 ^ 31)
    (hnumerics : ∀ p ∈ numerics, event.field p.1.field = some (.bigint p.2)) :
    ((upsertProtocolConfig event (integers.map Prod.fst) (numerics.map Prod.fst)).run
        (configTables types) ⟨tables, false⟩).tx =
      ⟨{ tables with
          protocolConfig := some
            ((tables.protocolConfig.getD {}).set event.ledger (integers ++ numerics)) },
        false⟩ := by
  have htexts : (numerics.map Prod.fst).mapM (fun col =>
      (toNumericString (event.field col.field)).map fun text => (col, text)) =
        .ok (numerics.map fun p => (p.1, toString p.2)) := by
    rw [List.mapM_map]
    refine mapM_eq_pure fun p hp => ?_
    simp only [Function.comp_apply, hnumerics p hp]
    rfl
  have hsent : (integers.map Prod.fst).filterMap (fun col =>
      (event.field col.field).map fun val => (col, val)) =
        integers.map fun p => (p.1, .number p.2) := by
    rw [List.filterMap_map, ← List.filterMap_eq_map']
    refine List.filterMap_congr fun p hp => ?_
    simp [(hintegers p hp).1]
  have hints : (integers.map fun p => (p.1, Native.number p.2)).mapM (fun p =>
      (types.integer p.2).map fun n => (p.1, n)) = some integers := by
    rw [List.mapM_map]
    refine (mapM_eq_pure (g := id) fun p hp => ?_).trans (by simp)
    obtain ⟨-, hlo, hhi⟩ := hintegers p hp
    simp only [Function.comp_apply, hlawful.integer p.2 (by omega) hhi]
    rfl
  have hnums : (numerics.map fun p => (p.1, toString p.2)).mapM (fun p =>
      (types.numeric p.2).map fun n => (p.1, n)) = some numerics := by
    rw [List.mapM_map]
    refine (mapM_eq_pure (g := id) fun p hp => ?_).trans (by simp)
    simp only [Function.comp_apply, hlawful.numeric p.2]
    rfl
  simp only [upsertProtocolConfig, htexts, hsent, Script.ofExcept]
  refine run_write_done ?_
  simp only [ConfigTables.write, hlawful.integer event.ledger (by omega) (by omega), hints, hnums]
  rfl

variable {A : Type} [DecidableEq A] {addr : A → String}

/-- The handler of an event does to the tables what the event says. -/
theorem handleConfigManagerEvent_run (hlawful : types.Lawful) (haddr : Function.Injective addr)
    {e : ConfigEvent A} (hvalid : e.Valid) {raw : RawEvent} (hledger : raw.ledger < 2 ^ 31)
    {seconds : ℤ} (hseconds : types.numeric (unixSeconds raw.ledgerClosedAt) = some seconds)
    (tables : ConfigTables) :
    ∃ tables', ((handleConfigManagerEvent unixSeconds
          (EventPipeline.parsedFrom (e.spec addr) e.topic (e.vals addr) raw)).run
        (configTables types) ⟨tables, false⟩).tx = ⟨tables', false⟩ ∧
      tables'.view addr = (tables.view addr).apply e ∧
      tables'.lastUnpauseTime = tables.lastUnpauseTime := by
  have hfield (name : String) :
      (EventPipeline.parsedFrom (e.spec addr) e.topic (e.vals addr) raw).field name =
        (e.fields addr).lookup name := ConfigEvent.field_parsedFrom e raw name
  have hupsert : ((upsertProtocolConfig
        (EventPipeline.parsedFrom (e.spec addr) e.topic (e.vals addr) raw)
        (e.integers.map Prod.fst) (e.numerics.map Prod.fst)).run
      (configTables types) ⟨tables, false⟩).tx = _ :=
    upsertProtocolConfig_run hlawful hledger
      (fun p hp =>
        ⟨(hfield _).trans (e.lookup_integers p hp), ConfigEvent.integers_fit hvalid p hp⟩)
      (fun p hp => (hfield _).trans (e.lookup_numerics p hp))
  cases e with
  | feeSplitsUpdate c | feeConfigUpdate c | limitsUpdate c | borrowRateUpdate c =>
      exact ⟨_, hupsert, rfl, rfl⟩
  | upgradeTimelockUpdate timelockSeconds => exact ⟨tables, rfl, rfl, rfl⟩
  | adminProposed proposer newAdmin => exact ⟨tables, rfl, rfl, rfl⟩
  | adminProposalCancelled canceller => exact ⟨tables, rfl, rfl, rfl⟩
  | roleChange role account isGrant =>
      refine ⟨{ tables with
          roleEvents := tables.roleEvents ++
            [⟨raw.txHash, raw.ledger, seconds, role.symbol, addr account, isGrant⟩] },
        run_write_done ?_, ConfigTables.view_append haddr tables rfl rfl, rfl⟩
      rw [hfield, hfield, hfield]
      simp [ConfigTables.write, EventPipeline.parsedFrom, hseconds, ConfigEvent.fields,
        hlawful.text, hlawful.boolean, hlawful.integer raw.ledger (by omega) (by omega),
        List.lookup_cons]

omit [DecidableEq A] in
theorem handleConfigManagerEvent_of_other
    (h : event.topic0 ∉ ["feecfg", "feecnf", "limits", "rates", "role", "upgtl"]) :
    handleConfigManagerEvent unixSeconds event = .done := by
  unfold handleConfigManagerEvent
  split <;> simp_all

end Handling

/-! ## Every page -/

namespace EventPipeline

variable {A : Type} [DecidableEq A] (addr : A → String) (types : ColumnTypes)
  (unixSeconds : String → String) (ix : EventPipeline Empty Empty ConfigWrite)

/-- The raw event is one that the configuration manager has published. -/
structure Delivers (raw : RawEvent) (e : ConfigEvent A) : Prop where
  carries : ix.Carries (e.spec addr) (e.vals addr) raw
  ledger : raw.ledger < 2 ^ 31
  closedAt : ∃ seconds, types.numeric (unixSeconds raw.ledgerClosedAt) = some seconds

/-- The indexer's configuration manager. -/
structure Serves (contractId : String) : Prop where
  routes : ix.routes contractId = some (handleConfigManagerEvent unixSeconds)
  specs (e : ConfigEvent A) : ix.specMaps contractId e.topic = some (e.spec addr).fieldSpec

/-- An event without a script: no handler serves its contract, or the contract has it from a
library and the spec does not name its topic, or the handler has no case for the topic. -/
inductive Skipped (contractId : String) (raw : RawEvent) : Prop
  | unrouted (routes : ix.routes raw.contractId = none)
  | unnamed {first name : String} {rest : List String} (topic : raw.topic = first :: rest)
      (decoded : ix.fromXDR first = .ok (.string name))
      (spec : ix.specMaps raw.contractId name = none)
  | unhandled {ev : EventSpec} {name : String} {vals : String → Native}
      (contract : raw.contractId = contractId) (topic : ev.prefixTopics = [name])
      (spec : ix.specMaps raw.contractId name = some ev.fieldSpec)
      (carries : ix.Carries ev vals raw)
      (other : name ∉ ["feecfg", "feecnf", "limits", "rates", "role", "upgtl"])

/-- What the indexer fetches while the contract publishes `log`. -/
inductive Transcript (contractId : String) : List RawEvent → List (ConfigEvent A) → Prop
  | nil : Transcript contractId [] []
  | published {raw : RawEvent} {e : ConfigEvent A} {events : List RawEvent}
      {log : List (ConfigEvent A)} (contract : raw.contractId = contractId)
      (delivers : ix.Delivers addr types unixSeconds raw e)
      (later : Transcript contractId events log) : Transcript contractId (raw :: events) (e :: log)
  | skipped {raw : RawEvent} {events : List RawEvent} {log : List (ConfigEvent A)}
      (skips : ix.Skipped contractId raw) (later : Transcript contractId events log) :
      Transcript contractId (raw :: events) log

variable {addr types unixSeconds ix} {contractId : String}

omit [DecidableEq A] in
theorem eventScript_of_skipped (hserves : ix.Serves addr unixSeconds contractId) {raw : RawEvent}
    (hskipped : ix.Skipped contractId raw) : ix.eventScript raw = .ok .done := by
  cases hroutes : ix.routes raw.contractId with
  | none => simp [eventScript, hroutes]
  | some handler =>
      cases hskipped with
      | unrouted hnone => simp [hnone] at hroutes
      | unnamed htopic hdecoded hspec =>
          simp [eventScript, hroutes, parseEvent_of_unnamed htopic hdecoded hspec, bind,
            Except.bind, pure, Except.pure]
      | unhandled hcontract htopic hspec hcarries hother =>
          rw [hcontract, hserves.routes, Option.some.injEq] at hroutes
          subst hroutes
          rename_i ev name vals
          have hdone : handleConfigManagerEvent unixSeconds (parsedFrom ev name vals raw) =
              .done := handleConfigManagerEvent_of_other hother
          simp only [eventScript, hcontract, hserves.routes,
            parseEvent_of_carries htopic hspec hcarries, bind, Except.bind, pure, Except.pure,
            hdone]

/-- One event of the contract does to the tables what it says. -/
theorem eventScript_of_delivers (hlawful : types.Lawful) (haddr : Function.Injective addr)
    (hserves : ix.Serves addr unixSeconds contractId) {raw : RawEvent}
    (hraw : raw.contractId = contractId) {e : ConfigEvent A} (hvalid : e.Valid)
    (hdelivers : ix.Delivers addr types unixSeconds raw e) (tables : ConfigTables) :
    ∃ script tables', ix.eventScript raw = .ok script ∧
      (script.run (configTables types) ⟨tables, false⟩).tx = ⟨tables', false⟩ ∧
      tables'.view addr = (tables.view addr).apply e ∧
      tables'.lastUnpauseTime = tables.lastUnpauseTime := by
  obtain ⟨seconds, hseconds⟩ := hdelivers.closedAt
  obtain ⟨tables', hrun, hview, hunpause⟩ :=
    handleConfigManagerEvent_run hlawful haddr hvalid hdelivers.ledger hseconds tables
  have hspec := hserves.specs e
  rw [← hraw] at hspec
  refine ⟨_, tables', ?_, hrun, hview, hunpause⟩
  simp [eventScript, hserves.routes, hraw, parseEvent_of_carries rfl hspec hdelivers.carries,
    bind, Except.bind, pure, Except.pure]

theorem handleEvents_cons {D Q R W : Type} {ix : EventPipeline Q R W} {E : Engine D Q R W}
    {raw : RawEvent} {rest : List RawEvent} {tx middle tx' : Tx D} {script : Script Q R W}
    {effects : List (List W)} (hscript : ix.eventScript raw = .ok script)
    (hrun : (script.run E tx).tx = middle)
    (hrest : ix.handleEvents E middle rest = .ok (tx', effects)) :
    ix.handleEvents E tx (raw :: rest) = .ok (tx', (script.run E tx).writes :: effects) := by
  simp only [handleEvents, hscript, bind, Except.bind, hrun, hrest]
  rfl

/-- The tables say after a page what the page's events have said. -/
theorem handleEvents_of_transcript (hlawful : types.Lawful) (haddr : Function.Injective addr)
    (hserves : ix.Serves addr unixSeconds contractId) {events : List RawEvent}
    {log : List (ConfigEvent A)} (hvalid : ∀ e ∈ log, e.Valid)
    (hlog : ix.Transcript addr types unixSeconds contractId events log) (tables : ConfigTables) :
    ∃ tables' effects, ix.handleEvents (configTables types) ⟨tables, false⟩ events =
        .ok (⟨tables', false⟩, effects) ∧
      tables'.view addr = log.foldl ConfigView.apply (tables.view addr) ∧
      tables'.lastUnpauseTime = tables.lastUnpauseTime := by
  induction hlog generalizing tables with
  | nil => exact ⟨tables, [], rfl, rfl, rfl⟩
  | published hcontract hdelivers hlater ih =>
      obtain ⟨hevalid, hvalid⟩ := List.forall_mem_cons.mp hvalid
      obtain ⟨script, middle, hscript, hrun, hview, hunpause⟩ :=
        eventScript_of_delivers hlawful haddr hserves hcontract hevalid hdelivers tables
      obtain ⟨tables', effects, hrest, hview', hunpause'⟩ := ih hvalid middle
      refine ⟨tables', _, handleEvents_cons hscript hrun hrest, ?_, hunpause'.trans hunpause⟩
      rw [hview', hview, List.foldl_cons]
  | skipped hskips hlater ih =>
      have hscript := eventScript_of_skipped hserves hskips
      obtain ⟨tables', effects, hrest, hview, hunpause⟩ := ih hvalid tables
      exact ⟨tables', _, handleEvents_cons hscript rfl hrest, hview, hunpause⟩

variable (types unixSeconds ix) in
/-- The indexer's rounds, each with the time of its clock. -/
def pollAll (s : IndexerState ConfigTables) (rounds : List (ℕ × Page)) :
    IndexerState ConfigTables :=
  run (fun s round => (ix.poll (configTables types) unixSeconds round.1 s round.2).state) s rounds

omit [DecidableEq A] in
theorem Transcript.of_append {events later : List RawEvent} {log : List (ConfigEvent A)}
    (h : ix.Transcript addr types unixSeconds contractId (events ++ later) log) :
    ∃ first rest, log = first ++ rest ∧
      ix.Transcript addr types unixSeconds contractId events first ∧
      ix.Transcript addr types unixSeconds contractId later rest := by
  induction events generalizing log with
  | nil => exact ⟨[], log, rfl, .nil, h⟩
  | cons raw events ih =>
      cases h with
      | published hcontract hdelivers hlater =>
          obtain ⟨first, rest, rfl, hfirst, hrest⟩ := ih hlater
          exact ⟨_ :: first, rest, rfl, .published hcontract hdelivers hfirst, hrest⟩
      | skipped hskips hlater =>
          obtain ⟨first, rest, rfl, hfirst, hrest⟩ := ih hlater
          exact ⟨first, rest, rfl, .skipped hskips hfirst, hrest⟩

theorem poll_tables {s : IndexerState ConfigTables} {page : Page} {now : ℕ}
    {tables : ConfigTables} {effects : List (List ConfigWrite)}
    (h : ix.handleEvents (configTables types) ⟨s.tables, false⟩ page.events =
      .ok (⟨tables, false⟩, effects)) :
    (ix.poll (configTables types) unixSeconds now s page).state.tables = tables := by
  simp only [poll, h, Bool.false_eq_true, if_false]
  split <;> rfl

/-- The tables say after every round what the events so far have said. -/
theorem pollAll_of_transcript (hlawful : types.Lawful) (haddr : Function.Injective addr)
    (hserves : ix.Serves addr unixSeconds contractId) {rounds : List (ℕ × Page)}
    {log : List (ConfigEvent A)} (hvalid : ∀ e ∈ log, e.Valid)
    (hlog : ix.Transcript addr types unixSeconds contractId (rounds.flatMap (·.2.events)) log)
    (s : IndexerState ConfigTables) :
    (ix.pollAll types unixSeconds s rounds).tables.view addr =
        log.foldl ConfigView.apply (s.tables.view addr) ∧
      (ix.pollAll types unixSeconds s rounds).tables.lastUnpauseTime =
        s.tables.lastUnpauseTime := by
  induction rounds generalizing log s with
  | nil =>
      cases hlog
      exact ⟨rfl, rfl⟩
  | cons round rounds ih =>
      rw [List.flatMap_cons] at hlog
      obtain ⟨first, later, rfl, hfirst, hlater⟩ := hlog.of_append
      obtain ⟨hvfirst, hvlater⟩ := List.forall_mem_append.mp hvalid
      obtain ⟨tables', effects, hevents, hview, hunpause⟩ :=
        handleEvents_of_transcript hlawful haddr hserves hvfirst hfirst s.tables
      have htables :
          (ix.poll (configTables types) unixSeconds round.1 s round.2).state.tables = tables' :=
        poll_tables hevents
      obtain ⟨ihview, ihunpause⟩ := ih hvlater hlater
        (ix.poll (configTables types) unixSeconds round.1 s round.2).state
      rw [htables] at ihview ihunpause
      refine ⟨ihview.trans ?_, ihunpause.trans hunpause⟩
      rw [hview, List.foldl_append]

/-- However the contract's events are cut into pages, after a run of the contract the row
holds the stored configuration, column by column, and the last event of each role and account
says whether the account holds the role. The time of the last unpause is left alone. -/
theorem config_mirrored (hlawful : types.Lawful) (haddr : Function.Injective addr)
    (hserves : ix.Serves addr unixSeconds contractId) (admin : A) (txs : List (A × ConfigCall A))
    {s : IndexerState ConfigTables} (hstart : s.tables.roleEvents = [])
    {rounds : List (ℕ × Page)}
    (hrounds : ix.Transcript addr types unixSeconds contractId (rounds.flatMap (·.2.events))
      (ConfigManager.initializeEvents admin ++
        (ConfigManager.initializeWith admin).runEvents txs)) :
    (∃ row, (ix.pollAll types unixSeconds s rounds).tables.protocolConfig = some row ∧
      row.columns = (run ConfigManager.step (ConfigManager.initializeWith admin) txs).column ∧
      row.lastUnpauseTime = s.tables.lastUnpauseTime ∧
      ∀ (S : Type) (env : Env A S),
        env.cfg = run ConfigManager.step (ConfigManager.initializeWith admin) txs →
        env.pm.lastUnpauseTime = s.tables.lastUnpauseTime → row.read = env.protocolConfigRow) ∧
    ∀ role account,
      (ix.pollAll types unixSeconds s rounds).tables.holds role.symbol (addr account) =
        (run ConfigManager.step (ConfigManager.initializeWith admin) txs).hasRole role account := by
  have hvalid := List.forall_mem_append.mpr ⟨ConfigManager.valid_initializeEvents admin,
    ConfigManager.valid_runEvents (ConfigManager.initializeWith admin) txs⟩
  obtain ⟨hview, hunpause⟩ := pollAll_of_transcript hlawful haddr hserves hvalid hrounds s
  have hnone : ∀ role account, (s.tables.view addr).hasRole role account = false := by
    simp [ConfigTables.view, ConfigTables.holds, hstart]
  rw [List.foldl_append, ConfigManager.view_initializeWith admin _ hnone,
    ← ConfigManager.view_run] at hview
  generalize (ix.pollAll types unixSeconds s rounds).tables = tables at hview hunpause ⊢
  have hpresent := congrArg ConfigView.present hview
  have hcolumns := congrArg ConfigView.columns hview
  have hroles := congrArg ConfigView.hasRole hview
  obtain ⟨row, hrow⟩ := Option.isSome_iff_exists.mp hpresent
  simp only [ConfigTables.view, ConfigManager.view, ConfigTables.lastUnpauseTime, hrow,
    Option.getD_some] at hcolumns hunpause
  refine ⟨⟨row, hrow, hcolumns, hunpause, fun S env hcfg henv => ?_⟩, fun role account => ?_⟩
  · exact ProtocolConfigTuple.read_eq (hcolumns.trans (hcfg ▸ rfl)) (hunpause.trans henv.symm)
  · exact congrFun (congrFun hroles role) account

end EventPipeline

/-! ## A grant after the start -/

/-- The administrator, and the keeper it appoints. -/
def strKey : Bool → String
  | true => "GAAAAAAAAAAAAAAAAAAAAAAAAAAAAAAAAAAAAAAAAAAAAAAAAAAAAWHF"
  | false => "GAAQCAIBAEAQCAIBAEAQCAIBAEAQCAIBAEAQCAIBAEAQCAIBAEAQDZ7H"

/-- The topics and the data of the seven events, decoded, and the topic of one that the
access control library publishes. -/
def configXdr : List (String × Native) :=
  [("AAAADwAAAARyb2xl", .string "role"), ("AAAADwAAAAZmZWVjZmcAAA==", .string "feecfg"),
    ("AAAADwAAAAZmZWVjbmYAAA==", .string "feecnf"), ("AAAADwAAAAZsaW1pdHMAAA==", .string "limits"),
    ("AAAADwAAAAVyYXRlcwAAAA==", .string "rates"), ("AAAADwAAAAV1cGd0bAAAAA==", .string "upgtl"),
    ("AAAAEAAAAAEAAAADAAAADwAAAAVBRE1JTgAAAAAAABIAAAAAAAAAAAAAAAAAAAAAAAAAAAAAAAAAAAAAAAAAAAAAAAAAAAAAAAAAAAAAAAE=",
      .array [.string "ADMIN", .string (strKey true), .boolean true]),
    ("AAAAEAAAAAEAAAADAAAAAwAAIygAAAADAAAD6AAAAAMAAAAA",
      .array [.number 9000, .number 1000, .number 0]),
    ("AAAAEAAAAAEAAAADAAAAAwAAAAoAAAADAAAAZAAAAAoAAAAAAAAAAAAAAAAATEtA",
      .array [.number 10, .number 100, .bigint 5000000]),
    ("AAAAEAAAAAEAAAAIAAAACgAAAAAAAAAAAAAAAACYloAAAAAFAAAAAAAAASwAAAAFAAAAAAAAADwAAAAKAAAAAAAAAAAAAAAAAAAhNAAAAAMAAAH0AAAAAwAAIygAAAADAAAlHAAAAAMAAADI",
      .array [.bigint 10000000, .bigint 300, .bigint 60, .bigint 8500, .number 500, .number 9000,
        .number 9500, .number 200]),
    ("AAAAEAAAAAEAAAAFAAAACgAAAAAAAAAAAAAAAAAAAGQAAAAKAAAAAAAAAAAAAAAAAAAB9AAAAAoAAAAAAAAAAAAAAAAAABOIAAAACgAAAAAAAAAAAAAAAAAAH0AAAAAKAAAAAAAAAAAAAAAAAAAAZA==",
      .array [.bigint 100, .bigint 500, .bigint 5000, .bigint 8000, .bigint 100]),
    ("AAAAEAAAAAEAAAABAAAABQAAAAAAAVGA", .array [.bigint 86400]),
    ("AAAAEAAAAAEAAAADAAAADwAAAAZLRUVQRVIAAAAAABIAAAAAAAAAAAEBAQEBAQEBAQEBAQEBAQEBAQEBAQEBAQEBAQEBAQEBAAAAAAAAAAE=",
      .array [.string "KEEPER", .string (strKey false), .boolean true]),
    ("AAAADwAAAAxyb2xlX2dyYW50ZWQ=", .string "role_granted")]

def configSpecs : List SpecEntry :=
  [ConfigEvent.roleChange .admin true true, .feeSplitsUpdate ⟨0, 0, 0⟩, .feeConfigUpdate ⟨0, 0, 0⟩,
    .limitsUpdate ⟨0, 0, 0, 0, 0, 0, 0, 0⟩, .borrowRateUpdate ⟨0, 0, 0, 0, 0⟩,
    .upgradeTimelockUpdate 0, .adminProposed true true, .adminProposalCancelled true].map
      fun e => .eventV0 (e.spec strKey)

def configPipeline : EventPipeline Empty Empty ConfigWrite where
  fromXDR b64 :=
    match configXdr.lookup b64 with
    | some val => .ok val
    | none => .error "XDR Read Error"
  specMaps := buildContractSpecMaps [("config", configSpecs)]
  routes contractId :=
    if contractId = "config" then some (handleConfigManagerEvent fun _ => "1767225600") else none

def configRaw (topic value : ℕ) : RawEvent where
  contractId := "config"
  topic := [((configXdr.map Prod.fst)[topic]?).getD ""]
  value := ((configXdr.map Prod.fst)[value]?).getD ""
  ledger := 5
  txHash := "00"
  ledgerClosedAt := "2026-01-01T00:00:00Z"

def readNatural (digits : List Char) : Option ℕ :=
  if digits ≠ [] ∧ digits.all Char.isDigit then some (Nat.ofDigitChars 10 digits 0) else none

/-- Decimal texts, with a sign in front or without. -/
def readDecimal (text : String) : Option ℤ :=
  match text.toList with
  | '-' :: digits => (readNatural digits).map fun n : ℕ => -(n : ℤ)
  | digits => (readNatural digits).map fun n : ℕ => (n : ℤ)

theorem readNatural_toDigits (n : ℕ) : readNatural (Nat.toDigits 10 n) = some n := by
  have hdigits : (Nat.toDigits 10 n).all Char.isDigit = true :=
    List.all_eq_true.mpr fun c hc => Nat.isDigit_of_mem_toDigits (by decide) (by decide) hc
  rw [readNatural, if_pos ⟨Nat.toDigits_ne_nil, hdigits⟩, Nat.ofDigitChars_ten_toDigits]

theorem readDecimal_toString (n : ℤ) : readDecimal (toString n) = some n := by
  rw [Int.toString_eq_repr, Int.repr_eq_if]
  split_ifs with hnonneg
  · have hsign : ∀ digits, Nat.toDigits 10 n.toNat ≠ '-' :: digits := by
      intro digits hdigits
      have hminus := Nat.isDigit_of_mem_toDigits (b := 10) (c := '-') (n := n.toNat) (by decide)
        (by decide) (hdigits ▸ List.mem_cons_self)
      exact absurd hminus (by decide)
    rw [readDecimal, Nat.toList_repr]
    split
    · next digits hdigits => exact absurd hdigits (hsign digits)
    · rw [readNatural_toDigits, Option.map_some, Int.toNat_of_nonneg hnonneg]
  · have htext : ("-" ++ (-n).toNat.repr).toList = '-' :: Nat.toDigits 10 (-n).toNat := by simp
    rw [readDecimal, htext]
    simp only [readNatural_toDigits, Option.map_some, Option.some.injEq]
    omega

/-- Integers in four bytes, and decimal texts. -/
def plainTypes : ColumnTypes where
  integer
    | .number n => if -2 ^ 31 ≤ n ∧ n < 2 ^ 31 then some n else none
    | _ => none
  numeric := readDecimal
  text
    | .string s => some s
    | _ => none
  boolean
    | .boolean b => some b
    | _ => none

theorem plainTypes_lawful : plainTypes.Lawful where
  integer _ hlo hhi := if_pos ⟨hlo, hhi⟩
  numeric n := readDecimal_toString n
  text _ := rfl
  boolean _ := rfl

theorem strKey_injective : Function.Injective strKey := by
  intro a b
  cases a <;> cases b <;> simp [strKey]

theorem configPipeline_serves :
    configPipeline.Serves strKey (fun _ => "1767225600") "config" where
  routes := rfl
  specs e := by cases e <;> rfl

theorem configRaw_delivers {e : ConfigEvent Bool} {topic value : ℕ}
    (htopics : (configRaw topic value).topic.map configPipeline.fromXDR = [.ok (.string e.topic)])
    (hvalue : configPipeline.fromXDR (configRaw topic value).value =
      .ok (.array ((e.fields strKey).map Prod.snd)))
    (hnames : (e.spec strKey).topicNames = [])
    (hvals : (e.spec strKey).dataNames.map (e.vals strKey) = (e.fields strKey).map Prod.snd) :
    configPipeline.Delivers strKey plainTypes (fun _ => "1767225600")
      (configRaw topic value) e where
  carries := by
    refine ⟨?_, _, hvals.symm ▸ rfl, hvalue⟩
    rw [hnames]
    exact htopics
  ledger := show 5 < 2 ^ 31 by decide
  closedAt := ⟨1767225600, plainTypes_lawful.numeric 1767225600⟩

/-- The events of the start on one page, the grant and the library's event on the next. -/
def configRounds : List (ℕ × Page) :=
  [(0, ⟨[configRaw 0 6, configRaw 1 7, configRaw 2 8, configRaw 3 9, configRaw 4 10,
      configRaw 5 11], 6, "25769803776-1"⟩),
    (5, ⟨[configRaw 13 12, configRaw 0 12], 8, "34359738368-1"⟩)]

set_option maxRecDepth 1000 in
theorem configRounds_transcript :
    configPipeline.Transcript strKey plainTypes (fun _ => "1767225600") "config"
      (configRounds.flatMap (·.2.events))
      (ConfigManager.initializeEvents true ++
        (ConfigManager.initializeWith true).runEvents [(true, .grantRole .keeper false)]) := by
  have hlog : (ConfigManager.initializeWith true).runEvents [(true, .grantRole .keeper false)] =
      [.roleChange .keeper false true] := rfl
  have hlibrary : configPipeline.Skipped "config" (configRaw 13 12) := .unnamed rfl rfl rfl
  rw [hlog]
  refine .published rfl ?_ <| .published rfl ?_ <| .published rfl ?_ <| .published rfl ?_ <|
    .published rfl ?_ <| .published rfl ?_ <| .skipped hlibrary <| .published rfl ?_ .nil
  all_goals exact configRaw_delivers rfl rfl rfl rfl

open EventPipeline in
theorem config_mirrored_grant :
    (∃ row, (configPipeline.pollAll plainTypes (fun _ => "1767225600")
        ⟨⟨none, []⟩, none, none, 1⟩ configRounds).tables.protocolConfig = some row ∧
      row.columns .lpBps = 9000) ∧
    (configPipeline.pollAll plainTypes (fun _ => "1767225600")
      ⟨⟨none, []⟩, none, none, 1⟩ configRounds).tables.holds "KEEPER" (strKey false) = true := by
  obtain ⟨⟨row, hrow, hcolumns, -, -⟩, hroles⟩ :=
    config_mirrored (s := ⟨⟨none, []⟩, none, none, 1⟩) plainTypes_lawful strKey_injective
      configPipeline_serves true [(true, .grantRole .keeper false)] rfl configRounds_transcript
  refine ⟨⟨row, hrow, ?_⟩, hroles .keeper false⟩
  rw [hcolumns]
  rfl

end Stellars
