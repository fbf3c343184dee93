import Stellars.Configuration

/-!
# The administrator's handover

The administrator is stored twice, as an address and as the member of a role. A
handover moves both: the administrator proposes an account, and that account
accepts. Grants and revocations of the other roles run in between, and every
account may try any of the calls.
-/
namespace Stellars
open GuardedRuns

namespace ConfigManager

variable {A : Type} [DecidableEq A]

/-- One transaction: the account that signed it, and its call. -/
def step (cfg : ConfigManager A) (tx : A × ConfigCall A) : ConfigManager A :=
  match cfg.call tx.1 tx.2 with
  | .ok cfg' => cfg'
  | .error _ => cfg

def Succeeds (cfg : ConfigManager A) (tx : A × ConfigCall A) : Prop :=
  ∃ cfg', cfg.call tx.1 tx.2 = .ok cfg'

/-- The calls that write the proposal. -/
def ConcernsProposal : ConfigCall A → Prop
  | .proposeAdmin _ => True
  | .acceptAdmin => True
  | .cancelAdminProposal => True
  | _ => False

/-- A transaction that went through and replaced, used or dropped the proposal. -/
def SettlesProposal (cfg : ConfigManager A) (tx : A × ConfigCall A) : Prop :=
  ConcernsProposal tx.2 ∧ cfg.Succeeds tx

/-- The role has one member, the stored address. -/
def SingleAdmin (cfg : ConfigManager A) : Prop :=
  ∀ account, cfg.hasRole .admin account = true ↔ account = cfg.admin

/-! ## One call -/

/-- What a successful call does to the two records of the administrator and to
the proposal. -/
inductive AdminEffect (cfg : ConfigManager A) (caller : A) :
    ConfigCall A → ConfigManager A → Prop
  | proposed (newAdmin : A) (byAdmin : caller = cfg.admin) :
      AdminEffect cfg caller (.proposeAdmin newAdmin) { cfg with pendingAdmin := some newAdmin }
  | accepted (pending : cfg.pendingAdmin = some caller) :
      AdminEffect cfg caller .acceptAdmin
        { (cfg.setRole .admin cfg.admin false).setRole .admin caller true with
          admin := caller, pendingAdmin := none }
  | cancelled : AdminEffect cfg caller .cancelAdminProposal { cfg with pendingAdmin := none }
  | untouched {call : ConfigCall A} {cfg' : ConfigManager A} (other : ¬ ConcernsProposal call)
      (admin : cfg'.admin = cfg.admin) (pending : cfg'.pendingAdmin = cfg.pendingAdmin)
      (members : cfg'.hasRole .admin = cfg.hasRole .admin) : AdminEffect cfg caller call cfg'

variable {cfg cfg' : ConfigManager A} {caller : A} {call : ConfigCall A}

theorem hasRole_setRole_of_ne {role other : Role} (account : A) (held : Bool) (h : other ≠ role) :
    (cfg.setRole role account held).hasRole other = cfg.hasRole other := by
  funext a
  simp [setRole, h]

theorem hasRole_setRole (role : Role) (account a : A) (held : Bool) :
    (cfg.setRole role account held).hasRole role a =
      if a = account then held else cfg.hasRole role a := by
  simp [setRole]

theorem call_adminEffect (h : cfg.call caller call = .ok cfg') :
    AdminEffect cfg caller call cfg' := by
  cases call with
  | proposeAdmin newAdmin =>
      simp only [ConfigManager.call, proposeAdmin, requireAdmin, failIf_bind_eq_ok, not_not,
        Except.ok.injEq] at h
      obtain ⟨hcaller, _, rfl⟩ := h
      exact .proposed newAdmin hcaller
  | acceptAdmin =>
      simp only [ConfigManager.call, acceptAdmin] at h
      split at h
      · cases h
      · rename_i pending hpending
        simp only [failIf_bind_eq_ok, not_not, Except.ok.injEq] at h
        obtain ⟨rfl, _, rfl⟩ := h
        exact .accepted hpending
  | cancelAdminProposal =>
      simp only [ConfigManager.call, cancelAdminProposal, bind_eq_ok, Except.ok.injEq] at h
      obtain ⟨_, _, rfl⟩ := h
      exact .cancelled
  | grantRole role account =>
      simp only [ConfigManager.call, grantRole, bind_eq_ok, failIf_eq_ok, Except.ok.injEq] at h
      obtain ⟨_, _, _, hrole, rfl⟩ := h
      exact .untouched id rfl rfl (hasRole_setRole_of_ne account true (Ne.symm hrole))
  | revokeRole role account =>
      simp only [ConfigManager.call, revokeRole, bind_eq_ok, failIf_eq_ok, Except.ok.injEq] at h
      obtain ⟨_, _, _, hrole, rfl⟩ := h
      exact .untouched id rfl rfl (hasRole_setRole_of_ne account false (Ne.symm hrole))
  | _ =>
      -- A setter of another record.
      simp only [ConfigManager.call, updateFeeSplits, updateProtocolLimits, setFeeConfig,
        updateBorrowRateConfig, setUpgradeTimelock, bind_eq_ok, Except.ok.injEq] at h
      obtain ⟨_, _, _, _, rfl⟩ := h
      exact .untouched id rfl rfl rfl

theorem step_of_ok {tx : A × ConfigCall A} (h : cfg.call tx.1 tx.2 = .ok cfg') :
    cfg.step tx = cfg' := by
  simp [step, h]

/-- A transaction reverts, or has its effect. -/
theorem step_adminEffect (cfg : ConfigManager A) (tx : A × ConfigCall A) :
    ¬ cfg.Succeeds tx ∧ cfg.step tx = cfg ∨
      cfg.Succeeds tx ∧ AdminEffect cfg tx.1 tx.2 (cfg.step tx) := by
  cases h : cfg.call tx.1 tx.2 with
  | error e => exact .inl ⟨by simp [Succeeds, h], by simp [step, h]⟩
  | ok cfg' =>
      rw [step_of_ok h]
      exact .inr ⟨⟨cfg', h⟩, call_adminEffect h⟩

/-! ## The two records agree -/

theorem singleAdmin_initializeWith (admin : A) : (initializeWith admin).SingleAdmin := by
  intro account
  simp [initializeWith]

theorem singleAdmin_step (tx : A × ConfigCall A) (h : cfg.SingleAdmin) :
    (cfg.step tx).SingleAdmin := by
  obtain ⟨caller, call⟩ := tx
  obtain ⟨_, hsame⟩ | ⟨_, heffect⟩ := step_adminEffect cfg (caller, call)
  · rwa [hsame]
  · intro account
    have haccount := h account
    generalize cfg.step (caller, call) = cfg' at heffect ⊢
    cases heffect with
    | proposed newAdmin hcaller => exact haccount
    | cancelled => exact haccount
    | untouched _ hadmin _ hmembers => rw [hmembers, hadmin, haccount]
    | accepted hpending =>
        -- The old member leaves before the new one joins, so it may be the same account.
        simp only [hasRole_setRole]
        split_ifs with hnew hold
        · simp [hnew]
        · simp [hnew]
        · simp only [haccount, hold, hnew]

theorem singleAdmin_run (admin : A) (txs : List (A × ConfigCall A)) :
    (run step (initializeWith admin) txs).SingleAdmin :=
  run_invariant' txs (fun _ tx => singleAdmin_step tx) (singleAdmin_initializeWith admin)

/-! ## Who becomes the administrator -/

/-- The stored address moves only when the proposed account accepts. -/
theorem accepts_of_admin_ne {tx : A × ConfigCall A} (h : (cfg.step tx).admin ≠ cfg.admin) :
    tx = ((cfg.step tx).admin, .acceptAdmin) ∧ cfg.pendingAdmin = some (cfg.step tx).admin := by
  obtain ⟨caller, call⟩ := tx
  obtain ⟨_, hsame⟩ | ⟨_, heffect⟩ := step_adminEffect cfg (caller, call)
  · exact absurd (congrArg ConfigManager.admin hsame) h
  · generalize cfg.step (caller, call) = cfg' at h heffect ⊢
    cases heffect with
    | proposed newAdmin hcaller => exact absurd rfl h
    | cancelled => exact absurd rfl h
    | untouched _ hadmin _ _ => exact absurd hadmin h
    | accepted hpending => exact ⟨rfl, hpending⟩

/-- While the proposal is left alone, so is the administrator. -/
theorem step_of_not_settlesProposal {tx : A × ConfigCall A} (h : ¬ cfg.SettlesProposal tx) :
    (cfg.step tx).pendingAdmin = cfg.pendingAdmin ∧ (cfg.step tx).admin = cfg.admin := by
  obtain ⟨_, hsame⟩ | ⟨hok, heffect⟩ := step_adminEffect cfg tx
  · rw [hsame]
    exact ⟨rfl, rfl⟩
  · have hother : ¬ ConcernsProposal tx.2 := fun hc => h ⟨hc, hok⟩
    obtain ⟨caller, call⟩ := tx
    generalize cfg.step (caller, call) = cfg' at heffect ⊢
    cases heffect with
    | proposed newAdmin hcaller => exact absurd trivial hother
    | cancelled => exact absurd trivial hother
    | accepted hpending => exact absurd trivial hother
    | untouched _ hadmin hpending _ => exact ⟨hpending, hadmin⟩

theorem run_of_not_settlesProposal {txs : List (A × ConfigCall A)}
    (h : Along step (fun cfg tx => ¬ cfg.SettlesProposal tx) cfg txs) :
    (run step cfg txs).pendingAdmin = cfg.pendingAdmin ∧ (run step cfg txs).admin = cfg.admin := by
  constructor
  · exact run_frame (fun _ _ hstep => (step_of_not_settlesProposal hstep).1) h
  · exact run_frame (fun _ _ hstep => (step_of_not_settlesProposal hstep).2) h

/-- Only the administrator's own proposal leaves a proposal behind. -/
theorem proposes_of_settlesProposal {tx : A × ConfigCall A} {newAdmin : A}
    (h : cfg.SettlesProposal tx) (hpending : (cfg.step tx).pendingAdmin = some newAdmin) :
    tx = (cfg.admin, .proposeAdmin newAdmin) ∧ (cfg.step tx).admin = cfg.admin := by
  obtain ⟨caller, call⟩ := tx
  obtain ⟨hfail, _⟩ | ⟨_, heffect⟩ := step_adminEffect cfg (caller, call)
  · exact absurd h.2 hfail
  · generalize cfg.step (caller, call) = cfg' at heffect hpending ⊢
    cases heffect with
    | proposed newAdmin' hcaller =>
        cases hpending
        cases hcaller
        exact ⟨rfl, rfl⟩
    | cancelled => cases hpending
    | accepted _ => cases hpending
    | untouched hother _ _ _ => exact absurd h.1 hother

/-- A proposal that is open was made by the present administrator, and nothing
has touched it since. -/
theorem proposal_of_pendingAdmin {admin newAdmin : A} {txs : List (A × ConfigCall A)}
    (h : (run step (initializeWith admin) txs).pendingAdmin = some newAdmin) :
    ∃ before proposer after, txs = before ++ (proposer, .proposeAdmin newAdmin) :: after ∧
      (run step (initializeWith admin) before).Succeeds (proposer, .proposeAdmin newAdmin) ∧
      proposer = (run step (initializeWith admin) before).admin ∧
      proposer = (run step (initializeWith admin) txs).admin ∧
      Along step (fun cfg tx => ¬ cfg.SettlesProposal tx)
        (run step (initializeWith admin) (before ++ [(proposer, .proposeAdmin newAdmin)])) after := by
  obtain hnever | ⟨before, tx, after, rfl, hlast, hafter⟩ :=
    along_not_or_last SettlesProposal (initializeWith admin) txs
  · rw [(run_of_not_settlesProposal hnever).1] at h
    cases h
  · obtain ⟨hpending, hadmin⟩ := run_of_not_settlesProposal hafter
    rw [← run_append, List.append_assoc, List.singleton_append] at hpending hadmin
    rw [h, run_append] at hpending
    obtain ⟨rfl, hsame⟩ := proposes_of_settlesProposal hlast hpending.symm
    refine ⟨before, _, after, rfl, hlast.2, rfl, ?_, hafter⟩
    rw [hadmin, run_append]
    exact hsame.symm

/-- The role and the stored address always name the same single account. It
changes only when the account that the present administrator proposed last, and
whose proposal was neither replaced nor cancelled since, accepts. -/
theorem single_admin (admin : A) (txs : List (A × ConfigCall A)) :
    (∀ account, (run step (initializeWith admin) txs).hasRole .admin account = true ↔
      account = (run step (initializeWith admin) txs).admin) ∧
    ∀ tx, ((run step (initializeWith admin) txs).step tx).admin ≠
        (run step (initializeWith admin) txs).admin →
      tx = (((run step (initializeWith admin) txs).step tx).admin, .acceptAdmin) ∧
      ∃ before proposer after, txs = before ++ (proposer, .proposeAdmin tx.1) :: after ∧
        (run step (initializeWith admin) before).Succeeds (proposer, .proposeAdmin tx.1) ∧
        proposer = (run step (initializeWith admin) before).admin ∧
        proposer = (run step (initializeWith admin) txs).admin ∧
        Along step (fun cfg tx => ¬ cfg.SettlesProposal tx)
          (run step (initializeWith admin) (before ++ [(proposer, .proposeAdmin tx.1)])) after := by
  refine ⟨singleAdmin_run admin txs, ?_⟩
  intro tx hchange
  obtain ⟨haccept, hpending⟩ := accepts_of_admin_ne hchange
  refine ⟨haccept, proposal_of_pendingAdmin ?_⟩
  rw [hpending]
  exact congrArg (some ∘ Prod.fst) haccept.symm

/-- A first nomination is replaced, and a stranger tries to cancel the second. -/
def secondNomination : List (ℕ × ConfigCall ℕ) :=
  [(0, .proposeAdmin 1), (0, .proposeAdmin 2), (1, .cancelAdminProposal), (1, .acceptAdmin)]

theorem single_admin_secondNomination :
    (2, .acceptAdmin) = ((((run step (initializeWith 0) secondNomination).step
        (2, .acceptAdmin)).admin, .acceptAdmin) : ℕ × ConfigCall ℕ) ∧
    ∃ before proposer after, secondNomination = before ++ (proposer, .proposeAdmin 2) :: after ∧
      (run step (initializeWith 0) before).Succeeds (proposer, .proposeAdmin 2) ∧
      proposer = (run step (initializeWith 0) before).admin ∧
      proposer = (run step (initializeWith 0) secondNomination).admin ∧
      Along step (fun cfg tx => ¬ cfg.SettlesProposal tx)
        (run step (initializeWith 0) (before ++ [(proposer, .proposeAdmin 2)])) after :=
  (single_admin 0 secondNomination).2 (2, .acceptAdmin) (by decide)

end ConfigManager

end Stellars
