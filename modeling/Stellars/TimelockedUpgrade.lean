import Stellars.Configuration

/-!
# Timelocked upgrades

Every contract of the protocol installs new code by the same three calls. A
proposal stores a hash with the earliest time it may be installed, a cancel
clears it, and an upgrade consumes it. The timelock is read when the proposal is
made. A run interleaves these calls, for all contracts, with the passing of time
and with calls to the configuration manager.
-/
namespace Stellars
open GuardedRuns

/-- The contracts that implement the propose, execute and cancel flow. -/
inductive TimelockedContract
  | configManager
  | oracleRouter
  | vault
  | positionManager
  deriving Repr, DecidableEq

structure PendingUpgrade (H : Type) where
  wasmHash : H
  eta : ℕ
  deriving Repr, DecidableEq

inductive UpgradeFailure
  | unauthorized
  | noPendingUpgrade
  | timelockNotElapsed
  | hashMismatch
  | overflow
  | config (e : ConfigManagerError)
  deriving Repr, DecidableEq

structure UpgradeState (A H : Type) where
  timestamp : ℕ
  cfg : ConfigManager A
  pending : TimelockedContract → Option (PendingUpgrade H)

inductive UpgradeOp (A H : Type)
  | advance (seconds : ℕ)
  | config (caller : A) (call : ConfigCall A)
  | propose (contract : TimelockedContract) (caller : A) (wasmHash : H)
  | cancel (contract : TimelockedContract) (caller : A)
  | upgrade (contract : TimelockedContract) (operator : A) (newWasmHash : H)

namespace UpgradeState

variable {A H : Type} [DecidableEq A] [DecidableEq H]

def requireRole (s : UpgradeState A H) (caller : A) (role : Role) : Except UpgradeFailure Unit :=
  failIf (s.cfg.hasRole role caller = false) .unauthorized

def setPending (s : UpgradeState A H) (contract : TimelockedContract)
    (pending : Option (PendingUpgrade H)) : UpgradeState A H :=
  { s with pending := Function.update s.pending contract pending }

def propose (s : UpgradeState A H) (contract : TimelockedContract) (caller : A) (wasmHash : H) :
    Except UpgradeFailure (UpgradeState A H) := do
  s.requireRole caller .upgrader
  let eta := s.timestamp + s.cfg.upgradeTimelock
  failIf (u64Max < eta) .overflow
  .ok (s.setPending contract (some ⟨wasmHash, eta⟩))

/-- The code swap itself leaves the stored data as it is. -/
def execute (s : UpgradeState A H) (contract : TimelockedContract) (caller : A)
    (newWasmHash : H) : Except UpgradeFailure (UpgradeState A H) := do
  s.requireRole caller .upgrader
  let pending ← orFail (s.pending contract) .noPendingUpgrade
  failIf (s.timestamp < pending.eta) .timelockNotElapsed
  failIf (pending.wasmHash ≠ newWasmHash) .hashMismatch
  .ok (s.setPending contract none)

/-- A veto without a pending proposal changes nothing. -/
def cancel (s : UpgradeState A H) (contract : TimelockedContract) (caller : A) :
    Except UpgradeFailure (UpgradeState A H) := do
  s.requireRole caller .pauser
  .ok (s.setPending contract none)

def configCall (s : UpgradeState A H) (caller : A) (call : ConfigCall A) :
    Except UpgradeFailure (UpgradeState A H) :=
  match s.cfg.call caller call with
  | .ok cfg => .ok { s with cfg := cfg }
  | .error e => .error (.config e)

def apply (s : UpgradeState A H) : UpgradeOp A H → Except UpgradeFailure (UpgradeState A H)
  | .advance seconds => .ok { s with timestamp := s.timestamp + seconds }
  | .config caller call => s.configCall caller call
  | .propose contract caller wasmHash => s.propose contract caller wasmHash
  | .cancel contract caller => s.cancel contract caller
  | .upgrade contract operator newWasmHash => s.execute contract operator newWasmHash

def step (s : UpgradeState A H) (op : UpgradeOp A H) : UpgradeState A H :=
  match s.apply op with
  | .ok s' => s'
  | .error _ => s

def genesis (admin : A) (timestamp : ℕ) : UpgradeState A H where
  timestamp := timestamp
  cfg := .initializeWith admin
  pending := fun _ => none

def Succeeds (s : UpgradeState A H) (op : UpgradeOp A H) : Prop := ∃ s', s.apply op = .ok s'

/-! ## One step -/

variable {s s' : UpgradeState A H} {contract : TimelockedContract} {caller : A} {hash : H}

omit [DecidableEq A] [DecidableEq H] in
@[simp] theorem pending_setPending (s : UpgradeState A H) (contract : TimelockedContract)
    (pending : Option (PendingUpgrade H)) :
    (s.setPending contract pending).pending contract = pending := by simp [setPending]

omit [DecidableEq A] [DecidableEq H] in
theorem pending_setPending_of_ne (s : UpgradeState A H) {other : TimelockedContract}
    (pending : Option (PendingUpgrade H)) (h : contract ≠ other) :
    (s.setPending other pending).pending contract = s.pending contract := by
  simp [setPending, h]

omit [DecidableEq A] [DecidableEq H] in
theorem propose_ok (h : s.propose contract caller hash = .ok s') :
    s' = s.setPending contract (some ⟨hash, s.timestamp + s.cfg.upgradeTimelock⟩) := by
  simp only [propose, requireRole, failIf_bind_eq_ok, Except.ok.injEq] at h
  exact h.2.2.symm

omit [DecidableEq A] [DecidableEq H] in
theorem cancel_ok (h : s.cancel contract caller = .ok s') : s' = s.setPending contract none := by
  simp only [cancel, requireRole, failIf_bind_eq_ok, Except.ok.injEq] at h
  exact h.2.symm

omit [DecidableEq A] in
theorem execute_ok (h : s.execute contract caller hash = .ok s') :
    ∃ eta, s.pending contract = some ⟨hash, eta⟩ ∧ eta ≤ s.timestamp ∧
      s' = s.setPending contract none := by
  simp only [execute, requireRole, bind_eq_ok, failIf_eq_ok, orFail_eq_ok, Except.ok.injEq,
    not_lt, not_not] at h
  obtain ⟨_, _, ⟨wasmHash, eta⟩, hpending, _, htime, _, rfl, rfl⟩ := h
  exact ⟨eta, hpending, htime, rfl⟩

/-- An accepted configuration call keeps the timelock at or above its floor. -/
theorem call_upgradeTimelock {cfg cfg' : ConfigManager A} {call : ConfigCall A}
    (h : cfg.call caller call = .ok cfg') (hfloor : minUpgradeTimelock ≤ cfg.upgradeTimelock) :
    minUpgradeTimelock ≤ cfg'.upgradeTimelock := by
  cases call with
  | setUpgradeTimelock seconds =>
      simp only [ConfigManager.call, ConfigManager.setUpgradeTimelock, bind_eq_ok,
        failIf_eq_ok, Except.ok.injEq, not_lt] at h
      obtain ⟨_, _, _, hseconds, rfl⟩ := h
      exact hseconds
  | acceptAdmin =>
      simp only [ConfigManager.call, ConfigManager.acceptAdmin] at h
      split at h
      · cases h
      · simp only [failIf_bind_eq_ok, Except.ok.injEq] at h
        obtain ⟨_, _, rfl⟩ := h
        exact hfloor
  | cancelAdminProposal =>
      simp only [ConfigManager.call, ConfigManager.cancelAdminProposal, bind_eq_ok,
        Except.ok.injEq] at h
      obtain ⟨_, _, rfl⟩ := h
      exact hfloor
  | _ =>
      -- The caller's role, one check of the argument, and a write to another field.
      simp only [ConfigManager.call, ConfigManager.grantRole, ConfigManager.revokeRole,
        ConfigManager.updateFeeSplits, ConfigManager.updateProtocolLimits,
        ConfigManager.setFeeConfig, ConfigManager.updateBorrowRateConfig,
        ConfigManager.proposeAdmin, bind_eq_ok, Except.ok.injEq] at h
      obtain ⟨_, _, _, _, rfl⟩ := h
      exact hfloor

/-- The contract whose proposal a call reads or writes. -/
def subject : UpgradeOp A H → Option TimelockedContract
  | .propose contract _ _ => some contract
  | .cancel contract _ => some contract
  | .upgrade contract _ _ => some contract
  | _ => none

/-- A call that went through and set or cleared the proposal of `contract`. -/
def Settles (contract : TimelockedContract) (s : UpgradeState A H) (op : UpgradeOp A H) : Prop :=
  subject op = some contract ∧ s.Succeeds op

theorem step_of_ok {op : UpgradeOp A H} (h : s.apply op = .ok s') : s.step op = s' := by
  simp [step, h]

/-- A call that does not settle a proposal leaves it as it is. -/
theorem pending_step_of_not_settles {op : UpgradeOp A H} (h : ¬ Settles contract s op) :
    (s.step op).pending contract = s.pending contract := by
  cases ho : s.apply op with
  | error e => simp [step, ho]
  | ok s' =>
      rw [step_of_ok ho]
      have hsubject : subject op ≠ some contract := fun hc => h ⟨hc, s', ho⟩
      cases op with
      | advance seconds =>
          cases ho
          rfl
      | config caller call =>
          simp only [apply, configCall] at ho
          split at ho <;> cases ho
          rfl
      | propose other caller hash =>
          have hne : contract ≠ other := fun hc => hsubject (congrArg some hc.symm)
          rw [propose_ok ho, pending_setPending_of_ne _ _ hne]
      | cancel other caller =>
          have hne : contract ≠ other := fun hc => hsubject (congrArg some hc.symm)
          rw [cancel_ok ho, pending_setPending_of_ne _ _ hne]
      | upgrade other operator hash =>
          have hne : contract ≠ other := fun hc => hsubject (congrArg some hc.symm)
          obtain ⟨eta, _, _, rfl⟩ := execute_ok ho
          exact pending_setPending_of_ne _ _ hne

/-- Only a proposal leaves something pending behind. -/
theorem proposes_of_settles {op : UpgradeOp A H} {pending : PendingUpgrade H}
    (h : Settles contract s op) (hp : (s.step op).pending contract = some pending) :
    ∃ proposer, op = .propose contract proposer pending.wasmHash ∧
      pending.eta = s.timestamp + s.cfg.upgradeTimelock := by
  obtain ⟨hsubject, s', ho⟩ := h
  rw [step_of_ok ho] at hp
  cases op with
  | advance seconds => cases hsubject
  | config caller call => cases hsubject
  | propose other proposer hash =>
      cases hsubject
      rw [propose_ok ho, pending_setPending] at hp
      cases hp
      exact ⟨proposer, rfl, rfl⟩
  | cancel other caller =>
      cases hsubject
      rw [cancel_ok ho, pending_setPending] at hp
      cases hp
  | upgrade other operator hash =>
      cases hsubject
      obtain ⟨eta, _, _, rfl⟩ := execute_ok ho
      rw [pending_setPending] at hp
      cases hp

theorem upgradeTimelock_step {op : UpgradeOp A H}
    (h : minUpgradeTimelock ≤ s.cfg.upgradeTimelock) :
    minUpgradeTimelock ≤ (s.step op).cfg.upgradeTimelock := by
  cases ho : s.apply op with
  | error e => simpa [step, ho] using h
  | ok s' =>
      rw [step_of_ok ho]
      cases op with
      | advance seconds =>
          cases ho
          exact h
      | config caller call =>
          simp only [apply, configCall] at ho
          split at ho
          · rename_i cfg hcfg
            cases ho
            exact call_upgradeTimelock hcfg h
          · cases ho
      | propose other caller hash =>
          rw [propose_ok ho]
          exact h
      | cancel other caller =>
          rw [cancel_ok ho]
          exact h
      | upgrade other operator hash =>
          obtain ⟨eta, _, _, rfl⟩ := execute_ok ho
          exact h

/-! ## Runs -/

theorem pending_run_of_not_settles {ops : List (UpgradeOp A H)}
    (h : Along step (fun s op => ¬ Settles contract s op) s ops) :
    (run step s ops).pending contract = s.pending contract :=
  run_frame (φ := fun s : UpgradeState A H => s.pending contract)
    (fun _ _ => pending_step_of_not_settles) h

theorem upgradeTimelock_run {admin : A} {start : ℕ} (ops : List (UpgradeOp A H)) :
    minUpgradeTimelock ≤ (run step (genesis admin start) ops).cfg.upgradeTimelock := by
  let Inv : UpgradeState A H → Prop := fun s => minUpgradeTimelock ≤ s.cfg.upgradeTimelock
  have hstep : ∀ s op, Inv s → Inv (step s op) := fun _ _ => upgradeTimelock_step
  exact run_invariant' ops hstep (Nat.le_refl minUpgradeTimelock)

/-- What is pending was proposed by the last call that settled it. -/
theorem pending_of_run {admin : A} {start : ℕ} {ops : List (UpgradeOp A H)}
    {pending : PendingUpgrade H}
    (h : (run step (genesis admin start) ops).pending contract = some pending) :
    ∃ before proposer after,
      ops = before ++ .propose contract proposer pending.wasmHash :: after ∧
      (run step (genesis admin start) before).Succeeds
        (.propose contract proposer pending.wasmHash) ∧
      Along step (fun s op => ¬ Settles contract s op)
        (run step (genesis admin start) (before ++ [.propose contract proposer pending.wasmHash]))
        after ∧
      pending.eta = (run step (genesis admin start) before).timestamp +
        (run step (genesis admin start) before).cfg.upgradeTimelock := by
  obtain hnever | ⟨before, op, after, rfl, hlast, hafter⟩ :=
    along_not_or_last (Settles contract) (genesis admin start) ops
  · rw [pending_run_of_not_settles hnever] at h
    cases h
  · have hafter' : (run step (genesis admin start) (before ++ [op])).pending contract =
        some pending := by
      rw [← h, ← pending_run_of_not_settles hafter, ← run_append, ← List.append_cons]
    rw [run_append] at hafter'
    obtain ⟨proposer, rfl, heta⟩ := proposes_of_settles hlast hafter'
    exact ⟨before, proposer, after, rfl, hlast.2, hafter, heta⟩

/-- Code is installed only from the latest proposal, after the timelock that was
in force when it was made, at least a day; no cancel, replacement or installation
came between, so every earlier installation is older than the proposal. -/
theorem install_needs_notice (admin : A) (start : ℕ) (ops : List (UpgradeOp A H))
    (contract : TimelockedContract) (operator : A) (hash : H)
    (hinstall : (run step (genesis admin start) ops).Succeeds (.upgrade contract operator hash)) :
    ∃ before proposer after, ops = before ++ .propose contract proposer hash :: after ∧
      (run step (genesis admin start) before).Succeeds (.propose contract proposer hash) ∧
      Along step (fun s op => ¬ Settles contract s op)
        (run step (genesis admin start) (before ++ [.propose contract proposer hash])) after ∧
      (run step (genesis admin start) before).timestamp +
        (run step (genesis admin start) before).cfg.upgradeTimelock ≤
          (run step (genesis admin start) ops).timestamp ∧
      24 * 60 * 60 ≤ (run step (genesis admin start) before).cfg.upgradeTimelock ∧
      ∀ earlier operator' hash' later, ops = earlier ++ .upgrade contract operator' hash' :: later →
        (run step (genesis admin start) earlier).Succeeds (.upgrade contract operator' hash') →
        earlier.length < before.length := by
  obtain ⟨s', hs'⟩ := hinstall
  obtain ⟨eta, hpending, htime, _⟩ := execute_ok hs'
  obtain ⟨before, proposer, after, rfl, hproposed, hafter, heta⟩ := pending_of_run hpending
  refine ⟨before, proposer, after, rfl, hproposed, hafter, ?_, ?_, ?_⟩
  · rw [← show eta = _ from heta]
    exact htime
  · exact upgradeTimelock_run before
  · intro earlier operator' hash' later hsplit hearlier
    obtain hlt | ⟨_, hop⟩ := length_le_of_last hafter hsplit ⟨rfl, hearlier⟩
    · exact hlt
    · cases hop

/-- A grant, a proposal, a day of waiting. -/
def dayOfNotice : List (UpgradeOp ℕ ℕ) :=
  [.config 0 (.grantRole .upgrader 1), .propose .vault 1 7, .advance 86400]

theorem install_needs_notice_dayOfNotice :
    ∃ before proposer after, dayOfNotice = before ++ .propose .vault proposer 7 :: after ∧
      (run step (genesis 0 1000) before).Succeeds (.propose .vault proposer 7) ∧
      Along step (fun s op => ¬ Settles .vault s op)
        (run step (genesis 0 1000) (before ++ [.propose .vault proposer 7])) after ∧
      (run step (genesis 0 1000) before).timestamp +
        (run step (genesis 0 1000) before).cfg.upgradeTimelock ≤
          (run step (genesis 0 1000) dayOfNotice).timestamp ∧
      24 * 60 * 60 ≤ (run step (genesis 0 1000) before).cfg.upgradeTimelock ∧
      ∀ earlier operator' hash' later,
        dayOfNotice = earlier ++ .upgrade .vault operator' hash' :: later →
        (run step (genesis 0 1000) earlier).Succeeds (.upgrade .vault operator' hash') →
        earlier.length < before.length :=
  install_needs_notice 0 1000 dayOfNotice .vault 1 7 ⟨_, rfl⟩

end UpgradeState

end Stellars
