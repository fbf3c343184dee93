import Stellars.ShareLedger

/-!
# Lockups of liquidity providers

A lockup belongs to an account, not to its shares. A deposit writes the expiry of
its receiver afresh, and a transfer passes the sender's running expiry on when it
is the later one. Shares stay locked along any chain of transfers as long as no
deposit by an account that still holds locked shares writes an earlier expiry.
-/
namespace Stellars
open GuardedRuns

namespace Env

variable {A S : Type} [DecidableEq A] [DecidableEq S]

def LockedUntil (env : Env A S) (p : Party A) (expiry : ℕ) : Prop :=
  ∃ e, env.vault.lockupExpiresAt p = some e ∧ expiry ≤ e

section Steps

variable {erc : Erc4626} {env env' : Env A S} {op : Op A S}

omit [DecidableEq A] [DecidableEq S] in
theorem depositor_of_shareMove {move : Party A × Party A × ℤ} (h : shareMove op = some move) :
    depositor op = none := by
  cases op with
  | vault caller call => cases call <;> first | rfl | cases h
  | _ => cases h

/-- Lockups are left alone, recorded for a depositor, or passed on. -/
theorem lockup_cases (h : env.apply erc op = .ok env') :
    (depositor op = none ∧ shareMove op = none ∧
      env'.vault.lockupExpiresAt = env.vault.lockupExpiresAt) ∨
    (∃ p, depositor op = some p ∧
      env'.vault.lockupExpiresAt = (env.recordLockup p).vault.lockupExpiresAt) ∨
    (∃ src dst amount, shareMove op = some (src, dst, amount) ∧ depositor op = none ∧
      env'.vault.lockupExpiresAt =
        (env.propagateLockupOnTransfer src dst).vault.lockupExpiresAt) := by
  cases apply_shareEffect h with
  | kept hdeposit hmove lockups => exact .inl ⟨hdeposit, hmove, lockups⟩
  | burned hdeposit hmove nonneg held lockups => exact .inl ⟨hdeposit, hmove, lockups⟩
  | minted hdeposit nonneg lockups => exact .inr (.inl ⟨_, hdeposit, lockups⟩)
  | moved hmove nonneg held lockups =>
      exact .inr (.inr ⟨_, _, _, hmove, depositor_of_shareMove hmove, lockups⟩)

/-! ## Locked shares -/

/-- No account that holds shares under a running lockup gets an earlier expiry. -/
def KeepsExpiries (erc : Erc4626) (env : Env A S) (op : Op A S) : Prop :=
  ∀ p e, 0 < env.vault.shares p → env.vault.lockupExpiresAt p = some e → env.timestamp < e →
    (env.step erc op).LockedUntil p e

/-- A deposit or mint by an account that holds shares under a running lockup
comes no earlier than a cooldown before that lockup ends. -/
def RelocksLater (erc : Erc4626) (env : Env A S) (op : Op A S) : Prop :=
  ∀ p e, depositor op = some p → Succeeds erc env op → 0 < env.vault.shares p →
    env.vault.lockupExpiresAt p = some e → env.timestamp < e →
    e ≤ env.timestamp + env.cfg.protocolLimits.1.cooldownDuration

omit [DecidableEq S] in
theorem lockup_recordLockup (env : Env A S) (user p : Party A) :
    (env.recordLockup user).vault.lockupExpiresAt p = if p = user then
      some (env.timestamp + env.cfg.protocolLimits.1.cooldownDuration)
      else env.vault.lockupExpiresAt p := by
  by_cases h : p = user
  · subst h
    simp [recordLockup, setLockupExpiresAt]
  · simp [recordLockup, setLockupExpiresAt, h]

/-- The lockup of `src` is running and ends after that of `dst`. -/
def OutlastsLockup (env : Env A S) (src dst : Party A) : Prop :=
  ∃ e, env.vault.lockupExpiresAt src = some e ∧ env.timestamp < e ∧
    (env.vault.lockupExpiresAt dst).getD 0 < e

omit [DecidableEq S] in
/-- A lockup that outlasts the recipient's is passed on. -/
theorem propagate_of_outlasts {src dst : Party A} (h : env.OutlastsLockup src dst) :
    (env.propagateLockupOnTransfer src dst).vault.lockupExpiresAt =
      Function.update env.vault.lockupExpiresAt dst (env.vault.lockupExpiresAt src) := by
  obtain ⟨e, he, hrunning, hlater⟩ := h
  simp only [propagateLockupOnTransfer, he, Option.getD_some]
  rw [if_neg (by omega), if_neg (by omega), if_pos hlater]
  rfl

omit [DecidableEq S] in
theorem propagate_of_not_outlasts {src dst : Party A} (h : ¬ env.OutlastsLockup src dst) :
    env.propagateLockupOnTransfer src dst = env := by
  simp only [propagateLockupOnTransfer]
  split_ifs with h0 hexpired hlater
  · rfl
  · rfl
  · cases he : env.vault.lockupExpiresAt src with
    | none =>
        rw [he] at h0
        exact absurd rfl h0
    | some e =>
        rw [he, Option.getD_some] at hexpired hlater
        exact absurd ⟨e, he, by omega, hlater⟩ h
  · rfl

omit [DecidableEq S] in
/-- Passing a lockup on never lowers one. -/
theorem propagate_lockedUntil {src dst p : Party A} {e : ℕ}
    (h : env.vault.lockupExpiresAt p = some e) :
    (env.propagateLockupOnTransfer src dst).LockedUntil p e := by
  by_cases houtlasts : env.OutlastsLockup src dst
  · rw [LockedUntil, propagate_of_outlasts houtlasts]
    by_cases hp : p = dst
    · subst hp
      obtain ⟨e', he', _, hlater⟩ := houtlasts
      rw [h, Option.getD_some] at hlater
      exact ⟨e', (Function.update_self _ _ _).trans he', hlater.le⟩
    · exact ⟨e, (Function.update_of_ne hp _ _).trans h, le_rfl⟩
  · rw [propagate_of_not_outlasts houtlasts]
    exact ⟨e, h, le_rfl⟩

omit [DecidableEq S] in
/-- The recipient of shares is locked for as long as the sender still is. -/
theorem propagate_dst_lockedUntil {src : Party A} (dst : Party A) {e : ℕ}
    (h : env.vault.lockupExpiresAt src = some e) (hrunning : env.timestamp < e) :
    (env.propagateLockupOnTransfer src dst).LockedUntil dst e := by
  by_cases houtlasts : env.OutlastsLockup src dst
  · rw [LockedUntil, propagate_of_outlasts houtlasts]
    exact ⟨e, (Function.update_self _ _ _).trans h, le_rfl⟩
  · rw [propagate_of_not_outlasts houtlasts]
    have hlater : ¬ (env.vault.lockupExpiresAt dst).getD 0 < e :=
      fun hlt => houtlasts ⟨e, h, hrunning, hlt⟩
    cases hd : env.vault.lockupExpiresAt dst with
    | none =>
        rw [hd, Option.getD_none] at hlater
        omega
    | some e' =>
        rw [hd, Option.getD_some] at hlater
        exact ⟨e', hd, not_lt.mp hlater⟩

/-- A step keeps running lockups exactly if it does not relock too early. -/
theorem keepsExpiries_iff (env : Env A S) (op : Op A S) :
    KeepsExpiries erc env op ↔ RelocksLater erc env op := by
  obtain ⟨heq, e, herr⟩ | ⟨hok, -⟩ := step_cases erc env op
  · refine iff_of_true ?_ ?_
    · intro p e _ hexpiry _
      rw [heq]
      exact ⟨e, hexpiry, le_rfl⟩
    · rintro p e _ ⟨env', hok⟩
      cases herr.symm.trans hok
  · constructor
    · intro hkeeps p e hop _ hshares hexpiry hrunning
      obtain ⟨e', he', hle⟩ := hkeeps p e hshares hexpiry hrunning
      obtain ⟨hdeposit, _, _⟩ | ⟨user, hdeposit, h⟩ | ⟨_, _, _, _, hdeposit, _⟩ := lockup_cases hok
      · cases hop.symm.trans hdeposit
      · cases hop.symm.trans hdeposit
        rw [h, lockup_recordLockup, if_pos rfl] at he'
        cases he'
        exact hle
      · cases hop.symm.trans hdeposit
    · intro hlater p e hshares hexpiry hrunning
      obtain ⟨_, _, h⟩ | ⟨user, hdeposit, h⟩ | ⟨src, dst, _, _, _, h⟩ := lockup_cases hok
      · exact ⟨e, h ▸ hexpiry, le_rfl⟩
      · by_cases hp : p = user
        · subst hp
          refine ⟨_, ?_, hlater p e hdeposit ⟨_, hok⟩ hshares hexpiry hrunning⟩
          rw [h, lockup_recordLockup, if_pos rfl]
        · exact ⟨e, by rw [h, lockup_recordLockup, if_neg hp, hexpiry], le_rfl⟩
      · obtain ⟨e', he', hle⟩ := propagate_lockedUntil hexpiry
        exact ⟨e', by rw [h, he'], hle⟩

/-! ## Following the shares of one deposit -/

/-- Who may hold a given lot of shares after one more operation: whoever held
some of it, or received shares from a holder, and has shares left. -/
def passOn (erc : Erc4626) (env : Env A S) (op : Op A S) (holds : Party A → Prop)
    (p : Party A) : Prop :=
  0 < (env.step erc op).vault.shares p ∧ (holds p ∨ ∃ src amount, holds src ∧
    shareMove op = some (src, p, amount) ∧ 0 < amount ∧ Succeeds erc env op)

def mayHold (erc : Erc4626) (env : Env A S) (holds : Party A → Prop) :
    List (Op A S) → Party A → Prop
  | [] => holds
  | op :: ops => mayHold erc (env.step erc op) (passOn erc env op holds) ops

/-- Every possible holder has shares and is locked until `expiry`. -/
def AllLocked (env : Env A S) (holds : Party A → Prop) (expiry : ℕ) : Prop :=
  ∀ p, holds p → 0 < env.vault.shares p ∧ env.LockedUntil p expiry

theorem allLocked_step {holds : Party A → Prop} {expiry : ℕ} (hlater : RelocksLater erc env op)
    (hrunning : (env.step erc op).timestamp < expiry) (h : AllLocked env holds expiry) :
    AllLocked (env.step erc op) (passOn erc env op holds) expiry := by
  have hnow : env.timestamp < expiry := (timestamp_le_step erc env op).trans_lt hrunning
  rintro p ⟨hshares, hold | ⟨src, amount, hsrc, hmove, _, env', hok⟩⟩
  · obtain ⟨hpos, e, he, hle⟩ := h p hold
    obtain ⟨e', he', hle'⟩ := (keepsExpiries_iff env op).mpr hlater p e hpos he (hnow.trans_le hle)
    exact ⟨hshares, e', he', hle.trans hle'⟩
  · obtain ⟨_, e, he, hle⟩ := h src hsrc
    have hstep : env.step erc op = env' := by rw [step, hok]
    rw [hstep] at hshares ⊢
    obtain ⟨_, hmove', _⟩ | ⟨_, hdeposit, _⟩ | ⟨src', dst, _, hmove', _, h⟩ := lockup_cases hok
    · cases hmove.symm.trans hmove'
    · cases (depositor_of_shareMove hmove).symm.trans hdeposit
    · cases hmove.symm.trans hmove'
      obtain ⟨e', he', hle'⟩ := propagate_dst_lockedUntil p he (hnow.trans_le hle)
      exact ⟨hshares, e', by rw [h, he'], hle.trans hle'⟩

theorem timestamp_le_run (ops : List (Op A S)) :
    env.timestamp ≤ (run (step erc) env ops).timestamp := by
  induction ops generalizing env with
  | nil => rfl
  | cons op ops ih => exact (timestamp_le_step erc env op).trans ih

theorem allLocked_run {holds : Party A → Prop} {expiry : ℕ} {ops : List (Op A S)}
    (hlater : Along (step erc) (RelocksLater erc) env ops)
    (hrunning : (run (step erc) env ops).timestamp < expiry) (h : AllLocked env holds expiry) :
    AllLocked (run (step erc) env ops) (mayHold erc env holds ops) expiry := by
  induction ops generalizing env holds with
  | nil => exact h
  | cons op ops ih =>
      exact ih hlater.2 hrunning
        (allLocked_step hlater.1 ((timestamp_le_run ops).trans_lt hrunning) h)

/-- Under a running lockup neither exit goes through. -/
theorem not_succeeds_of_locked {exit : Op A S} {p : Party A} {expiry : ℕ}
    (hexit : exits exit = some p) (hlocked : env.LockedUntil p expiry)
    (hrunning : env.timestamp < expiry) : ¬ Succeeds erc env exit := by
  rintro ⟨env', hok⟩
  obtain ⟨e, he, hle⟩ := hlocked
  have helapsed : env.requireLockupElapsed p = .ok () := by
    cases exit with
    | vault caller call =>
        cases call with
        | withdraw assets receiver owner =>
            cases hexit
            obtain ⟨⟨_, _⟩, hcall, rfl⟩ := map_eq_ok.mp hok
            simp only [withdraw, bind_eq_ok] at hcall
            obtain ⟨_, _, _, helapsed, _⟩ := hcall
            exact helapsed
        | redeem shares receiver owner =>
            cases hexit
            obtain ⟨⟨_, _⟩, hcall, rfl⟩ := map_eq_ok.mp hok
            simp only [redeem, bind_eq_ok] at hcall
            obtain ⟨_, _, _, helapsed, _⟩ := hcall
            exact helapsed
        | _ => cases hexit
    | _ => cases hexit
  simp only [requireLockupElapsed, he, failIf_eq_ok] at helapsed
  omega

/-- In every run, no running lockup of an account that holds shares is ever
lowered exactly if no such account relocks too early. In that case shares minted
at a time `t` under a cooldown `c` stay in the vault until `t + c`, through
whichever accounts they pass. -/
theorem lockup_kept_iff (erc : Erc4626) (admin : A) (usdc : Party A → ℕ) (timestamp : ℕ)
    (ops : List (Op A S)) :
    let start : Env A S := genesis admin usdc timestamp
    (Along (step erc) (KeepsExpiries erc) start ops ↔
      Along (step erc) (RelocksLater erc) start ops) ∧
    (Along (step erc) (RelocksLater erc) start ops → ∀ before op after p,
      ops = before ++ op :: after → depositor op = some p →
      Succeeds erc (run (step erc) start before) op →
      let minting := run (step erc) start before
      let minted := step erc minting op
      ∀ exit holder, exits exit = some holder →
        mayHold erc minted (fun q => q = p ∧ 0 < minted.vault.shares q) after holder →
        (run (step erc) start ops).timestamp <
          minting.timestamp + minting.cfg.protocolLimits.1.cooldownDuration →
        ¬ Succeeds erc (run (step erc) start ops) exit) := by
  intro start
  constructor
  · exact along_congr' fun env op => keepsExpiries_iff env op
  · rintro hlater before op after p rfl hop ⟨env', hok⟩ minting minted exit holder hexit hholds
      hrunning
    have hminted : minted = env' := by
      change step erc minting op = env'
      rw [step, hok]
    have hlocked : AllLocked minted (fun q => q = p ∧ 0 < minted.vault.shares q)
        (minting.timestamp + minting.cfg.protocolLimits.1.cooldownDuration) := by
      rintro q ⟨rfl, hshares⟩
      refine ⟨hshares, _, ?_, le_rfl⟩
      rw [hminted]
      obtain ⟨hdeposit, _, _⟩ | ⟨_, hdeposit, h⟩ | ⟨_, _, _, _, hdeposit, _⟩ := lockup_cases hok
      · cases hop.symm.trans hdeposit
      · cases hop.symm.trans hdeposit
        rw [h, lockup_recordLockup, if_pos rfl]
      · cases hop.symm.trans hdeposit
    have hrun : run (step erc) start (before ++ op :: after) = run (step erc) minted after :=
      run_append (step erc) start before (op :: after)
    rw [hrun] at hrunning ⊢
    have hall := allLocked_run (along_append.mp hlater).2.2 hrunning hlocked
    exact not_succeeds_of_locked hexit (hall holder hholds).2 hrunning

/-- A provider locked until 1300 deposits one more unit after the cooldown has
been set to zero, and withdraws everything at once. -/
theorem lockup_shortened :
    ¬ ∀ (before after : List (Op ℕ ℕ)) (op exit : Op ℕ ℕ) (p holder : Party ℕ),
      let start := genesis 0 fundedAccounts 1000
      let minting := run (step offsetErc) start before
      let minted := step offsetErc minting op
      depositor op = some p → Succeeds offsetErc minting op → exits exit = some holder →
        mayHold offsetErc minted (fun q => q = p ∧ 0 < minted.vault.shares q) after holder →
        (run (step offsetErc) start (before ++ op :: after)).timestamp <
          minting.timestamp + minting.cfg.protocolLimits.1.cooldownDuration →
        ¬ Succeeds offsetErc (run (step offsetErc) start (before ++ op :: after)) exit := by
  intro h
  refine h []
    [.config 0 (.updateProtocolLimits ⟨10000000, 0, 60, 8500, 500, 9000, 9500, 200⟩),
      .vault 1 (.deposit 1 1 1)]
    (.vault 1 (.deposit 10000000000 1 1)) (.vault 1 (.withdraw 10000000000 (.account 1) 1))
    (.account 1) (.account 1) rfl ⟨_, rfl⟩ rfl ⟨?_, .inl ⟨?_, .inl ⟨rfl, ?_⟩⟩⟩ ?_ ⟨_, rfl⟩
  all_goals decide +kernel

end Steps

end Env

end Stellars
