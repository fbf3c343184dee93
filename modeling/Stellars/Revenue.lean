import Stellars.MarketTick

/-!
# Revenue routing and the execution-fee escrow

New revenue moves into the vault and leaves its non-LP slice in the fee buffer;
revenue already in the vault is only re-tagged. The escrow of a take-profit or
stop-loss order is charged once, carried with the position, and settled by the
close that ends it.
-/
namespace Stellars
open GuardedRuns

inductive CloseType
  | user
  | liquidation
  | deleverage
  | orderExecution
  deriving Repr, DecidableEq

/-! ## Predicates -/

/-- On an increase zero means "leave unchanged". -/
def resultingTpSl (priorTp priorSl newTp newSl : ℤ) : ℤ × ℤ :=
  (if newTp > 0 then newTp else priorTp, if newSl > 0 then newSl else priorSl)

def escrowDelta (priorEscrow resultingTp resultingSl tpSlExecutionFee : ℤ) : ℤ :=
  let hasOrders := resultingTp ≠ 0 ∨ resultingSl ≠ 0
  if priorEscrow = 0 ∧ hasOrders then tpSlExecutionFee
  else if priorEscrow > 0 ∧ ¬ hasOrders then -priorEscrow
  else 0

/-- Applying the delta never leaves a negative escrow. -/
theorem escrowDelta_nonneg_after {prior tp sl fee : ℤ} (hp : 0 ≤ prior) (hf : 0 ≤ fee) :
    0 ≤ prior + escrowDelta prior tp sl fee := by
  simp only [escrowDelta]
  split_ifs <;> omega

namespace Env

variable {A S : Type} [DecidableEq A]

/-! ## Revenue -/

def nonLpSlice (env : Env A S) (amount : ℤ) : ℤ :=
  let splits := env.cfg.feeSplits.1
  (amount * ((splits.devBps + splits.stakerBps : ℕ) : ℤ)).tdiv bps

def accrueNonLpSlice (env : Env A S) (amount : ℤ) : Except Error (Env A S) :=
  let nonLp := env.nonLpSlice amount
  if nonLp > 0 then env.accrueFees .positionManager nonLp else .ok env

def recvRevenue (env : Env A S) (amount : ℤ) : Except Error (Env A S) :=
  if amount ≤ 0 then .ok env
  else do
    let env' ← env.transfer .positionManager .vault amount
    env'.accrueNonLpSlice amount

def resliceRevenue (env : Env A S) (amount : ℤ) : Except Error (Env A S) :=
  if amount ≤ 0 then .ok env else env.accrueNonLpSlice amount

/-- The fees that `amount` of revenue adds to the buffer. -/
def feeSlice (env : Env A S) (amount : ℤ) : ℤ := if amount ≤ 0 then 0 else env.nonLpSlice amount

omit [DecidableEq A] in
theorem feeSlice_bounds (env : Env A S) (amount : ℤ) :
    0 ≤ env.feeSlice amount ∧ env.feeSlice amount ≤ max amount 0 := by
  unfold feeSlice nonLpSlice
  split_ifs with h
  · exact ⟨le_rfl, le_max_right _ _⟩
  · have hsum := FeeSplits.validate_ok env.cfg.feeSplits.2
    have hle : ((env.cfg.feeSplits.1.devBps + env.cfg.feeSplits.1.stakerBps : ℕ) : ℤ) ≤ bps := by
      unfold bps
      omega
    have hb := TruncatedDivision.share_bounds (not_le.mp h).le (Int.natCast_nonneg _) (by decide) hle
    exact ⟨hb.1, hb.2.trans (le_max_left _ _)⟩

omit [DecidableEq A] in
@[simp] theorem feeSlice_of_nonpos (env : Env A S) {amount : ℤ} (h : amount ≤ 0) :
    env.feeSlice amount = 0 := if_pos h

/-- `amount` of revenue has been sliced: the buffer grows by the slice, which
fits what the vault holds. -/
theorem accrueNonLpSlice_ok {env env' : Env A S} {amount : ℤ} (hpos : 0 < amount)
    (h : env.accrueNonLpSlice amount = .ok env') :
    env' = env.setUnclaimedFees (env.vault.unclaimedFees + env.feeSlice amount) ∧
      (0 < env.feeSlice amount → env.vault.unclaimedFees + env.feeSlice amount +
        env.vault.reservedUsdc ≤ env.totalAssets) := by
  have hs : env.feeSlice amount = env.nonLpSlice amount := if_neg (by omega)
  have h0 := (env.feeSlice_bounds amount).1
  rw [hs] at h0 ⊢
  simp only [accrueNonLpSlice] at h
  split_ifs at h with hn
  · obtain ⟨_, hfit, rfl⟩ := accrueFees_eq_ok.mp h
    exact ⟨rfl, fun _ => hfit⟩
  · cases h
    have hz : env.nonLpSlice amount = 0 := by omega
    refine ⟨?_, fun hp => absurd hp hn⟩
    rw [hz, add_zero]
    rfl

theorem resliceRevenue_ok {env env' : Env A S} {amount : ℤ}
    (h : env.resliceRevenue amount = .ok env') :
    env' = env.setUnclaimedFees (env.vault.unclaimedFees + env.feeSlice amount) ∧
      (0 < env.feeSlice amount → env.vault.unclaimedFees + env.feeSlice amount +
        env.vault.reservedUsdc ≤ env.totalAssets) := by
  unfold resliceRevenue at h
  split_ifs at h with hle
  · cases h
    rw [feeSlice_of_nonpos env hle, add_zero]
    exact ⟨rfl, fun h0 => absurd h0 (lt_irrefl 0)⟩
  · exact accrueNonLpSlice_ok (by omega) h

theorem recvRevenue_ok {env env' : Env A S} {amount : ℤ}
    (h : env.recvRevenue amount = .ok env') :
    env' = (env.setUsdc (moveUsdc env.usdc .positionManager .vault (max amount 0))).setUnclaimedFees
        (env.vault.unclaimedFees + env.feeSlice amount) ∧
      (0 < env.feeSlice amount → env.vault.unclaimedFees + env.feeSlice amount +
        env.vault.reservedUsdc ≤ env.totalAssets + max amount 0) := by
  unfold recvRevenue at h
  split_ifs at h with hle
  · cases h
    rw [feeSlice_of_nonpos env hle, add_zero, max_eq_right hle, moveUsdc_zero,
      setUsdc_self]
    exact ⟨rfl, fun h0 => absurd h0 (lt_irrefl 0)⟩
  · obtain ⟨env1, htransfer, hslice⟩ := bind_eq_ok.mp h
    obtain ⟨_, _, rfl⟩ := transfer_eq_ok.mp htransfer
    obtain ⟨rfl, hfit⟩ := accrueNonLpSlice_ok (by omega) hslice
    rw [max_eq_left (by omega)]
    refine ⟨rfl, fun h0 => ?_⟩
    have hf := hfit h0
    rw [totalAssets_setUsdc, moveUsdc_dst _ _ (by simp)] at hf
    exact hf

/-! ## Escrow -/

def applyDelta (env : Env A S) (trader : A) (delta : ℤ) : Except Error (Env A S) :=
  if delta = 0 then .ok env
  else if delta > 0 then env.transfer (.account trader) .positionManager delta
  else env.transfer .positionManager (.account trader) (-delta)

/-- Settle an escrow at close, by the kind of the close. -/
def settleOnClose (env : Env A S) (trader : A) (kind : CloseType) (escrow : ℤ)
    (executor : Option A) (isPartial : Bool) : Except Error (Env A S) :=
  if escrow ≤ 0 then .ok env
  else
    match kind with
    | .user =>
        if isPartial then .ok env else env.transfer .positionManager (.account trader) escrow
    | .deleverage => env.transfer .positionManager (.account trader) escrow
    | .orderExecution =>
        match executor with
        | some addr => env.transfer .positionManager (.account addr) escrow
        | none => .ok env
    | .liquidation => env.recvRevenue escrow

theorem applyDelta_ok {env env' : Env A S} {trader : A} {delta : ℤ}
    (h : env.applyDelta trader delta = .ok env') :
    env' = env.setUsdc (moveUsdc env.usdc (.account trader) .positionManager delta) := by
  unfold applyDelta at h
  split_ifs at h with h0 hp
  · cases h
    rw [h0, moveUsdc_zero, setUsdc_self]
  · exact (transfer_eq_ok.mp h).2.2
  · rw [(transfer_eq_ok.mp h).2.2]
    congr 1
    funext p
    simp only [moveUsdc]
    split_ifs <;> omega

/-- Where a positive escrow goes when the close is settled, if it leaves. -/
def escrowRecipient (trader : A) (kind : CloseType) (executor : Option A) (isPartial : Bool) :
    Option (Party A) :=
  match kind with
  | .user => if isPartial then none else some (.account trader)
  | .deleverage => some (.account trader)
  | .orderExecution => executor.map .account
  | .liquidation => some .vault

/-- Only a liquidation turns the escrow into revenue. -/
def escrowRevenue (kind : CloseType) (escrow : ℤ) : ℤ :=
  if kind = .liquidation then escrow else 0

def settledUsdc (usdc : Party A → ℤ) (recipient : Option (Party A)) (escrow : ℤ) :
    Party A → ℤ :=
  match recipient with
  | some p => moveUsdc usdc .positionManager p (max escrow 0)
  | none => usdc

theorem settleOnClose_ok {env env' : Env A S} {trader : A} {kind : CloseType} {escrow : ℤ}
    {executor : Option A} {isPartial : Bool}
    (h : env.settleOnClose trader kind escrow executor isPartial = .ok env') :
    env' = (env.setUsdc (settledUsdc env.usdc
        (escrowRecipient trader kind executor isPartial) escrow)).setUnclaimedFees
          (env.vault.unclaimedFees + env.feeSlice (escrowRevenue kind escrow)) ∧
      (0 < env.feeSlice (escrowRevenue kind escrow) →
        env.vault.unclaimedFees + env.feeSlice (escrowRevenue kind escrow) +
          env.vault.reservedUsdc ≤ env.totalAssets + max escrow 0) := by
  unfold settleOnClose at h
  by_cases hle : escrow ≤ 0
  · rw [if_pos hle] at h
    cases h
    have hr : escrowRevenue kind escrow ≤ 0 := by unfold escrowRevenue; split_ifs <;> omega
    rw [feeSlice_of_nonpos env hr, add_zero]
    refine ⟨?_, fun h0 => absurd h0 (lt_irrefl 0)⟩
    unfold settledUsdc
    split
    · rw [max_eq_right hle, moveUsdc_zero]
      rfl
    · rfl
  · rw [if_neg hle] at h
    have hmax : max escrow 0 = escrow := max_eq_left (by omega)
    -- a close that keeps or pays out the escrow adds no revenue
    have hpaid : ∀ p, env.transfer .positionManager p escrow = .ok env' →
        env' = (env.setUsdc (moveUsdc env.usdc .positionManager p (max escrow 0))).setUnclaimedFees
          (env.vault.unclaimedFees + env.feeSlice 0) := by
      intro p hp
      rw [(transfer_eq_ok.mp hp).2.2, hmax, feeSlice_of_nonpos env le_rfl, add_zero]
      rfl
    have hkept : (.ok env : Except Error (Env A S)) = .ok env' →
        env' = env.setUnclaimedFees (env.vault.unclaimedFees + env.feeSlice 0) := by
      intro hk
      cases hk
      rw [feeSlice_of_nonpos env le_rfl, add_zero]
      rfl
    have hno : 0 < env.feeSlice 0 → env.vault.unclaimedFees + env.feeSlice 0 +
        env.vault.reservedUsdc ≤ env.totalAssets + max escrow 0 := by
      intro h0
      rw [feeSlice_of_nonpos env le_rfl] at h0
      exact absurd h0 (lt_irrefl 0)
    cases kind with
    | user =>
        cases isPartial with
        | true => exact ⟨hkept h, hno⟩
        | false => exact ⟨hpaid _ h, hno⟩
    | deleverage => exact ⟨hpaid _ h, hno⟩
    | orderExecution =>
        cases executor with
        | none => exact ⟨hkept h, hno⟩
        | some addr => exact ⟨hpaid _ h, hno⟩
    | liquidation => exact recvRevenue_ok h

end Env

end Stellars
