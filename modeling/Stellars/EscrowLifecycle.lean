import Stellars.Settlement
import Stellars.PositionBounds
import Stellars.ShareLedger

/-!
# The life of an execution-fee escrow

An escrow is charged when the first order of a position is set, kept while one is
set, and refunded when none is left. A trace of a run counts, in the money that
moves, what each trader has paid into the escrow of a position since it was opened,
and remembers the fee of the last charge.
-/
namespace Stellars
open GuardedRuns KeyedTotals

/-! ## One escrow -/

/-- Payments less refunds since the position was opened, and the fee in force when
the last payment was made. -/
structure EscrowLedger where
  net : ℤ
  charged : ℤ
  deriving Repr, DecidableEq

namespace EscrowLedger

def opened : EscrowLedger := ⟨0, 0⟩

/-- A refund is a negative payment. -/
def pay (l : EscrowLedger) (amount fee : ℤ) : EscrowLedger where
  net := l.net + amount
  charged := if 0 < amount then fee else l.charged

@[simp] theorem pay_zero (l : EscrowLedger) (fee : ℤ) : l.pay 0 fee = l := by
  simp [pay]

end EscrowLedger

/-- A positive escrow belongs to a set order, is one fee of the moment it was
charged, and is what the trader has paid in. -/
structure EscrowSound (l : EscrowLedger) (escrow takeProfit stopLoss : ℤ) : Prop where
  ordered : 0 < escrow → takeProfit ≠ 0 ∨ stopLoss ≠ 0
  single : escrow = 0 ∨ escrow = l.charged
  balanced : l.net = escrow

theorem escrowSound_opened : EscrowSound .opened 0 0 0 :=
  ⟨fun h => absurd h (lt_irrefl 0), .inl rfl, rfl⟩

section Delta

variable {l : EscrowLedger} {prior takeProfit stopLoss fee : ℤ}

/-- Whatever the orders become, applying the delta charges, keeps or refunds once. -/
theorem EscrowSound.settle (h : EscrowSound l prior takeProfit stopLoss) (hp : 0 ≤ prior)
    (hf : 0 ≤ fee) (newTp newSl : ℤ) :
    EscrowSound (l.pay (escrowDelta prior newTp newSl fee) fee)
      (prior + escrowDelta prior newTp newSl fee) newTp newSl := by
  have hsingle := h.single
  have hnet := h.balanced
  simp only [escrowDelta]
  split_ifs with hcharge hrefund
  · -- the first order
    obtain ⟨rfl, horders⟩ := hcharge
    refine ⟨fun _ => horders, ?_, by simp [EscrowLedger.pay, hnet]⟩
    simp only [EscrowLedger.pay]
    split_ifs <;> omega
  · -- the last order is cleared
    refine ⟨fun hpos => ?_, .inl (add_neg_cancel prior), by simp [EscrowLedger.pay, hnet]⟩
    omega
  · -- the escrow stays as it is
    rw [EscrowLedger.pay_zero, add_zero]
    refine ⟨fun hpos => ?_, hsingle, hnet⟩
    by_contra hnone
    exact hrefund ⟨hpos, hnone⟩

/-- Orders that an increase leaves out stay, so it has nothing to refund. -/
theorem EscrowSound.delta_nonneg (h : EscrowSound l prior takeProfit stopLoss) (hf : 0 ≤ fee)
    (newTp newSl : ℤ) :
    0 ≤ escrowDelta prior (resultingTpSl takeProfit stopLoss newTp newSl).1
      (resultingTpSl takeProfit stopLoss newTp newSl).2 fee := by
  have hordered := h.ordered
  simp only [escrowDelta, resultingTpSl]
  split_ifs <;> omega

end Delta

/-! ## The trace -/

namespace Env

variable {A S : Type} [DecidableEq A] [DecidableEq S]

/-- What the trader of `key` pays into its escrow when `op` goes through: the money
that moves beyond collateral, open fee and the settlement of a close. -/
def escrowPaid (env env' : Env A S) (op : Op A S) (key : A × S) : ℤ :=
  match op with
  | .increase req =>
      if key = (req.trader, req.symbol) then
        env.usdc (.account req.trader) - env'.usdc (.account req.trader) -
          (req.collateral + env.openFee req)
      else 0
  | .setTpSl trader symbol _ _ =>
      if key = (trader, symbol) then
        env.usdc (.account trader) - env'.usdc (.account trader)
      else 0
  | .close call =>
      match env.closeRequest call with
      | .ok (_, r) =>
          if key = (r.trader, r.symbol) then
            env.closeTransfers r (.account r.trader) - env'.usdc (.account r.trader)
          else 0
      | .error _ => 0
  | _ => 0

section Paid

variable {env env' : Env A S}

theorem escrowPaid_increase {req : IncreaseRequest A S} {pos : Position}
    (heff : IncreaseEffect env env' req pos) :
    env.escrowPaid env' (.increase req) (req.trader, req.symbol) = env.escrowOwed req := by
  rw [escrowPaid, if_pos rfl, heff.usdc, moveUsdc_other _ _ (by simp) (by simp),
    moveUsdc_src _ _ (by simp)]
  omega

theorem escrowPaid_setTpSl {trader : A} {symbol : S} {takeProfit stopLoss delta : ℤ}
    (husdc : env'.usdc = moveUsdc env.usdc (.account trader) .positionManager delta) :
    env.escrowPaid env' (.setTpSl trader symbol takeProfit stopLoss) (trader, symbol) = delta := by
  rw [escrowPaid, if_pos rfl, husdc, moveUsdc_src _ _ (by simp)]
  omega

/-- A partial close moves no escrow. -/
theorem escrowPaid_close {call : CloseCall A S} {env1 : Env A S} {r : CloseRequest A S}
    (hrequest : env.closeRequest call = .ok (env1, r)) (heff : CloseEffect env env' r)
    (hpart : r.sizeDelta ≠ r.pos.size) (key : A × S) :
    env.escrowPaid env' (.close call) key = 0 := by
  have hready := (closeRequest_ok hrequest).1
  have hkind : r.kind = .user := by
    by_contra hkind
    exact hpart (hready.whole hkind)
  have hpartial : r.isPartial = true := decide_eq_true (lt_of_le_of_ne hready.size_le hpart)
  have hkept : env'.usdc = env.closeTransfers r := by
    rw [heff.usdc, closeUsdc, hkind, hpartial]
    rfl
  simp only [escrowPaid, hrequest, hkept, sub_self, ite_self]

/-- Nor does any operation in the escrow of another position. -/
theorem escrowPaid_other {call : CloseCall A S} {env1 : Env A S} {r : CloseRequest A S}
    (hrequest : env.closeRequest call = .ok (env1, r)) {key : A × S}
    (hkey : key ≠ (r.trader, r.symbol)) : env.escrowPaid env' (.close call) key = 0 := by
  simp only [escrowPaid, hrequest, if_neg hkey]

end Paid

end Env

structure EscrowTrace (A S : Type) where
  env : Env A S
  ledger : A × S → EscrowLedger

namespace EscrowTrace

variable {A S : Type} [DecidableEq A] [DecidableEq S]

/-- The account of a position starts when it is opened. -/
def account (t : EscrowTrace A S) (key : A × S) : EscrowLedger :=
  if (t.env.pm.positions.lookup key).isSome then t.ledger key else .opened

def step (erc : Erc4626) (t : EscrowTrace A S) (op : Op A S) : EscrowTrace A S :=
  match t.env.apply erc op with
  | .ok env' =>
      { env := env'
        ledger := fun key => (t.account key).pay (t.env.escrowPaid env' op key)
          t.env.cfg.feeConfig.1.tpSlExecutionFee }
  | .error _ => t

def genesis (admin : A) (usdc : Party A → ℕ) (timestamp : ℕ) : EscrowTrace A S where
  env := .genesis admin usdc timestamp
  ledger := fun _ => .opened

/-- Every open position's escrow is sound. -/
def Sound (t : EscrowTrace A S) : Prop :=
  ∀ key pos, t.env.pm.positions.lookup key = some pos →
    EscrowSound (t.ledger key) pos.executionFeeEscrow pos.takeProfit pos.stopLoss

section Steps

variable {erc : Erc4626} {t : EscrowTrace A S} {env' : Env A S} {op : Op A S} {key : A × S}
  {pos : Position}

theorem account_of_some (h : t.env.pm.positions.lookup key = some pos) :
    t.account key = t.ledger key := by
  rw [account, h]
  rfl

theorem account_of_none (h : t.env.pm.positions.lookup key = none) :
    t.account key = .opened := by
  rw [account, h]
  rfl

theorem env_step (t : EscrowTrace A S) (op : Op A S) : (t.step erc op).env = t.env.step erc op := by
  unfold step Env.step
  cases t.env.apply erc op <;> rfl

/-- A position that is not touched keeps its account. -/
theorem sound_kept (hs : t.Sound) (hold : t.env.pm.positions.lookup key = some pos) {paid fee : ℤ}
    (hpaid : paid = 0) :
    EscrowSound ((t.account key).pay paid fee) pos.executionFeeEscrow pos.takeProfit
      pos.stopLoss := by
  rw [hpaid, EscrowLedger.pay_zero, account_of_some hold]
  exact hs key pos hold

/-- An increase charges at most the first order. -/
theorem sound_increase {req : IncreaseRequest A S} (hb : Env.Books t.env) (hs : t.Sound)
    (heff : Env.IncreaseEffect t.env env' req pos) :
    EscrowSound ((t.account (req.trader, req.symbol)).pay (t.env.escrowOwed req)
      t.env.cfg.feeConfig.1.tpSlExecutionFee) pos.executionFeeEscrow pos.takeProfit
        pos.stopLoss := by
  have hfee := (FeeConfig.validate_ok t.env.cfg.feeConfig.2).2.2.1
  obtain ⟨old, hold, hside, rfl⟩ | ⟨hnone, rfl⟩ := Env.increasedPosition_cases heff.merged
  · have hsound := hs _ old hold
    have hprior := (hb.wellFormed _ old hold).escrow_nonneg
    have howed : t.env.escrowOwed req = escrowDelta old.executionFeeEscrow
        (resultingTpSl old.takeProfit old.stopLoss req.takeProfit req.stopLoss).1
        (resultingTpSl old.takeProfit old.stopLoss req.takeProfit req.stopLoss).2
        t.env.cfg.feeConfig.1.tpSlExecutionFee := by
      rw [Env.escrowOwed, hold]
      exact max_eq_right (hsound.delta_nonneg hfee req.takeProfit req.stopLoss)
    rw [account_of_some hold]
    simp only [Position.increase, howed]
    exact hsound.settle hprior hfee _ _
  · have howed : t.env.escrowOwed req = escrowDelta 0
        (resultingTpSl 0 0 req.takeProfit req.stopLoss).1
        (resultingTpSl 0 0 req.takeProfit req.stopLoss).2
        t.env.cfg.feeConfig.1.tpSlExecutionFee := by
      rw [Env.escrowOwed, hnone]
      exact max_eq_right (escrowSound_opened.delta_nonneg hfee req.takeProfit req.stopLoss)
    have hsound := escrowSound_opened.settle le_rfl hfee
      (resultingTpSl 0 0 req.takeProfit req.stopLoss).1
      (resultingTpSl 0 0 req.takeProfit req.stopLoss).2
    rw [zero_add, ← howed] at hsound
    rw [account_of_none hnone]
    refine ⟨fun hpos => ?_, hsound.single, hsound.balanced⟩
    have hordered := hsound.ordered hpos
    simp only [resultingTpSl, Position.create] at hordered ⊢
    split_ifs at hordered <;> omega

theorem sound_apply (hr : Env.Reachable erc t.env) (hs : t.Sound)
    (hok : t.env.apply erc op = .ok env') (hpos : env'.pm.positions.lookup key = some pos) :
    EscrowSound ((t.account key).pay (t.env.escrowPaid env' op key)
      t.env.cfg.feeConfig.1.tpSlExecutionFee) pos.executionFeeEscrow pos.takeProfit
        pos.stopLoss := by
  have hb := Env.reachable_books hr
  cases op with
  | increase req =>
      obtain ⟨_, _, merged, heff⟩ := Env.increasePosition_ok hok
      rw [heff.positions] at hpos
      obtain ⟨rfl, rfl⟩ | ⟨hne, hold⟩ := lookup_insert_eq_some hpos
      · rw [Env.escrowPaid_increase heff]
        exact sound_increase hb hs heff
      · exact sound_kept hs hold (if_neg hne)
  | close call =>
      obtain ⟨⟨env1, r⟩, hrequest, hclose⟩ := bind_eq_ok.mp hok
      have hready := (Env.closeRequest_ok hrequest).1
      obtain rfl := hready.refreshed
      have heff : Env.CloseEffect t.env env' r := Env.executeClose_ok hclose
      rw [heff.positions] at hpos
      obtain ⟨rfl, hpart, rfl⟩ | ⟨hne, hold⟩ := Env.lookup_settledPositions hpos
      · rw [Env.escrowPaid_close hrequest heff hpart, EscrowLedger.pay_zero,
          account_of_some hready.position]
        exact hs _ r.pos hready.position
      · exact sound_kept hs hold (Env.escrowPaid_other hrequest hne)
  | setTpSl trader symbol takeProfit stopLoss =>
      obtain ⟨old, hold, rfl⟩ := Env.setTpSl_ok hok
      obtain ⟨rfl, rfl⟩ | ⟨hne, hother⟩ := lookup_insert_eq_some hpos
      · rw [Env.escrowPaid_setTpSl rfl, account_of_some hold]
        exact (hs _ old hold).settle (hb.wellFormed _ old hold).escrow_nonneg
          (FeeConfig.validate_ok t.env.cfg.feeConfig.2).2.2.1 takeProfit stopLoss
      · exact sound_kept hs hother (if_neg hne)
  | updateIndices caller symbol price =>
      refine sound_kept hs ?_ rfl
      obtain ⟨_, _, rfl⟩ := Env.updateIndices_ok hok
      rw [← Env.positions_freshEnv t.env symbol]
      exact hpos
  | _ =>
      refine sound_kept hs ?_ rfl
      cases Env.apply_effect hok with
      | quiet h =>
          rw [← h.samePositions.positions]
          exact hpos

theorem sound_step (hr : Env.Reachable erc t.env) (hs : t.Sound) (op : Op A S) :
    (t.step erc op).Sound := by
  unfold step
  cases hok : t.env.apply erc op with
  | ok env' => exact fun key pos hpos => sound_apply hr hs hok hpos
  | error e => exact hs

/-- The trace follows the contracts, and in every run every escrow is sound, whatever
becomes of the fee in between. -/
theorem escrow_sound (erc : Erc4626) (admin : A) (usdc : Party A → ℕ) (timestamp : ℕ)
    (ops : List (Op A S)) :
    let final := run (step erc) (genesis admin usdc timestamp) ops
    final.env = run (Env.step erc) (.genesis admin usdc timestamp) ops ∧ final.Sound := by
  let Inv : EscrowTrace A S → Prop := fun t => Env.Reachable erc t.env ∧ t.Sound
  have hstep : ∀ t op, Inv t → Inv (t.step erc op) := by
    rintro t op ⟨hr, hs⟩
    refine ⟨?_, sound_step hr hs op⟩
    rw [env_step]
    exact hr.run [op]
  have hstart : Inv (genesis admin usdc timestamp) := by
    refine ⟨⟨admin, usdc, timestamp, [], rfl⟩, fun key pos hpos => ?_⟩
    cases hpos
  exact ⟨run_map env_step _ ops, (run_invariant' ops hstep hstart).2⟩

end Steps

end EscrowTrace
end Stellars
