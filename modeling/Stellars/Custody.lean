import Stellars.Books

/-!
# Custody of collateral and escrow

The position manager's own balance is exactly what it owes to open positions,
plus whatever others sent to its address.
-/
namespace Stellars
open GuardedRuns KeyedTotals

def Position.custody (pos : Position) : ℤ := pos.collateral + pos.executionFeeEscrow

namespace Env

variable {A S : Type} [DecidableEq A] [DecidableEq S]

/-- What the position manager holds beyond its open positions. -/
def surplus (env : Env A S) : ℤ :=
  env.usdc .positionManager - total (fun _ pos => pos.custody) env.pm.positions

/-- What a successful operation of a third party credits to the position
manager's address: a token transfer, or a vault payout sent there. -/
def donation (erc : Erc4626) (env : Env A S) (op : Op A S) : ℤ :=
  match env.apply erc op with
  | .ok _ => if (env.opMove erc op).2.1 = .positionManager then (env.opMove erc op).2.2 else 0
  | .error _ => 0

section Steps

variable {erc : Erc4626} {env env' env1 : Env A S} {op : Op A S}

theorem surplus_increase {req : IncreaseRequest A S} {pos : Position}
    (heff : IncreaseEffect env env' req pos) : env'.surplus = env.surplus := by
  obtain ⟨_, _, hcol, hesc⟩ := increasedPosition_grows heff.merged
  have hentry : entry (fun _ p => Position.custody p) env.pm.positions (req.trader, req.symbol) =
      entry (fun _ p => p.collateral) env.pm.positions (req.trader, req.symbol) +
        entry (fun _ p => p.executionFeeEscrow) env.pm.positions (req.trader, req.symbol) := by
    unfold entry
    cases env.pm.positions.lookup (req.trader, req.symbol) <;> rfl
  have husdc : env'.usdc .positionManager =
      env.usdc .positionManager + (req.collateral + env.escrowOwed req) := by
    rw [heff.usdc, moveUsdc_src _ _ (by simp), moveUsdc_dst _ _ (by simp)]
    ring
  rw [surplus, surplus, husdc, heff.positions, total_insert, hentry, Position.custody, hcol, hesc]
  ring

/-- The transfers of a close take exactly the released collateral out. -/
theorem closeTransfers_positionManager {r : CloseRequest A S} (hb : Books env)
    (hr : CloseReady env env1 r) :
    env.closeTransfers r .positionManager = env.usdc .positionManager - r.collateralDelta := by
  have hsplit := r.collateral_split env.cfg.feeConfig.1 (hr.collateralDelta_bounds hb).1
  rw [← hsplit]
  unfold closeTransfers bountyUsdc
  cases hex : r.executor with
  | some addr =>
      simp only [moveUsdc, reduceCtorEq, if_true, if_false]
      ring
  | none =>
      have hkind : r.kind ≠ .liquidation := by
        intro hk
        have hsome := hr.executor (.inl hk)
        rw [hex] at hsome
        cases hsome
      simp only [moveUsdc, CloseRequest.bounty, hkind, reduceCtorEq, if_true, if_false, max_self]
      ring

/-- A close takes the released collateral out, and the escrow when it ends the
position. -/
theorem closeUsdc_positionManager {r : CloseRequest A S} (hb : Books env)
    (hr : CloseReady env env1 r) : env.closeUsdc r .positionManager = env.usdc .positionManager -
      r.collateralDelta - (if r.sizeDelta = r.pos.size then r.pos.executionFeeEscrow else 0) := by
  have hesc := (hb.wellFormed _ _ hr.position).escrow_nonneg
  have hbounty := closeTransfers_positionManager hb hr
  have hpaid : ∀ p, p ≠ .positionManager →
      settledUsdc (env.closeTransfers r) (some p) r.pos.executionFeeEscrow .positionManager =
        env.usdc .positionManager - r.collateralDelta - r.pos.executionFeeEscrow := by
    intro p hp
    rw [settledUsdc, moveUsdc_src _ _ hp.symm, hbounty, max_eq_left hesc]
  unfold closeUsdc
  by_cases hfull : r.sizeDelta = r.pos.size
  · have hpart : r.isPartial = false := by simp [CloseRequest.isPartial, hfull]
    rw [if_pos hfull, hpart]
    cases hk : r.kind with
    | user => exact hpaid _ (by simp)
    | liquidation => exact hpaid _ (by simp)
    | deleverage => exact hpaid _ (by simp)
    | orderExecution =>
        obtain ⟨addr, hex⟩ := Option.isSome_iff_exists.mp (hr.executor (.inr hk))
        rw [hex]
        exact hpaid _ (by simp)
  · have huser : r.kind = .user := by
      by_contra hk
      exact hfull (hr.whole hk)
    have hpart : r.isPartial = true := by
      have hle := hr.size_le
      simp only [CloseRequest.isPartial, decide_eq_true_eq]
      omega
    rw [if_neg hfull, huser, hpart, sub_zero]
    exact hbounty

theorem surplus_close {r : CloseRequest A S} (hb : Books env) (hr : CloseReady env env1 r)
    (heff : CloseEffect env env' r) : env'.surplus = env.surplus := by
  have hcol := hr.collateral
  rw [surplus, surplus, heff.usdc, closeUsdc_positionManager hb hr, heff.positions,
    total_settledPositions hr.position]
  simp only [Position.custody, CloseRequest.remainder]
  split_ifs at hcol ⊢ <;> omega

omit [DecidableEq S] in
theorem surplus_money {src dst : Party A} {amount fees : ℤ} (hsrc : src ≠ .positionManager)
    (h : MoneyEffect env env' src dst amount fees) :
    env'.surplus = env.surplus + (if dst = .positionManager then amount else 0) := by
  rw [surplus, surplus, h.usdc, h.pm]
  simp only [moveUsdc, hsrc.symm, if_false, eq_comm (a := Party.positionManager)]
  ring

omit [DecidableEq A] [DecidableEq S] in
theorem callMove_src_ne (env : Env A S) (call : VaultCall A) :
    (env.callMove erc call).1 ≠ .positionManager := by
  cases call <;> simp [callMove]

theorem surplus_effect (hb : Books env) (hok : env.apply erc op = .ok env')
    (h : Effect erc env op env') : env'.surplus = env.surplus + env.donation erc op := by
  have hd : env.donation erc op =
      if (env.opMove erc op).2.1 = .positionManager then (env.opMove erc op).2.2 else 0 := by
    rw [donation, hok]
  rw [hd]
  cases h with
  | increase awake size_pos effect => simpa [opMove] using surplus_increase effect
  | close names ready effect => simpa [opMove] using surplus_close hb ready effect
  | setTpSl position hdelta =>
      simp only [surplus, setPosition, pm_setUsdc, usdc_setUsdc, moveUsdc_dst, opMove, ne_eq,
        reduceCtorEq, not_false_eq_true, total_insert, entry_some position, Position.custody,
        if_false]
      ring
  | updateIndices awake price_pos =>
      obtain ⟨markets, hf⟩ := env.freshEnv_eq _
      rw [hf]
      simp [opMove, surplus, withMarketPnl, setMarkets]
  | quiet h =>
      cases h with
      | transferUsdc h => exact surplus_money (by simp) h
      | vault h => exact surplus_money (callMove_src_ne _ _) h
      | _ => simp [opMove, surplus]

theorem surplus_step (hb : Books env) (op : Op A S) :
    (env.step erc op).surplus = env.surplus + env.donation erc op := by
  obtain ⟨heq, e, herr⟩ | ⟨hok, heff⟩ := step_cases erc env op
  · rw [heq, donation, herr, add_zero]
  · exact surplus_effect hb hok heff

/-- After any sequence of operations, successful or reverted, the position
manager holds exactly the collateral and escrow of its open positions, plus what
was sent to its address before or during the run by others. -/
theorem custody_conserved (erc : Erc4626) (admin : A) (usdc : Party A → ℕ) (timestamp : ℕ)
    (ops : List (Op A S)) :
    let start : Env A S := genesis admin usdc timestamp
    let final := run (step erc) start ops
    final.usdc .positionManager =
      total (fun _ pos => pos.collateral + pos.executionFeeEscrow) final.pm.positions +
        (usdc .positionManager + sumAlong (step erc) (donation erc) start ops) := by
  intro start final
  have hbooks : ∀ (env : Env A S) op, Books env → Books (step erc env op) :=
    step_preserves fun _ _ _ => effect_books
  have hbalance := run_balance (φ := surplus) ops hbooks (fun env op hb => surplus_step hb op)
    (books_genesis admin usdc timestamp)
  have hstart : start.surplus = usdc .positionManager := sub_zero _
  have hfinal : final.surplus = start.surplus + sumAlong (step erc) (donation erc) start ops :=
    hbalance
  rw [hstart, surplus] at hfinal
  simp only [Position.custody] at hfinal
  omega

/-! ## Accounts that take no part -/

/-- The operation neither draws on nor pays the account. -/
def Spares (a : A) : Op A S → Prop
  | .transferUsdc src dst _ => src ≠ a ∧ dst ≠ .account a
  | .vault _ (.deposit _ _ src) | .vault _ (.mint _ _ src) => src ≠ a
  | .vault _ (.withdraw _ receiver _) | .vault _ (.redeem _ receiver _) => receiver ≠ .account a
  | .vault _ (.claimFees recipient) => recipient ≠ .account a
  | .increase req => req.trader ≠ a
  | .close call => call.trader ≠ a ∧ call.executor ≠ some a
  | .setTpSl trader _ _ _ => trader ≠ a
  | _ => True

omit [DecidableEq S] in
theorem closeUsdc_spared {r : CloseRequest A S} {a : A} (ht : r.trader ≠ a)
    (he : r.executor ≠ some a) : env.closeUsdc r (.account a) = env.usdc (.account a) := by
  have ht' : (Party.account a : Party A) ≠ .account r.trader := by simpa using ht.symm
  have hbounty : env.closeTransfers r (.account a) = env.usdc (.account a) := by
    unfold closeTransfers bountyUsdc
    cases hex : r.executor with
    | none => simp [moveUsdc, ht']
    | some addr =>
        have ha : (Party.account a : Party A) ≠ .account addr := by
          rintro h
          cases h
          exact he hex
        simp [moveUsdc, ht', ha]
  unfold closeUsdc
  cases hrec : escrowRecipient r.trader r.kind r.executor r.isPartial with
  | none => exact hbounty
  | some p =>
      have hp : (Party.account a : Party A) ≠ p := by
        rintro rfl
        unfold escrowRecipient at hrec
        cases hk : r.kind with
        | user | deleverage | liquidation => simp_all
        | orderExecution =>
            rw [hk] at hrec
            obtain ⟨addr, hex, heq⟩ := Option.map_eq_some_iff.mp hrec
            cases heq
            exact he hex
      rw [settledUsdc, moveUsdc_other _ _ (by simp) hp, hbounty]

theorem usdc_spared {a : A} (h : Effect erc env op env') (hs : Spares a op) :
    env'.usdc (.account a) = env.usdc (.account a) := by
  cases h with
  | increase awake size_pos effect =>
      rw [effect.usdc, moveUsdc_other _ _ (by simp) (by simp),
        moveUsdc_other _ _ (by simpa using Ne.symm hs) (by simp)]
  | close names ready effect =>
      rw [effect.usdc]
      exact closeUsdc_spared (names.trader ▸ hs.1) (names.executor ▸ hs.2)
  | setTpSl position hdelta =>
      exact moveUsdc_other _ _ (by simpa using Ne.symm hs) (by simp)
  | @updateIndices _ symbol _ awake price_pos =>
      obtain ⟨markets, hf⟩ := env.freshEnv_eq symbol
      rw [hf]
      rfl
  | quiet h =>
      cases h with
      | transferUsdc h =>
          rw [h.usdc, moveUsdc_other _ _ (by simpa using Ne.symm hs.1) (Ne.symm hs.2)]
      | @vault _ call _ h =>
          rw [h.usdc]
          cases call with
          | deposit | mint =>
              exact moveUsdc_other _ _ (by simpa [callMove] using Ne.symm hs) (by simp [callMove])
          | withdraw | redeem | claimFees =>
              exact moveUsdc_other _ _ (by simp [callMove]) (Ne.symm hs)
          | _ => simp [callMove]
      | _ => rfl

theorem run_usdc_spared {a : A} (ops : List (Op A S)) (hs : ∀ op ∈ ops, Spares a op) :
    (run (step erc) env ops).usdc (.account a) = env.usdc (.account a) := by
  induction ops generalizing env with
  | nil => rfl
  | cons op ops ih =>
      have hstep : (step erc env op).usdc (.account a) = env.usdc (.account a) := by
        obtain ⟨heq, _⟩ | ⟨_, heff⟩ := step_cases erc env op
        · rw [heq]
        · exact usdc_spared heff (hs op List.mem_cons_self)
      exact (ih fun o ho => hs o (List.mem_cons_of_mem _ ho)).trans hstep

end Steps

end Env

end Stellars
