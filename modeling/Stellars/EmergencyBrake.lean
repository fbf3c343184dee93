import Stellars.Authority

/-!
# The emergency brake

While the position manager is paused, or a market disabled, no position grows and none is
opened; owners, keepers and liquidators can still close. Neither switch, nor the vault's own,
is ever the reason for which a close is refused.
-/
namespace Stellars
open GuardedRuns KeyedTotals

/-- What is left of `pos` after partial closes. Where `locked`, not even its orders have
changed. -/
structure Position.ReducesTo (locked : Prop) (pos pos' : Position) : Prop where
  size : pos'.size ≤ pos.size
  collateral : pos'.collateral ≤ pos.collateral
  entryPrice : pos'.entryPrice = pos.entryPrice
  entryBorrowIndex : pos'.entryBorrowIndex = pos.entryBorrowIndex
  entryFundingIndex : pos'.entryFundingIndex = pos.entryFundingIndex
  isLong : pos'.isLong = pos.isLong
  lastIncreasedTime : pos'.lastIncreasedTime = pos.lastIncreasedTime
  orders : locked → pos'.takeProfit = pos.takeProfit ∧ pos'.stopLoss = pos.stopLoss ∧
    pos'.executionFeeEscrow = pos.executionFeeEscrow

theorem Position.ReducesTo.refl (locked : Prop) (pos : Position) : pos.ReducesTo locked pos :=
  ⟨le_rfl, le_rfl, rfl, rfl, rfl, rfl, rfl, fun _ => ⟨rfl, rfl, rfl⟩⟩

theorem Position.ReducesTo.trans {locked : Prop} {p1 p2 p3 : Position}
    (h : p1.ReducesTo locked p2) (h' : p2.ReducesTo locked p3) : p1.ReducesTo locked p3 where
  size := h'.size.trans h.size
  collateral := h'.collateral.trans h.collateral
  entryPrice := h'.entryPrice.trans h.entryPrice
  entryBorrowIndex := h'.entryBorrowIndex.trans h.entryBorrowIndex
  entryFundingIndex := h'.entryFundingIndex.trans h.entryFundingIndex
  isLong := h'.isLong.trans h.isLong
  lastIncreasedTime := h'.lastIncreasedTime.trans h.lastIncreasedTime
  orders hl := by
    obtain ⟨htp, hsl, hescrow⟩ := h.orders hl
    obtain ⟨htp', hsl', hescrow'⟩ := h'.orders hl
    exact ⟨htp'.trans htp, hsl'.trans hsl, hescrow'.trans hescrow⟩

namespace Env

variable {A S : Type} [DecidableEq A] [DecidableEq S]

/-- The market takes no increases: the switch of one market, or of all of them. -/
def Halted (env : Env A S) (symbol : S) : Prop :=
  env.pm.isPaused = true ∨ env.pm.marketDisabled symbol = true

/-- The operation is one that ends a halt of `symbol`. -/
def Reopens (symbol : S) : Op A S → Prop
  | .unpause _ => True
  | .setMarketDisabled _ other disabled => other = symbol ∧ disabled = false
  | _ => False

/-- It is one, and it is not refused. -/
def Lifts (erc : Erc4626) (symbol : S) (env : Env A S) (op : Op A S) : Prop :=
  Reopens symbol op ∧ ∃ env', env.apply erc op = .ok env'

/-- The market has been at a standstill: every position in it is a rest of what it was, and
each side's open interest has not grown. -/
structure Reduced (locked : Prop) (symbol : S) (env env' : Env A S) : Prop where
  positions : ∀ trader pos', env'.getPosition trader symbol = some pos' →
    ∃ pos, env.getPosition trader symbol = some pos ∧ pos.ReducesTo locked pos'
  openInterest : ∀ b, (env'.getMarket symbol).openInterest b ≤ (env.getMarket symbol).openInterest b

section Steps

variable {erc : Erc4626} {env env1 env' : Env A S} {op : Op A S} {symbol : S} {locked : Prop}

theorem Reduced.refl (locked : Prop) (symbol : S) (env : Env A S) :
    Reduced locked symbol env env :=
  ⟨fun _ pos h => ⟨pos, h, .refl locked pos⟩, fun _ => le_rfl⟩

theorem Reduced.trans (h : Reduced locked symbol env env1) (h' : Reduced locked symbol env1 env') :
    Reduced locked symbol env env' := by
  refine ⟨fun trader pos' hpos' => ?_, fun b => (h'.openInterest b).trans (h.openInterest b)⟩
  obtain ⟨pos1, hpos1, hreduces'⟩ := h'.positions trader pos' hpos'
  obtain ⟨pos, hpos, hreduces⟩ := h.positions trader pos1 hpos1
  exact ⟨pos, hpos, hreduces.trans hreduces'⟩

/-- Whatever leaves the positions of the market and its open interest alone. -/
theorem Reduced.of_same
    (hpos : ∀ trader, env'.getPosition trader symbol = env.getPosition trader symbol)
    (hoi : ∀ b, (env'.getMarket symbol).openInterest b = (env.getMarket symbol).openInterest b) :
    Reduced locked symbol env env' :=
  ⟨fun trader pos h => ⟨pos, hpos trader ▸ h, .refl locked pos⟩, fun b => (hoi b).le⟩

theorem reduced_of_close {r : CloseRequest A S} (hb : Books env) (hready : CloseReady env env1 r)
    (heff : CloseEffect env env' r) : Reduced locked symbol env env' := by
  obtain ⟨hcol, hcol', _⟩ := hready.collateralDelta_bounds hb
  have hsize : 0 ≤ r.sizeDelta := by
    have hw := (hb.wellFormed _ _ hready.position).size_pos
    have := hready.size_pos
    omega
  refine ⟨fun trader pos' hpos' => ?_, fun b => ?_⟩
  · rw [getPosition, heff.positions] at hpos'
    obtain ⟨hkey, _, rfl⟩ | ⟨_, hold⟩ := lookup_settledPositions hpos'
    · cases hkey
      refine ⟨r.pos, hready.position, ?_⟩
      exact ⟨sub_le_self _ hsize, sub_le_self _ hcol, rfl, rfl, rfl, rfl, rfl,
        fun _ => ⟨rfl, rfl, rfl⟩⟩
    · exact ⟨pos', hold, .refl locked pos'⟩
  · rw [openInterest_getMarket_insert heff.markets]
    split_ifs with hsymbol
    · rw [CloseRequest.closedMarket, MarketInfo.openInterest_setSide, hready.tick, hsymbol]
      simp only [freshTick, openInterest_freshMarket]
      split_ifs with hside
      · rw [hside]
        exact sub_le_self _ hsize
      · exact le_rfl
    · exact le_rfl

/-- The switches that are on stay on. -/
structure SwitchesKept (symbol : S) (env env' : Env A S) : Prop where
  paused : env.pm.isPaused = true → env'.pm.isPaused = true
  disabled : env.pm.marketDisabled symbol = true → env'.pm.marketDisabled symbol = true

omit [DecidableEq A] [DecidableEq S] in
theorem SwitchesKept.of_eq (hpaused : env'.pm.isPaused = env.pm.isPaused)
    (hdisabled : env'.pm.marketDisabled = env.pm.marketDisabled) :
    SwitchesKept symbol env env' :=
  ⟨fun h => hpaused.trans h, fun h => (congrFun hdisabled symbol).trans h⟩

omit [DecidableEq A] [DecidableEq S] in
theorem SwitchesKept.halted (h : SwitchesKept symbol env env') (hh : env.Halted symbol) :
    env'.Halted symbol := hh.imp h.paused h.disabled

/-- An increase that goes through is in another market, and no pause is on. -/
theorem reduced_of_increase {req : IncreaseRequest A S} (hh : env.Halted symbol)
    (h : env.increasePosition req = .ok env') :
    Reduced locked symbol env env' ∧ SwitchesKept symbol env env' := by
  obtain ⟨hawake, _, pos, heff⟩ := increasePosition_ok h
  simp only [increasePosition, requireNotPaused, failIf_bind_eq_ok] at h
  have hother : symbol ≠ req.symbol := by
    rintro rfl
    obtain hpaused | hdisabled := hh
    · rw [hpaused] at hawake
      cases hawake
    · exact h.2.1 hdisabled
  refine ⟨.of_same (fun trader => ?_) (fun b => ?_), .of_eq (by rw [heff.pm]) (by rw [heff.pm])⟩
  · rw [getPosition, heff.positions, AList.lookup_insert_ne]
    · rfl
    · rintro heq
      cases heq
      exact hother rfl
  · rw [openInterest_getMarket_insert heff.markets, if_neg hother]

/-- New orders need the protocol awake; they leave the rest of the position alone. -/
theorem reduced_of_setTpSl {trader : A} {other : S} {takeProfit stopLoss : ℤ}
    (hl : locked → env.pm.isPaused = true)
    (h : env.setTpSl trader other takeProfit stopLoss = .ok env') :
    Reduced locked symbol env env' ∧ SwitchesKept symbol env env' := by
  obtain ⟨pos, hpos, rfl⟩ := setTpSl_ok h
  simp only [setTpSl, requireNotPaused, failIf_bind_eq_ok] at h
  refine ⟨⟨fun owner pos' hpos' => ?_, fun b => le_rfl⟩, .of_eq rfl rfl⟩
  obtain ⟨hkey, rfl⟩ | ⟨_, hold⟩ := lookup_insert_eq_some hpos'
  · cases hkey
    exact ⟨pos, hpos, le_rfl, le_rfl, rfl, rfl, rfl, rfl, rfl, fun hlocked => absurd (hl hlocked) h.1⟩
  · exact ⟨pos', hold, .refl locked pos'⟩

theorem reduced_of_quiet (h : Quiet erc env op env') (hop : ¬ Reopens symbol op) :
    Reduced locked symbol env env' ∧ SwitchesKept symbol env env' := by
  refine ⟨.of_same (fun trader => ?_) (openInterest_getMarket_congr h.samePositions.markets symbol),
    ?_⟩
  · rw [getPosition, h.samePositions.positions]
    rfl
  · cases h with
    | transferUsdc h => exact .of_eq (by rw [h.pm]) (by rw [h.pm])
    | vault h => exact .of_eq (by rw [h.pm]) (by rw [h.pm])
    | pause => exact ⟨fun _ => rfl, id⟩
    | unpause | unpauseAgain => exact absurd trivial hop
    | setMarketDisabled caller other disabled =>
        refine ⟨id, fun hdisabled => ?_⟩
        simp only [Function.update_apply]
        split_ifs with heq
        · by_contra hoff
          exact hop ⟨heq.symm, by simpa using hoff⟩
        · exact hdisabled
    | _ => exact .of_eq rfl rfl

/-- One operation on a halted market. -/
theorem reduced_apply (hb : Books env) (hh : env.Halted symbol)
    (hl : locked → env.pm.isPaused = true) (hop : ¬ Reopens symbol op)
    (h : env.apply erc op = .ok env') :
    Reduced locked symbol env env' ∧ SwitchesKept symbol env env' := by
  cases apply_effect h with
  | increase awake size_pos effect => exact reduced_of_increase hh h
  | close names ready effect =>
      exact ⟨reduced_of_close hb ready effect, .of_eq (by rw [effect.pm]) (by rw [effect.pm])⟩
  | setTpSl position hdelta => exact reduced_of_setTpSl hl h
  | @updateIndices _ other _ awake price_pos =>
      refine ⟨.of_same (fun trader => env.getPosition_freshEnv other trader symbol)
        (openInterest_freshEnv env other symbol), ?_⟩
      obtain ⟨markets, hf⟩ := env.freshEnv_eq other
      rw [hf]
      exact .of_eq rfl rfl
  | quiet h => exact reduced_of_quiet h hop

theorem reduced_step (op : Op A S) (hr : Reachable erc env) (hh : env.Halted symbol)
    (hl : locked → env.pm.isPaused = true) (hop : ¬ Lifts erc symbol env op) :
    Reduced locked symbol env (step erc env op) ∧ SwitchesKept symbol env (step erc env op) := by
  obtain ⟨heq, _⟩ | ⟨hok, _⟩ := step_cases erc env op
  · rw [heq]
    exact ⟨.refl locked symbol env, .of_eq rfl rfl⟩
  · exact reduced_apply (reachable_books hr) hh hl (fun hreopens => hop ⟨hreopens, _, hok⟩) hok

end Steps

/-! ## The way out stays open -/

/-- The errors that the switches raise. -/
def NotSwitch (e : Error) : Prop :=
  e ≠ .positionManager .paused ∧ e ≠ .positionManager .marketDisabled ∧ e ≠ .vault .paused

instance (e : Error) : Decidable (NotSwitch e) := inferInstanceAs (Decidable (_ ∧ _ ∧ _))

section WayOut

variable {env : Env A S}

theorem failIf_notSwitch {c : Prop} [Decidable c] {e : Error} (h : NotSwitch e) :
    FailsOnly NotSwitch (failIf c e) := FailsOnly.failIf fun _ => h

omit [DecidableEq S] in
theorem transfer_notSwitch {src dst : Party A} {amount : ℤ} :
    FailsOnly NotSwitch (env.transfer src dst amount) :=
  .bind (failIf_notSwitch (by decide)) fun _ _ =>
    .bind (failIf_notSwitch (by decide)) fun _ _ => .ok _ _

omit [DecidableEq S] in
theorem accrueNonLpSlice_notSwitch {amount : ℤ} :
    FailsOnly NotSwitch (env.accrueNonLpSlice amount) := by
  simp only [accrueNonLpSlice]
  split_ifs
  · exact .bind (failIf_notSwitch (by decide)) fun _ _ =>
      .bind (failIf_notSwitch (by decide)) fun _ _ =>
        .bind (failIf_notSwitch (by decide)) fun _ _ => .ok _ _
  · exact .ok _ _

omit [DecidableEq S] in
theorem recvRevenue_notSwitch {amount : ℤ} : FailsOnly NotSwitch (env.recvRevenue amount) := by
  unfold recvRevenue
  split_ifs
  · exact .ok _ _
  · exact .bind transfer_notSwitch fun _ _ => accrueNonLpSlice_notSwitch

omit [DecidableEq S] in
theorem settleOnClose_notSwitch {trader : A} {kind : CloseType} {escrow : ℤ}
    {executor : Option A} {isPartial : Bool} :
    FailsOnly NotSwitch (env.settleOnClose trader kind escrow executor isPartial) := by
  unfold settleOnClose
  by_cases hescrow : escrow ≤ 0
  · rw [if_pos hescrow]
    exact .ok _ _
  rw [if_neg hescrow]
  cases kind with
  | user =>
      cases isPartial with
      | true => exact .ok _ _
      | false => exact transfer_notSwitch
  | deleverage => exact transfer_notSwitch
  | orderExecution =>
      cases executor with
      | none => exact .ok _ _
      | some addr => exact transfer_notSwitch
  | liquidation => exact recvRevenue_notSwitch

omit [DecidableEq A] [DecidableEq S] in
/-- A leg of a settlement that is skipped succeeds. -/
theorem if_notSwitch {c : Prop} [Decidable c] {x : Except Error (Env A S)}
    (h : FailsOnly NotSwitch x) : FailsOnly NotSwitch (if c then x else .ok env) := by
  split_ifs
  · exact h
  · exact .ok _ _

theorem executeClose_notSwitch (r : CloseRequest A S) :
    FailsOnly NotSwitch (env.executeClose r) := by
  refine .bind (if_notSwitch ?_) fun env1 _ => ?_
  · exact .bind (failIf_notSwitch (by decide)) fun _ _ =>
      .bind (failIf_notSwitch (by decide)) fun _ _ =>
        .bind (failIf_notSwitch (by decide)) fun _ _ => .ok _ _
  refine .bind (if_notSwitch ?_) fun env2 _ => ?_
  · exact .bind (failIf_notSwitch (by decide)) fun _ _ =>
      .bind (failIf_notSwitch (by decide)) fun _ _ =>
        .bind (failIf_notSwitch (by decide)) fun _ _ => transfer_notSwitch
  refine .bind (if_notSwitch ?_) fun env3 _ => ?_
  · refine .bind transfer_notSwitch fun _ _ => .bind ?_ fun _ _ => .ok _ _
    exact .bind (failIf_notSwitch (by decide)) fun _ _ =>
      .bind (failIf_notSwitch (by decide)) fun _ _ =>
        failIf_notSwitch (by decide)
  refine .bind (if_notSwitch transfer_notSwitch) fun env4 _ => ?_
  refine .bind ?_ fun env5 _ => ?_
  · unfold payBounty
    refine if_notSwitch ?_
    cases r.executor with
    | none => exact .ok _ _
    | some addr => exact transfer_notSwitch
  refine .bind ?_ fun env6 _ => .bind settleOnClose_notSwitch fun env7 _ => ?_
  · unfold resliceRevenue
    split_ifs
    · exact .ok _ _
    · exact accrueNonLpSlice_notSwitch
  · rw [refreshMarketUnrealizedPnl_eq]
    exact .ok _ _

omit [DecidableEq A] in
theorem refreshTick_notSwitch {view : VaultView} {symbol : S} {price : ℤ} :
    FailsOnly NotSwitch (env.refreshTick symbol view price) :=
  refreshTick_failsOnly view (by decide)

/-- No close of any kind is ever refused because of a switch. -/
theorem closePosition_notSwitch (env : Env A S) (call : CloseCall A S) :
    FailsOnly NotSwitch (env.closePosition call) := by
  refine .bind ?_ fun p _ => executeClose_notSwitch p.2
  have hfound : ∀ trader symbol, FailsOnly NotSwitch
      (orFail (env.getPosition trader symbol) (.positionManager .positionNotFound)) :=
    fun _ _ => .orFail fun _ => by decide
  cases call with
  | decrease trader symbol sizeDelta acceptablePrice price =>
      refine .bind (failIf_notSwitch (by decide)) fun _ _ => ?_
      refine .bind (hfound _ _) fun pos _ => ?_
      refine .bind (failIf_notSwitch (by decide)) fun _ _ => ?_
      refine .bind refreshTick_notSwitch fun _ _ => ?_
      exact .bind (failIf_notSwitch (by decide)) fun _ _ =>
        .bind (failIf_notSwitch (by decide)) fun _ _ =>
          .bind (failIf_notSwitch (by decide)) fun _ _ => .ok _ _
  | liquidate caller trader symbol price =>
      refine .bind refreshTick_notSwitch fun _ _ => ?_
      refine .bind (.orFail fun _ => by decide) fun pos _ => ?_
      exact .bind (failIf_notSwitch (by decide)) fun _ _ => .ok _ _
  | deleverage caller trader symbol price =>
      refine .bind (failIf_notSwitch (by decide)) fun _ _ => ?_
      refine .bind refreshTick_notSwitch fun _ _ => ?_
      refine .bind (failIf_notSwitch (by decide)) fun _ _ => ?_
      refine .bind (.orFail fun _ => by decide) fun pos _ => ?_
      exact .bind (failIf_notSwitch (by decide)) fun _ _ => .ok _ _
  | executeOrder caller trader symbol price =>
      refine .bind (hfound _ _) fun pos _ => ?_
      refine .bind (failIf_notSwitch (by decide)) fun _ _ => ?_
      refine .bind refreshTick_notSwitch fun _ _ => ?_
      exact .bind (failIf_notSwitch (by decide)) fun _ _ => .ok _ _

end WayOut

section Runs

variable {erc : Erc4626} {env : Env A S} {symbol : S}

theorem reduced_run {locked : Prop} (hr : Reachable erc env) (hh : env.Halted symbol)
    (hl : locked → env.pm.isPaused = true) {ops : List (Op A S)}
    (hops : Along (step erc) (fun env op => ¬ Lifts erc symbol env op) env ops) :
    Reduced locked symbol env (run (step erc) env ops) ∧ (run (step erc) env ops).Halted symbol := by
  induction ops generalizing env with
  | nil => exact ⟨.refl locked symbol env, hh⟩
  | cons op ops ih =>
      obtain ⟨hreduced, hkept⟩ := reduced_step op hr hh hl hops.1
      obtain ⟨hreduced', hh'⟩ := ih (hr.run [op]) (hkept.halted hh)
        (fun hlocked => hkept.paused (hl hlocked)) hops.2
      exact ⟨hreduced.trans hreduced', hh'⟩

/-- While no call that ends the halt succeeds, whatever is called in whatever order: the market
stays halted, no position in it grows, none is opened, none changes its terms, and under a
pause not even its orders; and in every state on the way all closes are still open. -/
theorem halted_market_shrinks (hr : Reachable erc env) (hh : env.Halted symbol)
    (ops : List (Op A S))
    (hops : Along (step erc) (fun env op => ¬ Lifts erc symbol env op) env ops) :
    Reduced (env.pm.isPaused = true) symbol env (run (step erc) env ops) ∧
      (run (step erc) env ops).Halted symbol ∧
        ∀ call, FailsOnly NotSwitch ((run (step erc) env ops).closePosition call) := by
  obtain ⟨hreduced, hh'⟩ := reduced_run hr hh id hops
  exact ⟨hreduced, hh', fun call => closePosition_notSwitch _ call⟩

/-- A long of 500 under a pause that a stranger tries to end. Its owner halves it. -/
def pausedTrader : Env ℕ ℕ :=
  deployed 10000000000
    [.increase ⟨2, 0, 5000000000, 1000000000, true, 0, 0, 0, 1000000000⟩, .advance 3600, .pause 0]

theorem halted_market_shrinks_pausedLong :
    let ops : List (Op ℕ ℕ) := [.unpause 5, .close (.decrease 2 0 2500000000 0 1000000000)]
    Reduced (pausedTrader.pm.isPaused = true) 0 pausedTrader (run (step offsetErc) pausedTrader ops) ∧
      (run (step offsetErc) pausedTrader ops).Halted 0 ∧
        ∀ call, FailsOnly NotSwitch
          ((run (step offsetErc) pausedTrader ops).closePosition call) := by
  have hrefused : raised (pausedTrader.apply offsetErc (.unpause 5)) =
      some (.positionManager .unauthorized) := by decide +kernel
  refine halted_market_shrinks (reachable_deployed _ _) (.inl (by decide +kernel)) _
    ⟨?_, fun h => h.1, trivial⟩
  rintro ⟨-, env', hok⟩
  cases hrefused.symm.trans (congrArg raised hok)

end Runs

end Env

end Stellars
