import Stellars.Accrual
import Stellars.AggregatePnl
import Stellars.FairExit

/-!
# What backs the traders after an exit

The vault guards exits with the net profit the position manager pushed last. That
figure is the protocol's aggregate, one average entry for each side of a market, and
values every market at the price it was touched at. An exit that pays anything leaves
this figure backed. At the prices of the moment it need not be, and it need not be what
the open positions have really gained.
-/
namespace Stellars
open GuardedRuns KeyedTotals

namespace Env

variable {A S : Type} [DecidableEq A] [DecidableEq S]

/-- The protocol's figure for the traders' net profit with every market valued at `price`: on
each side the open interest, as if it had all been opened at the side's average entry. -/
def netPnlAt (env : Env A S) (price : S → ℤ) : ℤ :=
  total (fun symbol m => m.unrealizedPnl (price symbol)) env.pm.markets

/-- The profit of all open positions, each from its own entry. -/
def netPositionsPnl (env : Env A S) (price : S → ℤ) : ℤ :=
  total (fun key pos => pos.pnlAt (price key.2)) env.pm.positions

/-- What the vault holds beyond reservations and fees covers a net gain in the protocol's
figure. -/
def Backed (env : Env A S) (price : S → ℤ) : Prop :=
  max 0 (env.netPnlAt price) ≤
    env.totalAssets - env.vault.reservedUsdc - env.vault.unclaimedFees

/-- A provider took `assets` out for `shares`. -/
inductive Exits (erc : Erc4626) (env : Env A S) (assets shares : ℤ) (env' : Env A S) : Prop
  | withdraw (receiver : Party A) (owner operator : A)
      (h : env.withdraw erc assets receiver owner operator = .ok (shares, env'))
  | redeem (receiver : Party A) (owner operator : A)
      (h : env.redeem erc shares receiver owner operator = .ok (assets, env'))

/-! ## The price a market was last touched at -/

def markAfter (erc : Erc4626) (env : Env A S) (marks : S → ℤ) (op : Op A S) : S → ℤ :=
  match env.apply erc op, refreshes op with
  | .ok _, some (symbol, mark) => Function.update marks symbol mark
  | _, _ => marks

/-- For each symbol, the mark of the last operation of the run that succeeded
on it. -/
def lastMarks (erc : Erc4626) (env : Env A S) (marks : S → ℤ) : List (Op A S) → S → ℤ
  | [] => marks
  | op :: ops => lastMarks erc (env.step erc op) (markAfter erc env marks op) ops

/-- Every cached profit is the profit at the recorded mark. -/
def Marked (env : Env A S) (marks : S → ℤ) : Prop :=
  ∀ symbol, env.getMarketUnrealizedPnl symbol = (env.getMarket symbol).unrealizedPnl (marks symbol)

section Steps

variable {erc : Erc4626} {env env' : Env A S} {op : Op A S} {marks : S → ℤ}

omit [DecidableEq A] in
@[simp] theorem unrealizedPnl_empty (now : ℕ) (mark : ℤ) :
    (MarketInfo.empty now).unrealizedPnl mark = 0 := calcMarketUnrealizedPnl_empty _ _ _

theorem getMarketUnrealizedPnl_of_ne {symbol other : S} {mark : ℤ} (h : Effect erc env op env')
    (hop : refreshes op = some (symbol, mark)) (hne : other ≠ symbol) :
    env'.getMarketUnrealizedPnl other = env.getMarketUnrealizedPnl other := by
  cases h with
  | increase awake size_pos effect =>
      cases hop
      rw [getMarketUnrealizedPnl_pushed (pnlPushed_increase effect), if_neg hne]
  | close names ready effect =>
      cases hop
      rw [← names.symbol] at hne
      rw [getMarketUnrealizedPnl_pushed (pnlPushed_close effect), if_neg hne]
  | setTpSl position hdelta => cases hop
  | updateIndices awake price_pos =>
      cases hop
      rw [getMarketUnrealizedPnl_pushed (pnlPushed_updateIndices env symbol mark), if_neg hne]
  | quiet h => cases h <;> cases hop

theorem marketUnrealizedPnl_of_not_refreshes (h : Effect erc env op env')
    (hop : refreshes op = none) : env'.pm.marketUnrealizedPnl = env.pm.marketUnrealizedPnl := by
  cases h with
  | increase | close | updateIndices => cases hop
  | setTpSl position hdelta => rfl
  | quiet h => exact h.samePositions.marketUnrealizedPnl

theorem marked_effect_refreshes {symbol : S} {mark : ℤ} (hm : Marked env marks)
    (h : Effect erc env op env') (hop : refreshes op = some (symbol, mark)) :
    Marked env' (Function.update marks symbol mark) := by
  intro other
  by_cases hs : other = symbol
  · subst hs
    rw [Function.update_self]
    exact cached_after_refresh h hop
  · rw [Function.update_of_ne hs, getMarketUnrealizedPnl_of_ne h hop hs,
      (effect_refreshes h hop).others other hs]
    exact hm other

theorem marked_effect_not_refreshes (hm : Marked env marks) (h : Effect erc env op env')
    (hop : refreshes op = none) : Marked env' marks := by
  intro symbol
  have hread := read_getMarket_congr (f := (·.unrealizedPnl (marks symbol))) (fun _ _ => by simp)
    (effect_markets_of_not_refreshes h hop) symbol
  rw [hread, getMarketUnrealizedPnl, marketUnrealizedPnl_of_not_refreshes h hop]
  exact hm symbol

theorem marked_step (hm : Marked env marks) (op : Op A S) :
    Marked (env.step erc op) (markAfter erc env marks op) := by
  obtain ⟨heq, e, herr⟩ | ⟨hok, heff⟩ := step_cases erc env op
  · simp only [markAfter, heq, herr]
    exact hm
  · cases hop : refreshes op with
    | none =>
        simp only [markAfter, hok, hop]
        exact marked_effect_not_refreshes hm heff hop
    | some sm =>
        simp only [markAfter, hok, hop]
        exact marked_effect_refreshes hm heff hop

theorem marked_run (hm : Marked env marks) (ops : List (Op A S)) :
    Marked (run (step erc) env ops) (lastMarks erc env marks ops) := by
  induction ops generalizing env marks with
  | nil => exact hm
  | cons op ops ih => exact ih (marked_step hm op)

theorem marked_genesis (admin : A) (usdc : Party A → ℕ) (timestamp : ℕ) (marks : S → ℤ) :
    Marked (genesis admin usdc timestamp) marks := by
  intro symbol
  exact (unrealizedPnl_empty timestamp (marks symbol)).symm

omit [DecidableEq A] in
/-- The sum of the cached profits is the figure at the recorded marks. -/
theorem netPnlAt_of_marked (hm : Marked env marks) :
    env.netPnlAt marks = total (fun _ pnl => pnl) env.pm.marketUnrealizedPnl := by
  apply total_eq_of_entry
  intro symbol
  have hsymbol := hm symbol
  unfold getMarketUnrealizedPnl getMarket at hsymbol
  unfold entry
  cases hl : env.pm.markets.lookup symbol <;>
    cases hc : env.pm.marketUnrealizedPnl.lookup symbol <;>
    rw [hl, hc] at hsymbol <;>
    simp_all

/-- The vault's copy of the net profit is the figure at the last marks. -/
theorem netGlobalTraderPnl_eq (hr : Reachable erc env) (hm : Marked env marks) :
    env.vault.netGlobalTraderPnl = env.netPnlAt marks := by
  have hmirror := reachable_pnlMirrored hr
  rw [netPnlAt_of_marked hm, hmirror.vault, hmirror.markets]

/-! ## Exits -/

omit [DecidableEq S] in
/-- Either exit pays out of the free liquidity and touches no book. -/
theorem Exits.effect {assets shares : ℤ} (h : Exits erc env assets shares env') :
    assets ≤ env.freeLiquidity ∧
      ∃ receiver, MoneyEffect env env' .vault receiver assets env.vault.unclaimedFees := by
  cases h with
  | withdraw receiver owner operator h =>
      exact ⟨(withdraw_exit h).2.free, receiver, withdraw_effect h⟩
  | redeem receiver owner operator h =>
      obtain ⟨hassets, hexit⟩ := redeem_exit h
      refine ⟨hexit.free, receiver, ?_⟩
      rw [hassets]
      exact redeem_effect h

omit [DecidableEq S] in
theorem MoneyEffect.totalAssets_ge {receiver : Party A} {assets fees : ℤ}
    (h : MoneyEffect env env' .vault receiver assets fees) :
    env.totalAssets - assets ≤ env'.totalAssets := by
  have hnonneg := h.nonneg
  have hafter : env'.totalAssets = moveUsdc env.usdc .vault receiver assets .vault :=
    congrFun h.usdc .vault
  rw [hafter, moveUsdc, if_pos rfl, totalAssets]
  split_ifs <;> omega

/-- The free liquidity deducts the profit at the last marks. -/
theorem backed_of_exit {assets shares : ℤ} (hr : Reachable erc env) (hm : Marked env marks)
    (h : Exits erc env assets shares env') (hpaid : 0 < assets) : Backed env' marks := by
  obtain ⟨hfree, receiver, hmoney⟩ := h.effect
  have hroom := (le_freeLiquidity_iff env hpaid).mp hfree
  have hleft := hmoney.totalAssets_ge
  rw [netGlobalTraderPnl_eq hr hm] at hroom
  rw [Backed, netPnlAt, hmoney.pm, hmoney.reservedUsdc, hmoney.unclaimedFees]
  rw [netPnlAt, max_comm] at hroom
  omega

omit [DecidableEq S] in
/-- An exit that pays nothing moves nothing. -/
theorem Exits.unpaid {shares : ℤ} (h : Exits erc env 0 shares env') :
    env'.totalAssets = env.totalAssets ∧ env'.vault.reservedUsdc = env.vault.reservedUsdc ∧
      env'.vault.unclaimedFees = env.vault.unclaimedFees ∧ env'.pm = env.pm := by
  obtain ⟨_, receiver, hmoney⟩ := h.effect
  refine ⟨?_, hmoney.reservedUsdc, hmoney.unclaimedFees, hmoney.pm⟩
  rw [totalAssets, hmoney.usdc, moveUsdc_zero]
  rfl

/-- In every run, an exit that pays anything leaves the protocol's net profit backed at the
prices the markets were last touched at; any other exit moves nothing. -/
theorem exit_backed_at_last_marks (admin : A) (usdc : Party A → ℕ) (timestamp : ℕ)
    (ops : List (Op A S)) {assets shares : ℤ} {env' : Env A S}
    (h : Exits erc (run (step erc) (genesis admin usdc timestamp) ops) assets shares env') :
    let start : Env A S := genesis admin usdc timestamp
    let env := run (step erc) start ops
    Backed env' (lastMarks erc start (fun _ => 0) ops) ∧ 0 < assets ∨
      assets = 0 ∧ env'.totalAssets = env.totalAssets ∧
        env'.vault.reservedUsdc = env.vault.reservedUsdc ∧
        env'.vault.unclaimedFees = env.vault.unclaimedFees ∧ env'.pm = env.pm := by
  intro start env
  have hr : Reachable erc env := ⟨admin, usdc, timestamp, ops, rfl⟩
  have hm : Marked env (lastMarks erc start (fun _ => 0) ops) :=
    marked_run (marked_genesis admin usdc timestamp _) ops
  obtain ⟨_, _, hmoney⟩ := h.effect
  obtain hpaid | rfl := hmoney.nonneg.lt_or_eq
  · exact .inl ⟨backed_of_exit hr hm h hpaid, hpaid⟩
  · exact .inr ⟨rfl, h.unpaid⟩

/-! ## A gain the vault has not been told of -/

/-- A provider of 10000, and a long of 500 that nobody touches for an hour. -/
def untouchedLong : List (Op ℕ ℕ) :=
  setup 100000000000 ++ [.increase ⟨2, 0, 5000000000, 1000000000, true, 0, 0, 0, 100⟩,
    .advance 3600]

/-- The only provider has left, and a long of 0.1 opened on a basis of zero. -/
def overReserved : List (Op ℕ ℕ) :=
  setup 1000000000000 ++ [.increase ⟨2, 0, 10000000000, 1000000000, true, 0, 0, 0, 1000000000⟩,
    .advance 300, .close (.decrease 2 0 10000000000 0 1000000000),
    .vault 1 (.withdraw 1000009001842 (.account 1) 1),
    .increase ⟨2, 0, 1000000, 10000000, true, 0, 0, 0, 1000000000⟩]

/-- Two longs of 1000 entered at 100 and at 200, and touched at 300. -/
def twoEntries : List (Op ℕ ℕ) :=
  setup 1000000000000 ++ [.increase ⟨2, 0, 10000000000, 1000000000, true, 0, 0, 0, 1000000000⟩,
    .increase ⟨3, 0, 10000000000, 1000000000, true, 0, 0, 0, 2000000000⟩, .advance 300,
    .updateIndices 0 0 3000000000]

/-- The provider may take what is free and leave the long backed at its entry. -/
theorem exit_backed_at_last_marks_untouchedLong :
    ∃ shares env', Exits offsetErc (run (step offsetErc) (genesis 0 fundedAccounts 1000)
        untouchedLong) 95000000000 shares env' ∧
      Backed env' (lastMarks offsetErc (genesis 0 fundedAccounts 1000) (fun _ => 0)
        untouchedLong) := by
  obtain ⟨⟨shares, env'⟩, hwithdraw, -⟩ := exists_ok_of_bind_eq_some
    (x := (run (step offsetErc) (genesis 0 fundedAccounts 1000) untouchedLong).withdraw offsetErc
      95000000000 (.account 1) 1 1)
    (f := fun p => some (decide (0 < p.1))) (b := true) (by decide +kernel)
  have hexit := Exits.withdraw _ _ _ hwithdraw
  refine ⟨shares, env', hexit, ?_⟩
  obtain ⟨hbacked, _⟩ | ⟨hzero, _⟩ := exit_backed_at_last_marks _ _ _ _ hexit
  · exact hbacked
  · cases hzero

/-- At twice the price the long's gain of 500 is not covered. Nothing at all is once an open on
an empty basis has reserved more than the vault holds. And where the entries of a side differ,
its positions have gained more than the average says: 2500 where 2000 are left. -/
theorem exit_unbacked :
    (¬ ∀ (env env' : Env ℕ ℕ) (price : ℕ → ℤ) (assets shares : ℤ), Reachable offsetErc env →
      (∀ symbol, 0 < price symbol) → Exits offsetErc env assets shares env' →
      Backed env' price) ∧
    (¬ ∀ (ops : List (Op ℕ ℕ)) (env' : Env ℕ ℕ) (assets shares : ℤ),
      Exits offsetErc (run (step offsetErc) (genesis 0 fundedAccounts 1000) ops) assets shares
        env' → Backed env' (lastMarks offsetErc (genesis 0 fundedAccounts 1000) (fun _ => 0) ops)) ∧
    ¬ ∀ (ops : List (Op ℕ ℕ)) (env' : Env ℕ ℕ) (assets shares : ℤ), 0 < assets →
      Exits offsetErc (run (step offsetErc) (genesis 0 fundedAccounts 1000) ops) assets shares
        env' → env'.netPositionsPnl (lastMarks offsetErc (genesis 0 fundedAccounts 1000)
          (fun _ => 0) ops) ≤
        env'.totalAssets - env'.vault.reservedUsdc - env'.vault.unclaimedFees := by
  refine ⟨?_, ?_, ?_⟩
  · intro hbacked
    obtain ⟨⟨shares, env'⟩, hwithdraw, hread⟩ := exists_ok_of_bind_eq_some
      (x := (run (step offsetErc) (genesis 0 fundedAccounts 1000) untouchedLong).withdraw
        offsetErc 95004500000 (.account 1) 1 1)
      (f := fun p => some (decide (p.2.totalAssets - p.2.vault.reservedUsdc -
        p.2.vault.unclaimedFees < p.2.netPnlAt fun _ => 200))) (b := true) (by decide +kernel)
    have hcover := hbacked _ env' (fun _ => 200) _ _ ⟨_, _, _, _, rfl⟩ (fun _ => by decide)
      (.withdraw _ _ _ hwithdraw)
    have hread := of_decide_eq_true (Option.some.inj hread)
    exact absurd ((le_max_right _ _).trans hcover) (not_le.mpr hread)
  · intro hbacked
    obtain ⟨⟨assets, env'⟩, hredeem, hread⟩ := exists_ok_of_bind_eq_some
      (x := (run (step offsetErc) (genesis 0 fundedAccounts 1000) overReserved).redeem
        offsetErc 0 (.account 1) 1 1)
      (f := fun p => some (decide (p.2.totalAssets - p.2.vault.reservedUsdc -
        p.2.vault.unclaimedFees < 0))) (b := true) (by decide +kernel)
    have hcover := hbacked _ env' _ _ (.redeem _ _ _ hredeem)
    have hread := of_decide_eq_true (Option.some.inj hread)
    exact absurd ((le_max_left _ _).trans hcover) (not_le.mpr hread)
  · intro hcovered
    obtain ⟨⟨shares, env'⟩, hwithdraw, hread⟩ := exists_ok_of_bind_eq_some
      (x := (run (step offsetErc) (genesis 0 fundedAccounts 1000) twoEntries).withdraw
        offsetErc (run (step offsetErc) (genesis 0 fundedAccounts 1000) twoEntries).freeLiquidity
        (.account 1) 1 1)
      (f := fun p => some (decide (p.2.totalAssets - p.2.vault.reservedUsdc -
        p.2.vault.unclaimedFees < p.2.netPositionsPnl (lastMarks offsetErc
          (genesis 0 fundedAccounts 1000) (fun _ => 0) twoEntries)))) (b := true)
      (by decide +kernel)
    have hcover := hcovered twoEntries env' _ _ (by decide +kernel) (.withdraw _ _ _ hwithdraw)
    exact absurd hcover (not_le.mpr (of_decide_eq_true (Option.some.inj hread)))

end Steps

end Env

end Stellars
