import Stellars.PositionBounds
import Stellars.RecomputedAverages
import Stellars.ReplayedSteps
import Stellars.ShareLedger

/-!
# What the log determines

The log of a run, read from an empty database, gives back the positions, the open
interests and three of the vault's books. The balance, the indices and the averages
come back only under conditions on the run: revenue that arrives without an event is
followed by one that publishes the balance, a market's first position is followed by
an accrual, and truncation swallows what averaging has rounded off.
-/
namespace Stellars
open GuardedRuns KeyedTotals EventLogs Db

/-- A market row holds what the contract stores for the market. -/
structure MarketRow.Mirrors (row : MarketRow) (m : MarketInfo) : Prop where
  openInterest : ∀ isLong, row.openInterest isLong = m.openInterest isLong
  avgPrice : ∀ isLong, row.avgPrice isLong = m.avgPrice isLong
  indices : row.indices = m.indices

section Reproduction

variable {A S : Type} [DecidableEq A] [DecidableEq S]

/-- The tables hold the contracts' storage in every mirrored column. A vault row that
was never written reads as its defaults. -/
structure Reproduces (db : Db A S) (env : Env A S) : Prop where
  totalAssets : db.vaultRow.totalAssets = env.totalAssets
  reservedUsdc : db.vaultRow.reservedUsdc = env.vault.reservedUsdc
  unclaimedFees : db.vaultRow.unclaimedFees = env.vault.unclaimedFees
  netGlobalTraderPnl : db.vaultRow.netGlobalTraderPnl = env.vault.netGlobalTraderPnl
  positions : RowsOf db.positions env.pm.positions
  markets : ∀ symbol m, env.pm.markets.lookup symbol = some m →
    ∃ row, db.markets.lookup symbol = some row ∧ row.Mirrors m

end Reproduction

namespace Env

variable {A S : Type} [DecidableEq A] [DecidableEq S]

/-- A successful increase on a market that was never stored. -/
def OpensMarket (erc : Erc4626) (symbol : S) (env : Env A S) : Op A S → Prop
  | .increase req => req.symbol = symbol ∧ env.pm.markets.lookup symbol = none ∧
      Succeeds erc env (.increase req)
  | _ => False

/-! ## Markets that are not stored yet -/

section Storing

variable {erc : Erc4626} {env env' : Env A S} {op : Op A S} {symbol : S}

theorem OpensMarket.unstored (h : OpensMarket erc symbol env op) :
    env.pm.markets.lookup symbol = none := by
  cases op with
  | increase req => exact h.2.1
  | _ => exact h.elim

theorem OpensMarket.succeeds (h : OpensMarket erc symbol env op) : Succeeds erc env op := by
  cases op with
  | increase req => exact h.2.2
  | _ => exact h.elim

omit [DecidableEq A] in
/-- A market that was never stored reads as refreshed now. -/
theorem unbilled_of_unstored (h : env.pm.markets.lookup symbol = none) : env.unbilled symbol = 0 := by
  rw [unbilled, getMarket_of_unstored h]
  cases hp : env.pm.isPaused with
  | false =>
      rw [timeDelta_awake _ hp]
      simp only [MarketInfo.empty]
      omega
  | true =>
      rw [timeDelta_paused _ hp]
      simp only [MarketInfo.empty]
      omega

theorem billedSeconds_le_unbilled (erc : Erc4626) (symbol : S) (env : Env A S) (op : Op A S) :
    billedSeconds erc symbol env op ≤ env.unbilled symbol := by
  unfold billedSeconds
  split
  · split_ifs <;> omega
  · omega

omit [DecidableEq A] in
theorem stored_of_open {isLong : Bool}
    (hopen : 0 < (env.getMarket symbol).openInterest isLong) :
    (env.pm.markets.lookup symbol).isSome := by
  by_contra hnone
  rw [getMarket_of_unstored (Option.not_isSome_iff_eq_none.mp hnone)] at hopen
  cases isLong <;> exact absurd hopen (lt_irrefl 0)

/-- Only a first position stores a market. -/
theorem stored_iff_opens (hb : Books env) (hok : env.apply erc op = .ok env')
    (hnone : env.pm.markets.lookup symbol = none) :
    (env'.pm.markets.lookup symbol).isSome ↔ OpensMarket erc symbol env op := by
  have hunstored (h : env'.pm.markets.lookup symbol = env.pm.markets.lookup symbol)
      (hopens : ¬ OpensMarket erc symbol env op) :
      (env'.pm.markets.lookup symbol).isSome ↔ OpensMarket erc symbol env op := by
    rw [h, hnone]
    exact iff_of_false Bool.false_ne_true hopens
  cases apply_effect hok with
  | @increase req pos _ awake size_pos effect =>
      by_cases hs : req.symbol = symbol
      · rw [effect.markets, hs, AList.lookup_insert]
        exact iff_of_true rfl ⟨hs, hnone, env', hok⟩
      · apply hunstored
        · rw [effect.markets, AList.lookup_insert_ne (Ne.symm hs)]
        · exact fun h => hs h.1
  | @close call r _ names ready effect =>
      have hstored := stored_of_open ((ready.sizeDelta_pos hb).trans_le (ready.sizeDelta_le_side hb))
      apply hunstored _ id
      rw [effect.markets]
      apply AList.lookup_insert_ne
      rintro rfl
      rw [hnone] at hstored
      cases hstored
  | setTpSl position hdelta => exact hunstored rfl id
  | @updateIndices _ other _ awake price_pos =>
      apply hunstored _ id
      simp only [withMarketPnl, freshEnv]
      split_ifs with hdelta
      · apply AList.lookup_insert_ne
        rintro rfl
        have hzero := unbilled_of_unstored hnone
        rw [unbilled] at hzero
        omega
      · rfl
  | quiet h =>
      apply hunstored (by rw [h.samePositions.markets])
      cases h <;> exact id

omit [DecidableEq A] in
theorem freshMarket_of_not_billed (h : env.unbilled symbol = 0) :
    env.freshMarket symbol = env.getMarket symbol := by
  rw [unbilled] at h
  simp only [freshMarket, accrue, h, lt_irrefl, if_false]

/-- An accrual is billed, or a stored market's indices stay. -/
theorem indices_effect (hok : env.apply erc op = .ok env')
    (hstored : (env.pm.markets.lookup symbol).isSome) :
    (env'.getMarket symbol).indices =
      if 0 < billedSeconds erc symbol env op then (env.freshMarket symbol).indices
      else (env.getMarket symbol).indices := by
  have heffect := apply_effect hok
  cases hop : refreshes op with
  | none =>
      rw [billedSeconds_of_not_refreshes hop, if_neg (lt_irrefl _),
        getMarket_of_stored hstored (effect_markets_of_not_refreshes heffect hop)]
  | some sm =>
      obtain ⟨other, mark⟩ := sm
      have hrefreshed := effect_refreshes heffect hop
      simp only [billedSeconds_pos_iff hok hop]
      by_cases hs : symbol = other
      · subst hs
        have hindices : (env'.getMarket symbol).indices = (env.freshMarket symbol).indices := by
          simp only [MarketInfo.indices, hrefreshed.borrow, hrefreshed.funding, hrefreshed.updated]
        rw [hindices]
        split_ifs with hbilled
        · rfl
        · apply congrArg MarketInfo.indices
          apply freshMarket_of_not_billed
          exact Nat.eq_zero_of_not_pos fun hpos => hbilled ⟨rfl, hpos⟩
      · rw [hrefreshed.others symbol hs, if_neg fun h => hs h.1]

end Storing

theorem silentInflow_nonneg (erc : Erc4626) (env : Env A S) (op : Op A S) :
    0 ≤ env.silentInflow erc op := by
  unfold silentInflow
  split
  · next hok =>
      have hamount := (transfer_eq_ok.mp hok).1
      split_ifs <;> omega
  · next call _ hok =>
      cases call with
      | claimFees recipient =>
          simp only [Env.apply, Env.vaultCall, Env.claimFees, requireVaultRole, bind_eq_ok,
            failIf_eq_ok, exists_const, not_le] at hok
          have hfees := hok.2.1
          simp only [returnedFees]
          split_ifs <;> omega
      | _ => exact le_rfl
  · exact env.silentRevenue_nonneg _
  · cases settledClose erc env _ with
    | none => exact le_rfl
    | some r => exact env.silentRevenue_nonneg _
  · exact le_rfl

end Env

/-! ## The reader beside the state -/

section Reading

variable {A S : Type} [DecidableEq A] [DecidableEq S]

/-- What the tables always know. -/
structure Reads (num : Numeric) (env : Env A S) (db : Db A S) : Prop where
  books : Env.Books env
  vault : Tracks db db env (env.totalAssets - db.vaultRow.totalAssets)
  tables : MirrorsPositions num db env.pm.positions
  behind : db.vaultRow.totalAssets ≤ env.totalAssets
  unstored : ∀ symbol, env.pm.markets.lookup symbol = none →
    (db.marketRow symbol).indices = (0, 0, 0)
  index : ∀ symbol, 0 < (env.getMarket symbol).accBorrowIndex

/-- The row does not show the balance. -/
def StaleBalance (env : Env A S) (db : Db A S) : Prop := db.vaultRow.totalAssets ≠ env.totalAssets

/-- The row of a stored market is out of date. -/
def StaleIndices (symbol : S) (env : Env A S) (db : Db A S) : Prop :=
  (env.pm.markets.lookup symbol).isSome ∧
    (db.marketRow symbol).indices ≠ (env.getMarket symbol).indices

variable {num : Numeric} {erc : Erc4626} {env env' : Env A S} {op : Op A S} {db db' : Db A S}

theorem reads_genesis (num : Numeric) (admin : A) (usdc : Party A → ℕ) (timestamp : ℕ) :
    Reads num (Env.genesis admin usdc timestamp : Env A S) Db.empty := by
  refine ⟨Env.books_genesis admin usdc timestamp, ?_, ?_, ?_, fun _ _ => rfl, ?_⟩
  · exact ⟨rfl, rfl, id, add_sub_cancel _ _, rfl, rfl, rfl⟩
  · refine ⟨fun key => rfl, ?_, ?_⟩
    · rintro symbol (_ | _) <;> rfl
    · rintro symbol (_ | _) <;> rfl
  · exact Int.natCast_nonneg _
  · intro symbol
    change (0 : ℤ) < indexPrecision
    decide

theorem ReadStep.reads (h : Reads num env db) (hok : env.apply erc op = .ok env')
    (hread : ReadStep num erc env op env' db db') : Reads num env' db' := by
  have heffect := Env.apply_effect hok
  have hflow := env.silentInflow_nonneg erc op
  have hbehind := h.behind
  have hbalance := hread.vault.totalAssets
  refine ⟨Env.effect_books h.books heffect, ?_, hread.tables, ?_, ?_, ?_⟩
  · obtain ⟨_, _, _, _, hreserved, hfees, hpnl⟩ := hread.vault
    exact ⟨rfl, rfl, id, add_sub_cancel _ _, hreserved, hfees, hpnl⟩
  · split_ifs at hbalance <;> omega
  · intro symbol hnone
    have hunstored : env.pm.markets.lookup symbol = none := by
      by_contra hstored
      have hkept := Env.effect_stored (Option.isSome_iff_ne_none.mpr hstored) heffect
      rw [hnone] at hkept
      cases hkept
    have hbilled := Env.billedSeconds_le_unbilled erc symbol env op
    rw [Env.unbilled_of_unstored hunstored] at hbilled
    rw [hread.indices, if_neg (by omega), h.unstored symbol hunstored]
  · intro symbol
    exact (h.index symbol).trans_le (Env.effect_accBorrowIndex_le h.books heffect symbol)

/-- A reverted operation leaves state and tables alone; a successful one is read. -/
theorem Reads.cases (h : Reads num env db) (erc : Erc4626) (op : Op A S) :
    (env.step erc op = env ∧ replay (handle num) db (Publishing.published erc env op) = db ∧
      ∃ e, env.apply erc op = .error e) ∨
    (env.apply erc op = .ok (env.step erc op) ∧
      ReadStep num erc env op (env.step erc op) db
        (replay (handle num) db (Publishing.published erc env op))) := by
  obtain ⟨hsame, hlog, hfails⟩ | ⟨log, hok, hrun, hlog⟩ := Publishing.published_cases erc env op
  · refine .inl ⟨hsame, by rw [hlog, replay_nil], ?_⟩
    cases herror : env.apply erc op with
    | error e => exact ⟨e, rfl⟩
    | ok env' => exact absurd ⟨env', herror⟩ hfails
  · refine .inr ⟨hok, ?_⟩
    rw [hlog]
    exact readStep_apply num h.vault h.books h.tables hok hrun

theorem Reads.step (h : Reads num env db) (erc : Erc4626) (op : Op A S) :
    Reads num (env.step erc op) (replay (handle num) db (Publishing.published erc env op)) := by
  obtain ⟨hsame, hdb, _⟩ | ⟨hok, hread⟩ := h.cases erc op
  · rw [hsame, hdb]
    exact h
  · exact hread.reads h hok

/-- Silent revenue sets the row behind; a published balance catches it up. -/
theorem Reads.balance_step (h : Reads num env db) (erc : Erc4626) (op : Op A S) :
    StaleBalance (env.step erc op) (replay (handle num) db (Publishing.published erc env op)) ↔
      0 < env.silentInflow erc op ∨ StaleBalance env db ∧ ¬ env.publishesTotal erc op = true := by
  unfold StaleBalance
  obtain ⟨hsame, hdb, e, herror⟩ | ⟨hok, hread⟩ := h.cases erc op
  · have hflow : env.silentInflow erc op = 0 := by cases op <;> simp only [Env.silentInflow, herror]
    have hpublishes : env.publishesTotal erc op = false := by
      cases op <;> simp only [Env.publishesTotal, herror]
    rw [hsame, hdb, hflow, hpublishes]
    simp
  · have hbehind := h.behind
    have hflow := env.silentInflow_nonneg erc op
    have hbalance := hread.vault.totalAssets
    cases hpublishes : env.publishesTotal erc op with
    | true =>
        rw [hpublishes, if_pos rfl] at hbalance
        simp only [not_true_eq_false, and_false, or_false]
        omega
    | false =>
        rw [hpublishes, if_neg Bool.false_ne_true] at hbalance
        simp only [Bool.false_eq_true, not_false_eq_true, and_true]
        omega

/-- A market's first position leaves its row without indices; an accrual writes them. -/
theorem Reads.indices_step (h : Reads num env db) (erc : Erc4626) (symbol : S) (op : Op A S) :
    StaleIndices symbol (env.step erc op)
        (replay (handle num) db (Publishing.published erc env op)) ↔
      Env.OpensMarket erc symbol env op ∨
        StaleIndices symbol env db ∧ ¬ 0 < env.billedSeconds erc symbol op := by
  obtain ⟨hsame, hdb, e, herror⟩ | ⟨hok, hread⟩ := h.cases erc op
  · have hbilled : env.billedSeconds erc symbol op = 0 := by simp only [Env.billedSeconds, herror]
    have hopens : ¬ Env.OpensMarket erc symbol env op := by
      intro hopens
      obtain ⟨env', hok⟩ := hopens.succeeds
      rw [herror] at hok
      cases hok
    rw [hsame, hdb, hbilled]
    simp [hopens]
  · have heffect := Env.apply_effect hok
    unfold StaleIndices
    rw [hread.indices]
    cases hlookup : env.pm.markets.lookup symbol with
    | some m =>
        have hstored := Option.isSome_iff_exists.mpr ⟨m, hlookup⟩
        have hopens : ¬ Env.OpensMarket erc symbol env op := by
          intro hopens
          rw [hopens.unstored] at hlookup
          cases hlookup
        rw [Env.indices_effect hok hstored]
        simp only [Env.effect_stored hstored heffect, Option.isSome_some, true_and, hopens, false_or]
        split_ifs with hbilled
        · simp [hbilled]
        · simp [hbilled]
    | none =>
        have hbilled := Env.billedSeconds_le_unbilled erc symbol env op
        rw [Env.unbilled_of_unstored hlookup] at hbilled
        have hindex := (hread.reads h hok).index symbol
        rw [if_neg (by omega), h.unstored symbol hlookup, Env.stored_iff_opens h.books hok hlookup]
        have hdiffers : ((0, 0, 0) : ℤ × ℤ × ℤ) ≠ ((env.step erc op).getMarket symbol).indices :=
          fun heq => hindex.ne (congrArg Prod.fst heq)
        simp [hdiffers]

end Reading

/-! ## A whole run -/

section Runs

variable {A S : Type} [DecidableEq A] [DecidableEq S]

omit [DecidableEq A] in
theorem marketRow_of_lookup {db : Db A S} {symbol : S} {row : MarketRow}
    (h : db.markets.lookup symbol = some row) : db.marketRow symbol = row := by
  rw [marketRow, h]
  rfl

variable {num : Numeric} {erc : Erc4626} {env : Env A S} {db : Db A S} {symbol : S}

/-- A row with fresh indices has been written. -/
theorem Reads.row_of_fresh (h : Reads num env db) {m : MarketInfo}
    (hm : env.pm.markets.lookup symbol = some m) (hfresh : ¬ StaleIndices symbol env db) :
    ∃ row, db.markets.lookup symbol = some row ∧ row.indices = m.indices := by
  have hstored := Option.isSome_iff_exists.mpr ⟨m, hm⟩
  have hindices : (db.marketRow symbol).indices = (env.getMarket symbol).indices :=
    not_not.mp fun hne => hfresh ⟨hstored, hne⟩
  cases hrow : db.markets.lookup symbol with
  | some row =>
      rw [marketRow_of_lookup hrow, Env.getMarket_of_lookup hm] at hindices
      exact ⟨row, rfl, hindices⟩
  | none =>
      have hempty : db.marketRow symbol = {} := by
        rw [marketRow, hrow]
        rfl
      rw [hempty] at hindices
      exact absurd (congrArg Prod.fst hindices) (h.index symbol).ne

theorem Reproduces.mirrors (h : Reproduces db env) (hstored : (env.pm.markets.lookup symbol).isSome) :
    (db.marketRow symbol).Mirrors (env.getMarket symbol) := by
  obtain ⟨m, hm⟩ := Option.isSome_iff_exists.mp hstored
  obtain ⟨row, hrow, hmirrors⟩ := h.markets symbol m hm
  rw [marketRow_of_lookup hrow, Env.getMarket_of_lookup hm]
  exact hmirrors

/-- Right books, fresh indices and kept averages make the tables the storage. -/
theorem Reads.reproduces_iff (h : Reads num env db) (hr : Env.Reachable erc env) :
    Reproduces db env ↔ ¬ StaleBalance env db ∧
      (∀ symbol, ¬ StaleIndices symbol env db) ∧
      ∀ symbol isLong, 0 < (env.getMarket symbol).openInterest isLong →
        num.Swallows ((env.getMarket symbol).avgPrice isLong)
          ((env.getMarket symbol).openInterest isLong) (Env.averageGap symbol isLong env) := by
  have havg := Env.sideMean_eq_avgPrice_iff num hr
  constructor
  · intro hsame
    refine ⟨not_not.mpr hsame.totalAssets, ?_, ?_⟩
    · rintro symbol ⟨hstored, hstale⟩
      exact hstale (hsame.mirrors hstored).indices
    · intro symbol isLong hopen
      have hread := h.tables.avgPrice symbol isLong
      rw [(hsame.mirrors (Env.stored_of_open hopen)).avgPrice] at hread
      exact (havg symbol isLong).mp hread.symm hopen
  · rintro ⟨htotal, hfresh, hkept⟩
    refine ⟨not_not.mp htotal, h.vault.reservedUsdc, h.vault.unclaimedFees,
      h.vault.netGlobalTraderPnl, h.tables.rows, ?_⟩
    intro symbol m hm
    obtain ⟨row, hrow, hindices⟩ := h.row_of_fresh hm (hfresh symbol)
    refine ⟨row, hrow, ?_, ?_, hindices⟩
    · intro isLong
      rw [← marketRow_of_lookup hrow, h.tables.openInterest, ← h.books.side,
        Env.getMarket_of_lookup hm]
    · intro isLong
      rw [← marketRow_of_lookup hrow, h.tables.avgPrice, (havg symbol isLong).mpr (hkept symbol isLong),
        Env.getMarket_of_lookup hm]

/-- The log of a run reproduces the storage exactly if every silent inflow is followed
by a published balance, every market's first position by an accrual, and truncation
swallows what the trades on each open side have rounded off. -/
theorem log_reproduces_iff (num : Numeric) (erc : Erc4626) (admin : A) (usdc : Party A → ℕ)
    (timestamp : ℕ) (ops : List (Op A S)) :
    let start : Env A S := .genesis admin usdc timestamp
    let last := run (Env.step erc) start ops
    Reproduces (replay (handle num) Db.empty (Publishing.eventLog erc start ops)) last ↔
      (usdc .vault ≠ 0 → Meets (Env.step erc) (fun env op => env.publishesTotal erc op) start ops) ∧
      FollowedBy (Env.step erc) (fun env op => 0 < env.silentInflow erc op)
        (fun env op => env.publishesTotal erc op) start ops ∧
      (∀ symbol, FollowedBy (Env.step erc) (Env.OpensMarket erc symbol)
        (fun env op => 0 < env.billedSeconds erc symbol op) start ops) ∧
      ∀ symbol isLong, 0 < (last.getMarket symbol).openInterest isLong →
        num.Swallows ((last.getMarket symbol).avgPrice isLong)
          ((last.getMarket symbol).openInterest isLong)
          (sumAlong (Env.step erc) (Env.roundedOff erc symbol isLong) start ops) := by
  intro start last
  have hstart : Reads num start Db.empty := reads_genesis num admin usdc timestamp
  have hstep (env : Env A S) (db : Db A S) (op : Op A S) (h : Reads num env db) :=
    h.step erc op
  have hlast : Reads num last (replay (handle num) Db.empty (Publishing.eventLog erc start ops)) :=
    replay_invariant hstep ops hstart
  have hbalance := replay_intact_iff hstep (fun env db op h => h.balance_step erc op) ops hstart
  have hindices (symbol : S) :=
    replay_intact_iff hstep (fun env db op h => h.indices_step erc symbol op) ops hstart
  have hgap (symbol : S) (isLong : Bool) : Env.averageGap symbol isLong last =
      sumAlong (Env.step erc) (Env.roundedOff erc symbol isLong) start ops := by
    have hzero : Env.averageGap symbol isLong start = 0 := by cases isLong <;> rfl
    have hrun : Env.averageGap symbol isLong last = Env.averageGap symbol isLong start +
        sumAlong (Env.step erc) (Env.roundedOff erc symbol isLong) start ops :=
      Env.averageGap_run ops
    rw [hrun, hzero, zero_add]
  have hempty : StaleBalance start Db.empty ↔ usdc .vault ≠ 0 := by
    have hread : StaleBalance start Db.empty ↔ (0 : ℤ) ≠ (usdc .vault : ℤ) := Iff.rfl
    rw [hread]
    omega
  have hfresh (symbol : S) : ¬ StaleIndices symbol start Db.empty := fun h =>
    absurd h.1 Bool.false_ne_true
  rw [hempty] at hbalance
  have hopened (symbol : S) := (hindices symbol).trans
    (and_iff_right fun h => absurd h (hfresh symbol))
  rw [hlast.reproduces_iff ⟨admin, usdc, timestamp, ops, rfl⟩]
  simp only [hgap]
  exact (and_congr hbalance (and_congr (forall_congr' hopened) Iff.rfl)).trans and_assoc

/-! ## Runs that the log does not determine -/

/-- A first position, at price 70. -/
def firstPosition : List (Op ℕ ℕ) :=
  Env.setup 100000000000 ++ [.increase ⟨2, 0, 5000000000, 100000000, true, 0, 0, 0, 70⟩]

/-- An open fee of one unit, of which nothing is sliced off. -/
def unslicedFee : List (Op ℕ ℕ) :=
  firstPosition ++ [.advance 600, .updateIndices 0 0 70,
    .increase ⟨3, 0, 1000, 100000000, true, 0, 0, 0, 70⟩]

/-- Three longs whose averaging rounds off one unit of the price. -/
def threeEntries : List (Op ℕ ℕ) :=
  Env.setup 100000000000 ++
    [.increase ⟨2, 0, 20000000, 100000000, true, 0, 0, 0, 1000000000⟩,
      .increase ⟨3, 0, 10000000, 100000000, true, 0, 0, 0, 1000000002⟩,
      .increase ⟨4, 0, 10000000, 100000000, true, 0, 0, 0, 1000000002⟩,
      .advance 600, .updateIndices 0 0 1000000000]

/-- What the tables hold after a run of the deployment, with quotients to 16 decimals. -/
def replayed (ops : List (Op ℕ ℕ)) : Db ℕ ℕ :=
  replay (handle ⟨fun _ _ => 16⟩) Db.empty
    (Publishing.eventLog Env.offsetErc (.genesis 0 Env.fundedAccounts 1000) ops)

/-- The indices of a new market stay zero, an unsliced fee is missed, and the average
comes out one unit higher. -/
theorem log_not_reproduced :
    let last := run (Env.step Env.offsetErc) (.genesis 0 Env.fundedAccounts 1000)
    ¬ Reproduces (replayed firstPosition) (last firstPosition) ∧
    ¬ Reproduces (replayed unslicedFee) (last unslicedFee) ∧
    ¬ Reproduces (replayed threeEntries) (last threeEntries) := by
  intro last
  refine ⟨fun h => ?_, fun h => ?_, fun h => ?_⟩
  · have hstored : ((last firstPosition).pm.markets.lookup 0).isSome := by decide +kernel
    have hdiffers : ((replayed firstPosition).marketRow 0).indices ≠
        ((last firstPosition).getMarket 0).indices := by decide +kernel
    exact hdiffers (h.mirrors hstored).indices
  · have hdiffers : (replayed unslicedFee).vaultRow.totalAssets ≠
        (last unslicedFee).totalAssets := by decide +kernel
    exact hdiffers h.totalAssets
  · have hstored : ((last threeEntries).pm.markets.lookup 0).isSome := by decide +kernel
    have hdiffers : ((replayed threeEntries).marketRow 0).avgPrice true ≠
        ((last threeEntries).getMarket 0).avgPrice true := by decide +kernel
    exact hdiffers ((h.mirrors hstored).avgPrice true)

end Runs

end Stellars
