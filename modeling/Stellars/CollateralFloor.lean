import Stellars.PositionBounds
import Stellars.ShareLedger
import Stellars.SplitClose

/-!
# The collateral floor

Every increase is checked against the minimum collateral of the moment, and its
collateral is added to what the position has. A partial decrease releases its share
of the collateral without a check. A trace of a run keeps, for each position, the
minimum that was in force when it was last increased.
-/
namespace Stellars
open GuardedRuns KeyedTotals

/-- What is left of the collateral stays at the floor or above as long as the share
that is released does not reach below it. -/
theorem le_remaining_iff {collateral sizeDelta size floor : ℤ} (hs : 0 < size)
    (h0 : 0 ≤ collateral * sizeDelta) :
    floor ≤ collateral - (collateral * sizeDelta).tdiv size ↔
      ¬ (collateral - floor + 1) * size ≤ collateral * sizeDelta := by
  rw [not_le, ← Int.ediv_lt_iff_lt_mul hs, Int.tdiv_eq_ediv_of_nonneg h0]
  omega

namespace Env

variable {A S : Type} [DecidableEq A] [DecidableEq S]

/-- After a close a stored position is an old one, or what a partial decrease left. -/
theorem close_cases {env env' : Env A S} {call : CloseCall A S} {key : A × S}
    {pos : Position} (hok : env.closePosition call = .ok env')
    (hpos : env'.pm.positions.lookup key = some pos) :
    env.pm.positions.lookup key = some pos ∨
    ∃ trader symbol sizeDelta acceptablePrice price old,
      call = .decrease trader symbol sizeDelta acceptablePrice price ∧ key = (trader, symbol) ∧
      env.getPosition trader symbol = some old ∧ 0 < sizeDelta ∧ sizeDelta < old.size ∧
      pos.collateral = old.collateral - (old.collateral * sizeDelta).tdiv old.size := by
  obtain ⟨⟨env1, r⟩, hrequest, hclose⟩ := bind_eq_ok.mp hok
  obtain ⟨hready, hnames⟩ := closeRequest_ok hrequest
  obtain rfl := hready.refreshed
  have heff : CloseEffect env env' r := executeClose_ok hclose
  rw [heff.positions] at hpos
  obtain ⟨rfl, hpart, rfl⟩ | ⟨_, hold⟩ := lookup_settledPositions hpos
  · right
    have hkind := closeRequest_kind hrequest
    cases call with
    | decrease trader symbol sizeDelta acceptablePrice price =>
        obtain ⟨old, hold, h0, hle, -, -, -, -, -, rfl⟩ := closeRequest_decrease_iff.mp hrequest
        have hlt : sizeDelta < old.size := lt_of_le_of_ne hle hpart
        refine ⟨trader, symbol, sizeDelta, acceptablePrice, price, old, rfl, rfl, hold, h0, hlt, ?_⟩
        exact congrArg (old.collateral - ·) (if_neg hpart)
    | liquidate | deleverage | executeOrder =>
        exact absurd (hready.whole (by rw [hkind]; rintro ⟨⟩)) hpart
  · exact .inl hold

end Env

/-- The contracts, and the minimum collateral each position was last increased under. -/
structure FloorTrace (A S : Type) where
  env : Env A S
  floor : A × S → ℤ

namespace FloorTrace

variable {A S : Type} [DecidableEq A] [DecidableEq S]

def step (erc : Erc4626) (t : FloorTrace A S) (op : Op A S) : FloorTrace A S where
  env := t.env.step erc op
  floor := match op, t.env.apply erc op with
    | .increase req, .ok _ => Function.update t.floor (req.trader, req.symbol)
        t.env.cfg.protocolLimits.1.minCollateral
    | _, _ => t.floor

def genesis (admin : A) (usdc : Party A → ℕ) (timestamp : ℕ) : FloorTrace A S where
  env := .genesis admin usdc timestamp
  floor := fun _ => 0

/-- Every open position has at least the minimum its last increase was checked against. -/
def NoDust (t : FloorTrace A S) : Prop :=
  ∀ key pos, t.env.pm.positions.lookup key = some pos → t.floor key ≤ pos.collateral

/-- A partial decrease goes through whose share of the collateral is more than the
position has above its floor. -/
def CutsBelowFloor (erc : Erc4626) (t : FloorTrace A S) (op : Op A S) : Prop :=
  ∃ trader symbol sizeDelta acceptablePrice price pos,
    op = .close (.decrease trader symbol sizeDelta acceptablePrice price) ∧
    Env.Succeeds erc t.env op ∧ t.env.getPosition trader symbol = some pos ∧
    sizeDelta < pos.size ∧
    (pos.collateral - t.floor (trader, symbol) + 1) * pos.size ≤ pos.collateral * sizeDelta

section Steps

variable {erc : Erc4626} {t : FloorTrace A S} {env env' : Env A S} {op : Op A S} {key : A × S}
  {pos : Position}

theorem floor_of_not_increase (hop : ∀ req, op ≠ .increase req) :
    (t.step erc op).floor = t.floor := by
  cases op with
  | increase req => exact absurd rfl (hop req)
  | _ => rfl

/-- An increase leaves its position with at least the minimum it was checked against. -/
theorem increase_minCollateral {req : IncreaseRequest A S} (hb : Env.Books env)
    (h : Env.IncreaseEffect env env' req pos) :
    env.cfg.protocolLimits.1.minCollateral ≤ pos.collateral := by
  have hold : 0 ≤ entry (fun _ p => p.collateral) env.pm.positions (req.trader, req.symbol) := by
    cases hl : env.pm.positions.lookup (req.trader, req.symbol) with
    | none => rw [entry_none hl]
    | some old =>
        rw [entry_some hl]
        exact (hb.wellFormed _ old hl).collateral_pos.le
  have hsum := (Env.increasedPosition_grows h.merged).2.2.1
  have hmin := h.min_collateral
  omega

/-- A cut below the floor is stored. -/
theorem not_noDust_of_cuts (hb : Env.Books t.env) (h : CutsBelowFloor erc t op) :
    ¬ (t.step erc op).NoDust := by
  obtain ⟨trader, symbol, sizeDelta, acceptablePrice, price, pos, rfl, ⟨env', hok⟩, hpos, hpart,
    hcut⟩ := h
  intro hkept
  obtain ⟨pos', h0, hready, heff⟩ := Env.decrease_ok hok
  obtain rfl : pos = pos' := Option.some.inj (hpos.symm.trans hready.position)
  have hw := hb.wellFormed _ _ hpos
  have hstored : env'.pm.positions.lookup (trader, symbol) = some (pos.withoutSlice sizeDelta) :=
    Env.Decreased.getPosition ⟨h0, hready, heff⟩ hpart
  have hstep : (t.step erc (.close (.decrease trader symbol sizeDelta acceptablePrice price))).env =
      env' := by
    simp only [step, Env.step, hok]
  have hle := hkept (trader, symbol) _ (hstep ▸ hstored)
  rw [floor_of_not_increase (by rintro req ⟨⟩)] at hle
  have hreleased : (pos.withoutSlice sizeDelta).collateral =
      pos.collateral - (pos.collateral * sizeDelta).tdiv pos.size :=
    congrArg (pos.collateral - ·) (if_neg hpart.ne)
  rw [hreleased, le_remaining_iff hw.size_pos (mul_nonneg hw.collateral_pos.le h0.le)] at hle
  exact hle hcut

theorem noDust_increase {req : IncreaseRequest A S} (hb : Env.Books t.env) (hkept : t.NoDust)
    (hok : t.env.apply erc (.increase req) = .ok env') (heff : Env.IncreaseEffect t.env env' req pos) :
    (t.step erc (.increase req)).NoDust := by
  intro key pos' hpos'
  have hstep : (t.step erc (.increase req)).env = env' := by simp only [step, Env.step, hok]
  rw [hstep, heff.positions] at hpos'
  simp only [step, hok]
  obtain ⟨rfl, rfl⟩ | ⟨hne, hold⟩ := lookup_insert_eq_some hpos'
  · rw [Function.update_self]
    exact increase_minCollateral hb heff
  · rw [Function.update_of_ne hne]
    exact hkept key pos' hold

/-- One step keeps the floors exactly if it does not cut below one. -/
theorem noDust_step_iff (hr : Env.Reachable erc t.env) (hkept : t.NoDust) (op : Op A S) :
    (t.step erc op).NoDust ↔ ¬ CutsBelowFloor erc t op := by
  have hb := Env.reachable_books hr
  refine ⟨fun hafter hcuts => not_noDust_of_cuts hb hcuts hafter, fun hcuts => ?_⟩
  obtain ⟨hsame, e, herror⟩ | ⟨hok, heff⟩ := Env.step_cases erc t.env op
  · intro key pos hpos
    have hfloor : (t.step erc op).floor = t.floor := by
      simp only [step, herror]
    rw [hfloor]
    exact hkept key pos (hsame ▸ hpos)
  cases op with
  | increase req =>
      obtain ⟨_, _, pos, heffect⟩ := Env.increasePosition_ok hok
      exact noDust_increase hb hkept hok heffect
  | close call =>
      intro key pos hpos
      rw [floor_of_not_increase (by rintro req ⟨⟩)]
      obtain hold | ⟨trader, symbol, sizeDelta, acceptablePrice, price, old, rfl, rfl, hold, h0,
        hpart, hcollateral⟩ := Env.close_cases hok hpos
      · exact hkept key pos hold
      · have hw := hb.wellFormed _ _ hold
        rw [hcollateral, le_remaining_iff hw.size_pos (mul_nonneg hw.collateral_pos.le h0.le)]
        intro hcut
        exact hcuts ⟨trader, symbol, sizeDelta, acceptablePrice, price, old, rfl, ⟨_, hok⟩, hold,
          hpart, hcut⟩
  | _ =>
      intro key pos hpos
      rw [floor_of_not_increase (by rintro req ⟨⟩)]
      obtain ⟨req, hop, _⟩ | ⟨call, r, hop, _⟩ | ⟨old, hold, hsame⟩ :=
        Env.position_cases heff hpos
      · cases hop
      · cases hop
      · rw [hsame.collateral]
        exact hkept key old hold

/-- The trace follows the contracts, and in every run all positions stay at their
floors or above exactly if no partial decrease cuts below one. -/
theorem noDust_iff (erc : Erc4626) (admin : A) (usdc : Party A → ℕ) (timestamp : ℕ)
    (ops : List (Op A S)) :
    let start : FloorTrace A S := genesis admin usdc timestamp
    (run (step erc) start ops).env = run (Env.step erc) (.genesis admin usdc timestamp) ops ∧
    (Visits (step erc) NoDust start ops ↔
      Along (step erc) (fun t op => ¬ CutsBelowFloor erc t op) start ops) := by
  intro start
  refine ⟨run_map (fun _ _ => rfl) start ops, ?_⟩
  let Inv : FloorTrace A S → Prop := fun t => Env.Reachable erc t.env
  have hinv : ∀ t op, Inv t → Inv (t.step erc op) := fun t op hr => Env.Reachable.run hr [op]
  have hstart : Inv start := ⟨admin, usdc, timestamp, [], rfl⟩
  have hempty : start.NoDust := by
    intro key pos hpos
    cases hpos
  exact visits_iff_along hinv (fun t op hr hkept => noDust_step_iff hr hkept op) hstart hempty

/-- A long opened with ten times the minimum, of which 95 percent are closed. -/
def dustOps : List (Op ℕ ℕ) :=
  Env.setup 1000000000000 ++
    [.increase ⟨2, 0, 1000000000, 100000000, true, 0, 0, 0, 1000000000⟩, .advance 3600,
      .close (.decrease 2 0 950000000 0 1000000000)]

theorem dust_left :
    ¬ ∀ ops : List (Op ℕ ℕ),
      (run (step Env.offsetErc) (genesis 0 Env.fundedAccounts 1000) ops).NoDust := by
  intro h
  obtain ⟨pos, hpos, hcollateral⟩ := Option.map_eq_some_iff.mp (show
    ((run (step Env.offsetErc) (genesis 0 Env.fundedAccounts 1000)
      dustOps).env.pm.positions.lookup (2, 0)).map (·.collateral) = some 5000000 by
    decide +kernel)
  have hfloor : (run (step Env.offsetErc) (genesis 0 Env.fundedAccounts 1000)
      dustOps).floor (2, 0) = 10000000 := by
    decide +kernel
  have hle := h dustOps (2, 0) pos hpos
  rw [hcollateral, hfloor] at hle
  omega

end Steps

end FloorTrace

end Stellars
