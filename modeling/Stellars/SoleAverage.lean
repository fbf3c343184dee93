import Stellars.RecomputedAverages

/-!
# The average price of a single position

Once a single position is left on a side, the average of the side ought to be its
entry price. Every trade of the past, however large its side was then, has left the
remainder of its division behind, and the position left over carries them all.
-/
namespace Stellars
open GuardedRuns KeyedTotals

/-- What the division leaves over when `added` at `price` is averaged into `size` at `avg`. -/
def averagingRemainder (avg size price added : ℤ) : ℤ :=
  let value := avg * size + price * added
  if size + added = 0 then value
  else if size = 0 then 0
  else value.tmod (size + added)

/-- What the division leaves over when a slice is removed: all of the value when
nothing is divided. -/
def removalRemainder (avg oi removedEntryPrice removed : ℤ) : ℤ :=
  let value := avg * oi - removedEntryPrice * removed
  if oi - removed ≤ 0 ∨ value ≤ 0 then value else value.tmod (oi - removed)

theorem averagingLoss_eq_remainder (avg size price added : ℤ) :
    averagingLoss avg size price added = averagingRemainder avg size price added := by
  simp only [averagingLoss, averagingRemainder, updateGlobalAvgPrice]
  split_ifs with htotal hsize
  · ring
  · rw [hsize]
    ring
  · rw [Int.tmod_def]
    ring

theorem removalLoss_eq_remainder (avg oi removedEntryPrice removed : ℤ) :
    removalLoss avg oi removedEntryPrice removed =
      removalRemainder avg oi removedEntryPrice removed := by
  simp only [removalLoss, removalRemainder, removeFromGlobalAvgPrice]
  by_cases hleft : oi - removed ≤ 0
  · simp only [hleft, true_or, if_true]
    ring
  · by_cases hvalue : avg * oi - removedEntryPrice * removed ≤ 0
    · simp only [hleft, hvalue, or_true, if_true, if_false]
      ring
    · simp only [hleft, hvalue, or_self, if_false]
      rw [Int.tmod_def]
      ring

namespace Env

variable {A S : Type} [DecidableEq A] [DecidableEq S]

/-- What the divisions of a successful trade leave over: of the average of the side,
less of the entry price of the position. -/
def leftOver (erc : Erc4626) (symbol : S) (isLong : Bool) (env : Env A S) (op : Op A S) : ℤ :=
  let avg := (env.getMarket symbol).avgPrice isLong
  let oi := (env.getMarket symbol).openInterest isLong
  match op, env.apply erc op with
  | .increase req, .ok _ =>
      if req.symbol = symbol ∧ req.isLong = isLong then
        averagingRemainder avg oi req.price req.size -
          (env.getPosition req.trader req.symbol).elim 0 fun old =>
            averagingRemainder old.entryPrice old.size req.price req.size
      else 0
  | op, _ => (settledClose erc env op).elim 0 fun r =>
      if r.symbol = symbol ∧ r.pos.isLong = isLong then
        removalRemainder avg oi r.pos.entryPrice r.sizeDelta
      else 0

/-- One position, and no other, is open on the side. -/
structure SolePosition (env : Env A S) (trader : A) (symbol : S) (isLong : Bool)
    (pos : Position) : Prop where
  position : env.getPosition trader symbol = some pos
  side : pos.isLong = isLong
  alone : ∀ other pos', env.getPosition other symbol = some pos' → pos'.isLong = isLong →
    other = trader

section Runs

variable {erc : Erc4626} {env : Env A S} {trader : A} {symbol : S} {isLong : Bool} {pos : Position}

theorem roundedOff_eq_leftOver : roundedOff erc symbol isLong = leftOver (A := A) erc symbol isLong := by
  funext env op
  cases op with
  | increase req =>
      cases hresult : env.apply erc (.increase req) <;>
        simp only [roundedOff, leftOver, hresult, averagingLoss_eq_remainder,
          removalLoss_eq_remainder]
  | _ => simp only [roundedOff, leftOver, removalLoss_eq_remainder]

theorem SolePosition.of_keys (hkeys : env.pm.positions.keys = [(trader, symbol)])
    (hpos : env.getPosition trader symbol = some pos) (hside : pos.isLong = isLong) :
    env.SolePosition trader symbol isLong pos := by
  refine ⟨hpos, hside, ?_⟩
  intro other pos' hother _
  have hmem : (other, symbol) ∈ env.pm.positions.keys := by
    rw [← AList.mem_keys, ← AList.lookup_isSome]
    exact Option.isSome_iff_exists.mpr ⟨pos', hother⟩
  rw [hkeys, List.mem_singleton] at hmem
  exact congrArg Prod.fst hmem

/-- Totals of the side are what its only position holds. -/
theorem SolePosition.total_eq (h : env.SolePosition trader symbol isLong pos)
    (f : Position → ℤ) : total (onSide symbol isLong f) env.pm.positions = f pos := by
  have hothers : ∀ key pos', env.pm.positions.lookup key = some pos' → key ≠ (trader, symbol) →
      onSide symbol isLong f key pos' = 0 := by
    rintro ⟨other, symbol'⟩ pos' hpos hne
    refine if_neg ?_
    rintro ⟨rfl, hside⟩
    exact hne (congrArg (·, symbol') (h.alone other pos' hpos hside))
  rw [total_eq_entry hothers, entry_some h.position, onSide, if_pos ⟨rfl, h.side⟩]

/-- The gap of the side is the distance of its average from the one entry price,
times the size. -/
theorem SolePosition.averageGap_eq (hb : Books env)
    (h : env.SolePosition trader symbol isLong pos) :
    averageGap symbol isLong env =
      pos.size * (pos.entryPrice - (env.getMarket symbol).avgPrice isLong) := by
  have hsize : (env.getMarket symbol).openInterest isLong = pos.size := by
    rw [hb.side, sideSize, h.total_eq]
  rw [averageGap, h.total_eq, hsize]
  ring

theorem averageGap_genesis (admin : A) (usdc : Party A → ℕ) (timestamp : ℕ) :
    averageGap symbol isLong (genesis admin usdc timestamp : Env A S) = 0 := by
  cases isLong <;> rfl

/-- In every run, the average of a side with a single position is within a unit of
its entry price exactly if what the trades of the run left over comes to at most the
size of that position. -/
theorem sole_average_near_iff (erc : Erc4626) (admin : A) (usdc : Party A → ℕ) (timestamp : ℕ)
    (ops : List (Op A S)) (trader : A) (symbol : S) (isLong : Bool) (pos : Position)
    (hsole : (run (step erc) (genesis admin usdc timestamp) ops).SolePosition trader symbol isLong
      pos) :
    let start : Env A S := genesis admin usdc timestamp
    |((run (step erc) start ops).getMarket symbol).avgPrice isLong - pos.entryPrice| ≤ 1 ↔
      |sumAlong (step erc) (leftOver erc symbol isLong) start ops| ≤ pos.size := by
  intro start
  have hb : Books (run (step erc) start ops) := reachable_books ⟨admin, usdc, timestamp, ops, rfl⟩
  have hs := (hb.wellFormed _ _ hsole.position).size_pos
  have hgap := hsole.averageGap_eq hb
  rw [averageGap_run ops, averageGap_genesis, zero_add, roundedOff_eq_leftOver] at hgap
  rw [hgap, abs_mul, abs_of_pos hs, mul_le_iff_le_one_right hs, abs_sub_comm]

/-- Two longs are opened, at 100 and a little above, and the first one is closed. -/
def longLeft (first size price : ℤ) : List (Op ℕ ℕ) :=
  setup 100000000000000 ++
    [.increase ⟨2, 0, first, 1000000000000, true, 0, 0, 0, 1000000000⟩,
      .increase ⟨3, 0, size, 10000000, true, 0, 0, 0, price⟩, .advance 3600,
      .close (.decrease 2 0 first 0 1000000000)]

/-- What is left over, 30000000, just fits the size: the average is one unit below. -/
theorem sole_average_near_iff_secondLong :
    ∃ pos : Position,
      let ops := longLeft 20000000 30000000 1000000007
      let start : Env ℕ ℕ := genesis 0 fundedAccounts 1000
      (run (step offsetErc) start ops).getPosition 3 0 = some pos ∧
      (|((run (step offsetErc) start ops).getMarket 0).avgPrice true - pos.entryPrice| ≤ 1 ↔
        |sumAlong (step offsetErc) (leftOver offsetErc 0 true) start ops| ≤ pos.size) := by
  obtain ⟨pos, hpos, hside⟩ := Option.map_eq_some_iff.mp (show
    ((run (step offsetErc) (genesis 0 fundedAccounts 1000)
      (longLeft 20000000 30000000 1000000007)).getPosition 3 0).map (·.isLong) = some true by
    decide +kernel)
  refine ⟨pos, hpos, ?_⟩
  exact sole_average_near_iff offsetErc 0 fundedAccounts 1000
    (longLeft 20000000 30000000 1000000007) 3 0 true pos
    (SolePosition.of_keys (by decide +kernel) hpos hside)

/-- A long of 1 opened 0.09 above a long of 1000000 does not move the average, which
stays where it was when the large long is gone. -/
theorem sole_average_off :
    ¬ ∀ (ops : List (Op ℕ ℕ)) (trader symbol : ℕ) (isLong : Bool) (pos : Position),
      let env := run (step offsetErc) (genesis 0 fundedAccounts 1000) ops
      env.SolePosition trader symbol isLong pos →
        |(env.getMarket symbol).avgPrice isLong - pos.entryPrice| ≤ 1 := by
  intro h
  obtain ⟨pos, hpos, hterms⟩ := Option.map_eq_some_iff.mp (show
    ((run (step offsetErc) (genesis 0 fundedAccounts 1000)
      (longLeft 10000000000000 10000000 1000900000)).getPosition 3 0).map
        (fun pos => (pos.isLong, pos.entryPrice)) = some (true, 1000900000) by decide +kernel)
  have havg : ((run (step offsetErc) (genesis 0 fundedAccounts 1000)
      (longLeft 10000000000000 10000000 1000900000)).getMarket 0).avgPrice true = 1000000000 := by
    decide +kernel
  have hnear := h (longLeft 10000000000000 10000000 1000900000) 3 0 true pos
    (SolePosition.of_keys (by decide +kernel) hpos (Prod.mk.inj hterms).1)
  rw [havg, (Prod.mk.inj hterms).2] at hnear
  revert hnear
  decide

end Runs

end Env

end Stellars
