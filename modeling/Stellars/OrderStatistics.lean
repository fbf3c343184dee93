import Mathlib.Data.List.Pairwise
import Mathlib.Data.List.Sort

/-!
# Order statistics of a list

An entry of rank `k` stands at index `k` once the list is sorted. Enough entries
lie on either side of it, whatever the order of the list, and a minority of the
entries cannot push it past all the others.
-/
namespace Stellars.OrderStatistics

variable {α : Type*} [LinearOrder α] {xs ys : List α} {k : ℕ} {m : α}

/-- `m` has rank `k` in `xs`: it stands at index `k` of the sorted list. -/
def Ranked (xs : List α) (k : ℕ) (m : α) : Prop :=
  ∃ sorted : List α, sorted.Perm xs ∧ sorted.Pairwise (· ≤ ·) ∧ sorted[k]? = some m

theorem Ranked.perm (h : Ranked xs k m) (hxs : xs.Perm ys) : Ranked ys k m := by
  obtain ⟨sorted, hperm, hsorted, hm⟩ := h
  exact ⟨sorted, hperm.trans hxs, hsorted, hm⟩

theorem Ranked.mem (h : Ranked xs k m) : m ∈ xs := by
  obtain ⟨sorted, hperm, _, hm⟩ := h
  exact hperm.mem_iff.mp (List.mem_of_getElem? hm)

theorem Ranked.lt_length (h : Ranked xs k m) : k < xs.length := by
  obtain ⟨sorted, hperm, _, hm⟩ := h
  obtain ⟨hk, _⟩ := List.getElem?_eq_some_iff.mp hm
  rwa [← hperm.length_eq]

/-- A sorted list splits at index `k` into entries up to `m` and entries from
`m` on. -/
theorem pairwise_split {sorted : List α} (hsorted : sorted.Pairwise (· ≤ ·))
    (hm : sorted[k]? = some m) :
    (∀ a ∈ sorted.take (k + 1), a ≤ m) ∧ ∀ a ∈ sorted.drop k, m ≤ a := by
  obtain ⟨hk, rfl⟩ := List.getElem?_eq_some_iff.mp hm
  constructor
  · intro a ha
    obtain ⟨i, hi, rfl⟩ := List.mem_take_iff_getElem.mp ha
    have hik : i ≤ k := by omega
    exact hsorted.rel_get_of_le (a := ⟨i, by omega⟩) (b := ⟨k, hk⟩) hik
  · intro a ha
    obtain ⟨i, hi, rfl⟩ := List.mem_drop_iff_getElem.mp ha
    exact hsorted.rel_get_of_le (a := ⟨k, hk⟩) (b := ⟨k + i, by omega⟩) (Nat.le_add_right k i)

/-- At least `k + 1` entries are at most the one of rank `k`. -/
theorem Ranked.lt_countP_le (h : Ranked xs k m) : k < xs.countP (· ≤ m) := by
  have hk := h.lt_length
  obtain ⟨sorted, hperm, hsorted, hm⟩ := h
  have hall : ∀ a ∈ sorted.take (k + 1), decide (a ≤ m) = true := by
    simpa using (pairwise_split hsorted hm).1
  calc k < (sorted.take (k + 1)).length := by rw [List.length_take, hperm.length_eq]; omega
    _ = (sorted.take (k + 1)).countP (· ≤ m) := (List.countP_eq_length.mpr hall).symm
    _ ≤ sorted.countP (· ≤ m) := (List.take_sublist _ _).countP_le
    _ = xs.countP (· ≤ m) := hperm.countP_eq _

/-- All but `k` entries are at least the one of rank `k`. -/
theorem Ranked.length_le_countP_ge (h : Ranked xs k m) : xs.length ≤ k + xs.countP (m ≤ ·) := by
  obtain ⟨sorted, hperm, hsorted, hm⟩ := h
  have hall : ∀ a ∈ sorted.drop k, decide (m ≤ a) = true := by
    simpa using (pairwise_split hsorted hm).2
  calc xs.length ≤ k + (sorted.drop k).length := by rw [List.length_drop, hperm.length_eq]; omega
    _ = k + (sorted.drop k).countP (m ≤ ·) := by rw [List.countP_eq_length.mpr hall]
    _ ≤ k + sorted.countP (m ≤ ·) := Nat.add_le_add_left (List.drop_sublist _ _).countP_le k
    _ = k + xs.countP (m ≤ ·) := by rw [hperm.countP_eq]

omit [LinearOrder α] in
/-- A predicate that more than `faulty` many entries of the whole satisfy holds
for one of the others. -/
theorem exists_mem_of_lt_countP {honest faulty : List α} {p : α → Bool}
    (h : faulty.length < (honest ++ faulty).countP p) : ∃ a ∈ honest, p a = true := by
  rw [List.countP_append] at h
  have hfaulty : faulty.countP p ≤ faulty.length := List.countP_le_length
  exact List.countP_pos_iff.mp (by omega)

/-- Fewer corrupt entries than lie on either side of rank `k` leave it between
two of the others. -/
theorem Ranked.between {honest faulty : List α} (h : Ranked (honest ++ faulty) k m)
    (hbelow : faulty.length ≤ k) (habove : faulty.length + k < (honest ++ faulty).length) :
    (∃ a ∈ honest, a ≤ m) ∧ ∃ a ∈ honest, m ≤ a := by
  constructor
  · obtain ⟨a, ha, hle⟩ := exists_mem_of_lt_countP (lt_of_le_of_lt hbelow h.lt_countP_le)
    exact ⟨a, ha, of_decide_eq_true hle⟩
  · have hge := h.length_le_countP_ge
    have hmany : faulty.length < (honest ++ faulty).countP (m ≤ ·) := by omega
    obtain ⟨a, ha, hle⟩ := exists_mem_of_lt_countP hmany
    exact ⟨a, ha, of_decide_eq_true hle⟩

/-- In a sorted list every entry lies between the first and the last. -/
theorem pairwise_bounds {sorted : List α} (hsorted : sorted.Pairwise (· ≤ ·)) {a : α}
    (ha : a ∈ sorted) (d : α) : sorted.getD 0 d ≤ a ∧ a ≤ sorted.getD (sorted.length - 1) d := by
  have hpos : 0 < sorted.length := List.length_pos_of_mem ha
  have hentry {i : ℕ} (hi : i < sorted.length) : sorted[i]? = some (sorted.getD i d) := by
    simp [hi]
  constructor
  · exact (pairwise_split hsorted (hentry hpos)).2 a (by simpa using ha)
  · refine (pairwise_split hsorted (hentry (Nat.sub_one_lt_of_lt hpos))).1 a ?_
    rwa [Nat.sub_one_add_one_eq_of_pos hpos, List.take_length]

end Stellars.OrderStatistics
