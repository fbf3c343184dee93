import Mathlib.Data.List.AList
import Mathlib.Algebra.BigOperators.Group.List.Basic
import Mathlib.Algebra.Order.BigOperators.Group.Finset
import Stellars.TruncatedDivision

/-!
# Totals over a keyed table

A table is a finite map from keys to rows. `total f` adds one integer per row.
An insert or an erase changes a total by the row that entered and the row that
left, so a running counter can be compared with the rows it counts.
-/
namespace Stellars.KeyedTotals

abbrev Table (κ α : Type*) := AList (fun _ : κ => α)

variable {κ α : Type*}

def total (f : κ → α → ℤ) (t : Table κ α) : ℤ := (t.entries.map fun e => f e.1 e.2).sum

@[simp] theorem total_empty (f : κ → α → ℤ) : total f (∅ : Table κ α) = 0 := rfl

theorem total_add (f g : κ → α → ℤ) (t : Table κ α) :
    total (fun k v => f k v + g k v) t = total f t + total g t := by
  simp [total, List.sum_map_add]

theorem total_mul_left (c : ℤ) (f : κ → α → ℤ) (t : Table κ α) :
    total (fun k v => c * f k v) t = c * total f t := by
  simp [total, List.sum_map_mul_left]

@[simp] theorem total_zero (t : Table κ α) : total (fun _ _ => 0) t = 0 := by simp [total]

/-- The table with every row replaced. -/
def mapRows {β : Type*} (f : κ → α → β) (t : Table κ α) : Table κ β :=
  ⟨t.entries.map (.map id f), t.nodupKeys.map₂ f⟩

variable [DecidableEq κ]

@[simp] theorem lookup_mapRows {β : Type*} (f : κ → α → β) (t : Table κ α) (k : κ) :
    (mapRows f t).lookup k = (t.lookup k).map (f k) := List.dlookup_map₂ k

/-- After a write one finds the written row, or an older one under another key. -/
theorem lookup_insert_eq_some {t : Table κ α} {k k' : κ} {v w : α}
    (h : (t.insert k v).lookup k' = some w) :
    k' = k ∧ w = v ∨ k' ≠ k ∧ t.lookup k' = some w := by
  by_cases hk : k' = k
  · rw [hk, AList.lookup_insert] at h
    exact .inl ⟨hk, (Option.some.inj h).symm⟩
  · rw [AList.lookup_insert_ne hk] at h
    exact .inr ⟨hk, h⟩

theorem lookup_erase_eq_some {t : Table κ α} {k k' : κ} {w : α}
    (h : (t.erase k).lookup k' = some w) : k' ≠ k ∧ t.lookup k' = some w := by
  by_cases hk : k' = k
  · rw [hk, AList.lookup_erase] at h
    cases h
  · rw [AList.lookup_erase_ne hk] at h
    exact ⟨hk, h⟩

/-- What the table holds at one key, as a summand. -/
def entry (f : κ → α → ℤ) (t : Table κ α) (k : κ) : ℤ := (t.lookup k).elim 0 (f k)

theorem entry_some {f : κ → α → ℤ} {t : Table κ α} {k : κ} {v : α}
    (h : t.lookup k = some v) : entry f t k = f k v := by simp [entry, h]

theorem entry_none {f : κ → α → ℤ} {t : Table κ α} {k : κ}
    (h : t.lookup k = none) : entry f t k = 0 := by simp [entry, h]

/-- Taking one row out takes exactly its summand out. -/
theorem entry_add_total_erase (f : κ → α → ℤ) (t : Table κ α) (k : κ) :
    entry f t k + total f (t.erase k) = total f t := by
  obtain ⟨entries, hn⟩ := t
  change (entries.dlookup k).elim 0 (f k) + ((entries.kerase k).map fun e => f e.1 e.2).sum =
    (entries.map fun e => f e.1 e.2).sum
  clear hn
  induction entries with
  | nil => rfl
  | cons e es ih =>
      by_cases h : k = e.1
      · subst h
        cases e
        simp
      · rw [List.dlookup_cons_ne _ _ h, List.kerase_cons_ne h]
        simp only [List.map_cons, List.sum_cons] at ih ⊢
        omega

theorem total_erase (f : κ → α → ℤ) (t : Table κ α) (k : κ) :
    total f (t.erase k) = total f t - entry f t k := by
  have h := entry_add_total_erase f t k
  omega

theorem total_insert (f : κ → α → ℤ) (t : Table κ α) (k : κ) (v : α) :
    total f (t.insert k v) = total f t - entry f t k + f k v := by
  have h := entry_add_total_erase f t k
  have hi : total f (t.insert k v) = f k v + total f (t.erase k) := rfl
  omega

/-- A statement about every stored row holds of every listed row. -/
theorem mem_entries_iff {t : Table κ α} {k : κ} {v : α} :
    ⟨k, v⟩ ∈ t.entries ↔ t.lookup k = some v := by
  rw [← AList.mem_lookup_iff]
  rfl

theorem total_le_total {f g : κ → α → ℤ} {t : Table κ α}
    (h : ∀ k v, t.lookup k = some v → f k v ≤ g k v) : total f t ≤ total g t := by
  apply List.sum_le_sum
  intro e he
  exact h e.1 e.2 (mem_entries_iff.mp he)

theorem total_congr {f g : κ → α → ℤ} {t : Table κ α}
    (h : ∀ k v, t.lookup k = some v → f k v = g k v) : total f t = total g t :=
  le_antisymm (total_le_total fun k v hk => (h k v hk).le)
    (total_le_total fun k v hk => (h k v hk).ge)

theorem total_nonneg {f : κ → α → ℤ} {t : Table κ α}
    (h : ∀ k v, t.lookup k = some v → 0 ≤ f k v) : 0 ≤ total f t := by
  rw [← total_zero t]
  exact total_le_total h

/-- With nonnegative rows no single row exceeds the total. -/
theorem le_total {f : κ → α → ℤ} {t : Table κ α} {k : κ} {v : α}
    (h : ∀ k v, t.lookup k = some v → 0 ≤ f k v) (hk : t.lookup k = some v) :
    f k v ≤ total f t := by
  have hsplit := entry_add_total_erase f t k
  rw [entry_some hk] at hsplit
  have hrest : 0 ≤ total f (t.erase k) :=
    total_nonneg fun k' v' hk' => h k' v' (lookup_erase_eq_some hk').2
  omega

theorem total_eq_zero {f : κ → α → ℤ} {t : Table κ α}
    (h : ∀ k v, t.lookup k = some v → f k v = 0) : total f t = 0 := by
  rw [total_congr h, total_zero]

/-- A total to which a single row contributes. -/
theorem total_eq_entry {f : κ → α → ℤ} {t : Table κ α} {k : κ}
    (h : ∀ k' v, t.lookup k' = some v → k' ≠ k → f k' v = 0) : total f t = entry f t k := by
  have hsplit := entry_add_total_erase f t k
  have hrest : total f (t.erase k) = 0 := by
    apply total_eq_zero
    intro k' v hk'
    obtain ⟨hne, hlookup⟩ := lookup_erase_eq_some hk'
    exact h k' v hlookup hne
  omega

/-- Two different rows together stay within a total of nonnegative rows. -/
theorem add_le_total {f : κ → α → ℤ} {t : Table κ α} {k k' : κ} {v : α}
    (h : ∀ k v, t.lookup k = some v → 0 ≤ f k v) (hk : t.lookup k = some v) (hne : k ≠ k') :
    f k v + entry f t k' ≤ total f t := by
  have hsplit := entry_add_total_erase f t k'
  have hrow : f k v ≤ total f (t.erase k') := by
    apply le_total
    · exact fun k1 v1 h1 => h k1 v1 (lookup_erase_eq_some h1).2
    · rw [AList.lookup_erase_ne hne, hk]
  omega

/-- Rows truncated one by one against their sum truncated once: the difference
is at most the number of rows, counted by `cnt`. -/
theorem abs_tdiv_total_sub_le {num quo cnt : κ → α → ℤ} {t : Table κ α} {b : ℤ} (hb : 0 < b)
    (hc : ∀ k v, t.lookup k = some v → 0 ≤ cnt k v)
    (h : ∀ k v, t.lookup k = some v → |num k v - b * quo k v| ≤ cnt k v * (b - 1)) :
    |(total num t).tdiv b - total quo t| ≤ total cnt t := by
  have hhi : total num t ≤ b * total quo t + (b - 1) * total cnt t := by
    rw [← total_mul_left, ← total_mul_left, ← total_add]
    apply total_le_total
    intro k v hk
    have hrow := (abs_le.mp (h k v hk)).2
    linarith
  have hlo : b * total quo t ≤ total num t + (b - 1) * total cnt t := by
    rw [← total_mul_left, ← total_mul_left, ← total_add]
    apply total_le_total
    intro k v hk
    have hrow := (abs_le.mp (h k v hk)).1
    linarith
  apply TruncatedDivision.abs_tdiv_sub_le hb (total_nonneg hc)
  · linarith
  · linarith

/-! ## Totals of a balance function -/

/-- All but finitely many balances are zero, and the rest add up to `n`. -/
def SumsTo (f : κ → ℤ) (n : ℤ) : Prop :=
  ∃ s : Finset κ, (∀ k, k ∉ s → f k = 0) ∧ ∑ k ∈ s, f k = n

omit [DecidableEq κ] in
theorem sumsTo_zero : SumsTo (fun _ : κ => 0) 0 := ⟨∅, fun _ _ => rfl, rfl⟩

/-- A change of one balance changes the sum by as much. -/
theorem SumsTo.update {f : κ → ℤ} {n : ℤ} (h : SumsTo f n) (k : κ) (d : ℤ) :
    SumsTo (Function.update f k (f k + d)) (n + d) := by
  obtain ⟨s, hzero, hsum⟩ := h
  refine ⟨insert k s, ?_, ?_⟩
  · intro k' hk'
    obtain ⟨hne, hns⟩ := not_or.mp (fun hc => hk' (Finset.mem_insert.mpr hc))
    rw [Function.update_of_ne hne, hzero k' hns]
  · have hsum' : ∑ k' ∈ insert k s, f k' = n := by
      rw [← hsum]
      apply Finset.sum_insert_of_eq_zero_if_notMem
      exact hzero k
    have hk : k ∈ insert k s := Finset.mem_insert_self k s
    rw [Finset.sum_update_of_mem hk, ← hsum', ← Finset.add_sum_erase _ _ hk,
      Finset.sdiff_singleton_eq_erase]
    ring

/-- Nonnegative balances are each within the sum. -/
theorem SumsTo.le {f : κ → ℤ} {n : ℤ} (h : SumsTo f n) (hf : ∀ k, 0 ≤ f k) (k : κ) :
    f k ≤ n := by
  obtain ⟨s, hzero, hsum⟩ := h
  by_cases hk : k ∈ s
  · rw [← hsum]
    exact Finset.single_le_sum (fun k' _ => hf k') hk
  · rw [hzero k hk, ← hsum]
    exact Finset.sum_nonneg fun k' _ => hf k'

omit [DecidableEq κ] in
/-- There is one sum. -/
theorem SumsTo.unique {f : κ → ℤ} {n m : ℤ} (hn : SumsTo f n) (hm : SumsTo f m) : n = m := by
  classical
  obtain ⟨s, hs, rfl⟩ := hn
  obtain ⟨t, ht, rfl⟩ := hm
  have hleft : s ⊆ s ∪ t := Finset.subset_union_left
  have hright : t ⊆ s ∪ t := Finset.subset_union_right
  rw [Finset.sum_subset hleft fun k _ hk => hs k hk]
  exact (Finset.sum_subset hright fun k _ hk => ht k hk).symm

/-- The total of a table is the sum of what it holds at each key. -/
theorem sumsTo_entry (f : κ → α → ℤ) (t : Table κ α) : SumsTo (entry f t) (total f t) := by
  induction t using AList.insertRec with
  | H0 => exact sumsTo_zero
  | IH k v t hk ih =>
      have hentry : entry f (t.insert k v) =
          Function.update (entry f t) k (entry f t k + (f k v - entry f t k)) := by
        funext k'
        by_cases h : k' = k
        · subst h
          simp [entry]
        · simp [entry, h]
      have htotal : total f (t.insert k v) = total f t + (f k v - entry f t k) := by
        rw [total_insert]
        ring
      rw [hentry, htotal]
      exact ih.update k _

/-- Tables that hold the same at every key have the same total. -/
theorem total_eq_of_entry {β : Type*} {f : κ → α → ℤ} {g : κ → β → ℤ} {t : Table κ α}
    {u : Table κ β} (h : ∀ k, entry f t k = entry g u k) : total f t = total g u := by
  have hfun : entry f t = entry g u := funext h
  exact (hfun ▸ sumsTo_entry f t).unique (sumsTo_entry g u)

end Stellars.KeyedTotals
