import Mathlib.Tactic

/-!
# Scripts of statements in one transaction

A script sends statements one after another and may throw on its own. The first
statement that fails aborts the transaction it runs in: from then on every statement
fails, until the transaction is rolled back. A program that catches what its scripts
throw and goes on in the same transaction therefore isolates only some of the failures.
-/
namespace Stellars.SqlTransactions

/-- What the database makes of a statement; none when the statement fails. -/
structure Engine (D Q R W : Type) where
  query : D → Q → Option R
  write : D → W → Option D

inductive Script (Q R W : Type)
  | done
  | throw
  | query (q : Q) (next : R → Script Q R W)
  | write (w : W) (next : Script Q R W)

/-- An open transaction. -/
@[ext] structure Tx (D : Type) where
  db : D
  aborted : Bool
  deriving DecidableEq

/-- The transaction a script leaves, whether the script threw, and what it wrote. -/
structure Ran (D W : Type) where
  tx : Tx D
  threw : Bool
  writes : List W

variable {D Q R W : Type} (E : Engine D Q R W)

namespace Script

/-- Go on with a value, or throw its error. -/
def ofExcept {ε α : Type} (x : Except ε α) (next : α → Script Q R W) : Script Q R W :=
  match x with
  | .error _ => .throw
  | .ok a => next a

def run (tx : Tx D) : Script Q R W → Ran D W
  | .done => ⟨tx, false, []⟩
  | .throw => ⟨tx, true, []⟩
  | .query q next =>
      if tx.aborted then ⟨tx, true, []⟩
      else match E.query tx.db q with
        | some r => (next r).run tx
        | none => ⟨{ tx with aborted := true }, true, []⟩
  | .write w next =>
      if tx.aborted then ⟨tx, true, []⟩
      else match E.write tx.db w with
        | some db =>
            let ran := next.run { tx with db := db }
            { ran with writes := w :: ran.writes }
        | none => ⟨{ tx with aborted := true }, true, []⟩

/-- The script behind a savepoint of its own, rolled back to when it throws. -/
def isolated (db : D) (script : Script Q R W) : D × List W :=
  let ran := script.run E ⟨db, false⟩
  if ran.threw then (db, []) else (ran.tx.db, ran.writes)

/-- If the script throws, it does so on its own, before it has written anything. -/
def Harmless (db : D) (script : Script Q R W) : Prop :=
  (script.run E ⟨db, false⟩).threw = true →
    (script.run E ⟨db, false⟩).tx.aborted = false ∧ (script.run E ⟨db, false⟩).writes = []

variable {E}

/-- An aborted transaction takes no statement. -/
theorem run_aborted {tx : Tx D} (h : tx.aborted = true) (script : Script Q R W) :
    (script.run E tx).tx = tx ∧ (script.run E tx).writes = [] := by
  cases script with
  | done => exact ⟨rfl, rfl⟩
  | throw => exact ⟨rfl, rfl⟩
  | query q next => simp [run, h]
  | write w next => simp [run, h]

/-- Only a script that throws can leave its transaction aborted. -/
theorem threw_of_aborted {tx : Tx D} (htx : tx.aborted = false) {script : Script Q R W}
    (h : (script.run E tx).tx.aborted = true) : (script.run E tx).threw = true := by
  induction script generalizing tx with
  | done => exact absurd h (by simp [run, htx])
  | throw => rfl
  | query q next ih =>
      simp only [run, htx, Bool.false_eq_true, if_false] at h ⊢
      cases hq : E.query tx.db q with
      | none => rfl
      | some r =>
          rw [hq] at h
          exact ih r htx h
  | write w next ih =>
      simp only [run, htx, Bool.false_eq_true, if_false] at h ⊢
      cases hw : E.write tx.db w with
      | none => rfl
      | some db =>
          rw [hw] at h
          exact ih rfl h

/-- What has written nothing has changed nothing. -/
theorem run_db {tx : Tx D} (htx : tx.aborted = false) {script : Script Q R W}
    (h : (script.run E tx).writes = []) : (script.run E tx).tx.db = tx.db := by
  induction script generalizing tx with
  | done => rfl
  | throw => rfl
  | query q next ih =>
      simp only [run, htx, Bool.false_eq_true, if_false] at h ⊢
      cases hq : E.query tx.db q with
      | none => rfl
      | some r =>
          rw [hq] at h
          exact ih r htx h
  | write w next ih =>
      simp only [run, htx, Bool.false_eq_true, if_false] at h ⊢
      cases hw : E.write tx.db w with
      | none => rfl
      | some db =>
          rw [hw] at h
          exact absurd h (by simp)

/-- A harmless script leaves the transaction as it would behind its own savepoint. -/
theorem Harmless.run_eq {db : D} {script : Script Q R W} (h : Harmless E db script) :
    (script.run E ⟨db, false⟩).tx = ⟨(script.isolated E db).1, false⟩ ∧
      (script.run E ⟨db, false⟩).writes = (script.isolated E db).2 := by
  cases hthrew : (script.run E ⟨db, false⟩).threw with
  | true =>
      obtain ⟨haborted, hwrites⟩ := h hthrew
      have hdb := run_db rfl hwrites
      simp only [isolated, hthrew, if_true]
      exact ⟨Tx.ext hdb haborted, hwrites⟩
  | false =>
      have haborted : (script.run E ⟨db, false⟩).tx.aborted = false := by
        by_contra hab
        rw [threw_of_aborted rfl (by simpa using hab)] at hthrew
        cases hthrew
      simp only [isolated, hthrew, Bool.false_eq_true, if_false]
      exact ⟨Tx.ext rfl haborted, trivial⟩

theorem harmless_throw (db : D) : (throw : Script Q R W).Harmless E db := by
  intro _
  exact ⟨rfl, rfl⟩

/-- A value that is missing does no harm: nothing has been sent yet. -/
theorem harmless_ofExcept_iff {ε α : Type} {db : D} {x : Except ε α}
    {next : α → Script Q R W} :
    (ofExcept x next).Harmless E db ↔ ∀ a, x = .ok a → (next a).Harmless E db := by
  cases x with
  | error err => simpa [ofExcept] using harmless_throw db
  | ok a => simp [ofExcept]

theorem harmless_write_done_iff {db : D} {w : W} :
    (write w done : Script Q R W).Harmless E db ↔ (E.write db w).isSome := by
  cases hw : E.write db w with
  | none => simp [Harmless, run, hw]
  | some db' => simp [Harmless, run, hw]

end Script

/-! ## One transaction for many scripts -/

/-- What a script throws is caught, and the next script runs in the same transaction;
beside it, what each script wrote. -/
def runAll (tx : Tx D) : List (Script Q R W) → Tx D × List (List W)
  | [] => (tx, [])
  | script :: rest =>
      let ran := script.run E tx
      let after := runAll ran.tx rest
      (after.1, ran.writes :: after.2)

/-- Each script behind a savepoint of its own. -/
def isolatedAll (db : D) : List (Script Q R W) → D × List (List W)
  | [] => (db, [])
  | script :: rest =>
      let one := script.isolated E db
      let after := isolatedAll one.1 rest
      (after.1, one.2 :: after.2)

/-- Every script is harmless from the tables that the scripts before it leave. -/
def AllHarmless (db : D) : List (Script Q R W) → Prop
  | [] => True
  | script :: rest => script.Harmless E db ∧ AllHarmless (script.isolated E db).1 rest

variable {E}

theorem runAll_aborted {tx : Tx D} (h : tx.aborted = true) (scripts : List (Script Q R W)) :
    (runAll E tx scripts).1 = tx := by
  induction scripts with
  | nil => rfl
  | cons script rest ih =>
      rw [runAll, (script.run_aborted h).1]
      exact ih

theorem runAll_append (tx : Tx D) (scripts later : List (Script Q R W)) :
    runAll E tx (scripts ++ later) =
      ((runAll E (runAll E tx scripts).1 later).1,
        (runAll E tx scripts).2 ++ (runAll E (runAll E tx scripts).1 later).2) := by
  induction scripts generalizing tx with
  | nil => rfl
  | cons script rest ih => simp [runAll, ih]

theorem allHarmless_append {db : D} {scripts later : List (Script Q R W)} :
    AllHarmless E db (scripts ++ later) ↔
      AllHarmless E db scripts ∧ AllHarmless E (isolatedAll E db scripts).1 later := by
  induction scripts generalizing db with
  | nil => simp [AllHarmless, isolatedAll]
  | cons script rest ih => simp [AllHarmless, isolatedAll, ih, and_assoc]

theorem Tx.eq_of_open {tx : Tx D} (h : tx.aborted = false) : tx = ⟨tx.db, false⟩ := by
  cases tx
  cases h
  rfl

theorem runAll_of_allHarmless {db : D} {scripts : List (Script Q R W)}
    (h : AllHarmless E db scripts) :
    runAll E ⟨db, false⟩ scripts =
      (⟨(isolatedAll E db scripts).1, false⟩, (isolatedAll E db scripts).2) := by
  induction scripts generalizing db with
  | nil => rfl
  | cons script rest ih =>
      obtain ⟨htx, hwrites⟩ := h.1.run_eq
      simp only [runAll, isolatedAll, htx, hwrites, ih h.2]

theorem allHarmless_of_runAll {db : D} {scripts : List (Script Q R W)}
    (hopen : (runAll E ⟨db, false⟩ scripts).1.aborted = false)
    (heffects : (runAll E ⟨db, false⟩ scripts).2 = (isolatedAll E db scripts).2) :
    AllHarmless E db scripts := by
  induction scripts generalizing db with
  | nil => trivial
  | cons script rest ih =>
      simp only [runAll, isolatedAll, List.cons.injEq] at hopen heffects
      have haborted : (script.run E ⟨db, false⟩).tx.aborted = false := by
        by_contra hab
        rw [runAll_aborted (by simpa using hab)] at hopen
        exact hab hopen
      have hone : script.Harmless E db := by
        intro hthrew
        refine ⟨haborted, ?_⟩
        rw [heffects.1, Script.isolated, if_pos hthrew]
      rw [hone.run_eq.1] at hopen heffects
      exact ⟨hone, ih hopen heffects.2⟩

/-- One transaction for all the scripts does what a savepoint around each of them would,
exactly when each of them is harmless. -/
theorem runAll_isolates_iff {db : D} {scripts : List (Script Q R W)} :
    (runAll E ⟨db, false⟩ scripts).1.aborted = false ∧
        (runAll E ⟨db, false⟩ scripts).2 = (isolatedAll E db scripts).2 ↔
      AllHarmless E db scripts := by
  constructor
  · rintro ⟨hopen, heffects⟩
    exact allHarmless_of_runAll hopen heffects
  · intro h
    rw [runAll_of_allHarmless h]
    exact ⟨rfl, rfl⟩

end Stellars.SqlTransactions
