import Attestor.Proofs.BatchEffect
import Attestor.Proofs.Delivery

namespace Attestor

namespace Database

theorem Change.checkpoint_le {db db' : Database} (hc : db.Change db') {role : Role}
    {row : CheckpointRow} (h : db.checkpointRow? role = some row) :
    ∃ row', db'.checkpointRow? role = some row' ∧ row.ledgerSequence ≤ row'.ledgerSequence := by
  cases hc with
  | insert a _ _ =>
    rw [checkpointRow_append]
    exact ⟨row, h, Int64.le_refl _⟩
  | advance table moved transactionId ledger present ahead =>
    by_cases hr : role = moved
    · subst hr
      rw [checkpointRow?, present, Option.bind_some] at h
      refine ⟨_, checkpointRow_setCheckpoint (by simp [present]) .., ahead row h⟩
    · rw [checkpointRow_setCheckpoint_other db hr]
      exact ⟨row, h, Int64.le_refl _⟩
  | create table created present missing =>
    have hr : role ≠ created := by
      rintro rfl
      rw [checkpointRow?, present, Option.bind_some, missing] at h
      cases h
    rw [checkpointRow_setCheckpoint_other db hr]
    exact ⟨row, h, Int64.le_refl _⟩
  | prepare =>
    rw [checkpointRow_prepare]
    exact ⟨row, h, Int64.le_refl _⟩

/-- A checkpoint never disappears and never moves back. -/
theorem Changes.checkpoint_le {db db' : Database} (hc : db.Changes db') {role : Role}
    {row : CheckpointRow} (h : db.checkpointRow? role = some row) :
    ∃ row', db'.checkpointRow? role = some row' ∧ row.ledgerSequence ≤ row'.ledgerSequence := by
  induction hc with
  | refl => exact ⟨row, h, Int64.le_refl _⟩
  | tail _ hc ih =>
    obtain ⟨row₁, h₁, hl₁⟩ := ih
    obtain ⟨row₂, h₂, hl₂⟩ := hc.checkpoint_le h₁
    exact ⟨row₂, h₂, Int64.le_trans hl₁ hl₂⟩

theorem Legible.checkpoint_le {db db' : Database} (h : db.Legible) (hc : db.Changes db')
    (role : Role) : db.checkpoint role = .ok none ∨ ∃ c c', db.checkpoint role = .ok (some c) ∧
      db'.checkpoint role = .ok (some c') ∧ c.ledgerSequence ≤ c'.ledgerSequence := by
  obtain ⟨-, hn, -⟩ | ⟨transactionId, n, hrow, hs, -⟩ := h.position role
  · exact .inl hn
  · obtain ⟨row', hrow', hle⟩ := hc.checkpoint_le hrow
    obtain ⟨hn', -⟩ | ⟨transactionId', n', hr', hs', -⟩ := (h.changes hc).position role
    · rw [hrow'] at hn'
      cases hn'
    · cases hr'.symm.trans hrow'
      exact .inr ⟨_, _, hs, hs', Row.ledger_le_iff.mp hle⟩

end Database

/-- A database on its own, or with a store open on it. -/
inductive Holding where
  | closed (db : Database)
  | opened (s : Store)

/-- What can be done with it. -/
inductive Operation where
  /-- the database is opened, or closed and opened again -/
  | reopen
  | close
  /-- a fault may keep the batch from taking effect -/
  | write (fault : Option Fault) (b : Batch)
  | advance (role : Role) (transactionId : String) (ledger : UInt32)
  | ensureCheckpoint (role : Role)
  /-- a writer dies in the middle of its steps -/
  | die (steps : List WriteStep)
  /-- lookups, counts and checks -/
  | read

namespace Holding

def database : Holding → Database
  | closed db => db
  | opened s => s.database

/-- What opening a database comes to. One that does not open stays closed. -/
def reopen (db : Database) : Holding :=
  match Store.openChecked db.prepare with
  | .ok s => opened s
  | .error _ => closed db.prepare

/-- A closed database can only be opened. -/
def step : Holding → Operation → Holding
  | h, .reopen => reopen h.database
  | closed db, _ => closed db
  | opened s, .close => closed s.database
  | opened s, .write fault b => opened (s.writeUnder fault b).2
  | opened s, .advance role transactionId ledger => opened (s.advance role transactionId ledger).2
  | opened s, .ensureCheckpoint role => opened (s.ensureCheckpoint role).2
  | opened s, .die steps => opened (s.writeAndDie steps).2
  | opened s, .read => opened s

def run (h : Holding) (operations : List Operation) : Holding :=
  operations.foldl step h

/-- A file that nobody has written to. -/
def fresh : Holding :=
  closed .empty

@[simp] theorem database_reopen (db : Database) : (reopen db).database = db.prepare := by
  unfold reopen
  split
  · rename_i s hs
    rw [Store.openChecked_eq hs]
    rfl
  · rfl

/-- All that changes the tables is a write, or the table of checkpoints that opening creates. -/
theorem step_cases (h : Holding) (o : Operation) :
    (h.step o).database = h.database ∨ (h.step o).database = h.database.prepare ∨
      ∃ s b, h = opened s ∧ (h.step o).database = (s.write b).2.database := by
  cases h with
  | closed db =>
    cases o with
    | reopen => exact .inr (.inl (database_reopen db))
    | _ => exact .inl rfl
  | opened s =>
    cases o with
    | reopen => exact .inr (.inl (database_reopen s.database))
    | close | read => exact .inl rfl
    | write fault b =>
      cases fault with
      | none => exact .inr (.inr ⟨s, b, rfl, rfl⟩)
      | some f =>
        left
        simp only [step, database, Store.writeUnder]
        split <;> rfl
    | advance role transactionId ledger => exact .inr (.inr ⟨s, _, rfl, rfl⟩)
    | ensureCheckpoint role =>
      exact .inr (.inr ⟨s, _, rfl, congrArg Store.database (s.ensureCheckpoint_store role)⟩)
    | die steps => exact .inl (s.writeAndDie_database steps)

theorem step_changes (h : Holding) (o : Operation) : h.database.Changes (h.step o).database := by
  obtain hs | hs | ⟨s, b, rfl, hs⟩ := h.step_cases o
  · rw [hs]
  · rw [hs]
    exact .single .prepare
  · rw [hs]
    exact s.write_changes b

theorem run_changes (h : Holding) (operations : List Operation) :
    h.database.Changes (h.run operations).database := by
  induction operations generalizing h with
  | nil => exact .refl
  | cons o operations ih => exact (h.step_changes o).trans (ih (h.step o))

theorem run_legible (operations : List Operation) : (fresh.run operations).database.Legible :=
  Database.blank_empty.legible.changes (fresh.run_changes operations)

theorem opened_legible {operations : List Operation} {s : Store}
    (h : fresh.run operations = .opened s) : s.database.Legible := by
  have hlegible := run_legible operations
  rw [h] at hlegible
  exact hlegible

/-- Whatever is done with a database that begins empty: no two rows of a table that belong to one
bridge share a transaction or a number; rows stay what and where they are; and the checkpoint of a
chain, once it is there, does not disappear or move back. -/
theorem written_once (operations later : List Operation) :
    (∀ kind direction, ((fresh.run operations).database.rows kind direction).Pairwise fun r s =>
      r.bridgeKey = s.bridgeKey →
        r.transactionId ≠ s.transactionId ∧ r.number.toUInt64 ≠ s.number.toUInt64) ∧
    (∀ kind direction, (fresh.run operations).database.rows kind direction <+:
      ((fresh.run operations).run later).database.rows kind direction) ∧
    ∀ role, (fresh.run operations).database.checkpoint role = .ok none ∨
      ∃ c c', (fresh.run operations).database.checkpoint role = .ok (some c) ∧
        ((fresh.run operations).run later).database.checkpoint role = .ok (some c') ∧
        c.ledgerSequence ≤ c'.ledgerSequence := by
  have hlater := (fresh.run operations).run_changes later
  refine ⟨?_, hlater.rows_prefix, (run_legible operations).checkpoint_le hlater⟩
  intro kind direction
  have hkeyed := Database.keyed_empty.changes (fresh.run_changes operations)
  refine (hkeyed kind direction).imp ?_
  intro r s hc hk
  rw [Bool.eq_false_iff, Ne, Row.conflicts_iff, not_and, not_or] at hc
  refine ⟨(hc hk).1, fun hn => (hc hk).2 ?_⟩
  rw [← r.number.toInt64_toUInt64, hn, s.number.toInt64_toUInt64]

/-- A batch that passes over two of its steps is committed, and the database is opened again. -/
def committedOnce : List Operation :=
  [.reopen, .ensureCheckpoint .issuing, .write none Store.halfFailed, .reopen]

/-- One batch fails, one passes over its failure, and a writer dies. -/
def afterwards : List Operation :=
  [.write none ⟨[.advance .locking "B" 9, .fail "stop"], false⟩,
    .write none ⟨[.advance .locking "B" 8, .advance .locking "A" 3], true⟩,
    .die [.advance .locking "C" 10], .advance .locking "C" 10, .reopen]

theorem written_once_afterwards : [Row.ofAttestation Store.insertedSample] <+:
      ((fresh.run committedOnce).run afterwards).database.rows .claim .lockingToIssuing ∧
    ∃ c, ((fresh.run committedOnce).run afterwards).database.checkpoint .locking = .ok (some c) ∧
      7 ≤ c.ledgerSequence := by
  obtain ⟨-, hrows, hcheckpoint⟩ := written_once committedOnce afterwards
  have h : (fresh.run committedOnce).database.checkpoint .locking =
      .ok (some ⟨.locking, some "A", 7⟩) := rfl
  refine ⟨hrows .claim .lockingToIssuing, ?_⟩
  obtain hn | ⟨c, c', hc, hc', hle⟩ := hcheckpoint .locking
  · cases h.symm.trans hn
  · cases h.symm.trans hc
    exact ⟨c', hc', hle⟩

end Holding

end Attestor
