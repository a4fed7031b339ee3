import Attestor.Store.Database

namespace Attestor

/-- What an insert answers. A row that is in the way is returned as it stands. -/
inductive Insertion where
  | inserted
  | exists (a : Attestation)
  deriving DecidableEq

inductive WriteStep where
  | insertClaim (a : Attestation)
  | insertAccountCreate (a : Attestation)
  | insert (a : Attestation)
  | advance (role : Role) (transactionId : String) (ledger : UInt32)
  | readCheckpoint (role : Role)
  | ensureCheckpoint (role : Role)
  | fail (reason : String)
  deriving DecidableEq

inductive StepAnswer where
  | insertion (i : Insertion)
  | advanced
  | checkpoint (c : Option Checkpoint)
  | failed (e : StoreError)
  deriving DecidableEq

/-- Attestations committed, inserts that met a stored one, and checkpoint advances. -/
structure StoreCounts where
  inserted : Nat
  duplicates : Nat
  advances : Nat
  deriving DecidableEq, Repr

namespace StoreCounts

def zero : StoreCounts :=
  ⟨0, 0, 0⟩

def add (a b : StoreCounts) : StoreCounts :=
  ⟨a.inserted + b.inserted, a.duplicates + b.duplicates, a.advances + b.advances⟩

def toJson (c : StoreCounts) : Json :=
  .object [("attestations_inserted_total", .integer c.inserted),
    ("duplicate_inserts_total", .integer c.duplicates),
    ("checkpoint_advances_total", .integer c.advances)]

end StoreCounts

/-- A database under way to its next state, with what the batch has done. -/
structure Draft where
  database : Database
  counts : StoreCounts
  /-- the greatest ledger that the batch has inserted for each source chain -/
  reach : ByRole (Option UInt32)
  deriving DecidableEq

namespace Draft

def ofDatabase (db : Database) : Draft :=
  ⟨db, .zero, .both none⟩

def extend (reach : Option UInt32) (ledger : UInt32) : Option UInt32 :=
  some (match reach with
    | some n => max n ledger
    | none => ledger)

/-- Whether the keys of a table leave room for a row. -/
def admits (rows : List Row) (row : Row) : Bool :=
  rows.all fun r => !r.conflicts row

/-- The row in the way of an insert: that of the same transaction, or else of the same number. -/
def blocking? (rows : List Row) (row : Row) : Option Row :=
  let rows := rows.filter fun r => r.bridgeKey == row.bridgeKey
  match rows.find? fun r => r.transactionId == row.transactionId with
  | some r => some r
  | none => rows.find? fun r => r.number == row.number

/-- Inserts an attestation if the table has room for it, and else looks for the row in the way. -/
def insert (d : Draft) (a : Attestation) : Except StoreError (Insertion × Draft) :=
  let kind := a.key.kind
  if kind = .createAccount ∧ a.rewardAmount = none then .error (.refused (.noReward a.key))
  else
    let row := Row.ofAttestation a
    let rows := d.database.rows kind a.direction
    if admits rows row then
      .ok (.inserted, {
        database := d.database.withRows kind a.direction (rows ++ [row])
        counts := { d.counts with inserted := d.counts.inserted + 1 }
        reach := d.reach.modify a.direction.source fun r => extend r a.ledgerSequence })
    else
      match blocking? rows row with
      | none => .error (.corrupted (.blockedInsert a.direction kind))
      | some stored => do
        let attestation ← Database.read kind a.direction stored
        return (.exists attestation,
          { d with counts := { d.counts with duplicates := d.counts.duplicates + 1 } })

/-- Moves a checkpoint to a ledger that is not behind it. -/
def advance (d : Draft) (role : Role) (transactionId : String) (ledger : UInt32) :
    Except StoreError Draft :=
  match d.database.checkpoints with
  | none => .error .database
  | some table =>
    let ahead := match table.get role with
      | none => true
      | some row => row.ledgerSequence ≤ ledger.toUInt64.toInt64
    if ahead then
      .ok { d with
        database := d.database.setCheckpoint role ⟨some transactionId, ledger.toUInt64.toInt64⟩
        counts := { d.counts with advances := d.counts.advances + 1 } }
    else do
      let checkpoint ← d.database.checkpoint role
      let current := (checkpoint.map Checkpoint.ledgerSequence).getD 0
      .error (.regression role current ledger)

/-- The checkpoint of a chain, at ledger zero if it is new. -/
def ensureCheckpoint (d : Draft) (role : Role) : Except StoreError (Checkpoint × Draft) :=
  match d.database.checkpoints with
  | none => .error .database
  | some table => do
    let database := match table.get role with
      | some _ => d.database
      | none => d.database.setCheckpoint role ⟨none, 0⟩
    match ← database.checkpoint role with
    | some c => return (c, { d with database })
    | none => .error (.corrupted (.lostCheckpoint role))

/-- One step. A step that fails leaves the draft as it was. -/
def step (d : Draft) : WriteStep → Except StoreError (StepAnswer × Draft)
  | .insertClaim a =>
    if a.isAccountCreate then .error (.refused (.notClaim a.key))
    else (d.insert a).map fun r => (.insertion r.1, r.2)
  | .insertAccountCreate a =>
    if a.isAccountCreate then (d.insert a).map fun r => (.insertion r.1, r.2)
    else .error (.refused (.notAccountCreation a.key))
  | .insert a => (d.insert a).map fun r => (.insertion r.1, r.2)
  | .advance role transactionId ledger =>
    (d.advance role transactionId ledger).map fun d => (.advanced, d)
  | .readCheckpoint role => (d.database.checkpoint role).map fun c => (.checkpoint c, d)
  | .ensureCheckpoint role => (d.ensureCheckpoint role).map fun r => (.checkpoint (some r.1), r.2)
  | .fail reason => .error (.refused (.other reason))

/-- The steps in order, with the answers up to the first failure. A batch that is `lenient` takes a
failure for an answer and goes on. -/
def run (lenient : Bool) : List WriteStep → Draft → List StepAnswer × Except StoreError Draft
  | [], d => ([], .ok d)
  | s :: rest, d =>
    match d.step s with
    | .ok (answer, d) =>
      let (answers, result) := run lenient rest d
      (answer :: answers, result)
    | .error e =>
      if lenient then
        let (answers, result) := run lenient rest d
        (.failed e :: answers, result)
      else ([], .error e)

def checkRole (d : Draft) (role : Role) : Except StoreError Unit :=
  match d.reach.get role with
  | none => .ok ()
  | some ledger => do
    let checkpoint ← d.database.checkpoint role
    let current := checkpoint.map Checkpoint.ledgerSequence
    if Database.covers current ledger then .ok ()
    else .error (.refused (.uncovered role ledger current))

/-- The rows inserted by the batch must not lie beyond the checkpoints it leaves. -/
def check (d : Draft) : Except StoreError Unit := do
  d.checkRole .locking
  d.checkRole .issuing

end Draft

end Attestor
