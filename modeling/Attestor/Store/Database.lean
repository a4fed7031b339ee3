import Attestor.Store.Error
import Attestor.Store.Row

namespace Attestor

/-- How far a chain has been processed: the last committed transaction, if any, and its ledger. -/
structure Checkpoint where
  role : Role
  transactionId : Option String
  ledgerSequence : UInt32
  deriving DecidableEq

def Checkpoint.toJson (c : Checkpoint) : Json :=
  .object [("role", c.role.toJson),
    ("last_transaction_id", .ofOption .string c.transactionId),
    ("last_ledger_sequence", .integer c.ledgerSequence.toNat)]

structure CheckpointRow where
  transactionId : Option String
  ledgerSequence : Int64
  deriving DecidableEq

/-- At most one row for each chain. -/
abbrev CheckpointTable :=
  ByRole (Option CheckpointRow)

/-- Claims and account creations of each direction, and one checkpoint for each chain. -/
structure Database where
  claims : ByRole (List Row)
  creates : ByRole (List Row)
  /-- absent when the table itself is missing -/
  checkpoints : Option CheckpointTable
  deriving DecidableEq

namespace Database

def empty : Database :=
  ⟨.both [], .both [], some (.both none)⟩

def rows (db : Database) (kind : TransferKind) (direction : Direction) : List Row :=
  match kind with
  | .claim => db.claims.get direction.source
  | .createAccount => db.creates.get direction.source

def withRows (db : Database) (kind : TransferKind) (direction : Direction) (rows : List Row) :
    Database :=
  match kind with
  | .claim => { db with claims := db.claims.set direction.source rows }
  | .createAccount => { db with creates := db.creates.set direction.source rows }

def count (db : Database) (direction : Direction) : Nat :=
  (db.rows .claim direction).length + (db.rows .createAccount direction).length

/-- The checkpoint of a chain, if there is one. A ledger out of range cannot be read. -/
def checkpoint (db : Database) (role : Role) : Except StoreError (Option Checkpoint) :=
  match db.checkpoints with
  | none => .error .database
  | some table =>
    match table.get role with
    | none => .ok none
    | some row =>
      match Row.ledger? row.ledgerSequence with
      | none => .error .database
      | some ledger => .ok (some ⟨role, row.transactionId, ledger⟩)

def setCheckpoint (db : Database) (role : Role) (row : CheckpointRow) : Database :=
  { db with checkpoints := db.checkpoints.map fun table => table.set role (some row) }

/-- Creates the checkpoint table where it is missing. -/
def prepare (db : Database) : Database :=
  { db with checkpoints := some (db.checkpoints.getD (.both none)) }

/-- The greatest stored ledger of a table, its low 32 bits only. -/
def highestOf (rows : List Row) : Option UInt32 :=
  match rows.map Row.ledgerSequence with
  | [] => none
  | n :: rest => some (rest.foldl max n).toUInt64.toUInt32

/-- The greatest ledger among the attestations of a direction. -/
def highest (db : Database) (direction : Direction) : Option UInt32 :=
  match highestOf (db.rows .claim direction), highestOf (db.rows .createAccount direction) with
  | some a, some b => some (max a b)
  | some a, none => some a
  | none, b => b

/-- Whether a ledger is at or before a checkpoint. Without one, none is. -/
def covers (checkpoint : Option UInt32) (ledger : UInt32) : Bool :=
  match checkpoint with
  | some c => ledger ≤ c
  | none => false

def checkDirection (db : Database) (direction : Direction) : Except StoreError Unit :=
  match db.highest direction with
  | none => .ok ()
  | some highest => do
    let checkpoint ← db.checkpoint direction.source
    let ledger := checkpoint.map Checkpoint.ledgerSequence
    if covers ledger highest then .ok ()
    else .error (.corrupted (.uncoveredRows direction highest ledger))

/-- Refuses attestations beyond the checkpoint of their source chain. -/
def check (db : Database) : Except StoreError Unit := do
  db.checkDirection .lockingToIssuing
  db.checkDirection .issuingToLocking

/-- The attestation in a row. What cannot be read is a fault of the database. -/
def read (kind : TransferKind) (direction : Direction) (row : Row) :
    Except StoreError Attestation :=
  match row.attestation? kind direction with
  | some a => .ok a
  | none => .error .database

/-- The attestation in the first row that matches, if one does. -/
def find (db : Database) (kind : TransferKind) (direction : Direction) (matches? : Row → Bool) :
    Except StoreError (Option Attestation) :=
  match (db.rows kind direction).find? matches? with
  | none => .ok none
  | some row => (read kind direction row).map some

def lookupClaim (db : Database) (direction : Direction) (bridge : Bridge) (sequence : UInt64)
    (amount : Amount) : Except StoreError (Option Attestation) :=
  let key := bridge.partitionKey
  db.find .claim direction fun r =>
    r.bridgeKey == key && r.number == sequence.toInt64
      && r.deliveredAmount == Row.amountText amount

def lookupAccountCreate (db : Database) (direction : Direction) (bridge : Bridge) (count : UInt64) :
    Except StoreError (Option Attestation) :=
  let key := bridge.partitionKey
  db.find .createAccount direction fun r => r.bridgeKey == key && r.number == count.toInt64

end Database

end Attestor
