import Attestor.Store.Database

namespace Attestor

/-- A column of a row with its new value. -/
inductive Cell where
  | ledgerSequence (n : Int64)
  | number (n : Int64)
  | success (n : Int64)
  | deliveredAmount (text : String)
  /-- for account creations only -/
  | rewardAmount (text : Option String)
  | bridge (text : String)
  | sendingAccount (text : String)
  | rewardAccount (text : String)
  | destination (text : Option String)
  | signingAccount (text : String)
  | transactionId (text : String)
  /-- no value in a column that requires one -/
  | missing
  deriving DecidableEq

namespace Cell

/-- Whether tables of that kind have the column. -/
def belongs (kind : TransferKind) : Cell → Bool
  | rewardAmount _ => kind = .createAccount
  | _ => true

/-- The row with the new value, if the column admits it. -/
def write? (row : Row) : Cell → Option Row
  | ledgerSequence n => some { row with ledgerSequence := n }
  | number n => some { row with number := n }
  | success n => some { row with success := n }
  | deliveredAmount text => some { row with deliveredAmount := text }
  | rewardAmount text => text.map fun text => { row with rewardAmount := some text }
  | bridge text => some { row with bridge := text }
  | sendingAccount text => some { row with sendingAccount := text }
  | rewardAccount text => some { row with rewardAccount := text }
  | destination text => some { row with destination := text }
  | signingAccount text => some { row with signingAccount := text }
  | transactionId text => some { row with transactionId := text }
  | missing => none

end Cell

namespace Database

/-- Changes the rows of that transaction after those `before`, one at a time. -/
def overwriteRows (transactionId : String) (cell : Cell) (before : List Row) :
    List Row → Option (List Row)
  | [] => some before
  | row :: rest =>
    if row.transactionId = transactionId then
      match cell.write? row with
      | none => none
      | some changed =>
        if (before ++ rest).any changed.conflicts then none
        else overwriteRows transactionId cell (before ++ [changed]) rest
    else overwriteRows transactionId cell (before ++ [row]) rest

/-- Overwrites a column in every row of a transaction, and counts the rows. -/
def overwrite (db : Database) (kind : TransferKind) (direction : Direction) (transactionId : String)
    (cell : Cell) : Except StoreError (Nat × Database) :=
  let rows := db.rows kind direction
  match if cell.belongs kind then overwriteRows transactionId cell [] rows else none with
  | none => .error .database
  | some changed =>
    .ok (rows.countP (·.transactionId = transactionId), db.withRows kind direction changed)

def deleteRows (db : Database) (kind : TransferKind) (direction : Direction)
    (transactionId : String) : Nat × Database :=
  let rows := db.rows kind direction
  (rows.countP (·.transactionId = transactionId),
    db.withRows kind direction (rows.filter (·.transactionId ≠ transactionId)))

/-- Sets the ledger of an existing checkpoint. -/
def overwriteCheckpoint (db : Database) (role : Role) (ledger : Int64) :
    Except StoreError (Nat × Database) :=
  match db.checkpoints with
  | none => .error .database
  | some table =>
    match table.get role with
    | none => .ok (0, db)
    | some row => .ok (1, db.setCheckpoint role { row with ledgerSequence := ledger })

def deleteCheckpoint (db : Database) (role : Role) : Except StoreError (Nat × Database) :=
  match db.checkpoints with
  | none => .error .database
  | some table =>
    match table.get role with
    | none => .ok (0, db)
    | some _ => .ok (1, { db with checkpoints := some (table.set role none) })

end Database

end Attestor
