import Attestor.Bridge.Role
import Attestor.Transfer.Key

namespace Attestor

/-- A checkpoint's ledger as messages show it. -/
def ledgerText : Option UInt32 → String
  | none => "None"
  | some n => "Some(" ++ toString n.toNat ++ ")"

/-- Contents that no sequence of writes leaves behind. -/
inductive Corruption where
  | uncoveredRows (direction : Direction) (highest : UInt32) (checkpoint : Option UInt32)
  | blockedInsert (direction : Direction) (kind : TransferKind)
  | lostCheckpoint (role : Role)
  deriving DecidableEq, Repr

/-- Why a write is refused that the database itself would take. -/
inductive RefusedRecord where
  | notClaim (key : ClaimKey)
  | notAccountCreation (key : ClaimKey)
  | noReward (key : ClaimKey)
  | uncovered (role : Role) (ledger : UInt32) (checkpoint : Option UInt32)
  | other (reason : String)
  deriving DecidableEq, Repr

/-- What can go wrong in the store. Faults of the database and of the disk may pass; all others
stay. -/
inductive StoreError where
  | database
  | serialization
  | io
  | corrupted (c : Corruption)
  | regression (role : Role) (current requested : UInt32)
  | refused (r : RefusedRecord)
  | poisoned
  deriving DecidableEq, Repr

def tableName (kind : TransferKind) (direction : Direction) : String :=
  match kind with
  | .claim => direction.name ++ "_claims"
  | .createAccount => direction.name ++ "_creates"

def Corruption.message : Corruption → String
  | uncoveredRows direction highest checkpoint =>
    direction.name ++ " attestations reach ledger " ++ toString highest.toNat
      ++ " but the checkpoint is " ++ ledgerText checkpoint
  | blockedInsert direction kind =>
    "insert into " ++ tableName kind direction ++ " conflicted but no conflicting row exists"
  | lostCheckpoint role => "sync state for " ++ role.name ++ " vanished"

def RefusedRecord.message : RefusedRecord → String
  | notClaim key => key.toString ++ " is not a claim"
  | notAccountCreation key => key.toString ++ " is not an account creation"
  | noReward key => key.toString ++ " has no reward amount"
  | uncovered role ledger checkpoint =>
    role.name ++ " attestation at ledger " ++ toString ledger.toNat
      ++ " is not covered by checkpoint " ++ ledgerText checkpoint
  | other reason => reason

namespace StoreError

/-- What the database, the disk or the reader of a stored text say themselves is left out. -/
def message : StoreError → String
  | database => "Database error"
  | serialization => "Serialization error"
  | io => "IO error"
  | corrupted c => "Store corrupted: " ++ c.message
  | regression role current requested =>
    "Checkpoint for " ++ role.name ++ " cannot move back from ledger " ++ toString current.toNat
      ++ " to " ++ toString requested.toNat
  | refused r => "Invalid record: " ++ r.message
  | poisoned => "Store lock poisoned"

/-- Whether the same write may succeed later. -/
def isTransient : StoreError → Bool
  | database | io => true
  | _ => false

end StoreError

end Attestor
