import Attestor.Store.Batch

namespace Attestor

/-- A database that changes by whole batches only, and counts of what was committed. A writer that
dies in the middle of a batch poisons the store until it is opened again. -/
structure Store where
  database : Database
  counts : StoreCounts
  poisoned : Bool
  deriving DecidableEq

/-- Steps to take together. A lenient batch goes on after steps that fail. -/
structure Batch where
  steps : List WriteStep
  lenient : Bool
  deriving DecidableEq

/-- The answers of a batch's steps, and why it was not committed if it was not. -/
structure Report where
  answers : List StepAnswer
  failure : Option StoreError
  deriving DecidableEq

/-- A fault from outside that keeps a write from taking effect. -/
inductive Fault where
  | database
  | io
  deriving DecidableEq, Repr

def Fault.error : Fault → StoreError
  | database => .database
  | io => .io

namespace Store

/-- Opens a prepared database, unless it holds attestations that its checkpoints do not cover. -/
def openChecked (db : Database) : Except StoreError Store := do
  db.check
  return ⟨db, .zero, false⟩

/-- Runs a batch. It takes effect as a whole, or not at all. -/
def write (s : Store) (b : Batch) : Report × Store :=
  if s.poisoned then (⟨[], some .poisoned⟩, s)
  else
    match Draft.run b.lenient b.steps (.ofDatabase s.database) with
    | (answers, .error e) => (⟨answers, some e⟩, s)
    | (answers, .ok d) =>
      match d.check with
      | .error e => (⟨answers, some e⟩, s)
      | .ok () =>
        (⟨answers, none⟩, { s with database := d.database, counts := s.counts.add d.counts })

/-- Runs a batch while a fault may hit the write. -/
def writeUnder (s : Store) (fault : Option Fault) (b : Batch) : Report × Store :=
  match fault with
  | none => s.write b
  | some f => if s.poisoned then (⟨[], some .poisoned⟩, s) else (⟨[], some f.error⟩, s)

/-- A batch whose writer dies after the steps, if they go so far. -/
def writeAndDie (s : Store) (steps : List WriteStep) : Option StoreError × Store :=
  if s.poisoned then (some .poisoned, s)
  else
    match Draft.run false steps (.ofDatabase s.database) with
    | (_, .error e) => (some e, s)
    | (_, .ok _) => (none, { s with poisoned := true })

/-- Reads the database, unless the store is poisoned. -/
def read (s : Store) (query : Database → Except StoreError α) : Except StoreError α :=
  if s.poisoned then .error .poisoned else query s.database

def advance (s : Store) (role : Role) (transactionId : String) (ledger : UInt32) :
    Option StoreError × Store :=
  let (report, s) := s.write ⟨[.advance role transactionId ledger], false⟩
  (report.failure, s)

def checkpoint (s : Store) (role : Role) : Except StoreError (Option Checkpoint) :=
  s.read fun db => db.checkpoint role

/-- The checkpoint of a chain, which is created if it is missing. -/
def ensureCheckpoint (s : Store) (role : Role) : Except StoreError Checkpoint × Store :=
  match s.write ⟨[.ensureCheckpoint role], false⟩ with
  | (⟨_, some e⟩, s) => (.error e, s)
  | (⟨[.checkpoint (some c)], none⟩, s) => (.ok c, s)
  | (_, s) => (.error (.corrupted (.lostCheckpoint role)), s)

def lookupClaim (s : Store) (direction : Direction) (bridge : Bridge) (sequence : UInt64)
    (amount : Amount) : Except StoreError (Option Attestation) :=
  s.read fun db => db.lookupClaim direction bridge sequence amount

def lookupAccountCreate (s : Store) (direction : Direction) (bridge : Bridge) (count : UInt64) :
    Except StoreError (Option Attestation) :=
  s.read fun db => db.lookupAccountCreate direction bridge count

def count (s : Store) (direction : Direction) : Except StoreError Nat :=
  s.read fun db => .ok (db.count direction)

def check (s : Store) : Except StoreError Unit :=
  s.read Database.check

end Store

end Attestor
