import Attestor.FileTree
import Attestor.Store.Database
import Attestor.Store.Error
import Attestor.Store.Location

namespace Attestor.Program

inductive File where
  | text (s : String)
  /-- a database, and whether its changes go through a log -/
  | database (logged : Bool) (db : Database)
  /-- the index of a log -/
  | index
  /-- what the program reads its lines from -/
  | input
  deriving DecidableEq

def File.empty : File :=
  .text ""

abbrev Files :=
  FileTree File

/-- What stands at a place. -/
inductive Standing where
  | nothing
  | directory
  | empty
  | filled (f : File)
  deriving DecidableEq

/-- A file beside a database: the journal of a change under way, a log of changes that are not yet
in the database, the index of that log, or a lock. A run that ends leaves none of them. -/
inductive Companion where
  | journal
  | log
  | index
  | lock
  deriving DecidableEq, Repr

namespace Companion

def ending : Companion → String
  | journal => "-journal"
  | log => "-wal"
  | index => "-shm"
  | lock => ".lock"

/-- The name of the database, continued. -/
def place (c : Companion) (database : Place) : Place :=
  database.dropLast ++ [database.getLast?.getD [] ++ Bytes.ofString c.ending]

end Companion

namespace Files

/-- The text at a path, and what is left of the input. The input can be read once. -/
def text? (files : Files) (workingDirectory : Place) (path : String) (input : String) :
    Option String × String :=
  match files.read workingDirectory (Bytes.ofString path) with
  | some (.text s) => (some s, input)
  | some .input => (some input, "")
  | _ => (none, input)

def standing (files : Files) (p : Place) : Standing :=
  if files.isDirectory p then .directory
  else
    match files.content? p with
    | none => .nothing
    | some f => if f = .empty then .empty else .filled f

/-- Replaces the content of a database file. -/
def save (files : Files) (place : Option Place) (db : Option Database) : Files :=
  match place, db with
  | some place, some db =>
    match files.content? place with
    | some (.database logged _) => files.write place (.database logged db)
    | _ => files
  | _, _ => files

end Files

/-- A step of opening a database. It changes files also where it fails. -/
abbrev Attempt (α : Type) :=
  ExceptT StoreError (StateM Files) α

namespace Attempt

def refuse : Attempt α :=
  throw .database

def look (p : Place) : Attempt Standing :=
  return (← get).standing p

def put (p : Place) (f : File) : Attempt Unit :=
  modify fun files => files.write p f

def clear (p : Place) : Attempt Unit :=
  modify fun files => files.erase p

/-- The longest way to a database. -/
def wayLimit : Nat :=
  511

/-- The longest place of a database, which leaves room for the names of the files beside it. -/
def placeLimit : Nat :=
  504

/-- The place of a database file. An empty file is put where nothing stands. -/
def settle (workingDirectory : Place) (path : Bytes) (o : Opening) : Attempt Place := do
  let files ← get
  let some place := files.locate wayLimit (Path.origin workingDirectory path) (Path.names path)
    | refuse
  if placeLimit < (Path.ofPlace place).length ∨ !files.isDirectory place.dropLast then refuse
  if o.pattern.any fun p => !files.stands workingDirectory p then refuse
  match files.standing place with
  | .directory => refuse
  | .nothing => if o.access = .create then put place .empty else refuse
  | .empty | .filled _ => pure ()
  return place

/-- A journal beside a database speaks of a change that was never finished, and goes. -/
def settleJournal (place : Place) (new : Bool) (o : Opening) : Attempt Unit := do
  let journal := Companion.journal.place place
  match ← look journal with
  | .nothing | .empty => pure ()
  | .directory => if !new then refuse
  | .filled _ =>
    if o.access ≠ .readOnly then clear journal
    else if !new then refuse

/-- Whether there is a log beside a database. One beside a new database is not its own, and goes. -/
def settleLog (place : Place) (new : Bool) (o : Opening) : Attempt Bool := do
  let log := Companion.log.place place
  match ← look log with
  | .nothing | .empty => return false
  | .directory => refuse
  | .filled _ =>
    if new then
      clear log
      return false
    else if o.locking.logs then return true
    else refuse

/-- Opens the log of a database with its index. Who has the database alone needs no index. -/
def attachLog (place : Place) (o : Opening) : Attempt Unit := do
  if !o.locking.logs then refuse
  let log := Companion.log.place place
  if (← look log) = .nothing then put log .empty
  if o.locking ≠ .exclusive then
    let index := Companion.index.place place
    if o.fixedIndex ∨ (← look index) = .directory then refuse
    put index .index

/-- Ends the use of a log. Who may not write leaves it as it is. -/
def detachLog (place : Place) (o : Opening) : Attempt Unit := do
  if o.access ≠ .readOnly then
    clear (Companion.log.place place)
    if o.locking ≠ .exclusive then clear (Companion.index.place place)

/-- Prepares for changes without a log, and goes over to a log where that is possible. -/
def attachJournal (place : Place) (db : Database) (o : Opening) : Attempt Unit := do
  let journal := Companion.journal.place place
  if (journal.getLast?.getD []).length > Path.nameLimit then refuse
  if (← look journal) = .directory then refuse
  clear journal
  put place (.database o.locking.logs db)
  if o.locking.logs then
    attachLog place o
    detachLog place o

/-- Opens a database file for changes. -/
def openFile (workingDirectory : Place) (path : Bytes) (o : Opening) :
    Attempt (Place × Database) := do
  let place ← settle workingDirectory path o
  if o.immutable then refuse
  if o.locking = .lockFile ∧ (← look (Companion.lock.place place)) ≠ .nothing then refuse
  let new := (← look place) = .empty
  settleJournal place new o
  let attached ← settleLog place new o
  if attached then attachLog place o
  match ← look place with
  | .filled (.database logged db) =>
    if logged ∧ !attached then attachLog place o
    if o.access = .readOnly then refuse
    if attached ∨ logged then detachLog place o else attachJournal place db o
    return (place, db)
  | .empty =>
    if o.access = .readOnly then refuse
    attachJournal place .empty o
    return (place, .empty)
  | _ =>
    if attached then detachLog place o
    refuse

/-- The database at a location, and its place if it is a file. -/
def openLocation (workingDirectory : Place) : Location → Attempt (Option Place × Database)
  | .memory => return (none, .empty)
  | .file path o => do
    let (place, db) ← openFile workingDirectory path o
    return (some place, db)

/-- The database of a name. Its directories are created first. -/
def openName (workingDirectory : Place) (name : String) : Attempt (Option Place × Database) := do
  let (files, complete) := (← get).makeParents workingDirectory (Bytes.ofString name)
  set files
  if !complete then throw .io
  match Location.ofName? name with
  | none => refuse
  | some location => openLocation workingDirectory location

end Attempt

end Attestor.Program
