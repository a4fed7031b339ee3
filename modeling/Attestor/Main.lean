import Attestor.Program
import Attestor.Program.Files
import Attestor.Store.Snapshot

namespace Attestor.Main

open Program

/-- The text of a file, if it can be read. -/
def fileText? (path : String) : IO (Option String) := do
  try
    return some (← IO.FS.readFile path)
  catch _ =>
    return none

/-- The path of a place, if it is a text. -/
def pathText (place : Place) : String :=
  if place = [] then "/" else (String.fromUTF8? ⟨(Path.ofPlace place).toArray⟩).getD ""

/-- A file that is not a text holds no database either, like any text. -/
def fileOfText (text : Option String) : File :=
  match text with
  | none => .index
  | some text =>
    match Database.ofText? text with
    | some (logged, db) => .database logged db
    | none => .text text

def textOfFile : File → String
  | .text s => s
  | .database logged db => db.toText logged
  | .index | .input => "index"

/-- The places that a path leads through, from the last to the first. -/
def way (here : Place) (path : Bytes) : List Place :=
  (Path.names path).foldl (fun places name => Path.enter (places.headD []) name :: places)
    [Path.origin here path]

/-- The places that opening a database looks at. -/
def places (here : Place) (name : String) : List Place :=
  let more := match Location.ofName? name with
    | some (.file path o) =>
      let last := (way here path).headD []
      way here path ++ o.pattern.toList.flatMap (way here)
        ++ [Companion.journal, .log, .index, .lock].map fun c => c.place last
    | _ => []
  (way here (Bytes.ofString name) ++ more).eraseDups.filter fun p => p.all fun n => !n.contains 0

/-- What stands on the disk at some places. -/
def survey (places : List Place) : IO Files := do
  let here ← IO.currentDir
  let mut files : Files := ⟨[], [], []⟩
  for p in places do
    let path := here / pathText p
    if ← path.isDir then
      files := { files with directories := p :: files.directories }
    else if ← path.pathExists then
      files := files.write p (fileOfText (← fileText? (pathText p)))
  return files

/-- Replaces a file at once. -/
def writeFile (p : Place) (f : File) : IO Unit := do
  let next := pathText p ++ ".next"
  IO.FS.writeFile next (textOfFile f)
  IO.FS.rename next (pathText p)

/-- Changes the disk as files were changed. -/
def apply (before after : Files) : IO Unit := do
  for p in after.directories.reverse do
    if !before.isDirectory p then IO.FS.createDirAll (pathText p)
  for (p, _) in before.files do
    if after.content? p = none then IO.FS.removeFile (pathText p)
  for (p, f) in after.files do
    if before.content? p ≠ some f then writeFile p f

/-- Opens the database of a name, with the files as it leaves them. -/
def openDatabase (name : String) :
    IO (Except StoreError (Option Place × Database) × Files) := do
  let here := Path.names (Bytes.ofString (toString (← IO.currentDir)))
  let before ← survey (places here name)
  let (opened, after) := (Attempt.openName here name).run.run before
  try
    apply before after
    return (opened, after)
  catch _ =>
    return (.error .io, before)

/-- Where the database of a run is kept. -/
structure Keeping where
  files : Files
  place : Option Place

def Keeping.save (k : Keeping) (db : Database) : IO Unit := do
  if let some p := k.place then
    if let some f := (k.files.save p db).content? p then writeFile p f

def fail (f : Program.Failure) : IO UInt32 := do
  IO.eprintln f.message
  return 1

/-- Takes lines until the input ends or one of them stops the node. The database is replaced as a
whole after each line that changes it, before the line is answered. -/
partial def serve (keeping : Keeping) (input output : IO.FS.Stream) (node : Node) : IO Node := do
  let text ← input.getLine
  if text.isEmpty then return node
  let step := Program.line node text
  if let some store := step.node.service.store? then
    if some store.counts ≠ node.service.store?.map Store.counts then
      keeping.save store.database
  if let some response := step.output then
    output.putStrLn response
    output.flush
  if step.stopped then return step.node.requestStop
  serve keeping input output step.node

def runNode (config : Config) (identity : Identity) : IO UInt32 := do
  let (opened, files) ← match config.node.mode with
    | .persistent => openDatabase config.node.databasePath
    | .stateless => pure (.ok (none, .empty), ⟨[], [], []⟩)
  let keeping : Keeping := ⟨files, opened.toOption.bind (·.1)⟩
  let (started, changed) := Program.start config identity (opened.map (·.2))
  if let some db := changed then keeping.save db
  match started with
  | .error f => fail f
  | .ok node =>
    let node ← serve keeping (← IO.getStdin) (← IO.getStdout) node
    let (result, node) := Program.finish node
    if let some store := node.service.store? then keeping.save store.database
    match result with
    | .error f => fail f
    | .ok () => return 0

def run (args : List String) : IO UInt32 := do
  match Program.command args with
  | .error f => fail f
  | .ok .version =>
    IO.println Program.versionLine
    return 0
  | .ok (.run path) =>
    match Program.load path (← fileText? path) with
    | .error f => fail f
    | .ok config =>
      match Program.identity config with
      | .error f => fail f
      | .ok identity => runNode config identity

end Attestor.Main

def main (args : List String) : IO UInt32 :=
  Attestor.Main.run args
