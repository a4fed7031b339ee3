import Attestor.Path

namespace Attestor

/-- Directories, files with a content of some kind, and links from one place to another. -/
structure FileTree (α : Type) where
  directories : List Place
  links : List (Place × Place)
  files : List (Place × α)

namespace FileTree

variable {α : Type}

def isDirectory (t : FileTree α) (p : Place) : Bool :=
  t.directories.contains p

def content? (t : FileTree α) (p : Place) : Option α :=
  (t.files.find? fun f => f.1 == p).map (·.2)

def write (t : FileTree α) (p : Place) (a : α) : FileTree α :=
  { t with files := (p, a) :: t.files.filter fun f => f.1 != p }

def erase (t : FileTree α) (p : Place) : FileTree α :=
  { t with files := t.files.filter fun f => f.1 != p }

/-- The place behind a link, if one stands there. -/
def follow (t : FileTree α) (p : Place) : Place :=
  ((t.links.find? fun l => l.1 == p).map (·.2)).getD p

def enter (t : FileTree α) (p : Place) (name : Bytes) : Place :=
  t.follow (Path.enter p name)

/-- The directory that names lead to, each of them that of a directory. -/
def walk (t : FileTree α) : Place → List Bytes → Option Place
  | p, [] => some p
  | p, name :: rest =>
    let next := t.enter p name
    if t.isDirectory next then t.walk next rest else none

/-- The directory at a path. -/
def directory? (t : FileTree α) (workingDirectory : Place) (path : Bytes) : Option Place := do
  guard (path ≠ [] ∧ path.length ≤ Path.lengthLimit)
  t.walk (Path.origin workingDirectory path) (Path.names path)

/-- The file at a path, which does not end as that of a directory does. -/
def read (t : FileTree α) (workingDirectory : Place) (path : Bytes) : Option α := do
  let name ← (Path.pieces Path.slash path).getLast?
  guard (!Path.stays name ∧ name ≠ Bytes.ofString ".." ∧ path.length ≤ Path.lengthLimit)
  let p ← t.walk (Path.origin workingDirectory path) (Path.parents path)
  t.content? (p ++ [name])

/-- Whether anything stands at a path. -/
def stands (t : FileTree α) (workingDirectory : Place) (path : Bytes) : Bool :=
  (t.directory? workingDirectory path).isSome || (t.read workingDirectory path).isSome

/-- The place that names lead to, whether anything stands there or on the way, as long as the way
stays within a limit. Nothing lies below a file, and names in a directory are not too long. -/
def locate (t : FileTree α) (limit : Nat) : Place → List Bytes → Option Place
  | p, [] => some p
  | p, name :: rest =>
    let next := t.enter p name
    if name = Bytes.ofString ".." then t.locate limit next rest
    else if (t.content? p).isSome ∨ (t.isDirectory p ∧ Path.nameLimit < name.length)
        ∨ limit < (Path.ofPlace (Path.enter p name)).length then none
    else t.locate limit next rest

/-- Creates the directories that are missing, up to one that cannot be created. The flag says
whether all are there. -/
def make (t : FileTree α) : Place → List Bytes → FileTree α × Bool
  | _, [] => (t, true)
  | p, name :: rest =>
    let next := t.enter p name
    if t.isDirectory next then t.make next rest
    else if (t.content? next).isSome ∨ Path.nameLimit < name.length then (t, false)
    else { t with directories := next :: t.directories }.make next rest

/-- Creates the directories that a path leads through. -/
def makeParents (t : FileTree α) (workingDirectory : Place) (path : Bytes) : FileTree α × Bool :=
  let parent := Path.parent path
  if parent.contains 0 ∨ Path.lengthLimit < parent.length then (t, false)
  else t.make (Path.origin workingDirectory path) (Path.parents path)

end FileTree

end Attestor
