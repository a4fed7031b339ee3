import Attestor.Bytes

namespace Attestor

/-- A place in a tree of files, by the names that lead to it from the root. -/
abbrev Place :=
  List Bytes

namespace Path

/-- The pieces of a text between the marks in it. -/
def pieces (mark : UInt8) : Bytes → List Bytes
  | [] => [[]]
  | b :: rest =>
    if b = mark then [] :: pieces mark rest
    else
      match pieces mark rest with
      | [] => [[b]]
      | piece :: others => (b :: piece) :: others

/-- The text of pieces with a mark between them. -/
def join (mark : UInt8) : List Bytes → Bytes
  | [] => []
  | [piece] => piece
  | piece :: rest => piece ++ mark :: join mark rest

def slash : UInt8 :=
  '/'.toUInt8

/-- Whether a piece of a path stays where it is. -/
def stays (piece : Bytes) : Bool :=
  piece == [] || piece == Bytes.ofString "."

/-- The names in a path, without those that stay where they are. -/
def names (path : Bytes) : List Bytes :=
  (pieces slash path).filter fun name => !stays name

def isAbsolute (path : Bytes) : Bool :=
  path.head? == some slash

/-- The place that a path starts from. -/
def origin (workingDirectory : Place) (path : Bytes) : Place :=
  if isAbsolute path then [] else workingDirectory

/-- The place that a name leads to from a directory. Above the root is the root. -/
def enter (directory : Place) (name : Bytes) : Place :=
  if name = Bytes.ofString ".." then directory.dropLast else directory ++ [name]

/-- A path without its last name. -/
def parent (path : Bytes) : Bytes :=
  join slash ((((pieces slash path).reverse.dropWhile stays).drop 1).dropWhile stays).reverse

/-- The names of the directories that a path leads through. -/
def parents (path : Bytes) : List Bytes :=
  (names path).dropLast

/-- A place written as a path from the root. -/
def ofPlace (place : Place) : Bytes :=
  place.flatMap (slash :: ·)

/-- A name has at most so many bytes. -/
def nameLimit : Nat :=
  255

/-- A path has at most so many bytes. -/
def lengthLimit : Nat :=
  4095

end Path

end Attestor
