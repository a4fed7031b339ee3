import Attestor.Path
import Attestor.Text.Hex
import Attestor.Width

namespace Attestor

/-- What a database may be opened for. -/
inductive Access where
  | readOnly
  | existing
  | create
  | memory
  deriving DecidableEq, Repr

namespace Access

def all : List Access :=
  [readOnly, existing, create, memory]

def name : Access → String
  | readOnly => "ro"
  | existing => "rw"
  | create => "rwc"
  | memory => "memory"

def ofName? (name : Bytes) : Option Access :=
  all.find? fun a => Bytes.ofString a.name == name

def rank : Access → Nat
  | readOnly => 0
  | existing => 1
  | create => 2
  | memory => 3

/-- A later choice may not allow more than an earlier one. The memory is always allowed. -/
def narrow (a b : Access) : Option Access :=
  if b = memory ∨ b.rank ≤ a.rank then some b else none

end Access

/-- How the users of a database file keep out of each other's way. -/
inductive Locking where
  | shared
  | exclusive
  /-- by a file beside the database -/
  | lockFile
  | none
  deriving DecidableEq, Repr

/-- Changes are logged where users can share the log, or need not share it. -/
def Locking.logs : Locking → Bool
  | shared | exclusive => true
  | lockFile | none => false

/-- How a database file is opened. -/
structure Opening where
  access : Access
  locking : Locking
  /-- the file is taken for one that nobody changes -/
  immutable : Bool
  /-- the index of the log is not written -/
  fixedIndex : Bool
  /-- the file whose permissions a new file gets -/
  pattern : Option Bytes
  deriving DecidableEq, Repr

/-- Opened as a name without options asks for. -/
def Opening.plain : Opening :=
  ⟨.create, .shared, false, false, none⟩

/-- Where a database is kept. Names that keep nothing beyond the life of the program stand for the
memory. -/
inductive Location where
  | memory
  | file (path : Bytes) (opening : Opening)
  deriving DecidableEq, Repr

namespace Location

/-- The parts of a text before and after the first mark in it. -/
def cut (mark : UInt8) (text : Bytes) : Bytes × Bytes :=
  (text.takeWhile (· != mark), (text.dropWhile (· != mark)).drop 1)

/-- The text that escapes of two hexadecimal digits stand for. -/
def unescape : Bytes → Bytes
  | b :: high :: low :: rest =>
    match Text.Hex.value? high, Text.Hex.value? low with
    | some h, some l =>
      if b = '%'.toUInt8 then UInt8.ofNat (16 * h + l) :: unescape rest
      else b :: unescape (high :: low :: rest)
    | _, _ => b :: unescape (high :: low :: rest)
  | short => short

/-- A part of a URI. What follows an escaped zero in it does not count. -/
def part (text : Bytes) : Bytes :=
  (unescape text).takeWhile (· != 0)

/-- The names and values in a query. One without a name does not count. -/
def options (query : Bytes) : List (Bytes × Bytes) :=
  ((Path.pieces '&'.toUInt8 query).map fun o =>
    let (name, value) := cut '='.toUInt8 o
    (part name, part value)).filter fun o => o.1 != []

def option? (name : String) (options : List (Bytes × Bytes)) : Option Bytes :=
  (options.find? fun o => o.1 == Bytes.ofString name).map (·.2)

/-- The access under one more option. -/
def restrict (a : Access) (o : Bytes × Bytes) : Option Access :=
  if o.1 = Bytes.ofString "mode" then (Access.ofName? o.2).bind a.narrow
  else if o.1 = Bytes.ofString "cache" then
    if o.2 = Bytes.ofString "shared" ∨ o.2 = Bytes.ofString "private" then some a else none
  else some a

/-- The layers of the system through which files are reached. The one without locking keeps its
files in the memory. -/
def layers : List (String × Option Locking) :=
  [("unix", some .shared), ("unix-none", some .none), ("unix-dotfile", some .lockFile),
    ("unix-excl", some .exclusive), ("memdb", none)]

def isDecimal (b : UInt8) : Bool :=
  '0'.toUInt8 ≤ b && b ≤ '9'.toUInt8

/-- The base and the digits of a number at the start of a text. Hexadecimal digits follow `0x`. -/
def leadingDigits (text : Bytes) : Nat × Bytes :=
  let decimal := (10, text.takeWhile isDecimal)
  match text with
  | zero :: x :: rest =>
    let digits := rest.takeWhile fun b => (Text.Hex.value? b).isSome
    if zero = '0'.toUInt8 ∧ (x = 'x'.toUInt8 ∨ x = 'X'.toUInt8) ∧ digits ≠ [] then (16, digits)
    else decimal
  | _ => decimal

/-- The number at the start of a text. One of more than 31 bits counts as zero. -/
def leadingNumber (text : Bytes) : Nat :=
  let (base, digits) := leadingDigits text
  let n := digits.foldl (fun n b => base * n + (Text.Hex.value? b).getD 0) 0
  if n < twoPow 31 then n else 0

/-- A flag is set by one of three words in letters of either case, or by a number whose lowest byte
is not zero. -/
def isTrue (value : Bytes) : Bool :=
  let word := value.map fun b => if 'A'.toUInt8 ≤ b ∧ b ≤ 'Z'.toUInt8 then b + 32 else b
  (["on", "yes", "true"].any fun w => Bytes.ofString w == word) || leadingNumber value % 256 != 0

/-- The first value of a flag counts. -/
def flag (name : String) (options : List (Bytes × Bytes)) : Bool :=
  isTrue ((option? name options).getD [])

/-- The longest name of a file that is kept in the memory. -/
def memoryNameLimit : Nat :=
  1016

/-- Whether a path names no file. -/
def isAnonymous (path : Bytes) : Bool :=
  path == [] || path == Bytes.ofString ":memory:"

/-- The path and the query after the scheme of a URI. Its host can only be this one. -/
def path? (text : Bytes) : Option Bytes :=
  match (Bytes.ofString "//").isPrefixOf? text with
  | none => some text
  | some text =>
    let host := text.takeWhile (· != Path.slash)
    if host = [] ∨ host = Bytes.ofString "localhost" then some (text.drop host.length) else none

/-- The database under a path with options. What is kept in the memory is new, so it has to be
written before anything can be read. -/
def ofOptions? (path : Bytes) (options : List (Bytes × Bytes)) : Option Location := do
  let access ← options.foldlM restrict Access.create
  let layer := (option? "vfs" options.reverse).getD (Bytes.ofString "unix")
  let (_, locking) ← layers.find? fun l => Bytes.ofString l.1 == layer
  let immutable := flag "immutable" options
  if access = .memory then return .memory
  else if isAnonymous path then
    guard (access ≠ .readOnly)
    return .memory
  else
    match locking with
    | none =>
      guard (access ≠ .readOnly ∧ !immutable ∧ path.length ≤ memoryNameLimit)
      return .memory
    | some locking =>
      return .file path {
        access, immutable
        locking := if flag "nolock" options then .none else locking
        fixedIndex := flag "readonly_shm" options
        pattern := option? "modeof" options }

/-- The database under a URI, whose scheme is left out. -/
def ofUri? (text : Bytes) : Option Location := do
  let text ← path? text
  let (path, query) := cut '?'.toUInt8 (text.takeWhile (· != '#'.toUInt8))
  ofOptions? (part path) (options query)

/-- The database under a name. A name with a zero in it stands for none. -/
def ofName? (name : String) : Option Location :=
  let text := Bytes.ofString name
  if text.any (· == 0) then none
  else
    match (Bytes.ofString "file:").isPrefixOf? text with
    | some text => ofUri? text
    | none => if isAnonymous text then some .memory else some (.file text .plain)

end Location

end Attestor
