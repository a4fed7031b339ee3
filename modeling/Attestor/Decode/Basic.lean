import Attestor.Decode.Error
import Attestor.Width

namespace Attestor

abbrev Decoder (α : Type) :=
  Json → Except DecodeError α

namespace Decode

def fail (j : Json) (wanted : String) : Except DecodeError α :=
  .error (.wrongType (.ofJson j) wanted)

def string (wanted : String := "a string") : Decoder String
  | .string s => .ok s
  | j => fail j wanted

/-- Items of one kind. -/
def list (decode : Decoder α) : Decoder (List α)
  | .array items => items.mapM decode
  | j => fail j "a sequence"

def bool : Decoder Bool
  | .bool b => .ok b
  | j => fail j "a boolean"

/-- A whole number of that many bits. -/
def natural (bits : Nat) : Decoder Nat
  | .integer n =>
    if FitsUnsigned bits n then .ok n.toNat
    else .error (.wrongValue (.integer n) ("u" ++ toString bits))
  | j => fail j ("u" ++ toString bits)

def uint32 : Decoder UInt32 := fun j =>
  (natural 32 j).map UInt32.ofNat

def uint64 : Decoder UInt64 := fun j =>
  (natural 64 j).map UInt64.ofNat

/-- Null stands for absence. -/
def optional (decode : Decoder α) : Decoder (Option α)
  | .null => .ok none
  | j => (decode j).map some

def hex : Decoder Bytes
  | .string s => (Text.Hex.decode s).mapError .hex
  | j => fail j "a hex encoded string"

/-- A text that a constructor of the domain may refuse. -/
def text (build : String → Except ValueError α) : Decoder α := fun j => do
  (build (← string "a string" j)).mapError .value

/-- How a format writes a name without content as an object, and what it makes of an array with
more items than a record has fields. -/
structure Dialect where
  /-- whether the only key of an object with this content is read as a name -/
  isContent : Json → Bool
  isEmpty : Json → Bool
  surplus : (used total : Nat) → Option DecodeError

def Dialect.plain : Dialect where
  isContent _ := true
  isEmpty
    | .null => true
    | _ => false
  surplus _ total := some (.wrongLength total "fewer elements in array")

/-- Inside a record whose kind has been read first. -/
def Dialect.tagged : Dialect where
  isContent _ := true
  isEmpty
    | .null | .object [] => true
    | _ => false
  surplus used total :=
    some (.wrongLength total
      (toString used ++ (if used = 1 then " element" else " elements") ++ " in sequence"))

/-- In a configuration file, where the content of a date is null and that of all else is not. -/
def Dialect.document : Dialect where
  isContent
    | .null => false
    | _ => true
  isEmpty
    | .object [] | .array [] => true
    | _ => false
  surplus _ _ := none

def findName (names : List (String × α)) (name : String) : Except DecodeError α :=
  match names.find? fun n => n.1 == name with
  | some n => .ok n.2
  | none => .error (.unknownName name (names.map (·.1)))

/-- One of some names: a string, or an object with the name for its only key and nothing in it. -/
def name (d : Dialect) (names : List (String × α)) : Decoder α
  | .string s => findName names s
  | .object [(s, j)] => do
    if !d.isContent j then
      fail (.object [(s, j)]) "string or map"
    let a ← findName names s
    if d.isEmpty j then .ok a else fail j "unit"
  | .object _ => .error (.wrongValue .map "map with a single key")
  | j => fail j "string or map"

/-- An object whose only key says how its content is read. -/
def choice (names : List (String × Decoder α)) : Decoder α
  | .string s => do
    let _ ← findName names s
    .error (.wrongType .bareName "newtype variant")
  | .object [(s, j)] => do
    let decode ← findName names s
    decode j
  | .object _ => .error (.wrongValue .map "map with a single key")
  | j => fail j "string or map"

end Decode

end Attestor
