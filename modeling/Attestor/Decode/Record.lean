import Attestor.Decode.Basic

namespace Attestor.Decode

/-- The fields of a record: how each is judged, and how the record is put together. -/
structure Record (α : Type) where
  names : List String
  judge : String → Json → Except DecodeError Unit
  ofMembers : List (String × Json) → Except DecodeError α
  /-- reads items from a position on; `wanted` names the record in errors -/
  ofItems : (wanted : String) → Nat → List Json → Except DecodeError (α × List Json)

namespace Record

def lookup (name : String) (members : List (String × Json)) : Option Json :=
  (members.find? fun m => m.1 == name).map (·.2)

/-- A field that is read by `decode` where it is present. -/
def field (name : String) (decode : Decoder α) (absent : Except DecodeError α)
    (short : Nat → String → Except DecodeError α) : Record α where
  names := [name]
  judge other j := if other = name then (decode j).map fun _ => () else .ok ()
  ofMembers members := match lookup name members with
    | some j => decode j
    | none => absent
  ofItems wanted position
    | j :: rest => (decode j).map (·, rest)
    | [] => (short position wanted).map (·, [])

def tooShort (position : Nat) (wanted : String) : Except DecodeError α :=
  .error (.wrongLength position wanted)

def required (name : String) (decode : Decoder α) : Record α :=
  field name decode (.error (.missingField name)) tooShort

/-- A field that may be null or left out of an object, but not of an array. -/
def optional (name : String) (decode : Decoder α) : Record (Option α) :=
  field name (Decode.optional decode) (.ok none) tooShort

/-- A field that has a value of its own when it is left out. -/
def defaulted (name : String) (decode : Decoder α) (value : α) : Record α :=
  field name decode (.ok value) fun _ _ => .ok value

protected def map (f : α → β) (r : Record α) : Record β where
  names := r.names
  judge := r.judge
  ofMembers members := (r.ofMembers members).map f
  ofItems wanted position items := (r.ofItems wanted position items).map fun a => (f a.1, a.2)

/-- The fields of `f` come before those of `a`. -/
protected def seq (f : Record (α → β)) (a : Record α) : Record β where
  names := f.names ++ a.names
  judge name j := do
    f.judge name j
    a.judge name j
  ofMembers members := do
    let f ← f.ofMembers members
    let a ← a.ofMembers members
    return f a
  ofItems wanted position items := do
    let (g, rest) ← f.ofItems wanted position items
    let (a, rest) ← a.ofItems wanted (position + f.names.length) rest
    return (g a, rest)

instance : Functor Record := { map := Record.map }

instance : Seq Record := { seq := fun f a => f.seq (a ()) }

/-- Judges the members in their order. Where the record is closed, other names are refused. -/
def visit (r : Record α) (closed : Bool) (seen : List String) :
    List (String × Json) → Except DecodeError Unit
  | [] => .ok ()
  | (name, j) :: rest =>
    if name ∈ r.names then
      if name ∈ seen then .error (.repeatedField name)
      else do
        r.judge name j
        r.visit closed (name :: seen) rest
    else if closed then .error (.unknownField name r.names)
    else r.visit closed seen rest

/-- One description serves both written forms: an object, whose members are visited in its order
before missing fields are looked for, and an array of the fields in the order of declaration. -/
def decode (r : Record α) (type : String) (closed : Bool) (d : Dialect) : Decoder α
  | .object members => do
    r.visit closed [] members
    r.ofMembers members
  | .array items => do
    let wanted := "struct " ++ type ++ " with " ++ toString r.names.length ++ " elements"
    let (a, rest) ← r.ofItems wanted 0 items
    match rest, d.surplus r.names.length items.length with
    | _ :: _, some e => .error e
    | _, _ => .ok a
  | j => fail j ("struct " ++ type)

end Record

end Attestor.Decode
