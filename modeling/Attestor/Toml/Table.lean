import Attestor.Json.Basic

namespace Attestor.Toml

/-- How a table came about. Whether it may be extended depends on this. -/
inductive Origin where
  | header
  | implied
  | dotted
  deriving DecidableEq, Repr

inductive Node where
  | value (j : Json)
  | table (origin : Origin) (entries : List (String × Node))
  /-- the tables of one repeated header, the last of which is open -/
  | series (closed : List (List (String × Node))) (last : List (String × Node))

abbrev Entries :=
  List (String × Node)

namespace Entries

def find? (name : String) (es : Entries) : Option Node :=
  (List.find? (fun e => e.1 == name) es).map (·.2)

def replace (name : String) (node : Node) (es : Entries) : Entries :=
  es.map fun e => if e.1 == name then (name, node) else e

def remove (name : String) (es : Entries) : Entries :=
  es.filter fun e => e.1 != name

/-- Changes the table at a path. Tables missing on the way are implied. -/
def within (change : Entries → Option Entries) : List String → Entries → Option Entries
  | [], es => change es
  | name :: rest, es =>
    match es.find? name with
    | none => (within change rest []).map fun t => es ++ [(name, .table .implied t)]
    | some (.table origin t) =>
      (within change rest t).map fun t => es.replace name (.table origin t)
    | some (.series closed last) =>
      (within change rest last).map fun t => es.replace name (.series closed t)
    | some (.value _) => none

/-- Opens the table of a header. Only an implied table may be there already. -/
def openTable (name : String) (es : Entries) : Option Entries :=
  match es.find? name with
  | none => some (es ++ [(name, .table .header [])])
  | some (.table .implied t) => some (es.remove name ++ [(name, .table .header t)])
  | some _ => none

/-- Opens one more table of a repeated header. -/
def openNext (name : String) (es : Entries) : Option Entries :=
  match es.find? name with
  | none => some (es ++ [(name, .series [] [])])
  | some (.series closed last) => some (es.replace name (.series (closed ++ [last]) []))
  | some _ => none

/-- Writes a value under dotted keys. They extend tables of dotted keys only. -/
def insert (value : Json) : (path : List String) → Entries → Option Entries
  | [], _ => none
  | [name], es =>
    match es.find? name with
    | none => some (es ++ [(name, .value value)])
    | some _ => none
  | name :: next :: rest, es =>
    match es.find? name with
    | none => (insert value (next :: rest) []).map fun t => es ++ [(name, .table .dotted t)]
    | some (.table origin t) =>
      if origin = .dotted ∨ (origin = .implied ∧ rest ≠ []) then
        (insert value (next :: rest) t).map fun t => es.replace name (.table origin t)
      else none
    | some (.series closed last) =>
      if rest ≠ [] then
        (insert value (next :: rest) last).map fun t => es.replace name (.series closed t)
      else none
    | some (.value _) => none

end Entries

mutual

def Node.toJson : Node → Json
  | .value j => j
  | .table _ entries => .object (membersOf entries)
  | .series closed last => .array (tablesOf closed ++ [.object (membersOf last)])

def membersOf : List (String × Node) → List (String × Json)
  | [] => []
  | (name, node) :: rest => (name, node.toJson) :: membersOf rest

def tablesOf : List (List (String × Node)) → List Json
  | [] => []
  | t :: rest => .object (membersOf t) :: tablesOf rest

end

end Attestor.Toml
