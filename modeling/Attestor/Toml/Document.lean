import Attestor.Toml.Number
import Attestor.Toml.Table

namespace Attestor.Toml

mutual

/-- One value, with `depth` levels of nesting left. The fuel bounds the number of values. -/
def value? : (fuel depth : Nat) → List Char → Option (Json × List Char)
  | 0, _, _ => none
  | fuel + 1, depth, text =>
    match text with
    | '"' :: _ => (string? text).map fun r => (.string (String.ofList r.1), r.2)
    | '\'' :: _ => (string? text).map fun r => (.string (String.ofList r.1), r.2)
    | 't' :: 'r' :: 'u' :: 'e' :: rest => some (.bool true, rest)
    | 'f' :: 'a' :: 'l' :: 's' :: 'e' :: rest => some (.bool false, rest)
    | '[' :: rest =>
      match depth with
      | 0 => none
      | depth + 1 => (items? fuel depth rest).map fun r => (.array r.1, r.2)
    | '\x7b' :: rest =>
      match depth with
      | 0 => none
      | depth + 1 =>
        match skipSpace rest with
        | '\x7d' :: rest => some (.object [], rest)
        | rest => (pairs? fuel depth [] rest).map fun r => (.object (membersOf r.1), r.2)
    | _ => number? text

/-- Items with commas between and perhaps after them, and the closing bracket. -/
def items? : (fuel depth : Nat) → List Char → Option (List Json × List Char)
  | 0, _, _ => none
  | fuel + 1, depth, text =>
    match skipBlank false text with
    | ']' :: rest => some ([], rest)
    | text =>
      match value? fuel depth text with
      | none => none
      | some (j, rest) =>
        match skipBlank false rest with
        | ',' :: rest => (items? fuel depth rest).map fun r => (j :: r.1, r.2)
        | ']' :: rest => some ([j], rest)
        | _ => none

/-- One or more pairs of a table in braces after those of `done`, and the closing brace. -/
def pairs? : (fuel depth : Nat) → (done : Entries) → List Char → Option (Entries × List Char)
  | 0, _, _, _ => none
  | fuel + 1, depth, done, text =>
    match path? text with
    | some (path, '=' :: rest) =>
      match value? fuel depth (skipSpace rest) with
      | none => none
      | some (j, rest) =>
        match done.insert j path with
        | none => none
        | some done =>
          match skipSpace rest with
          | ',' :: rest => pairs? fuel depth done rest
          | '\x7d' :: rest => some (done, rest)
          | _ => none
    | _ => none

end

/-- The tables so far, and the path of the one that is open. -/
structure State where
  root : Entries
  path : List String

/-- A header: the path of a table, of which all but the last name may be there already. -/
def State.header (s : State) (path : List String) (change : String → Entries → Option Entries) :
    Option State :=
  match path.getLast? with
  | none => none
  | some name => (s.root.within (change name) path.dropLast).map fun root => ⟨root, path⟩

/-- One line, and the text after it. -/
def line? (s : State) (text : List Char) : Option (State × List Char) :=
  match skipSpace text with
  | [] => some (s, [])
  | '#' :: _ => (lineEnd? text).map fun rest => (s, rest)
  | '\n' :: rest => some (s, rest)
  | '\r' :: '\n' :: rest => some (s, rest)
  | '[' :: '[' :: rest => do
    let (path, rest) ← path? rest
    let rest ← expect? ']' rest
    let rest ← expect? ']' rest
    let s ← s.header path Entries.openNext
    let rest ← lineEnd? rest
    return (s, rest)
  | '[' :: rest => do
    let (path, rest) ← path? rest
    let rest ← expect? ']' rest
    let s ← s.header path Entries.openTable
    let rest ← lineEnd? rest
    return (s, rest)
  | text => do
    let (path, rest) ← path? text
    let rest ← expect? '=' rest
    let (j, rest) ← value? (2 * text.length + 1) depthLimit (skipSpace rest)
    let root ← s.root.within (Entries.insert j path) s.path
    let rest ← lineEnd? rest
    return (⟨root, s.path⟩, rest)

/-- All lines. Each takes a character at least, which bounds the fuel. -/
def lines? : (fuel : Nat) → State → List Char → Option State
  | _, s, [] => some s
  | 0, _, _ => none
  | fuel + 1, s, text =>
    match line? s text with
    | none => none
    | some (s, rest) => lines? fuel s rest

/-- The value of a file. A byte order mark at its start does not count. -/
def document? (text : String) : Option Json :=
  let chars := match text.toList with
    | '\uFEFF' :: rest => rest
    | chars => chars
  (lines? chars.length ⟨[], []⟩ chars).map fun s => .object (membersOf s.root)

end Attestor.Toml
