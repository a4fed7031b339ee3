import Attestor.Asset.Currency
import Attestor.Json.Reader

namespace Attestor.Toml

def isSpace (c : Char) : Bool :=
  c == ' ' || c == '\t'

def skipSpace (text : List Char) : List Char :=
  text.dropWhile isSpace

/-- The text after a line end. -/
def newline? : List Char → Option (List Char)
  | '\n' :: rest => some rest
  | '\r' :: '\n' :: rest => some rest
  | _ => none

/-- Control characters other than the tab may stand in no comment and in no string. -/
def isPlain (c : Char) : Bool :=
  c == '\t' || (0x20 ≤ c.toNat && c != '\x7f')

/-- The text after the end of a line, before which only blanks and a comment may stand. -/
def lineEnd? (text : List Char) : Option (List Char) :=
  let text := match skipSpace text with
    | '#' :: rest => rest.dropWhile isPlain
    | rest => rest
  match text with
  | [] => some []
  | _ => newline? text

/-- Skips blanks, line ends and comments. -/
def skipBlank (comment : Bool) : List Char → List Char
  | '\n' :: rest => skipBlank false rest
  | '\r' :: '\n' :: rest => skipBlank false rest
  | c :: rest =>
    if comment then if isPlain c then skipBlank true rest else c :: rest
    else if isSpace c then skipBlank false rest
    else if c = '#' then skipBlank true rest
    else c :: rest
  | [] => []

def escaped? : Char → Option Char
  | 'b' => some '\x08'
  | 't' => some '\t'
  | 'n' => some '\n'
  | 'f' => some '\x0c'
  | 'r' => some '\r'
  | '"' => some '"'
  | '\\' => some '\\'
  | _ => none

/-- The code point of hexadecimal digits. Surrogates and numbers beyond the last are none. -/
def scalar? (digits : List Char) : Option Char := do
  let values ← digits.mapM Json.hexValue?
  let n := values.foldl (fun n v => 16 * n + v) 0
  if n < 0xD800 ∨ (0xE000 ≤ n ∧ n < 0x110000) then some (Char.ofNat n) else none

def prepend (c : Char) (r : List Char × List Char) : List Char × List Char :=
  (c :: r.1, r.2)

/-- The rest of a one-line string after its opening quote, and what follows it. -/
def basic? : List Char → Option (List Char × List Char)
  | '"' :: rest => some ([], rest)
  | '\\' :: 'u' :: a :: b :: c :: d :: rest =>
    match scalar? [a, b, c, d] with
    | some x => (basic? rest).map (prepend x)
    | none => none
  | '\\' :: 'U' :: a :: b :: c :: d :: e :: f :: g :: h :: rest =>
    match scalar? [a, b, c, d, e, f, g, h] with
    | some x => (basic? rest).map (prepend x)
    | none => none
  | '\\' :: c :: rest =>
    match escaped? c with
    | some x => (basic? rest).map (prepend x)
    | none => none
  | c :: rest => if isPlain c then (basic? rest).map (prepend c) else none
  | [] => none

/-- The same for a string of several lines. In a `gap`, opened by a backslash at the end of a line,
blanks and line ends do not count. Up to two quotes may stand before the closing three. -/
def longBasic? (gap : Bool) : List Char → Option (List Char × List Char)
  | '"' :: '"' :: '"' :: '"' :: '"' :: rest => some (['"', '"'], rest)
  | '"' :: '"' :: '"' :: '"' :: rest => some (['"'], rest)
  | '"' :: '"' :: '"' :: rest => some ([], rest)
  | '\r' :: '\n' :: rest =>
    if gap then longBasic? true rest else (longBasic? false rest).map (prepend '\n')
  | '\n' :: rest => if gap then longBasic? true rest else (longBasic? false rest).map (prepend '\n')
  | '\\' :: 'u' :: a :: b :: c :: d :: rest =>
    match scalar? [a, b, c, d] with
    | some x => (longBasic? false rest).map (prepend x)
    | none => none
  | '\\' :: 'U' :: a :: b :: c :: d :: e :: f :: g :: h :: rest =>
    match scalar? [a, b, c, d, e, f, g, h] with
    | some x => (longBasic? false rest).map (prepend x)
    | none => none
  | '\\' :: c :: rest =>
    if (newline? (skipSpace (c :: rest))).isSome then longBasic? true (c :: rest)
    else match escaped? c with
      | some x => (longBasic? false rest).map (prepend x)
      | none => none
  | c :: rest =>
    if gap && isSpace c then longBasic? true rest
    else if isPlain c then (longBasic? false rest).map (prepend c)
    else none
  | [] => none

/-- A one-line string without escapes, after its opening apostrophe. -/
def literal? : List Char → Option (List Char × List Char)
  | '\'' :: rest => some ([], rest)
  | c :: rest => if isPlain c then (literal? rest).map (prepend c) else none
  | [] => none

/-- A string of several lines without escapes. -/
def longLiteral? : List Char → Option (List Char × List Char)
  | '\'' :: '\'' :: '\'' :: '\'' :: '\'' :: rest => some (['\'', '\''], rest)
  | '\'' :: '\'' :: '\'' :: '\'' :: rest => some (['\''], rest)
  | '\'' :: '\'' :: '\'' :: rest => some ([], rest)
  | '\r' :: '\n' :: rest => (longLiteral? rest).map (prepend '\n')
  | '\n' :: rest => (longLiteral? rest).map (prepend '\n')
  | c :: rest => if isPlain c then (longLiteral? rest).map (prepend c) else none
  | [] => none

/-- A line end right after the opening quotes does not count. -/
def dropFirstNewline (text : List Char) : List Char :=
  (newline? text).getD text

/-- A string of any of the four kinds. -/
def string? : List Char → Option (List Char × List Char)
  | '"' :: '"' :: '"' :: rest => longBasic? false (dropFirstNewline rest)
  | '"' :: rest => basic? rest
  | '\'' :: '\'' :: '\'' :: rest => longLiteral? (dropFirstNewline rest)
  | '\'' :: rest => literal? rest
  | _ => none

def isBare (c : Char) : Bool :=
  isAlphanumeric c || c == '-' || c == '_'

def key? : List Char → Option (String × List Char)
  | '"' :: rest => (basic? rest).map fun r => (String.ofList r.1, r.2)
  | '\'' :: rest => (literal? rest).map fun r => (String.ofList r.1, r.2)
  | text =>
    let name := text.takeWhile isBare
    if name = [] then none else some (String.ofList name, text.dropWhile isBare)

/-- Keys divided by points, and the text after them and their blanks. Each takes a character at
least, which bounds the fuel. -/
def keys? : (fuel : Nat) → List Char → Option (List String × List Char)
  | 0, _ => none
  | fuel + 1, text =>
    match key? (skipSpace text) with
    | none => none
    | some (name, rest) =>
      match skipSpace rest with
      | '.' :: rest => (keys? fuel rest).map fun r => (name :: r.1, r.2)
      | rest => some ([name], rest)

/-- Arrays and tables in braces may be nested this deep, and a path may have as many keys. -/
def depthLimit : Nat :=
  79

/-- The path that a table or a value is written under, and the text after it. -/
def path? (text : List Char) : Option (List String × List Char) :=
  (keys? text.length text).filter fun r => r.1.length ≤ depthLimit

end Attestor.Toml
