import Attestor.Text.Integer
import Attestor.Toml.Text

namespace Attestor.Toml

open Text

/-- The digits after a first one. An underscore may stand between two digits. -/
def moreDigits? (ok : Char → Bool) : List Char → Option (List Char × List Char)
  | '_' :: c :: rest => if ok c then (moreDigits? ok rest).map (prepend c) else none
  | c :: rest =>
    if c = '_' then none
    else if ok c then (moreDigits? ok rest).map (prepend c)
    else some ([], c :: rest)
  | [] => some ([], [])

def digits? (ok : Char → Bool) : List Char → Option (List Char × List Char)
  | c :: rest => if ok c then (moreDigits? ok rest).map (prepend c) else none
  | [] => none

/-- A whole number in decimal without a sign. A zero stands alone. -/
def whole? : List Char → Option (List Char × List Char)
  | '0' :: rest => some (['0'], rest)
  | text => digits? isDigit text

def sign (text : List Char) : Bool × List Char :=
  match text with
  | '-' :: rest => (true, rest)
  | '+' :: rest => (false, rest)
  | _ => (false, text)

/-- Exactly `n` digits, as a number. -/
def fixed? (n : Nat) (text : List Char) : Option (Nat × List Char) :=
  let head := text.take n
  if head.length = n ∧ head.all isDigit then some (digitsValue 0 head, text.drop n) else none

def expect? (c : Char) : List Char → Option (List Char)
  | d :: rest => if c = d then some rest else none
  | [] => none

def isLeapYear (year : Nat) : Bool :=
  year % 4 == 0 && (year % 100 != 0 || year % 400 == 0)

def daysIn (year month : Nat) : Nat :=
  if month = 2 then if isLeapYear year then 29 else 28
  else if month = 4 ∨ month = 6 ∨ month = 9 ∨ month = 11 then 30
  else 31

def date? (text : List Char) : Option (List Char) := do
  let (year, text) ← fixed? 4 text
  let text ← expect? '-' text
  let (month, text) ← fixed? 2 text
  let text ← expect? '-' text
  let (day, text) ← fixed? 2 text
  guard (1 ≤ month ∧ month ≤ 12 ∧ 1 ≤ day ∧ day ≤ daysIn year month)
  return text

def time? (text : List Char) : Option (List Char) := do
  let (hour, text) ← fixed? 2 text
  let text ← expect? ':' text
  let (minute, text) ← fixed? 2 text
  let text ← expect? ':' text
  let (second, text) ← fixed? 2 text
  guard (hour < 24 ∧ minute < 60 ∧ second ≤ 60)
  match text with
  | '.' :: rest => if rest.takeWhile isDigit = [] then none else some (rest.dropWhile isDigit)
  | _ => some text

/-- The offset from universal time, if one is given. -/
def offset? (text : List Char) : Option (List Char) :=
  match text with
  | 'Z' :: rest => some rest
  | 'z' :: rest => some rest
  | c :: rest =>
    if c = '+' ∨ c = '-' then do
      let (hour, rest) ← fixed? 2 rest
      let rest ← expect? ':' rest
      let (minute, rest) ← fixed? 2 rest
      guard (hour < 24 ∧ minute < 60)
      return rest
    else some text
  | [] => some []

/-- A date, a time, or both. What follows a date after a blank need not be a time. -/
def dateTime? (text : List Char) : Option (List Char) :=
  match date? text with
  | none => time? text
  | some rest =>
    match rest with
    | c :: after =>
      if c = 'T' ∨ c = 't' ∨ c = ' ' then
        match time? after with
        | some after => offset? after
        | none => some rest
      else some rest
    | [] => some []

def infinity : Float :=
  1.0 / 0.0

/-- The floating point number. Below all others it is minus infinity; one above all others is
refused. -/
def float? (negative : Bool) (whole fraction : List Char) (exponent : Int) : Option Json :=
  let digits := (whole ++ fraction).dropWhile (· == '0')
  let scale := exponent - fraction.length
  let x :=
    if digits = [] ∨ scale + digits.length < -400 then 0.0
    else if 400 < scale + digits.length then infinity
    else Float.ofScientific (digitsValue 0 digits) (scale < 0) scale.natAbs
  if x.isInf && !negative then none else some (.float (if negative then -x else x))

/-- The exponent after its mark. -/
def exponent? (text : List Char) : Option (Int × List Char) :=
  let (negative, text) := sign text
  (digits? isDigit text).map fun r =>
    ((if negative then -(digitsValue 0 r.1 : Int) else digitsValue 0 r.1), r.2)

/-- A number in decimal: whole, or with a fraction, an exponent or both. -/
def decimal? (text : List Char) : Option (Json × List Char) := do
  let (negative, text) := sign text
  let (whole, text) ← whole? text
  let (fraction, text) ← match text with
    | '.' :: rest => (digits? isDigit rest).map fun r => (some r.1, r.2)
    | _ => some (none, text)
  let (exponent, text) ← match text with
    | 'e' :: rest => (exponent? rest).map fun r => (some r.1, r.2)
    | 'E' :: rest => (exponent? rest).map fun r => (some r.1, r.2)
    | _ => some (none, text)
  if fraction.isNone && exponent.isNone then
    let n := digitsValue 0 whole
    let value : Int := if negative then -n else n
    guard (FitsSigned 64 value)
    return (.integer value, text)
  else
    let x ← float? negative whole (fraction.getD []) (exponent.getD 0)
    return (x, text)

/-- A whole number in another base. -/
def radix? (base : Nat) (ok : Char → Bool) (text : List Char) : Option (Json × List Char) := do
  let (ds, text) ← digits? ok text
  let n := ds.foldl (fun n c => base * n + (Json.hexValue? c).getD 0) 0
  guard (n < twoPow 63)
  return (.integer n, text)

/-- Infinity, or what is no number, each with an optional sign. -/
def special? (text : List Char) : Option (Json × List Char) :=
  let (negative, text) := sign text
  match text with
  | 'i' :: 'n' :: 'f' :: rest => some (.float (if negative then -infinity else infinity), rest)
  | 'n' :: 'a' :: 'n' :: rest => some (.float (0.0 / 0.0), rest)
  | _ => none

def dateKey : String :=
  "$__toml_private_datetime"

/-- A date or time as a value. No field takes one, so all that counts is that it is an object of its
own kind: nothing else in a file is null. -/
def dateValue : Json :=
  .object [(dateKey, .null)]

/-- A number, a date or a time. -/
def number? (text : List Char) : Option (Json × List Char) :=
  match dateTime? text with
  | some rest => some (dateValue, rest)
  | none =>
    match special? text with
    | some r => some r
    | none =>
      match text with
      | '0' :: 'x' :: rest => radix? 16 isHexDigit rest
      | '0' :: 'o' :: rest => radix? 8 (fun c => '0' ≤ c && c ≤ '7') rest
      | '0' :: 'b' :: rest => radix? 2 (fun c => c == '0' || c == '1') rest
      | _ => decimal? text

end Attestor.Toml
