import Attestor.Json.Basic
import Attestor.Text.Integer

namespace Attestor.Json.Number

open Text

/-- A number as it is spelled. -/
structure Spelling where
  negative : Bool
  whole : List Char
  fraction : Option (List Char)
  exponent : Option (Bool × List Char)

/-- Takes digits into `n` while it stays within 64 bits; the others are left over. -/
def absorb (n : Nat) : List Char → Nat × List Char
  | [] => (n, [])
  | c :: rest =>
    let next := 10 * n + digitValue c
    if next < twoPow 64 then absorb next rest else (n, c :: rest)

def powerOfTen (n : Nat) : Float :=
  Float.ofScientific 1 false n

/-- `x * 10 ^ exponent`, in steps of at most 308 places. Too large a result is refused. -/
def scale? (x : Float) (exponent : Int) : Option Float :=
  if exponent.natAbs ≤ 308 then
    if 0 ≤ exponent then
      let y := x * powerOfTen exponent.natAbs
      if y.isInf then none else some y
    else some (x / powerOfTen exponent.natAbs)
  else if x == 0.0 then some x
  else if 0 ≤ exponent then none
  else scale? (x / powerOfTen 308) (exponent + 308)
  termination_by exponent.natAbs
  decreasing_by omega

def clampInt32 (n : Int) : Int :=
  max (-(twoPow 31 : Int)) (min ((twoPow 31 : Int) - 1) n)

/-- An exponent outside 32 bits makes a nonzero number too large, or zero. -/
def magnitude? (significand : Nat) (exponent : Int) : Option (Bool × List Char) → Option Float
  | none => scale? (UInt64.ofNat significand).toFloat exponent
  | some (negative, digits) =>
    let n := digitsValue 0 digits
    if n < twoPow 31 then
      scale? (UInt64.ofNat significand).toFloat
        (clampInt32 (if negative then exponent - n else exponent + n))
    else if significand ≠ 0 ∧ !negative then none
    else some 0.0

def Spelling.float? (s : Spelling) : Option Float :=
  let (significand, dropped) := absorb 0 s.whole
  let (significand, exponent) := match s.fraction with
    | none => (significand, (dropped.length : Int))
    | some digits =>
      let (longer, rest) := absorb significand digits
      (longer, (dropped.length : Int) - (digits.length - rest.length))
  (magnitude? significand exponent s.exponent).map fun x => if s.negative then -x else x

/-- Whole numbers in the 64-bit ranges stay exact. All others are floating point, minus zero
included. -/
def Spelling.json? (s : Spelling) : Option Json :=
  let n := digitsValue 0 s.whole
  if s.fraction.isNone && s.exponent.isNone then
    if s.negative then
      if 0 < n ∧ n ≤ twoPow 63 then some (.integer (-n)) else s.float?.map .float
    else if n < twoPow 64 then some (.integer n) else s.float?.map .float
  else s.float?.map .float

/-- A number at the start of the text, and what follows it. -/
def read? (text : List Char) : Option (Json × List Char) := do
  let (negative, text) := match text with
    | '-' :: rest => (true, rest)
    | _ => (false, text)
  let whole := text.takeWhile isDigit
  let text := text.dropWhile isDigit
  guard (whole ≠ [] ∧ (whole.head? = some '0' → whole.length = 1))
  let (fraction, text) ← match text with
    | '.' :: rest =>
      if rest.takeWhile isDigit = [] then none
      else some (some (rest.takeWhile isDigit), rest.dropWhile isDigit)
    | _ => some (none, text)
  let (exponent, text) ← match text with
    | c :: rest =>
      if c = 'e' ∨ c = 'E' then
        let (minus, rest) := match rest with
          | '+' :: r => (false, r)
          | '-' :: r => (true, r)
          | _ => (false, rest)
        if rest.takeWhile isDigit = [] then none
        else some (some (minus, rest.takeWhile isDigit), rest.dropWhile isDigit)
      else some (none, text)
    | [] => some (none, text)
  let j ← Spelling.json? ⟨negative, whole, fraction, exponent⟩
  return (j, text)

end Attestor.Json.Number
