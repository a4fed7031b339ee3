import Attestor.Width

namespace Attestor.Text

def isDigit (c : Char) : Bool :=
  '0' ≤ c && c ≤ '9'

def digitValue (c : Char) : Nat :=
  c.toNat - '0'.toNat

/-- The number that a list of digits spells, whatever precedes it counting `acc`. -/
def digitsValue (acc : Nat) (digits : List Char) : Nat :=
  digits.foldl (fun n c => 10 * n + digitValue c) acc

def natural? (digits : List Char) : Option Nat :=
  if digits ≠ [] ∧ digits.all isDigit then some (digitsValue 0 digits) else none

/-- A natural number of `bits` bits, with an optional plus sign. -/
def unsigned? (bits : Nat) (text : List Char) : Option Nat :=
  let digits := match text with
    | '+' :: rest => rest
    | _ => text
  (natural? digits).filter (· < twoPow bits)

/-- An integer of `bits` bits in two's complement, with an optional sign. -/
def signed? (bits : Nat) (text : List Char) : Option Int :=
  let value? : Option Int := match text with
    | '+' :: rest => (natural? rest).map Int.ofNat
    | '-' :: rest => (natural? rest).map fun n => -Int.ofNat n
    | _ => (natural? text).map Int.ofNat
  value?.filter fun n => FitsSigned bits n

end Attestor.Text
