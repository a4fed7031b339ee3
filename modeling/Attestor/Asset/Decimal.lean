import Attestor.Asset.Error
import Attestor.Text.Integer

namespace Attestor

namespace Decimal

def leastMantissa : UInt64 := 1000000000000000
def greatestMantissa : UInt64 := 9999999999999999
def leastExponent : Int := -96
def greatestExponent : Int := 80

/-- Zero, or a mantissa of sixteen digits and an exponent in range. -/
def Normal (mantissa exponent : Int) : Prop :=
  (mantissa = 0 ∧ exponent = 0) ∨
    (leastMantissa.toNat ≤ mantissa.natAbs ∧ mantissa.natAbs ≤ greatestMantissa.toNat ∧
      leastExponent ≤ exponent ∧ exponent ≤ greatestExponent)

instance (mantissa exponent : Int) : Decidable (Normal mantissa exponent) := by
  unfold Normal; infer_instance

end Decimal

/-- The number `mantissa * 10 ^ exponent`. Each number has one form, so equal numbers written
differently are equal values. -/
structure Decimal where
  mantissa : Int64
  exponent : Int32
  normal : Decimal.Normal mantissa.toInt exponent.toInt
  deriving DecidableEq

namespace Decimal

def zero : Decimal :=
  ⟨0, 0, by decide⟩

def isZero (d : Decimal) : Bool :=
  d.mantissa == 0

def isNegative (d : Decimal) : Bool :=
  d.mantissa < 0

/-- The exponent one lower, except at the end of its range. -/
def pred (e : Int32) : Int32 :=
  if e = Int32.minValue then e else e - 1

/-- The exponent one higher, except at the end of its range. -/
def succ (e : Int32) : Int32 :=
  if e = Int32.maxValue then e else e + 1

/-- Appends zeros to a nonzero mantissa until it has sixteen digits. -/
def raise (m : UInt64) (e : Int32) : UInt64 × Int32 :=
  if _h : 0 < m ∧ m < leastMantissa then raise (m * 10) (pred e) else (m, e)
  termination_by leastMantissa.toNat - m.toNat
  decreasing_by
    obtain ⟨positive, small⟩ := _h
    rw [UInt64.lt_iff_toNat_lt] at positive small
    simp only [leastMantissa, UInt64.reduceToNat] at positive small ⊢
    have tenfold : (m * 10).toNat = m.toNat * 10 := by
      rw [UInt64.toNat_mul]
      exact Nat.mod_eq_of_lt (by simp only [UInt64.reduceToNat]; omega)
    omega

/-- Takes zeros off the end of a mantissa until it has sixteen digits. Only zeros are taken off. -/
def lower? (m : UInt64) (e : Int32) : Option (UInt64 × Int32) :=
  if _h : greatestMantissa < m then
    if m % 10 = 0 then lower? (m / 10) (succ e) else none
  else some (m, e)
  termination_by m.toNat
  decreasing_by
    rw [UInt64.lt_iff_toNat_lt] at _h
    rw [UInt64.toNat_div]
    simp only [greatestMantissa, UInt64.reduceToNat] at _h ⊢
    omega

/-- The value `mantissa * 10 ^ exponent`, negated if so asked, if it has a normal form. -/
def ofParts (negative : Bool) (mantissa : UInt64) (exponent : Int32) : Except ValueError Decimal :=
  if mantissa = 0 then .ok zero
  else
    let (m, e) := raise mantissa exponent
    match lower? m e with
    | none => .error .longMantissa
    | some (m, e) =>
      let signed := if negative then -m.toInt64 else m.toInt64
      if normal : Normal signed.toInt e.toInt then .ok ⟨signed, e, normal⟩
      else .error (.exponentRange e.toInt)

/-- A sign, the digits before and after the point, and the exponent. -/
structure Spelling where
  negative : Bool
  whole : List Char
  fraction : List Char
  exponent : Int
  deriving DecidableEq, Repr

/-- The sign, and the rest of the text. -/
def takeSign : List Char → Bool × List Char
  | '-' :: rest => (true, rest)
  | '+' :: rest => (false, rest)
  | text => (false, text)

def isExponentMark (c : Char) : Bool :=
  c == 'e' || c == 'E'

/-- The text up to the first `e` or `E`, and the exponent that follows it. -/
def takeExponent? (text : List Char) : Option (List Char × Int) :=
  match text.dropWhile (!isExponentMark ·) with
  | [] => some (text, 0)
  | _ :: rest => (Text.signed? 32 rest).map fun e => (text.takeWhile (!isExponentMark ·), e)

/-- Digits with at most one point and at least one digit, between a sign and an exponent. -/
def Spelling.read? (text : List Char) : Option Spelling :=
  let (negative, body) := takeSign text
  match takeExponent? body with
  | none => none
  | some (number, exponent) =>
    let whole := number.takeWhile (· != '.')
    let fraction := (number.dropWhile (· != '.')).drop 1
    if whole ++ fraction ≠ [] ∧ (whole ++ fraction).all Text.isDigit then
      some ⟨negative, whole, fraction, exponent⟩
    else none

/-- Zeros at either end carry no information; sixteen digits may remain between them. -/
def ofString (s : String) : Except ValueError Decimal :=
  match Spelling.read? s.toList with
  | none => .error (.notDecimal s)
  | some p =>
    let digits := (p.whole ++ p.fraction).dropWhile (· == '0')
    let significant := (digits.reverse.dropWhile (· == '0')).reverse
    if significant = [] then .ok zero
    else if 16 < significant.length then .error (.longDecimal s)
    else
      let places := p.exponent - p.fraction.length
      let exponent := places + (digits.length - significant.length : Nat)
      if FitsSigned 32 places ∧ FitsSigned 32 exponent then
        ofParts p.negative (UInt64.ofNat (Text.digitsValue 0 significant)) (Int32.ofInt exponent)
      else .error (.notDecimal s)

/-- The digits of a positive number without the zeros at its end, and the number of those zeros. -/
def trimZeros (n : Nat) : Nat × Nat :=
  if _h : 0 < n ∧ n % 10 = 0 then
    let (m, zeros) := trimZeros (n / 10)
    (m, zeros + 1)
  else (n, 0)
  termination_by n
  decreasing_by omega

/-- Digits in front of `10 ^ exponent`: with an exponent outside −25 to 10, else in full. -/
def layout (digits : List Char) (exponent : Int) : List Char :=
  if exponent < -25 ∨ 10 < exponent then digits ++ 'e' :: (toString exponent).toList
  else if 0 ≤ exponent then digits ++ List.replicate exponent.toNat '0'
  else
    let places := exponent.natAbs
    if places < digits.length then
      digits.take (digits.length - places) ++ '.' :: digits.drop (digits.length - places)
    else '0' :: '.' :: List.replicate (places - digits.length) '0' ++ digits

def chars (d : Decimal) : List Char :=
  if d.mantissa = 0 then ['0']
  else
    let (m, zeros) := trimZeros d.mantissa.toInt.natAbs
    let mark := if d.mantissa < 0 then ['-'] else []
    mark ++ layout (Nat.toDigits 10 m) (d.exponent.toInt + zeros)

def toString (d : Decimal) : String :=
  String.ofList d.chars

instance : ToString Decimal := ⟨toString⟩

end Decimal

end Attestor
