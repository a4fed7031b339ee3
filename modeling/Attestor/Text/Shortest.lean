import Attestor.Width

namespace Attestor.Text.Shortest

/-- A positive number and the ends of the interval that rounds to it, over one denominator. The ends
themselves round to it iff `closed`. -/
structure Interval where
  value : Nat
  low : Nat
  high : Nat
  denominator : Nat
  closed : Bool

/-- The number `m * 2 ^ q` of 53 significant bits. Below a power of two the numbers lie closer. -/
def Interval.ofParts (m : Nat) (q : Int) (lowest : Bool) : Interval :=
  let low := if m = twoPow 52 ∧ !lowest then 4 * m - 1 else 4 * m - 2
  let up := twoPow (q - 2).toNat
  { value := 4 * m * up, low := low * up, high := (4 * m + 2) * up,
    denominator := twoPow (2 - q).toNat, closed := m % 2 = 0 }

/-- The interval of a positive finite number in its 64-bit form. -/
def Interval.ofBits (bits : UInt64) : Interval :=
  let fraction : Nat := bits.toNat % twoPow 52
  let biased : Nat := bits.toNat / twoPow 52 % twoPow 11
  if biased = 0 then .ofParts fraction (-1074) true
  else .ofParts (twoPow 52 + fraction) ((biased : Int) - 1075) (biased = 1)

def digitCount (n : Nat) : Nat :=
  (Nat.toDigits 10 n).length

/-- The largest `e` with `10 ^ e` at most the value. -/
def Interval.magnitude (i : Interval) : Int :=
  let e : Int := digitCount i.value - digitCount i.denominator
  if i.value * Nat.pow 10 (-e).toNat < Nat.pow 10 e.toNat * i.denominator then e - 1 else e

/-- The multiple of `10 ^ k` inside the interval that is nearest to the value, if there is one. Of
two equally near the even one is taken. -/
def Interval.onGrid? (i : Interval) (k : Int) : Option Nat :=
  let up := Nat.pow 10 (-k).toNat
  let step := Nat.pow 10 k.toNat * i.denominator
  let value := i.value * up
  let inside (d : Nat) : Bool :=
    if i.closed then i.low * up ≤ d * step && d * step ≤ i.high * up
    else i.low * up < d * step && d * step < i.high * up
  let below := value / step
  let above := below + 1
  match inside below, inside above with
  | false, false => none
  | true, false => some below
  | false, true => some above
  | true, true =>
    let fall := value - below * step
    let rise := above * step - value
    if fall < rise ∨ (fall = rise ∧ below % 2 = 0) then some below else some above

/-- The first of the given grids with a hit: the digits, and the power of ten of the last. -/
def Interval.first? (i : Interval) : List Int → Option (Nat × Int)
  | [] => none
  | k :: rest =>
    match i.onGrid? k with
    | some d => some (d, k)
    | none => i.first? rest

/-- Digits and exponent with no zero at the end. Seventeen digits always suffice. -/
def Interval.shortest (i : Interval) : List Char × Int :=
  let top := i.magnitude
  let grids := (List.range 17).map fun (n : Nat) => top - (n : Int)
  let (d, k) := (i.first? grids).getD (0, 0)
  let digits := Nat.toDigits 10 d
  let kept := (digits.reverse.dropWhile (· == '0')).reverse
  (kept, k + (digits.length - kept.length))

/-- Where a text stops writing all places of a number and turns to powers of ten. -/
structure Layout where
  /-- the least and the greatest power of the first digit that are written out -/
  least : Int
  greatest : Int

/-- Digits that stand for `digits * 10 ^ k`. A point or an exponent is always there. -/
def Layout.write (layout : Layout) (digits : List Char) (k : Int) : List Char :=
  let power := k + digits.length - 1
  if power < layout.least ∨ layout.greatest < power then
    let fraction := match digits.drop 1 with
      | [] => []
      | rest => '.' :: rest
    let mark := if power < 0 then ['e', '-'] else ['e', '+']
    digits.take 1 ++ fraction ++ mark ++ Nat.toDigits 10 power.natAbs
  else if 0 ≤ k then
    digits ++ List.replicate k.toNat '0' ++ ['.', '0']
  else if 0 ≤ power then
    digits.take (power.toNat + 1) ++ '.' :: digits.drop (power.toNat + 1)
  else
    ['0', '.'] ++ List.replicate (-power - 1).toNat '0' ++ digits

def Layout.float (layout : Layout) (x : Float) : List Char :=
  let bits := x.toBits
  let mark := if bits.toNat / twoPow 63 = 1 then ['-'] else []
  if bits.toNat % twoPow 63 = 0 then mark ++ ['0', '.', '0']
  else
    let (digits, k) := (Interval.ofBits bits).shortest
    mark ++ layout.write digits k

end Attestor.Text.Shortest
