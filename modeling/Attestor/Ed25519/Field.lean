import Attestor.Width

namespace Attestor.Ed25519

/-- `base ^ exponent` modulo `m`, by squaring. -/
def powMod (m base exponent : Nat) : Nat :=
  if _h : exponent = 0 then 1 % m
  else
    let rest := powMod m (base * base % m) (exponent / 2)
    if exponent % 2 = 1 then base * rest % m else rest
  termination_by exponent
  decreasing_by omega

/-- The characteristic of the field. -/
def prime : Nat :=
  twoPow 255 - 19

/-- The order of the base point. -/
def order : Nat :=
  twoPow 252 + 27742317777372353535851937790883648493

namespace Field

def add (x y : Nat) : Nat := (x + y) % prime
def sub (x y : Nat) : Nat := (x + (prime - y % prime)) % prime
def mul (x y : Nat) : Nat := x * y % prime
def neg (x : Nat) : Nat := sub 0 x

/-- The inverse of a nonzero residue. -/
def inv (x : Nat) : Nat := powMod prime x (prime - 2)

/-- A square root of minus one. -/
def rootOfMinusOne : Nat := powMod prime 2 ((prime - 1) / 4)

/-- The even square root of `u / v`, if there is one. -/
def sqrtRatio? (u v : Nat) : Option Nat :=
  let v3 := mul (mul v v) v
  let v7 := mul (mul v3 v3) v
  let x := mul (mul u v3) (powMod prime (mul u v7) ((prime - 5) / 8))
  let check := mul v (mul x x)
  let even (r : Nat) := if r % 2 = 1 then neg r else r
  if check = u % prime then some (even x)
  else if check = neg u then some (even (mul x rootOfMinusOne))
  else none

end Field

end Attestor.Ed25519
