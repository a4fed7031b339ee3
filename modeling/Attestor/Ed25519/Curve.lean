import Attestor.Bytes
import Attestor.Ed25519.Field

namespace Attestor.Ed25519

open Attestor.Ed25519.Field

/-- The point `(x / z, y / z)` of the curve `-x² + y² = 1 + d x² y²`, with `t = x y / z`. -/
structure Point where
  x : Nat
  y : Nat
  z : Nat
  t : Nat

/-- The constant `d = -121665 / 121666` of the curve. -/
def curveD : Nat :=
  mul (neg 121665) (inv 121666)

def curveTwoD : Nat :=
  add curveD curveD

namespace Point

def zero : Point := ⟨0, 1, 1, 0⟩

/-- The addition law holds for all pairs of points, equal ones included. -/
def add (p q : Point) : Point :=
  let a := mul (sub p.y p.x) (sub q.y q.x)
  let b := mul (Field.add p.y p.x) (Field.add q.y q.x)
  let c := mul (mul p.t curveTwoD) q.t
  let d := mul (Field.add p.z p.z) q.z
  let e := sub b a
  let f := sub d c
  let g := Field.add d c
  let h := Field.add b a
  ⟨mul e f, mul g h, mul f g, mul e h⟩

def double (p : Point) : Point :=
  let a := mul p.x p.x
  let b := mul p.y p.y
  let c := mul 2 (mul p.z p.z)
  let h := Field.add a b
  let s := Field.add p.x p.y
  let e := sub h (mul s s)
  let g := sub a b
  let f := Field.add c g
  ⟨mul e f, mul g h, mul f g, mul e h⟩

def negate (p : Point) : Point :=
  ⟨neg p.x, p.y, p.z, neg p.t⟩

/-- `n` times the point, by doubling. -/
def scale (n : Nat) (p : Point) : Point :=
  if _h : n = 0 then zero
  else
    let rest := scale (n / 2) p.double
    if n % 2 = 1 then p.add rest else rest
  termination_by n
  decreasing_by omega

/-- The point with the given y coordinate and parity of x, if y belongs to one. The y coordinate is
taken modulo the characteristic; x = 0 is accepted with either parity. -/
def ofY? (y : Nat) (odd : Bool) : Option Point :=
  let y := y % prime
  let yy := mul y y
  (sqrtRatio? (sub yy 1) (Field.add (mul curveD yy) 1)).map fun x =>
    let x := if odd then neg x else x
    ⟨x, y, 1, mul x y⟩

def base : Point :=
  (ofY? (mul 4 (inv 5)) false).getD zero

/-- The y coordinate in 32 bytes, with the parity of x in the top bit. -/
def encode (p : Point) : Bytes :=
  let scale := inv p.z
  let x := mul p.x scale
  let y := mul p.y scale
  Bytes.littleEndian 32 (y + twoPow 255 * (x % 2))

def decode? (bytes : Bytes) : Option Point :=
  let n := Bytes.toNatLittle bytes
  ofY? (n % twoPow 255) (n / twoPow 255 % 2 = 1)

end Point

end Attestor.Ed25519
