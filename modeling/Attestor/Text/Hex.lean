import Attestor.Bytes
import Attestor.Text.Quoted

namespace Attestor.Text.Hex

/-- Why a text is no hexadecimal form. A refused character is shown as the byte at its position. -/
inductive Fault where
  | oddLength
  | notDigit (byte : UInt8) (position : Nat)
  deriving DecidableEq, Repr

def Fault.message : Fault → String
  | oddLength => "Odd number of digits"
  | notDigit byte position =>
    "Invalid character " ++ Quoted.char (Char.ofNat byte.toNat) ++ " at position "
      ++ toString position

def digit (n : Nat) : Char :=
  if n < 10 then Char.ofNat ('0'.toNat + n) else Char.ofNat ('a'.toNat + (n - 10))

/-- Two digits a byte in lower case, the high one first. -/
def encode (bytes : Bytes) : String :=
  String.ofList (bytes.flatMap fun b => [digit (b.toNat / 16), digit (b.toNat % 16)])

/-- The value of a digit byte of either case. -/
def value? (b : UInt8) : Option Nat :=
  if '0'.toNat ≤ b.toNat ∧ b.toNat ≤ '9'.toNat then some (b.toNat - '0'.toNat)
  else if 'a'.toNat ≤ b.toNat ∧ b.toNat ≤ 'f'.toNat then some (b.toNat - 'a'.toNat + 10)
  else if 'A'.toNat ≤ b.toNat ∧ b.toNat ≤ 'F'.toNat then some (b.toNat - 'A'.toNat + 10)
  else none

/-- Pairs of digits from `position` on. The first byte that is no digit is reported. -/
def pairs (position : Nat) : Bytes → Except Fault Bytes
  | high :: low :: rest =>
    match value? high with
    | none => .error (.notDigit high position)
    | some h =>
      match value? low with
      | none => .error (.notDigit low (position + 1))
      | some l => (pairs (position + 2) rest).map (UInt8.ofNat (16 * h + l) :: ·)
  | _ => .ok []

/-- The length is judged before any character. -/
def decode (s : String) : Except Fault Bytes :=
  let bytes := Bytes.ofString s
  if bytes.length % 2 = 1 then .error .oddLength else pairs 0 bytes

end Attestor.Text.Hex
