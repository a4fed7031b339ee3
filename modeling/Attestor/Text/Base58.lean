import Attestor.Bytes
import Attestor.Text.Quoted

namespace Attestor.Text.Base58

/-- Why a text is no base58 form. Positions count bytes. -/
inductive Fault where
  | notDigit (byte : UInt8) (position : Nat)
  | notAscii (position : Nat)
  deriving DecidableEq, Repr

def Fault.message : Fault → String
  | notDigit byte position =>
    "provided string contained invalid character " ++ Quoted.char (Char.ofNat byte.toNat)
      ++ " at byte " ++ toString position
  | notAscii position =>
    "provided string contained non-ascii character starting at byte " ++ toString position

/-- The fifty-eight digits in order of their values. -/
def alphabet : List UInt8 :=
  Bytes.ofString "rpshnaf39wBUDNEGHJKLM4PQRST7VWXYZ2bcdeCg65jkm8oFqi1tuvAxyz"

/-- The digits of `n` above `acc`, the highest first and none for zero. -/
def digits (base : Nat) (acc : List Nat) (n : Nat) : List Nat :=
  if _h : 0 < n ∧ 1 < base then digits base (n % base :: acc) (n / base) else acc
  termination_by n
  decreasing_by exact Nat.div_lt_self _h.1 _h.2

def ofDigits (base : Nat) (ds : List Nat) : Nat :=
  ds.foldl (fun n d => base * n + d) 0

/-- Leading zeros stand for themselves and the rest is written anew in the other base. -/
def rebase (source target : Nat) (ds : List Nat) : List Nat :=
  ds.takeWhile (· == 0) ++ digits target [] (ofDigits source ds)

/-- The bytes as one number in base 58, with a leading zero digit for each leading zero byte. -/
def encode (bytes : Bytes) : Bytes :=
  (rebase 256 58 (bytes.map UInt8.toNat)).map fun d => alphabet.getD d 0

/-- The values of digits from `position` on. The first byte that is no digit is reported. -/
def values (position : Nat) : Bytes → Except Fault (List Nat)
  | [] => .ok []
  | b :: rest =>
    if 127 < b then .error (.notAscii position)
    else match alphabet.idxOf? b with
      | none => .error (.notDigit b position)
      | some v => (values (position + 1) rest).map (v :: ·)

def decode (text : Bytes) : Except Fault Bytes :=
  (values 0 text).map fun ds => (rebase 58 256 ds).map UInt8.ofNat

end Attestor.Text.Base58
