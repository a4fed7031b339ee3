import Attestor.Text.Graphic

namespace Attestor.Text.Quoted

/-- The hexadecimal digits of a code point, without leading zeros. -/
def codePoint (c : Char) : List Char :=
  Nat.toDigits 16 c.toNat

/-- One character between quotes of the kind `quote`. -/
def character (quote c : Char) : List Char :=
  if c = '\x00' then ['\\', '0']
  else if c = '\t' then ['\\', 't']
  else if c = '\n' then ['\\', 'n']
  else if c = '\r' then ['\\', 'r']
  else if c = quote ∨ c = '\\' then ['\\', c]
  else if isGraphic c then [c]
  else ['\\', 'u', '\x7b'] ++ codePoint c ++ ['\x7d']

def char (c : Char) : String :=
  String.ofList ('\'' :: character '\'' c ++ ['\''])

def string (s : String) : String :=
  String.ofList ('"' :: s.toList.flatMap (character '"') ++ ['"'])

end Attestor.Text.Quoted
