import Attestor.Asset.Error

namespace Attestor

/-- The code of the native asset. -/
def nativeCode : String :=
  "XRP"

def isHexDigit (c : Char) : Bool :=
  ('0' ≤ c && c ≤ '9') || ('a' ≤ c && c ≤ 'f') || ('A' ≤ c && c ≤ 'F')

def isAlphanumeric (c : Char) : Bool :=
  ('0' ≤ c && c ≤ '9') || ('a' ≤ c && c ≤ 'z') || ('A' ≤ c && c ≤ 'Z')

def isUpperHexDigit (c : Char) : Bool :=
  ('0' ≤ c && c ≤ '9') || ('A' ≤ c && c ≤ 'F')

namespace Currency

def IsShort (code : String) : Prop :=
  code.toList.length = 3 ∧ code.toList.all isAlphanumeric = true ∧ code ≠ nativeCode

def IsLong (code : String) : Prop :=
  code.toList.length = 40 ∧ code.toList.all isUpperHexDigit = true

instance (code : String) : Decidable (IsShort code) := by unfold IsShort; infer_instance
instance (code : String) : Decidable (IsLong code) := by unfold IsLong; infer_instance

end Currency

/-- The code of an issued asset: three ASCII letters or digits other than the native code, or forty
hexadecimal digits, which are kept in upper case. -/
structure Currency where
  code : String
  valid : Currency.IsShort code ∨ Currency.IsLong code
  deriving DecidableEq

namespace Currency

def upper (code : String) : String :=
  String.ofList (code.toList.map Char.toUpper)

/-- Forty hexadecimal digits are recognized first; the native code is refused last. -/
def ofString (code : String) : Except ValueError Currency :=
  if code.toList.length = 40 ∧ code.toList.all isHexDigit then
    if long : IsLong (upper code) then .ok ⟨upper code, .inr long⟩ else .error (.currencyCode code)
  else if h : code.toList.length = 3 ∧ code.toList.all isAlphanumeric = true then
    if native : code = nativeCode then .error .nativeCurrency
    else .ok ⟨code, .inl ⟨h.1, h.2, native⟩⟩
  else .error (.currencyCode code)

instance : ToString Currency := ⟨code⟩

end Currency

end Attestor
