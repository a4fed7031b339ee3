import Attestor.Asset.Account
import Attestor.Asset.Currency
import Attestor.Asset.Decimal

namespace Attestor

/-- What an amount is denominated in. -/
inductive Issue where
  | native
  | issued (currency : Currency) (issuer : AccountId)
  deriving DecidableEq

namespace Issue

def isNative : Issue → Bool
  | native => true
  | issued .. => false

def toString : Issue → String
  | native => nativeCode
  | issued currency issuer => currency.code ++ "/" ++ issuer.text

instance : ToString Issue := ⟨toString⟩

/-- The currency is judged before the issuer. -/
def ofTexts (currency issuer : String) : Except ValueError Issue := do
  let currency ← Currency.ofString currency
  let issuer ← AccountId.ofString issuer
  return issued currency issuer

/-- A bare code can only be the native one. -/
def ofCode (code : String) : Except ValueError Issue :=
  if code = nativeCode then .ok native else .error (.issueCode code)

end Issue

/-- Drops of the native asset, or a decimal value of an asset that an account issues. -/
inductive Amount where
  | native (drops : UInt64)
  | issued (value : Decimal) (currency : Currency) (issuer : AccountId)
  deriving DecidableEq

namespace Amount

def issue : Amount → Issue
  | native _ => .native
  | issued _ currency issuer => .issued currency issuer

/-- The value is judged first, then the currency, then the issuer. -/
def ofTexts (value currency issuer : String) : Except ValueError Amount := do
  let value ← Decimal.ofString value
  let currency ← Currency.ofString currency
  let issuer ← AccountId.ofString issuer
  return issued value currency issuer

def ofDrops (drops : String) : Except ValueError Amount :=
  match Text.unsigned? 64 drops.toList with
  | some n => .ok (native (UInt64.ofNat n))
  | none => .error (.notDrops drops)

/-- The pieces of a text between slashes. -/
def pieces : List Char → List (List Char)
  | [] => [[]]
  | '/' :: rest => [] :: pieces rest
  | c :: rest =>
    match pieces rest with
    | [] => [[c]]
    | piece :: others => (c :: piece) :: others

/-- The compact form: drops, or value, currency and issuer between slashes. -/
def ofString (s : String) : Except ValueError Amount :=
  match pieces s.toList with
  | [_] => ofDrops s
  | [value, currency, issuer] =>
    ofTexts (String.ofList value) (String.ofList currency) (String.ofList issuer)
  | _ => .error (.amountParts s)

def toString : Amount → String
  | native drops => ToString.toString drops.toNat
  | issued value currency issuer => value.toString ++ "/" ++ currency.code ++ "/" ++ issuer.text

instance : ToString Amount := ⟨toString⟩

end Amount

end Attestor
