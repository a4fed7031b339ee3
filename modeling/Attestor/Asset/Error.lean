namespace Attestor

/-- Why a text or a combination of values is refused. -/
inductive ValueError where
  | emptyAccount
  | longAccount
  | accountCharacters (text : String)
  | currencyCode (text : String)
  | nativeCurrency
  | issueCode (text : String)
  | notDrops (text : String)
  | notDecimal (text : String)
  | longDecimal (text : String)
  | longMantissa
  | exponentRange (exponent : Int)
  | amountParts (text : String)
  | sharedDoor (door : String)
  | mixedAssets
  deriving DecidableEq, Repr

/-- The part of the domain that an error is about. -/
inductive ValueError.Subject where
  | field (name : String)
  | amount
  | bridge
  deriving DecidableEq, Repr

namespace ValueError

def subject : ValueError → Subject
  | emptyAccount | longAccount | accountCharacters _ => .field "account"
  | currencyCode _ | nativeCurrency => .field "currency"
  | issueCode _ => .field "issue"
  | notDrops _ | notDecimal _ | longDecimal _ | longMantissa | exponentRange _
  | amountParts _ => .amount
  | sharedDoor _ | mixedAssets => .bridge

def reason : ValueError → String
  | emptyAccount => "must not be empty"
  | longAccount => "longer than 128 bytes"
  | accountCharacters text => "'" ++ text ++ "' contains whitespace or non-ascii characters"
  | currencyCode text => "'" ++ text ++ "' is neither a 3 character nor a 40 hex digit code"
  | nativeCurrency => "the native currency cannot be issued"
  | issueCode text => "'" ++ text ++ "' is not the native currency; issued assets need an issuer"
  | notDrops text => "'" ++ text ++ "' is not a drop count"
  | notDecimal text => "'" ++ text ++ "' is not a decimal value"
  | longDecimal text => "'" ++ text ++ "' has more than 16 significant digits"
  | longMantissa => "more than 16 significant digits"
  | exponentRange exponent => "exponent " ++ toString exponent ++ " out of range"
  | amountParts text => "'" ++ text ++ "' is neither <drops> nor <value>/<currency>/<issuer>"
  | sharedDoor door => "both chains use door " ++ door
  | mixedAssets => "native assets can only be bridged to native assets"

def Subject.heading : Subject → String
  | field name => "Invalid field '" ++ name ++ "': "
  | amount => "Invalid amount: "
  | bridge => "Invalid bridge descriptor: "

def message (e : ValueError) : String :=
  e.subject.heading ++ e.reason

end ValueError

end Attestor
