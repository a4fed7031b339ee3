import Attestor.Asset.Amount
import Attestor.Decode.Record

namespace Attestor

open Decode

namespace AccountId

def toJson (a : AccountId) : Json :=
  .string a.text

def ofJson : Decoder AccountId :=
  Decode.text ofString

end AccountId

namespace Currency

def toJson (c : Currency) : Json :=
  .string c.code

def ofJson : Decoder Currency :=
  Decode.text ofString

end Currency

namespace Decimal

def ofJson : Decoder Decimal :=
  Decode.text ofString

end Decimal

namespace Issue

def toJson : Issue → Json
  | native => .string nativeCode
  | issued currency issuer => .object [("currency", currency.toJson), ("issuer", issuer.toJson)]

def fields : Record (String × String) :=
  Prod.mk <$> Record.required "currency" Decode.string <*> Record.required "issuer" Decode.string

/-- The code of the native asset, or an object that names currency and issuer. -/
def ofJson : Decoder Issue
  | .string code => (ofCode code).mapError .value
  | .object members =>
    match fields.decode "Issue" false .plain (.object members) with
    | .ok (currency, issuer) => (ofTexts currency issuer).mapError .value
    | .error _ => .error (.noShape "IssueRepr")
  | _ => .error (.noShape "IssueRepr")

end Issue

namespace Amount

def toJson : Amount → Json
  | native drops => .string (ToString.toString drops.toNat)
  | issued value currency issuer =>
    .object [("currency", currency.toJson), ("issuer", issuer.toJson),
      ("value", .string value.toString)]

def fields : Record (String × String × String) :=
  (fun currency issuer value => (currency, issuer, value))
    <$> Record.required "currency" Decode.string
    <*> Record.required "issuer" Decode.string
    <*> Record.required "value" Decode.string

/-- A count of drops, or an object that names currency, issuer and value. -/
def ofJson : Decoder Amount
  | .string drops => (ofDrops drops).mapError .value
  | .object members =>
    match fields.decode "Amount" false .plain (.object members) with
    | .ok (currency, issuer, value) => (ofTexts value currency issuer).mapError .value
    | .error _ => .error (.noShape "AmountRepr")
  | _ => .error (.noShape "AmountRepr")

end Amount

end Attestor
