import Attestor.Bridge.Codec
import Attestor.Request.Query

namespace Attestor

structure Request where
  method : String
  params : Json

inductive Response where
  | success (result : Json)
  | notFound
  | invalidField (field message : String)
  | error (message : String)

namespace Request

open Decode

def fields : Record Request :=
  Request.mk <$> Record.required "method" Decode.string
    <*> Record.defaulted "params" (fun j => .ok j) .null

def ofJson : Decoder Request :=
  fields.decode "Request" false .plain

/-- A parameter that is read by `decode`. -/
def param (r : Request) (name : String) (decode : Decoder α) : Except Response α :=
  match r.params.member? name with
  | none => .error (.invalidField name "missing")
  | some j => (decode j).mapError fun e => .invalidField name e.message

/-- A bridge, which must be valid as well. -/
def bridgeParam (r : Request) : Except Response Bridge := do
  let bridge ← r.param "bridge_descriptor" (Bridge.ofJson .plain)
  bridge.validate.mapError fun e => .invalidField "bridge_descriptor" e.message
  return bridge

/-- A natural number of 64 bits, as an integer or in decimal text. -/
def sequence? : Json → Option UInt64
  | .integer n => if FitsUnsigned 64 n then some (UInt64.ofNat n.toNat) else none
  | .string s => (Text.unsigned? 64 s.toList).map UInt64.ofNat
  | _ => none

def sequenceParam (r : Request) (name : String) : Except Response UInt64 :=
  match r.params.member? name with
  | none => .error (.invalidField name "missing")
  | some j =>
    match sequence? j with
    | some n => .ok n
    | none => .error (.invalidField name "must be a non-negative integer")

/-- A truth value that is false where it is null or left out. -/
def flagParam (r : Request) (name : String) : Except Response Bool :=
  match r.params.member? name with
  | none | some .null => .ok false
  | some _ => r.param name Decode.bool

end Request

namespace Response

/-- The status comes first. Within the result, members are in key order. -/
def toJson : Response → Json
  | success result => .object [("status", .string "success"), ("result", result.sorted)]
  | notFound => .object [("status", .string "not_found")]
  | invalidField field message =>
    .object [("status", .string "invalid_field"), ("field", .string field),
      ("message", .string message)]
  | error message => .object [("status", .string "error"), ("message", .string message)]

/-- A query error in terms of the request, whose door is in the field `door`. -/
def ofQueryError (door : String) : QueryError → Response
  | .unknownDoor account => .invalidField door (QueryError.unknownDoor account).message
  | .bridge e => .invalidField "bridge_descriptor" e.message
  | .store e => .error e.message

/-- An attestation as callers see it. -/
def attestation (a : Attestation) : Response :=
  let reward := match a.rewardAmount with
    | some amount => [("reward_amount", amount.toJson)]
    | none => []
  .success (.object (
    [("signing_key", .string (Text.Hex.encode a.publicKey)),
      ("signature", .string (Text.Hex.encode a.signature)),
      ("amount", a.deliveredAmount.toJson), ("bridge_descriptor", a.bridge.toJson),
      ("direction", a.direction.toJson), ("sequence_number", .integer a.key.value.toNat)]
    ++ reward ++
    [("transaction_id", .string a.transactionId),
      ("ledger_sequence", .integer a.ledgerSequence.toNat),
      ("sending_account", a.sendingAccount.toJson), ("reward_account", a.rewardAccount.toJson),
      ("destination", .ofOption AccountId.toJson a.destination),
      ("success", .bool a.success), ("signing_account", a.signingAccount.toJson)]))

/-- The answer to a lookup. -/
def ofLookup : Except QueryError (Option Attestation) → Response
  | .ok (some a) => attestation a
  | .ok none => .notFound
  | .error e => ofQueryError "door_account" e

end Response

end Attestor
