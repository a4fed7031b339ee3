import Attestor.Transfer.Event

namespace Attestor

/-- What was observed of a transfer, with the signature made for it. -/
structure Attestation where
  direction : Direction
  key : ClaimKey
  transactionId : String
  ledgerSequence : UInt32
  success : Bool
  deliveredAmount : Amount
  /-- account creations only -/
  rewardAmount : Option Amount
  bridge : Bridge
  sendingAccount : AccountId
  rewardAccount : AccountId
  destination : Option AccountId
  signingAccount : AccountId
  publicKey : Bytes
  signature : Bytes
  deriving DecidableEq

namespace Attestation

def ofEvent (e : Event) (signingAccount : AccountId) (publicKey signature : Bytes) :
    Attestation where
  direction := e.direction
  key := e.key
  transactionId := e.transactionId
  ledgerSequence := e.ledgerSequence
  success := e.transfer.success
  deliveredAmount := e.deliveredAmount
  rewardAmount := e.reward?
  bridge := e.bridge
  sendingAccount := e.transfer.sendingAccount
  rewardAccount := e.transfer.rewardAccount
  destination := e.destination?
  signingAccount
  publicKey
  signature

def isAccountCreate (a : Attestation) : Bool :=
  a.key.kind = .createAccount

/-- Keys and signatures are hexadecimal. A reward is left out where there is none. -/
def toJson (a : Attestation) : Json :=
  let reward := match a.rewardAmount with
    | some amount => [("reward_amount", amount.toJson)]
    | none => []
  .object ([("direction", a.direction.toJson), ("claim_key", a.key.toJson),
      ("transaction_id", .string a.transactionId),
      ("ledger_sequence", .integer a.ledgerSequence.toNat), ("success", .bool a.success),
      ("delivered_amount", a.deliveredAmount.toJson)]
    ++ reward ++
    [("bridge", a.bridge.toJson), ("sending_account", a.sendingAccount.toJson),
      ("reward_account", a.rewardAccount.toJson),
      ("other_chain_destination", .ofOption AccountId.toJson a.destination),
      ("signing_account", a.signingAccount.toJson),
      ("public_key", .string (Text.Hex.encode a.publicKey)),
      ("signature", .string (Text.Hex.encode a.signature))])

open Decode

def fields : Record Attestation :=
  Attestation.mk <$> Record.required "direction" (Direction.ofJson .plain)
    <*> Record.required "claim_key" ClaimKey.ofJson
    <*> Record.required "transaction_id" Decode.string
    <*> Record.required "ledger_sequence" Decode.uint32
    <*> Record.required "success" Decode.bool
    <*> Record.required "delivered_amount" Amount.ofJson
    <*> Record.defaulted "reward_amount" (Decode.optional Amount.ofJson) none
    <*> Record.required "bridge" (Bridge.ofJson .plain)
    <*> Record.required "sending_account" AccountId.ofJson
    <*> Record.required "reward_account" AccountId.ofJson
    <*> Record.optional "other_chain_destination" AccountId.ofJson
    <*> Record.required "signing_account" AccountId.ofJson
    <*> Record.required "public_key" Decode.hex
    <*> Record.required "signature" Decode.hex

def ofJson : Decoder Attestation :=
  fields.decode "Attestation" false .plain

end Attestation

end Attestor
