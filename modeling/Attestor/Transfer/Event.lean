import Attestor.Bridge.Codec
import Attestor.Transfer.Key

namespace Attestor

/-- What is told of every transfer. -/
structure Transfer where
  source : Role
  transactionId : String
  ledgerSequence : UInt32
  deliveredAmount : Amount
  bridge : Bridge
  sendingAccount : AccountId
  rewardAccount : AccountId
  success : Bool
  deriving DecidableEq

/-- A finalized transfer as observed on its source chain. Both kinds are keyed by a number that the
source door gave out. -/
inductive Event where
  | claim (transfer : Transfer) (sequence : UInt64) (destination : Option AccountId)
  | createAccount (transfer : Transfer) (count : UInt64) (reward : Amount) (destination : AccountId)
  deriving DecidableEq

namespace Event

def transfer : Event → Transfer
  | claim t .. | createAccount t .. => t

def source (e : Event) : Role :=
  e.transfer.source

def direction (e : Event) : Direction :=
  Direction.ofSource e.source

def transactionId (e : Event) : String :=
  e.transfer.transactionId

def ledgerSequence (e : Event) : UInt32 :=
  e.transfer.ledgerSequence

def deliveredAmount (e : Event) : Amount :=
  e.transfer.deliveredAmount

def bridge (e : Event) : Bridge :=
  e.transfer.bridge

def key : Event → ClaimKey
  | claim _ sequence _ => .claim sequence
  | createAccount _ count .. => .createAccount count

/-- The reward split among witnesses, which account creations carry. -/
def reward? : Event → Option Amount
  | claim .. => none
  | createAccount _ _ reward _ => some reward

def destination? : Event → Option AccountId
  | claim _ _ destination => destination
  | createAccount _ _ _ destination => some destination

def toJson : Event → Json
  | claim t sequence destination =>
    .object [("kind", .string "claim"), ("source", t.source.toJson),
      ("transaction_id", .string t.transactionId),
      ("ledger_sequence", .integer t.ledgerSequence.toNat),
      ("claim_sequence", .integer sequence.toNat),
      ("delivered_amount", t.deliveredAmount.toJson), ("bridge", t.bridge.toJson),
      ("sending_account", t.sendingAccount.toJson), ("reward_account", t.rewardAccount.toJson),
      ("other_chain_destination", .ofOption AccountId.toJson destination),
      ("success", .bool t.success)]
  | createAccount t count reward destination =>
    .object [("kind", .string "create_account"), ("source", t.source.toJson),
      ("transaction_id", .string t.transactionId),
      ("ledger_sequence", .integer t.ledgerSequence.toNat), ("create_count", .integer count.toNat),
      ("delivered_amount", t.deliveredAmount.toJson), ("reward_amount", reward.toJson),
      ("bridge", t.bridge.toJson), ("sending_account", t.sendingAccount.toJson),
      ("reward_account", t.rewardAccount.toJson),
      ("other_chain_destination", destination.toJson), ("success", .bool t.success)]

open Decode

def claimFields : Record Event :=
  (fun source id ledger sequence amount bridge sender reward destination success =>
    claim ⟨source, id, ledger, amount, bridge, sender, reward, success⟩ sequence destination)
    <$> Record.required "source" (Role.ofJson .tagged)
    <*> Record.required "transaction_id" Decode.string
    <*> Record.required "ledger_sequence" Decode.uint32
    <*> Record.required "claim_sequence" Decode.uint64
    <*> Record.required "delivered_amount" Amount.ofJson
    <*> Record.required "bridge" (Bridge.ofJson .tagged)
    <*> Record.required "sending_account" AccountId.ofJson
    <*> Record.required "reward_account" AccountId.ofJson
    <*> Record.optional "other_chain_destination" AccountId.ofJson
    <*> Record.required "success" Decode.bool

def createFields : Record Event :=
  (fun source id ledger count amount reward bridge sender rewarded destination success =>
    createAccount ⟨source, id, ledger, amount, bridge, sender, rewarded, success⟩ count reward
      destination)
    <$> Record.required "source" (Role.ofJson .tagged)
    <*> Record.required "transaction_id" Decode.string
    <*> Record.required "ledger_sequence" Decode.uint32
    <*> Record.required "create_count" Decode.uint64
    <*> Record.required "delivered_amount" Amount.ofJson
    <*> Record.required "reward_amount" Amount.ofJson
    <*> Record.required "bridge" (Bridge.ofJson .tagged)
    <*> Record.required "sending_account" AccountId.ofJson
    <*> Record.required "reward_account" AccountId.ofJson
    <*> Record.required "other_chain_destination" AccountId.ofJson
    <*> Record.required "success" Decode.bool

/-- Decodes the fields of a transfer of that kind. -/
def ofFields : TransferKind → Decoder Event
  | .claim => claimFields.decode "ClaimEvent" false .tagged
  | .createAccount => createFields.decode "AccountCreateEvent" false .tagged

def kindOfJson : Decoder TransferKind
  | .string s => findName (TransferKind.all.map fun k => (k.name, k)) s
  | j => fail j "variant identifier"

/-- The kind is read first. It stands in a member of its own, or at the head of an array. -/
def ofJson : Decoder Event
  | .object members =>
    match Record.lookup "kind" members with
    | none => .error (.missingField "kind")
    | some kind => do
      let kind ← kindOfJson kind
      ofFields kind (.object members)
  | .array [] => .error (.missingField "kind")
  | .array (kind :: items) => do
    let kind ← kindOfJson kind
    ofFields kind (.array items)
  | j => fail j "internally tagged enum ChainEvent"

end Event

end Attestor
