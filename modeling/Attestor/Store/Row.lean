import Attestor.Hash.Blake3
import Attestor.Json.Reader
import Attestor.Transfer.Attestation

namespace Attestor

/-- The key under which the rows of a bridge are kept apart from those of others. -/
def Bridge.partitionKey (b : Bridge) : Bytes :=
  Hash.Blake3.hash (Bytes.ofString b.canonicalText)

/-- Amounts and bridges are kept as JSON text and numbers as 64-bit integers, so a row can hold what
is no attestation. -/
structure Row where
  bridgeKey : Bytes
  transactionId : String
  ledgerSequence : Int64
  number : Int64
  success : Int64
  deliveredAmount : String
  /-- the rows of account creations only -/
  rewardAmount : Option String
  bridge : String
  sendingAccount : String
  rewardAccount : String
  destination : Option String
  signingAccount : String
  publicKey : Bytes
  signature : Bytes
  deriving DecidableEq

namespace Row

def amountText (a : Amount) : String :=
  a.toJson.compact

/-- A claim's reward is not stored. -/
def ofAttestation (a : Attestation) : Row where
  bridgeKey := a.bridge.partitionKey
  transactionId := a.transactionId
  ledgerSequence := a.ledgerSequence.toUInt64.toInt64
  number := a.key.value.toInt64
  success := if a.success then 1 else 0
  deliveredAmount := amountText a.deliveredAmount
  rewardAmount := if a.isAccountCreate then a.rewardAmount.map amountText else none
  bridge := a.bridge.canonicalText
  sendingAccount := a.sendingAccount.text
  rewardAccount := a.rewardAccount.text
  destination := a.destination.map AccountId.text
  signingAccount := a.signingAccount.text
  publicKey := a.publicKey
  signature := a.signature

/-- A ledger number, unless the column holds another integer. -/
def ledger? (n : Int64) : Option UInt32 :=
  if FitsUnsigned 32 n.toInt then some (UInt32.ofNat n.toInt.toNat) else none

def decodeText? (decode : Decoder α) (text : String) : Option α :=
  match Json.document? text with
  | some j => (decode j).toOption
  | none => none

def account? (text : String) : Option AccountId :=
  (AccountId.ofString text).toOption

/-- The attestation in a row of that kind and direction, if every column is in order. -/
def attestation? (kind : TransferKind) (direction : Direction) (r : Row) : Option Attestation := do
  let ledgerSequence ← ledger? r.ledgerSequence
  let deliveredAmount ← decodeText? Amount.ofJson r.deliveredAmount
  let rewardAmount ← match kind with
    | .claim => some none
    | .createAccount => ((← r.rewardAmount) |> decodeText? Amount.ofJson).map some
  let bridge ← decodeText? (Bridge.ofJson .plain) r.bridge
  let sendingAccount ← account? r.sendingAccount
  let rewardAccount ← account? r.rewardAccount
  let destination ← match r.destination with
    | none => some none
    | some text => (account? text).map some
  let signingAccount ← account? r.signingAccount
  return {
    direction, ledgerSequence, deliveredAmount, rewardAmount, bridge, sendingAccount, rewardAccount,
    destination, signingAccount
    key := kind.key r.number.toUInt64
    transactionId := r.transactionId
    success := r.success != 0
    publicKey := r.publicKey
    signature := r.signature }

/-- Whether two rows may not stand in one table. -/
def conflicts (r s : Row) : Bool :=
  r.bridgeKey == s.bridgeKey && (r.transactionId == s.transactionId || r.number == s.number)

end Row

end Attestor
