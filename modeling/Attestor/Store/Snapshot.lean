import Attestor.Decode.Record
import Attestor.Json.Reader
import Attestor.Store.Database

namespace Attestor

open Decode

/-- An integer of 64 bits with a sign. -/
def Decode.int64 : Decoder Int64
  | .integer n =>
    if FitsSigned 64 n then .ok (Int64.ofInt n) else .error (.wrongValue (.integer n) "i64")
  | j => fail j "i64"

namespace Row

def toJson (r : Row) : Json :=
  .object [("bridge_key", .string (Text.Hex.encode r.bridgeKey)),
    ("transaction_id", .string r.transactionId),
    ("ledger_sequence", .integer r.ledgerSequence.toInt),
    ("number", .integer r.number.toInt), ("success", .integer r.success.toInt),
    ("delivered_amount", .string r.deliveredAmount),
    ("reward_amount", .ofOption .string r.rewardAmount), ("bridge", .string r.bridge),
    ("sending_account", .string r.sendingAccount), ("reward_account", .string r.rewardAccount),
    ("destination", .ofOption .string r.destination),
    ("signing_account", .string r.signingAccount),
    ("public_key", .string (Text.Hex.encode r.publicKey)),
    ("signature", .string (Text.Hex.encode r.signature))]

def fields : Record Row :=
  Row.mk <$> Record.required "bridge_key" Decode.hex
    <*> Record.required "transaction_id" Decode.string
    <*> Record.required "ledger_sequence" Decode.int64
    <*> Record.required "number" Decode.int64
    <*> Record.required "success" Decode.int64
    <*> Record.required "delivered_amount" Decode.string
    <*> Record.optional "reward_amount" Decode.string
    <*> Record.required "bridge" Decode.string
    <*> Record.required "sending_account" Decode.string
    <*> Record.required "reward_account" Decode.string
    <*> Record.optional "destination" Decode.string
    <*> Record.required "signing_account" Decode.string
    <*> Record.required "public_key" Decode.hex
    <*> Record.required "signature" Decode.hex

def ofJson : Decoder Row :=
  fields.decode "Row" true .plain

end Row

namespace CheckpointRow

def toJson (r : CheckpointRow) : Json :=
  .object [("transaction_id", .ofOption .string r.transactionId),
    ("ledger_sequence", .integer r.ledgerSequence.toInt)]

def fields : Record CheckpointRow :=
  CheckpointRow.mk <$> Record.optional "transaction_id" Decode.string
    <*> Record.required "ledger_sequence" Decode.int64

def ofJson : Decoder CheckpointRow :=
  fields.decode "CheckpointRow" true .plain

end CheckpointRow

namespace ByRole

def toJson (toJson : α → Json) (b : ByRole α) : Json :=
  .object (Role.all.map fun role => (role.name, toJson (b.get role)))

def ofJson (decode : Decoder α) : Decoder (ByRole α) :=
  (ByRole.mk <$> Record.required Role.locking.name decode
    <*> Record.required Role.issuing.name decode).decode "ByRole" true .plain

end ByRole

namespace Database

def toJson (db : Database) : Json :=
  let rows (rows : List Row) : Json := .array (rows.map Row.toJson)
  .object [("claims", db.claims.toJson rows), ("creates", db.creates.toJson rows),
    ("checkpoints", .ofOption (ByRole.toJson (.ofOption CheckpointRow.toJson)) db.checkpoints)]

def fields : Record Database :=
  Database.mk <$> Record.required "claims" (ByRole.ofJson (Decode.list Row.ofJson))
    <*> Record.required "creates" (ByRole.ofJson (Decode.list Row.ofJson))
    <*> Record.optional "checkpoints" (ByRole.ofJson (Decode.optional CheckpointRow.ofJson))

def ofJson : Decoder Database :=
  fields.decode "Database" true .plain

/-- One JSON object with the tables and the checkpoints, and whether changes go through a log. -/
def toText (logged : Bool) (db : Database) : String :=
  (Json.object [("logged", .bool logged), ("database", db.toJson)]).compact

/-- The database in the text of a file, and whether its changes go through a log. -/
def ofText? (text : String) : Option (Bool × Database) := do
  let j ← Json.value? text
  let fields := Prod.mk <$> Record.required "logged" Decode.bool
    <*> Record.required "database" ofJson
  (fields.decode "Snapshot" true .plain j).toOption

end Database

end Attestor
