import Attestor.Asset.Codec
import Attestor.Bridge
import Attestor.Json.Printer

namespace Attestor

open Decode

namespace Role

def toJson (r : Role) : Json :=
  .string r.name

def ofJson (d : Dialect) : Decoder Role :=
  Decode.name d (all.map fun r => (r.name, r))

end Role

namespace Direction

def toJson (d : Direction) : Json :=
  .string d.name

def ofJson (dialect : Dialect) : Decoder Direction :=
  Decode.name dialect (all.map fun d => (d.name, d))

end Direction

namespace Bridge

def toJson (b : Bridge) : Json :=
  .object [("locking_chain_door", b.lockingDoor.toJson),
    ("locking_chain_issue", b.lockingIssue.toJson),
    ("issuing_chain_door", b.issuingDoor.toJson),
    ("issuing_chain_issue", b.issuingIssue.toJson)]

def fields : Record Bridge :=
  Bridge.mk <$> Record.required "locking_chain_door" AccountId.ofJson
    <*> Record.required "locking_chain_issue" Issue.ofJson
    <*> Record.required "issuing_chain_door" AccountId.ofJson
    <*> Record.required "issuing_chain_issue" Issue.ofJson

/-- Decoding does not validate the bridge. -/
def ofJson (d : Dialect) : Decoder Bridge :=
  fields.decode "BridgeDescriptor" true d

/-- The text that identifies the bridge. -/
def canonicalText (b : Bridge) : String :=
  b.toJson.compact

end Bridge

end Attestor
