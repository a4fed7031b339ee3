import Attestor.Bridge.Codec
import Attestor.Config.Mode
import Attestor.Text.Blank
import Attestor.Toml.Document

namespace Attestor

inductive LogFormat where
  | pretty
  | json
  deriving DecidableEq, Repr

namespace LogFormat

def all : List LogFormat :=
  [pretty, json]

def name : LogFormat → String
  | pretty => "pretty"
  | json => "json"

end LogFormat

structure NodeSection where
  databasePath : String
  logFormat : LogFormat
  retryDelay : UInt64
  mode : Mode
  deriving DecidableEq

structure SigningSection where
  key : String
  account : Option AccountId
  deriving DecidableEq

/-- The sections of a configuration. They take no unknown fields, and only the node's own may be
left out. -/
structure Config where
  node : NodeSection
  signing : SigningSection
  bridge : Bridge
  deriving DecidableEq

inductive ConfigError where
  | malformed
  | decode (e : DecodeError)
  | bridge (e : ValueError)
  | emptyKey
  | emptyPath

/-- What the reader of a malformed text says itself is left out. -/
def ConfigError.message : ConfigError → String
  | malformed => "Failed to parse configuration"
  | decode e => e.message
  | bridge e => "Invalid configuration: " ++ e.message
  | emptyKey => "Invalid configuration: signing.key must not be empty"
  | emptyPath => "Invalid configuration: node.db_path is required in persistent mode"

namespace NodeSection

open Decode

def standard : NodeSection :=
  ⟨"witness.db", .pretty, 1000, .persistent⟩

def fields : Record NodeSection :=
  NodeSection.mk <$> Record.defaulted "db_path" Decode.string standard.databasePath
    <*> Record.defaulted "log_format"
      (Decode.name .document (LogFormat.all.map fun f => (f.name, f))) standard.logFormat
    <*> Record.defaulted "retry_delay_ms" Decode.uint64 standard.retryDelay
    <*> Record.defaulted "mode" (Decode.name .document (Mode.all.map fun m => (m.name, m)))
      standard.mode

def ofJson : Decoder NodeSection :=
  fields.decode "NodeSection" true .document

def toJson (s : NodeSection) : Json :=
  .object [("db_path", .string s.databasePath), ("log_format", .string s.logFormat.name),
    ("retry_delay_ms", .integer s.retryDelay.toNat), ("mode", .string s.mode.name)]

end NodeSection

namespace SigningSection

open Decode

def fields : Record SigningSection :=
  SigningSection.mk <$> Record.required "key" Decode.string
    <*> Record.defaulted "signing_account" (Decode.optional AccountId.ofJson) none

def ofJson : Decoder SigningSection :=
  fields.decode "SigningSection" true .document

def toJson (s : SigningSection) : Json :=
  .object [("key", .string s.key),
    ("signing_account", .ofOption AccountId.toJson s.account)]

end SigningSection

namespace Config

open Decode

def fields : Record Config :=
  Config.mk <$> Record.defaulted "node" NodeSection.ofJson .standard
    <*> Record.required "signing" SigningSection.ofJson
    <*> Record.required "bridge" (Bridge.ofJson .document)

def ofJson : Decoder Config :=
  fields.decode "NodeConfig" true .document

def toJson (c : Config) : Json :=
  .object [("node", c.node.toJson), ("signing", c.signing.toJson), ("bridge", c.bridge.toJson)]

/-- The bridge is judged first, then the key, then the path. -/
def validate (c : Config) : Except ConfigError Unit := do
  c.bridge.validate.mapError .bridge
  if Text.trim c.signing.key = "" then .error .emptyKey
  else if c.node.mode = .persistent ∧ c.node.databasePath = "" then .error .emptyPath
  else .ok ()

/-- The configuration in the text of a file. -/
def ofText (text : String) : Except ConfigError Config := do
  let document ← match Toml.document? text with
    | some j => .ok j
    | none => .error .malformed
  let config ← (ofJson document).mapError .decode
  config.validate
  return config

end Config

end Attestor
