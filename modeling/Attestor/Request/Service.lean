import Attestor.Config.Mode
import Attestor.Json.Reader
import Attestor.Request.Response
import Attestor.Witness.Engine

namespace Attestor

/-- With a store the service looks attestations up, and never signs. Without one it signs what
callers describe. -/
inductive Service where
  | persistent (bridge : Bridge) (resources : Resources)
  | stateless (bridge : Bridge) (signer : Signer) (signal : Signal)

namespace Service

/-- The version that status reports name. -/
def version : String :=
  "0.2.0"

def mode : Service → Mode
  | persistent .. => .persistent
  | stateless .. => .stateless

def bridge : Service → Bridge
  | persistent b _ | stateless b .. => b

def signer : Service → Signer
  | persistent _ r => r.signer
  | stateless _ s _ => s

def signal : Service → Signal
  | persistent _ r => r.signal
  | stateless _ _ s => s

def store? : Service → Option Store
  | persistent _ r => some r.store
  | stateless .. => none

def setSignal (s : Service) (signal : Signal) : Service :=
  match s with
  | persistent b r => persistent b { r with signal }
  | stateless b signer _ => stateless b signer signal

def witness (store : Store) (request : Request) : Response :=
  let parsed : Except Response (Bridge × Amount × UInt64 × AccountId) := do
    let bridge ← request.bridgeParam
    let amount ← request.param "amount" Amount.ofJson
    let sequence ← request.sequenceParam "sequence_number"
    let door ← request.param "door_account" AccountId.ofJson
    return (bridge, amount, sequence, door)
  match parsed with
  | .error response => response
  | .ok (bridge, amount, sequence, door) => .ofLookup (store.witness bridge amount sequence door)

def witnessAccountCreate (store : Store) (request : Request) : Response :=
  let parsed : Except Response (Bridge × UInt64 × AccountId) := do
    let bridge ← request.bridgeParam
    let count ← request.sequenceParam "create_count"
    let door ← request.param "door_account" AccountId.ofJson
    return (bridge, count, door)
  match parsed with
  | .error response => response
  | .ok (bridge, count, door) => .ofLookup (store.witnessAccountCreate bridge count door)

def sign (signer : Signer) (request : Request) : Response × Signer :=
  let parsed : Except Response (AccountId × Bridge × Amount × ClaimKey) := do
    let sequence ← request.sequenceParam "sequence_number"
    let create ← request.flagParam "create_account"
    let door ← request.param "dst_door" AccountId.ofJson
    let bridge ← request.bridgeParam
    let amount ← request.param "amount" Amount.ofJson
    return (door, bridge, amount, if create then .createAccount sequence else .claim sequence)
  match parsed with
  | .error response => (response, signer)
  | .ok (door, bridge, amount, key) =>
    match signer.signTransfer door bridge amount key with
    | (.ok signed, signer) => (.success signed.toJson, signer)
    | (.error e, signer) => (.ofQueryError "dst_door" e, signer)

/-- The checkpoints that exist, the locking chain's first. -/
def checkpoints (store : Store) : Except StoreError (List Checkpoint) := do
  let locking ← store.checkpoint .locking
  let issuing ← store.checkpoint .issuing
  return locking.toList ++ issuing.toList

def info (s : Service) (checkpoints : List Checkpoint) (engines : List (String × Json))
    (store : List (String × Json)) : Json :=
  let identity := s.signer.identity
  .object ([("version", .string version), ("mode", .string s.mode.name),
      ("public_key", .string (Text.Hex.encode identity.publicKey)),
      ("key_id", .string identity.keyId), ("signing_account", identity.signingAccount.toJson),
      ("bridge", s.bridge.toJson), ("checkpoints", .array (checkpoints.map Checkpoint.toJson)),
      ("engines", .object engines)]
    ++ store ++
    [("signing", .object [("messages_signed_total", .integer s.signer.signed)])])

def serverInfo (s : Service) : Response :=
  match s with
  | stateless .. => .success (s.info [] [] [])
  | persistent _ r =>
    match checkpoints r.store with
    | .error e => .error e.message
    | .ok checkpoints =>
      let engines := Role.all.map fun role => (role.name, (r.tallies.get role).toJson)
      .success (s.info checkpoints engines [("store", r.store.counts.toJson)])

def unavailable (s : Service) (method : String) : Response :=
  .error (method ++ " is not available in " ++ s.mode.title ++ " mode")

def handle (s : Service) (request : Request) : Response × Service :=
  match request.method, s with
  | "witness", persistent _ r => (witness r.store request, s)
  | "witness_account_create", persistent _ r => (witnessAccountCreate r.store request, s)
  | "sign", stateless bridge signer signal =>
    let (response, signer) := sign signer request
    (response, stateless bridge signer signal)
  | "server_info", _ => (s.serverInfo, s)
  | "stop", _ => (.success (.object [("message", .string "shutting down")]), s.setSignal .requested)
  | "witness", _ | "witness_account_create", _ | "sign", _ => (s.unavailable request.method, s)
  | method, _ => (.invalidField "method" ("unknown method " ++ method), s)

/-- A request that may not have the shape of one. -/
def handleJson (s : Service) (j : Json) : Response × Service :=
  match Request.ofJson j with
  | .ok request => s.handle request
  | .error e => (.invalidField "method" e.message, s)

/-- Answers one line. To one that is not JSON it says no more than that; where the text goes wrong
is left out of the message. -/
def handleLine (s : Service) (line : String) : Response × Service :=
  match Json.value? line with
  | some j => s.handleJson j
  | none => (.error "malformed request", s)

end Service

end Attestor
