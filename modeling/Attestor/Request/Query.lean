import Attestor.Signing.Identity
import Attestor.Store
import Attestor.Transfer.Message

namespace Attestor

inductive QueryError where
  | unknownDoor (door : AccountId)
  | bridge (e : ValueError)
  | store (e : StoreError)
  deriving DecidableEq

def QueryError.message : QueryError → String
  | unknownDoor door => "Door account " ++ door.text ++ " matches neither side of the bridge"
  | bridge e => "Invalid field 'bridge_descriptor': " ++ e.message
  | store e => "Storage error: " ++ e.message

/-- The direction of transfers that leave through the door. -/
def Bridge.resolve (b : Bridge) (door : AccountId) : Except QueryError Direction :=
  match b.fromDoor? door with
  | some direction => .ok direction
  | none => .error (.unknownDoor door)

namespace Store

/-- The attestation of a claim, if there is one yet. The bridge and the door are judged before the
store is read. -/
def witness (s : Store) (bridge : Bridge) (amount : Amount) (sequence : UInt64) (door : AccountId) :
    Except QueryError (Option Attestation) := do
  bridge.validate.mapError .bridge
  let direction ← bridge.resolve door
  (s.lookupClaim direction bridge sequence amount).mapError .store

/-- The attestation of an account creation, if there is one yet. -/
def witnessAccountCreate (s : Store) (bridge : Bridge) (count : UInt64) (door : AccountId) :
    Except QueryError (Option Attestation) := do
  bridge.validate.mapError .bridge
  let direction ← bridge.resolve door
  (s.lookupAccountCreate direction bridge count).mapError .store

end Store

structure SignedClaim where
  direction : Direction
  signingKey : Bytes
  signature : Bytes
  signingAccount : AccountId
  deriving DecidableEq

def SignedClaim.toJson (c : SignedClaim) : Json :=
  .object [("direction", c.direction.toJson),
    ("signing_key", .string (Text.Hex.encode c.signingKey)),
    ("signature", .string (Text.Hex.encode c.signature)),
    ("signing_account", c.signingAccount.toJson)]

/-- Signs a transfer towards a door. A refused transfer is not signed. -/
def Signer.signTransfer (s : Signer) (door : AccountId) (bridge : Bridge) (amount : Amount)
    (key : ClaimKey) : Except QueryError SignedClaim × Signer :=
  match bridge.validate with
  | .error e => (.error (.bridge e), s)
  | .ok () =>
    match bridge.towardsDoor? door with
    | none => (.error (.unknownDoor door), s)
    | some direction =>
      let (signature, signer) := s.sign (Message.encode bridge amount key direction)
      (.ok ⟨direction, s.identity.publicKey, signature, s.identity.signingAccount⟩, signer)

end Attestor
