import Attestor.Asset.Amount
import Attestor.Bridge.Role

namespace Attestor

/-- One door account and one asset on each of two chains. The door that a transfer leaves through,
or arrives at, tells its direction. -/
structure Bridge where
  lockingDoor : AccountId
  lockingIssue : Issue
  issuingDoor : AccountId
  issuingIssue : Issue
  deriving DecidableEq

namespace Bridge

/-- Shared doors are reported before mixed assets. -/
def validate (b : Bridge) : Except ValueError Unit :=
  if b.lockingDoor = b.issuingDoor then .error (.sharedDoor b.lockingDoor.text)
  else if b.lockingIssue.isNative ≠ b.issuingIssue.isNative then .error .mixedAssets
  else .ok ()

def door (b : Bridge) : Role → AccountId
  | .locking => b.lockingDoor
  | .issuing => b.issuingDoor

def issue (b : Bridge) : Role → Issue
  | .locking => b.lockingIssue
  | .issuing => b.issuingIssue

/-- The chain that an account is the door of. A shared door counts as the locking one. -/
def roleOfDoor? (b : Bridge) (account : AccountId) : Option Role :=
  Role.all.find? fun r => b.door r = account

/-- The direction of transfers that leave through `door`. -/
def fromDoor? (b : Bridge) (door : AccountId) : Option Direction :=
  (b.roleOfDoor? door).map Direction.ofSource

/-- The direction of transfers that arrive at `door`. -/
def towardsDoor? (b : Bridge) (door : AccountId) : Option Direction :=
  (b.roleOfDoor? door).map Direction.ofDestination

def toString (b : Bridge) : String :=
  b.lockingDoor.text ++ ":" ++ b.lockingIssue.toString ++ " <-> " ++ b.issuingDoor.text ++ ":"
    ++ b.issuingIssue.toString

instance : ToString Bridge := ⟨toString⟩

end Bridge

end Attestor
