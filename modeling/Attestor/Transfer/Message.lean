import Attestor.Bridge
import Attestor.Bytes
import Attestor.Transfer.Key

namespace Attestor.Message

def version : UInt8 :=
  1

def nativeTag : UInt8 :=
  0

def issuedTag : UInt8 :=
  1

/-- A length in two bytes and the text. Accounts and currencies are shorter than 65536 bytes. -/
def text (s : String) : Bytes :=
  Bytes.bigEndian 2 s.utf8ByteSize ++ Bytes.ofString s

def issue : Issue → Bytes
  | .native => [nativeTag]
  | .issued currency issuer => issuedTag :: (text currency.code ++ text issuer.text)

def bridge (b : Bridge) : Bytes :=
  text b.lockingDoor.text ++ issue b.lockingIssue ++ text b.issuingDoor.text ++ issue b.issuingIssue

def amount : Amount → Bytes
  | .native drops => nativeTag :: Bytes.bigEndian 8 drops.toNat
  | .issued value currency issuer =>
    issuedTag :: (Bytes.bigEndian 8 value.mantissa.toUInt64.toNat
      ++ Bytes.bigEndian 4 value.exponent.toUInt32.toNat ++ text currency.code ++ text issuer.text)

/-- The message that is signed for a transfer. Every part tells its own length, so two transfers
never share a message. -/
def encode (b : Bridge) (a : Amount) (key : ClaimKey) (direction : Direction) : Bytes :=
  version :: key.tag ::
    (bridge b ++ amount a ++ Bytes.bigEndian 8 key.value.toNat ++ [direction.tag])

end Attestor.Message
