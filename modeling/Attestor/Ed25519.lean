import Attestor.Ed25519.Curve
import Attestor.Hash.Sha512

namespace Attestor.Ed25519

def hashNat (bytes : Bytes) : Nat :=
  Bytes.toNatLittle (Hash.Sha512.hash bytes)

/-- The secret scalar: the low half of the hashed key with its ends fixed. -/
def secretScalar (secret : Bytes) : Nat :=
  let low := Bytes.toNatLittle ((Hash.Sha512.hash secret).take 32)
  twoPow 254 + (low % twoPow 254) / 8 * 8

def publicKey (secret : Bytes) : Bytes :=
  (Point.base.scale (secretScalar secret)).encode

/-- Signs with a secret whose public key is at hand. -/
def signWith (secret pub message : Bytes) : Bytes :=
  let nonceKey := (Hash.Sha512.hash secret).drop 32
  let nonce := hashNat (nonceKey ++ message) % order
  let commitment := (Point.base.scale nonce).encode
  let challenge := hashNat (commitment ++ pub ++ message) % order
  commitment ++ Bytes.littleEndian 32 ((nonce + challenge * secretScalar secret) % order)

/-- Whether 64 bytes sign the message under the key `pub`, whose point is `key`. The first half is
recomputed and compared byte for byte, without a cofactor. -/
def verifyWith (key : Point) (pub message signature : Bytes) : Bool :=
  let commitment := signature.take 32
  let response := Bytes.toNatLittle (signature.drop 32)
  let challenge := hashNat (commitment ++ pub ++ message) % order
  response < order
    && ((Point.base.scale response).add (key.negate.scale challenge)).encode == commitment

end Attestor.Ed25519
