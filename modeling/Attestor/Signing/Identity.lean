import Attestor.Asset.Account
import Attestor.Ed25519
import Attestor.Hash.Blake3
import Attestor.Text.Hex

namespace Attestor

inductive IdentityError where
  | keyLength (length : Nat)
  | signingAccount (e : ValueError)
  | notPoint
  | signatureLength (length : Nat)
  deriving DecidableEq, Repr

/-- The length of a secret key and of a public key. -/
def keyLength : Nat :=
  32

namespace IdentityError

def message : IdentityError → String
  | keyLength length =>
    "Invalid key length: " ++ toString length ++ " (expected " ++ toString Attestor.keyLength ++ ")"
  | signingAccount e => "Invalid signing account: " ++ e.message
  | notPoint => "Cryptographic error: the key is no point of the curve"
  | signatureLength length =>
    "Cryptographic error: a signature has 64 bytes, not " ++ toString length

end IdentityError

/-- One key pair and the account that it attests for. -/
structure Identity where
  secret : Bytes
  publicKey : Bytes
  keyId : String
  signingAccount : AccountId

namespace Identity

/-- The first half of the hash of the public key, in hexadecimal. -/
def keyIdOf (publicKey : Bytes) : String :=
  Text.Hex.encode ((Hash.Blake3.hash publicKey).take 16)

/-- Without an account of its own the identity attests under its key id. -/
def ofSecret (secret : Bytes) (account : Option AccountId) : Except IdentityError Identity :=
  if secret.length ≠ keyLength then .error (.keyLength secret.length)
  else
    let publicKey := Ed25519.publicKey secret
    let keyId := keyIdOf publicKey
    match account with
    | some a => .ok ⟨secret, publicKey, keyId, a⟩
    | none => do
      let a ← (AccountId.ofString keyId).mapError .signingAccount
      return ⟨secret, publicKey, keyId, a⟩

def sign (i : Identity) (message : Bytes) : Bytes :=
  Ed25519.signWith i.secret i.publicKey message

/-- Names the key and the account. The secret is not shown. -/
def summary (i : Identity) : String :=
  "Identity \x7b key_id: " ++ Text.Quoted.string i.keyId ++ ", signing_account: AccountId("
    ++ Text.Quoted.string i.signingAccount.text ++ "), .. \x7d"

end Identity

/-- Whether the signature is one of the message under the key. Keys and signatures that cannot be
any are errors. -/
def verifySignature (publicKey message signature : Bytes) : Except IdentityError Bool :=
  if publicKey.length ≠ keyLength then .error (.keyLength publicKey.length)
  else match Ed25519.Point.decode? publicKey with
    | none => .error .notPoint
    | some point =>
      if signature.length ≠ 64 then .error (.signatureLength signature.length)
      else .ok (Ed25519.verifyWith point publicKey message signature)

/-- An identity and the number of messages it has signed. -/
structure Signer where
  identity : Identity
  signed : Nat

namespace Signer

/-- A signer that has not signed yet. -/
def ofIdentity (i : Identity) : Signer :=
  ⟨i, 0⟩

/-- One more message is signed. -/
def count (s : Signer) : Signer :=
  { s with signed := s.signed + 1 }

def sign (s : Signer) (message : Bytes) : Bytes × Signer :=
  (s.identity.sign message, s.count)

end Signer

end Attestor
