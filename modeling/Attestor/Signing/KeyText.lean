import Attestor.Hash.Sha256
import Attestor.Hash.Sha512
import Attestor.Signing.Identity
import Attestor.Text.Base58
import Attestor.Text.Blank

namespace Attestor

/-- The spellings of a signing key: a secret key in hexadecimal, a seed in base58 with a checksum,
or a seed in hexadecimal. -/
inductive KeyEncoding where
  | secretHex
  | seedBase58
  | seedHex
  deriving DecidableEq, Repr

/-- Why a text is not spelled in one of the encodings. -/
inductive KeyFault where
  | digitCount (expected found : Nat)
  | hex (e : Text.Hex.Fault)
  | base58 (e : Text.Base58.Fault)
  | noVersion (length : Nat)
  | checksum
  deriving DecidableEq, Repr

def KeyFault.message : KeyFault → String
  | digitCount expected found =>
    "expected " ++ toString expected ++ " hex digits, got " ++ toString found
  | hex e => e.message
  | base58 e => e.message
  | noVersion length => "no known seed prefix for a " ++ toString length ++ "-byte payload"
  | checksum => "checksum mismatch"

namespace KeyEncoding

/-- The order in which the spellings are tried. -/
def all : List KeyEncoding :=
  [secretHex, seedBase58, seedHex]

def name : KeyEncoding → String
  | secretHex => "secret-hex"
  | seedBase58 => "seed-base58"
  | seedHex => "seed-hex"

end KeyEncoding

structure KeyAttempt where
  encoding : KeyEncoding
  fault : KeyFault
  deriving DecidableEq, Repr

inductive KeyError where
  | unrecognized (attempts : List KeyAttempt)
  | identity (e : IdentityError)
  deriving DecidableEq, Repr

def KeyAttempt.message (a : KeyAttempt) : String :=
  a.encoding.name ++ ": " ++ a.fault.message

def KeyError.message : KeyError → String
  | unrecognized attempts =>
    "Unrecognized key material: " ++ "; ".intercalate (attempts.map KeyAttempt.message)
  | identity e => e.message

namespace KeyText

def seedLength : Nat :=
  16

def checksumLength : Nat :=
  4

/-- The bytes that mark a seed, of either kind. -/
def versions : List Bytes :=
  [[0x21], [0x01, 0xE1, 0x4B]]

/-- The secret key that a seed stands for: the first half of its hash. -/
def secretOfSeed (seed : Bytes) : Bytes :=
  (Hash.Sha512.hash seed).take keyLength

def checksum (payload : Bytes) : Bytes :=
  (Hash.Sha256.hash (Hash.Sha256.hash payload)).take checksumLength

/-- Exactly `length` bytes in hexadecimal. -/
def decodeHex (length : Nat) (text : String) : Except KeyFault Bytes :=
  if text.utf8ByteSize ≠ 2 * length then .error (.digitCount (2 * length) text.utf8ByteSize)
  else (Text.Hex.decode text).mapError .hex

/-- A version, the seed and a checksum of both. -/
def decodeSeed (text : String) : Except KeyFault Bytes := do
  let raw ← (Text.Base58.decode (Bytes.ofString text)).mapError .base58
  match versions.find? fun v =>
      raw.length = v.length + seedLength + checksumLength ∧ raw.take v.length = v with
  | none => .error (.noVersion raw.length)
  | some version =>
    let payload := raw.take (raw.length - checksumLength)
    if raw.drop (raw.length - checksumLength) = checksum payload then
      return payload.drop version.length
    else .error .checksum

def decodeAs (text : String) : KeyEncoding → Except KeyFault Bytes
  | .secretHex => decodeHex keyLength text
  | .seedBase58 => (decodeSeed text).map secretOfSeed
  | .seedHex => (decodeHex seedLength text).map secretOfSeed

/-- The first of the encodings that accepts, or all their refusals after those `before`. -/
def decodeFirst (text : String) (before : List KeyAttempt) :
    List KeyEncoding → Except KeyError Bytes
  | [] => .error (.unrecognized before)
  | encoding :: rest =>
    match decodeAs text encoding with
    | .ok secret => .ok secret
    | .error fault => decodeFirst text (before ++ [⟨encoding, fault⟩]) rest

/-- The secret key that a text spells. White space around it does not count. -/
def decode (text : String) : Except KeyError Bytes :=
  decodeFirst (Text.trim text) [] KeyEncoding.all

/-- The identity of a configured key and account. -/
def identity (key : String) (account : Option AccountId) : Except KeyError Identity := do
  (Identity.ofSecret (← decode key) account).mapError .identity

end KeyText

end Attestor
