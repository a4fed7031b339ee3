import Attestor.Decode.Basic

namespace Attestor

/-- The sequence number of a claim, or the count of an account creation. They are numbered apart. -/
inductive ClaimKey where
  | claim (sequence : UInt64)
  | createAccount (count : UInt64)
  deriving DecidableEq, Repr

/-- The two kinds of transfer. -/
inductive TransferKind where
  | claim
  | createAccount
  deriving DecidableEq, Repr

namespace TransferKind

def all : List TransferKind :=
  [claim, createAccount]

def name : TransferKind → String
  | claim => "claim"
  | createAccount => "create_account"

/-- The key of this kind with that number. -/
def key : TransferKind → UInt64 → ClaimKey
  | claim, n => .claim n
  | createAccount, n => .createAccount n

@[simp] theorem mem_all (k : TransferKind) : k ∈ all := by
  cases k <;> decide

end TransferKind

namespace ClaimKey

def value : ClaimKey → UInt64
  | claim n | createAccount n => n

def kind : ClaimKey → TransferKind
  | claim _ => .claim
  | createAccount _ => .createAccount

/-- The byte that stands for the kind in a message. -/
def tag : ClaimKey → UInt8
  | claim _ => 1
  | createAccount _ => 2

def toString : ClaimKey → String
  | claim n => "claim#" ++ ToString.toString n.toNat
  | createAccount n => "create#" ++ ToString.toString n.toNat

instance : ToString ClaimKey := ⟨toString⟩

@[simp] theorem key_kind_value (k : ClaimKey) : k.kind.key k.value = k := by
  cases k <;> rfl

def toJson (k : ClaimKey) : Json :=
  .object [(k.kind.name, .integer k.value.toNat)]

def ofJson : Decoder ClaimKey :=
  Decode.choice (TransferKind.all.map fun k => (k.name, fun j => (Decode.uint64 j).map k.key))

end ClaimKey

end Attestor
