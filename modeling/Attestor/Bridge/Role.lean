namespace Attestor

/-- The locking chain holds the asset; the issuing chain has its counterpart. -/
inductive Role where
  | locking
  | issuing
  deriving DecidableEq, Repr

/-- Each direction has one source, so a transfer's direction and its source determine each other. -/
inductive Direction where
  | lockingToIssuing
  | issuingToLocking
  deriving DecidableEq, Repr

namespace Role

/-- The order in which both chains are visited. -/
def all : List Role :=
  [locking, issuing]

def other : Role → Role
  | locking => issuing
  | issuing => locking

def name : Role → String
  | locking => "locking"
  | issuing => "issuing"

def ofName? (name : String) : Option Role :=
  all.find? fun r => r.name == name

instance : ToString Role := ⟨name⟩

@[simp] theorem mem_all (r : Role) : r ∈ all := by
  cases r <;> decide

end Role

namespace Direction

def all : List Direction :=
  [lockingToIssuing, issuingToLocking]

/-- The direction of transfers that leave `source`. -/
def ofSource : Role → Direction
  | .locking => lockingToIssuing
  | .issuing => issuingToLocking

/-- The direction of transfers that arrive at `destination`. -/
def ofDestination (destination : Role) : Direction :=
  ofSource destination.other

def source : Direction → Role
  | lockingToIssuing => .locking
  | issuingToLocking => .issuing

def destination (d : Direction) : Role :=
  d.source.other

def reverse (d : Direction) : Direction :=
  ofSource d.destination

/-- The byte that stands for the direction in a message. -/
def tag : Direction → UInt8
  | lockingToIssuing => 0
  | issuingToLocking => 1

def name : Direction → String
  | lockingToIssuing => "locking_to_issuing"
  | issuingToLocking => "issuing_to_locking"

instance : ToString Direction := ⟨name⟩

@[simp] theorem source_ofSource (r : Role) : (ofSource r).source = r := by
  cases r <;> rfl

@[simp] theorem ofSource_source (d : Direction) : ofSource d.source = d := by
  cases d <;> rfl

@[simp] theorem mem_all (d : Direction) : d ∈ all := by
  cases d <;> decide

end Direction

/-- One thing for each chain. -/
structure ByRole (α : Type) where
  locking : α
  issuing : α
  deriving DecidableEq

namespace ByRole

def get (b : ByRole α) : Role → α
  | .locking => b.locking
  | .issuing => b.issuing

def set (b : ByRole α) (r : Role) (a : α) : ByRole α :=
  match r with
  | .locking => { b with locking := a }
  | .issuing => { b with issuing := a }

def modify (b : ByRole α) (r : Role) (f : α → α) : ByRole α :=
  b.set r (f (b.get r))

def both (a : α) : ByRole α :=
  ⟨a, a⟩

@[simp] theorem get_set_self (b : ByRole α) (r : Role) (a : α) : (b.set r a).get r = a := by
  cases r <;> rfl

theorem get_set_of_ne (b : ByRole α) {r s : Role} (h : s ≠ r) (a : α) :
    (b.set r a).get s = b.get s := by
  cases r <;> cases s <;> first | rfl | exact absurd rfl h

@[simp] theorem get_both (a : α) (r : Role) : (both a).get r = a := by
  cases r <;> rfl

end ByRole

end Attestor
