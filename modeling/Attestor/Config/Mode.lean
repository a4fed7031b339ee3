namespace Attestor

/-- Whether a node keeps attestations or signs on request. -/
inductive Mode where
  | persistent
  | stateless
  deriving DecidableEq, Repr

namespace Mode

def all : List Mode :=
  [persistent, stateless]

def name : Mode → String
  | persistent => "persistent"
  | stateless => "stateless"

/-- The mode at the head of a phrase. -/
def title : Mode → String
  | persistent => "Persistent"
  | stateless => "Stateless"

end Mode

end Attestor
