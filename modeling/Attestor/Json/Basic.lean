import Attestor.Text.Shortest

namespace Attestor

/-- Objects keep their members in a list, in the order of a text or in key order. -/
inductive Json where
  | null
  | bool (b : Bool)
  | integer (n : Int)
  | float (x : Float)
  | string (s : String)
  | array (items : List Json)
  | object (members : List (String × Json))

namespace Json

instance : Inhabited Json := ⟨null⟩

/-- Null for what is absent. -/
def ofOption (toJson : α → Json) (a : Option α) : Json :=
  (a.map toJson).getD null

/-- Places are written out from 0.00001 up to sixteen digits before the point. -/
def numberLayout : Text.Shortest.Layout :=
  ⟨-5, 15⟩

/-- The member of that name, the last of several. -/
def member? (name : String) : Json → Option Json
  | object members => (members.findRev? fun m => m.1 == name).map (·.2)
  | _ => none

/-- Puts a member into its place by key, over an earlier one of the same key. -/
def insertMember (name : String) (value : Json) : List (String × Json) → List (String × Json)
  | [] => [(name, value)]
  | (other, old) :: rest =>
    if name = other then (name, value) :: rest
    else if name < other then (name, value) :: (other, old) :: rest
    else (other, old) :: insertMember name value rest

/-- The members in key order, the last of equal keys remaining. -/
def sortMembers (members : List (String × Json)) : List (String × Json) :=
  members.foldl (fun done m => insertMember m.1 m.2 done) []

mutual

/-- The value with every object in key order. -/
def sorted : Json → Json
  | array items => array (sortedItems items)
  | object members => object (sortMembers (sortedMembers members))
  | null => null
  | bool b => bool b
  | integer n => integer n
  | float x => float x
  | string s => string s

def sortedItems : List Json → List Json
  | [] => []
  | j :: rest => sorted j :: sortedItems rest

def sortedMembers : List (String × Json) → List (String × Json)
  | [] => []
  | (name, j) :: rest => (name, sorted j) :: sortedMembers rest

end

end Json

end Attestor
