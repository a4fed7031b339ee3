import Attestor.Asset.Error
import Attestor.Json.Basic
import Attestor.Text.Hex
import Attestor.Text.Quoted

namespace Attestor.Decode

/-- What stands where something else is wanted. -/
inductive Found where
  | null
  | bool (b : Bool)
  | integer (n : Int)
  | float (x : Float)
  | string (s : String)
  | sequence
  | map
  | bareName

def Found.ofJson : Json → Found
  | .null => null
  | .bool b => bool b
  | .integer n => integer n
  | .float x => float x
  | .string s => string s
  | .array _ => sequence
  | .object _ => map

def tick (s : String) : String :=
  "`" ++ s ++ "`"

def Found.text : Found → String
  | null => "null"
  | bool b => "boolean " ++ tick (toString b)
  | integer n => "integer " ++ tick (toString n)
  | float x => "floating point " ++ tick (String.ofList (Json.numberLayout.float x))
  | string s => "string " ++ Text.Quoted.string s
  | sequence => "sequence"
  | map => "map"
  | bareName => "unit variant"

end Attestor.Decode

namespace Attestor

/-- Why a JSON value is refused as the form of a domain value. -/
inductive DecodeError where
  | missingField (name : String)
  | unknownField (name : String) (expected : List String)
  | repeatedField (name : String)
  | unknownName (name : String) (expected : List String)
  | wrongType (found : Decode.Found) (wanted : String)
  | wrongValue (found : Decode.Found) (wanted : String)
  | wrongLength (length : Nat) (wanted : String)
  | noShape (type : String)
  | value (e : ValueError)
  | hex (e : Text.Hex.Fault)

namespace DecodeError

open Decode

/-- Two names are joined, more are listed. -/
def choices : List String → String
  | [] => ""
  | [a] => tick a
  | [a, b] => tick a ++ " or " ++ tick b
  | names => "one of " ++ ", ".intercalate (names.map tick)

def message : DecodeError → String
  | missingField name => "missing field " ++ tick name
  | unknownField name expected => "unknown field " ++ tick name ++ ", expected " ++ choices expected
  | repeatedField name => "duplicate field " ++ tick name
  | unknownName name expected =>
    "unknown variant " ++ tick name ++ ", expected " ++ choices expected
  | wrongType found wanted => "invalid type: " ++ found.text ++ ", expected " ++ wanted
  | wrongValue found wanted => "invalid value: " ++ found.text ++ ", expected " ++ wanted
  | wrongLength length wanted => "invalid length " ++ toString length ++ ", expected " ++ wanted
  | noShape type => "data did not match any variant of untagged enum " ++ type
  | value e => e.message
  | hex e => e.message

end DecodeError

end Attestor
