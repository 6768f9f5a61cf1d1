import Dataflow.Json.Token
import Dataflow.Text.Quoted

/-! # What can be wrong with a JSON document

A text may be malformed, or a value may not have the shape that is asked for. Both are causes; the
wording is in `ReadError.message`.
-/

namespace Dataflow.Json

/-- What stands where something else is wanted. -/
inductive Found where
  | null
  | bool (value : Bool)
  | integer (value : Int)
  | float (value : Float)
  | string (value : String)
  | sequence
  | map

/-- How a message names what was found. -/
def Found.message : Found → String
  | .null => "null"
  | .bool true => "boolean `true`"
  | .bool false => "boolean `false`"
  | .integer value => "integer `" ++ toString value ++ "`"
  | .float value => "floating point `" ++ floatText value ++ "`"
  | .string value => "string " ++ Text.quote value
  | .sequence => "sequence"
  | .map => "map"

/-- How a value fails to have the shape that is asked for. -/
inductive Mismatch where
  | wrongType (found : Found) (wanted : String)
  | wrongValue (found : Found) (wanted : String)
  | wrongLength (length : Nat) (wanted : String)
  | unknownVariant (name : String) (known : List String)
  | missingField (name : String)
  | duplicateField (name : String)
  /-- None of the forms that a type may be written in fits. -/
  | noForm (type : String)

/-- The names in backquotes, set apart by commas. -/
def nameList (names : List String) : String :=
  ", ".intercalate (names.map fun name => "`" ++ name ++ "`")

def Mismatch.message : Mismatch → String
  | .wrongType found wanted => "invalid type: " ++ found.message ++ ", expected " ++ wanted
  | .wrongValue found wanted => "invalid value: " ++ found.message ++ ", expected " ++ wanted
  | .wrongLength length wanted => "invalid length " ++ toString length ++ ", expected " ++ wanted
  | .unknownVariant name [] => "unknown variant `" ++ name ++ "`, there are no variants"
  | .unknownVariant name [known] =>
    "unknown variant `" ++ name ++ "`, expected `" ++ known ++ "`"
  | .unknownVariant name [first, second] =>
    "unknown variant `" ++ name ++ "`, expected `" ++ first ++ "` or `" ++ second ++ "`"
  | .unknownVariant name known =>
    "unknown variant `" ++ name ++ "`, expected one of " ++ nameList known
  | .missingField name => "missing field `" ++ name ++ "`"
  | .duplicateField name => "duplicate field `" ++ name ++ "`"
  | .noForm type => "data did not match any variant of untagged enum " ++ type

/-- Why a document cannot be read. -/
inductive ReadError where
  | malformed (cause : Malformed)
  | mismatch (cause : Mismatch)

def ReadError.message : ReadError → String
  | .malformed cause => cause.message
  | .mismatch cause => cause.message

end Dataflow.Json
