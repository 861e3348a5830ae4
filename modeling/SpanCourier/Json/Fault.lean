import SpanCourier.Json.Number
import SpanCourier.Text.Quoted

/-!
# faults of JSON texts

A text can end too early, break the grammar, or hold something else than is expected.
-/

namespace SpanCourier.Json

inductive Found where
  | null
  | boolean (b : Bool)
  | integer (n : Int)
  | floating (x : Float)
  | text (s : String)
  | sequence
  | map

def Found.describe : Found → String
  | .null => "null"
  | .boolean b => "boolean \x60" ++ (if b then "true" else "false") ++ "\x60"
  | .integer n => "integer \x60" ++ toString n ++ "\x60"
  | .floating x => "floating point \x60" ++ floatText x ++ "\x60"
  | .text s => "string " ++ quoted s
  | .sequence => "sequence"
  | .map => "map"

inductive Mismatch where
  | missingField (name : String)
  | duplicateField (name : String)
  | invalidType (found : Found) (expected : String)
  | invalidValue (found : Found) (expected : String)
  | unknownVariant (name : String) (known : List String)
  | invalidLength (length : Nat) (expected : String)

/-- a name between backquotes -/
def ticked (s : String) : String := "\x60" ++ s ++ "\x60"

def knownText : List String → String
  | [a, b] => ticked a ++ " or " ++ ticked b
  | names => "one of " ++ ", ".intercalate (names.map ticked)

def Mismatch.message : Mismatch → String
  | .missingField name => "missing field " ++ ticked name
  | .duplicateField name => "duplicate field " ++ ticked name
  | .invalidType found expected => "invalid type: " ++ found.describe ++ ", expected " ++ expected
  | .invalidValue found expected => "invalid value: " ++ found.describe ++ ", expected " ++ expected
  | .unknownVariant name known =>
    "unknown variant " ++ ticked name ++ ", expected " ++ knownText known
  | .invalidLength length expected =>
    "invalid length " ++ toString length ++ ", expected " ++ expected

inductive Fault where
  | cut
  | malformed
  | mismatch (m : Mismatch)

end SpanCourier.Json
