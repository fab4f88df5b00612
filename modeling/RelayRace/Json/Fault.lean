import RelayRace.Text.Diagnostic
import RelayRace.Text.Shortest

/-!
# Why a JSON text is refused

A text that is no JSON is told apart from one whose values do not fit. The
latter names what was found and what was wanted; the former is one word,
because the place in the text is not kept.
-/

namespace RelayRace.Json

open Text

/-- A value that was found where another was wanted. A real number is kept by
the bits of its double. -/
inductive Found where
  | null
  | boolean (value : Bool)
  | natural (value : Nat)
  | negative (magnitude : Nat)
  | real (bits : UInt64)
  | string (value : String)
  | sequence
  | map
  deriving DecidableEq, Repr

/-- What was found, in words. -/
def Found.text : Found → String
  | .null => "null"
  | .boolean value => "boolean `" ++ (if value then "true" else "false") ++ "`"
  | .natural value => "integer `" ++ decimal value ++ "`"
  | .negative magnitude => "integer `-" ++ decimal magnitude ++ "`"
  | .real bits => "floating point `" ++ Shortest.text bits ++ "`"
  | .string value => "string " ++ diagnostic value
  | .sequence => "sequence"
  | .map => "map"

/-- Why a text is refused. -/
inductive Fault where
  /-- The text is no JSON, or the value has a form that is never wanted there. -/
  | malformed
  /-- A value of another kind than the wanted one. -/
  | mismatch (found : Found) (wanted : String)
  /-- A value of the wanted kind that is out of bounds. -/
  | outOfBounds (found : Found) (wanted : String)
  /-- A name that is none of the permitted ones. -/
  | unknownName (name : String) (permitted : List String)
  /-- A key that an object has twice. -/
  | repeatedKey (key : String)
  deriving DecidableEq, Repr

/-- The fault in words. -/
def Fault.message : Fault → String
  | .malformed => "syntax"
  | .mismatch found wanted => "invalid type: " ++ found.text ++ ", expected " ++ wanted
  | .outOfBounds found wanted => "invalid value: " ++ found.text ++ ", expected " ++ wanted
  | .unknownName name permitted =>
      "unknown variant `" ++ name ++ "`, expected one of " ++
        ", ".intercalate (permitted.map fun p => "`" ++ p ++ "`")
  | .repeatedKey key => "duplicate field `" ++ key ++ "`"

end RelayRace.Json
