/-
  The values of a TOML document.

  A table keeps its entries in the order in which the document brings them, because what a reader
  of settings has to report first depends on it.
-/
import RecordFeed.Decimal.Shortest
import RecordFeed.Text.Quoted

namespace RecordFeed.Toml

open RecordFeed.Decimal (Binary64)

/-- A value of a document.  Of a moment only that it stands there is kept, because no setting is
    one. -/
inductive Value where
  | string (text : String)
  | integer (value : Int)
  | float (value : Binary64)
  | boolean (value : Bool)
  /-- a date, a time, or both -/
  | moment
  | array (items : List Value)
  | table (entries : List (String × Value))
deriving Repr

/-- How a value is named when it stands where another type was expected. -/
def Value.named : Value → String
  | .string text => "string " ++ Text.quoted text
  | .integer value => "integer `" ++ toString value ++ "`"
  | .float value => "floating point `" ++ value.text ++ "`"
  | .boolean value => "boolean `" ++ (if value then "true" else "false") ++ "`"
  | .moment => "map"
  | .array _ => "sequence"
  | .table _ => "map"

end RecordFeed.Toml
