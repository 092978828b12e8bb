/-
  What can be wrong with the settings of a feed.

  A document can be refused for what it says (`DocumentFault`), and settings can be refused because
  no feed could run on them (`SettingsFault`).  Both are causes; their wordings are functions.
-/
import RecordFeed.Toml.Value

namespace RecordFeed

/-- The type that a field of the settings asks for. -/
inductive FieldType where
  | text
  | size
  | flag
deriving Repr, DecidableEq

/-- How the expected type is named. -/
def FieldType.named : FieldType → String
  | .text => "a string"
  | .size => "usize"
  | .flag => "a boolean"

/-- Why a document gives no settings. -/
inductive DocumentFault where
  /-- The text is no document at all. -/
  | malformed
  /-- A key names no field. -/
  | unknownField (name : String)
  /-- A field holds a value of another type. -/
  | wrongType (found : Toml.Value) (expected : FieldType)
  /-- A size is below zero. -/
  | negativeSize (value : Int)
deriving Repr

/-- What is wrong with a field.  Nothing is said here about a text that is no document. -/
def DocumentFault.message? : DocumentFault → Option String
  | .malformed => none
  | .unknownField name =>
    some ("unknown field `" ++ name ++
      "`, expected one of `delimiter`, `max_token_size`, `multipart`, `segment_capacity`")
  | .wrongType found expected =>
    some ("invalid type: " ++ found.named ++ ", expected " ++ expected.named)
  | .negativeSize value =>
    some ("invalid value: " ++ (Toml.Value.integer value).named ++ ", expected " ++
      FieldType.size.named)

/-- Why no feed can run on the settings. -/
inductive SettingsFault where
  /-- An empty delimiter ends no record. -/
  | emptyDelimiter
  /-- The window could not even hold a delimiter and one byte. -/
  | limitTooSmall (limit delimiterLength : Nat)
  /-- A segment has to hold something. -/
  | emptySegment
  /-- A field refused for a reason of the caller's own. -/
  | refused (field reason : String)
deriving Repr, DecidableEq

namespace SettingsFault

/-- The field at fault. -/
def field : SettingsFault → String
  | .emptyDelimiter => "delimiter"
  | .limitTooSmall _ _ => "max_token_size"
  | .emptySegment => "segment_capacity"
  | .refused field _ => field

/-- What is wrong with it. -/
def reason : SettingsFault → String
  | .emptyDelimiter => "delimiter must contain at least one byte"
  | .limitTooSmall limit delimiterLength =>
    "max_token_size " ++ toString limit ++ " must exceed the delimiter length " ++
      toString delimiterLength
  | .emptySegment => "segment_capacity must be greater than zero"
  | .refused _ reason => reason

end SettingsFault

end RecordFeed
