/-
  Settings written down as a TOML document.

  The entries of the document are taken one after another, each replacing the default of its field.
  The first entry that is no field, or holds no value of the field's type, is what is reported; only
  settings whose entries are all in order are validated.
-/
import RecordFeed.Settings
import RecordFeed.Toml.Document

namespace RecordFeed.Settings

/-- The text that a field asks for. -/
def textOf : Toml.Value → Except DocumentFault String
  | .string text => .ok text
  | found => .error (.wrongType found .text)

/-- The size that a field asks for. -/
def sizeOf : Toml.Value → Except DocumentFault Nat
  | .integer (.ofNat n) => .ok n
  | .integer n => .error (.negativeSize n)
  | found => .error (.wrongType found .size)

/-- The flag that a field asks for. -/
def flagOf : Toml.Value → Except DocumentFault Bool
  | .boolean b => .ok b
  | found => .error (.wrongType found .flag)

/-- Replaces the field that an entry names.  A key that is no field is a fault of its own, so that a
    misspelt one is not taken for silence. -/
def withEntry (s : Settings) (key : String) (value : Toml.Value) :
    Except DocumentFault Settings :=
  if key = "delimiter" then (textOf value).map fun delimiter => { s with delimiter }
  else if key = "max_token_size" then (sizeOf value).map fun maxTokenSize => { s with maxTokenSize }
  else if key = "multipart" then (flagOf value).map fun multipart => { s with multipart }
  else if key = "segment_capacity" then
    (sizeOf value).map fun segmentCapacity => { s with segmentCapacity }
  else .error (.unknownField key)

/-- The settings that the entries of a document describe.  It stops at the first entry that is at
    fault, and says nothing of those behind it. -/
def ofEntries (entries : List (String × Toml.Value)) : Except DocumentFault Settings :=
  entries.foldlM (fun s entry => s.withEntry entry.1 entry.2) {}

/-- The settings of a document, whether a feed can run on them or not. -/
def read (text : String) : Except DocumentFault Settings :=
  match Toml.document? text with
  | none => .error .malformed
  | some entries => ofEntries entries

/-- The settings of a document, on which a feed can run. -/
def ofDocument (text : String) : Except FeedError Settings :=
  match read text with
  | .error fault => .error (.unreadableSettings fault)
  | .ok s =>
    match s.validate with
    | .error fault => .error (.invalidSettings fault)
    | .ok () => .ok s

end RecordFeed.Settings
