/-
  The settings of a feed.

  Settings are made from the defaults by replacing fields one at a time, and checked as a whole by
  `validate`, because two of the fields bound each other.  Of several faults the one in the first
  field is reported.
-/
import RecordFeed.Bytes
import RecordFeed.Error

namespace RecordFeed

/-- What a feed can be told, with the value that each field has when nothing is said.  A value of
    this type may still be useless; `validate` says which ones are not. -/
structure Settings where
  /-- what ends a record -/
  delimiter : String := "\n"
  /-- the most bytes that are buffered in search of a delimiter -/
  maxTokenSize : Nat := 65536
  /-- records up to a blank one make one message -/
  multipart : Bool := false
  /-- the capacity of a segment of the record arena -/
  segmentCapacity : Nat := 65536
deriving Repr, DecidableEq

namespace Settings

/-- The bytes of the delimiter. -/
def delimiterBytes (s : Settings) : Bytes := Bytes.ofString s.delimiter

/-- The settings a feed can run on.  The limit has to be longer than the delimiter, or no record
    could ever end inside it. -/
def validate (s : Settings) : Except SettingsFault Unit :=
  if s.delimiterBytes.isEmpty then .error .emptyDelimiter
  else if s.maxTokenSize ≤ s.delimiterBytes.length then
    .error (.limitTooSmall s.maxTokenSize s.delimiterBytes.length)
  else if s.segmentCapacity = 0 then .error .emptySegment
  else .ok ()

/-- Validation accepts exactly the settings whose fields agree with each other. -/
theorem validate_eq_ok_iff (s : Settings) :
    s.validate = .ok () ↔
      1 ≤ s.delimiterBytes.length ∧ s.delimiterBytes.length < s.maxTokenSize ∧
        1 ≤ s.segmentCapacity := by
  unfold validate
  have hempty : s.delimiterBytes.isEmpty = true ↔ s.delimiterBytes.length = 0 := by
    rw [List.isEmpty_iff_length_eq_zero]
  split
  · -- an empty delimiter fails the first condition, whatever the other fields are
    rename_i h; simp [hempty.mp h]
  · rename_i h
    have hpos : s.delimiterBytes.length ≠ 0 := fun h0 => h (hempty.mpr h0)
    -- the two other refusals are the negations of the two other conditions
    split
    · simp; omega
    · split
      · simp; omega
      · simp; omega

/-- The settings, written out for whoever has to find out what a feed was told to do. -/
def describe (s : Settings) : String :=
  "LinesConfig \x7b delimiter: " ++ Text.quoted s.delimiter ++
    ", max_token_size: " ++ toString s.maxTokenSize ++
    ", multipart: " ++ (if s.multipart then "true" else "false") ++
    ", segment_capacity: " ++ toString s.segmentCapacity ++ " \x7d"

end Settings

end RecordFeed
