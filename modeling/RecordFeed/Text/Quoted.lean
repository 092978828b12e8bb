/-
  A text between double quotes, written so that it is unambiguous on one line.

  The quote itself and the backslash are written after a backslash; tab, carriage return, line
  feed and NUL have letters of their own; every other character that would not be legible is
  written by its number in braces.  All else stands for itself, the single quote included.
-/
import RecordFeed.Text.Unprintable

namespace RecordFeed.Text

/-- The number of a character between braces, in lowercase hexadecimal without leading zeros. -/
def numbered (c : Char) : String :=
  "\\u\x7b" ++ String.ofList (Nat.toDigits 16 c.toNat) ++ "\x7d"

/-- One character as it stands between the quotes. -/
def quotedChar (c : Char) : String :=
  if c = '\x00' then "\\0"
  else if c = '\t' then "\\t"
  else if c = '\r' then "\\r"
  else if c = '\n' then "\\n"
  else if c = '\\' then "\\\\"
  else if c = '"' then "\\\""
  else if isUnprintable c then numbered c
  else c.toString

/-- The whole text between double quotes. -/
def quoted (s : String) : String :=
  "\"" ++ String.join (s.toList.map quotedChar) ++ "\""

example : quotedChar '\n' = "\\n" := by decide
example : quotedChar 'a' = "a" := by decide +kernel
example : quotedChar '\x01' = "\\u\x7b1\x7d" := by decide +kernel

end RecordFeed.Text
