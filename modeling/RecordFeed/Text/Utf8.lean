/-
  Bytes shown as text.

  Log lines show paths, and a path may hold bytes that are no UTF-8.  `lossy` shows them all the
  same: each maximal piece that begins like an encoded character but does not go on as one, and
  each byte that can begin none, is shown as one replacement character.

  `leading?` says what the first byte promises: how many continuation bytes, and between which
  bounds the first of them has to lie (the bounds shut out overlong forms, surrogates and code
  points past the last one).  `lossy` takes as many continuation bytes as are really there.
-/
import RecordFeed.Bytes

namespace RecordFeed.Text

/-- The character shown for bytes that are no text. -/
def replacement : Char := '\ufffd'

/-- What a leading byte promises: the bits it contributes, the number of continuation bytes, and
    the inclusive bounds of the first of them.  `none` for a byte that leads no sequence. -/
def leading? (b : UInt8) : Option (Nat × Nat × Nat × Nat) :=
  let n := b.toNat
  if n < 0x80 then some (n, 0, 0x80, 0xbf)
  else if 0xc2 ≤ n ∧ n ≤ 0xdf then some (n - 0xc0, 1, 0x80, 0xbf)
  else if n = 0xe0 then some (0, 2, 0xa0, 0xbf)
  else if n = 0xed then some (0xd, 2, 0x80, 0x9f)
  else if 0xe1 ≤ n ∧ n ≤ 0xef then some (n - 0xe0, 2, 0x80, 0xbf)
  else if n = 0xf0 then some (0, 3, 0x90, 0xbf)
  else if 0xf1 ≤ n ∧ n ≤ 0xf3 then some (n - 0xf0, 3, 0x80, 0xbf)
  else if n = 0xf4 then some (4, 3, 0x80, 0x8f)
  else none

/-- Takes the `count` continuation bytes that should follow, the first between `low` and `high`.
    Answers the character, if all were there, and the bytes left over. -/
def continued (value : Nat) : Nat → Nat → Nat → Bytes → Option Char × Bytes
  | 0, _, _, rest => (some (Char.ofNat value), rest)
  | _ + 1, _, _, [] => (none, [])
  | count + 1, low, high, b :: rest =>
    if low ≤ b.toNat ∧ b.toNat ≤ high then
      continued (value * 64 + (b.toNat - 0x80)) count 0x80 0xbf rest
    else (none, b :: rest)

/-- Nothing is put back: what is left over is no longer than what was offered. -/
theorem continued_length_le (value count low high : Nat) (bytes : Bytes) :
    (continued value count low high bytes).2.length ≤ bytes.length := by
  induction count generalizing value low high bytes with
  | zero => simp [continued]
  | succ count ih =>
    cases bytes with
    | nil => simp [continued]
    | cons b rest =>
      rw [continued]
      split
      · exact Nat.le_succ_of_le (ih _ _ _ _)
      · simp

/-- The characters of the bytes, with a replacement for each piece that is no text. -/
def lossyChars : Bytes → List Char
  | [] => []
  | b :: rest =>
    match leading? b with
    | none => replacement :: lossyChars rest
    | some (value, count, low, high) =>
      let piece := continued value count low high rest
      piece.1.getD replacement :: lossyChars piece.2
termination_by bytes => bytes.length
decreasing_by
  · simp
  · exact Nat.lt_succ_of_le (continued_length_le value count low high rest)

/-- The bytes as a text that can be shown. -/
def lossy (bytes : Bytes) : String :=
  String.ofList (lossyChars bytes)

/-- The bytes as a text, if they are the UTF-8 form of one. -/
def utf8? (bytes : Bytes) : Option String :=
  String.fromUTF8? ⟨bytes.toArray⟩

end RecordFeed.Text
