/-
  Split policies: what can be cut from a window of buffered bytes.

  A policy sees the unconsumed bytes and whether more can come, and decides: here is a record, or
  more bytes are needed, or there is nothing left.  It may remember what it was asked before
  (`split` answers the next policy as well); the delimiter policy remembers nothing.

  A decision is a matter of the bytes alone.  A policy may come to it from the buffer directly,
  without listing them, and then has to show that it comes to the same (`splitBuffered_decision`)
  and leaves the bytes as they were (`splitBuffered_toList`).

  What the scanner needs of the delimiter policy is stated right below it: a record is cut inside
  the window and consumes something (`Delimiter.split_token`).  So a scanner that is given records
  without end has an input without end.
-/
import RecordFeed.Buffered

namespace RecordFeed

/-- A decision about a window. -/
inductive Split where
  /-- The window moves on by `advance` bytes; the record is its bytes from `start` to `stop`. -/
  | token (advance start stop : Nat)
  /-- More bytes have to come before anything can be said. -/
  | needMore
  /-- The stream is over and nothing is left. -/
  | finished
deriving Repr, DecidableEq

/-- A record lies inside what is consumed, and that inside the window. -/
def Split.Fits (advance start stop window : Nat) : Prop :=
  advance ≤ window ∧ start ≤ stop ∧ stop ≤ advance

instance (advance start stop window : Nat) : Decidable (Split.Fits advance start stop window) :=
  inferInstanceAs (Decidable (_ ∧ _ ∧ _))

/-- Policies, by what they decide on a window and whether the end of the stream was seen. -/
class SplitPolicy (π : Type) where
  split : π → Bytes → Bool → Split × π
  /-- The same decision, from the buffer, and the buffer with the same bytes. -/
  splitBuffered : π → Buffered → Bool → (Split × π) × Buffered :=
    fun policy window atEof => (split policy window.toList atEof, window)
  splitBuffered_decision (policy : π) (window : Buffered) (atEof : Bool) :
    (splitBuffered policy window atEof).1 = split policy window.toList atEof := by intros; rfl
  splitBuffered_toList (policy : π) (window : Buffered) (atEof : Bool) :
    (splitBuffered policy window atEof).2.toList = window.toList := by intros; rfl

/-- The policy that ends a record at each occurrence of some bytes. -/
structure Delimiter where
  bytes : Bytes
deriving Repr, DecidableEq

namespace Delimiter

/-- The decision about a window of a given size, in which the first delimiter was found at an
    offset or nowhere. -/
def decision (d : Delimiter) (found : Option Nat) (size : Nat) (atEof : Bool) : Split :=
  if atEof && size == 0 then .finished
  else
    match found with
    | some i => .token (i + d.bytes.length) 0 i
    | none => if atEof then .token size 0 size else .needMore

/-- The record before the first delimiter; at the end of the stream, the rest as a last record. -/
def split (d : Delimiter) (window : Bytes) (atEof : Bool) : Split :=
  d.decision (Bytes.offset? d.bytes window) window.length atEof

instance : SplitPolicy Delimiter where
  split d window atEof := (d.split window atEof, d)
  splitBuffered d window atEof :=
    let size := window.size
    let searched := window.search d.bytes
    ((d.decision searched.1 size atEof, d), searched.2)
  splitBuffered_decision d window atEof := by
    simp only [split, Buffered.search_found, Buffered.length_toList]
  splitBuffered_toList d window _ := Buffered.toList_search d.bytes window

@[simp] theorem policy_split (d : Delimiter) (window : Bytes) (atEof : Bool) :
    SplitPolicy.split d window atEof = (d.split window atEof, d) := rfl

/-- Every record is cut inside the window, from its beginning, and consumes something. -/
theorem split_token {d : Delimiter} {window : Bytes} {atEof : Bool} {advance start stop : Nat}
    (h : d.split window atEof = .token advance start stop) :
    Split.Fits advance start stop window.length ∧ start = 0 ∧ 0 < advance := by
  unfold split decision at h
  split at h
  · simp at h
  · rename_i hopen
    split at h
    · rename_i i hi
      have hle := Bytes.offset?_le hi
      have hpos := Bytes.offset?_pos hi
      simp only [Split.token.injEq] at h
      exact ⟨⟨by omega, by omega, by omega⟩, by omega, by omega⟩
    · split at h
      · rename_i hEof
        have hne : 0 < window.length := by
          cases window with
          | nil => simp [hEof] at hopen
          | cons b rest => simp
        simp only [Split.token.injEq] at h
        exact ⟨⟨by omega, by omega, by omega⟩, by omega, by omega⟩
      · simp at h

example : (Delimiter.mk (Bytes.ofString "\n")).split (Bytes.ofString "a\nb") false = .token 2 0 1 := by
  decide
example : (Delimiter.mk (Bytes.ofString "\n")).split (Bytes.ofString "ab") true = .token 2 0 2 := by
  decide
example : (Delimiter.mk (Bytes.ofString "\n")).split [] false = .needMore := by decide

end Delimiter

end RecordFeed
