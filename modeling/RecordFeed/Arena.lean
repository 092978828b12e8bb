/-
  The record arena: append-only storage for the records of messages that are not settled yet.

  Records are copied into segments.  A segment has a fixed capacity and is filled from its front;
  when a record does not fit into what is left of the latest segment, a new one is opened, large
  enough for the record, and the older ones are never written again.  What `append` hands out is a
  `Part`: the bytes of the record and the window of the store in which they were put.  Resetting
  the arena only forgets how much was appended; windows handed out before stay where they are.

  `read` looks into the store through a window, so that "a part never changes" is something to
  state and prove and not a matter of trust.
-/
import RecordFeed.Bytes

namespace RecordFeed

/-- A range of a segment. -/
structure Window where
  segment : Nat
  start : Nat
  length : Nat
deriving Repr, DecidableEq

/-- A payload, and the window of the store that holds it. -/
structure Part where
  payload : Bytes
  window : Window
deriving Repr

namespace Part

/-- How many bytes the part holds. -/
def length (p : Part) : Nat := p.payload.length

/-- The part holds no byte. -/
def isEmpty (p : Part) : Bool := p.payload.isEmpty

/-- Parts are compared by what they hold, not by where it lies. -/
instance : BEq Part where
  beq p q := p.payload == q.payload

end Part

/-- A stretch of storage of fixed capacity, with the bytes written so far. -/
structure Segment where
  capacity : Nat
  bytes : Array UInt8 := #[]
deriving Repr

namespace Segment

/-- Writes from an offset on, over what may be there.  The recursion is on what is written, so that
    each byte meets either an old one or the end. -/
def overwrite (bytes : Array UInt8) : Nat → Bytes → Array UInt8
  | _, [] => bytes
  | i, b :: rest =>
    overwrite (if h : i < bytes.size then bytes.set i b else bytes.push b) (i + 1) rest

/-- Writes a record into the segment; its capacity stays. -/
def write (s : Segment) (offset : Nat) (record : Bytes) : Segment :=
  { s with bytes := overwrite s.bytes offset record }

/-- The bytes from `start` on, `length` of them. -/
def read (s : Segment) (start length : Nat) : Bytes :=
  (s.bytes.extract start (start + length)).toList

end Segment

/-- The arena.  It begins with a segment that has room for nothing, so that there is always a
    latest segment. -/
structure Arena where
  /-- the capacity of a segment that is opened for an ordinary record -/
  segmentCapacity : Nat
  /-- every segment opened, the latest one last -/
  store : Array Segment := #[{ capacity := 0 }]
  /-- where the next record goes in the latest segment -/
  offset : Nat := 0
  /-- the bytes appended since the last reset -/
  cursor : Nat := 0
  /-- the segments in use since the last reset -/
  segments : Nat := 0
deriving Repr

namespace Arena

/-- An arena whose segments hold at least one byte. -/
def ofCapacity (segmentCapacity : Nat) : Arena :=
  { segmentCapacity := max segmentCapacity 1 }

/-- The index of the latest segment. -/
def latest (a : Arena) : Nat := a.store.size - 1

/-- What the latest segment can still take. -/
def room (a : Arena) : Nat :=
  ((a.store[a.latest]?).map Segment.capacity).getD 0 - a.offset

/-- Nothing was appended since the last reset. -/
def isEmpty (a : Arena) : Bool := a.cursor == 0

/-- Makes room for a record of the given length, in a new segment if need be. -/
def reserve (a : Arena) (length : Nat) : Arena :=
  if a.room < length then
    { a with
      store := a.store.push { capacity := max a.segmentCapacity length }
      offset := 0
      segments := a.segments + 1 }
  else a

/-- Copies a record into the arena.  The window is made before the record is written: it says where
    the next byte would go. -/
def append (a : Arena) (record : Bytes) : Part × Arena :=
  let a := a.reserve record.length
  let window := { segment := a.latest, start := a.offset, length := record.length }
  (⟨record, window⟩,
    { a with
      store := a.store.modify a.latest fun segment => segment.write a.offset record
      offset := a.offset + record.length
      cursor := a.cursor + record.length })

/-- Forgets how much was appended.  What is left of the latest segment stays in use.  The offset
    stays, so that what was handed out before is not written over; a segment with nothing left is
    not counted as one in use. -/
def reset (a : Arena) : Arena :=
  { a with cursor := 0, segments := if 0 < a.room then 1 else 0 }

/-- What the store holds in a window now. -/
def read (a : Arena) (w : Window) : Bytes :=
  ((a.store[w.segment]?).map fun segment => segment.read w.start w.length).getD []

@[simp] theorem reserve_cursor (a : Arena) (length : Nat) :
    (a.reserve length).cursor = a.cursor := by
  unfold reserve
  split <;> rfl

/-- The part that is handed out bears the record, whatever becomes of the store. -/
@[simp] theorem append_payload (a : Arena) (record : Bytes) :
    (a.append record).1.payload = record := rfl

/-- The cursor counts the bytes appended and not the segments opened for them. -/
@[simp] theorem append_cursor (a : Arena) (record : Bytes) :
    (a.append record).2.cursor = a.cursor + record.length := by
  simp [append]

@[simp] theorem reset_cursor (a : Arena) : a.reset.cursor = 0 := rfl

example :
    let (first, a) := (ofCapacity 4).append [1, 2, 3]
    let (second, a) := a.append [4, 5]
    (a.read first.window, a.read second.window, a.segments) = ([1, 2, 3], [4, 5], 2) := by
  decide

end Arena

end RecordFeed
