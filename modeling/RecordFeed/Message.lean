/-
  Messages: parts in the order in which their records stood in the stream.

  A feed delivers one record as a message of one part, or a run of records as a message of several.
-/
import RecordFeed.Arena

namespace RecordFeed

/-- The parts of a message.  A message that is still being put together may have none yet. -/
structure Message where
  parts : Array Part := #[]
deriving Repr, BEq

namespace Message

/-- Adds a part at the end. -/
def push (m : Message) (part : Part) : Message := ⟨m.parts.push part⟩

/-- The number of parts. -/
def size (m : Message) : Nat := m.parts.size

/-- No part has been added. -/
def isEmpty (m : Message) : Bool := m.parts.isEmpty

/-- The part at a place, counted from zero. -/
def get? (m : Message) (i : Nat) : Option Part := m.parts[i]?

/-- The bytes of the parts. -/
def payloads (m : Message) : List Bytes := m.parts.toList.map Part.payload

/-- The bytes that the arena holds for the parts now. -/
def reread (m : Message) (a : Arena) : List Bytes :=
  m.parts.toList.map fun part => a.read part.window

/-- All bytes of all parts, counted. -/
def payloadLength (m : Message) : Nat := m.payloads.flatten.length

@[simp] theorem payloads_push (m : Message) (part : Part) :
    (m.push part).payloads = m.payloads ++ [part.payload] := by
  simp [push, payloads]

/-- A message grows by the bytes of the part, and by nothing for the part itself. -/
@[simp] theorem payloadLength_push (m : Message) (part : Part) :
    (m.push part).payloadLength = m.payloadLength + part.payload.length := by
  simp [payloadLength]

end Message

end RecordFeed
