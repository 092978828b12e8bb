/-
  Where bytes come from.

  A handle is read in surroundings `ω` that the read does not change but that may change between
  two reads: the files of a machine, or a switch that someone else can throw.  Reading answers the
  handle as it is afterwards, so a handle is a value like any other.

  `left` is what makes reading a stream come to an end: a handle that gives bytes has so many fewer
  left, and each interruption is paid for as well.  A call that returns has read only so much, so a
  stream without an end does nothing in a run of such calls that one with a large bound does not.

  A factory opens one stream after another, until it says that there are no more.
-/
import RecordFeed.Event

namespace RecordFeed

/-- What one read of a handle gives, and the handle afterwards. -/
inductive ReadOutcome (η : Type) where
  | data (bytes : Bytes) (next : η)
  /-- The stream is over. -/
  | ended (next : η)
  /-- Nothing happened; the read has to be tried again. -/
  | interrupted (next : η)
  | failed (error : IoError) (next : η)

/-- Handles `η` that can be read in the surroundings `ω`.  The four laws say what reading costs:
    bytes and interruptions make the bound smaller, and nothing makes it greater.  Beyond that a
    handle may do as it likes, also read differently after an end. -/
class ByteSource (ω η : Type) where
  /-- One read, with room for so many bytes. -/
  read : ω → η → Nat → ReadOutcome η
  /-- A bound on the bytes and interruptions still to come. -/
  left : ω → η → Nat
  read_data {w : ω} {h next : η} {room : Nat} {bytes : Bytes} :
    read w h room = .data bytes next →
      bytes ≠ [] ∧ bytes.length ≤ room ∧ left w next + bytes.length ≤ left w h
  read_ended {w : ω} {h next : η} {room : Nat} :
    read w h room = .ended next → left w next ≤ left w h
  read_interrupted {w : ω} {h next : η} {room : Nat} :
    read w h room = .interrupted next → left w next < left w h
  read_failed {w : ω} {h next : η} {room : Nat} {error : IoError} :
    read w h room = .failed error next → left w next ≤ left w h

/-- What a factory gives when asked for its next stream. -/
inductive Opening (η : Type) where
  | stream (handle : η)
  /-- There are no further streams. -/
  | exhausted
  /-- This stream could not be opened; there may be others. -/
  | failed (error : IoError)

/-- Factories `φ` of handles `η` in the surroundings `ω`. -/
class StreamFactory (ω φ : Type) (η : outParam Type) where
  nextStream : ω → φ → Reply φ (Opening η)

end RecordFeed
