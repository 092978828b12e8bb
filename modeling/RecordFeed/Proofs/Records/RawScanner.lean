/-
  A scanner over a raw buffer.

  A `Scanner` knows its window, so there is no index that could point out of its buffer.  Underneath
  stands a buffer of bytes, some of which mean nothing any more or nothing yet, and two indices into
  it.  A `RawScanner` is the scanner in these terms:

  * every slice, sum, product and difference is checked (`Checked`), and where one is out of range
    there is no answer but a `Trap`;
  * a handle is shown the free bytes behind the window and may leave there what it likes (`Reader`),
    and it need not ever come to an end;
  * `step` is one step of the loop, so a run of any number of steps can be looked at, also one in
    the middle of a call that never returns.

  What happened on the way is in a transcript (`Entry`): what the policy was shown and decided, what
  the handle gave, what was answered.
-/
import RecordFeed.Scanner

namespace RecordFeed

/-! ## Checked operations

  Each of them has a result under a condition and is a trap otherwise.  What a machine does
  silently, or refuses, cannot be missed here. -/

/-- Why there is no answer. -/
inductive Trap where
  | outOfRange
  | outOfMemory
deriving Repr, DecidableEq

namespace Checked

/-- Every index is below.  Indices have 64 bits. -/
def indices : Nat := 18446744073709551616

/-- Every buffer is shorter.  An allocation is measured in indices with a sign, so half of them are
    left. -/
def memory : Nat := 9223372036854775808

/-- The sum of two indices, which has to be an index again. -/
def add (i j : Nat) : Except Trap Nat :=
  if i + j < indices then .ok (i + j) else .error .outOfRange

/-- The product of two indices, likewise. -/
def mul (i j : Nat) : Except Trap Nat :=
  if i * j < indices then .ok (i * j) else .error .outOfRange

/-- The difference of two indices.  There is none below zero. -/
def sub (i j : Nat) : Except Trap Nat :=
  if j ≤ i then .ok (i - j) else .error .outOfRange

/-- The bytes from `start` to `stop`. -/
def slice (bytes : Bytes) (start stop : Nat) : Except Trap Bytes :=
  if start ≤ stop ∧ stop ≤ bytes.length then .ok ((bytes.take stop).drop start)
  else .error .outOfRange

/-- The bytes with those from `start` to `stop` copied to their front, over what is there. -/
def copyToFront (bytes : Bytes) (start stop : Nat) : Except Trap Bytes :=
  if start ≤ stop ∧ stop ≤ bytes.length then
    .ok ((bytes.take stop).drop start ++ bytes.drop (stop - start))
  else .error .outOfRange

/-- Just so many bytes: the first ones, and zeros behind them.  This is the one operation that may
    ask for more memory than there is. -/
def resize (bytes : Bytes) (length : Nat) : Except Trap Bytes :=
  if length < memory then .ok (bytes.take length ++ List.replicate (length - bytes.length) 0)
  else .error .outOfMemory

end Checked

/-! ## Handles

  A handle that is given a part of the buffer may write to all of it, whatever it says that it
  gave. -/

/-- Handles that keep the contract of reading.  A read is shown the free bytes of a buffer and
    leaves as many bytes there.  If it gives some, and then at least one, these are what it left
    in front.  Nothing else is asked of it: not that the other bytes stay what they were, nor
    that a stream comes to an end. -/
structure Reader (η : Type) where
  read : η → Bytes → ReadOutcome η × Bytes
  length_read (h : η) (free : Bytes) : (read h free).2.length = free.length
  data_read {h next : η} {free bytes : Bytes} :
    (read h free).1 = .data bytes next → bytes ≠ [] ∧ bytes <+: (read h free).2

/-- What a read leaves of the free bytes that it was shown, if it writes nothing but what it
    gives. -/
def ReadOutcome.leave {η : Type} (free : Bytes) : ReadOutcome η → Bytes
  | .data bytes _ => bytes ++ free.drop bytes.length
  | .ended _ | .interrupted _ | .failed _ _ => free

/-- A handle that is read in given surroundings. -/
def Reader.ofSource {ω η : Type} [ByteSource ω η] (w : ω) : Reader η where
  read h free :=
    (ByteSource.read w h free.length, (ByteSource.read w h free.length).leave free)
  length_read h free := by
    cases hread : ByteSource.read w h free.length with
    | data bytes next =>
      have hroom := (ByteSource.read_data hread).2.1
      simp only [ReadOutcome.leave, List.length_append, List.length_drop]
      omega
    | ended | interrupted | failed => rfl
  data_read {h next free bytes} hread := by
    have hread : ByteSource.read w h free.length = .data bytes next := hread
    refine ⟨(ByteSource.read_data hread).1, ?_⟩
    rw [hread]
    exact List.prefix_append _ _

/-! ## Transcripts

  The transcript is what the steps of a run have in common with somebody who looks on.  The
  buffer and its indices are not in it. -/

/-- What can happen in a step, as far as anybody outside of the buffer sees it. -/
inductive Entry where
  /-- The policy was shown a window, and decided. -/
  | shown (window : Bytes) (atEof : Bool) (decision : Split)
  /-- The handle was shown so many free bytes, and gave these. -/
  | read (room : Nat) (bytes : Bytes)
  /-- A call was answered. -/
  | answered (answer : ScanAnswer)

/-- What a decision about a window consumes. -/
def Split.consumes (window : Bytes) : Split → Bytes
  | .token advance start stop =>
    if Split.Fits advance start stop window.length then window.take advance else []
  | .needMore | .finished => []

/-- What a decision about a window lets a call answer. -/
def Split.verdict (window : Bytes) : Split → ScanAnswer
  | .token advance start stop =>
    if Split.Fits advance start stop window.length then .ok (some ((window.take stop).drop start))
    else .error (.splitOverrun advance window.length)
  | .needMore | .finished => .ok none

namespace Entry

/-- All bytes that the handle gave. -/
def delivered (transcript : List Entry) : Bytes :=
  transcript.flatMap fun
    | .read _ bytes => bytes
    | _ => []

/-- All bytes that decisions consumed. -/
def consumed (transcript : List Entry) : Bytes :=
  transcript.flatMap fun
    | .shown window _ decision => decision.consumes window
    | _ => []

/-- The answers of the calls. -/
def answers (transcript : List Entry) : List ScanAnswer :=
  transcript.filterMap fun
    | .answered answer => some answer
    | _ => none

/-- The events of the calls. -/
def events (transcript : List Entry) : List Event :=
  transcript.filterMap fun
    | .shown window atEof _ => some (.consulted window.length atEof)
    | .read room _ => some (.offered room)
    | .answered _ => none

/-- The four readings of a transcript go entry by entry, so each of them splits where the transcript
    does.  This is all that an induction over the steps needs of them. -/
@[simp] theorem delivered_append (before after : List Entry) :
    delivered (before ++ after) = delivered before ++ delivered after := List.flatMap_append

@[simp] theorem consumed_append (before after : List Entry) :
    consumed (before ++ after) = consumed before ++ consumed after := List.flatMap_append

@[simp] theorem answers_append (before after : List Entry) :
    answers (before ++ after) = answers before ++ answers after := List.filterMap_append

@[simp] theorem events_append (before after : List Entry) :
    events (before ++ after) = events before ++ events after := List.filterMap_append

end Entry

/-! ## The scanner

  The loop is cut into five places, with one step between each and the next.  It is the code of
  a call, with nothing left out but the loop itself. -/

/-- Where in the loop a scanner stands. -/
inductive Point where
  /-- between two calls -/
  | between
  /-- about to turn to the policy, if there is something to show -/
  | asking
  | compacting
  | growing
  | reading
deriving Repr, DecidableEq

/-- A handle under a split policy, with a buffer.  What lies in it from `start` to `stop` was
    read and not yet consumed. -/
structure RawScanner (η π : Type) where
  handle : η
  policy : π
  limit : Nat
  buf : Bytes := []
  start : Nat := 0
  stop : Nat := 0
  atEof : Bool := false
  done : Bool := false
  point : Point := .between

/-- The scanner after a step, and what happened in it. -/
abbrev RawStep (η π : Type) := RawScanner η π × List Entry

namespace RawScanner

variable {η π : Type}

/-- A scanner with no buffer yet, between two calls. -/
def fresh (handle : η) (policy : π) (limit : Nat) : RawScanner η π := { handle, policy, limit }

/-- The bytes that were read and not yet consumed. -/
def window (s : RawScanner η π) : Bytes := (s.buf.take s.stop).drop s.start

/-- Answers a call for the last time. -/
def settle (s : RawScanner η π) (answer : ScanAnswer) : RawStep η π :=
  ({ s with done := true, point := .between }, [.answered answer])

/-- Acts on a decision about the window.  The positions are checked against the window before any
    sum is formed, so the sums behind the check are those that could still be out of range. -/
def act (s : RawScanner η π) (window : Bytes) : Split → Except Trap (RawStep η π)
  | .token advance start stop =>
    if window.length < advance ∨ stop < start ∨ advance < stop then
      .ok (s.settle (.error (.splitOverrun advance window.length)))
    else do
      let base := s.start
      let front ← Checked.add base advance
      let first ← Checked.add base start
      let last ← Checked.add base stop
      let record ← Checked.slice s.buf first last
      .ok ({ s with start := front, point := .between }, [.answered (.ok (some record))])
  | .finished => .ok (s.settle (.ok none))
  | .needMore =>
    if s.atEof then .ok (s.settle (.ok none)) else .ok ({ s with point := .compacting }, [])

/-- Shows the window to the policy, unless nothing has come yet and something still may. -/
def ask [SplitPolicy π] (s : RawScanner η π) : Except Trap (RawStep η π) :=
  if s.done then .ok (s.settle (.ok none))
  else if s.start < s.stop ∨ s.atEof then do
    let window ← Checked.slice s.buf s.start s.stop
    let decided := SplitPolicy.split s.policy window s.atEof
    let acted ← act { s with policy := decided.2 } window decided.1
    .ok (acted.1, .shown window s.atEof decided.1 :: acted.2)
  else .ok ({ s with point := .compacting }, [])

/-- Moves the window to the front of the buffer, when it has reached the end or when more than
    half of the buffer lies unused before it.  Nothing is allocated, and no byte of the window
    changes. -/
def compact (s : RawScanner η π) : Except Trap (RawStep η π) :=
  if 0 < s.start ∧ (s.stop = s.buf.length ∨ s.buf.length / 2 < s.start) then do
    let buf ← Checked.copyToFront s.buf s.start s.stop
    let stop ← Checked.sub s.stop s.start
    .ok ({ s with buf, stop, start := 0, point := .growing }, [])
  else .ok ({ s with point := .growing }, [])

/-- Makes the buffer longer when the window ends where the buffer ends.  The buffer is doubled, from
    `Scanner.firstCapacity` on, and cut to the limit. -/
def grow (s : RawScanner η π) : Except Trap (RawStep η π) :=
  if s.stop = s.buf.length then
    if s.limit ≤ s.buf.length then .ok (s.settle (.error (.tokenTooLarge s.limit)))
    else do
      let doubled ← Checked.mul s.buf.length 2
      let buf ← Checked.resize s.buf (min (max doubled Scanner.firstCapacity) s.limit)
      .ok ({ s with buf, point := .reading }, [])
  else .ok ({ s with point := .reading }, [])

/-- Goes on after a read with room for so many bytes, which are in the buffer by now. -/
def receive (room : Nat) (s : RawScanner η π) : ReadOutcome η → Except Trap (RawStep η π)
  | .data bytes next => do
    let stop ← Checked.add s.stop bytes.length
    .ok ({ s with handle := next, stop, point := .asking }, [.read room bytes])
  | .ended next => .ok ({ s with handle := next, atEof := true, point := .asking }, [.read room []])
  | .interrupted next => .ok ({ s with handle := next }, [.read room []])
  | .failed error next =>
    .ok
      ({ s with handle := next, done := true, point := .between },
        [.read room [], .answered (.error (.io error))])

/-- Other bytes behind the window. -/
def leave (s : RawScanner η π) (free : Bytes) : RawScanner η π :=
  { s with buf := s.buf.take s.stop ++ free }

/-- Reads the handle once, into the free bytes behind the window.  Whatever the handle leaves there
    is in the buffer afterwards, also where the read gave less or failed. -/
def read (r : Reader η) (s : RawScanner η π) : Except Trap (RawStep η π) := do
  let free ← Checked.slice s.buf s.stop s.buf.length
  let given := r.read s.handle free
  (s.leave given.2).receive free.length given.1

/-- One step of the loop.  Between two calls, the next one begins. -/
def step [SplitPolicy π] (r : Reader η) (s : RawScanner η π) : Except Trap (RawStep η π) :=
  match s.point with
  | .between => .ok ({ s with point := .asking }, [])
  | .asking => s.ask
  | .compacting => s.compact
  | .growing => s.grow
  | .reading => s.read r

/-- One step after another, with a transcript.  The handle may be read in other surroundings at
    every step. -/
def run [SplitPolicy π] : List (Reader η) → RawScanner η π → Except Trap (RawStep η π)
  | [], s => .ok (s, [])
  | r :: later, s => do
    let first ← s.step r
    let rest ← run later first.1
    .ok (rest.1, first.2 ++ rest.2)

end RawScanner

end RecordFeed
