/-
  Redelivery: no message is lost because its delivery failed.

  The wrapper keeps the messages that were read and not yet acknowledged (`pending`), and those
  whose delivery failed (`queue`).  A failed acknowledgement moves all that is pending to the back
  of the queue, a successful one forgets it; reading empties the queue before it asks the inner
  reader for anything new.  While anything is outstanding the wrapper does not admit that the inner
  reader is closed: what is outstanding can still be read.
-/
import RecordFeed.Feed

namespace RecordFeed

/-- A reader whose undelivered messages come again. -/
structure Redelivery (ρ : Type) where
  inner : ρ
  /-- delivered, and not acknowledged yet -/
  pending : List Message := []
  /-- to be delivered again, the next one first -/
  queue : List Message := []

namespace Redelivery

variable {ω ρ : Type}

/-- The same messages over another inner reader. -/
def withInner (r : Redelivery ρ) (inner : ρ) : Redelivery ρ := { r with inner }

/-- A message is out for delivery or waits for it. -/
def isOutstanding (r : Redelivery ρ) : Bool := !r.queue.isEmpty || !r.pending.isEmpty

/-- Being closed is hidden as long as something is outstanding. -/
def masked (r : Redelivery ρ) : Except FeedError Unit → Except FeedError Unit
  | .error .closed => if r.isOutstanding then .ok () else .error .closed
  | answer => answer

/-- With nothing outstanding nothing is hidden. -/
theorem masked_of_not_outstanding {r : Redelivery ρ} (h : r.isOutstanding = false)
    (answer : Except FeedError Unit) : r.masked answer = answer := by
  unfold masked
  split
  · simp [h]
  · rfl

/-- Connects the inner reader, and answers for both. -/
def connect [MessageReader ω ρ] (w : ω) (r : Redelivery ρ) :
    Reply (Redelivery ρ) (Except FeedError Unit) :=
  let reply := MessageReader.connect w r.inner
  { answer := r.masked reply.answer, next := r.withInner reply.next, events := reply.events }

/-- What waits is delivered first, and only then is the inner reader asked.  Either way the message
    is out for delivery now, behind those that already were. -/
def read [MessageReader ω ρ] (w : ω) :
    Redelivery ρ → Reply (Redelivery ρ) (Except FeedError Message)
  | { inner, pending, queue := message :: queue } =>
    { answer := .ok message, next := { inner, pending := pending ++ [message], queue } }
  | { inner, pending, queue := [] } =>
    let reply := MessageReader.read w inner
    match reply.answer with
    | .ok message =>
      { answer := .ok message
        next := { inner := reply.next, pending := pending ++ [message] }
        events := reply.events }
    | .error error =>
      { answer := .error error, next := { inner := reply.next, pending }, events := reply.events }

/-- What waits is read first. -/
theorem read_of_queue_cons [MessageReader ω ρ] {w : ω} {r : Redelivery ρ} {message : Message}
    {queue : List Message} (h : r.queue = message :: queue) :
    r.read w =
      { answer := .ok message
        next := { r with pending := r.pending ++ [message], queue := queue } } := by
  cases r
  cases h
  rfl

/-- With nothing waiting, the inner reader is asked. -/
theorem read_of_queue_nil [MessageReader ω ρ] {w : ω} {r : Redelivery ρ} (h : r.queue = []) :
    r.read w =
      let reply := MessageReader.read w r.inner
      match reply.answer with
      | .ok message =>
        { answer := .ok message
          next := { r with inner := reply.next, pending := r.pending ++ [message] }
          events := reply.events }
      | .error error =>
        { answer := .error error, next := { r with inner := reply.next }, events := reply.events } := by
  cases r
  cases h
  rfl

/-- Passes the verdict on to the inner reader.  A failure moves what is out for delivery behind what
    waits already; a success forgets it, but not what waits: that has not been delivered. -/
def acknowledge [MessageReader ω ρ] (w : ω) (failure : Option String) (r : Redelivery ρ) :
    Reply (Redelivery ρ) (Except FeedError Unit) :=
  let reply := (MessageReader.acknowledge w failure r.inner).within r.withInner
  match failure with
  | none => { reply with next := { reply.next with pending := [] } }
  | some _ =>
    { reply with
      next := { reply.next with pending := [], queue := r.queue ++ r.pending }
      events := .log (.requeued r.pending.length) :: reply.events }

/-- Closing is the inner reader's work, and what is outstanding stays. -/
def waitForClose [MessageReader ω ρ] (w : ω) (milliseconds : Nat) (r : Redelivery ρ) :
    Reply (Redelivery ρ) (Except FeedError Unit) :=
  (MessageReader.waitForClose w milliseconds r.inner).within r.withInner

instance [MessageReader ω ρ] : MessageReader ω (Redelivery ρ) where
  connect := connect
  read := read
  acknowledge := acknowledge
  waitForClose := waitForClose
  closeAsync r := MessageReader.closeAsync r.inner

/-! As a reader of messages the wrapper does what its own operations do, so it can be wrapped again. -/

@[simp] theorem reader_connect [MessageReader ω ρ] (w : ω) (r : Redelivery ρ) :
    MessageReader.connect w r = r.connect w := rfl

@[simp] theorem reader_read [MessageReader ω ρ] (w : ω) (r : Redelivery ρ) :
    MessageReader.read w r = r.read w := rfl

@[simp] theorem reader_acknowledge [MessageReader ω ρ] (w : ω) (failure : Option String)
    (r : Redelivery ρ) : MessageReader.acknowledge w failure r = r.acknowledge w failure := rfl

@[simp] theorem reader_waitForClose [MessageReader ω ρ] (w : ω) (milliseconds : Nat)
    (r : Redelivery ρ) :
    MessageReader.waitForClose w milliseconds r = r.waitForClose w milliseconds := rfl

end Redelivery

end RecordFeed
