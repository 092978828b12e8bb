/-
  What an operation answers, and what it did on the way.

  Operations are functions from a state to a `Reply`: an answer, the next state, and the events in
  the order in which they happened.  The events are the only account of the work that an answer
  does not show: how often a handle was read and with how much room, when handles were taken and
  given back, what was printed, what went into the log.
-/
import RecordFeed.Log

namespace RecordFeed

/-- Something that happened while an operation ran.  Only what another account has to be compared
    with is an event: a call that does nothing has none. -/
inductive Event where
  /-- The factory was asked for its next stream. -/
  | asked
  /-- The factory gave a handle. -/
  | obtained
  /-- A handle was read, with room for so many bytes. -/
  | offered (room : Nat)
  /-- A split policy was shown a window of so many bytes. -/
  | consulted (window : Nat) (atEof : Bool)
  /-- A handle was given back. -/
  | dropped
  /-- A message was printed. -/
  | printed (bytes : Bytes)
  /-- The printing of a message was refused. -/
  | refused (error : IoError)
  /-- Something was logged. -/
  | log (entry : LogEntry)
deriving Repr

namespace Event

/-- The log among the events. -/
def log? : Event → Option LogEntry
  | .log entry => some entry
  | _ => none

/-- What was printed, among the events. -/
def printed? : Event → Option Bytes
  | .printed bytes => some bytes
  | _ => none

end Event

/-- What an operation on a state leaves behind. -/
structure Reply (σ α : Type) where
  answer : α
  next : σ
  events : List Event := []

namespace Reply

variable {σ τ α : Type}

/-- The same reply, with events that came before it. -/
def after (events : List Event) (reply : Reply σ α) : Reply σ α :=
  { reply with events := events ++ reply.events }

/-! Events that came before change neither the answer nor the next state. -/

@[simp] theorem after_answer (events : List Event) (reply : Reply σ α) :
    (reply.after events).answer = reply.answer := rfl

@[simp] theorem after_next (events : List Event) (reply : Reply σ α) :
    (reply.after events).next = reply.next := rfl

@[simp] theorem after_events (events : List Event) (reply : Reply σ α) :
    (reply.after events).events = events ++ reply.events := rfl

/-- The same reply, with its next state put into a larger one. -/
def within (place : σ → τ) (reply : Reply σ α) : Reply τ α :=
  { answer := reply.answer, next := place reply.next, events := reply.events }

/-! A larger state changes neither the answer nor the events. -/

@[simp] theorem within_answer (place : σ → τ) (reply : Reply σ α) :
    (reply.within place).answer = reply.answer := rfl

@[simp] theorem within_next (place : σ → τ) (reply : Reply σ α) :
    (reply.within place).next = place reply.next := rfl

@[simp] theorem within_events (place : σ → τ) (reply : Reply σ α) :
    (reply.within place).events = reply.events := rfl

end Reply

end RecordFeed
