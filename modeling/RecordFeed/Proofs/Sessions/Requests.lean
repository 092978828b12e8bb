/-
  Runs of a reader.

  A reader is moved along by calls, one after another.  Between two calls the surroundings may
  change, so every call brings its own.  `run` makes a list of calls and keeps what each of them was
  answered.
-/
import RecordFeed.Feed

namespace RecordFeed

/-- What a reader can be asked for. -/
inductive Request where
  | connect
  | read
  | acknowledge (failure : Option String)
  | waitForClose (milliseconds : Nat)
deriving DecidableEq

/-- A request, and the surroundings in which it is made. -/
structure Call (ω : Type) where
  surroundings : ω
  request : Request

/-- The call says what became of a delivery. -/
def Call.acknowledges {ω : Type} (call : Call ω) : Bool :=
  match call.request with
  | .acknowledge _ => true
  | _ => false

/-- What a call comes back with. -/
inductive Answer where
  /-- what a request for anything but a message is answered -/
  | done (outcome : Except FeedError Unit)
  /-- what a request for a message is answered -/
  | message (outcome : Except FeedError Message)

namespace Answer

/-- The message that was read. -/
def message? : Answer → Option Message
  | .message (.ok read) => some read
  | _ => none

/-- What a read was answered. -/
def read? : Answer → Option (Except FeedError Message)
  | .message outcome => some outcome
  | .done _ => none

end Answer

namespace Reply

variable {σ α β : Type}

/-- The same reply with another answer. -/
def map (f : α → β) (reply : Reply σ α) : Reply σ β :=
  { answer := f reply.answer, next := reply.next, events := reply.events }

/-- Another form of the answer is all that changes. -/
@[simp] theorem map_answer (f : α → β) (reply : Reply σ α) :
    (reply.map f).answer = f reply.answer := rfl

@[simp] theorem map_next (f : α → β) (reply : Reply σ α) : (reply.map f).next = reply.next := rfl

@[simp] theorem map_events (f : α → β) (reply : Reply σ α) :
    (reply.map f).events = reply.events := rfl

end Reply

variable {ω ρ : Type} [MessageReader ω ρ]

/-- Asks a reader. -/
def Call.ask (call : Call ω) (r : ρ) : Reply ρ Answer :=
  match call.request with
  | .connect => (MessageReader.connect call.surroundings r).map .done
  | .read => (MessageReader.read call.surroundings r).map .message
  | .acknowledge failure => (MessageReader.acknowledge call.surroundings failure r).map .done
  | .waitForClose milliseconds =>
    (MessageReader.waitForClose call.surroundings milliseconds r).map .done

/-- Makes one call after another. -/
def run : List (Call ω) → ρ → Reply ρ (List Answer)
  | [], r => { answer := [], next := r }
  | call :: later, r =>
    let first := call.ask r
    let rest := run later first.next
    { answer := first.answer :: rest.answer
      next := rest.next
      events := first.events ++ rest.events }

/-- The equations of a run, one part of the reply at a time, so that a proof can follow the states
    without the events. -/
@[simp] theorem run_nil (r : ρ) : run ([] : List (Call ω)) r = { answer := [], next := r } := rfl

@[simp] theorem run_cons_answer (call : Call ω) (later : List (Call ω)) (r : ρ) :
    (run (call :: later) r).answer = (call.ask r).answer :: (run later (call.ask r).next).answer :=
  rfl

@[simp] theorem run_cons_next (call : Call ω) (later : List (Call ω)) (r : ρ) :
    (run (call :: later) r).next = (run later (call.ask r).next).next := rfl

/-- A run of some calls and then others comes to where the others come to from there. -/
theorem run_append_next (first later : List (Call ω)) (r : ρ) :
    (run (first ++ later) r).next = (run later (run first r).next).next := by
  induction first generalizing r with
  | nil => rfl
  | cons call first ih => exact ih _

/-- What every call keeps, a run keeps.  By induction on the calls; the call is known to be one of
    the run, which lets an assumption about all of its calls be used in the step. -/
theorem run_invariant {P : ρ → Prop} {calls : List (Call ω)}
    (hstep : ∀ call ∈ calls, ∀ r, P r → P (call.ask r).next) {r : ρ} (h : P r) :
    P (run calls r).next := by
  induction calls generalizing r with
  | nil => exact h
  | cons call later ih =>
    obtain ⟨hfirst, hlater⟩ := List.forall_mem_cons.mp hstep
    exact ih hlater (hfirst r h)

/-- The messages read in a run, in the order in which they were read. -/
def messagesRead (calls : List (Call ω)) (r : ρ) : List Message :=
  (run calls r).answer.filterMap Answer.message?

/-- What the first call read stands before what the others read. -/
theorem messagesRead_cons (call : Call ω) (later : List (Call ω)) (r : ρ) :
    messagesRead (call :: later) r =
      (call.ask r).answer.message?.toList ++ messagesRead later (call.ask r).next := by
  rw [messagesRead, run_cons_answer, List.filterMap_cons, messagesRead]
  cases (call.ask r).answer.message? <;> rfl

/-- The messages of two runs one after the other.  By induction on the calls of the first one. -/
theorem messagesRead_append (first later : List (Call ω)) (r : ρ) :
    messagesRead (first ++ later) r =
      messagesRead first r ++ messagesRead later (run first r).next := by
  induction first generalizing r with
  | nil => rfl
  | cons call first ih =>
    rw [List.cons_append, messagesRead_cons, ih, messagesRead_cons, List.append_assoc]
    rfl

end RecordFeed
