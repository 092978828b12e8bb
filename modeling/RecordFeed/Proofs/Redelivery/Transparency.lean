/-
  Redelivery does not disturb the feed under it.

  A failed delivery sends messages round once more, between the queue and whoever reads.  The feed
  below notices nothing of it.

  1. **Erasure** (`kept`).  The acknowledgements are erased from a run, and the reads that the queue
     answers.  What is left are the calls that the feed answers itself.

  2. **Simulation** (`run_kept`).  A bare feed that is asked what is left goes through the same
     states, but for the counters of its arena.  An erased call is a step of the redelivery that the
     bare feed does not take: it leaves the inner feed alike.  A call that is left is a step of both
     and reads the same.

  3. **Order**.  So the messages that are new are the messages of the streams in
     order, whatever becomes of their delivery.
-/
import RecordFeed.Proofs.Messages.InOrder
import RecordFeed.Proofs.Sessions.Counters
import RecordFeed.Redelivery

namespace RecordFeed

/-- A message was read when a read was answered with one. -/
theorem Answer.message?_eq (answer : Answer) :
    answer.message? = answer.read?.bind Except.toOption := by
  cases answer with
  | done outcome => rfl
  | message outcome => cases outcome <;> rfl

namespace Redelivery

/-! ## Erasure

  Which calls the feed below answers depends on what the redelivery keeps at the time.  So the
  erased run is computed along the run itself. -/

section Erasure

variable {ω ρ : Type} [MessageReader ω ρ]

/-- The inner reader answers the call, and it is not an acknowledgement. -/
def passesOn (r : Redelivery ρ) (call : Call ω) : Bool :=
  match call.request with
  | .acknowledge _ => false
  | .read => r.queue.isEmpty
  | .connect | .waitForClose _ => true

/-- The calls that are left without the acknowledgements and the reads that the queue answers.  It
    depends on the state of the redelivery, since whether a read is answered by the queue does. -/
def kept : List (Call ω) → Redelivery ρ → List (Call ω)
  | [], _ => []
  | call :: later, r =>
    let rest := kept later (call.ask r).next
    if r.passesOn call then call :: rest else rest

/-- What the redelivery answers to the reads among them. -/
def freshReads : List (Call ω) → Redelivery ρ → List (Except FeedError Message)
  | [], _ => []
  | call :: later, r =>
    let rest := freshReads later (call.ask r).next
    if r.passesOn call then (call.ask r).answer.read?.toList ++ rest else rest

variable {r : Redelivery ρ} {call : Call ω}

/-- Erasing only leaves calls out.  By induction on the calls. -/
theorem kept_sublist (calls : List (Call ω)) (r : Redelivery ρ) :
    (kept calls r).Sublist calls := by
  induction calls generalizing r with
  | nil => exact List.Sublist.slnil
  | cons call later ih =>
    rw [kept]
    split
    · exact (ih _).cons_cons call
    · exact (ih _).cons call

/-- A call that is left is answered as the inner reader answers it.  The answer to `connect` may be
    masked, but that is no read. -/
theorem ask_of_passesOn (h : r.passesOn call = true) :
    (call.ask r).next.inner = (call.ask r.inner).next ∧
      (call.ask r).answer.read? = (call.ask r.inner).answer.read? := by
  obtain ⟨w, request⟩ := call
  cases request with
  | connect => exact ⟨rfl, rfl⟩
  | read =>
    have hqueue : r.queue = [] := List.isEmpty_iff.mp h
    simp only [Call.ask, reader_read, read_of_queue_nil hqueue, Reply.map]
    cases (MessageReader.read w r.inner).answer <;> exact ⟨rfl, rfl⟩
  | acknowledge failure => simp [passesOn] at h
  | waitForClose milliseconds => exact ⟨rfl, rfl⟩

end Erasure

/-! ## Simulation

  The redelivery takes every step, and the bare feed those that are left.  Between two steps
  the feeds agree but for the counters (`Feed.uncounted`). -/

variable {ω φ η : Type} [StreamFactory ω φ η] [ByteSource ω η]

/-- A call that is erased leaves the inner feed alike. -/
theorem inner_of_erased {r : Redelivery (Feed ω φ η)} {call : Call ω}
    (h : r.passesOn call = false) : (call.ask r).next.inner.uncounted = r.inner.uncounted := by
  obtain ⟨w, request⟩ := call
  cases request with
  | connect => simp [passesOn] at h
  | read =>
    -- a read that the queue answers does not ask the inner feed
    obtain ⟨message, queue, hqueue⟩ := List.exists_cons_of_ne_nil
      (fun hnil => by simp [passesOn, hnil] at h : r.queue ≠ [])
    simp only [Call.ask, reader_read, read_of_queue_cons hqueue, Reply.map]
  | acknowledge failure =>
    -- an acknowledgement goes through, and changes the counters only
    cases failure with
    | none => exact Feed.acknowledge_uncounted none r.inner
    | some reason => exact Feed.acknowledge_uncounted (some reason) r.inner
  | waitForClose milliseconds => simp [passesOn] at h

/-- **A bare feed goes the same way on the calls that are left.** By induction on the calls.  The
    two states are kept alike, and not equal, because the acknowledgements reset the arena of the
    inner feed only. -/
theorem run_kept (calls : List (Call ω)) {r : Redelivery (Feed ω φ η)} {f : Feed ω φ η}
    (h : r.inner.uncounted = f.uncounted) :
    freshReads calls r = (run (kept calls r) f).answer.filterMap Answer.read? ∧
      (run calls r).next.inner.uncounted = (run (kept calls r) f).next.uncounted := by
  induction calls generalizing r f with
  | nil => exact ⟨rfl, h⟩
  | cons call later ih =>
    rw [freshReads, kept, run_cons_next]
    cases hpassed : r.passesOn call with
    | true =>
      -- a step of both
      obtain ⟨hinner, hread⟩ := ask_of_passesOn hpassed
      obtain ⟨hanswer, hnext⟩ := Feed.ask_alike h call
      obtain ⟨hreads, hlast⟩ := ih ((congrArg Feed.uncounted hinner).trans hnext)
      simp only [if_true, run_cons_answer, run_cons_next]
      refine ⟨?_, hlast⟩
      rw [hread, hreads, hanswer, List.filterMap_cons]
      cases (call.ask f).answer.read? <;> rfl
    | false =>
      -- a step that the bare feed does not take
      simp only [Bool.false_eq_true, if_false]
      exact ih ((inner_of_erased hpassed).trans h)

/-! ## Order

  What a bare feed reads was dealt with before, so nothing about order has to be shown of the
  redelivery. -/

/-- **Redelivery does not disturb the feed under it.**  Erase from any run of a redelivery over a
    feed the acknowledgements and the reads that the queue answers.  Asked what is left, a bare feed
    reads the same messages and fails with the same errors, and it ends with the same link and the
    same factory.  So, as long as nobody gives a stream back, the new messages are the first ones of
    the streams on offer, one stream after another, whatever becomes of their delivery. -/
theorem fresh_reads {offers : Offers} {unblock : Switch → Switch} {settings : Settings}
    {f : Feed Switch Offers Script} (hmake : Feed.make offers unblock settings = .ok f)
    {calls : List (Call Switch)} (hquiet : ∀ call ∈ calls, call.surroundings.thrown = 0) :
    let start : Redelivery (Feed Switch Offers Script) := { inner := f }
    let bare := run (kept calls start) f
    freshReads calls start = bare.answer.filterMap Answer.read? ∧
    (run calls start).next.inner.link = bare.next.link ∧
    (run calls start).next.inner.factory = bare.next.factory ∧
    ((∀ call ∈ calls, ∀ milliseconds, call.request ≠ .waitForClose milliseconds) →
      ((freshReads calls start).filterMap Except.toOption).map Message.payloads <+:
        offers.streams.flatMap (Script.messages settings)) := by
  intro start bare
  obtain ⟨hreads, hlast⟩ := run_kept calls (rfl : start.inner.uncounted = f.uncounted)
  obtain ⟨hfactory, -, -, -, hlink⟩ := Feed.uncounted_eq_iff.mp hlast
  refine ⟨hreads, hlink, hfactory, fun hheld => ?_⟩
  -- what is assumed of all calls holds of those that are left
  have hmem {call : Call Switch} (h : call ∈ kept calls start) : call ∈ calls :=
    (kept_sublist calls start).subset h
  have hfresh : (freshReads calls start).filterMap Except.toOption =
      messagesRead (kept calls start) f := by
    rw [hreads, List.filterMap_filterMap, messagesRead]
    exact congrArg (List.filterMap · _) (funext fun answer => answer.message?_eq.symm)
  have hprefix := Feed.messagesRead_prefix (w := ⟨0⟩) rfl
    (fun call h => congrArg Switch.mk (hquiet call (hmem h))) (fun call h => hheld call (hmem h)) f
  rw [Feed.ahead_of_make hmake] at hprefix
  rw [hfresh]
  exact hprefix

/-- Calls that read two streams, with a delivery that fails twice. -/
def redeliverTwoStreams : List (Call Switch) :=
  [.connect, .read, .acknowledge (some "down"), .read, .acknowledge (some "down"), .read,
    .acknowledge none, .read, .connect, .connect, .read].map (Call.mk ⟨0⟩)

/-- The first message is delivered three times and read from the feed once. -/
theorem fresh_reads_two_streams :
    Feed.make Feed.twoStreams Switch.throw { multipart := true } = .ok Feed.overTwoStreams ∧
    (∀ call ∈ redeliverTwoStreams, call.surroundings.thrown = 0) ∧
    (kept redeliverTwoStreams { inner := Feed.overTwoStreams }).map Call.request =
      [.connect, .read, .read, .connect, .connect, .read] ∧
    freshReads redeliverTwoStreams { inner := Feed.overTwoStreams } =
      (run (kept redeliverTwoStreams { inner := Feed.overTwoStreams })
        Feed.overTwoStreams).answer.filterMap Answer.read? ∧
    ((freshReads redeliverTwoStreams { inner := Feed.overTwoStreams }).filterMap
      Except.toOption).map Message.payloads = [[[97]], [[99]]] :=
  have hmake : Feed.make Feed.twoStreams Switch.throw { multipart := true } =
    .ok Feed.overTwoStreams := rfl
  have hquiet : ∀ call ∈ redeliverTwoStreams, call.surroundings.thrown = 0 := by
    simp [redeliverTwoStreams]
  ⟨hmake, hquiet, by decide +kernel, (fresh_reads hmake hquiet).1, by decide +kernel⟩

end Redelivery

end RecordFeed
