/-
  No message is lost, and none is settled twice.

  A message that the inner reader gave is out for delivery (`pending`), waits to be delivered again
  (`queue`), or was settled by an acknowledgement.  It may go round any number of times.

  1. **The books.**  `Booked` keeps a list of what a reader gave and is a reader itself, so that a
     redelivery can run on it.  It changes nothing about the run (`run_unbooked`), like everything
     that is only looked at through a faithful view (`Faithful`).  `settled` adds up what was
     pending whenever all of it was acknowledged.

  2. **Step** (`books_of_ask`).  A call moves messages between pending, queue and settled, and what
     is new in one of them the inner reader gave just now.

  3. **Run** (`books_of_run`).  What was given is, message by message, what was settled, what is
     pending and what waits.  When a connection is refused for good nothing is left but what was
     settled.
-/
import RecordFeed.Proofs.Sessions.Requests
import RecordFeed.Redelivery

namespace RecordFeed

/-! ## Views

  Books, tallies and numbers are kept beside a reader by wrapping it.  That the wrapping
  changes nothing is the same argument for all of them, and is made here once. -/

/-- A view of readers with which every request goes along: what is viewed is answered as the reader
    itself, and it is left as the view of what the reader is left as.  It is asked of each request
    by itself, so that it can be checked by `rfl` where a reader only keeps something besides. -/
structure Faithful (ω : Type) {ρ σ : Type} [MessageReader ω ρ] [MessageReader ω σ]
    (view : σ → ρ) : Prop where
  connect : ∀ (w : ω) (s : σ),
    MessageReader.connect w (view s) = (MessageReader.connect w s).within view
  read : ∀ (w : ω) (s : σ), MessageReader.read w (view s) = (MessageReader.read w s).within view
  acknowledge : ∀ (w : ω) (failure : Option String) (s : σ),
    MessageReader.acknowledge w failure (view s) =
      (MessageReader.acknowledge w failure s).within view
  waitForClose : ∀ (w : ω) (milliseconds : Nat) (s : σ),
    MessageReader.waitForClose w milliseconds (view s) =
      (MessageReader.waitForClose w milliseconds s).within view

/-- A view of readers that also shows every message under another label.  `Numbered` needs it, where
    the view takes the numbers away. -/
structure Relabels (ω : Type) {ρ σ : Type} [MessageReader ω ρ] [MessageReader ω σ]
    (label : Message → Message) (view : σ → ρ) : Prop where
  connect : ∀ (w : ω) (s : σ),
    MessageReader.connect w (view s) = (MessageReader.connect w s).within view
  read : ∀ (w : ω) (s : σ), MessageReader.read w (view s) =
    ((MessageReader.read w s).within view).map (Except.map label)
  acknowledge : ∀ (w : ω) (failure : Option String) (s : σ),
    MessageReader.acknowledge w failure (view s) =
      (MessageReader.acknowledge w failure s).within view
  waitForClose : ∀ (w : ω) (milliseconds : Nat) (s : σ),
    MessageReader.waitForClose w milliseconds (view s) =
      (MessageReader.waitForClose w milliseconds s).within view

/-- The same answer, with another label on the message that was read. -/
def Answer.relabel (label : Message → Message) : Answer → Answer
  | .done outcome => .done outcome
  | .message outcome => .message (outcome.map label)

/-- Showing the messages as they are. -/
theorem Answer.relabel_id : Answer.relabel id = id := by
  funext answer
  cases answer with
  | done outcome => rfl
  | message outcome => cases outcome <;> rfl

/-- A view that shows the reader as it is shows every message under its own label. -/
theorem Faithful.relabels {ω ρ σ : Type} [MessageReader ω ρ] [MessageReader ω σ] {view : σ → ρ}
    (h : Faithful ω view) : Relabels ω id view where
  connect := h.connect
  read w s := by
    rw [h.read]
    cases hread : (MessageReader.read w s).answer <;>
      simp [Reply.map, Reply.within, hread, Except.map]
  acknowledge := h.acknowledge
  waitForClose := h.waitForClose

namespace Redelivery

variable {ω ρ σ : Type} [MessageReader ω ρ] [MessageReader ω σ] {view : σ → ρ}
  {label : Message → Message}

/-- The same redelivery over what a view shows of the inner reader, with other labels. -/
def relabel (label : Message → Message) (view : σ → ρ) (r : Redelivery σ) : Redelivery ρ :=
  { inner := view r.inner, pending := r.pending.map label, queue := r.queue.map label }

omit [MessageReader ω ρ] [MessageReader ω σ] in
/-- Whether a refusal is masked depends on how many messages are outstanding, and not on their
    labels. -/
theorem masked_relabel (r : Redelivery σ) (answer : Except FeedError Unit) :
    (r.relabel label view).masked answer = r.masked answer := by
  have hsame : (r.relabel label view).isOutstanding = r.isOutstanding := by
    simp [isOutstanding, relabel]
  unfold masked
  rw [hsame]

/-- Nothing that a redelivery does depends on the messages.  By the request.  A read is taken apart
    by the queue, and then by what the inner reader answers. -/
theorem ask_relabel (h : Relabels ω label view) (call : Call ω) (r : Redelivery σ) :
    call.ask (r.relabel label view) =
      ((call.ask r).within (relabel label view)).map (Answer.relabel label) := by
  obtain ⟨w, request⟩ := call
  cases request with
  | connect =>
    have hinner : MessageReader.connect w (r.relabel label view).inner =
        (MessageReader.connect w r.inner).within view := h.connect w r.inner
    show (connect w (r.relabel label view)).map Answer.done = _
    rw [connect, masked_relabel, hinner]
    rfl
  | read =>
    obtain ⟨inner, pending, queue⟩ := r
    cases queue with
    | cons message queue =>
      simp [Call.ask, relabel, read, Answer.relabel, Reply.map, Reply.within, Except.map]
    | nil =>
      -- nothing waits, so the inner reader is asked on both sides
      show (read w (relabel label view _)).map Answer.message = _
      rw [relabel, List.map_nil, read, h.read]
      rcases hreply : MessageReader.read w inner with ⟨answer, next, events⟩
      cases answer <;>
        simp [Call.ask, read, hreply, relabel, Answer.relabel, Reply.map, Reply.within, Except.map]
  | acknowledge failure =>
    have hinner := h.acknowledge w failure r.inner
    cases failure <;>
      simp [Call.ask, acknowledge, relabel, hinner, Answer.relabel, Reply.map, Reply.within, withInner]
  | waitForClose milliseconds =>
    show (waitForClose w milliseconds (r.relabel label view)).map Answer.done = _
    rw [waitForClose, relabel, h.waitForClose]
    rfl

/-- Nor does a run.  By induction on the calls. -/
theorem run_relabel (h : Relabels ω label view) (calls : List (Call ω)) (r : Redelivery σ) :
    run calls (r.relabel label view) =
      ((run calls r).within (relabel label view)).map (List.map (Answer.relabel label)) := by
  induction calls generalizing r with
  | nil => rfl
  | cons call later ih =>
    rw [run, ask_relabel h, Reply.map_next, Reply.within_next, ih]
    rfl

/-- The same messages over what a view shows of the inner reader. -/
def mapInner (view : σ → ρ) (r : Redelivery σ) : Redelivery ρ :=
  { inner := view r.inner, pending := r.pending, queue := r.queue }

/-- Without other labels. -/
theorem relabel_id (r : Redelivery σ) : r.relabel id view = r.mapInner view := by
  rw [relabel, List.map_id, List.map_id]
  rfl

/-- A redelivery goes on over a view as it does without it. -/
theorem ask_mapInner (h : Faithful ω view) (call : Call ω) (r : Redelivery σ) :
    call.ask (r.mapInner view) = (call.ask r).within (mapInner view) := by
  rw [← relabel_id, ask_relabel h.relabels, Answer.relabel_id]
  show (call.ask r).within (relabel id view) = _
  rw [funext relabel_id]

/-- So does a run of it.  By induction on the calls. -/
theorem run_mapInner (h : Faithful ω view) (calls : List (Call ω)) (r : Redelivery σ) :
    run calls (r.mapInner view) = (run calls r).within (mapInner view) := by
  induction calls generalizing r with
  | nil => rfl
  | cons call later ih =>
    rw [run, ask_mapInner h, Reply.within_next, ih]
    rfl

end Redelivery

/-! ## The books

  Only messages that the inner reader gave are booked.  Those that are read from the queue were
  booked before. -/

/-- A reader, with the messages that it gave. -/
structure Booked (ρ : Type) where
  reader : ρ
  given : List Message := []

namespace Booked

variable {ω ρ : Type}

/-- The same books, with the reader moved along. -/
def withReader (b : Booked ρ) (reader : ρ) : Booked ρ := { b with reader }

/-- Every message that is read is booked. -/
def read [MessageReader ω ρ] (w : ω) (b : Booked ρ) :
    Reply (Booked ρ) (Except FeedError Message) :=
  let reply := MessageReader.read w b.reader
  { answer := reply.answer
    next := { reader := reply.next, given := b.given ++ reply.answer.toOption.toList }
    events := reply.events }

instance [MessageReader ω ρ] : MessageReader ω (Booked ρ) where
  connect w b := (MessageReader.connect w b.reader).within b.withReader
  read := read
  acknowledge w failure b := (MessageReader.acknowledge w failure b.reader).within b.withReader
  waitForClose w milliseconds b :=
    (MessageReader.waitForClose w milliseconds b.reader).within b.withReader
  closeAsync b := MessageReader.closeAsync b.reader

/-- Unfolds the instance, which a `simp` would otherwise stop at. -/
@[simp] theorem reader_read [MessageReader ω ρ] (w : ω) (b : Booked ρ) :
    MessageReader.read w b = b.read w := rfl

/-- The reader goes on as it does without its books. -/
theorem faithful [MessageReader ω ρ] : Faithful ω (reader (ρ := ρ)) :=
  ⟨fun _ _ => rfl, fun _ _ => rfl, fun _ _ _ => rfl, fun _ _ _ => rfl⟩

end Booked

namespace Redelivery

variable {ω ρ : Type} [MessageReader ω ρ]

/-- The messages that have not been settled. -/
def outstanding (r : Redelivery ρ) : List Message := r.pending ++ r.queue

/-- The messages that a call settles.  A failed delivery settles nothing. -/
def settledBy (call : Call ω) (r : Redelivery ρ) : List Message :=
  if call.request = .acknowledge none then r.pending else []

/-- The messages that the calls settle. -/
def settled : List (Call ω) → Redelivery ρ → List Message
  | [], _ => []
  | call :: later, r => settledBy call r ++ settled later (call.ask r).next

/-- The same redelivery without the books of its reader. -/
def unbooked (r : Redelivery (Booked ρ)) : Redelivery ρ :=
  { inner := r.inner.reader, pending := r.pending, queue := r.queue }

/-- Keeping the books changes nothing about a run. -/
theorem run_unbooked (calls : List (Call ω)) (r : Redelivery (Booked ρ)) :
    run calls r.unbooked = (run calls r).within unbooked :=
  run_mapInner Booked.faithful calls r

/-! ## Step

  The four requests are gone through once.  Everything else in this module adds up what a
  single call does. -/

/-- **A call moves messages about.** What was not settled before it, together with what the inner
    reader gives during it, is what it settles together with what is not settled after it.  The
    order within the lists may change, as it does when a delivery fails, but no message is added or
    left out. -/
theorem books_of_ask (call : Call ω) (r : Redelivery (Booked ρ)) :
    ∃ fresh, (call.ask r).next.inner.given = r.inner.given ++ fresh ∧
      (r.outstanding ++ fresh).Perm (settledBy call r ++ (call.ask r).next.outstanding) := by
  obtain ⟨w, request⟩ := call
  cases request with
  | connect => exact ⟨[], (List.append_nil _).symm, by rw [List.append_nil]; exact .rfl⟩
  | waitForClose milliseconds =>
    exact ⟨[], (List.append_nil _).symm, by rw [List.append_nil]; exact .rfl⟩
  | acknowledge failure =>
    refine ⟨[], ?_, ?_⟩
    · cases failure <;> exact (List.append_nil _).symm
    · rw [List.append_nil]
      cases failure with
      -- settled: all that was pending leaves the books
      | none => exact .rfl
      | some reason => exact List.perm_append_comm
  | read =>
    obtain ⟨⟨reader, given⟩, pending, queue⟩ := r
    cases queue with
    | cons message queue =>
      -- what waited is out for delivery again
      refine ⟨[], (List.append_nil _).symm, ?_⟩
      show (pending ++ message :: queue ++ []).Perm (pending ++ [message] ++ queue)
      rw [List.append_nil, List.append_cons]
    | nil =>
      rcases hreply : MessageReader.read w reader with ⟨answer, next, events⟩
      -- what is new is booked and pending at once
      have hbooked : Booked.read w ⟨reader, given⟩ =
          ⟨answer, ⟨next, given ++ answer.toOption.toList⟩, events⟩ := by
        rw [Booked.read, hreply]
      refine ⟨answer.toOption.toList, ?_⟩
      simp only [Call.ask, reader_read, read, Booked.reader_read, hbooked, settledBy, outstanding]
      cases answer with
      | error error => simp [Except.toOption]
      | ok message => simp [Except.toOption]

/-- A read that fails gives nothing and moves nothing. -/
theorem read_error {w : ω} {r : Redelivery (Booked ρ)} {error : FeedError}
    (h : (r.read w).answer = .error error) :
    (r.read w).next.inner.given = r.inner.given ∧ (r.read w).next.pending = r.pending ∧
      (r.read w).next.queue = r.queue := by
  cases hqueue : r.queue with
  | cons message queue => simp [read_of_queue_cons hqueue] at h
  | nil =>
    rw [read_of_queue_nil hqueue, Booked.reader_read] at h ⊢
    rcases hreply : MessageReader.read w r.inner.reader with ⟨answer, next, events⟩
    rw [Booked.read, hreply] at h ⊢
    cases answer with
    | ok message => simp at h
    | error error => exact ⟨List.append_nil _, rfl, hqueue⟩

omit [MessageReader ω ρ] in
/-- Nothing is outstanding when nothing is pending and nothing waits. -/
theorem isOutstanding_eq_false_iff {r : Redelivery ρ} :
    r.isOutstanding = false ↔ r.pending = [] ∧ r.queue = [] := by
  rw [isOutstanding, Bool.or_eq_false_iff, Bool.not_eq_false', Bool.not_eq_false',
    List.isEmpty_iff, List.isEmpty_iff, and_comm]

/-- A connection is refused for good when the inner reader refuses it and all is settled.  As long
    as something is outstanding the refusal is masked, so that the caller comes back. -/
theorem connect_closed_iff {w : ω} {r : Redelivery ρ} :
    (r.connect w).answer = .error .closed ↔
      (MessageReader.connect w r.inner).answer = .error .closed ∧
        r.pending = [] ∧ r.queue = [] := by
  rw [← isOutstanding_eq_false_iff]
  show r.masked (MessageReader.connect w r.inner).answer = .error .closed ↔ _
  constructor
  · intro h
    unfold masked at h
    split at h
    · rename_i hinner
      -- with something outstanding the refusal would have been masked
      cases hout : r.isOutstanding with
      | true => simp [hout] at h
      | false => exact ⟨hinner, rfl⟩
    · rename_i hother
      exact absurd h hother
  · rintro ⟨hinner, hout⟩
    rw [masked_of_not_outstanding hout, hinner]

/-! ## Run

  The account of a run is put together from those of its calls. -/

/-- One more call settles what it settles after the others.  By induction on the calls. -/
theorem settled_concat (calls : List (Call ω)) (call : Call ω) (r : Redelivery ρ) :
    settled (calls ++ [call]) r = settled calls r ++ settledBy call (run calls r).next := by
  induction calls generalizing r with
  | nil => exact List.append_nil _
  | cons first later ih => rw [List.cons_append, settled, ih, ← List.append_assoc]; rfl

/-- The books of a run, by induction on the calls.  What the first call settles stands before what
    the others settle. -/
theorem books_of_run (calls : List (Call ω)) (r : Redelivery (Booked ρ)) :
    ∃ fresh, (run calls r).next.inner.given = r.inner.given ++ fresh ∧
      (r.outstanding ++ fresh).Perm (settled calls r ++ (run calls r).next.outstanding) := by
  induction calls generalizing r with
  | nil => exact ⟨[], (List.append_nil _).symm, by rw [List.append_nil]; exact .rfl⟩
  | cons call later ih =>
    obtain ⟨first, hfirst, hstep⟩ := books_of_ask call r
    obtain ⟨rest, hrest, hrun⟩ := ih (call.ask r).next
    refine ⟨first ++ rest, ?_, ?_⟩
    · rw [run_cons_next, hrest, hfirst, List.append_assoc]
    · calc r.outstanding ++ (first ++ rest)
          = r.outstanding ++ first ++ rest := (List.append_assoc ..).symm
        List.Perm _ (settledBy call r ++ (call.ask r).next.outstanding ++ rest) :=
            hstep.append_right rest
        _ = settledBy call r ++ ((call.ask r).next.outstanding ++ rest) := List.append_assoc ..
        List.Perm _ (settledBy call r ++
            (settled later (call.ask r).next ++ (run later (call.ask r).next).next.outstanding)) :=
            hrun.append_left _
        _ = settled (call :: later) r ++ (run (call :: later) r).next.outstanding :=
            (List.append_assoc ..).symm

/-- **No message is lost and none is settled twice.**  Whatever the inner reader answers and
    whatever is asked: keeping the books changes nothing about the run; the messages given are
    those settled, those pending and those that wait, each as often as it was given; a read that
    fails changes none of them; and a connection is refused for good just when the inner reader
    refuses it and nothing is pending or waits, so that then all that was given has been settled. -/
theorem given_perm_settled (reader : ρ) (calls : List (Call ω)) :
    let start : Redelivery (Booked ρ) := { inner := { reader } }
    let last := (run calls start).next
    run calls ({ inner := reader } : Redelivery ρ) = (run calls start).within unbooked ∧
    last.inner.given.Perm (settled calls start ++ (last.pending ++ last.queue)) ∧
    (∀ (w : ω) (error : FeedError), (last.read w).answer = .error error →
      settled (calls ++ [⟨w, .read⟩]) start = settled calls start ∧
        (last.read w).next.inner.given = last.inner.given ∧
        (last.read w).next.pending = last.pending ∧ (last.read w).next.queue = last.queue) ∧
    (∀ w : ω, (last.connect w).answer = .error .closed ↔
      (MessageReader.connect w last.inner).answer = .error .closed ∧
        last.pending = [] ∧ last.queue = []) ∧
    (∀ w : ω, (last.connect w).answer = .error .closed →
      last.inner.given.Perm (settled calls start)) := by
  intro start last
  obtain ⟨fresh, hgiven, hperm⟩ := books_of_run calls start
  have hbooks : last.inner.given.Perm (settled calls start ++ last.outstanding) := by
    rw [hgiven]
    exact hperm
  refine ⟨run_unbooked calls start, hbooks, fun w error herror => ⟨?_, read_error herror⟩,
    fun w => connect_closed_iff, fun w hclosed => ?_⟩
  · rw [settled_concat]
    exact List.append_nil _
  obtain ⟨-, hpending, hqueue⟩ := connect_closed_iff.mp hclosed
  rw [outstanding, hpending, hqueue, List.append_nil, List.append_nil] at hbooks
  exact hbooks

end Redelivery

end RecordFeed
