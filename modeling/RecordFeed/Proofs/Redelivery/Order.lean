/-
  When messages come again in the order of their stream.

  What failed waits in a queue, first in, first out, so a message that fails a second time goes
  behind those that have waited since the first time.  If some of these are younger, the order of
  the stream is lost.

  1. **Numbers** (`Numbered`).  A reader that numbers its messages as it gives them is a reader
     itself, so that a redelivery can run on it.  The number goes along as one more part of the
     message, and a redelivery looks into no message, so without the numbers it is the same run
     (`run_unnumbered`).

  2. **Step** (`Orderly`).  Taken together, what is pending and then what waits is in order at the
     beginning.  Reading does not change this, for it takes the first that waits or brings in a
     number that is new; and what is settled are the first of them.  A failed delivery turns the two
     around.  That does no harm if there is nothing in one of them, and always does otherwise
     (`Overtakes`).

  3. **Run** (`queue_ordered_iff`).  So the queue is in order throughout a run just when no delivery
     fails while messages are pending and others still wait.
-/
import RecordFeed.Proofs.Redelivery.Precedence

namespace RecordFeed

/-! ## Numbers

  Messages are told apart by numbers, and not by what is in them: a stream may hold the same
  message twice.  The number is put into the message, where nobody looks who does not know of
  it. -/

namespace Message

/-- The same message with a number: one more part, blank, whose window says it. -/
def stamp (number : Nat) (m : Message) : Message := m.push ⟨[], ⟨number, 0, 0⟩⟩

/-- The number of a message that bears one. -/
def number (m : Message) : Nat := (m.parts.back?.map fun part => part.window.segment).getD 0

/-- The message without the number. -/
def unstamped (m : Message) : Message := ⟨m.parts.pop⟩

/-- The number can be read off again. -/
@[simp] theorem number_stamp (number : Nat) (m : Message) : (m.stamp number).number = number := by
  simp [stamp, push, Message.number]

/-- And the message is as it was when the number is taken away. -/
@[simp] theorem unstamped_stamp (number : Nat) (m : Message) :
    (m.stamp number).unstamped = m := by
  simp [stamp, push, unstamped]

/-- Messages in the order of their numbers. -/
def Ordered (messages : List Message) : Prop := (messages.map number).Pairwise (· < ·)

instance (messages : List Message) : Decidable (Ordered messages) :=
  inferInstanceAs (Decidable (List.Pairwise _ _))

/-- Leaving messages out keeps the order of the others. -/
theorem Ordered.sublist {part messages : List Message} (h : Ordered messages)
    (hpart : part.Sublist messages) : Ordered part :=
  List.Pairwise.sublist (hpart.map number) h

/-- Two lists one behind the other are in order if both are, and all of the first come before all of
    the second. -/
theorem ordered_append {front back : List Message} :
    Ordered (front ++ back) ↔ Ordered front ∧ Ordered back ∧
      ∀ m ∈ front, ∀ n ∈ back, m.number < n.number := by
  rw [Ordered, List.map_append, List.pairwise_append, List.forall_mem_map]
  simp only [List.forall_mem_map]
  rfl

/-- Two lists that are not empty cannot be in order both ways round. -/
theorem not_ordered_of_append {front back : List Message} (h : Ordered (front ++ back))
    (hfront : front ≠ []) (hback : back ≠ []) : ¬ Ordered (back ++ front) := by
  intro hturned
  obtain ⟨m, hm⟩ := List.exists_mem_of_ne_nil front hfront
  obtain ⟨n, hn⟩ := List.exists_mem_of_ne_nil back hback
  have hbefore := (ordered_append.mp h).2.2 m hm n hn
  have hafter := (ordered_append.mp hturned).2.2 n hn m hm
  omega

end Message

/-- A reader, with the number of messages that it gave.  The numbers are those of the stream as the
    inner reader gives it. -/
structure Numbered (ρ : Type) where
  reader : ρ
  count : Nat := 0

namespace Numbered

variable {ω ρ : Type} [MessageReader ω ρ]

/-- The same numbers, with the reader moved along. -/
def withReader (n : Numbered ρ) (reader : ρ) : Numbered ρ := { n with reader }

/-- Every message that is read bears the number of those before it. -/
def read (w : ω) (n : Numbered ρ) : Reply (Numbered ρ) (Except FeedError Message) :=
  let reply := MessageReader.read w n.reader
  match reply.answer with
  | .ok message =>
    { answer := .ok (message.stamp n.count)
      next := { reader := reply.next, count := n.count + 1 }
      events := reply.events }
  | .error error =>
    { answer := .error error, next := n.withReader reply.next, events := reply.events }

instance : MessageReader ω (Numbered ρ) where
  connect w n := (MessageReader.connect w n.reader).within n.withReader
  read := read
  acknowledge w failure n := (MessageReader.acknowledge w failure n.reader).within n.withReader
  waitForClose w milliseconds n :=
    (MessageReader.waitForClose w milliseconds n.reader).within n.withReader
  closeAsync n := MessageReader.closeAsync n.reader

/-- Unfolds the instance, as for `Booked`. -/
@[simp] theorem reader_read (w : ω) (n : Numbered ρ) : MessageReader.read w n = n.read w := rfl

/-- A message gets the next number. -/
theorem read_of_ok {w : ω} {n : Numbered ρ} {message : Message}
    (h : (MessageReader.read w n.reader).answer = .ok message) :
    (n.read w).answer = .ok (message.stamp n.count) ∧ (n.read w).next.count = n.count + 1 := by
  simp [read, h]

/-- A read that fails uses up none. -/
theorem read_of_error {w : ω} {n : Numbered ρ} {error : FeedError}
    (h : (MessageReader.read w n.reader).answer = .error error) :
    (n.read w).answer = .error error ∧ (n.read w).next.count = n.count := by
  simp [read, h, withReader]

/-- The reader goes on as it does without its numbers. -/
theorem relabels : Relabels ω Message.unstamped (reader (ρ := ρ)) where
  connect _ _ := rfl
  read w n := by
    show _ = ((n.read w).within reader).map _
    rcases hreply : MessageReader.read w n.reader with ⟨answer, next, events⟩
    cases answer <;>
      simp [read, hreply, withReader, Reply.within, Reply.map, Except.map]
  acknowledge _ _ _ := rfl
  waitForClose _ _ _ := rfl

end Numbered

namespace Redelivery

variable {ω ρ : Type} [MessageReader ω ρ]

/-- The same redelivery without the numbers. -/
def unnumbered (r : Redelivery (Numbered ρ)) : Redelivery ρ :=
  r.relabel Message.unstamped Numbered.reader

/-- Numbers change nothing about a run but that they are there. -/
theorem run_unnumbered (calls : List (Call ω)) (r : Redelivery (Numbered ρ)) :
    run calls r.unnumbered =
      ((run calls r).within unnumbered).map (List.map (Answer.relabel Message.unstamped)) :=
  run_relabel Numbered.relabels calls r

/-! ## Step

  The order of the queue is not kept by itself: a read changes neither what is pending nor the
  order of both taken together, but it does change the queue.  So the invariant is about both. -/

/-- A delivery fails while messages are pending and others still wait: those that waited will come
    first from now on. -/
def Overtakes (call : Call ω) (r : Redelivery ρ) : Prop :=
  (∃ reason, call.request = .acknowledge (some reason)) ∧ r.pending ≠ [] ∧ r.queue ≠ []

/-- No message has a number that the reader has not come to yet. -/
def Counted (r : Redelivery (Numbered ρ)) : Prop := ∀ m ∈ r.outstanding, m.number < r.inner.count

/-- What is pending and then what waits is in order, and all that comes later comes behind.  Unlike
    the order of the queue alone, this is kept by reads as well, which take from the queue what they
    add to what is pending. -/
structure Orderly (r : Redelivery (Numbered ρ)) : Prop where
  ordered : Message.Ordered r.outstanding
  counted : r.Counted

omit [MessageReader ω ρ] in
/-- What waits is then in order by itself. -/
theorem Orderly.queue {r : Redelivery (Numbered ρ)} (h : r.Orderly) : Message.Ordered r.queue :=
  h.ordered.sublist (List.sublist_append_right r.pending r.queue)

/-- All that a call can do to what is outstanding.  Two of them take nothing out of the order and
    one only takes from its front; `requeues` is the one that matters. -/
inductive Turned (call : Call ω) (r next : Redelivery (Numbered ρ)) : Prop where
  /-- Nothing is added, and nothing else is moved. -/
  | stays (houtstanding : next.outstanding = r.outstanding)
      (hcount : next.inner.count = r.inner.count)
  /-- What was pending is forgotten. -/
  | settles (houtstanding : next.outstanding = r.queue) (hcount : next.inner.count = r.inner.count)
  /-- What was pending waits behind all others. -/
  | requeues (hfails : ∃ reason, call.request = .acknowledge (some reason))
      (hqueue : next.queue = r.queue ++ r.pending) (hpending : next.pending = [])
      (hcount : next.inner.count = r.inner.count)
  /-- A message is new. -/
  | gives (message : Message) (hnumber : message.number = r.inner.count)
      (houtstanding : next.outstanding = r.outstanding ++ [message])
      (hcount : next.inner.count = r.inner.count + 1)

/-- By the request.  This is the only place where the operations of a redelivery are looked at; the
    lemmas on order go by the four cases. -/
theorem turned_of_ask (call : Call ω) (r : Redelivery (Numbered ρ)) :
    Turned call r (call.ask r).next := by
  obtain ⟨w, request⟩ := call
  obtain ⟨inner, pending, queue⟩ := r
  cases request with
  | connect | waitForClose milliseconds => exact .stays rfl rfl
  | acknowledge failure =>
    cases failure with
    | none => exact .settles (List.nil_append queue) rfl
    | some reason => exact .requeues ⟨reason, rfl⟩ rfl rfl rfl
  | read =>
    cases queue with
    | cons first queue =>
      refine .stays ?_ rfl
      show pending ++ [first] ++ queue = pending ++ first :: queue
      rw [List.append_assoc, List.singleton_append]
    | nil =>
      show Turned _ _ (read w _).next
      rw [read_of_queue_nil rfl, Numbered.reader_read]
      cases hanswer : (MessageReader.read w inner.reader).answer with
      | ok message =>
        obtain ⟨hread, hcount⟩ := Numbered.read_of_ok hanswer
        simp only [hread]
        refine .gives (message.stamp inner.count) (Message.number_stamp _ _) ?_ hcount
        simp [outstanding]
      | error error =>
        obtain ⟨hread, hcount⟩ := Numbered.read_of_error hanswer
        simp only [hread]
        exact .stays rfl hcount

variable {call : Call ω} {r next : Redelivery (Numbered ρ)}

omit [MessageReader ω ρ] in
/-- No call gives a number twice, so those to come are larger than all that are outstanding. -/
theorem Turned.counted (h : Turned call r next) (hr : r.Counted) : next.Counted := by
  intro m hm
  cases h with
  | stays houtstanding hcount =>
    rw [houtstanding] at hm
    rw [hcount]
    exact hr m hm
  | settles houtstanding hcount =>
    rw [houtstanding] at hm
    rw [hcount]
    exact hr m (List.mem_append_right _ hm)
  | requeues hfails hqueue hpending hcount =>
    rw [outstanding, hpending, hqueue, List.nil_append] at hm
    rw [hcount]
    exact hr m (List.perm_append_comm.mem_iff.mp hm)
  | gives message hnumber houtstanding hcount =>
    rw [houtstanding, List.mem_append, List.mem_singleton] at hm
    -- an older message, or the one that is new
    rcases hm with hbefore | rfl
    · have := hr m hbefore
      omega
    · omega

omit [MessageReader ω ρ] in
/-- **A call that lets nothing overtake** keeps the order. -/
theorem Turned.orderly (h : Turned call r next) (hr : r.Orderly) (hkeeps : ¬ Overtakes call r) :
    next.Orderly := by
  refine ⟨?_, h.counted hr.counted⟩
  cases h with
  | stays houtstanding hcount =>
    rw [houtstanding]
    exact hr.ordered
  | settles houtstanding hcount =>
    rw [houtstanding]
    exact hr.queue
  | requeues hfails hqueue hpending hcount =>
    rw [outstanding, hpending, hqueue, List.nil_append]
    have hordered := hr.ordered
    unfold outstanding at hordered
    by_cases hnone : r.pending = []
    · -- nothing was pending, so nothing goes behind
      rw [hnone, List.append_nil]
      exact hr.queue
    · by_cases hread : r.queue = []
      · -- all that waited is read again
        rw [hread, List.append_nil] at hordered
        rw [hread, List.nil_append]
        exact hordered
      · exact absurd ⟨hfails, hnone, hread⟩ hkeeps
  | gives message hnumber houtstanding hcount =>
    rw [houtstanding, Message.ordered_append]
    -- the number is new, and so larger than all that are outstanding
    refine ⟨hr.ordered, List.pairwise_singleton _ _, ?_⟩
    intro m hm n hn
    rw [List.mem_singleton.mp hn, hnumber]
    exact hr.counted m hm

/-- **Where something is overtaken the order is lost.** The two lists are then not empty, and they
    cannot be in order both ways round. -/
theorem not_ordered_of_overtakes (hr : r.Orderly) (h : Overtakes call r) :
    ¬ Message.Ordered (call.ask r).next.queue := by
  obtain ⟨w, request⟩ := call
  obtain ⟨⟨reason, hfails⟩, hpending, hqueue⟩ := h
  obtain rfl : request = .acknowledge (some reason) := hfails
  exact Message.not_ordered_of_append hr.ordered hpending hqueue

/-! ## Run

  The claim is about every state on the way, hence the prefixes of the list of calls. -/

/-- This does not depend on any order, so it holds after any run. -/
theorem counted_of_run (calls : List (Call ω)) (hr : r.Counted) : (run calls r).next.Counted :=
  run_invariant (fun call _ s hs => (turned_of_ask call s).counted hs) hr

/-- **The queue stays in order just as long as nothing is overtaken.** By induction on the calls:
    the first one keeps the order, and the others begin with it, or it overtakes and the queue is
    out of order from there.  `Orderly` is what is needed of the state in between, and as long as
    nothing overtakes it is kept (`Turned.orderly`). -/
theorem ordered_iff_of_orderly (calls : List (Call ω)) (hr : r.Orderly) :
    (∀ first, first <+: calls → Message.Ordered (run first r).next.queue) ↔
      ∀ first call, first ++ [call] <+: calls → ¬ Overtakes call (run first r).next := by
  induction calls generalizing r with
  | nil =>
    constructor
    · intro _ first call hfirst
      simp at hfirst
    · intro _ first hfirst
      rw [List.prefix_nil.mp hfirst]
      exact hr.queue
  | cons call later ih =>
    by_cases hover : Overtakes call r
    · constructor
      · intro hordered
        have hnext := hordered [call] (List.prefix_append [call] later)
        exact absurd hnext (not_ordered_of_overtakes hr hover)
      · intro hnone
        exact absurd hover (hnone [] call (List.prefix_append [call] later))
    · -- the first call keeps the order, so the rest of the run begins as this one did
      have hlater := ih ((turned_of_ask call r).orderly hr hover)
      constructor
      · intro hordered first call' hfirst
        cases first with
        | nil =>
          obtain ⟨rfl, -⟩ := List.cons_prefix_cons.mp hfirst
          exact hover
        | cons call'' first =>
          obtain ⟨rfl, hrest⟩ := List.cons_prefix_cons.mp hfirst
          refine hlater.mp ?_ first call' hrest
          intro part hpart
          exact hordered (call'' :: part) (List.cons_prefix_cons.mpr ⟨rfl, hpart⟩)
      · intro hnone first hfirst
        cases first with
        | nil => exact hr.queue
        | cons call' first =>
          obtain ⟨rfl, hrest⟩ := List.cons_prefix_cons.mp hfirst
          refine hlater.mpr ?_ first hrest
          intro part call'' hpart
          exact hnone (call' :: part) call'' (List.cons_prefix_cons.mpr ⟨rfl, hpart⟩)

/-- **When messages come again in the order of their stream.**  A redelivery runs over any
    reader, and its messages are numbered as the reader gives them, which changes nothing about
    the run.  From the beginning on, or from any later state in which what is pending and then
    what waits is in order, the queue stays in order just as long as no delivery fails while
    messages are pending and others still wait. -/
theorem queue_ordered_iff (reader : ρ) (before calls : List (Call ω)) :
    let start : Redelivery (Numbered ρ) := { inner := { reader } }
    let mid := (run before start).next
    run (before ++ calls) ({ inner := reader } : Redelivery ρ) =
      ((run (before ++ calls) start).within unnumbered).map
        (List.map (Answer.relabel Message.unstamped)) ∧
    (Message.Ordered mid.outstanding →
      ((∀ first, first <+: calls → Message.Ordered (run first mid).next.queue) ↔
        ∀ first call, first ++ [call] <+: calls → ¬ Overtakes call (run first mid).next)) := by
  intro start mid
  refine ⟨run_unnumbered (before ++ calls) start, ?_⟩
  intro hordered
  -- at the beginning nothing is outstanding
  have hnothing : start.Counted := List.forall_mem_nil _
  have hcounted : mid.Counted := counted_of_run before hnothing
  exact ordered_iff_of_orderly calls ⟨hordered, hcounted⟩

/-- A redelivery over a feed of three records, all of which are numbered. -/
def numberedRecords : Redelivery (Numbered (Feed Switch Offers Script)) :=
  { inner := { reader := overThreeRecords } }

/-- Two records are read, their delivery fails, and the first of them is read again. -/
def readHalfAgain : List (Call Switch) :=
  [.connect, .read, .read, .acknowledge (some "down"), .read].map (Call.mk ⟨0⟩)

/-- The other one is read again as well before both fail once more. -/
def failAfterAll : List (Call Switch) := [.read, .acknowledge (some "down")].map (Call.mk ⟨0⟩)

/-- When the first record fails again, nothing waits any more, so nothing overtakes it. -/
theorem queue_ordered_iff_read_again :
    let mid := (run readHalfAgain numberedRecords).next
    Message.Ordered mid.outstanding ∧
    (mid.pending.map Message.number, mid.queue.map Message.number) = ([0], [1]) ∧
    (run failAfterAll mid).next.queue.map Message.number = [0, 1] ∧
    ((∀ first, first <+: failAfterAll → Message.Ordered (run first mid).next.queue) ↔
      ∀ first call, first ++ [call] <+: failAfterAll →
        ¬ Overtakes call (run first mid).next) := by
  intro mid
  have hordered : Message.Ordered mid.outstanding := by decide +kernel
  exact ⟨hordered, by decide +kernel, by decide +kernel,
    (queue_ordered_iff overThreeRecords readHalfAgain failAfterAll).2 hordered⟩

/-- The delivery fails right then. -/
def failAfterHalf : List (Call Switch) :=
  readHalfAgain ++ [.acknowledge (some "down")].map (Call.mk ⟨0⟩)

/-- **The queue is not always in order.**  The second record waits before the first one, since
    the first one failed once more. -/
theorem younger_waits_first :
    (run failAfterHalf numberedRecords).next.queue.map
      (fun m => (m.number, m.unstamped.payloads)) = [(1, [[98]]), (0, [[97]])] ∧
    ¬ ∀ calls : List (Call Switch),
      Message.Ordered (run calls numberedRecords).next.queue := by
  refine ⟨by decide +kernel, fun hall => ?_⟩
  have hqueue := hall failAfterHalf
  revert hqueue
  decide +kernel

end Redelivery

end RecordFeed
