/-
  What failed comes before anything new.

  A failed acknowledgement puts all that was pending behind what waits already.  Until all of it has
  been read again nothing else is read, whatever is asked in between and however often the delivery
  fails again.

  1. **The tally.**  `Tallied` counts the reads that a reader is asked for and is a reader itself.
     It changes nothing about a run (`Tallied.faithful`).

  2. **Step** (`owed_of_read`, `owed_of_other`).  Messages at the front of the queue are owed.  A
     read takes the first of them and asks nothing of the inner reader.  No other call touches them:
     what fails goes behind them, and what is settled is not in the queue any more.

  3. **Run** (`reads_of_owed`).  So the reads give what is owed, one message after another.
-/
import RecordFeed.Proofs.Redelivery.Ledger
import RecordFeed.Script

namespace RecordFeed

/-! ## The tally

  That a reader is not asked cannot be told from its state, for it may answer without changing.
  So its reads are counted. -/

/-- A reader, with the number of reads that it was asked for.  A reader that is not asked does not
    change, but the tally says so of any reader at all. -/
structure Tallied (ρ : Type) where
  reader : ρ
  reads : Nat := 0

namespace Tallied

variable {ω ρ : Type} [MessageReader ω ρ]

/-- The same tally, with the reader moved along. -/
def withReader (t : Tallied ρ) (reader : ρ) : Tallied ρ := { t with reader }

/-- Every read is counted, whatever it is answered. -/
def read (w : ω) (t : Tallied ρ) : Reply (Tallied ρ) (Except FeedError Message) :=
  (MessageReader.read w t.reader).within fun reader => { reader, reads := t.reads + 1 }

instance : MessageReader ω (Tallied ρ) where
  connect w t := (MessageReader.connect w t.reader).within t.withReader
  read := read
  acknowledge w failure t := (MessageReader.acknowledge w failure t.reader).within t.withReader
  waitForClose w milliseconds t :=
    (MessageReader.waitForClose w milliseconds t.reader).within t.withReader
  closeAsync t := MessageReader.closeAsync t.reader

/-- The reader goes on as it does without its tally. -/
theorem faithful : Faithful ω (reader (ρ := ρ)) :=
  ⟨fun _ _ => rfl, fun _ _ => rfl, fun _ _ _ => rfl, fun _ _ _ => rfl⟩

end Tallied

namespace Redelivery

variable {ω ρ : Type} [MessageReader ω ρ] {owed : List Message}

/-! ## Step

  One message less is owed after every read, and the others are at the front again. -/

/-- A read takes the first message that is owed, and asks nothing of the inner reader. -/
theorem owed_of_read {r : Redelivery ρ} {message : Message} (h : message :: owed <+: r.queue)
    (w : ω) :
    (r.read w).answer = .ok message ∧ owed <+: (r.read w).next.queue ∧
      (r.read w).next.inner = r.inner := by
  obtain ⟨behind, hqueue⟩ := h
  rw [read_of_queue_cons (w := w) hqueue.symm]
  exact ⟨rfl, List.prefix_append owed behind, rfl⟩

/-- No other call reads anything or touches what is owed.  By the request. -/
theorem owed_of_other {r : Redelivery (Tallied ρ)} {call : Call ω} (hother : call.request ≠ .read)
    (h : owed <+: r.queue) :
    (call.ask r).answer.read? = none ∧ owed <+: (call.ask r).next.queue ∧
      (call.ask r).next.inner.reads = r.inner.reads := by
  obtain ⟨w, request⟩ := call
  cases request with
  | read => exact absurd rfl hother
  | connect | waitForClose milliseconds => exact ⟨rfl, h, rfl⟩
  | acknowledge failure =>
    cases failure with
    | none => exact ⟨rfl, h, rfl⟩
    | some reason =>
      -- what was pending goes behind all that waits
      exact ⟨rfl, h.trans (List.prefix_append r.queue r.pending), rfl⟩

/-! ## Run

  Each call takes the first of what is owed off the queue, or leaves all that is owed where it
  is. -/

/-- **The reads of a run give what is owed**, one message after another, and as long as there are no
    more reads than messages owed, the inner reader is not read.  By induction on the calls.  What
    is owed is a prefix of the queue and not all of it, since later failures put more behind it. -/
theorem reads_of_owed (calls : List (Call ω)) {r : Redelivery (Tallied ρ)}
    (h : owed <+: r.queue) :
    let reads := (run calls r).answer.filterMap Answer.read?
    reads.take owed.length = (owed.take reads.length).map Except.ok ∧
      (reads.length ≤ owed.length → (run calls r).next.inner.reads = r.inner.reads) := by
  induction calls generalizing r owed with
  | nil => exact ⟨by simp, fun _ => rfl⟩
  | cons call later ih =>
    rw [run_cons_next, run_cons_answer]
    by_cases hread : call.request = .read
    · obtain ⟨w, request⟩ := call
      obtain rfl : request = .read := hread
      have hanswer : ((⟨w, .read⟩ : Call ω).ask r).answer.read? = some (r.read w).answer := rfl
      rw [List.filterMap_cons_some hanswer]
      cases owed with
      -- nothing is owed any more, and the count of reads is past what the claim is about
      | nil => exact ⟨by simp, fun hle => absurd hle (by simp)⟩
      | cons message owed =>
        obtain ⟨hmessage, hfront, hinner⟩ := owed_of_read h w
        obtain ⟨hreads, htally⟩ := ih (r := (r.read w).next) hfront
        refine ⟨?_, fun hle => ?_⟩
        · show (r.read w).answer :: _ = Except.ok message :: _
          rw [hmessage]
          exact congrArg (Except.ok message :: ·) hreads
        · rw [← hinner]
          exact htally (Nat.le_of_succ_le_succ hle)
    · obtain ⟨hnone, hfront, hsame⟩ := owed_of_other hread h
      rw [List.filterMap_cons_none hnone, ← hsame]
      exact ih hfront

/-- **What failed comes before anything new.**  A redelivery over any reader has some messages
    waiting and some pending when a delivery fails.  Whatever is asked then, the next reads give
    the messages that waited and after them those that were pending, in this order, and all of
    these reads succeed.  As long as not more is read, the inner reader is never asked for a
    message.  Counting its reads changes nothing about the run. -/
theorem failed_come_first (r : Redelivery (Tallied ρ)) (w : ω) (reason : String)
    (calls : List (Call ω)) :
    let failed := (r.acknowledge w (some reason)).next
    let owed := r.queue ++ r.pending
    let reads := (run calls failed).answer.filterMap Answer.read?
    run calls (failed.mapInner Tallied.reader) =
      (run calls failed).within (mapInner Tallied.reader) ∧
    reads.take owed.length = (owed.take reads.length).map Except.ok ∧
    (reads.length ≤ owed.length →
      (run calls failed).next.inner.reads = r.inner.reads) := by
  intro failed owed reads
  have hqueue : failed.queue = owed := rfl
  obtain ⟨hreads, htally⟩ := reads_of_owed calls (hqueue ▸ List.prefix_rfl : owed <+: failed.queue)
  exact ⟨run_mapInner Tallied.faithful calls failed, hreads, htally⟩

/-- A feed over a stream of three records. -/
def overThreeRecords : Feed Switch Offers Script :=
  { factory := ⟨[.stream ⟨[.data [97, 10, 98, 10, 99, 10]]⟩]⟩
    unblock := Switch.throw
    settings := {}
    arena := Arena.ofCapacity 65536 }

/-- The first two records were read, their delivery failed, and the first one was read again. -/
def halfRedelivered : Redelivery (Tallied (Feed Switch Offers Script)) :=
  let calls : List (Call Switch) :=
    [.connect, .read, .read, .acknowledge (some "down"), .read].map (Call.mk ⟨0⟩)
  (run calls { inner := { reader := overThreeRecords } }).next

/-- Two reads, and between them the delivery fails once more and the stream is given back. -/
def failAgain : List (Call Switch) :=
  [.connect, .read, .acknowledge (some "down"), .waitForClose 5, .read, .acknowledge none].map
    (Call.mk ⟨0⟩)

/-- The second record waited and the first one was pending when the delivery failed; they come in
    this order, and the inner reader is not asked for the third one. -/
theorem failed_come_first_three_records :
    let failed := (halfRedelivered.acknowledge (⟨0⟩ : Switch) (some "down")).next
    let reads := (run failAgain failed).answer.filterMap Answer.read?
    reads.length ≤ (halfRedelivered.queue ++ halfRedelivered.pending).length ∧
    (reads.filterMap Except.toOption).map Message.payloads = [[[98]], [[97]]] ∧
    halfRedelivered.inner.reads = 2 ∧ (run failAgain failed).next.inner.reads = 2 := by
  intro failed reads
  have hfew : reads.length ≤ (halfRedelivered.queue ++ halfRedelivered.pending).length := by
    decide +kernel
  have htwo : halfRedelivered.inner.reads = 2 := by decide +kernel
  have hsame := (failed_come_first halfRedelivered ⟨0⟩ "down" failAgain).2.2 hfew
  exact ⟨hfew, by decide +kernel, htwo, hsame.trans htwo⟩

end Redelivery

end RecordFeed
