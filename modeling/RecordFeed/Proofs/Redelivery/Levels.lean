/-
  Levels over a reader.

  A redelivery wraps any reader, so it can wrap another redelivery.  Whatever is built of such
  levels over a reader can be looked at in one way, without regard to how many there are.

  1. **View**.  The reader at the bottom (`base`), the messages in the queues in the order in which
     they will be read (`waiting`), and all messages that some level keeps (`held`).

  2. **Step** (`Layered`).  A read takes the next message that waits and leaves the bottom alone, or
     it reads from the bottom; no call brings in a message but by such a read.  This holds of a
     reader without any level (`Layered.bottom`) and of one level over a reader of which it holds
     (`Layered.level`).

  3. **Run** (`Layered.run_spec`).  The bottom is moved by the calls that go through to it, and what
     is read was kept at the beginning or comes from there.  What waits is read one message after
     another (`Layered.messagesRead_waiting`).
-/
import RecordFeed.Proofs.Redelivery.Ledger

namespace RecordFeed

/-- What is in the one or the other of two lists is in the one or the other of two larger ones. -/
theorem append_subset_append {α : Type} {a b c d : List α} (hleft : a ⊆ c) (hright : b ⊆ d) :
    a ++ b ⊆ c ++ d :=
  List.append_subset.mpr
    ⟨List.Subset.trans hleft (List.subset_append_left c d),
      List.Subset.trans hright (List.subset_append_right c d)⟩

variable {ω ρ σ : Type} [MessageReader ω ρ] [MessageReader ω σ]

/-- The call goes through to the bottom: only a read for which a message waits does not. -/
def Call.reaches (waiting : σ → List Message) (call : Call ω) (s : σ) : Bool :=
  match call.request with
  | .read => (waiting s).isEmpty
  | .connect | .acknowledge _ | .waitForClose _ => true

/-- The calls that go through to the bottom. -/
def passed (waiting : σ → List Message) : List (Call ω) → σ → List (Call ω)
  | [], _ => []
  | call :: later, s =>
    let rest := passed waiting later (call.ask s).next
    if call.reaches waiting s then call :: rest else rest

/-- The calls that go through of two runs, one after the other.  By induction on the calls of the
    first one. -/
theorem passed_append (waiting : σ → List Message) (first later : List (Call ω)) (s : σ) :
    passed waiting (first ++ later) s =
      passed waiting first s ++ passed waiting later (run first s).next := by
  induction first generalizing s with
  | nil => rfl
  | cons call first ih =>
    rw [List.cons_append, passed, ih, passed, run_cons_next]
    cases call.reaches waiting s <;> rfl

/-- They are calls of the run, in their order. -/
theorem passed_sublist (waiting : σ → List Message) (calls : List (Call ω)) (s : σ) :
    (passed waiting calls s).Sublist calls := by
  induction calls generalizing s with
  | nil => exact List.Sublist.refl _
  | cons call later ih =>
    rw [passed]
    cases call.reaches waiting s with
    | true => exact (ih _).cons_cons call
    | false => exact (ih _).cons call

/-- The message that a call brings in from the bottom. -/
def Call.brings (base : σ → ρ) (waiting : σ → List Message) (call : Call ω) (s : σ) :
    List Message :=
  if call.reaches waiting s then (call.ask (base s)).answer.message?.toList else []

/-- What the calls of a reader do that is made of levels over another one.  Only membership is said
    of what is kept, not how often, since a message may wait at several levels. -/
structure Layered (ω : Type) {ρ σ : Type} [MessageReader ω ρ] [MessageReader ω σ] (base : σ → ρ)
    (waiting held : σ → List Message) : Prop where
  waiting_subset : ∀ s, waiting s ⊆ held s
  /-- the message that waits first is read -/
  read_waiting : ∀ {w : ω} {s : σ} {message : Message} {rest : List Message},
    waiting s = message :: rest →
      (MessageReader.read w s).answer = .ok message ∧
        waiting (MessageReader.read w s).next = rest ∧
        base (MessageReader.read w s).next = base s ∧
        held (MessageReader.read w s).next ⊆ held s
  /-- if none waits, the reader at the bottom answers -/
  read_base : ∀ {w : ω} {s : σ}, waiting s = [] →
    (MessageReader.read w s).answer = (MessageReader.read w (base s)).answer ∧
      base (MessageReader.read w s).next = (MessageReader.read w (base s)).next ∧
      held (MessageReader.read w s).next ⊆
        held s ++ (MessageReader.read w (base s)).answer.toOption.toList
  /-- all else is done at the bottom as well -/
  other : ∀ {call : Call ω}, call.request ≠ .read → ∀ s,
    base (call.ask s).next = (call.ask (base s)).next ∧ held (call.ask s).next ⊆ held s ∧
      (call.ask s).answer.message? = none
  /-- what is not waiting is forgotten when all is well, and what waits stays -/
  settle : ∀ (w : ω) (s : σ),
    waiting (MessageReader.acknowledge w none s).next = waiting s ∧
      held (MessageReader.acknowledge w none s).next ⊆ waiting s

namespace Layered

omit [MessageReader ω σ] in
/-- A reader without any level keeps nothing, and every call reaches it. -/
theorem bottom : Layered ω (fun r : ρ => r) (fun _ => []) (fun _ => []) where
  waiting_subset _ := List.Subset.refl _
  read_waiting h := by simp at h
  read_base _ := ⟨rfl, rfl, List.nil_subset _⟩
  other {call} hrequest r := by
    obtain ⟨w, request⟩ := call
    cases request with
    | read => exact absurd rfl hrequest
    | connect | acknowledge failure | waitForClose milliseconds =>
      exact ⟨rfl, List.Subset.refl _, rfl⟩
  settle _ _ := ⟨rfl, List.Subset.refl _⟩

variable {base : σ → ρ} {waiting held : σ → List Message}

/-- **One more level** over a reader that is made of levels.  Its own queue comes first, and what
    waits further in comes after it; each part is shown by the case in which its own queue answers
    and the one in which it is empty. -/
theorem level (h : Layered ω base waiting held) :
    Layered ω (fun r : Redelivery σ => base r.inner) (fun r => r.queue ++ waiting r.inner)
      (fun r => r.outstanding ++ held r.inner) where
  waiting_subset r := by
    refine List.append_subset.mpr ⟨?_, ?_⟩
    · exact List.Subset.trans (List.subset_append_right r.pending r.queue)
        (List.subset_append_left _ _)
    · exact List.Subset.trans (h.waiting_subset r.inner) (List.subset_append_right _ _)
  read_waiting {w r message rest} hwaiting := by
    obtain ⟨inner, pending, queue⟩ := r
    cases queue with
    | cons first queue =>
      -- its own queue has the message
      obtain ⟨rfl, rfl⟩ := List.cons.inj hwaiting
      refine ⟨rfl, rfl, rfl, ?_⟩
      show pending ++ [first] ++ queue ++ held inner ⊆ pending ++ first :: queue ++ held inner
      rw [List.append_cons pending first queue]
      exact List.Subset.refl _
    | nil =>
      -- the message waits further in
      have hinner : waiting inner = message :: rest := hwaiting
      obtain ⟨hanswer, hrest, hbase, hheld⟩ := h.read_waiting (w := w) hinner
      have hmessage : message ∈ held inner := by
        refine h.waiting_subset inner ?_
        rw [hinner]
        exact List.mem_cons_self
      rw [Redelivery.reader_read, Redelivery.read_of_queue_nil rfl]
      simp only [hanswer]
      refine ⟨trivial, hrest, hbase, ?_⟩
      show pending ++ [message] ++ [] ++ held _ ⊆ pending ++ [] ++ held inner
      rw [List.append_nil, List.append_nil, List.append_assoc]
      refine append_subset_append (List.Subset.refl _) ?_
      exact List.append_subset.mpr ⟨by simpa using hmessage, hheld⟩
  read_base {w r} hnone := by
    obtain ⟨inner, pending, queue⟩ := r
    -- nothing waits here, and nothing further in
    obtain ⟨rfl, hinner⟩ : queue = [] ∧ waiting inner = [] := List.append_eq_nil_iff.mp hnone
    obtain ⟨hanswer, hbase, hheld⟩ := h.read_base (w := w) hinner
    rw [Redelivery.reader_read, Redelivery.read_of_queue_nil rfl]
    simp only [hanswer]
    cases hbottom : (MessageReader.read w (base inner)).answer with
    | error error =>
      rw [hbottom] at hheld
      refine ⟨rfl, hbase, ?_⟩
      show pending ++ [] ++ held _ ⊆ pending ++ [] ++ held inner ++ []
      rw [List.append_assoc _ (held inner)]
      exact append_subset_append (List.Subset.refl _) hheld
    | ok message =>
      rw [hbottom] at hheld
      refine ⟨rfl, hbase, ?_⟩
      show pending ++ [message] ++ [] ++ held _ ⊆ pending ++ [] ++ held inner ++ [message]
      rw [List.append_nil, List.append_nil, List.append_assoc, List.append_assoc]
      refine append_subset_append (List.Subset.refl _) ?_
      exact List.append_subset.mpr ⟨List.subset_append_right _ _, hheld⟩
  other {call} hrequest r := by
    obtain ⟨inner, pending, queue⟩ := r
    obtain ⟨hbase, hheld, -⟩ := h.other hrequest inner
    obtain ⟨w, request⟩ := call
    cases request with
    | read => exact absurd rfl hrequest
    | connect | waitForClose milliseconds =>
      exact ⟨hbase, append_subset_append (List.Subset.refl _) hheld, rfl⟩
    | acknowledge failure =>
      cases failure with
      | none =>
        refine ⟨hbase, ?_, rfl⟩
        show [] ++ queue ++ held _ ⊆ pending ++ queue ++ held inner
        exact append_subset_append (List.subset_append_right _ _) hheld
      | some reason =>
        refine ⟨hbase, ?_, rfl⟩
        -- what was pending is put behind what waits, so the level keeps the same
        show [] ++ (queue ++ pending) ++ held _ ⊆ pending ++ queue ++ held inner
        rw [List.nil_append]
        exact append_subset_append List.perm_append_comm.subset hheld
  settle w r := by
    obtain ⟨hwaiting, hheld⟩ := h.settle w r.inner
    refine ⟨congrArg (r.queue ++ ·) hwaiting, ?_⟩
    show [] ++ r.queue ++ held _ ⊆ r.queue ++ waiting r.inner
    exact append_subset_append (List.Subset.refl _) hheld

/-! ## One call and a run

  From here on the levels are not looked into any more; `Layered` is all that is used of them. -/

/-- **A call moves the bottom if it goes through**, and keeps and reads nothing but what was kept
    before and what it brings in.  A read is either of the first message that waits or of the
    bottom, and other calls always go through. -/
theorem ask_spec (h : Layered ω base waiting held) (call : Call ω) (s : σ) :
    base (call.ask s).next =
        (if call.reaches waiting s then (call.ask (base s)).next else base s) ∧
      held (call.ask s).next ⊆ held s ++ call.brings base waiting s ∧
      (call.ask s).answer.message?.toList ⊆ held s ++ call.brings base waiting s := by
  by_cases hrequest : call.request = .read
  · obtain ⟨w, request⟩ := call
    obtain rfl : request = .read := hrequest
    cases hwaiting : waiting s with
    | cons message rest =>
      -- the message that waits
      obtain ⟨hanswer, -, hbase, hheld⟩ := h.read_waiting (w := w) hwaiting
      have hmessage : message ∈ held s := h.waiting_subset s (hwaiting ▸ List.mem_cons_self)
      have hstays : Call.reaches waiting ⟨w, .read⟩ s = false := by simp [Call.reaches, hwaiting]
      have hread : (Call.mk w .read).ask s = (MessageReader.read w s).map .message := rfl
      rw [Call.brings, hstays, hread]
      refine ⟨hbase, List.Subset.trans hheld (List.subset_append_left _ _), ?_⟩
      simpa [hanswer, Answer.message?] using hmessage
    | nil =>
      -- the bottom is read
      obtain ⟨hanswer, hbase, hheld⟩ := h.read_base (w := w) hwaiting
      have hreaches : Call.reaches waiting ⟨w, .read⟩ s = true := by simp [Call.reaches, hwaiting]
      have hread : (Call.mk w .read).ask s = (MessageReader.read w s).map .message := rfl
      have hbottom : (Call.mk w .read).ask (base s) =
        (MessageReader.read w (base s)).map .message := rfl
      rw [Call.brings, hreaches, hread, hbottom]
      refine ⟨hbase, ?_, ?_⟩
      · cases hgiven : (MessageReader.read w (base s)).answer <;>
          simpa [hgiven, Answer.message?, Except.toOption] using hheld
      · simp [hanswer]
  · obtain ⟨hbase, hheld, hanswer⟩ := h.other hrequest s
    have hreaches : call.reaches waiting s = true := by
      unfold Call.reaches
      split
      · rename_i hread
        exact absurd hread hrequest
      · rfl
      · rfl
      · rfl
    rw [hreaches, hanswer]
    exact ⟨hbase, List.Subset.trans hheld (List.subset_append_left _ _), List.nil_subset _⟩

/-- The messages of the bottom are those that the calls bring in. -/
theorem messagesRead_passed_cons (call : Call ω) (later : List (Call ω)) (s : σ)
    (h : Layered ω base waiting held) :
    messagesRead (passed waiting (call :: later) s) (base s) =
      call.brings base waiting s ++
        messagesRead (passed waiting later (call.ask s).next) (base (call.ask s).next) := by
  rw [passed, (h.ask_spec call s).1, Call.brings]
  cases call.reaches waiting s with
  | true => exact messagesRead_cons ..
  | false => rfl

/-- **A run moves the bottom by the calls that go through**, and keeps and reads nothing but what
    was kept before and what the bottom gives.  By induction on the calls. -/
theorem run_spec (h : Layered ω base waiting held) (calls : List (Call ω)) (s : σ) :
    base (run calls s).next = (run (passed waiting calls s) (base s)).next ∧
      held (run calls s).next ⊆ held s ++ messagesRead (passed waiting calls s) (base s) ∧
      messagesRead calls s ⊆ held s ++ messagesRead (passed waiting calls s) (base s) := by
  induction calls generalizing s with
  | nil => exact ⟨rfl, List.subset_append_left _ _, List.nil_subset _⟩
  | cons call later ih =>
    obtain ⟨hbase, hheld, hanswer⟩ := h.ask_spec call s
    obtain ⟨hbases, hlast, hread⟩ := ih (call.ask s).next
    -- what is kept after the first call, with what is still to come, was kept before or comes from
    -- the bottom
    have hmore : held (call.ask s).next ++
        messagesRead (passed waiting later (call.ask s).next) (base (call.ask s).next) ⊆
          held s ++ messagesRead (passed waiting (call :: later) s) (base s) := by
      rw [messagesRead_passed_cons call later s h, ← List.append_assoc]
      exact append_subset_append hheld (List.Subset.refl _)
    refine ⟨?_, List.Subset.trans hlast hmore, ?_⟩
    · rw [run_cons_next, hbases, hbase, passed]
      cases call.reaches waiting s <;> rfl
    · rw [messagesRead_cons]
      refine List.append_subset.mpr ⟨?_, List.Subset.trans hread hmore⟩
      rw [messagesRead_passed_cons call later s h, ← List.append_assoc]
      exact List.Subset.trans hanswer (List.subset_append_left _ _)

/-- **What is read after all was settled** was waiting before, or is new from the bottom.  What was
    pending at some level and did not wait is forgotten. -/
theorem messagesRead_settled (h : Layered ω base waiting held) (w : ω) (s : σ)
    (later : List (Call ω)) :
    messagesRead later (MessageReader.acknowledge w none s).next ⊆
      waiting s ++ messagesRead (passed waiting (⟨w, .acknowledge none⟩ :: later) s) (base s) := by
  have hread := (h.run_spec later (MessageReader.acknowledge w none s).next).2.2
  have hheld := (h.settle w s).2
  rw [messagesRead_passed_cons _ later s h]
  refine List.Subset.trans hread (append_subset_append hheld ?_)
  exact List.subset_append_right _ _

/-- What waits is read, one message after another.  By induction on what waits. -/
theorem messagesRead_waiting (h : Layered ω base waiting held) (w : ω) (s : σ) :
    messagesRead (List.replicate (waiting s).length ⟨w, .read⟩) s = waiting s := by
  induction hwaiting : waiting s generalizing s with
  | nil => rfl
  | cons message rest ih =>
    obtain ⟨hanswer, hrest, -, -⟩ := h.read_waiting (w := w) hwaiting
    have hread : (Call.mk w .read).ask s = (MessageReader.read w s).map .message := rfl
    rw [List.length_cons, List.replicate_succ, messagesRead_cons, hread, Reply.map_next]
    -- the read leaves the others waiting, and they are read next
    rw [Reply.map_answer, hanswer, ih _ hrest]
    rfl

end Layered

end RecordFeed
