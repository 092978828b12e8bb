/-
  The messages of a stream.

  1. **Reference** (`Scan.messages`).  The records of a stream determine its messages.  A feed of
     single records makes one message of every record that is not blank.  In multipart mode blank
     records part the others into runs, and every run that holds a record is a message; of a stream
     that fails, the last run was never closed and is no message.

  2. **Program** (`gather`, `Feed.read`).  Records are scanned one by one and taken into the message
     that is open; a blank one carries nothing and may close it.

  3. **The crux** (`gather_spec`).  The records of the open message, put before those that the
     scanner still gives, make the messages ahead.  Taking a record leaves this list of records as
     it is; only a blank one removes anything, a message or nothing.

  `Feed.read_spec` says what one read does: it takes the first message ahead and keeps the stream,
  or it takes the last one or none and gives the stream back.
-/
import Mathlib.Data.List.Flatten
import RecordFeed.Proofs.Records.Scanning
import RecordFeed.Feed

namespace RecordFeed

/-! ## Reference

  The messages are said of a list of records and an outcome, without regard to reads, streams
  or a feed.  The lemmas that follow tell what one record more at the front does to them; they
  are the cases of the induction in `gather_spec`. -/

namespace Scan

/-- The runs of records between blank ones.  A failure takes the last one away, which no blank
    record closes. -/
def runs (scan : Scan) : List (List Bytes) :=
  let parted := scan.records.splitOnP List.isEmpty
  match scan.outcome with
  | .ok () => parted
  | .error _ => parted.dropLast

/-- The messages that the records make, each by its parts. -/
def messages (multipart : Bool) (scan : Scan) : List (List Bytes) :=
  if multipart then scan.runs.filter fun run => !run.isEmpty
  else (scan.records.filter fun record => !record.isEmpty).map fun record => [record]

/-- What a read says that finds no further message. -/
def failure (scan : Scan) : FeedError :=
  match scan.outcome with
  | .ok () => .notConnected
  | .error error => error

/-- The same scan with some records before it. -/
def after (records : List Bytes) (scan : Scan) : Scan :=
  { scan with records := records ++ scan.records }

variable {multipart : Bool} {scan : Scan} {opened : List Bytes} {record : Bytes}

@[simp] theorem after_nil (scan : Scan) : scan.after [] = scan := rfl

/-- The first record of a scan may as well be counted among those before it.  This is how a record
    moves from the scanner into the open message. -/
theorem cons_after : (scan.cons record).after opened = scan.after (opened ++ [record]) := by
  rw [after, after, List.append_assoc]
  rfl

/-- A blank record closes the run before it. -/
theorem runs_cons_blank (hopened : ∀ r ∈ opened, r.isEmpty = false) (hblank : record.isEmpty) :
    ((scan.cons record).after opened).runs = opened :: scan.runs := by
  have hparted : ((scan.cons record).after opened).records.splitOnP List.isEmpty =
      opened :: scan.records.splitOnP List.isEmpty :=
    List.splitOnP_append_cons_of_forall_mem hopened record hblank scan.records
  -- the last run is not the one that was just closed, so a failure does not take this one away
  obtain ⟨records, outcome⟩ := scan
  cases outcome with
  | ok => exact hparted
  | error error =>
    rw [runs, hparted]
    exact List.dropLast_cons_of_ne_nil (List.splitOnP_ne_nil _ _)

/-- A blank record closes the open message. -/
theorem messages_cons_blank (hopened : ∀ r ∈ opened, r.isEmpty = false) (hne : opened ≠ [])
    (hblank : record.isEmpty) :
    ((scan.cons record).after opened).messages true = opened :: scan.messages true := by
  rw [messages, if_pos rfl, runs_cons_blank hopened hblank, List.filter_cons_of_pos (by simpa)]
  rfl

/-- With no message open, a blank record carries nothing. -/
theorem messages_cons_blank_nil (hblank : record.isEmpty) :
    (scan.cons record).messages multipart = scan.messages multipart := by
  cases multipart with
  | true =>
    -- the run that is closed is empty
    rw [messages, if_pos rfl, ← after_nil (scan.cons record),
      runs_cons_blank (by simp) hblank, List.filter_cons_of_neg (by simp)]
    rfl
  | false =>
    simp only [messages, cons, Bool.false_eq_true, if_false]
    rw [List.filter_cons_of_neg (by simpa using hblank)]

/-- Outside multipart mode a record that is not blank is a message. -/
theorem messages_cons_single (hrecord : record.isEmpty = false) :
    (scan.cons record).messages false = [record] :: scan.messages false := by
  simp only [messages, cons, Bool.false_eq_true, if_false]
  rw [List.filter_cons_of_pos (by simpa using hrecord), List.map_cons]

/-- At the end of the stream the open message is the last one. -/
theorem messages_of_ok (hopened : ∀ r ∈ opened, r.isEmpty = false)
    (hsingle : multipart = false → opened = []) :
    (after opened ⟨[], .ok ()⟩).messages multipart = if opened.isEmpty then [] else [opened] := by
  cases multipart with
  | true =>
    rw [messages, if_pos rfl, runs, after, List.append_nil]
    simp only [List.splitOnP_eq_singleton hopened]
    cases opened <;> rfl
  | false =>
    rw [hsingle rfl]
    rfl

/-- A failure drops the open message. -/
theorem messages_of_error {error : FeedError} (hopened : ∀ r ∈ opened, r.isEmpty = false)
    (hsingle : multipart = false → opened = []) :
    (after opened ⟨[], .error error⟩).messages multipart = [] := by
  cases multipart with
  | true =>
    rw [messages, if_pos rfl, runs, after, List.append_nil]
    simp only [List.splitOnP_eq_singleton hopened]
    rfl
  | false =>
    rw [hsingle rfl]
    rfl

/-- The runs between the elements that part a list hold all others, in order.  By induction on the
    list. -/
theorem flatten_splitOnP {α : Type} (p : α → Bool) (l : List α) :
    (l.splitOnP p).flatten = l.filter fun a => !p a := by
  induction l with
  | nil => simp
  | cons a rest ih =>
    rw [List.splitOnP_cons_eq_if_modifyHead]
    by_cases hp : p a
    · -- the element parts, and is in no run
      rw [if_pos hp, List.flatten_cons, List.nil_append, ih, List.filter_cons_of_neg (by simp [hp])]
    · -- it goes to the front of the first run, of which there is always one
      obtain ⟨first, more, hparted⟩ := List.exists_cons_of_ne_nil (List.splitOnP_ne_nil p rest)
      rw [if_neg hp, List.filter_cons_of_pos (by simp [hp]), ← ih, hparted]
      rfl

/-- The records that are not blank. -/
def carried (scan : Scan) : List Bytes := scan.records.filter fun record => !record.isEmpty

/-- The parts of the messages are records that are not blank, in order.  Some may be lost with the
    last run of a stream that fails, but none is added and none changes its place. -/
theorem messages_flatten_sublist (multipart : Bool) (scan : Scan) :
    (scan.messages multipart).flatten.Sublist scan.carried := by
  cases multipart with
  | true =>
    have hruns : scan.runs.Sublist (scan.records.splitOnP List.isEmpty) := by
      unfold runs
      cases scan.outcome with
      | ok => exact List.Sublist.refl _
      | error error => exact List.dropLast_sublist _
    rw [messages, if_pos rfl, carried, ← flatten_splitOnP List.isEmpty scan.records]
    exact (List.filter_sublist.trans hruns).flatten
  | false =>
    rw [messages, if_neg Bool.false_ne_true, ← List.flatMap_def, List.flatMap_singleton']
    exact List.Sublist.refl _

/-- No message is empty. -/
theorem ne_nil_of_mem_messages {multipart : Bool} {scan : Scan} {message : List Bytes}
    (h : message ∈ scan.messages multipart) : message ≠ [] := by
  cases multipart with
  | true =>
    rw [messages, if_pos rfl] at h
    simpa using (List.mem_filter.mp h).2
  | false =>
    rw [messages, if_neg Bool.false_ne_true] at h
    obtain ⟨record, -, rfl⟩ := List.mem_map.mp h
    exact List.cons_ne_nil _ _

end Scan

/-! ## Gathering one message

  A scanner and an open message stand for the scan of the one with the parts of the other
  before it. -/

variable {ω φ η : Type} [ByteSource ω η] {w : ω} {multipart : Bool}

namespace Message

theorem isEmpty_eq (m : Message) : m.isEmpty = m.payloads.isEmpty := by
  obtain ⟨⟨parts⟩⟩ := m
  cases parts <;> rfl

end Message

/-- The parts of an open message: none of them is blank, and outside multipart mode there are none.
    `Assembly.take` keeps this, and the lemmas on `Scan.messages` need it. -/
structure Opened (multipart : Bool) (parts : List Bytes) : Prop where
  not_blank : ∀ part ∈ parts, part.isEmpty = false
  single : multipart = false → parts = []

theorem opened_nil : Opened multipart [] := ⟨by simp, fun _ => rfl⟩

/-- What gathering makes of a scan: its first message, its last one if any, or the failure.  The
    answer of `gather` says which of the three it is. -/
def Gathers (w : ω) (multipart : Bool) (messages : List (List Bytes))
    (outcome : Except FeedError Unit) (reply : Reply (Scanner η Delimiter × Assembly) Ending) :
    Prop :=
  let message := reply.next.2.message
  let rest := reply.next.1.drain w
  match reply.answer with
  | .complete => messages = message.payloads :: rest.messages multipart ∧ rest.outcome = outcome
  | .drained =>
    messages = (if message.isEmpty then [] else [message.payloads]) ∧ outcome = .ok ()
  | .failed error => messages = [] ∧ outcome = .error error

/-- Taking a record that does not complete the message leaves the same messages ahead.  Either the
    record was blank and there was nothing to close, or it has only changed sides. -/
theorem messages_of_take {a : Assembly} {record : Bytes} (scan : Scan)
    (h : Opened multipart a.message.payloads) (htaken : (a.take multipart record).2 = false) :
    Opened multipart (a.take multipart record).1.message.payloads ∧
      ((scan.cons record).after a.message.payloads).messages multipart =
        (scan.after (a.take multipart record).1.message.payloads).messages multipart := by
  unfold Assembly.take at htaken ⊢
  by_cases hblank : record.isEmpty
  · rw [if_pos hblank] at htaken ⊢
    -- the record closes nothing, so no message is open
    have hnil : a.message.payloads = [] := by
      cases multipart with
      | true => simpa [Message.isEmpty_eq] using htaken
      | false => exact h.single rfl
    refine ⟨h, ?_⟩
    rw [hnil, Scan.after_nil, Scan.after_nil, Scan.messages_cons_blank_nil hblank]
  · rw [if_neg hblank] at htaken ⊢
    simp only [Message.payloads_push, Arena.append_payload]
    -- the record becomes the last part of the open message
    rw [Scan.cons_after]
    refine ⟨⟨?_, ?_⟩, rfl⟩
    · intro part hpart
      rcases List.mem_append.mp hpart with hmem | hmem
      · exact h.not_blank part hmem
      · rw [List.mem_singleton] at hmem
        simpa [hmem] using hblank
    · intro hmode
      simp [hmode] at htaken

/-- A record that completes the message leaves the messages after it ahead. -/
theorem messages_of_take_complete {a : Assembly} {record : Bytes} {scan : Scan}
    (h : Opened multipart a.message.payloads) (htaken : (a.take multipart record).2 = true) :
    ((scan.cons record).after a.message.payloads).messages multipart =
      (a.take multipart record).1.message.payloads :: scan.messages multipart := by
  unfold Assembly.take at htaken ⊢
  by_cases hblank : record.isEmpty
  · rw [if_pos hblank] at htaken ⊢
    obtain ⟨rfl, hne⟩ := (Bool.and_eq_true _ _).mp htaken
    exact Scan.messages_cons_blank h.not_blank (by simpa [Message.isEmpty_eq] using hne) hblank
  · rw [if_neg hblank] at htaken ⊢
    obtain rfl : multipart = false := by simpa using htaken
    have hrecord : record.isEmpty = false := by simpa using hblank
    simp only [Message.payloads_push, Arena.append_payload, h.single rfl, Scan.after_nil,
      List.nil_append]
    exact Scan.messages_cons_single hrecord

/-- **Gathering a message** takes the first one of those that the open message and the records
    ahead make.  By induction on the records scanned. -/
theorem gather_spec {scanner : Scanner η Delimiter} {a : Assembly}
    (h : Opened multipart a.message.payloads) :
    Gathers w multipart (((scanner.drain w).after a.message.payloads).messages multipart)
      (scanner.drain w).outcome (gather w multipart scanner a) := by
  fun_induction gather w multipart scanner a with
  | case1 scanner a reply error hanswer =>
    -- no record is left, and the open message was never closed
    have hdrain : scanner.drain w = ⟨[], .error error⟩ := Scanner.drain_of_stop hanswer
    rw [hdrain]
    exact ⟨Scan.messages_of_error h.not_blank h.single, rfl⟩
  | case2 scanner a reply hanswer =>
    -- the end of the stream closes the open message
    have hdrain : scanner.drain w = ⟨[], .ok ()⟩ := Scanner.drain_of_stop hanswer
    rw [hdrain]
    refine ⟨?_, rfl⟩
    rw [Scan.messages_of_ok h.not_blank h.single, ← Message.isEmpty_eq]
  | case3 scanner a reply record hanswer taken htaken =>
    -- the record completes the message
    rw [Scanner.drain_of_record hanswer]
    exact ⟨messages_of_take_complete h htaken, rfl⟩
  | case4 scanner a reply record hanswer taken htaken ih =>
    -- the records taken and those still to come are the same list as before
    obtain ⟨hopened, hmessages⟩ :=
      messages_of_take (reply.next.drain w) h (by simpa using htaken)
    rw [Scanner.drain_of_record hanswer, hmessages]
    exact ih hopened

/-! ## Reading

  A read starts with no message open, so all messages of the scan are ahead of it. -/

namespace Feed

variable {f : Feed ω φ η} {scanner : Scanner η Delimiter}

/-- What one read makes of the scan of the stream that is held.  After the first one the scan of the
    scanner is what is left of the old one; after the others nothing is left. -/
inductive ReadsOf (w : ω) (multipart : Bool) (scan : Scan) :
    Reply (Feed ω φ η) (Except FeedError Message) → Prop where
  /-- the first message ahead, and the stream is kept -/
  | first {reply} {message : Message} {scanner : Scanner η Delimiter}
      (answer : reply.answer = .ok message) (link : reply.next.link = .connected scanner)
      (ahead : scan.messages multipart =
        message.payloads :: (scanner.drain w).messages multipart)
      (outcome : (scanner.drain w).outcome = scan.outcome) : ReadsOf w multipart scan reply
  /-- the message that the end of the stream closes, and the stream is given back -/
  | last {reply} {message : Message} (answer : reply.answer = .ok message)
      (link : reply.next.link = .idle) (ahead : scan.messages multipart = [message.payloads])
      (outcome : scan.outcome = .ok ()) : ReadsOf w multipart scan reply
  /-- no message, and the stream is given back -/
  | none {reply} (answer : reply.answer = .error scan.failure) (link : reply.next.link = .idle)
      (ahead : scan.messages multipart = []) : ReadsOf w multipart scan reply

/-- **One read** answers the first message ahead, or how the stream ended if there is none.  The
    three endings of `gather` and what `settle` makes of each of them. -/
theorem read_spec (h : f.link = .connected scanner) :
    ReadsOf w f.settings.multipart (scanner.drain w) (f.read w) := by
  have hgather : Gathers w f.settings.multipart
      ((scanner.drain w).messages f.settings.multipart) (scanner.drain w).outcome
      (gather w f.settings.multipart scanner { arena := f.arena }) := gather_spec opened_nil
  rw [read_connected h]
  unfold Gathers at hgather
  generalize gather w f.settings.multipart scanner { arena := f.arena } = gathered at hgather ⊢
  obtain ⟨answer, ⟨next, assembly⟩, events⟩ := gathered
  cases answer with
  | complete =>
    obtain ⟨hahead, houtcome⟩ := hgather
    exact .first rfl rfl hahead houtcome
  | drained =>
    obtain ⟨hahead, houtcome⟩ := hgather
    -- whether the end of the stream has closed a message or none was open
    by_cases hempty : assembly.message.isEmpty
    · refine .none ?_ rfl (by simpa [hempty] using hahead)
      simp [settle, hempty, Scan.failure, houtcome]
    · refine .last (?_ : _ = Except.ok assembly.message) rfl (by simpa [hempty] using hahead) houtcome
      simp [settle, hempty]
  | failed error =>
    obtain ⟨hahead, houtcome⟩ := hgather
    refine .none ?_ rfl hahead
    simp [settle, Scan.failure, houtcome]

end Feed

end RecordFeed
