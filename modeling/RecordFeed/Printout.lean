/-
  Printing the messages of all files below a path.

  The program goes round two loops:

  * `printStream`  prints the messages of the stream that is held, settling each one, until the
                   stream gives no more;
  * `printAll`     connects to one stream after another, until there are no more.

  A stream that cannot be opened is skipped, a stream that cannot be read to its end is abandoned;
  neither ends the program.  A message that cannot be printed does.

  Why the loops end: within a stream every message read brings it nearer to its end
  (`Feed.read_unread_lt`), and between streams every attempt to connect takes one off those that
  are left to open (`FileStreams.opensLeft`).  The second argument needs that nothing is
  outstanding between streams (`AtRest`): otherwise the end of the streams would be hidden, and
  the program would connect for ever to nothing.
-/
import RecordFeed.CommandLine
import RecordFeed.FileStreams
import RecordFeed.Redelivery
import RecordFeed.Settings.Document

namespace RecordFeed

/-! ## What is left to open

  The outer loop of the program ends because each turn of it takes a path off the list.  Before
  the walk there is no list, and the walk counts as one turn more. -/

namespace FileStreams

/-- A bound on the streams and failures that the files below the root can still give. -/
def opensLeft (t : FileTree) (f : FileStreams) : Nat :=
  match f.pending with
  | some paths => paths.length
  | none =>
    match t.files f.root with
    | .ok paths => paths.length + 1
    | .error _ => 1

/-- Taking a path off the list leaves the others. -/
theorem openFirst_opensLeft_lt {t : FileTree} {f : FileStreams} {paths : List Bytes}
    (h : (f.openFirst t paths).answer ≠ .exhausted) :
    (f.openFirst t paths).next.opensLeft t < paths.length := by
  cases paths with
  | nil => exact absurd rfl h
  | cons path rest =>
    cases hopen : OpenFile.ofPath t path with
    | ok handle => simp [openFirst, opensLeft, hopen]
    | error error => simp [openFirst, opensLeft, hopen]

/-- Every request leaves fewer streams to open, unless there were none. -/
theorem nextStream_opensLeft_lt {t : FileTree} {f : FileStreams}
    (h : (f.nextStream t).answer ≠ .exhausted) :
    (f.nextStream t).next.opensLeft t < f.opensLeft t := by
  cases hpending : f.pending with
  | some paths =>
    simp only [nextStream, hpending] at h ⊢
    have := openFirst_opensLeft_lt h
    simpa only [opensLeft, hpending] using this
  | none =>
    cases hwalk : t.files f.root with
    | error error => simp [nextStream, opensLeft, hpending, hwalk]
    | ok paths =>
      simp only [nextStream, hpending, hwalk, Reply.after_answer, Reply.after_next] at h ⊢
      have := openFirst_opensLeft_lt h
      have hleft : f.opensLeft t = paths.length + 1 := by simp [opensLeft, hpending, hwalk]
      omega

end FileStreams

/-! ## One stream

  The inner loop prints messages as long as the stream has any.  It ends because a read of a
  message consumes a part of the stream. -/

/-- A feed of files. -/
abbrev FileFeed := Feed FileTree FileStreams OpenFile

/-- Where messages are printed: which of them are refused, counted from zero, and why. -/
structure Outlet where
  refusal : Nat → Option IoError := fun _ => none

/-- The byte that ends a line. -/
def newline : UInt8 := 0x0a

/-- A message as it is printed: each part on a line of its own, and in multipart mode a blank line
    behind them. -/
def Message.printed (multipart : Bool) (m : Message) : Bytes :=
  (m.payloads.map fun payload => payload ++ [newline]).flatten ++
    if multipart then [newline] else []

/-- Every message read is one fewer to be delivered again, or brings the stream nearer to its
    end. -/
theorem Redelivery.read_unread_lt {t : FileTree} {r : Redelivery FileFeed} {message : Message}
    (h : (r.read t).answer = .ok message) :
    (r.read t).next.queue.length + (r.read t).next.inner.unread t <
      r.queue.length + r.inner.unread t := by
  -- a message that waited comes from the queue, any other one from the stream
  cases hqueue : r.queue with
  | cons first rest => simp [Redelivery.read_of_queue_cons hqueue]
  | nil =>
    cases hread : (r.inner.read t).answer with
    | error error => simp [Redelivery.read_of_queue_nil hqueue, hread] at h
    | ok message =>
      have := Feed.read_unread_lt hread
      simpa [Redelivery.read_of_queue_nil hqueue, hqueue, hread] using this

/-- Prints the messages of the stream that is held, of which `count` is the number of the first.
    Answers the number of messages printed so far, or why no more can be printed.  The first refusal
    ends the run and keeps the message; an error that is worth another connection ends the stream
    only. -/
def printStream (t : FileTree) (out : Outlet) (multipart : Bool) (r : Redelivery FileFeed)
    (count : Nat) : Reply (Redelivery FileFeed) (Except FeedError Nat) :=
  let reply := r.read t
  match _h : reply.answer with
  | .error .notConnected => { answer := .ok count, next := reply.next, events := reply.events }
  | .error error =>
    if error.isRecoverable then
      { answer := .ok count
        next := reply.next
        events := reply.events ++ [.log (.abandoning error)] }
    else { answer := .error error, next := reply.next, events := reply.events }
  | .ok message =>
    match out.refusal count with
    | some error =>
      let kept := reply.next.acknowledge t (some error.message)
      { answer := .error (.io error)
        next := kept.next
        events := reply.events ++ .refused error :: kept.events }
    | none =>
      let settled := reply.next.acknowledge t none
      (printStream t out multipart settled.next (count + 1)).after
        (reply.events ++ .printed (message.printed multipart) :: settled.events)
termination_by r.queue.length + r.inner.unread t
decreasing_by exact Redelivery.read_unread_lt _h

/-! ## Between streams

  When the inner loop has ended without an error, the reader keeps no message and holds no
  stream.  The outer loop carries this as an argument, since it would not end without it. -/

/-- Nothing is outstanding, and no stream is held. -/
structure AtRest (r : Redelivery FileFeed) : Prop where
  queue : r.queue = []
  pending : r.pending = []
  link : r.inner.link.isConnected = false

namespace AtRest

variable {t : FileTree} {r : Redelivery FileFeed}

/-- A failed read leaves the reader at rest, if all before it was settled. -/
theorem of_read_error {error : FeedError} (hpending : r.pending = [])
    (h : (r.read t).answer = .error error) : AtRest (r.read t).next := by
  cases hqueue : r.queue with
  | cons first rest => simp [Redelivery.read_of_queue_cons hqueue] at h
  | nil =>
    cases hread : (r.inner.read t).answer with
    | ok message => simp [Redelivery.read_of_queue_nil hqueue, hread] at h
    | error error =>
      have hlink := Feed.read_error_link hread
      constructor <;> simp [Redelivery.read_of_queue_nil hqueue, hqueue, hread, hpending, hlink]

/-- When the messages of a stream have been printed, the reader is at rest.  By induction on the
    messages: each one that was printed is settled before the next is read. -/
theorem of_printStream {out : Outlet} {multipart : Bool} {count printed : Nat}
    (hpending : r.pending = [])
    (h : (printStream t out multipart r count).answer = .ok printed) :
    AtRest (printStream t out multipart r count).next := by
  fun_induction printStream t out multipart r count with
  | case1 r count reply hread => exact of_read_error hpending hread
  | case2 r count reply error _ hread => exact of_read_error hpending hread
  | case3 | case4 => simp at h
  | case5 r count reply message hread _ settled ih => exact ih rfl h

theorem not_outstanding (hr : AtRest r) : r.isOutstanding = false := by
  simp [Redelivery.isOutstanding, hr.queue, hr.pending]

/-- At rest, connecting says what the feed says. -/
theorem connect_answer (hr : AtRest r) :
    (r.connect t).answer = (r.inner.connect t).answer :=
  Redelivery.masked_of_not_outstanding hr.not_outstanding _

/-- A failure to connect leaves the reader at rest.  A feed that holds a stream would have been
    content with it, so it was asking for one, and has got none. -/
theorem of_connect_error {error : FeedError} (hr : AtRest r)
    (h : (r.connect t).answer = .error error) : AtRest (r.connect t).next := by
  rw [hr.connect_answer] at h
  refine ⟨hr.queue, hr.pending, ?_⟩
  have hheld := hr.link
  simp only [Redelivery.connect, Redelivery.withInner, Feed.reader_connect]
  cases hlink : r.inner.link with
  | connected scanner => simp [hlink, Link.isConnected] at hheld
  | closed => simp [Feed.connect, hlink, Link.isConnected]
  | idle =>
    cases hask : (StreamFactory.nextStream t r.inner.factory).answer with
    | stream handle => simp [Feed.connect, hlink, hask] at h
    | exhausted => simp [Feed.connect, hlink, hask, Link.isConnected]
    | failed error => simp [Feed.connect, hlink, hask, Link.isConnected]

/-- Connecting leaves fewer streams to open, or says that there are none.  An answer other than the
    end means that the factory took something off its list, whether it could be opened or not. -/
theorem connect_opensLeft_lt (hr : AtRest r) (h : (r.connect t).answer ≠ .error .closed) :
    (r.connect t).next.inner.factory.opensLeft t < r.inner.factory.opensLeft t := by
  rw [hr.connect_answer] at h
  have hheld := hr.link
  simp only [Redelivery.connect, Redelivery.withInner, Feed.reader_connect]
  cases hlink : r.inner.link with
  | connected scanner => simp [hlink, Link.isConnected] at hheld
  | closed => simp [Feed.connect, hlink] at h
  | idle =>
    -- a factory with nothing left would have closed the feed
    have hopen : (r.inner.factory.nextStream t).answer ≠ .exhausted := by
      intro hask
      apply h
      simp [Feed.connect, hlink, StreamFactory.nextStream, hask]
    have hless := FileStreams.nextStream_opensLeft_lt hopen
    cases hask : (r.inner.factory.nextStream t).answer with
    | exhausted => exact absurd hask hopen
    | stream handle => simpa [Feed.connect, hlink, StreamFactory.nextStream, hask] using hless
    | failed error => simpa [Feed.connect, hlink, StreamFactory.nextStream, hask] using hless

/-- A feed just made has nothing outstanding. -/
theorem of_make {factory : FileStreams} {unblock : FileTree → FileTree} {settings : Settings}
    {f : FileFeed} (h : Feed.make factory unblock settings = .ok f) : AtRest { inner := f } :=
  ⟨rfl, rfl, by simp [Feed.link_of_make h, Link.isConnected]⟩

end AtRest

theorem Redelivery.read_factory (t : FileTree) (r : Redelivery FileFeed) :
    (r.read t).next.inner.factory = r.inner.factory := by
  cases hqueue : r.queue with
  | cons first rest => simp [Redelivery.read_of_queue_cons hqueue]
  | nil =>
    cases hanswer : (r.inner.read t).answer <;> simp [Redelivery.read_of_queue_nil hqueue, hanswer]

/-- Printing the messages of a stream opens nothing. -/
theorem printStream_factory (t : FileTree) (out : Outlet) (multipart : Bool)
    (r : Redelivery FileFeed) (count : Nat) :
    (printStream t out multipart r count).next.inner.factory = r.inner.factory := by
  fun_induction printStream t out multipart r count with
  | case1 r | case2 r | case3 r | case4 r => exact Redelivery.read_factory t r
  | case5 r count reply message _ _ settled ih => exact ih.trans (Redelivery.read_factory t r)

/-! ## All streams

  A stream that cannot be had is skipped, and one that breaks off is left.  Only a message that
  cannot be printed ends the loop before its time. -/

/-- Prints the messages of all streams that are left, of which `count` is the number of the first.
    Answers the number of messages printed, or why not all could be.  Between two streams the reader
    is at rest, so that being closed is never hidden, and each round leaves the factory less to
    open. -/
def printAll (t : FileTree) (out : Outlet) (multipart : Bool) (r : Redelivery FileFeed)
    (hr : AtRest r) (count : Nat) : Reply (Redelivery FileFeed) (Except FeedError Nat) :=
  let reply := r.connect t
  match hconnect : reply.answer with
  | .error .closed => { answer := .ok count, next := reply.next, events := reply.events }
  | .error error =>
    if _hrecoverable : error.isRecoverable then
      (printAll t out multipart reply.next (hr.of_connect_error hconnect) count).after
        (reply.events ++ [.log (.skipping error)])
    else { answer := .error error, next := reply.next, events := reply.events }
  | .ok () =>
    let stream := printStream t out multipart reply.next count
    match hstream : stream.answer with
    | .error error =>
      { answer := .error error, next := stream.next, events := reply.events ++ stream.events }
    | .ok printed =>
      (printAll t out multipart stream.next (.of_printStream hr.pending hstream) printed).after
        (reply.events ++ stream.events)
termination_by r.inner.factory.opensLeft t
decreasing_by
  · refine hr.connect_opensLeft_lt fun hclosed => ?_
    obtain rfl : error = .closed := Except.error.inj (hconnect.symm.trans hclosed)
    exact nomatch _hrecoverable
  · rw [printStream_factory]
    refine hr.connect_opensLeft_lt fun hclosed => ?_
    exact nomatch hconnect.symm.trans hclosed

/-! ## The whole program

  The settings are read and checked, a feed is made and printed, and the stream that is still
  held is given back. -/

/-- The settings to run on: those of the settings file, if one is given, or the defaults, with what
    the options say.  The settings of the file have to be good by themselves, before any option is
    looked at. -/
def Options.settings (o : Options) (t : FileTree) : Except FeedError Settings :=
  match o.config with
  | none => .ok (o.override {})
  | some path =>
    match t.text path with
    | .error error => .error (.io error)
    | .ok text => (Settings.ofDocument text).map o.override

/-- How a run ended, and all that it did. -/
structure Printout where
  /-- the number of messages printed, or why not all could be -/
  result : Except FeedError Nat
  events : List Event

namespace Printout

/-- The time granted for closing, in milliseconds. -/
def closingTime : Nat := 1000

/-- A run that ends early. -/
def failed (error : FeedError) (events : List Event) : Printout :=
  { result := .error error, events := events ++ [.log (.failed error)] }

/-- Prints what the options ask for. -/
def run (t : FileTree) (out : Outlet) (o : Options) : Printout :=
  match o.settings t with
  | .error error => failed error []
  | .ok settings =>
    match hmake : Feed.make { root := o.path } id settings with
    | .error error => failed error []
    | .ok feed =>
      let reply := printAll t out settings.multipart { inner := feed } (.of_make hmake) 0
      match reply.answer with
      | .error error => failed error reply.events
      | .ok count =>
        let closed := reply.next.waitForClose t closingTime
        { result := .ok count
          events := reply.events ++ closed.events ++ [.log (.consumed count)] }

/-- All that was printed. -/
def output (p : Printout) : Bytes := (p.events.filterMap Event.printed?).flatten

/-- The log that is shown at a verbosity. -/
def log (p : Printout) (v : Verbosity) : List LogEntry :=
  (p.events.filterMap Event.log?).filter (LogEntry.shownAt v)

/-- What the program tells whoever started it. -/
def exitCode (p : Printout) : Nat :=
  match p.result with
  | .ok _ => 0
  | .error _ => 1

end Printout

end RecordFeed
