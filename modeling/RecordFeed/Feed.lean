/-
  The feed: messages from one stream after another.

  A feed is in one of three situations (`Link`): it holds no stream, it scans one, or it has been
  told that there are no more and never asks again.  The caller moves it along:

  * `connect`       makes sure that a stream is held, asking the factory only if none is;
  * `read`          gathers the records of one message, giving the stream back at its end;
  * `acknowledge`   settles what was read (the arena is reset) or reports that it did not arrive;
  * `waitForClose`  gives the stream back;
  * `closeAsync`    asks the surroundings to unblock a read, and touches nothing of the feed.

  How records become messages is `Assembly.take`: blank records carry nothing; in multipart mode
  they close the message before them.

  Why gathering ends: every record consumes something of what the stream can still give
  (`Scanner.nextToken_unread_lt`).
-/
import RecordFeed.Message
import RecordFeed.Scanner
import RecordFeed.Settings

namespace RecordFeed

/-! ## Readers

  What a reader of messages can be asked, and what it answers.  The request comes with the
  surroundings that it is made in. -/

/-- Readers `ρ` of acknowledged messages in the surroundings `ω`. -/
class MessageReader (ω ρ : Type) where
  /-- Holds a stream, the current one or the next. -/
  connect : ω → ρ → Reply ρ (Except FeedError Unit)
  /-- The next message. -/
  read : ω → ρ → Reply ρ (Except FeedError Message)
  /-- What became of the messages read since the last acknowledgement: they arrived, or why not. -/
  acknowledge : ω → Option String → ρ → Reply ρ (Except FeedError Unit)
  /-- Gives the resources back, within so many milliseconds. -/
  waitForClose : ω → Nat → ρ → Reply ρ (Except FeedError Unit)
  /-- Has the surroundings end a read that blocks. -/
  closeAsync : ρ → ω → ω

/-- The means to end a blocking read, kept apart from the reader so that anyone can use it. -/
structure CloseHandle (ω : Type) where
  unblock : ω → ω

namespace CloseHandle

/-- Asks the surroundings to end a read that blocks. -/
def close {ω : Type} (c : CloseHandle ω) (w : ω) : ω := c.unblock w

/-- A close handle shows nothing of itself. -/
def describe {ω : Type} (_ : CloseHandle ω) : String := "CloseHandle \x7b .. \x7d"

end CloseHandle

/-! ## From records to messages

  A message is gathered record by record.  The assembly holds what there is of it, and the
  arena where it is stored. -/

/-- A message being put together, and the arena that takes its records. -/
structure Assembly where
  arena : Arena
  message : Message := {}

/-- Takes one record, and says whether the message is complete with it.  Blank records are stored
    nowhere; in multipart mode one of them closes the message, unless there is none yet to close. -/
def Assembly.take (multipart : Bool) (record : Bytes) (a : Assembly) : Assembly × Bool :=
  if record.isEmpty then (a, multipart && !a.message.isEmpty)
  else
    let appended := a.arena.append record
    ({ arena := appended.2, message := a.message.push appended.1 }, !multipart)

/-- How the gathering of one message came to its end. -/
inductive Ending where
  | complete
  /-- The stream is over. -/
  | drained
  | failed (error : FeedError)

/-- Scans records until they make a message or the stream gives no more.  What the arena has taken
    stays in it also where the gathering fails: the records of a message that never comes are still
    counted. -/
def gather {ω η : Type} [ByteSource ω η] (w : ω) (multipart : Bool)
    (scanner : Scanner η Delimiter) (a : Assembly) :
    Reply (Scanner η Delimiter × Assembly) Ending :=
  let reply := scanner.nextToken w
  match _h : reply.answer with
  | .error error => { answer := .failed error, next := (reply.next, a), events := reply.events }
  | .ok none => { answer := .drained, next := (reply.next, a), events := reply.events }
  | .ok (some record) =>
    let taken := a.take multipart record
    if taken.2 then
      { answer := .complete, next := (reply.next, taken.1), events := reply.events }
    else (gather w multipart reply.next taken.1).after reply.events
termination_by scanner.unread w
decreasing_by exact Scanner.nextToken_unread_lt _h

/-- A complete message has consumed something. -/
theorem gather_unread_lt {ω η : Type} [ByteSource ω η] {w : ω} {multipart : Bool}
    {scanner : Scanner η Delimiter} {a : Assembly}
    (h : (gather w multipart scanner a).answer = .complete) :
    (gather w multipart scanner a).next.1.unread w < scanner.unread w := by
  fun_induction gather w multipart scanner a with
  | case1 | case2 => simp at h
  | case3 scanner a reply record hanswer taken htaken =>
    -- one record was enough
    exact Scanner.nextToken_unread_lt hanswer
  | case4 scanner a reply record hanswer taken htaken ih =>
    -- a record that was not enough, and then the rest of the message
    have hfirst : reply.next.unread w < scanner.unread w := Scanner.nextToken_unread_lt hanswer
    have hrest := ih h
    simp only [Reply.after_next]
    omega

/-! ## The feed

  A feed opens one stream after another and reads messages from the one it holds.  In which of
  three situations it is decides what it answers. -/

/-- What a feed holds of its streams. -/
inductive Link (η : Type) where
  /-- no stream is held, and there may be more -/
  | idle
  | connected (scanner : Scanner η Delimiter)
  /-- there are no more streams -/
  | closed

namespace Link

variable {η : Type}

/-- A stream is held. -/
def isConnected : Link η → Bool
  | .connected _ => true
  | _ => false

/-- The name of the situation. -/
def name : Link η → String
  | .idle => "Disconnected"
  | .connected _ => "Connected"
  | .closed => "PermanentlyClosed"

end Link

/-- A feed: where its streams come from, how it is set, what it has stored, and the stream that it
    holds.

    The arena belongs to the feed and not to the stream, because what was read of one stream may be
    settled only after the next one was connected. -/
structure Feed (ω φ η : Type) where
  factory : φ
  /-- how the surroundings are asked to end a read that blocks -/
  unblock : ω → ω
  settings : Settings
  arena : Arena
  link : Link η := .idle

namespace Feed

variable {ω φ η : Type}

/-- A feed on settings that fit together. -/
def make (factory : φ) (unblock : ω → ω) (settings : Settings) : Except FeedError (Feed ω φ η) :=
  match settings.validate with
  | .error fault => .error (.invalidSettings fault)
  | .ok () =>
    .ok { factory, unblock, settings, arena := Arena.ofCapacity settings.segmentCapacity }

/-- A feed begins without a stream. -/
theorem link_of_make {factory : φ} {unblock : ω → ω} {settings : Settings} {f : Feed ω φ η}
    (h : make factory unblock settings = .ok f) : f.link = .idle := by
  unfold make at h
  split at h
  · simp at h
  · obtain rfl := Except.ok.inj h
    rfl

/-- The bytes kept since the last settled delivery. -/
def bufferedBytes (f : Feed ω φ η) : Nat := f.arena.cursor

/-- The handle bears what is needed to unblock a read and nothing else of the feed, so it stays
    usable while the feed is being read. -/
def closeHandle (f : Feed ω φ η) : CloseHandle ω := ⟨f.unblock⟩

/-- A scanner over a fresh handle. -/
def scannerOver (f : Feed ω φ η) (handle : η) : Scanner η Delimiter :=
  Scanner.fresh handle ⟨f.settings.delimiterBytes⟩ f.settings.maxTokenSize

/-- Gives the handle back, if one is held. -/
def release (f : Feed ω φ η) : Reply (Feed ω φ η) Unit :=
  match f.link with
  | .connected _ =>
    { answer := (), next := { f with link := .idle }, events := [.dropped, .log .released] }
  | _ => { answer := (), next := f }

/-- Makes sure that a stream is held.  A factory is asked only while nothing is held and it has not
    said that there are no more; a stream that cannot be opened is none, and the next call asks for
    the one behind it. -/
def connect [StreamFactory ω φ η] (w : ω) (f : Feed ω φ η) :
    Reply (Feed ω φ η) (Except FeedError Unit) :=
  match f.link with
  | .connected _ => { answer := .ok (), next := f }
  | .closed => { answer := .error .closed, next := f }
  | .idle =>
    let asked := StreamFactory.nextStream w f.factory
    let f := { f with factory := asked.next }
    let events := .asked :: asked.events
    match asked.answer with
    | .stream handle =>
      { answer := .ok ()
        next := { f with link := .connected (f.scannerOver handle) }
        events := events ++
          [.obtained, .log (.connected f.settings.multipart f.settings.maxTokenSize)] }
    | .exhausted =>
      { answer := .error .closed
        next := { f with link := .closed }
        events := events ++ [.log .exhausted] }
    | .failed error =>
      { answer := .error (.io error), next := f, events := events ++ [.log (.openFailed error)] }

/-- What the gathering of a message leaves of the feed that set out for it.  A stream that is over
    still gives the message that was being gathered; one that fails does not.  Either way the handle
    is given back. -/
def settle (f : Feed ω φ η) (message : Message) :
    Ending → List Event → Reply (Feed ω φ η) (Except FeedError Message)
  | .complete, events => { answer := .ok message, next := f, events }
  | .drained, events =>
    let released := f.release
    { answer := if message.isEmpty then .error .notConnected else .ok message
      next := released.next
      events := events ++ released.events ++ [.log (.drained message.size)] }
  | .failed error, events =>
    let released := f.release
    { answer := .error error
      next := released.next
      events := events ++ released.events ++ [.log (.readFailed error)] }

/-- The next message of the stream that is held. -/
def read [ByteSource ω η] (w : ω) : Feed ω φ η → Reply (Feed ω φ η) (Except FeedError Message)
  | { factory, unblock, settings, arena, link := .connected scanner } =>
    -- taken apart, so that the arena and the scanner are handed on and not shared
    let gathered := gather w settings.multipart scanner { arena }
    let (scanner, assembly) := gathered.next
    settle { factory, unblock, settings, arena := assembly.arena, link := .connected scanner }
      assembly.message gathered.answer gathered.events
  | f => { answer := .error .notConnected, next := f }

/-- A read of the stream that is held is gathering and settling. -/
theorem read_connected [ByteSource ω η] {w : ω} {f : Feed ω φ η} {scanner : Scanner η Delimiter}
    (h : f.link = .connected scanner) :
    f.read w =
      let gathered := gather w f.settings.multipart scanner { arena := f.arena }
      settle { f with link := .connected gathered.next.1, arena := gathered.next.2.arena }
        gathered.next.2.message gathered.answer gathered.events := by
  cases f
  cases h
  rfl

/-- Without a stream a read does nothing, and says so. -/
theorem read_not_connected [ByteSource ω η] {w : ω} {f : Feed ω φ η}
    (h : f.link.isConnected = false) :
    f.read w = { answer := .error .notConnected, next := f } := by
  obtain ⟨factory, unblock, settings, arena, link⟩ := f
  cases link with
  | connected scanner => simp [Link.isConnected] at h
  | idle | closed => rfl

/-- A bound on the reads that the stream that is held can still answer with a message. -/
def unread [ByteSource ω η] (w : ω) (f : Feed ω φ η) : Nat :=
  match f.link with
  | .connected scanner => scanner.unread w + 1
  | _ => 0

/-- Every message read brings the stream nearer to its end.  A complete message has taken something
    from the stream, and a message that the end of the stream completes leaves no stream at all. -/
theorem read_unread_lt [ByteSource ω η] {w : ω} {f : Feed ω φ η} {message : Message}
    (h : (f.read w).answer = .ok message) : (f.read w).next.unread w < f.unread w := by
  cases hlink : f.link with
  | idle => simp [read_not_connected, hlink, Link.isConnected] at h
  | closed => simp [read_not_connected, hlink, Link.isConnected] at h
  | connected scanner =>
    rw [read_connected hlink] at h ⊢
    cases hend : (gather w f.settings.multipart scanner { arena := f.arena }).answer with
    | complete =>
      have := gather_unread_lt hend
      simp only [settle, unread, hlink, hend]
      omega
    | drained => simp [settle, unread, hlink, hend, release]
    | failed error => simp [settle, hend] at h

/-- After a failed read no stream is held. -/
theorem read_error_link [ByteSource ω η] {w : ω} {f : Feed ω φ η} {error : FeedError}
    (h : (f.read w).answer = .error error) : (f.read w).next.link.isConnected = false := by
  cases hlink : f.link with
  | idle => simp [read_not_connected, hlink, Link.isConnected]
  | closed => simp [read_not_connected, hlink, Link.isConnected]
  | connected scanner =>
    rw [read_connected hlink] at h ⊢
    cases hend : (gather w f.settings.multipart scanner { arena := f.arena }).answer with
    | complete => simp [settle, hend] at h
    | drained => simp [settle, hend, release, Link.isConnected]
    | failed error => simp [settle, hend, release, Link.isConnected]

@[simp] theorem read_factory [ByteSource ω η] (w : ω) (f : Feed ω φ η) :
    (f.read w).next.factory = f.factory := by
  cases hlink : f.link with
  | idle => simp [read_not_connected, hlink, Link.isConnected]
  | closed => simp [read_not_connected, hlink, Link.isConnected]
  | connected scanner =>
    rw [read_connected hlink]
    cases hend : (gather w f.settings.multipart scanner { arena := f.arena }).answer <;>
      simp [settle, hend, release]

/-- Settles what was read, or keeps it all because it did not arrive.  The messages themselves are
    not kept here, so a failure changes nothing but the log. -/
def acknowledge (failure : Option String) (f : Feed ω φ η) :
    Reply (Feed ω φ η) (Except FeedError Unit) :=
  match failure with
  | none => { answer := .ok (), next := { f with arena := f.arena.reset } }
  | some reason =>
    { answer := .ok (), next := f, events := [.log (.deliveryFailed reason f.bufferedBytes)] }

/-- Gives the handle back at once, whatever time is granted. -/
def waitForClose (milliseconds : Nat) (f : Feed ω φ η) :
    Reply (Feed ω φ η) (Except FeedError Unit) :=
  { answer := .ok ()
    next := f.release.next
    events := .log (.closing milliseconds) :: f.release.events }

instance [StreamFactory ω φ η] [ByteSource ω η] : MessageReader ω (Feed ω φ η) where
  connect := connect
  read := read
  acknowledge _ := acknowledge
  waitForClose _ := waitForClose
  closeAsync f := f.unblock

/-! As a reader of messages a feed does what its own operations do. -/

@[simp] theorem reader_connect [StreamFactory ω φ η] [ByteSource ω η] (w : ω) (f : Feed ω φ η) :
    MessageReader.connect w f = f.connect w := rfl

@[simp] theorem reader_read [StreamFactory ω φ η] [ByteSource ω η] (w : ω) (f : Feed ω φ η) :
    MessageReader.read w f = f.read w := rfl

@[simp] theorem reader_acknowledge [StreamFactory ω φ η] [ByteSource ω η] (w : ω)
    (failure : Option String) (f : Feed ω φ η) :
    MessageReader.acknowledge w failure f = f.acknowledge failure := rfl

/-- The feed, written out for whoever has to find out what it is doing. -/
def describe (f : Feed ω φ η) : String :=
  "LineReader \x7b state: " ++ f.link.name ++ ", config: " ++ f.settings.describe ++
    ", buffered_bytes: " ++ toString f.bufferedBytes ++ ", .. \x7d"

end Feed

end RecordFeed
